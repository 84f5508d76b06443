import CompiledFrames.Proofs.Memory.Segments
import CompiledFrames.Proofs.MethodRecord.Stored

/-!
# What the walk looks at

The walk over the sections of a record measures each section and reads no more of it than that
takes: the first word, and the last byte. If both are there the section is accepted. So a section
that was accepted is all there as long as memory has no gap between the two, and the walk does not
notice a gap.

Nothing is assumed of memory here. A byte counts as readable if any read gives it.

## Main definitions

* `Memory.HasByte`, `Memory.HasBytes`: bytes that some read gives
* `Memory.Unbroken`: a range in which no byte is missing between two that are there
* `Memory.OnlyFaults`: a computation that fails only where a read gives nothing
* `SectionContent.extent`: the bytes of a section without those that fill it up

## Main results

* `SectionKind.probes_of_read`: what has been read of a section that was measured
* `MethodRecord.read_of_walk`, `MethodRecord.exists_read_of_walk`: the two ways in which a walk can end
* `MethodRecord.sections_probed`: an accepted section is there just when memory is unbroken in it
* `MethodRecord.not_hasBytes_of_sections`: a section with a gap in it is accepted
-/

namespace CompiledFrames

/-! ## Readable bytes -/

namespace Memory

variable {memory : Memory} {a b : Address} {m n : Nat} {bytes : List UInt8}

/-- Some read gives the byte at an address. -/
def HasByte (memory : Memory) (b : Address) : Prop :=
  ∃ (a : Address) (n i : Nat), i < n ∧ a + i = b ∧ (memory.window? a n).isSome

/-- Reads give each of the `n` bytes from an address on. -/
def HasBytes (memory : Memory) (a : Address) (n : Nat) : Prop :=
  ∀ i < n, memory.HasByte (a + i)

/-- Of the `n` bytes from an address on, none is missing between two that are there. -/
def Unbroken (memory : Memory) (a : Address) (n : Nat) : Prop :=
  ∀ i j k, i < j → j < k → k < n → memory.HasByte (a + i) → memory.HasByte (a + k) →
    memory.HasByte (a + j)

theorem HasBytes.unbroken (h : memory.HasBytes a n) : memory.Unbroken a n :=
  fun _ j _ _ hjk hk _ _ => h j (Nat.lt_trans hjk hk)

/-- The last byte of an unbroken range vouches for those between it and the first. -/
theorem Unbroken.hasBytes (h : memory.Unbroken a n) (hfirst : memory.HasByte (a + 0))
    (hlast : memory.HasByte (a + (n - 1))) : memory.HasBytes a n := by
  intro j hj
  by_cases hbegin : j = 0
  · rwa [hbegin]
  by_cases hend : j = n - 1
  · rwa [hend]
  · exact h 0 j (n - 1) (by omega) (by omega) (by omega) hfirst hlast

theorem hasBytes_of_readBytes (h : memory.readBytes a n = .ok bytes) : memory.HasBytes a n := by
  intro i hi
  refine ⟨a, n, i, hi, rfl, ?_⟩
  rw [readBytes_eq_ok_iff.mp h]
  rfl

/-- A read that fails says where nothing could be read. -/
theorem eq_memoryFault_of_readBytes {e : Error} (h : memory.readBytes a n = .error e) :
    e = .memoryFault a n ∧ memory.window? a n = none := by
  unfold readBytes at h
  cases hwindow : memory.window? a n with
  | some bytes =>
    rw [hwindow] at h
    cases h
  | none =>
    rw [hwindow] at h
    exact ⟨(Except.error.inj h).symm, rfl⟩

/-- A number is there if it can be read. -/
theorem hasBytes_of_map {α : Type} {f : Nat → α} {value : α}
    (h : (memory.readNat a n).map f = .ok value) : memory.HasBytes a n := by
  obtain ⟨_, hnumber, -⟩ := Except.map_eq_ok.mp h
  obtain ⟨_, hbytes, -⟩ := Except.map_eq_ok.mp hnumber
  exact hasBytes_of_readBytes hbytes

theorem eq_memoryFault_of_map {α : Type} {f : Nat → α} {e : Error}
    (h : (memory.readNat a n).map f = .error e) :
    e = .memoryFault a n ∧ memory.window? a n = none :=
  eq_memoryFault_of_readBytes (Except.map_eq_error.mp (Except.map_eq_error.mp h))

/-- All errors of a computation are faults of reads that give nothing. -/
def OnlyFaults {α : Type} (memory : Memory) (x : Except Error α) : Prop :=
  ∀ e, x = .error e → ∃ a n, e = .memoryFault a n ∧ memory.window? a n = none

section OnlyFaults

variable {α β : Type} {x y : Except Error α} {f : α → Except Error β}

theorem onlyFaults_ok (value : α) : memory.OnlyFaults (.ok value) :=
  nofun

theorem onlyFaults_readBytes (a : Address) (n : Nat) : memory.OnlyFaults (memory.readBytes a n) :=
  fun _ h => ⟨a, n, eq_memoryFault_of_readBytes h⟩

theorem OnlyFaults.bind (hx : memory.OnlyFaults x) (hf : ∀ value, memory.OnlyFaults (f value)) :
    memory.OnlyFaults (x >>= f) := by
  intro e h
  rcases Except.bind_eq_error.mp h with h | ⟨value, -, h⟩
  · exact hx e h
  · exact hf value e h

theorem OnlyFaults.map (hx : memory.OnlyFaults x) (f : α → β) : memory.OnlyFaults (x.map f) :=
  fun e h => hx e (Except.map_eq_error.mp h)

theorem OnlyFaults.ite {c : Prop} [Decidable c] (hx : memory.OnlyFaults x)
    (hy : memory.OnlyFaults y) : memory.OnlyFaults (if c then x else y) := by
  split
  · exact hx
  · exact hy

theorem onlyFaults_readNat (a : Address) (n : Nat) : memory.OnlyFaults (memory.readNat a n) :=
  (onlyFaults_readBytes a n).map littleEndian

theorem onlyFaults_readU8 (a : Address) : memory.OnlyFaults (memory.readU8 a) :=
  (onlyFaults_readNat a 1).map _

theorem onlyFaults_readU16 (a : Address) : memory.OnlyFaults (memory.readU16 a) :=
  (onlyFaults_readNat a 2).map _

theorem onlyFaults_readU32 (a : Address) : memory.OnlyFaults (memory.readU32 a) :=
  (onlyFaults_readNat a 4).map _

theorem onlyFaults_readU64 (a : Address) : memory.OnlyFaults (memory.readU64 a) :=
  (onlyFaults_readNat a 8).map _

end OnlyFaults

/-- Bytes that are there on both sides of a border are there across it. -/
theorem HasBytes.append (h : memory.HasBytes a m) (h' : memory.HasBytes (a + m) n) :
    memory.HasBytes a (m + n) := by
  intro i hi
  by_cases him : i < m
  · exact h i him
  · have hbehind := h' (i - m) (by omega)
    rwa [Address.add_add, Nat.add_sub_cancel' (Nat.le_of_not_lt him)] at hbehind

end Memory

/-! ## Sections -/

/-- The bytes of a section, without those that fill it up to a multiple of four. -/
def SectionContent.extent : SectionContent → Nat
  | word _ => 4
  | block length => 4 + length.toNat
  | exceptions catchCount throwCount => 4 + catchCount.toNat * 16 + throwCount.toNat * 4
  | last => 0

namespace SectionKind

variable {memory : Memory} {a : Address} {content : SectionContent} {e : Error}

theorem probes_of_readBlock (h : readBlock memory a = .ok content) :
    4 ≤ content.extent ∧ memory.HasBytes a 4 ∧ memory.HasByte (a + (content.extent - 1)) := by
  obtain ⟨length, hlength, h⟩ := Except.bind_eq_ok.mp h
  have hword : memory.HasBytes a 4 := Memory.hasBytes_of_map hlength
  by_cases hzero : length = 0
  · rw [if_neg (not_not_intro hzero)] at h
    obtain rfl := Except.ok.inj h
    subst hzero
    exact ⟨by simp [SectionContent.extent], hword, hword 3 (by omega)⟩
  · rw [if_pos hzero] at h
    obtain ⟨last, hlast, h⟩ := Except.bind_eq_ok.mp h
    obtain rfl := Except.ok.inj h
    have hpos : length.toNat ≠ 0 := fun h0 => hzero (UInt32.toNat_inj.mp h0)
    have hbyte := Memory.hasBytes_of_map hlast 0 (by omega)
    have hplace : 4 + (length.toNat - 1) = 4 + length.toNat - 1 := by omega
    rw [Address.add_zero, Address.add_add, hplace] at hbyte
    exact ⟨Nat.le_add_right _ _, hword, hbyte⟩

theorem probes_of_readExceptions (h : readExceptions memory a = .ok content) :
    4 ≤ content.extent ∧ memory.HasBytes a 4 ∧ memory.HasByte (a + (content.extent - 1)) := by
  obtain ⟨catchCount, hcatch, h⟩ := Except.bind_eq_ok.mp h
  obtain ⟨throwCount, hthrow, h⟩ := Except.bind_eq_ok.mp h
  have hword : memory.HasBytes a 4 :=
    (Memory.hasBytes_of_map hcatch).append (Memory.hasBytes_of_map hthrow)
  have hextent : (SectionContent.exceptions catchCount throwCount).extent =
      (SectionContent.exceptions catchCount throwCount).size := rfl
  have hfour : 4 ≤ (SectionContent.exceptions catchCount throwCount).size := by
    simp only [SectionContent.size]
    omega
  dsimp only at h
  split at h
  · obtain ⟨last, hlast, h⟩ := Except.bind_eq_ok.mp h
    obtain rfl := Except.ok.inj h
    have hbyte := Memory.hasBytes_of_map hlast 0 (by omega)
    rw [Address.add_zero] at hbyte
    exact ⟨hfour, hword, hbyte⟩
  · obtain rfl := Except.ok.inj h
    refine ⟨hfour, hword, hword _ ?_⟩
    omega

/-- **What has been read** of a section that was measured: its first word and its last byte. -/
theorem probes_of_read {kind : SectionKind} (hkind : kind ≠ debugInfo)
    (h : kind.read memory a = .ok content) :
    4 ≤ content.extent ∧ memory.HasBytes a 4 ∧ memory.HasByte (a + (content.extent - 1)) := by
  cases kind with
  | extendedModifiers | genericSignature =>
    obtain ⟨value, hvalue, rfl⟩ := Except.map_eq_ok.mp h
    have hword : memory.HasBytes a 4 := Memory.hasBytes_of_map hvalue
    exact ⟨Nat.le_refl _, hword, hword 3 (by omega)⟩
  | exceptionInfo => exact probes_of_readExceptions h
  | methodAnnotations | parameterAnnotations | defaultAnnotation | methodTypeAnnotations
  | codeTypeAnnotations => exact probes_of_readBlock h
  | debugInfo => exact absurd rfl hkind

theorem onlyFaults_readBlock (a : Address) : memory.OnlyFaults (readBlock memory a) := by
  apply (Memory.onlyFaults_readU32 a).bind
  intro length
  apply Memory.OnlyFaults.ite
  · exact (Memory.onlyFaults_readU8 _).bind fun _ => Memory.onlyFaults_ok _
  · exact Memory.onlyFaults_ok _

theorem onlyFaults_readExceptions (a : Address) :
    memory.OnlyFaults (readExceptions memory a) := by
  apply (Memory.onlyFaults_readU16 a).bind
  intro catchCount
  apply (Memory.onlyFaults_readU16 (a + 2)).bind
  intro throwCount
  apply Memory.OnlyFaults.ite
  · exact (Memory.onlyFaults_readU8 _).bind fun _ => Memory.onlyFaults_ok _
  · exact Memory.onlyFaults_ok _

/-- A section that cannot be measured has a part of which nothing can be read. -/
theorem onlyFaults_read (kind : SectionKind) (a : Address) :
    memory.OnlyFaults (kind.read memory a) := by
  cases kind with
  | extendedModifiers | genericSignature => exact (Memory.onlyFaults_readU32 a).map _
  | exceptionInfo => exact onlyFaults_readExceptions a
  | methodAnnotations | parameterAnnotations | defaultAnnotation | methodTypeAnnotations
  | codeTypeAnnotations => exact onlyFaults_readBlock a
  | debugInfo => exact Memory.onlyFaults_ok _

end SectionKind

/-! ## The walk -/

namespace MethodRecord

variable {record : MethodRecord} {memory : Memory} {kinds : List SectionKind} {cursor : Address}
  {extended : ExtendedModifiers}

/-- One step of a walk that succeeds: nothing of a kind that is not announced, or a section that was
measured at the cursor, and the others behind it. -/
theorem walk_cons_cases {kind : SectionKind} {sections : List PlacedSection}
    (h : record.walk memory (kind :: kinds) cursor extended = .ok sections) :
    record.walk memory kinds cursor extended = .ok sections ∨
      ∃ content rest, kind.announced record.modifiers extended ∧
        kind.read memory cursor = .ok content ∧ sections = ⟨kind, cursor, content⟩ :: rest ∧
        record.walk memory kinds (cursor + content.size)
          (PlacedSection.extended ⟨kind, cursor, content⟩ extended) = .ok rest := by
  rw [walk] at h
  split at h
  · next hannounced =>
    obtain ⟨content, hcontent, h⟩ := Except.bind_eq_ok.mp h
    obtain ⟨rest, hrest, h⟩ := Except.bind_eq_ok.mp h
    obtain rfl := Except.ok.inj h
    exact .inr ⟨content, rest, hannounced, Except.mapError_eq_ok.mp hcontent, rfl, hrest⟩
  · exact .inl h

/-- Each section that a walk has found was measured where it is. -/
theorem read_of_walk {sections : List PlacedSection}
    (h : record.walk memory kinds cursor extended = .ok sections) :
    ∀ placed ∈ sections, placed.kind.read memory placed.address = .ok placed.content := by
  induction kinds generalizing cursor extended sections with
  | nil =>
    obtain rfl := Except.ok.inj h
    nofun
  | cons kind kinds ih =>
    rcases walk_cons_cases h with h | ⟨content, rest, -, hcontent, rfl, hrest⟩
    · exact ih h
    · exact List.forall_mem_cons.mpr ⟨hcontent, ih hrest⟩

/-- A walk fails where a section cannot be measured, and says which one that is. -/
theorem exists_read_of_walk {e : Error}
    (h : record.walk memory kinds cursor extended = .error e) :
    ∃ kind ∈ kinds, ∃ a cause, kind.read memory a = .error cause ∧
      e = record.unreadable kind cause := by
  induction kinds generalizing cursor extended with
  | nil => cases h
  | cons kind kinds ih =>
    have hlater : ∀ {cursor extended}, record.walk memory kinds cursor extended = .error e →
        ∃ kind' ∈ kind :: kinds, ∃ a cause, kind'.read memory a = .error cause ∧
          e = record.unreadable kind' cause := by
      intro cursor extended hwalk
      obtain ⟨kind', hmem, hcause⟩ := ih hwalk
      exact ⟨kind', List.mem_cons_of_mem _ hmem, hcause⟩
    rw [walk] at h
    split at h
    · rcases Except.bind_eq_error.mp h with h | ⟨content, -, h⟩
      · obtain ⟨cause, hread, rfl⟩ := Except.mapError_eq_error.mp h
        exact ⟨kind, List.mem_cons_self, cursor, cause, hread, rfl⟩
      · rcases Except.bind_eq_error.mp h with h | ⟨rest, -, h⟩
        · exact hlater h
        · cases h
    · exact hlater h

/-- **Accepted sections.** The walk over a record fails only where nothing can be read, and names
the record and the section. Of each section that it accepts, but for the last one, the first word and
the last byte can be read. The bytes between them are all there just when memory has no gap among
them. -/
theorem sections_probed (record : MethodRecord) (memory : Memory) :
    (∀ e, record.sections memory = .error e →
      ∃ kind a n, memory.window? a n = none ∧
        e = .malformedRecord ("method record at " ++ record.address.text)
          (SectionKind.name kind ++ " flagged present but unreadable: " ++
            (Error.memoryFault a n).message)) ∧
    ∀ layout, record.sections memory = .ok layout →
      ∀ placed ∈ layout.sections, placed.kind ≠ .debugInfo →
        memory.HasBytes placed.address 4 ∧
        memory.HasByte (placed.address + (placed.content.extent - 1)) ∧
        (memory.HasBytes placed.address placed.content.extent ↔
          memory.Unbroken placed.address placed.content.extent) := by
  constructor
  · intro e h
    obtain ⟨kind, -, a, cause, hread, rfl⟩ := exists_read_of_walk (Except.map_eq_error.mp h)
    obtain ⟨b, n, rfl, hwindow⟩ := SectionKind.onlyFaults_read kind a cause hread
    exact ⟨kind, b, n, hwindow, rfl⟩
  · intro layout h placed hplaced hkind
    obtain ⟨sections, hwalk, rfl⟩ := Except.map_eq_ok.mp h
    obtain ⟨-, hword, hlast⟩ :=
      SectionKind.probes_of_read hkind (read_of_walk hwalk placed hplaced)
    refine ⟨hword, hlast, Memory.HasBytes.unbroken, ?_⟩
    intro hunbroken
    exact hunbroken.hasBytes (hword 0 (by omega)) hlast

/-! ### A gap -/

/-- A record with eight bytes of method annotations, of which memory has only the last one. -/
def gappedImage : MemoryImage :=
  .ofSegments [
    ⟨⟨0x1000⟩, #[0, 0, 0, 0, 0, 0, 0, 0, 0, 0, 0, 0x20, 0, 0, 0, 0, 0, 0, 0, 0, 8, 0, 0, 0]⟩,
    ⟨⟨0x101f⟩, #[0]⟩]

/-- The record of `gappedImage`. -/
def gappedRecord : MethodRecord :=
  ⟨⟨0x1000⟩, ⟨0, 0, 0x20000000, 0, 0, 0, 0, 0⟩⟩

/-- The annotations of `gappedRecord`. -/
def gappedSection : PlacedSection :=
  ⟨.methodAnnotations, ⟨0x1014⟩, .block 8⟩

theorem sections_gappedRecord :
    gappedRecord.sections gappedImage.toMemory = .ok ⟨⟨0x1000⟩, [gappedSection]⟩ := by
  decide +kernel

/-- The record of `gappedImage` is accepted with its section. -/
theorem sections_probed_gapped :
    gappedRecord.sections gappedImage.toMemory = .ok ⟨⟨0x1000⟩, [gappedSection]⟩ ∧
      gappedImage.toMemory.HasBytes ⟨0x1014⟩ 4 ∧ gappedImage.toMemory.HasByte ⟨0x101f⟩ ∧
      (gappedImage.toMemory.HasBytes ⟨0x1014⟩ 12 ↔ gappedImage.toMemory.Unbroken ⟨0x1014⟩ 12) :=
  ⟨sections_gappedRecord,
    (sections_probed gappedRecord gappedImage.toMemory).2 ⟨⟨0x1000⟩, [gappedSection]⟩
      sections_gappedRecord gappedSection List.mem_cons_self (by decide)⟩

/-- **A gap goes unnoticed**: it is false that of each section that the walk accepts all bytes can
be read. -/
theorem not_hasBytes_of_sections :
    ¬ ∀ (record : MethodRecord) (memory : Memory) (layout : SectionLayout),
      record.sections memory = .ok layout →
        ∀ placed ∈ layout.sections, placed.kind ≠ .debugInfo →
          memory.HasBytes placed.address placed.content.extent := by
  intro h
  obtain ⟨a, n, i, hi, ha, hwindow⟩ :=
    h _ _ _ sections_gappedRecord gappedSection List.mem_cons_self (by decide) 4 (by decide)
  obtain ⟨bytes, hbytes⟩ := Option.isSome_iff_exists.mp hwindow
  obtain ⟨s, hs, hin, -⟩ := MemoryImage.exists_includes_of_window? hbytes
  have haround : ∀ s ∈ gappedImage.segments, s.Fits ∧
      (s.base.toNat + s.bytes.size ≤ 0x1018 ∨ 0x1018 < s.base.toNat) := by
    decide +kernel
  obtain ⟨hfits, haround⟩ := haround s hs
  obtain ⟨hlow, hhigh⟩ := hin
  have hplace : (a.toNat + i) % 0x10000000000000000 = 0x1018 := by
    rw [← Address.toNat_add, ha]
    rfl
  have hend : s.base.toNat + s.bytes.size < 0x10000000000000000 := hfits
  omega

end MethodRecord

end CompiledFrames
