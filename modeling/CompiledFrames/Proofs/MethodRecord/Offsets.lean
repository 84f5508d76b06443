import Mathlib.Algebra.Order.BigOperators.Group.List
import Mathlib.Algebra.Order.Ring.Nat
import CompiledFrames.Proofs.MethodRecord.Probes

/-!
# Where sections lie

The walk over a record steps from section to section by the size of each. All sizes are multiples of
four, so that alignment is kept, and all but that of the last section are at least four. The addresses
wrap around at the end of memory, but the record does not reach around itself: there are at most nine
sections, each of them shorter than eight gibibytes. So the distances from the record, counted
around the end of memory, rise as the sizes say.

The sizes themselves are sums and products of machine words which stop the program if they do not
fit. They always fit, since lengths have thirty-two bits and counts have sixteen.

## Main definitions

* `Address.stepsFrom`: the steps from one place on to another, around the end of memory
* `SectionContent.sizeWord`: the size of a section in checked arithmetic of machine words
* `PlacedSection.Consecutive`: sections that lie one behind the other

## Main results

* `SectionContent.gives_sizeWord`: no size computation overflows
* `MethodRecord.consecutive_of_walk`: the walk finds sections that lie one behind the other
* `PlacedSection.Consecutive.pairwise`: their distances from the record rise by their sizes
* `MethodRecord.sections_aligned`: distances, gaps and sizes of the sections of a record
-/

namespace CompiledFrames

/-! ## Distances -/

namespace Address

/-- The steps from `base` on to a place, around the end of memory if the place is before `base`. -/
def stepsFrom (a base : Address) : Nat :=
  (a.val - base.val).toNat

theorem stepsFrom_add (base : Address) (n : Nat) :
    (base + n).stepsFrom base = n % 0x10000000000000000 := by
  show (base.val + UInt64.ofNat n - base.val).toNat = _
  rw [UInt64.add_comm, UInt64.add_sub_cancel, UInt64.toNat_ofNat']

theorem stepsFrom_add_of_lt (base : Address) {n : Nat} (h : n < 0x10000000000000000) :
    (base + n).stepsFrom base = n := by
  rw [stepsFrom_add, Nat.mod_eq_of_lt h]

/-- A place that is not before `base` is as many steps away as its distance says. -/
theorem stepsFrom_of_distance? {a base : Address} {n : Nat} (h : a.distance? base = some n) :
    a.stepsFrom base = n := by
  unfold distance? at h
  split_ifs at h with hle
  obtain rfl := Option.some.inj h
  exact UInt64.toNat_sub_of_le _ _ hle

end Address

/-! ## Sizes -/

/-- A machine word that is being computed. -/
abbrev CheckedWord :=
  Except Trap UInt64

namespace CheckedWord

variable {x y : CheckedWord} {m n : Nat}

/-- The sum of two words, which has to be one too. -/
def add (x y : CheckedWord) : CheckedWord := do
  let m ← x
  let n ← y
  if m.toNat + n.toNat < 0x10000000000000000 then .ok (m + n) else .error .addOverflow

/-- The product of two words, which has to be one too. -/
def mul (x y : CheckedWord) : CheckedWord := do
  let m ← x
  let n ← y
  if m.toNat * n.toNat < 0x10000000000000000 then .ok (m * n) else .error .mulOverflow

/-- A word rounded up to a multiple of four. -/
def roundUp (x : CheckedWord) : CheckedWord := do
  roundUp4Word (← x)

/-- The computation ends with the word of a number, and without a trap. -/
def Gives (x : CheckedWord) (n : Nat) : Prop :=
  ∃ word : UInt64, x = .ok word ∧ word.toNat = n

theorem gives_ok {word : UInt64} (h : word.toNat = n) : Gives (.ok word) n :=
  ⟨word, rfl, h⟩

theorem Gives.add (hx : x.Gives m) (hy : y.Gives n) (h : m + n < 0x10000000000000000) :
    (x.add y).Gives (m + n) := by
  obtain ⟨v, rfl, rfl⟩ := hx
  obtain ⟨w, rfl, rfl⟩ := hy
  refine ⟨v + w, if_pos h, ?_⟩
  rw [UInt64.toNat_add, Nat.mod_eq_of_lt h]

theorem Gives.mul (hx : x.Gives m) (hy : y.Gives n) (h : m * n < 0x10000000000000000) :
    (x.mul y).Gives (m * n) := by
  obtain ⟨v, rfl, rfl⟩ := hx
  obtain ⟨w, rfl, rfl⟩ := hy
  refine ⟨v * w, if_pos h, ?_⟩
  rw [UInt64.toNat_mul, Nat.mod_eq_of_lt h]

theorem Gives.roundUp (hx : x.Gives n) (h : n + 3 < 0x10000000000000000) :
    x.roundUp.Gives (roundUp4 n) := by
  obtain ⟨v, rfl, rfl⟩ := hx
  have hle : roundUp4 v.toNat < 0x10000000000000000 := by
    unfold roundUp4
    omega
  refine ⟨UInt64.ofNat (roundUp4 v.toNat), if_pos h, ?_⟩
  rw [UInt64.toNat_ofNat', Nat.mod_eq_of_lt hle]

end CheckedWord

/-- The number of bytes of bytecode, in checked arithmetic. -/
def RecordHeader.bytecodeSizeWord (header : RecordHeader) : CheckedWord :=
  CheckedWord.add (.ok header.bytecodeSizeLow.toUInt64)
    (CheckedWord.mul (.ok header.bytecodeSizeHigh.toUInt64) (.ok 0x10000))

theorem RecordHeader.gives_bytecodeSizeWord (header : RecordHeader) :
    header.bytecodeSizeWord.Gives header.bytecodeSize := by
  have hlow := header.bytecodeSizeLow.toNat_lt
  have hhigh := header.bytecodeSizeHigh.toNat_lt
  have hproduct : (CheckedWord.mul (.ok header.bytecodeSizeHigh.toUInt64) (.ok 0x10000)).Gives
      (header.bytecodeSizeHigh.toNat * 0x10000) :=
    (CheckedWord.gives_ok (UInt8.toNat_toUInt64 _)).mul (CheckedWord.gives_ok rfl) (by omega)
  exact (CheckedWord.gives_ok (UInt16.toNat_toUInt64 _)).add hproduct (by omega)

namespace SectionContent

/-- The size of a section, in checked arithmetic. -/
def sizeWord : SectionContent → CheckedWord
  | word _ => .ok 4
  | block length => (CheckedWord.add (.ok length.toUInt64) (.ok 4)).roundUp
  | exceptions catchCount throwCount =>
    (CheckedWord.add (.ok 4) (.mul (.ok catchCount.toUInt64) (.ok 16))).add
      (.mul (.ok throwCount.toUInt64) (.ok 4))
  | last => .ok 0

/-- **No size computation overflows.** -/
theorem gives_sizeWord (content : SectionContent) : content.sizeWord.Gives content.size := by
  cases content with
  | word _ | last => exact CheckedWord.gives_ok rfl
  | block length =>
    have hlength := length.toNat_lt
    have hsum : (CheckedWord.add (.ok length.toUInt64) (.ok 4)).Gives (length.toNat + 4) :=
      (CheckedWord.gives_ok (UInt32.toNat_toUInt64 _)).add (CheckedWord.gives_ok rfl) (by omega)
    exact hsum.roundUp (by omega)
  | exceptions catchCount throwCount =>
    have hcatch := catchCount.toNat_lt
    have hthrow := throwCount.toNat_lt
    have hhandlers : (CheckedWord.mul (.ok catchCount.toUInt64) (.ok 16)).Gives
        (catchCount.toNat * 16) :=
      (CheckedWord.gives_ok (UInt16.toNat_toUInt64 _)).mul (CheckedWord.gives_ok rfl) (by omega)
    have hnames : (CheckedWord.mul (.ok throwCount.toUInt64) (.ok 4)).Gives
        (throwCount.toNat * 4) :=
      (CheckedWord.gives_ok (UInt16.toNat_toUInt64 _)).mul (CheckedWord.gives_ok rfl) (by omega)
    have hfront : (CheckedWord.add (.ok 4) (.mul (.ok catchCount.toUInt64) (.ok 16))).Gives
        (4 + catchCount.toNat * 16) :=
      (CheckedWord.gives_ok (n := 4) rfl).add hhandlers (by omega)
    exact hfront.add hnames (by omega)

theorem size_lt (content : SectionContent) : content.size < 0x200000000 := by
  cases content with
  | word _ | last => simp [size]
  | block length =>
    have hlength := length.toNat_lt
    have hround := roundUp4_lt (length.toNat + 4)
    rw [size]
    omega
  | exceptions catchCount throwCount =>
    have hcatch := catchCount.toNat_lt
    have hthrow := throwCount.toNat_lt
    rw [size]
    omega

theorem dvd_size (content : SectionContent) : 4 ∣ content.size := by
  cases content with
  | word _ | last => simp [size]
  | block length => exact Nat.dvd_of_mod_eq_zero (roundUp4_mod _)
  | exceptions catchCount throwCount =>
    rw [size]
    omega

/-- What fills a section up comes behind its own bytes. -/
theorem extent_le_size (content : SectionContent) : content.extent ≤ content.size := by
  cases content with
  | block length =>
    rw [extent, size, Nat.add_comm]
    exact le_roundUp4 _
  | _ => exact Nat.le_refl _

end SectionContent

/-! ## One behind the other -/

namespace PlacedSection

variable {record : Address} {n : Nat} {sections : List PlacedSection} {first : PlacedSection}

/-- The sections lie one behind the other, the first of them `n` bytes behind the record. -/
inductive Consecutive (record : Address) : Nat → List PlacedSection → Prop
  | nil {n : Nat} : Consecutive record n []
  | cons {n : Nat} {placed : PlacedSection} {rest : List PlacedSection}
      (address : placed.address = record + n)
      (consecutive : Consecutive record (n + placed.content.size) rest) :
      Consecutive record n (placed :: rest)

/-- The bytes that sections take up. -/
def total (sections : List PlacedSection) : Nat :=
  (sections.map (·.content.size)).sum

/-- Only the section with the extended flags changes them. -/
theorem extended_of_ne {placed : PlacedSection} (h : placed.kind ≠ .extendedModifiers)
    (before : ExtendedModifiers) : placed.extended before = before := by
  unfold extended
  split
  · next hkind _ => exact absurd hkind h
  · rfl

theorem total_cons (first : PlacedSection) (sections : List PlacedSection) :
    total (first :: sections) = first.content.size + total sections := by
  simp [total]

theorem Consecutive.address_of_head? (h : Consecutive record n sections)
    (hfirst : sections.head? = some first) : first.address = record + n := by
  cases h with
  | nil => cases hfirst
  | cons haddress _ =>
    obtain rfl := Option.some.inj hfirst
    exact haddress

/-- Sections that do not reach around to the record are not before the first of them, and keep its
alignment. -/
theorem Consecutive.le_and_dvd (h : Consecutive record n sections)
    (hfit : n + total sections < 0x10000000000000000) :
    ∀ placed ∈ sections, n ≤ placed.address.stepsFrom record ∧
      (4 ∣ n → 4 ∣ placed.address.stepsFrom record) := by
  induction h with
  | nil => nofun
  | @cons n placed rest haddress _ ih =>
    rw [total_cons] at hfit
    have hsteps : placed.address.stepsFrom record = n := by
      rw [haddress, Address.stepsFrom_add_of_lt record (by omega)]
    refine List.forall_mem_cons.mpr ⟨by rw [hsteps]; exact ⟨Nat.le_refl n, id⟩, ?_⟩
    intro later hlater
    obtain ⟨hle, hdvd⟩ := ih (by omega) later hlater
    exact ⟨by omega, fun hn => hdvd (Nat.dvd_add hn placed.content.dvd_size)⟩

/-- **Distances rise by sizes**: each section lies at least by its size before all later ones. -/
theorem Consecutive.pairwise (h : Consecutive record n sections)
    (hfit : n + total sections < 0x10000000000000000) :
    sections.Pairwise fun placed later =>
      placed.address.stepsFrom record + placed.content.size ≤ later.address.stepsFrom record := by
  induction h with
  | nil => exact .nil
  | @cons n placed rest haddress hrest ih =>
    rw [total_cons] at hfit
    have hsteps : placed.address.stepsFrom record = n := by
      rw [haddress, Address.stepsFrom_add_of_lt record (by omega)]
    refine List.pairwise_cons.mpr ⟨fun later hlater => ?_, ih (by omega)⟩
    rw [hsteps]
    exact (hrest.le_and_dvd (by omega) later hlater).1

end PlacedSection

/-! ## The walk -/

namespace MethodRecord

variable {record : MethodRecord} {memory : Memory} {kinds : List SectionKind} {cursor : Address}
  {extended : ExtendedModifiers} {sections : List PlacedSection} {layout : SectionLayout} {n : Nat}

/-- **The walk finds sections one behind the other.** -/
theorem consecutive_of_walk
    (h : record.walk memory kinds (record.address + n) extended = .ok sections) :
    PlacedSection.Consecutive record.address n sections := by
  induction kinds generalizing n extended sections with
  | nil =>
    obtain rfl := Except.ok.inj h
    exact .nil
  | cons kind kinds ih =>
    rcases walk_cons_cases h with h | ⟨content, rest, -, -, rfl, hrest⟩
    · exact ih h
    · rw [Address.add_add] at hrest
      exact .cons rfl (ih hrest)

/-- The sections are of the kinds that were looked for, in their order. -/
theorem sublist_of_walk (h : record.walk memory kinds cursor extended = .ok sections) :
    (sections.map (·.kind)).Sublist kinds := by
  induction kinds generalizing cursor extended sections with
  | nil =>
    obtain rfl := Except.ok.inj h
    exact List.Sublist.slnil
  | cons kind kinds ih =>
    rcases walk_cons_cases h with h | ⟨content, rest, -, -, rfl, hrest⟩
    · exact (ih h).cons kind
    · exact (ih hrest).cons_cons kind

/-- Type annotations are announced by extended flags that are there from the start, or that some
section of the walk holds. -/
theorem flags_of_walk (h : record.walk memory kinds cursor extended = .ok sections) :
    ∀ placed ∈ sections,
      placed.kind = .methodTypeAnnotations ∨ placed.kind = .codeTypeAnnotations →
        extended ≠ .none ∨ ∃ word ∈ sections, word.kind = .extendedModifiers := by
  induction kinds generalizing cursor extended sections with
  | nil =>
    obtain rfl := Except.ok.inj h
    nofun
  | cons kind kinds ih =>
    rcases walk_cons_cases h with h | ⟨content, rest, hannounced, -, rfl, hrest⟩
    · exact ih h
    · intro placed hplaced hkind
      rcases List.mem_cons.mp hplaced with rfl | hplaced
      · left
        rintro rfl
        rcases hkind with rfl | rfl <;> cases hannounced
      · by_cases hword : kind = .extendedModifiers
        · exact .inr ⟨_, List.mem_cons_self, hword⟩
        · have hlater := ih hrest placed hplaced hkind
          rw [PlacedSection.extended_of_ne hword] at hlater
          exact hlater.imp_right fun ⟨word, hmem, hkind⟩ =>
            ⟨word, List.mem_cons_of_mem _ hmem, hkind⟩

/-- A record does not reach around memory to itself. -/
theorem total_of_walk
    (h : record.walk memory SectionKind.inOrder record.sectionsStart .none = .ok sections) :
    20 + roundUp4 record.header.bytecodeSize + PlacedSection.total sections <
      0x10000000000000000 := by
  have hlength : sections.length ≤ 9 := by
    simpa [SectionKind.inOrder] using (sublist_of_walk h).length_le
  have hbytecode := record.header.bytecodeSize_lt
  have hround := roundUp4_lt record.header.bytecodeSize
  have htotal : PlacedSection.total sections ≤ sections.length * 0x200000000 := by
    have hsizes : ∀ size ∈ sections.map (·.content.size), size ≤ 0x200000000 := by
      intro size hsize
      obtain ⟨placed, -, rfl⟩ := List.mem_map.mp hsize
      exact placed.content.size_lt.le
    simpa [PlacedSection.total] using List.sum_le_card_nsmul _ _ hsizes
  omega

/-- A section behind which there is another one has a word at least. -/
theorem pairwise_four_le_of_walk
    (h : record.walk memory SectionKind.inOrder cursor extended = .ok sections) :
    sections.Pairwise fun placed _ => 4 ≤ placed.content.size := by
  -- only the section with debug information has no size, and nothing comes behind it
  have hinOrder : SectionKind.inOrder.Pairwise fun kind _ => kind ≠ .debugInfo := by
    decide
  have hkinds := List.pairwise_map.mp (hinOrder.sublist (sublist_of_walk h))
  refine hkinds.imp_of_mem fun {placed _} hplaced _ hkind => ?_
  have hprobes := SectionKind.probes_of_read hkind (read_of_walk h placed hplaced)
  exact Nat.le_trans hprobes.1 placed.content.extent_le_size

/-- **Where the sections of a record lie**, at any address and in any memory where they can be read.
Counted around the end of memory, the distances from the record are multiples of four, the first one
is that of the header and the bytecodes, and each is at least four more than the one before, in the
order of the record. What the layout gives as an offset is that distance. No size is computed with an
overflow. Type annotations come only with the section that announces them. -/
theorem sections_aligned (h : record.sections memory = .ok layout) :
    (∀ placed ∈ layout.sections, 4 ∣ placed.address.stepsFrom record.address) ∧
    (∀ first, layout.sections.head? = some first →
      first.address.stepsFrom record.address = 20 + roundUp4 record.header.bytecodeSize) ∧
    (layout.sections.map (·.kind)).Sublist SectionKind.inOrder ∧
    (layout.sections.Pairwise fun placed later =>
      placed.address.stepsFrom record.address + 4 ≤ later.address.stepsFrom record.address) ∧
    (∀ kind n, layout.offset? kind = some n → ∃ placed ∈ layout.sections,
      placed.kind = kind ∧ placed.address.stepsFrom record.address = n) ∧
    record.header.bytecodeSizeWord.roundUp.Gives (roundUp4 record.header.bytecodeSize) ∧
    (∀ placed ∈ layout.sections, placed.content.sizeWord.Gives placed.content.size) ∧
    ∀ placed ∈ layout.sections,
      placed.kind = .methodTypeAnnotations ∨ placed.kind = .codeTypeAnnotations →
        ∃ word ∈ layout.sections, word.kind = .extendedModifiers := by
  obtain ⟨sections, hwalk, rfl⟩ := Except.map_eq_ok.mp h
  have hstart : record.sectionsStart =
      record.address + (20 + roundUp4 record.header.bytecodeSize) :=
    Address.add_add _ _ _
  have hconsecutive := consecutive_of_walk (hstart ▸ hwalk)
  have hfit := total_of_walk hwalk
  have hbytecode := record.header.bytecodeSize_lt
  refine ⟨fun placed hplaced => ?_, fun first hfirst => ?_, sublist_of_walk hwalk, ?_, ?_, ?_,
    fun placed _ => placed.content.gives_sizeWord, fun placed hplaced hkind => ?_⟩
  · have hround : 4 ∣ 20 + roundUp4 record.header.bytecodeSize := by
      have := roundUp4_mod record.header.bytecodeSize
      omega
    exact (hconsecutive.le_and_dvd hfit placed hplaced).2 hround
  · rw [hconsecutive.address_of_head? hfirst, Address.stepsFrom_add_of_lt _ (by omega)]
  · refine (hconsecutive.pairwise hfit).imp₂ (fun placed later hrise hsize => ?_)
      (pairwise_four_le_of_walk hwalk)
    exact Nat.le_trans (Nat.add_le_add_left hsize _) hrise
  · intro kind n hoffset
    obtain ⟨address, haddress, hdistance⟩ := Option.bind_eq_some_iff.mp hoffset
    obtain ⟨placed, hplaced, rfl⟩ := Option.map_eq_some_iff.mp haddress
    have hkind : placed.kind = kind := by simpa using List.find?_some hplaced
    exact ⟨placed, List.mem_of_find?_eq_some hplaced, hkind,
      Address.stepsFrom_of_distance? hdistance⟩
  · exact record.header.gives_bytecodeSizeWord.roundUp (by omega)
  · rcases flags_of_walk hwalk placed hplaced hkind with hflags | hword
    · exact absurd rfl hflags
    · exact hword

/-- A memory in which all bytes are one. -/
def onesMemory : Memory where
  window? _ n := some (List.replicate n 1)
  length_window? h := by
    rw [← Option.some.inj h, List.length_replicate]

/-- A record at the end of memory, whose flags announce an extended word, exception information and
debug information. -/
def onesRecord : MethodRecord :=
  ⟨⟨0xfffffffffffffff0⟩, ⟨0, 0, 0x04060000, 0, 5, 0, 0, 0⟩⟩

/-- The sections of `onesRecord`, which lie at the beginning of memory. -/
def onesLayout : SectionLayout where
  record := ⟨0xfffffffffffffff0⟩
  sections := [⟨.extendedModifiers, ⟨0xc⟩, .word 0x1010101⟩,
    ⟨.exceptionInfo, ⟨0x10⟩, .exceptions 0x101 0x101⟩,
    ⟨.methodTypeAnnotations, ⟨0x1428⟩, .block 0x1010101⟩, ⟨.debugInfo, ⟨0x1011530⟩, .last⟩]

/-- Around the end of memory the distances rise from 28 on. -/
theorem sections_aligned_ones :
    onesRecord.sections onesMemory = .ok onesLayout ∧
      onesLayout.sections.map (·.address.stepsFrom onesRecord.address) =
        [28, 32, 0x1438, 0x1011540] ∧
      (onesLayout.sections.Pairwise fun placed later =>
        placed.address.stepsFrom onesRecord.address + 4 ≤
          later.address.stepsFrom onesRecord.address) ∧
      ∃ word ∈ onesLayout.sections, word.kind = .extendedModifiers := by
  have hsections : onesRecord.sections onesMemory = .ok onesLayout := by
    decide +kernel
  obtain ⟨-, -, -, hrise, -, -, -, hword⟩ := sections_aligned hsections
  refine ⟨hsections, by decide, hrise, ?_⟩
  exact hword ⟨.methodTypeAnnotations, ⟨0x1428⟩, .block 0x1010101⟩ (by decide) (.inl rfl)

end MethodRecord

end CompiledFrames
