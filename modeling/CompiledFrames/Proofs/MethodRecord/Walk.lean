import Mathlib.Data.Nat.Bitwise
import CompiledFrames.Proofs.Memory.Image
import CompiledFrames.Proofs.MethodRecord.Stored

/-!
# The walk finds the stored sections

A record in memory is walked section by section, each one measured in order to find the next. The
walk is the inverse of the layout: it finds the sections that were stored at the places where they
were stored, and no others.

## Main definitions

* `StoredRecord.placed?`: a section with its place, as it is stored

## Main results

* `SectionKind.announced_iff`: a section is announced when its flag is set
* `SectionKind.read_of_shows`, `SectionKind.size_content`: a stored section is measured
* `StoredRecord.walk_step`: one step of the walk over a stored record
* `StoredRecord.walk_inOrder`: the whole walk
* `StoredRecord.sections_of_shows`: what is found of a stored record
-/

namespace CompiledFrames

/-! ## Flags -/

theorem UInt32.and_bit_beq (word : UInt32) {b : Nat} (hb : b < 32) :
    (word &&& UInt32.ofNat (2 ^ b) == UInt32.ofNat (2 ^ b)) = word.toNat.testBit b := by
  have hlt : 2 ^ b < 2 ^ 32 := Nat.pow_lt_pow_right (by decide) hb
  have hbit : (UInt32.ofNat (2 ^ b)).toNat = 2 ^ b := by
    rw [UInt32.toNat_ofNat', Nat.mod_eq_of_lt hlt]
  have hpos : 0 < 2 ^ b := Nat.two_pow_pos b
  rw [Bool.eq_iff_iff, beq_iff_eq, ← UInt32.toNat_inj, UInt32.toNat_and, hbit, Nat.and_two_pow]
  cases word.toNat.testBit b with
  | false => simp [hpos.ne]
  | true => simp

/-- A known flag is set when its bit is. -/
theorem Modifiers.has_ofWord (word : UInt32) {b : Nat} (hb : b < 32)
    (hknown : known &&& UInt32.ofNat (2 ^ b) = UInt32.ofNat (2 ^ b)) :
    (ofWord word).has (UInt32.ofNat (2 ^ b)) = word.toNat.testBit b := by
  unfold ofWord has
  rw [UInt32.and_assoc, hknown, UInt32.and_bit_beq word hb]

theorem ExtendedModifiers.has_ofWord (word : UInt32) {b : Nat} (hb : b < 3) :
    (ofWord word).has (UInt32.ofNat (2 ^ b)) = word.toNat.testBit b := by
  have hknown : (methodTypeAnnotations ||| codeTypeAnnotations ||| scopedAnnotation) &&&
      UInt32.ofNat (2 ^ b) = UInt32.ofNat (2 ^ b) := by
    match b with
    | 0 | 1 | 2 => decide
  unfold ofWord has
  rw [UInt32.and_assoc, hknown, UInt32.and_bit_beq word (by omega)]

/-- The extended flags of a record, none without the word that holds them. -/
def ExtendedModifiers.ofWord? : Option UInt32 → ExtendedModifiers
  | some word => ofWord word
  | .none => none

theorem ExtendedModifiers.has_ofWord? (word? : Option UInt32) (modifiers : UInt32) {b : Nat}
    (hb : b < 3) :
    (ofWord? word?).has (UInt32.ofNat (2 ^ b)) = true ↔
      (SectionFlag.extended b).IsSet modifiers word? := by
  cases word? with
  | none =>
    match b with
    | 0 | 1 | 2 => simp [ofWord?, SectionFlag.IsSet, has, none]
  | some word => simp [ofWord?, SectionFlag.IsSet, has_ofWord word hb]

/-- A section is announced when its flag is set. The flag of the first section, which holds the
extended word, is not in that word, so that nothing has to be known of it there. -/
theorem SectionKind.announced_iff (kind : SectionKind) {modifiers : UInt32} {word? : Option UInt32}
    {extended : ExtendedModifiers}
    (h : kind = extendedModifiers ∨ extended = .ofWord? word?) :
    kind.announced (.ofWord modifiers) extended = true ↔ kind.flag.IsSet modifiers word? := by
  have hmod (b : Nat) (hb : b < 32)
      (hknown : Modifiers.known &&& UInt32.ofNat (2 ^ b) = UInt32.ofNat (2 ^ b)) :
      (Modifiers.ofWord modifiers).has (UInt32.ofNat (2 ^ b)) = true ↔
        (SectionFlag.modifier b).IsSet modifiers word? := by
    rw [Modifiers.has_ofWord modifiers hb hknown]
    rfl
  have hext (b : Nat) (hb : b < 3) (hne : kind ≠ extendedModifiers) :
      extended.has (UInt32.ofNat (2 ^ b)) = true ↔
        (SectionFlag.extended b).IsSet modifiers word? := by
    rw [h.resolve_left hne]
    exact ExtendedModifiers.has_ofWord? word? modifiers hb
  cases kind with
  | extendedModifiers => exact hmod 26 (by decide) (by decide)
  | genericSignature => exact hmod 25 (by decide) (by decide)
  | exceptionInfo => exact hmod 17 (by decide) (by decide)
  | methodAnnotations => exact hmod 29 (by decide) (by decide)
  | parameterAnnotations => exact hmod 30 (by decide) (by decide)
  | defaultAnnotation => exact hmod 31 (by decide) (by decide)
  | methodTypeAnnotations => exact hext 0 (by decide) nofun
  | codeTypeAnnotations => exact hext 1 (by decide) nofun
  | debugInfo => exact hmod 18 (by decide) (by decide)

/-! ## Sections -/

variable {memory : Memory} {a : Address}

theorem SectionKind.readBlock_of_shows {block : StoredBlock} (h : memory.Shows a block.bytes) :
    readBlock memory a = .ok (.block (UInt32.ofNat block.data.length)) := by
  have hword : memory.readU32 a = .ok (UInt32.ofNat block.data.length) := by
    apply Memory.Shows.readU32
    rw [block.toNat_length]
    exact h.left
  unfold readBlock
  rw [hword, Except.ok_bind]
  by_cases hzero : UInt32.ofNat block.data.length = 0
  · simp only [hzero, ne_eq, not_true, if_false, Except.pure_eq]
  · have hpos : block.data.length ≠ 0 := fun h0 => hzero (by rw [h0]; rfl)
    have hlast := h.right.left.readU8 (i := block.data.length - 1) (by omega)
    rw [length_littleBytes] at hlast
    simp only [hzero, ne_eq, not_false_eq_true, if_true, block.toNat_length, hlast, Except.ok_bind,
      Except.pure_eq]

theorem SectionKind.readExceptions_of_shows {table : StoredExceptions}
    (h : memory.Shows a table.bytes) :
    readExceptions memory a = .ok (.exceptions table.catchCount table.throwCount) := by
  have hcatch : memory.readU16 a = .ok table.catchCount := h.left.readU16
  have hthrow : memory.readU16 (a + 2) = .ok table.throwCount := by
    have hright := h.right.left.readU16
    rwa [length_littleBytes] at hright
  have hsize : (SectionContent.exceptions table.catchCount table.throwCount).size =
      table.bytes.length := table.length_bytes.symm
  have hpos : 0 < table.bytes.length := by
    rw [table.length_bytes]
    omega
  have hlast := h.readU8 (i := table.bytes.length - 1) (by omega)
  unfold readExceptions
  simp only [hcatch, hthrow, hsize, hlast, Except.ok_bind, Except.pure_eq, ite_self]

namespace SectionKind

/-- What the walk learns of a section. -/
def content : (kind : SectionKind) → kind.Stored → SectionContent
  | extendedModifiers, (word : UInt32) | genericSignature, (word : UInt32) => .word word
  | exceptionInfo, (table : StoredExceptions) => .exceptions table.catchCount table.throwCount
  | methodAnnotations, (block : StoredBlock) | parameterAnnotations, (block : StoredBlock)
  | defaultAnnotation, (block : StoredBlock) | methodTypeAnnotations, (block : StoredBlock)
  | codeTypeAnnotations, (block : StoredBlock) => .block (UInt32.ofNat block.data.length)
  | debugInfo, _ => .last

/-- A section that memory shows is read. -/
theorem read_of_shows {kind : SectionKind} {stored : kind.Stored}
    (h : memory.Shows a (kind.storedBytes stored)) :
    kind.read memory a = .ok (kind.content stored) := by
  cases kind with
  | extendedModifiers | genericSignature =>
    have hword := Memory.Shows.readU32 h
    unfold read
    rw [hword]
    rfl
  | exceptionInfo => exact readExceptions_of_shows h
  | methodAnnotations | parameterAnnotations | defaultAnnotation | methodTypeAnnotations
  | codeTypeAnnotations => exact readBlock_of_shows h
  | debugInfo => rfl

theorem size_block (block : StoredBlock) :
    (SectionContent.block (UInt32.ofNat block.data.length)).size = block.bytes.length := by
  rw [SectionContent.size, block.toNat_length, block.length_bytes]

/-- A section is as long as the walk takes it to be, but for the last one, which is not measured. -/
theorem size_content {kind : SectionKind} (hk : kind ≠ debugInfo) (stored : kind.Stored) :
    (kind.content stored).size = (kind.storedBytes stored).length := by
  cases kind with
  | extendedModifiers | genericSignature => exact (length_littleBytes 4 _).symm
  | exceptionInfo => exact (StoredExceptions.length_bytes stored).symm
  | methodAnnotations | parameterAnnotations | defaultAnnotation | methodTypeAnnotations
  | codeTypeAnnotations => exact size_block stored
  | debugInfo => exact absurd rfl hk

end SectionKind

/-! ## The walk -/

namespace StoredRecord

variable {record : StoredRecord} {kind : SectionKind} {before kinds : List SectionKind}
  {extended : ExtendedModifiers}

/-- The section of a record at `a`, with its place, if the record has it. -/
def placed? (record : StoredRecord) (a : Address) (kind : SectionKind) : Option PlacedSection :=
  (record.stored? kind).map fun stored => ⟨kind, a + record.offset kind, kind.content stored⟩

/-- The record that is read from memory. -/
def toMethodRecord (record : StoredRecord) (a : Address) : MethodRecord :=
  ⟨a, record.header⟩

theorem read_of_shows (h : memory.Shows a record.bytes) :
    MethodRecord.read memory a = .ok (record.toMethodRecord a) := by
  have hne : record.header.bytes ≠ [] := List.ne_nil_of_length_eq_add_one record.header.length_bytes
  have hbytes := (shows_header h).readBytes hne
  rw [record.header.length_bytes] at hbytes
  unfold MethodRecord.read
  rw [hbytes, Except.ok_bind, record.header.ofBytes_bytes]
  rfl

/-- Whether a section is announced, once the extended word is known. -/
theorem announced_iff_isSome
    (hext : kind = .extendedModifiers ∨
      extended = .ofWord? (record.stored? .extendedModifiers)) :
    kind.announced (record.toMethodRecord a).modifiers extended = true ↔
      (record.stored? kind).isSome := by
  rw [← record.isSet_flag kind]
  exact kind.announced_iff hext

/-- One step of the walk: what is stored of one kind is found, and the walk goes on behind it. -/
theorem walk_step (h : memory.Shows a record.bytes)
    (hkinds : SectionKind.inOrder = before ++ kind :: kinds)
    (hext : kind = .extendedModifiers ∨
      extended = .ofWord? (record.stored? .extendedModifiers)) :
    (record.toMethodRecord a).walk memory (kind :: kinds) (a + record.extent before) extended =
      ((record.toMethodRecord a).walk memory kinds (a + record.extent (before ++ [kind]))
        ((record.placed? a kind).elim extended (·.extended extended))).map
          ((record.placed? a kind).toList ++ ·) := by
  have hoffset : record.extent before = record.offset kind := by
    rw [offset, SectionKind.takeWhile_inOrder hkinds]
  have hiff := record.announced_iff_isSome (a := a) hext
  cases hstored : record.stored? kind with
  | none =>
    have hnot : ¬ kind.announced (record.toMethodRecord a).modifiers extended = true := by
      rw [hiff, hstored]
      exact Bool.false_ne_true
    have hempty : record.sectionBytes kind = [] := by simp [sectionBytes, hstored]
    have hplaced : record.placed? a kind = none := by simp [placed?, hstored]
    rw [MethodRecord.walk, if_neg hnot, extent_concat, hempty, hplaced]
    simp only [List.length_nil, Nat.add_zero, Option.elim_none, Option.toList_none, List.nil_append]
    cases (record.toMethodRecord a).walk memory kinds (a + record.extent before) extended <;> rfl
  | some stored =>
    have hannounced : kind.announced (record.toMethodRecord a).modifiers extended = true := by
      rw [hiff, hstored]
      rfl
    have hread : kind.read memory (a + record.extent before) = .ok (kind.content stored) := by
      rw [hoffset]
      exact SectionKind.read_of_shows (shows_section h hstored)
    have hplaced : record.placed? a kind =
        some ⟨kind, a + record.extent before, kind.content stored⟩ := by
      simp [placed?, hstored, hoffset]
    rw [MethodRecord.walk, if_pos hannounced, hread, Except.mapError_ok, Except.ok_bind, hplaced,
      extent_concat, sectionBytes_of_some hstored, ← Address.add_add]
    simp only [Option.elim_some, Option.toList_some, List.singleton_append]
    by_cases hlast : kind = .debugInfo
    · -- the last section is not measured, and nothing is looked for behind it
      have hnone : kinds = [] := by
        have hdrop := SectionKind.takeWhile_inOrder hkinds
        subst hlast
        simpa [← hdrop, SectionKind.inOrder] using hkinds
      rw [hnone]
      rfl
    · rw [SectionKind.size_content hlast]
      cases (record.toMethodRecord a).walk memory kinds _ _ <;> rfl

/-- Once the first section has been passed, the extended flags are those of the record. -/
theorem elim_placed?_extendedModifiers :
    (record.placed? a .extendedModifiers).elim ExtendedModifiers.none (·.extended .none) =
      .ofWord? (record.stored? .extendedModifiers) := by
  unfold placed?
  cases record.stored? .extendedModifiers <;> rfl

/-- No other section has flags. -/
theorem elim_placed?_of_ne (hk : kind ≠ .extendedModifiers) :
    (record.placed? a kind).elim extended (·.extended extended) = extended := by
  unfold placed?
  cases record.stored? kind with
  | none => rfl
  | some stored =>
    cases kind with
    | extendedModifiers => exact absurd rfl hk
    | _ => rfl

/-- The walk over the sections that follow the first: its cursor is at the end of what is written of
the kinds before, and the flags do not change any more. -/
theorem walk_of_notMem (h : memory.Shows a record.bytes)
    (hkinds : SectionKind.inOrder = before ++ kinds)
    (hfirst : SectionKind.extendedModifiers ∉ kinds) :
    (record.toMethodRecord a).walk memory kinds (a + record.extent before)
      (.ofWord? (record.stored? .extendedModifiers)) =
        .ok (kinds.filterMap (record.placed? a)) := by
  -- on the kinds still to come; those before only say where the cursor is
  induction kinds generalizing before with
  | nil => rfl
  | cons kind kinds ih =>
    have hne : kind ≠ .extendedModifiers := (List.ne_of_not_mem_cons hfirst).symm
    have hrest : SectionKind.extendedModifiers ∉ kinds := List.not_mem_of_not_mem_cons hfirst
    have hnext : SectionKind.inOrder = (before ++ [kind]) ++ kinds := by
      rw [hkinds, List.append_assoc, List.singleton_append]
    rw [walk_step h hkinds (.inr rfl), elim_placed?_of_ne hne, ih hnext hrest,
      Except.map_ok]
    cases hplaced : record.placed? a kind <;> simp [hplaced]

/-- The walk finds what is stored, each section at its place. -/
theorem walk_inOrder (h : memory.Shows a record.bytes) :
    (record.toMethodRecord a).walk memory SectionKind.inOrder
      (record.toMethodRecord a).sectionsStart .none =
        .ok (SectionKind.inOrder.filterMap (record.placed? a)) := by
  have hstart : (record.toMethodRecord a).sectionsStart = a + record.extent [] := by
    rw [extent_nil, ← Address.add_add]
    rfl
  have hinOrder : SectionKind.inOrder =
      .extendedModifiers :: SectionKind.inOrder.tail := rfl
  have hsplit : SectionKind.inOrder =
      [.extendedModifiers] ++ SectionKind.inOrder.tail := rfl
  have hrest := walk_of_notMem h hsplit (by decide)
  rw [hstart, hinOrder, walk_step h (hinOrder.trans (List.nil_append _).symm) (.inl rfl),
    elim_placed?_extendedModifiers, List.nil_append, hrest, Except.map_ok]
  cases hplaced : record.placed? a .extendedModifiers <;> simp [hplaced]

theorem sections_eq (h : memory.Shows a record.bytes) :
    (record.toMethodRecord a).sections memory =
      .ok ⟨a, SectionKind.inOrder.filterMap (record.placed? a)⟩ := by
  unfold MethodRecord.sections
  rw [walk_inOrder h]
  rfl

/-! ## Look-up -/

/-- A search that only one kind can answer is answered by the section of this kind. -/
theorem findSome?_placed {β : Type} {f : PlacedSection → Option β} (kind : SectionKind)
    (hf : ∀ other ≠ kind, (record.placed? a other).bind f = none) :
    (SectionKind.inOrder.filterMap (record.placed? a)).findSome? f =
      (record.placed? a kind).bind f := by
  have hmap (kinds : List SectionKind) : (kinds.filterMap (record.placed? a)).findSome? f =
      kinds.findSome? fun other => (record.placed? a other).bind f := by
    induction kinds with
    | nil => rfl
    | cons other kinds ih =>
      cases hplaced : record.placed? a other <;>
        simp [List.findSome?_cons, hplaced, ih]
  rw [hmap]
  obtain ⟨rest, hrest⟩ := kind.inOrder_eq
  cases hfound : (record.placed? a kind).bind f with
  | none =>
    rw [List.findSome?_eq_none_iff]
    intro other _
    by_cases hk : other = kind
    · rw [hk, hfound]
    · exact hf other hk
  | some answer =>
    rw [List.findSome?_eq_some_iff]
    refine ⟨_, kind, rest, hrest, hfound, fun other hother => hf other ?_⟩
    simpa using List.all_eq_true.mp List.all_takeWhile other hother

/-- A section is found by its kind. -/
theorem address?_placed (kind : SectionKind) :
    SectionLayout.address? ⟨a, SectionKind.inOrder.filterMap (record.placed? a)⟩ kind =
      (record.stored? kind).map fun _ => a + record.offset kind := by
  have hf (other : SectionKind) (hne : other ≠ kind) :
      (record.placed? a other).bind (Option.guard (·.kind = kind)) = none := by
    unfold placed?
    cases record.stored? other <;> simp [Option.guard, hne]
  unfold SectionLayout.address?
  rw [List.find?_eq_findSome?_guard, findSome?_placed kind hf]
  unfold placed?
  cases record.stored? kind <;> simp [Option.guard]

theorem extended_placed :
    SectionLayout.extended ⟨a, SectionKind.inOrder.filterMap (record.placed? a)⟩ =
      .ofWord? (record.stored? .extendedModifiers) := by
  have hkeep (kinds : List SectionKind) (hfirst : SectionKind.extendedModifiers ∉ kinds)
      (flags : ExtendedModifiers) :
      (kinds.filterMap (record.placed? a)).foldl (fun before placed => placed.extended before)
        flags = flags := by
    induction kinds with
    | nil => rfl
    | cons kind kinds ih =>
      have hne : kind ≠ .extendedModifiers := (List.ne_of_not_mem_cons hfirst).symm
      have hrest := ih (List.not_mem_of_not_mem_cons hfirst)
      have hstep : (record.placed? a kind).elim flags (·.extended flags) = flags :=
        elim_placed?_of_ne hne
      cases hplaced : record.placed? a kind with
      | none => rwa [List.filterMap_cons_none hplaced]
      | some placed =>
        rw [hplaced, Option.elim_some] at hstep
        rw [List.filterMap_cons_some hplaced, List.foldl_cons, hstep, hrest]
  rw [← elim_placed?_extendedModifiers (a := a)]
  unfold SectionLayout.extended
  show ((SectionKind.extendedModifiers :: SectionKind.inOrder.tail).filterMap _).foldl _ _ = _
  cases hplaced : record.placed? a .extendedModifiers with
  | none => rw [List.filterMap_cons_none hplaced, hkeep _ (by decide), Option.elim_none]
  | some placed =>
    rw [List.filterMap_cons_some hplaced, List.foldl_cons, hkeep _ (by decide), Option.elim_some]

theorem exceptions?_placed :
    SectionLayout.exceptions? ⟨a, SectionKind.inOrder.filterMap (record.placed? a)⟩ =
      (record.stored? .exceptionInfo).map fun (table : StoredExceptions) =>
        ⟨a + record.offset .exceptionInfo, table.catchCount, table.throwCount⟩ := by
  unfold SectionLayout.exceptions?
  rw [findSome?_placed .exceptionInfo]
  · unfold placed?
    cases record.stored? .exceptionInfo <;> rfl
  · intro other hne
    unfold placed?
    cases record.stored? other with
    | none => rfl
    | some stored =>
      cases other with
      | exceptionInfo => exact absurd rfl hne
      | _ => rfl

/-- **A stored record is found again**: all its sections are at the places where they were written,
no others are found, and the extended flags and the exception counts are those of the record. -/
theorem sections_of_shows (h : memory.Shows a record.bytes) :
    ∃ methodRecord layout, MethodRecord.read memory a = .ok methodRecord ∧
      methodRecord.sections memory = .ok layout ∧
      (∀ kind, layout.address? kind =
        (record.stored? kind).map fun _ => a + record.offset kind) ∧
      layout.extended.bits =
        (record.stored? .extendedModifiers).elim 0 (fun (word : UInt32) => word &&& 0b111) ∧
      layout.exceptions? = (record.stored? .exceptionInfo).map fun (table : StoredExceptions) =>
        ⟨a + record.offset .exceptionInfo, table.catchCount, table.throwCount⟩ := by
  refine ⟨record.toMethodRecord a, ⟨a, SectionKind.inOrder.filterMap (record.placed? a)⟩,
    read_of_shows h, sections_eq h, address?_placed, ?_, exceptions?_placed⟩
  rw [extended_placed]
  cases record.stored? .extendedModifiers <;> rfl

/-- A record with five bytecodes, an extended word that announces code type annotations, a handler
and a thrown name, and debug information with two line entries. -/
def sample : StoredRecord where
  header :=
    { nameOffset := 0x40, signatureOffset := 0x50, modifiers := 0x04060001, maxStack := 2
      bytecodeSizeLow := 5, bytecodeSizeHigh := 0, argCount := 1, tempCount := 0 }
  bytecodes := { data := [0x2a, 0xb7, 0x00, 0x01, 0xb1], padding := [0, 0, 0] }
  stored?
    | .extendedModifiers => some (0x0a : UInt32)
    | .exceptionInfo => some (⟨1, 1, List.replicate 20 0x11, by decide⟩ : StoredExceptions)
    | .codeTypeAnnotations => some (⟨[0x01, 0x02], [0, 0], by decide, by decide⟩ : StoredBlock)
    | .debugInfo =>
      some ([0x00, 0x00, 0x00, 0x00, 0x04, 0x00, 0x00, 0x00, 0x00, 0x00, 0x00, 0x00, 0x03, 0x12] :
        List UInt8)
    | _ => none
  bytecodeSize_eq := rfl
  isSet_flag kind := by cases kind <;> decide

/-- The record may end where memory does. -/
theorem sections_of_sample :
    ∃ memory : Memory, memory.Shows ⟨0xffffffffffffffb2⟩ sample.bytes ∧
      ∃ methodRecord layout, MethodRecord.read memory ⟨0xffffffffffffffb2⟩ = .ok methodRecord ∧
        methodRecord.sections memory = .ok layout ∧
        (∀ kind, layout.address? kind = (sample.stored? kind).map fun _ =>
          (⟨0xffffffffffffffb2⟩ : Address) + sample.offset kind) ∧
        layout.extended.bits = 0b010 ∧
        layout.exceptions? = some ⟨⟨0xffffffffffffffd2⟩, 1, 1⟩ := by
  have hshows :=
    (MemoryImage.mapsAt_map_empty ⟨0xffffffffffffffb2⟩ sample.bytes (by decide) (by decide)).shows
  obtain ⟨methodRecord, layout, hread, hsections, haddress, hextended, hexceptions⟩ :=
    sections_of_shows hshows
  exact ⟨_, hshows, methodRecord, layout, hread, hsections, haddress, hextended, hexceptions⟩

end StoredRecord

end CompiledFrames
