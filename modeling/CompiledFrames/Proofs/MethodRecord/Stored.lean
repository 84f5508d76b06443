import CompiledFrames.MethodRecord.Sections
import CompiledFrames.Proofs.Memory.Holds

/-!
# Stored method records

The bytes of a method record, as the runtime lays them out: the header, the bytecodes, and those
optional sections that the record has, in record order and each filled up to a multiple of four.
Nothing here is read; that the walk finds the sections again is in `Proofs.MethodRecord.Walk`.

## Main definitions

* `SectionKind.Stored`: what a section of some kind holds, `SectionKind.storedBytes` its bytes
* `SectionKind.flag`: the flag that announces a section
* `StoredRecord`: a record whose flags announce just the sections that it has
* `StoredRecord.bytes`: its bytes, `StoredRecord.offset` the place of a section in them

## Main results

* `RecordHeader.ofBytes_bytes`: a header is decoded from its bytes
* `StoredRecord.bytes_eq_append`: where a section is in the bytes of its record
* `StoredRecord.shows_section`: memory that shows a record shows each of its sections
-/

namespace CompiledFrames

/-! ## Headers -/

/-- The bytes of a header. -/
def RecordHeader.bytes (header : RecordHeader) : List UInt8 :=
  littleBytes 4 header.nameOffset.toUInt32.toNat ++
    littleBytes 4 header.signatureOffset.toUInt32.toNat ++
    littleBytes 4 header.modifiers.toNat ++
    littleBytes 2 header.maxStack.toNat ++
    littleBytes 2 header.bytecodeSizeLow.toNat ++
    littleBytes 1 header.bytecodeSizeHigh.toNat ++
    littleBytes 1 header.argCount.toNat ++
    littleBytes 2 header.tempCount.toNat

theorem RecordHeader.length_bytes (header : RecordHeader) :
    header.bytes.length = RecordHeader.size := by
  simp [bytes, size]

/-- A header is decoded from its bytes. -/
theorem RecordHeader.ofBytes_bytes (header : RecordHeader) : ofBytes header.bytes = header := by
  have hword (word : UInt32) : UInt32.ofNat (littleEndian (littleBytes 4 word.toNat)) = word := by
    have hlt : word.toNat < 256 ^ 4 := word.toNat_lt
    rw [littleEndian_littleBytes, Nat.mod_eq_of_lt hlt, UInt32.ofNat_toNat]
  have hhalf (half : UInt16) : UInt16.ofNat (littleEndian (littleBytes 2 half.toNat)) = half := by
    have hlt : half.toNat < 256 ^ 2 := half.toNat_lt
    rw [littleEndian_littleBytes, Nat.mod_eq_of_lt hlt, UInt16.ofNat_toNat]
  have hbyte (byte : UInt8) : UInt8.ofNat (littleEndian (littleBytes 1 byte.toNat)) = byte := by
    have hlt : byte.toNat < 256 ^ 1 := byte.toNat_lt
    rw [littleEndian_littleBytes, Nat.mod_eq_of_lt hlt, UInt8.ofNat_toNat]
  have hfields : ofBytes header.bytes =
      { nameOffset :=
          (UInt32.ofNat (littleEndian (littleBytes 4 header.nameOffset.toUInt32.toNat))).toInt32
        signatureOffset :=
          (UInt32.ofNat
            (littleEndian (littleBytes 4 header.signatureOffset.toUInt32.toNat))).toInt32
        modifiers := UInt32.ofNat (littleEndian (littleBytes 4 header.modifiers.toNat))
        maxStack := UInt16.ofNat (littleEndian (littleBytes 2 header.maxStack.toNat))
        bytecodeSizeLow :=
          UInt16.ofNat (littleEndian (littleBytes 2 header.bytecodeSizeLow.toNat))
        bytecodeSizeHigh :=
          UInt8.ofNat (littleEndian (littleBytes 1 header.bytecodeSizeHigh.toNat))
        argCount := UInt8.ofNat (littleEndian (littleBytes 1 header.argCount.toNat))
        tempCount := UInt16.ofNat (littleEndian (littleBytes 2 header.tempCount.toNat)) } := rfl
  rw [hfields]
  simp only [hword, hhalf, hbyte]
  rfl

/-! ## Sections -/

/-- Bytes with what fills them up to a multiple of four. -/
structure PaddedBytes where
  data : List UInt8
  padding : List UInt8 := []
  length_padding : data.length + padding.length = roundUp4 data.length := by decide

/-- The bytes and their padding. -/
def PaddedBytes.bytes (padded : PaddedBytes) : List UInt8 :=
  padded.data ++ padded.padding

theorem PaddedBytes.length_bytes (padded : PaddedBytes) :
    padded.bytes.length = roundUp4 padded.data.length := by
  rw [bytes, List.length_append, padded.length_padding]

/-- Annotations: their length comes before them, and their padding counts from there. -/
structure StoredBlock where
  data : List UInt8
  padding : List UInt8 := []
  length_lt : data.length < 0x100000000 := by decide
  length_padding : 4 + data.length + padding.length = roundUp4 (data.length + 4) := by decide

/-- Length, annotations and padding. -/
def StoredBlock.bytes (block : StoredBlock) : List UInt8 :=
  littleBytes 4 block.data.length ++ (block.data ++ block.padding)

theorem StoredBlock.toNat_length (block : StoredBlock) :
    (UInt32.ofNat block.data.length).toNat = block.data.length :=
  UInt32.toNat_ofNat_of_lt' block.length_lt

theorem StoredBlock.length_bytes (block : StoredBlock) :
    block.bytes.length = roundUp4 (block.data.length + 4) := by
  have hpadding := block.length_padding
  simp only [bytes, List.length_append, length_littleBytes]
  omega

/-- Handlers and thrown names. -/
structure StoredExceptions where
  catchCount : UInt16
  throwCount : UInt16
  /-- Sixteen bytes for each handler and four for each thrown name. -/
  entries : List UInt8
  length_entries : entries.length = catchCount.toNat * 16 + throwCount.toNat * 4 := by decide

/-- The counts, and what they count. -/
def StoredExceptions.bytes (table : StoredExceptions) : List UInt8 :=
  littleBytes 2 table.catchCount.toNat ++ (littleBytes 2 table.throwCount.toNat ++ table.entries)

theorem StoredExceptions.length_bytes (table : StoredExceptions) :
    table.bytes.length = 4 + table.catchCount.toNat * 16 + table.throwCount.toNat * 4 := by
  simp only [bytes, List.length_append, length_littleBytes, table.length_entries]
  omega

/-- The bit that announces a section, in the word of the header or in the extended one. -/
inductive SectionFlag where
  | modifier (bit : Nat)
  | extended (bit : Nat)

/-- Whether a flag is set; without an extended word none of its flags is. -/
def SectionFlag.IsSet (modifiers : UInt32) (extended : Option UInt32) : SectionFlag → Prop
  | modifier bit => modifiers.toNat.testBit bit = true
  | .extended bit => extended.any (·.toNat.testBit bit) = true

instance (modifiers : UInt32) (extended : Option UInt32) (flag : SectionFlag) :
    Decidable (flag.IsSet modifiers extended) :=
  match flag with
  | .modifier _ | .extended _ => inferInstanceAs (Decidable (_ = true))

namespace SectionKind

/-- The flag that announces a section. -/
def flag : SectionKind → SectionFlag
  | extendedModifiers => .modifier 26
  | genericSignature => .modifier 25
  | exceptionInfo => .modifier 17
  | methodAnnotations => .modifier 29
  | parameterAnnotations => .modifier 30
  | defaultAnnotation => .modifier 31
  | methodTypeAnnotations => .extended 0
  | codeTypeAnnotations => .extended 1
  | debugInfo => .modifier 18

/-- What a section holds. -/
abbrev Stored : SectionKind → Type
  | extendedModifiers | genericSignature => UInt32
  | exceptionInfo => StoredExceptions
  | methodAnnotations | parameterAnnotations | defaultAnnotation | methodTypeAnnotations
  | codeTypeAnnotations => StoredBlock
  | debugInfo => List UInt8

/-- The bytes of a section. -/
def storedBytes : (kind : SectionKind) → kind.Stored → List UInt8
  | extendedModifiers, (word : UInt32) | genericSignature, (word : UInt32) =>
    littleBytes 4 word.toNat
  | exceptionInfo, (table : StoredExceptions) => table.bytes
  | methodAnnotations, (block : StoredBlock) | parameterAnnotations, (block : StoredBlock)
  | defaultAnnotation, (block : StoredBlock) | methodTypeAnnotations, (block : StoredBlock)
  | codeTypeAnnotations, (block : StoredBlock) => block.bytes
  | debugInfo, (bytes : List UInt8) => bytes

end SectionKind

/-- Every kind has its place in the order of a record. -/
theorem SectionKind.inOrder_eq (kind : SectionKind) :
    ∃ rest, inOrder = inOrder.takeWhile (· ≠ kind) ++ kind :: rest := by
  cases kind <;> exact ⟨_, rfl⟩

theorem SectionKind.takeWhile_inOrder {kind : SectionKind} {before rest : List SectionKind}
    (h : inOrder = before ++ kind :: rest) : inOrder.takeWhile (· ≠ kind) = before := by
  have hnodup : (before ++ kind :: rest).Nodup := by
    rw [← h]
    decide
  have hne : ∀ other ∈ before, other ≠ kind := fun other hother =>
    (List.nodup_append.mp hnodup).2.2 other hother kind List.mem_cons_self
  rw [h, List.takeWhile_append_of_pos (by simpa using hne)]
  simp

/-! ## Records -/

/-- A method record. Its header has the size of the bytecodes, and of all flags just those of the
sections that it has are set; the type annotations have theirs in the extended word. -/
structure StoredRecord where
  header : RecordHeader
  bytecodes : PaddedBytes
  stored? : (kind : SectionKind) → Option kind.Stored
  bytecodeSize_eq : header.bytecodeSize = bytecodes.data.length
  isSet_flag : ∀ kind : SectionKind,
    kind.flag.IsSet header.modifiers (stored? .extendedModifiers) ↔ (stored? kind).isSome

namespace StoredRecord

/-- The bytes of a section, if the record has it. -/
def sectionBytes (record : StoredRecord) (kind : SectionKind) : List UInt8 :=
  match record.stored? kind with
  | some stored => kind.storedBytes stored
  | none => []

/-- The bytes of a record: header, bytecodes, and sections in record order. -/
def bytes (record : StoredRecord) : List UInt8 :=
  record.header.bytes ++
    (record.bytecodes.bytes ++ SectionKind.inOrder.flatMap record.sectionBytes)

/-- The size of a record that has only the sections of some kinds. -/
def extent (record : StoredRecord) (kinds : List SectionKind) : Nat :=
  (record.header.bytes ++ record.bytecodes.bytes ++ kinds.flatMap record.sectionBytes).length

/-- The distance of a section from the start of the record: all that is written before it. -/
def offset (record : StoredRecord) (kind : SectionKind) : Nat :=
  record.extent (SectionKind.inOrder.takeWhile (· ≠ kind))

variable {record : StoredRecord} {memory : Memory} {a : Address}

theorem sectionBytes_of_some {kind : SectionKind} {stored : kind.Stored}
    (h : record.stored? kind = some stored) :
    record.sectionBytes kind = kind.storedBytes stored := by
  unfold sectionBytes
  rw [h]

theorem shows_header (h : memory.Shows a record.bytes) : memory.Shows a record.header.bytes :=
  h.left

/-- The first section begins where the walk does. -/
theorem extent_nil :
    record.extent [] = RecordHeader.size + roundUp4 record.header.bytecodeSize := by
  simp [extent, record.header.length_bytes, record.bytecodes.length_bytes,
    record.bytecodeSize_eq]

theorem extent_concat (kinds : List SectionKind) (kind : SectionKind) :
    record.extent (kinds ++ [kind]) = record.extent kinds + (record.sectionBytes kind).length := by
  simp [extent, Nat.add_assoc]

/-- The bytes of a record around one of its sections. -/
theorem bytes_eq_append {kind : SectionKind} {stored : kind.Stored}
    (hs : record.stored? kind = some stored) :
    ∃ front rest, record.bytes = front ++ (kind.storedBytes stored ++ rest) ∧
      front.length = record.offset kind := by
  obtain ⟨rest, hrest⟩ := kind.inOrder_eq
  have hflat : SectionKind.inOrder.flatMap record.sectionBytes =
      (SectionKind.inOrder.takeWhile (· ≠ kind)).flatMap record.sectionBytes ++
        (kind.storedBytes stored ++ rest.flatMap record.sectionBytes) := by
    rw [← sectionBytes_of_some hs, ← List.flatMap_cons, ← List.flatMap_append, ← hrest]
  refine ⟨record.header.bytes ++ record.bytecodes.bytes ++
    (SectionKind.inOrder.takeWhile (· ≠ kind)).flatMap record.sectionBytes,
    rest.flatMap record.sectionBytes, ?_, rfl⟩
  unfold bytes
  rw [hflat, ← List.append_assoc, ← List.append_assoc]

/-- Memory that shows a record shows each of its sections, at the place where it is written. -/
theorem shows_section (h : memory.Shows a record.bytes) {kind : SectionKind}
    {stored : kind.Stored} (hs : record.stored? kind = some stored) :
    memory.Shows (a + record.offset kind) (kind.storedBytes stored) := by
  obtain ⟨front, rest, hbytes, hlength⟩ := bytes_eq_append hs
  rw [hbytes] at h
  rw [← hlength]
  exact h.right.left

end StoredRecord

end CompiledFrames
