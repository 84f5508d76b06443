import CompiledFrames.Memory
import CompiledFrames.MethodRecord.Modifiers

/-!
# Method records

The record that the runtime keeps of a method: twenty bytes of header, the bytecodes, and optional
sections from the next multiple of four bytes on. Name and signature lie elsewhere; the header holds
their distances from its own words.

## Main definitions

* `RecordHeader` is the decoded header, `RecordHeader.ofBytes` decodes it.
* `MethodRecord.read` reads the record at an address, `MethodRecord.ofBytecodes` the one whose
  bytecodes are there.
* `roundUp4` rounds a size up to a multiple of four.
-/

namespace CompiledFrames

/-- The least multiple of four that is not below `size`. -/
def roundUp4 (size : Nat) : Nat :=
  (size + 3) / 4 * 4

theorem le_roundUp4 (size : Nat) : size ≤ roundUp4 size := by
  unfold roundUp4; omega

theorem roundUp4_lt (size : Nat) : roundUp4 size < size + 4 := by
  unfold roundUp4; omega

theorem roundUp4_mod (size : Nat) : roundUp4 size % 4 = 0 := by
  unfold roundUp4; omega

/-- `roundUp4` for a machine word, whose sum with three has to be one too. -/
def roundUp4Word (size : UInt64) : Except Trap UInt64 :=
  if size.toNat + 3 < 0x10000000000000000 then .ok (UInt64.ofNat (roundUp4 size.toNat))
  else .error .addOverflow

/-- The header of a method record. -/
structure RecordHeader where
  /-- The distance of the name from the first word of the header. -/
  nameOffset : Int32
  /-- The distance of the signature from the second word of the header. -/
  signatureOffset : Int32
  modifiers : UInt32
  maxStack : UInt16
  bytecodeSizeLow : UInt16
  bytecodeSizeHigh : UInt8
  argCount : UInt8
  tempCount : UInt16
deriving DecidableEq, Repr, Inhabited

namespace RecordHeader

/-- The bytes of a header. -/
def size : Nat := 20

/-- The header that twenty bytes hold. -/
def ofBytes (bytes : List UInt8) : RecordHeader :=
  let number (start length : Nat) := littleEndian ((bytes.drop start).take length)
  { nameOffset := (UInt32.ofNat (number 0 4)).toInt32
    signatureOffset := (UInt32.ofNat (number 4 4)).toInt32
    modifiers := UInt32.ofNat (number 8 4)
    maxStack := UInt16.ofNat (number 12 2)
    bytecodeSizeLow := UInt16.ofNat (number 14 2)
    bytecodeSizeHigh := UInt8.ofNat (number 16 1)
    argCount := UInt8.ofNat (number 17 1)
    tempCount := UInt16.ofNat (number 18 2) }

/-- The number of bytes of bytecode. -/
def bytecodeSize (header : RecordHeader) : Nat :=
  header.bytecodeSizeLow.toNat + header.bytecodeSizeHigh.toNat * 0x10000

theorem bytecodeSize_lt (header : RecordHeader) : header.bytecodeSize < 0x1000000 := by
  have h1 := header.bytecodeSizeLow.toNat_lt
  have h2 := header.bytecodeSizeHigh.toNat_lt
  unfold bytecodeSize
  omega

end RecordHeader

/-- A method record in the memory of the process. -/
structure MethodRecord where
  address : Address
  header : RecordHeader
deriving DecidableEq, Repr, Inhabited

namespace MethodRecord

/-- The record at an address. -/
def read (memory : Memory) (address : Address) : Except Error MethodRecord := do
  let bytes ← memory.readBytes address RecordHeader.size
  return ⟨address, .ofBytes bytes⟩

/-- The record whose bytecodes are at an address: its header lies right before them. -/
def ofBytecodes (memory : Memory) (bytecodes : Address) : Except Error MethodRecord :=
  read memory (bytecodes - RecordHeader.size)

/-- The known flags of the record. -/
def modifiers (record : MethodRecord) : Modifiers :=
  .ofWord record.header.modifiers

/-- The place of the first bytecode. -/
def bytecodeStart (record : MethodRecord) : Address :=
  record.address + RecordHeader.size

/-- The place where the optional sections begin. -/
def sectionsStart (record : MethodRecord) : Address :=
  record.bytecodeStart + roundUp4 record.header.bytecodeSize

/-- The name of the method. -/
def name (record : MethodRecord) (memory : Memory) : Except Error String :=
  memory.readText (record.address.offset record.header.nameOffset.toInt)

/-- The signature of the method. -/
def signature (record : MethodRecord) (memory : Memory) : Except Error String :=
  memory.readText ((record.address + 4).offset record.header.signatureOffset.toInt)

end MethodRecord

end CompiledFrames
