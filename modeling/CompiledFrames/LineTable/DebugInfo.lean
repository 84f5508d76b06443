import CompiledFrames.Memory

/-!
# Debug information

The head of the debug information of a method. It counts the entries of the line table in one of two
ways, told apart by the lowest bit of the raw count: an even count has fifteen bits that matter and
the table follows right after the head, an odd one has thirty-one and the table begins one byte
later.
-/

namespace CompiledFrames

/-- The head of the debug information of a method. -/
structure DebugInfo where
  address : Address
  /-- The distance to the descriptions of local variables. -/
  variablesOffset : UInt32
  /-- The number of line entries, encoded. -/
  rawCount : UInt32
  /-- The number of local variables. -/
  variableCount : UInt32
deriving DecidableEq, Repr, Inhabited

namespace DebugInfo

/-- The head at an address. -/
def read (memory : Memory) (address : Address) : Except Error DebugInfo := do
  let variablesOffset ← memory.readU32 address
  let rawCount ← memory.readU32 (address + 4)
  let variableCount ← memory.readU32 (address + 8)
  return { address, variablesOffset, rawCount, variableCount }

/-- Whether the raw count is of the odd form. -/
def isOdd (info : DebugInfo) : Bool :=
  info.rawCount.toNat % 2 = 1

/-- The number of line entries. -/
def lineCount (info : DebugInfo) : Nat :=
  if info.isOdd then info.rawCount.toNat / 2 else info.rawCount.toNat / 2 % 0x8000

/-- The bytes of the head. -/
def size (info : DebugInfo) : Nat :=
  if info.isOdd then 13 else 12

/-- The place of the line table; a raw count of zero says that there is none. -/
def table? (info : DebugInfo) : Option Address :=
  if info.rawCount = 0 then none else some (info.address + info.size)

end DebugInfo

end CompiledFrames
