import CompiledFrames.FloorMap

/-!
# Bytecode tables

The compiler reports the instructions it has generated, in address order, each with the index of the
bytecode that it comes from. The bytecode table keeps the addresses at which the index changes. The
first instruction describes the method and pseudo instructions take up no bytes; neither is code.
-/

namespace CompiledFrames

/-- An instruction as the compiler reports it. -/
structure Instruction where
  pc : Address
  /-- The bytes that the instruction takes up. -/
  length : UInt32
  bytecodeIndex : UInt32
deriving DecidableEq, Repr, Inhabited

/-- Whether an instruction takes up no bytes. -/
def Instruction.isPseudo (instruction : Instruction) : Bool :=
  instruction.length == 0

/-- The bytecode index by the address at which it begins to hold. -/
abbrev BytecodeTable :=
  FloorMap Address UInt32

namespace BytecodeTable

/-- The instructions that are code. -/
def codeOf (instructions : List Instruction) : List Instruction :=
  (instructions.drop 1).filter (!·.isPseudo)

/-- The table with some more code, where `previous` is the index that holds before it. -/
def extend : List Instruction → Option UInt32 → BytecodeTable → Except Error BytecodeTable
  | [], _, table => .ok table
  | instruction :: rest, previous, table =>
    if previous = some instruction.bytecodeIndex then extend rest previous table
    else do
      extend rest (some instruction.bytecodeIndex)
        (← table.put instruction.pc instruction.bytecodeIndex)

/-- The table of the instructions of a method, of which one at least has to be code. -/
def ofInstructions (instructions : List Instruction) : Except Error BytecodeTable := do
  let table ← extend (codeOf instructions) none ∅
  if table.isEmpty then .error (.invalidArgument "compiled method has no real instructions")
  else return table

end BytecodeTable

end CompiledFrames
