import CompiledFrames.LineTable.DebugInfo
import CompiledFrames.LineTable.Entry
import CompiledFrames.FloorMap

/-!
# Line tables

The line table of a method maps the bytecode index at which a line begins to the line. In memory it
is a sequence of line entries; reading it adds up the distances and notes each position reached.
-/

namespace CompiledFrames

/-- The lines of a method by the bytecode index at which they begin. -/
abbrev LineTable :=
  FloorMap Nat Int

namespace LineTable

/-- The failure to read the entry with number `index` of a method. -/
def entryFailure (method : String) (index : Nat) (reason : String) : Failure :=
  .error (.malformedRecord method
    ("line table entry " ++ toString index ++ ": " ++ reason))

/-- One entry: the position after it, and its length in bytes. -/
def readEntry (memory : Memory) (fail : String → Failure) (cursor : Address)
    (position : LinePosition) : Checked (LinePosition × Nat) := do
  let ofProblem : LineEntryProblem → Failure
    | .overflow => .trap .addOverflow
    | problem => fail problem.message
  let lead ← (memory.readU8 cursor).mapError fun e => fail e.message
  let length ← (LineEntry.length lead).mapError ofProblem
  let entry ← (memory.readBytes cursor length).mapError fun e => fail e.message
  let next ← (LineEntry.decode entry position).mapError ofProblem
  return (next, length)

/-- The table with the next `count` entries, the first of which has number `index`. -/
def readEntries (memory : Memory) (method : String) :
    (count index : Nat) → Address → LinePosition → LineTable → Checked LineTable
  | 0, _, _, _, table => .ok table
  | count + 1, index, cursor, position, table => do
    let fail := entryFailure method index
    let (next, length) ← readEntry memory fail cursor position
    let table ← (table.put next.location next.line).mapError fun e => fail e.message
    readEntries memory method count (index + 1) (cursor + length) next table

/-- The line table that debug information leads to, if there is one. The method is named in
errors. -/
def read (memory : Memory) (info : DebugInfo) (method : String) : Checked (Option LineTable) :=
  match info.table? with
  | none => .ok none
  | some cursor =>
    (readEntries memory method info.lineCount 0 cursor .start ∅).map some

end LineTable

end CompiledFrames
