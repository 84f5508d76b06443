import CompiledFrames.Text.Numeral

/-!
# Line entries

An entry of a line table tells how far to move on from the position before it, in lines and in
bytecodes. A short entry is one byte, `0LLLLLDD`: thirty-one bytecodes and three lines at most. A
long one is two bytes, `10LLLLLD DDDDDDDD`, with a signed number of lines. Bytes which begin with
two ones are reserved.

## Main definitions

* `LinePosition` is a line with the bytecode index at which it begins.
* `LineEntry.decode` moves on from a position by one entry; `LineEntry.encode?` writes the shortest
  entry for two distances, if there is one.
-/

namespace CompiledFrames

/-- A line and the bytecode index at which it begins. -/
structure LinePosition where
  line : Int
  location : Nat
deriving DecidableEq, Repr, Inhabited

/-- Where a line table begins to count. -/
def LinePosition.start : LinePosition := ⟨0, 0⟩

/-- The position after some lines and bytecodes. Lines are signed and bytecode indices unsigned
numbers of thirty-two bits; a position that does not fit is none. -/
def LinePosition.advance? (position : LinePosition) (lines : Int) (bytecodes : Nat) :
    Option LinePosition :=
  let line := position.line + lines
  let location := position.location + bytecodes
  if -0x80000000 ≤ line ∧ line < 0x80000000 ∧ location < 0x100000000 then some ⟨line, location⟩
  else none

/-- What can be wrong with a line entry. -/
inductive LineEntryProblem where
  /-- The entry begins with a reserved byte. -/
  | reserved (lead : UInt8)
  /-- The entry lacks a byte. -/
  | truncated
  /-- The position after the entry does not fit. -/
  | overflow
deriving DecidableEq, Repr

/-- The wording of a problem. -/
def LineEntryProblem.message : LineEntryProblem → String
  | reserved lead => "reserved line number encoding 0x" ++ Numeral.hexFilled 2 lead.toNat
  | truncated => "line number entry truncated"
  | overflow => "line number entry out of range"

namespace LineEntry

/-- The number of bytes of the entry that begins with `lead`. -/
def length (lead : UInt8) : Except LineEntryProblem Nat :=
  if lead < 0x80 then .ok 1
  else if lead < 0xc0 then .ok 2
  else .error (.reserved lead)

/-- The lines that the low nine bits of a long entry stand for. -/
def signedLines (code : Nat) : Int :=
  if code % 512 < 256 then (code % 512 : Nat) else (code % 512 : Nat) - 512

/-- The distances, in lines and in bytecodes, that the bytes of an entry hold. Bytes after the entry
do not matter. -/
def distances (entry : List UInt8) : Except LineEntryProblem (Int × Nat) :=
  match entry with
  | [] => .error .truncated
  | lead :: rest => do
    if (← length lead) = 1 then
      return (lead.toNat % 4, lead.toNat / 4 % 32)
    else
      match rest with
      | [] => .error .truncated
      | second :: _ =>
        let code := lead.toNat * 256 + second.toNat
        return (signedLines code, code / 512 % 32)

/-- The position after an entry. -/
def decode (entry : List UInt8) (position : LinePosition) :
    Except LineEntryProblem LinePosition := do
  let (lines, bytecodes) ← distances entry
  match position.advance? lines bytecodes with
  | some next => return next
  | none => .error .overflow

/-- The shortest entry for two distances, if any entry holds them. -/
def encode? (lines : Int) (bytecodes : Nat) : Option (List UInt8) :=
  if 31 < bytecodes then none
  else if 0 ≤ lines ∧ lines ≤ 3 then some [UInt8.ofNat (bytecodes * 4 + lines.toNat)]
  else if -256 ≤ lines ∧ lines ≤ 255 then
    let code := 0x8000 + bytecodes * 512 + (lines % 512).toNat
    some [UInt8.ofNat (code / 256), UInt8.ofNat (code % 256)]
  else none

end LineEntry

end CompiledFrames
