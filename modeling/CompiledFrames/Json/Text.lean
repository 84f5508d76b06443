import CompiledFrames.Text.Numeral
import CompiledFrames.Text.Remainder

/-!
# Texts in JSON texts

A text stands between double quotes. Control characters, the quote and the backslash are escaped.
Escapes by number give halves of surrogate pairs too: two of them that belong together are one
character, and a text with any other half is no text, though it is not ill-formed.

## Main definitions

* `JsonText.read?` reads the units behind the opening quote, `JsonText.join` makes a text of
  them.
* `JsonText.write` writes a text.
-/

namespace CompiledFrames

/-- What one character or escape of a text stands for. -/
inductive TextUnit where
  | char (c : Char)
  /-- Half of a surrogate pair. -/
  | half (code : Nat)
deriving DecidableEq, Repr

namespace JsonText

/-! ## Reading -/

/-- The unit of a number of sixteen bits. -/
def unitOf (code : Nat) : TextUnit :=
  if 0xd800 ≤ code ∧ code < 0xe000 then .half code else .char (Char.ofNat code)

/-- What an escape stands for that consists of one character behind the backslash. -/
def shortEscape? : Char → Option Char
  | '"' => some '"'
  | '\\' => some '\\'
  | '/' => some '/'
  | 'b' => some '\x08'
  | 'f' => some '\x0c'
  | 'n' => some '\n'
  | 'r' => some '\r'
  | 't' => some '\t'
  | _ => none

/-- Whether a character has to be escaped because it is a control character. -/
def isControl (c : Char) : Bool :=
  c < ' '

/-- The units behind the opening quote up to the closing one, and what follows. -/
def read? : (chars : List Char) → Option (List TextUnit × Remainder chars)
  | [] => none
  | '"' :: rest => some ([], .tail _ rest)
  | '\\' :: 'u' :: a :: b :: c :: d :: rest => do
    let code ← Numeral.digits? 16 [a, b, c, d]
    let (units, behind) ← read? rest
    return (unitOf code :: units, (((((behind.cons d).cons c).cons b).cons a).cons _).cons _)
  | '\\' :: escape :: rest => do
    let c ← shortEscape? escape
    let (units, behind) ← read? rest
    return (.char c :: units, (behind.cons _).cons _)
  | c :: rest =>
    if c = '\\' ∨ isControl c then none
    else (read? rest).map fun (units, behind) => (.char c :: units, behind.cons c)

/-- The text of some units, if halves of surrogate pairs come in pairs. -/
def join : List TextUnit → Option (List Char)
  | [] => some []
  | .char c :: rest => (join rest).map (c :: ·)
  | .half lead :: .half trail :: rest =>
    if lead < 0xdc00 ∧ 0xdc00 ≤ trail then
      (join rest).map
        (Char.ofNat (0x10000 + (lead - 0xd800) * 0x400 + (trail - 0xdc00)) :: ·)
    else none
  | .half _ :: _ => none

/-! ## Writing -/

/-- The character behind the backslash, for a character with a short escape that is used. -/
def escapeLetter? : Char → Option Char
  | '"' => some '"'
  | '\\' => some '\\'
  | '\x08' => some 'b'
  | '\t' => some 't'
  | '\n' => some 'n'
  | '\x0c' => some 'f'
  | '\r' => some 'r'
  | _ => none

/-- How one character is written. -/
def writeChar (c : Char) : List Char :=
  match escapeLetter? c with
  | some letter => ['\\', letter]
  | none =>
    if isControl c then '\\' :: 'u' :: (Numeral.hexFilled 4 c.toNat).toList else [c]

/-- A text between quotes. -/
def write (text : String) : List Char :=
  '"' :: text.toList.flatMap writeChar ++ ['"']

end JsonText

end CompiledFrames
