import CompiledFrames.Text.Numeral
import CompiledFrames.Text.Printable

/-!
# Quoted texts

A text between double quotes, in a form that shows every character: the quote, the backslash and a
few controls get a backslash before them, and a character that is not printable is written by its
number.
-/

namespace CompiledFrames.Quoted

/-- The characters which have an escape of two characters, with its second one. -/
def shortEscape? : Char → Option Char
  | '\x00' => some '0'
  | '\t' => some 't'
  | '\r' => some 'r'
  | '\n' => some 'n'
  | '"' => some '"'
  | '\\' => some '\\'
  | _ => none

/-- How one character is written. -/
def encodeChar (c : Char) : List Char :=
  match shortEscape? c with
  | some letter => ['\\', letter]
  | none =>
    if Printable.isPrintable c then [c]
    else "\\u\x7b".toList ++ (Numeral.hex c.toNat).toList ++ ['\x7d']

/-- The text between double quotes. -/
def quote (text : String) : String :=
  String.ofList ('"' :: text.toList.flatMap encodeChar ++ ['"'])

end CompiledFrames.Quoted
