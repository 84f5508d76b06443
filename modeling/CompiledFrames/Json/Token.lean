import CompiledFrames.Json.Number
import CompiledFrames.Json.Text

/-!
# Tokens of JSON texts

A JSON text in parts. What comes behind the first character that belongs to no token is not looked
at.

## Main definitions

* `JsonToken` is a part of a JSON text.
* `JsonToken.scan` cuts a text into tokens, `JsonToken.spelling` writes one.
-/

namespace CompiledFrames

/-- A part of a JSON text. -/
inductive JsonToken where
  | beginArray
  | endArray
  | beginObject
  | endObject
  | comma
  | colon
  | null
  | bool (value : Bool)
  | number (literal : NumberLiteral)
  /-- A text, or nothing in its place if it has halves of surrogate pairs. -/
  | text (value : Option String)
  /-- A character that belongs to no token. -/
  | broken
deriving DecidableEq, Repr

namespace JsonToken

/-- Whether a token stands for something that is no part of a JSON text. -/
def isBroken : JsonToken → Bool
  | text none | broken => true
  | _ => false

/-- The white space between tokens. -/
def isSpace (c : Char) : Bool :=
  c == ' ' || c == '\n' || c == '\t' || c == '\r'

/-- The number at the beginning of a text. -/
def readNumber? (chars : List Char) : Option (JsonToken × Remainder chars) :=
  match h : NumberLiteral.read? chars with
  | some (literal, rest) => some (.number literal, ⟨rest, NumberLiteral.length_of_read? h⟩)
  | none => none

/-- The token at the beginning of a text. -/
def read? (chars : List Char) : Option (JsonToken × Remainder chars) :=
  match chars with
  | '[' :: rest => some (.beginArray, .tail _ rest)
  | ']' :: rest => some (.endArray, .tail _ rest)
  | '{' :: rest => some (.beginObject, .tail _ rest)
  | '}' :: rest => some (.endObject, .tail _ rest)
  | ',' :: rest => some (.comma, .tail _ rest)
  | ':' :: rest => some (.colon, .tail _ rest)
  | 'n' :: 'u' :: 'l' :: 'l' :: rest =>
    some (.null, (((Remainder.tail _ rest).cons _).cons _).cons _)
  | 't' :: 'r' :: 'u' :: 'e' :: rest =>
    some (.bool true, (((Remainder.tail _ rest).cons _).cons _).cons _)
  | 'f' :: 'a' :: 'l' :: 's' :: 'e' :: rest =>
    some (.bool false, ((((Remainder.tail _ rest).cons _).cons _).cons _).cons _)
  | '"' :: rest =>
    (JsonText.read? rest).map fun (units, behind) =>
      (.text ((JsonText.join units).map String.ofList), behind.cons _)
  | chars => readNumber? chars

/-- The tokens of a text. -/
def scan (chars : List Char) : List JsonToken :=
  match chars with
  | [] => []
  | c :: rest =>
    if isSpace c then scan rest
    else
      match read? (c :: rest) with
      | some (token, ⟨behind, _⟩) => token :: scan behind
      | none => [.broken]
termination_by chars.length
decreasing_by
  all_goals simp_all

/-- The text of a token. -/
def spelling : JsonToken → List Char
  | beginArray => ['[']
  | endArray => [']']
  | beginObject => ['\x7b']
  | endObject => ['\x7d']
  | comma => [',']
  | colon => [':']
  | null => "null".toList
  | bool true => "true".toList
  | bool false => "false".toList
  | number literal => literal.spelling
  | text (some value) => JsonText.write value
  | text none => "\"\\ud800\"".toList
  | broken => ['?']

end JsonToken

end CompiledFrames
