import CompiledFrames.Text.Quoted

/-!
# Problems with documents

What can be wrong with a JSON text that should describe a value: it may be no JSON at all, or JSON
that describes something else. `DocumentProblem.message` is the wording of the second kind.
-/

namespace CompiledFrames

/-- A reason to refuse a JSON text. -/
inductive DocumentProblem where
  /-- The text is not JSON, or there is no such text. -/
  | notJson
  /-- A value of another kind stands where `wanted` should. -/
  | wrongKind (found wanted : String)
  /-- An integer lies outside the range of `wanted`. -/
  | outOfRange (value wanted : String)
  /-- A record written as an array ends after `given` of its fields. -/
  | tooShort (given : Nat) (record : String) (fields : Nat)
  /-- A record has no such field and the field has no default. -/
  | missingField (name : String)
  /-- A record has the field twice. -/
  | repeatedField (name : String)
  /-- A choice is none of those offered. -/
  | unknownChoice (name : String) (offered : List String)
  /-- Hexadecimal text with half a byte left over. -/
  | oddHexDigits
  /-- Two digits of hexadecimal text that write no byte. -/
  | badHexByte (pair : String)
deriving DecidableEq, Repr

namespace DocumentProblem

/-- A name between grave accents. -/
def accented (name : String) : String :=
  "\x60" ++ name ++ "\x60"

/-- The wording of a problem. -/
def message : DocumentProblem → String
  | notJson => "text is not JSON"
  | wrongKind found wanted => "invalid type: " ++ found ++ ", expected " ++ wanted
  | outOfRange value wanted =>
    "invalid value: integer " ++ accented value ++ ", expected " ++ wanted
  | tooShort given record fields =>
    "invalid length " ++ toString given ++ ", expected struct " ++ record ++ " with "
      ++ toString fields ++ " elements"
  | missingField name => "missing field " ++ accented name
  | repeatedField name => "duplicate field " ++ accented name
  | unknownChoice name offered =>
    "unknown variant " ++ accented name ++ ", expected one of "
      ++ ", ".intercalate (offered.map accented)
  | oddHexDigits => "hex string has an odd number of digits"
  | badHexByte pair => "invalid hex byte " ++ Quoted.quote pair

end DocumentProblem

end CompiledFrames
