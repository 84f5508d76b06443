import CompiledFrames.Binary64.Text
import CompiledFrames.Document.Format

/-!
# Decoding documents

Readers for the values that a document should describe. They go through the document from left to
right and give the first problem that they meet.

A record is an object, in which fields may be in any order and unknown ones are skipped, or an array
with its fields in the order of their declaration. Some fields may be left out.

## Main definitions

* `Decoded` is what a reader gives.
* `Document.natural`, `Document.string`, `Document.sequence`, `Document.mapping` and
  `Document.choice` read values.
* `RecordField` is a field of a record, `Document.record` reads a record.
-/

namespace CompiledFrames

/-- A value, or the first problem met. -/
abbrev Decoded (α : Type) :=
  Except DocumentProblem α

namespace NumberValue

/-- The words for a number that stands where something else should. -/
def found : NumberValue → Decoded String
  | whole n => .ok ("integer " ++ DocumentProblem.accented (toString n))
  | real isNegative magnitude =>
    .ok ("floating point " ++
      DocumentProblem.accented ((if isNegative then "-" else "") ++ magnitude.text))
  | outOfRange => .error .notJson

end NumberValue

namespace Document

/-- The words for a value that stands where something else should. -/
def found : Document → Decoded String
  | missing => .error .notJson
  | null => .ok "null"
  | bool value => .ok ("boolean " ++ DocumentProblem.accented (toString value))
  | number value => value.found
  | text (some value) => .ok ("string " ++ Quoted.quote value)
  | text none => .error .notJson
  | array .. => .ok "sequence"
  | object .. => .ok "map"

/-- The problem of a value that should be something else. -/
def unexpected {α : Type} (document : Document) (wanted : String) : Decoded α := do
  .error (.wrongKind (← document.found) wanted)

/-! ## Simple values -/

/-- A natural number below `bound`. -/
def natural (wanted : String) (bound : Nat) (document : Document) : Decoded Nat :=
  match document with
  | number (.whole n) =>
    if 0 ≤ n ∧ n < bound then .ok n.toNat else .error (.outOfRange (toString n) wanted)
  | _ => document.unexpected wanted

/-- A number of sixty-four bits. -/
def word64 (document : Document) : Decoded UInt64 :=
  (document.natural "u64" UInt64.size).map UInt64.ofNat

/-- A number of thirty-two bits. -/
def word32 (document : Document) : Decoded UInt32 :=
  (document.natural "u32" UInt32.size).map UInt32.ofNat

/-- A text. -/
def string (wanted : String) (document : Document) : Decoded String :=
  match document with
  | text (some value) => .ok value
  | _ => document.unexpected wanted

/-- Nothing. -/
def unit (document : Document) : Decoded Unit :=
  match document with
  | null => .ok ()
  | _ => document.unexpected "unit"

/-! ## Collections -/

/-- A sequence of values. -/
def sequence {α : Type} (item : Document → Decoded α) (document : Document) :
    Decoded (List α) := do
  match document with
  | array items isClosed =>
    let values ← items.mapM item
    if isClosed then .ok values else .error .notJson
  | _ => document.unexpected "a sequence"

/-- A key of an object. -/
def key : Option String → Decoded String
  | some value => .ok value
  | none => .error .notJson

/-- Values with keys, in the order in which they come. -/
def mapping {α : Type} (item : Document → Decoded α) (document : Document) :
    Decoded (List (String × α)) := do
  match document with
  | object entries isClosed =>
    let values ← entries.mapM fun (name, value) => return (← key name, ← item value)
    if isClosed then .ok values else .error .notJson
  | _ => document.unexpected "a map"

/-! ## Choices -/

/-- The choice of a name. -/
def chosen {α : Type} (offered : List (String × α)) (name : String) : Decoded α :=
  match offered.lookup name with
  | some value => .ok value
  | none => .error (.unknownChoice name (offered.map (·.1)))

/-- One of several choices: its name, or an object that has the name as its only key, with nothing
as the value. -/
def choice {α : Type} (offered : List (String × α)) : Document → Decoded α
  | text name => do chosen offered (← key name)
  | object ((name, value) :: rest) isClosed => do
    let result ← chosen offered (← key name)
    value.unit
    if rest.isEmpty && isClosed then .ok result else .error .notJson
  | _ => .error .notJson

end Document

/-! ## Records -/

/-- A field of a record `ρ`. -/
structure RecordField (ρ : Type) where
  name : String
  /-- The record with the value that a document describes for the field. -/
  read : Document → ρ → Decoded ρ
  isOptional : Bool := false

/-- The fields of a record, by the name that problems give to the record. -/
structure RecordShape (ρ : Type) where
  name : String
  fields : List (RecordField ρ)

namespace RecordShape

variable {ρ : Type}

/-- The record as problems call what is wanted. -/
def wanted (shape : RecordShape ρ) : String :=
  "struct " ++ shape.name

/-- The record with its fields from an array, from the field with the number `given` on. -/
def readItems (shape : RecordShape ρ) (isClosed : Bool) :
    (given : Nat) → List (RecordField ρ) → List Document → ρ → Decoded ρ
  | _, [], rest, record => if rest.isEmpty && isClosed then .ok record else .error .notJson
  | given, field :: fields, item :: items, record => do
    shape.readItems isClosed (given + 1) fields items (← field.read item record)
  | given, field :: fields, [], record =>
    if !isClosed then .error .notJson
    else if field.isOptional then shape.readItems isClosed (given + 1) fields [] record
    else .error (.tooShort given shape.name shape.fields.length)

/-- The record with its fields from an object, where some fields have been read already. -/
def readEntries (shape : RecordShape ρ) (isClosed : Bool) :
    List (Option String × Document) → (seen : List String) → ρ → Decoded ρ
  | [], seen, record =>
    if !isClosed then .error .notJson
    else
      match shape.fields.find? fun field => !field.isOptional && !seen.contains field.name with
      | some field => .error (.missingField field.name)
      | none => .ok record
  | (name, value) :: rest, seen, record => do
    let name ← Document.key name
    match shape.fields.find? (·.name == name) with
    | none =>
      -- an unknown field is passed over, and so it has to be there
      if value.isWhole then shape.readEntries isClosed rest seen record else .error .notJson
    | some field =>
      if seen.contains name then .error (.repeatedField name)
      else shape.readEntries isClosed rest (name :: seen) (← field.read value record)

end RecordShape

/-- A record, where fields that are left out are those of `default`. -/
def Document.record {ρ : Type} (shape : RecordShape ρ) (default : ρ) (document : Document) :
    Decoded ρ :=
  match document with
  | .array items isClosed => shape.readItems isClosed 0 shape.fields items default
  | .object entries isClosed => shape.readEntries isClosed entries [] default
  | _ => document.unexpected shape.wanted

/-- The value that a text describes. -/
def DocumentFormat.decode {α : Type} (format : DocumentFormat) (read : Document → Decoded α)
    (text : String) : Decoded α := do
  let (document, isEntire) := format.read text
  let value ← read document
  if isEntire then .ok value else .error .notJson

end CompiledFrames
