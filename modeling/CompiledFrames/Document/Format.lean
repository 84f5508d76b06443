import CompiledFrames.Document.Basic
import CompiledFrames.Document.Problem

/-!
# Formats of documents

A format tells which document a text describes and which text describes a document. Nothing is said
here about how it does so: what is asked of a format is that it reads back what it has written.

## Main definitions

* `DocumentFormat` is a way to read and write documents.
* `Document.Plain` are the documents of natural numbers and texts that any format can write.
* `DocumentFormat.Lawful` says that a format reads them back.
-/

namespace CompiledFrames

/-- A way to read and write documents. -/
structure DocumentFormat where
  /-- The document that a text describes as far as it is well formed, and whether that is to its
  end. -/
  read : String → Document × Bool
  /-- The text of a document, if it can be written. -/
  write : Document → Except DocumentProblem String

/-- A document of which nothing is missing, with arrays and objects at most `depth` deep in one
another. Its numbers are natural ones of sixty-four bits. -/
inductive Document.Plain : (depth : Nat) → Document → Prop
  | null (depth : Nat) : Plain depth .null
  | bool (depth : Nat) (value : Bool) : Plain depth (.bool value)
  | number (depth : Nat) {n : Nat} (h : n < UInt64.size) : Plain depth (.number (.whole n))
  | text (depth : Nat) (value : String) : Plain depth (.text (some value))
  | array {depth : Nat} {items : List Document} (h : ∀ item ∈ items, Plain depth item) :
      Plain (depth + 1) (.array items true)
  | object {depth : Nat} {entries : List (Option String × Document)}
      (hkeys : ∀ entry ∈ entries, entry.1.isSome) (h : ∀ entry ∈ entries, Plain depth entry.2) :
      Plain (depth + 1) (.object entries true)

/-- A format that reads back what it has written. Readers give up on documents that are nested too
deeply, so nothing is asked of those which are more than 127 deep. -/
structure DocumentFormat.Lawful (format : DocumentFormat) : Prop where
  read_write : ∀ document : Document, document.Plain 127 →
    ∃ text, format.write document = .ok text ∧ format.read text = (document, true)

end CompiledFrames
