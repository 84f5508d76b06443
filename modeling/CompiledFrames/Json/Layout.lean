import CompiledFrames.Document.Format
import CompiledFrames.Json.Syntax

/-!
# The layout of JSON texts

A document as text: every item and every entry has a line of its own, two spaces further in than the
line of the bracket that opens. Empty arrays and objects are not spread over lines.

## Main definitions

* `Document.layout` is the text of a document.
* `DocumentFormat.json` is the format of JSON texts.
-/

namespace CompiledFrames

namespace JsonToken

/-- The start of a line that is some steps in. -/
def newLine (depth : Nat) : List Char :=
  '\n' :: List.replicate (2 * depth) ' '

/-- The text of tokens, where the line that they are on is some steps in. -/
def layout : (depth : Nat) → List JsonToken → List Char
  | _, [] => []
  | depth, .beginArray :: .endArray :: rest => '[' :: ']' :: layout depth rest
  | depth, .beginObject :: .endObject :: rest => '\x7b' :: '\x7d' :: layout depth rest
  | depth, .beginArray :: rest => '[' :: newLine (depth + 1) ++ layout (depth + 1) rest
  | depth, .beginObject :: rest => '\x7b' :: newLine (depth + 1) ++ layout (depth + 1) rest
  | depth, .endArray :: rest => newLine (depth - 1) ++ ']' :: layout (depth - 1) rest
  | depth, .endObject :: rest => newLine (depth - 1) ++ '\x7d' :: layout (depth - 1) rest
  | depth, .comma :: rest => ',' :: newLine depth ++ layout depth rest
  | depth, .colon :: rest => ':' :: ' ' :: layout depth rest
  | depth, token :: rest => token.spelling ++ layout depth rest

end JsonToken

/-- The text of a document. -/
def Document.layout (document : Document) : String :=
  String.ofList (JsonToken.layout 0 document.tokens)

/-- The format of JSON texts. -/
def DocumentFormat.json : DocumentFormat where
  read text :=
    let (document, rest) := Document.ofTokens (JsonToken.scan text.toList)
    (document, rest.isEmpty)
  write document :=
    if document.tokens.any JsonToken.isBroken then .error .notJson else .ok document.layout

end CompiledFrames
