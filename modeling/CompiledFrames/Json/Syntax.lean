import CompiledFrames.Document.Basic
import CompiledFrames.Json.Token

/-!
# The syntax of JSON

Documents as sequences of tokens. A number is read for its value, and only the natural ones are
written.

## Main definitions

* `Document.ofTokens` makes a document of tokens, `Document.tokens` writes it.
-/

namespace CompiledFrames

namespace Document

/-! ## Reading -/

/-- An array or object that is open, with what it has before the value being read. The last of that
comes first. -/
inductive Open where
  | array (items : List Document)
  | object (entries : List (Option String × Document)) (key : Option String)
deriving Repr

/-- The document that has been read when the text stops being JSON behind a value. -/
def stop (value : Document) : List Open → Document
  | [] => value
  | .array items :: outer => stop (.array (items.reverse ++ [value]) false) outer
  | .object entries key :: outer =>
    stop (.object (entries.reverse ++ [(key, value)]) false) outer

mutual

/-- Reads on where a value is expected, inside of what is open; gives the document and what follows
it. -/
def readValue : List JsonToken → List Open → Document × List JsonToken
  | .null :: rest, outer => readBehind rest .null outer
  | .bool value :: rest, outer => readBehind rest (.bool value) outer
  | .number literal :: rest, outer => readBehind rest (.number literal.value) outer
  | .text value :: rest, outer => readBehind rest (.text value) outer
  | .beginArray :: .endArray :: rest, outer => readBehind rest (.array [] true) outer
  | .beginArray :: rest, outer => readValue rest (.array [] :: outer)
  | .beginObject :: .endObject :: rest, outer => readBehind rest (.object [] true) outer
  | .beginObject :: .text key :: .colon :: rest, outer => readValue rest (.object [] key :: outer)
  | .beginObject :: .text key :: rest, outer => (stop (.object [(key, .missing)] false) outer, rest)
  | .beginObject :: rest, outer => (stop (.object [] false) outer, rest)
  | tokens, outer => (stop .missing outer, tokens)

/-- Reads on behind a value. -/
def readBehind : List JsonToken → Document → List Open → Document × List JsonToken
  | tokens, value, [] => (value, tokens)
  | .comma :: rest, value, .array items :: outer =>
    readValue rest (.array (value :: items) :: outer)
  | .endArray :: rest, value, .array items :: outer =>
    readBehind rest (.array (value :: items).reverse true) outer
  | .comma :: .text next :: .colon :: rest, value, .object entries key :: outer =>
    readValue rest (.object ((key, value) :: entries) next :: outer)
  | .comma :: .text next :: rest, value, .object entries key :: outer =>
    (stop (.object (((key, value) :: entries).reverse ++ [(next, .missing)]) false) outer, rest)
  | .endObject :: rest, value, .object entries key :: outer =>
    readBehind rest (.object ((key, value) :: entries).reverse true) outer
  | tokens, value, outer => (stop value outer, tokens)

end

/-- The document that tokens describe, and what follows it. -/
def ofTokens (tokens : List JsonToken) : Document × List JsonToken :=
  readValue tokens []

/-! ## Writing -/

mutual

/-- The tokens of a document, broken ones in place of what cannot be written. -/
def tokens : Document → List JsonToken
  | missing => [.broken]
  | null => [.null]
  | bool value => [.bool value]
  | number (.whole (.ofNat n)) => [.number (.ofNat n)]
  | number _ => [.broken]
  | text value => [.text value]
  | array items isClosed =>
    .beginArray :: itemTokens items ++ [if isClosed then .endArray else .broken]
  | object entries isClosed =>
    .beginObject :: entryTokens entries ++ [if isClosed then .endObject else .broken]

/-- The tokens of the items of an array. -/
def itemTokens : List Document → List JsonToken
  | [] => []
  | [item] => item.tokens
  | item :: rest => item.tokens ++ .comma :: itemTokens rest

/-- The tokens of the entries of an object. -/
def entryTokens : List (Option String × Document) → List JsonToken
  | [] => []
  | [(key, value)] => .text key :: .colon :: value.tokens
  | (key, value) :: rest => .text key :: .colon :: value.tokens ++ .comma :: entryTokens rest

end

end Document

end CompiledFrames
