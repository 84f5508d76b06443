import CompiledFrames.Document.Problem
import CompiledFrames.Text.Utf8

/-!
# Bytes in hexadecimal

Bytes written as pairs of hexadecimal digits. White space may stand anywhere between digits. A pair
is read like any other number: so the first of its characters may be a plus sign.

## Main definitions

* `HexBytes.encode` writes bytes.
* `HexBytes.decode` reads them.
-/

namespace CompiledFrames.HexBytes

/-- The bytes in lower-case digits. -/
def encode (bytes : List UInt8) : String :=
  String.ofList (bytes.flatMap fun b => (Numeral.hexFilled 2 b.toNat).toList)

/-- Whether a byte of a text is ASCII white space. -/
def isSpace (b : UInt8) : Bool :=
  b = 0x20 || b = 0x09 || b = 0x0a || b = 0x0c || b = 0x0d

/-- The byte that the two bytes of a pair write. -/
def decodePair? (a b : UInt8) : Option UInt8 := do
  let text ← Utf8.decode? [a, b]
  (Numeral.read? 16 256 text).map UInt8.ofNat

/-- The bytes that pairs write. -/
def decodePairs : List UInt8 → Except DocumentProblem (List UInt8)
  | a :: b :: rest =>
    match decodePair? a b with
    | some byte => (decodePairs rest).map (byte :: ·)
    | none => .error (.badHexByte (Utf8.decodeLossy [a, b]))
  | _ => .ok []

/-- The bytes that a text writes. -/
def decode (text : String) : Except DocumentProblem (List UInt8) :=
  let digits := (Utf8.encode text).filter fun b => !isSpace b
  if digits.length % 2 ≠ 0 then .error .oddHexDigits else decodePairs digits

end CompiledFrames.HexBytes
