/-!
# UTF-8

Reading bytes as UTF-8. The bytes are cut into characters and ill-formed parts; an ill-formed part
is a longest beginning of some character that its next byte does not continue, or one byte that
begins no character.

## Main definitions

* `Utf8.scan` cuts bytes into characters and ill-formed parts.
* `Utf8.decode?` reads a text whose bytes are all well formed.
* `Utf8.decodeLossy` puts the replacement character for each ill-formed part.
* `Utf8.encode` writes a text.
-/

namespace CompiledFrames.Utf8

/-- What is open after some bytes. -/
inductive State where
  /-- No character is open. -/
  | start
  /-- A character lacks `missing` more bytes, the next of them between `low` and `high`; `code` is
  the part of its number that is known. -/
  | inside (missing : Nat) (low high : UInt8) (code : Nat)

/-- What a byte does that no open character waits for: the characters it completes, where `none` is
an ill-formed part, and what is open after it. -/
def lead (b : UInt8) : List (Option Char) × State :=
  let bits (mask : UInt8) := (b &&& mask).toNat
  if b < 0x80 then ([some (Char.ofNat b.toNat)], .start)
  else if b < 0xc2 then ([none], .start)
  else if b < 0xe0 then ([], .inside 1 0x80 0xbf (bits 0x1f))
  else if b = 0xe0 then ([], .inside 2 0xa0 0xbf (bits 0x0f))
  else if b = 0xed then ([], .inside 2 0x80 0x9f (bits 0x0f))
  else if b < 0xf0 then ([], .inside 2 0x80 0xbf (bits 0x0f))
  else if b = 0xf0 then ([], .inside 3 0x90 0xbf (bits 0x07))
  else if b < 0xf4 then ([], .inside 3 0x80 0xbf (bits 0x07))
  else if b = 0xf4 then ([], .inside 3 0x80 0x8f (bits 0x07))
  else ([none], .start)

/-- What the next byte completes, and what is open after it. A byte that does not continue the open
character ends an ill-formed part and is looked at afresh. -/
def step : State → UInt8 → List (Option Char) × State
  | .start, b => lead b
  | .inside missing low high code, b =>
    if low ≤ b ∧ b ≤ high then
      let code := code * 64 + (b &&& 0x3f).toNat
      if missing ≤ 1 then ([some (Char.ofNat code)], .start)
      else ([], .inside (missing - 1) 0x80 0xbf code)
    else
      let (done, state) := lead b
      (none :: done, state)

/-- The bytes cut into characters and ill-formed parts (`none`), after what is open already. -/
def scanFrom : State → List UInt8 → List (Option Char)
  | .start, [] => []
  | .inside .., [] => [none]
  | state, b :: rest =>
    let (done, state) := step state b
    done ++ scanFrom state rest

/-- The bytes cut into characters and ill-formed parts (`none`). -/
def scan (bytes : List UInt8) : List (Option Char) :=
  scanFrom .start bytes

/-- The text that well-formed bytes write. -/
def decode? (bytes : List UInt8) : Option String :=
  (scan bytes).mapM id |>.map String.ofList

/-- The text that the bytes write, with `U+FFFD` in place of each ill-formed part. -/
def decodeLossy (bytes : List UInt8) : String :=
  String.ofList ((scan bytes).map (·.getD '\uFFFD'))

/-- The bytes that write a text. -/
def encode (text : String) : List UInt8 :=
  text.toList.flatMap String.utf8EncodeChar

end CompiledFrames.Utf8
