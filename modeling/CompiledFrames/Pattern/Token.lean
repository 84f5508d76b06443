import CompiledFrames.Pattern.Basic
import CompiledFrames.Text.Blank
import CompiledFrames.Text.Numeral
import CompiledFrames.Text.Remainder

/-!
# Tokens of patterns

The text of a pattern in parts. Most characters stand for themselves. A backslash takes the special
meaning from the character behind it, which has to be an ASCII character other than a letter, a
digit, `<` and `>`; brackets hold a set of characters; `*`, `+`, `?` and counts in braces repeat
what comes before them, and a `?` behind them makes no difference to whether a text is accepted.

## Main definitions

* `PatternChar.ofText?` resolves the backslashes.
* `PatternToken.ofChars?` cuts the characters into tokens.
-/

namespace CompiledFrames

/-- A character of a pattern. -/
inductive PatternChar where
  /-- A character that may have a special meaning. -/
  | plain (c : Char)
  /-- A character that stands for itself. -/
  | quoted (c : Char)
deriving DecidableEq, Repr

namespace PatternChar

/-- The character itself. -/
def char : PatternChar → Char
  | plain c | quoted c => c

/-- Whether a backslash may stand before a character. -/
def isQuotable (c : Char) : Bool :=
  c.toNat < 128 && !c.isAlphanum && c != '<' && c != '>'

/-- The characters of a pattern, with their backslashes resolved. -/
def ofChars? : List Char → Option (List PatternChar)
  | [] => some []
  | '\\' :: c :: rest =>
    if isQuotable c then (ofChars? rest).map (.quoted c :: ·) else none
  | c :: rest => if c = '\\' then none else (ofChars? rest).map (.plain c :: ·)

/-- The characters of the text of a pattern. -/
def ofText? (text : String) : Option (List PatternChar) :=
  ofChars? text.toList

/-- The characters before the first `stop`, and those behind it. -/
def cut? (stop : PatternChar) :
    (chars : List PatternChar) → Option (List PatternChar × Remainder chars)
  | [] => none
  | c :: rest =>
    if c = stop then some ([], .tail c rest)
    else (cut? stop rest).map fun (before, behind) => (c :: before, behind.cons c)

end PatternChar

/-! ## Sets -/

namespace CharSet

/-- The set that the characters between two brackets write: single characters and ranges. -/
def ofItems? : List PatternChar → Option CharSet
  | [] => some .nothing
  | .plain '[' :: _ => none
  | first :: .plain '-' :: last :: rest =>
    if last.char < first.char then none
    else (ofItems? rest).map (.union (.range first.char last.char))
  | c :: rest => (ofItems? rest).map (.union (.single c.char))

/-- The set that the characters between two brackets write, where dashes before all others stand for
themselves. -/
def ofBody? (body : List PatternChar) : Option CharSet :=
  match body with
  | .plain '-' :: rest =>
    (ofItems? (rest.dropWhile (· = .plain '-'))).map (.union (.single '-'))
  | _ => ofItems? body

/-- The set behind an opening bracket, and everything behind its closing bracket, which stands for
itself when it comes first. -/
def readBody? (chars : List PatternChar) : Option (CharSet × Remainder chars) :=
  match chars with
  | .plain ']' :: rest => do
    let (body, behind) ← PatternChar.cut? (.plain ']') rest
    return (← ofBody? (.plain ']' :: body), behind.cons _)
  | chars => do
    let (body, behind) ← PatternChar.cut? (.plain ']') chars
    return (← ofBody? body, behind)

/-- `readBody?`, or its complement behind a `^`. -/
def read? (chars : List PatternChar) : Option (CharSet × Remainder chars) :=
  match chars with
  | .plain '^' :: rest => do
    let (set, behind) ← readBody? rest
    return (.complement set, behind.cons _)
  | chars => readBody? chars

end CharSet

/-! ## Counts -/

/-- How often something is repeated. -/
structure Repetition where
  least : Nat
  most : Option Nat
deriving DecidableEq, Repr

namespace Repetition

/-- A count in braces, with blanks around it. -/
def count? (chars : List PatternChar) : Option Nat :=
  (Numeral.digits? 10 (Blank.trim (String.ofList (chars.map PatternChar.char))).toList).filter
    (· < UInt32.size)

/-- The counts between two braces: one, a least one, or a least and a most one. -/
def ofBody? (body : List PatternChar) : Option Repetition :=
  match body.span (· != .plain ',') with
  | (count, []) => (count? count).map fun n => ⟨n, some n⟩
  | (least, [_]) => (count? least).map fun n => ⟨n, none⟩
  | (least, _ :: most) => do
    let least ← count? least
    let most ← count? most
    if least ≤ most then some ⟨least, some most⟩ else none

end Repetition

/-! ## Tokens -/

/-- A part of a pattern. -/
inductive PatternToken where
  | one (set : CharSet)
  | atStart
  | atEnd
  | opening
  | closing
  | bar
  | repeated (count : Repetition)
deriving DecidableEq, Repr

namespace PatternToken

/-- Any character but a line feed. -/
def dot : CharSet :=
  .complement (.single '\n')

/-- The characters behind a repetition, without a `?` that follows it at once. -/
def dropLazy : List PatternChar → List PatternChar
  | .plain '?' :: rest => rest
  | chars => chars

theorem length_dropLazy_le (chars : List PatternChar) :
    (dropLazy chars).length ≤ chars.length := by
  unfold dropLazy
  split <;> simp

/-- The tokens of a pattern. -/
def ofChars? (chars : List PatternChar) : Option (List PatternToken) :=
  match chars with
  | [] => some []
  | .quoted c :: rest => (ofChars? rest).map (.one (.single c) :: ·)
  | .plain '(' :: .plain '?' :: .plain ':' :: rest => (ofChars? rest).map (.opening :: ·)
  | .plain '(' :: rest => (ofChars? rest).map (.opening :: ·)
  | .plain ')' :: rest => (ofChars? rest).map (.closing :: ·)
  | .plain '|' :: rest => (ofChars? rest).map (.bar :: ·)
  | .plain '^' :: rest => (ofChars? rest).map (.atStart :: ·)
  | .plain '$' :: rest => (ofChars? rest).map (.atEnd :: ·)
  | .plain '.' :: rest => (ofChars? rest).map (.one dot :: ·)
  | .plain '*' :: rest => (ofChars? (dropLazy rest)).map (.repeated ⟨0, none⟩ :: ·)
  | .plain '+' :: rest => (ofChars? (dropLazy rest)).map (.repeated ⟨1, none⟩ :: ·)
  | .plain '?' :: rest => (ofChars? (dropLazy rest)).map (.repeated ⟨0, some 1⟩ :: ·)
  | .plain '[' :: rest =>
    match CharSet.read? rest with
    | none => none
    | some (set, ⟨behind, _⟩) => (ofChars? behind).map (.one set :: ·)
  | .plain '{' :: rest =>
    match PatternChar.cut? (.plain '}') rest with
    | none => none
    | some (body, ⟨behind, _⟩) => do
      let count ← Repetition.ofBody? body
      (ofChars? (dropLazy behind)).map (.repeated count :: ·)
  | .plain c :: rest => (ofChars? rest).map (.one (.single c) :: ·)
termination_by chars.length
decreasing_by
  all_goals simp only [List.length_cons]
  all_goals have := length_dropLazy_le
  all_goals grind

end PatternToken

end CompiledFrames
