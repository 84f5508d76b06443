import Mathlib.Data.List.Chain
import CompiledFrames.Json.Layout
import CompiledFrames.Proofs.Json.Spelling

/-!
# The layout of documents is read back

Tokens are read again from the text in which they are laid out. White space is passed over, and each
token ends where it should: the marks that open, close and separate are one character, a text has its
closing quote, and a number is followed by a mark or by nothing.

## Main definitions

* `JsonToken.IsMark`: tokens that stand for no value
* `JsonToken.Legible`: tokens that can be read back, of which no two values are neighbours

## Main results

* `JsonToken.scan_value`: one value is read back
* `JsonToken.scan_layout`: tokens are read back from their layout
-/

namespace CompiledFrames

namespace JsonToken

variable {token : JsonToken} {tokens : List JsonToken} {depth : Nat} {c : Char}
  {rest : List Char}

/-- A token that opens, closes or separates. -/
def IsMark : JsonToken → Prop
  | beginArray | endArray | beginObject | endObject | comma | colon => True
  | null | bool _ | number _ | text _ | broken => False

/-- A token whose spelling is read back: of the numbers, these are the natural ones. -/
def IsWritten : JsonToken → Prop
  | number literal => ∃ n, literal = .ofNat n
  | text value => value.isSome
  | broken => False
  | _ => True

/-- Tokens that can be read back. Of two neighbours, one at least is a mark. -/
structure Legible (tokens : List JsonToken) : Prop where
  written : ∀ token ∈ tokens, token.IsWritten
  apart : tokens.IsChain fun a b => a.IsMark ∨ b.IsMark

theorem Legible.tail (h : Legible (token :: tokens)) : Legible tokens :=
  ⟨fun other hother => h.written other (List.mem_cons_of_mem _ hother),
    List.isChain_of_isChain_cons h.apart⟩

/-! ## Scanning -/

theorem scan_of_isSpace (h : isSpace c = true) : scan (c :: rest) = scan rest := by
  rw [scan, if_pos h]

theorem scan_of_read? {behind : Remainder (c :: rest)} (hc : isSpace c = false)
    (h : read? (c :: rest) = some (token, behind)) :
    scan (c :: rest) = token :: scan behind.rest := by
  rw [scan, if_neg (by simp [hc]), h]

/-- The start of a line is passed over. -/
theorem scan_newLine (depth : Nat) : scan (newLine depth ++ rest) = scan rest := by
  have hspaces : ∀ n, scan (List.replicate n ' ' ++ rest) = scan rest := by
    intro n
    induction n with
    | zero => rfl
    | succ n ih => rw [List.replicate_succ, List.cons_append, scan_of_isSpace rfl, ih]
  rw [newLine, List.cons_append, scan_of_isSpace rfl, hspaces]

/-- A digit begins a number. -/
theorem read?_of_isDigit (h : NumberLiteral.isDigit c = true) :
    read? (c :: rest) = readNumber? (c :: rest) := by
  rw [read?]
  all_goals
    intro _ hsame
    rw [(List.cons.inj hsame).1] at h
    exact absurd h (by decide)

theorem isSpace_of_isDigit (h : NumberLiteral.isDigit c = true) : isSpace c = false := by
  rw [Bool.eq_false_iff]
  intro hspace
  simp only [isSpace, Bool.or_eq_true, beq_iff_eq] at hspace
  rcases hspace with ((rfl | rfl) | rfl) | rfl <;> exact absurd h (by decide)

theorem exists_readNumber? {chars : List Char} {literal : NumberLiteral}
    (h : NumberLiteral.read? chars = some (literal, rest)) :
    ∃ behind : Remainder chars, readNumber? chars = some (.number literal, behind) ∧
      behind.rest = rest := by
  unfold readNumber?
  split
  · next found behind hfound =>
    rw [h] at hfound
    obtain ⟨rfl, rfl⟩ := Prod.mk.inj (Option.some.inj hfound)
    exact ⟨_, rfl, rfl⟩
  · next hnone =>
    rw [h] at hnone
    cases hnone

/-- A number is read up to where it stops. -/
theorem scan_toDigits {n : Nat} (h : NumberLiteral.Stops rest) :
    scan (Nat.toDigits 10 n ++ rest) = .number (.ofNat n) :: scan rest := by
  obtain ⟨c, more, hdigits⟩ := List.exists_cons_of_ne_nil (Nat.toDigits_ne_nil (n := n) (b := 10))
  have hc : NumberLiteral.isDigit c = true :=
    NumberLiteral.isDigit_of_mem_toDigits (n := n) (hdigits ▸ List.mem_cons_self)
  have hnumber := NumberLiteral.read?_toDigits (n := n) h
  rw [hdigits, List.cons_append] at hnumber ⊢
  obtain ⟨behind, hread, hbehind⟩ := exists_readNumber? hnumber
  rw [← read?_of_isDigit hc] at hread
  rw [scan_of_read? (isSpace_of_isDigit hc) hread, hbehind]

/-- A text is read up to its closing quote. -/
theorem scan_write (value : String) :
    scan (JsonText.write value ++ rest) = .text (some value) :: scan rest := by
  obtain ⟨behind, hread, hbehind⟩ := JsonText.exists_read?_write value.toList rest
  have htoken : read? ('"' :: (value.toList.flatMap JsonText.writeChar ++ '"' :: rest)) =
      some (.text (some value), behind.cons '"') := by
    show (JsonText.read? _).map _ = _
    rw [hread, Option.map_some]
    simp only [JsonText.join_char, Option.map_some, String.ofList_toList]
  have hwritten : JsonText.write value ++ rest =
      '"' :: (value.toList.flatMap JsonText.writeChar ++ '"' :: rest) := by
    simp [JsonText.write]
  rw [hwritten, scan_of_read? rfl htoken]
  exact congrArg (List.cons _) (congrArg scan hbehind)

/-- A mark is read back, whatever follows it. -/
theorem scan_mark (mark : JsonToken) (h : mark.IsMark) (rest : List Char) :
    scan (mark.spelling ++ rest) = mark :: scan rest := by
  have hone : ∀ c, read? (c :: rest) = some (mark, .tail c rest) → isSpace c = false →
      scan (c :: rest) = mark :: scan rest := fun c hread hc => scan_of_read? hc hread
  cases mark with
  | beginArray => exact hone '[' rfl rfl
  | endArray => exact hone ']' rfl rfl
  | beginObject => exact hone '\x7b' rfl rfl
  | endObject => exact hone '\x7d' rfl rfl
  | comma => exact hone ',' rfl rfl
  | colon => exact hone ':' rfl rfl
  | null | bool _ | number _ | text _ | broken => exact absurd h id

/-- **A value is read back**, if what follows does not continue it. -/
theorem scan_value (hwritten : token.IsWritten) (hvalue : ¬ token.IsMark)
    (hstops : NumberLiteral.Stops rest) : scan (token.spelling ++ rest) = token :: scan rest := by
  cases token with
  | null =>
    have hspelling : null.spelling = ['n', 'u', 'l', 'l'] := rfl
    have hread : read? ('n' :: 'u' :: 'l' :: 'l' :: rest) =
        some (.null, (((Remainder.tail 'l' rest).cons 'l').cons 'u').cons 'n') := rfl
    rw [hspelling]
    exact scan_of_read? rfl hread
  | bool value =>
    cases value with
    | true =>
      have hspelling : (bool true).spelling = ['t', 'r', 'u', 'e'] := rfl
      have hread : read? ('t' :: 'r' :: 'u' :: 'e' :: rest) =
          some (.bool true, (((Remainder.tail 'e' rest).cons 'u').cons 'r').cons 't') := rfl
      rw [hspelling]
      exact scan_of_read? rfl hread
    | false =>
      have hspelling : (bool false).spelling = ['f', 'a', 'l', 's', 'e'] := rfl
      have hread : read? ('f' :: 'a' :: 'l' :: 's' :: 'e' :: rest) = some (.bool false,
          ((((Remainder.tail 'e' rest).cons 's').cons 'l').cons 'a').cons 'f') := rfl
      rw [hspelling]
      exact scan_of_read? rfl hread
  | number literal =>
    obtain ⟨n, hn⟩ := hwritten
    have hspelling : (number literal).spelling = Nat.toDigits 10 n := by
      rw [hn]
      exact NumberLiteral.spelling_ofNat n
    rw [hspelling, scan_toDigits hstops, hn]
  | text value =>
    obtain ⟨value, rfl⟩ := Option.isSome_iff_exists.mp hwritten
    exact scan_write value
  | broken => exact absurd hwritten id
  | beginArray | endArray | beginObject | endObject | comma | colon => exact absurd trivial hvalue

/-! ## Layouts -/

/-- A token without a layout of its own is no mark. -/
theorem not_isMark_of_ne (h1 : token ≠ beginArray) (h2 : token ≠ beginObject)
    (h3 : token ≠ endArray) (h4 : token ≠ endObject) (h5 : token ≠ comma) (h6 : token ≠ colon) :
    ¬ token.IsMark := by
  cases token <;> simp_all [IsMark]

/-- Neither a mark nor the end continues a number, however deep it is. -/
theorem stops_layout (depth : Nat) (h : ∀ token ∈ tokens.head?, token.IsMark) :
    NumberLiteral.Stops (layout depth tokens) := by
  fun_cases layout depth tokens
  case case1 => exact NumberLiteral.stops_nil
  case case10 token rest _ _ h1 h2 h3 h4 h5 h6 =>
    exact absurd (h token rfl) (not_isMark_of_ne h1 h2 h3 h4 h5 h6)
  all_goals exact NumberLiteral.stops_cons (by decide)

/-- **Tokens are read back from their layout.** -/
theorem scan_layout (depth : Nat) (h : Legible tokens) : scan (layout depth tokens) = tokens := by
  fun_induction layout depth tokens
  case case1 => rw [scan]
  case case2 depth rest ih =>
    have hopen := scan_mark beginArray trivial (']' :: layout depth rest)
    have hclose := scan_mark endArray trivial (layout depth rest)
    exact hopen.trans (congrArg _ (hclose.trans (congrArg _ (ih h.tail.tail))))
  case case3 depth rest ih =>
    have hopen := scan_mark beginObject trivial ('\x7d' :: layout depth rest)
    have hclose := scan_mark endObject trivial (layout depth rest)
    exact hopen.trans (congrArg _ (hclose.trans (congrArg _ (ih h.tail.tail))))
  case case4 depth rest _ ih =>
    have hmark := scan_mark beginArray trivial (newLine (depth + 1) ++ layout (depth + 1) rest)
    rwa [scan_newLine, ih h.tail] at hmark
  case case5 depth rest _ ih =>
    have hmark := scan_mark beginObject trivial (newLine (depth + 1) ++ layout (depth + 1) rest)
    rwa [scan_newLine, ih h.tail] at hmark
  case case6 depth rest ih =>
    have hmark := scan_mark endArray trivial (layout (depth - 1) rest)
    rw [ih h.tail] at hmark
    rw [scan_newLine]
    exact hmark
  case case7 depth rest ih =>
    have hmark := scan_mark endObject trivial (layout (depth - 1) rest)
    rw [ih h.tail] at hmark
    rw [scan_newLine]
    exact hmark
  case case8 depth rest ih =>
    have hmark := scan_mark comma trivial (newLine depth ++ layout depth rest)
    rwa [scan_newLine, ih h.tail] at hmark
  case case9 depth rest ih =>
    have hmark := scan_mark colon trivial (' ' :: layout depth rest)
    rwa [scan_of_isSpace rfl, ih h.tail] at hmark
  case case10 depth token rest _ _ h1 h2 h3 h4 h5 h6 ih =>
    have hvalue := not_isMark_of_ne h1 h2 h3 h4 h5 h6
    have hnext : ∀ next ∈ rest.head?, next.IsMark := by
      intro next hhead
      obtain ⟨more, rfl⟩ := List.head?_eq_some_iff.mp hhead
      exact (List.isChain_cons_cons.mp h.apart).1.resolve_left hvalue
    rw [scan_value (h.written token List.mem_cons_self) hvalue (stops_layout depth hnext),
      ih h.tail]

end JsonToken

end CompiledFrames
