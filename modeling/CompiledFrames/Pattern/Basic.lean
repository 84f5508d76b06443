/-!
# Patterns

Regular expressions that are searched for in names. Besides the characters they can ask for the
start and the end of the text.

A search reads the text once, from the left. It keeps the patterns that are left over of all
occurrences begun so far: `Pattern.after` says what is left over of a pattern behind one character,
as a list of patterns any of which may go on.

## Main definitions

* `CharSet` is a set of characters, `Pattern` a regular expression.
* `Pattern.acceptsEmpty` and `Pattern.after` describe an occurrence from its first character on.
* `Pattern.occursIn` searches.
-/

namespace CompiledFrames

/-- A set of characters. -/
inductive CharSet where
  | nothing
  | range (first last : Char)
  | union (a b : CharSet)
  | complement (a : CharSet)
deriving DecidableEq, Repr

namespace CharSet

/-- Whether a character is in the set. -/
def contains : CharSet → Char → Bool
  | nothing, _ => false
  | range first last, c => decide (first ≤ c ∧ c ≤ last)
  | union a b, c => a.contains c || b.contains c
  | complement a, c => !a.contains c

/-- The set of one character. -/
def single (c : Char) : CharSet :=
  .range c c

@[simp] theorem contains_single (c d : Char) : (single c).contains d = decide (c = d) := by
  simp only [single, contains, decide_eq_decide]
  exact ⟨fun h => Char.le_antisymm h.1 h.2, fun h => h ▸ ⟨Char.le_refl _, Char.le_refl _⟩⟩

end CharSet

/-- A regular expression. -/
inductive Pattern where
  /-- The empty text. -/
  | empty
  /-- The empty text at the start. -/
  | atStart
  /-- The empty text at the end. -/
  | atEnd
  /-- One character of a set. -/
  | one (set : CharSet)
  | seq (first second : Pattern)
  | either (first second : Pattern)
  /-- Any number of occurrences, one after the other. -/
  | many (body : Pattern)
deriving DecidableEq, Repr

namespace Pattern

/-- The pattern `count` times, one after the other. -/
def times (p : Pattern) : (count : Nat) → Pattern
  | 0 => .empty
  | count + 1 => .seq p (p.times count)

/-- The pattern at least `least` times and, if there is a limit, at most `most` times. -/
def repeated (p : Pattern) (least : Nat) (most : Option Nat) : Pattern :=
  match most with
  | none => .seq (p.times least) (.many p)
  | some most => .seq (p.times least) ((Pattern.either p .empty).times (most - least))

/-- Whether the pattern accepts the empty text at a place which may be the start of the whole text,
or its end. -/
def acceptsEmpty (isStart isEnd : Bool) : Pattern → Bool
  | empty => true
  | atStart => isStart
  | atEnd => isEnd
  | one _ => false
  | seq p q => p.acceptsEmpty isStart isEnd && q.acceptsEmpty isStart isEnd
  | either p q => p.acceptsEmpty isStart isEnd || q.acceptsEmpty isStart isEnd
  | many _ => true

/-- What can be left over of the pattern behind the character `c`, which may be the first one of the
whole text. -/
def after (isStart : Bool) (c : Char) : Pattern → List Pattern
  | empty | atStart | atEnd => []
  | one set => if set.contains c then [.empty] else []
  | seq p q =>
    let inFirst := (p.after isStart c).map (.seq · q)
    if p.acceptsEmpty isStart false then inFirst ++ q.after isStart c else inFirst
  | either p q => p.after isStart c ++ q.after isStart c
  | many p => (p.after isStart c).map (.seq · (.many p))

/-- Whether one of the occurrences begun, or one of the whole pattern from here on, comes to an end
in the rest of a text. -/
def search (p : Pattern) : (isStart : Bool) → (begun : List Pattern) → List Char → Bool
  | isStart, begun, [] => (p :: begun).any (acceptsEmpty isStart true)
  | isStart, begun, c :: rest =>
    (p :: begun).any (acceptsEmpty isStart false) ||
      p.search false ((p :: begun).flatMap (after isStart c)).eraseDups rest

/-- Whether the pattern occurs somewhere in a text. -/
def occursIn (p : Pattern) (text : String) : Bool :=
  p.search true [] text.toList

end Pattern

end CompiledFrames
