import CompiledFrames.Pattern.Token

/-!
# Patterns as text

The pattern that a text writes. Alternatives bind weaker than sequences, and these weaker than
repetitions; parentheses group. Alternatives and groups may be empty, a repetition needs something
to repeat.
-/

namespace CompiledFrames.Pattern

/-- What has been read of a group: its finished alternatives, the last one first, and the parts of
the open one, the last one first. -/
structure Group where
  alternatives : List Pattern := []
  parts : List Pattern := []

namespace Group

/-- The open alternative. -/
def current (group : Group) : Pattern :=
  group.parts.foldl (fun rest p => .seq p rest) .empty

/-- The pattern of the whole group. -/
def toPattern (group : Group) : Pattern :=
  group.alternatives.foldl (fun rest p => .either p rest) group.current

/-- The group with one more part. -/
def push (group : Group) (p : Pattern) : Group :=
  { group with parts := p :: group.parts }

/-- The group with the open alternative finished. -/
def finish (group : Group) : Group :=
  ⟨group.current :: group.alternatives, []⟩

end Group

/-- The pattern of the rest of the tokens, after a part of the innermost group and of the groups
around it. -/
def ofTokens? : List PatternToken → (group : Group) → (outer : List Group) → Option Pattern
  | [], group, [] => some group.toPattern
  | [], _, _ :: _ => none
  | .one set :: rest, group, outer => ofTokens? rest (group.push (.one set)) outer
  | .atStart :: rest, group, outer => ofTokens? rest (group.push .atStart) outer
  | .atEnd :: rest, group, outer => ofTokens? rest (group.push .atEnd) outer
  | .bar :: rest, group, outer => ofTokens? rest group.finish outer
  | .opening :: rest, group, outer => ofTokens? rest {} (group :: outer)
  | .closing :: _, _, [] => none
  | .closing :: rest, group, around :: outer =>
    ofTokens? rest (around.push group.toPattern) outer
  | .repeated count :: rest, group, outer =>
    match group.parts with
    | [] => none
    | p :: parts =>
      ofTokens? rest { group with parts := p.repeated count.least count.most :: parts } outer

/-- The pattern that a text writes. -/
def ofText? (text : String) : Option Pattern := do
  ofTokens? (← PatternToken.ofChars? (← PatternChar.ofText? text)) {} []

end CompiledFrames.Pattern
