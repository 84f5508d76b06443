/-!
# Columns

A text set into a column: filled up with spaces, and left alone when it is wider.
-/

namespace CompiledFrames.Column

/-- The text with spaces after it, at least `width` characters. -/
def left (width : Nat) (text : String) : String :=
  text ++ String.ofList (List.replicate (width - text.length) ' ')

/-- The text with spaces before it, at least `width` characters. -/
def right (width : Nat) (text : String) : String :=
  String.ofList (List.replicate (width - text.length) ' ') ++ text

end CompiledFrames.Column
