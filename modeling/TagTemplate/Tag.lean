import TagTemplate.Cursor
import TagTemplate.Node

/-!
# How tags are read

A tag's reader sees two cursors: the outer one, which stands right after the tag's name, and one over
the tag's arguments. It may look at both and move both, recognise nodes in a region of its own choice,
and hands back the statement that the tag stands for.
-/

namespace TagTemplate.Tag

/-- The two cursors of a tag's reader. -/
structure Scope where
  outer : Cursor
  arguments : Cursor
deriving DecidableEq, Repr

abbrev Reading := EStateM Fault Scope

/-- What a reader hands back: a statement, or something else, which is of no use. -/
inductive Product where
  | statement (statement : Statement)
  | foreign (kind : String)

/-- How much is recognised at once: a region up to its end, or the tag at the cursor alone. -/
inductive Extent where
  | region
  | tag
deriving DecidableEq, Repr

/-- The recognition of nodes that a reader is given, for the cursors that it has and for others. -/
abbrev Nested := ReaderT Extent Cursor.Action (List Node)

abbrev Reader := (nested : Nested) → Reading Product

variable {α : Type}

def outer (action : Cursor.Action α) : Reading α := fun scope =>
  match action scope.outer with
  | .ok value cursor => .ok value { scope with outer := cursor }
  | .error fault cursor => .error fault { scope with outer := cursor }

def arguments (action : Cursor.Action α) : Reading α := fun scope =>
  match action scope.arguments with
  | .ok value cursor => .ok value { scope with arguments := cursor }
  | .error fault cursor => .error fault { scope with arguments := cursor }

/-- Acts with a cursor of its own, which is then forgotten. -/
def within (cursor : Cursor) (action : Cursor.Action α) : Reading α := fun scope =>
  match action cursor with
  | .ok value _ => .ok value scope
  | .error fault _ => .error fault scope

end TagTemplate.Tag
