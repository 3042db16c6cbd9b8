import TagTemplate.Registry
import TagTemplate.Tag

/-!
# From tokens to nodes

A region of tokens is recognised from left to right: text is taken as it is, short comments are left
out, and every tag is read by the reader that the registry has for its name. Stretches of text that
follow each other, with or without short comments between them, are one node.

Whatever a reader does with the outer cursor, recognition goes on behind the delimiter that closes the
reader's tag, or further on, and right behind such a delimiter.
-/

namespace TagTemplate

/-- How far recognition came: the nodes, the cursor, and what stopped it, if anything. -/
structure Recognition where
  nodes : List Node
  cursor : Cursor
  fault : Option Fault

namespace Recognition

def cons (node : Node) (recognition : Recognition) : Recognition :=
  { recognition with nodes := node.joinTo recognition.nodes }

def outcome (recognition : Recognition) : Except Fault (List Node) :=
  match recognition.fault with
  | none => .ok recognition.nodes
  | some fault => .error fault

def toResult (recognition : Recognition) : EStateM.Result Fault Cursor (List Node) :=
  match recognition.fault with
  | none => .ok recognition.nodes recognition.cursor
  | some fault => .error fault recognition.cursor

end Recognition

def skipShortComment : Cursor.Action Unit := do
  let _ ← Cursor.expect .commentBegin none
  let _ ← Cursor.take? [.data]
  let _ ← Cursor.expect .commentEnd (some .expectedEndOfComment)

/-- Lets a reader work on a tag whose arguments reach from the cursor to `close`. Only the position of
the outer cursor comes back from it; unless it went further, that is `close`. -/
def readTag (reader : Tag.Reader) (nested : Tag.Nested) (name : String) (close : Int) :
    Cursor.Action Statement := fun cursor =>
  match reader nested ⟨cursor, cursor.sub cursor.position close⟩ with
  | .ok (.statement statement) scope =>
      .ok statement { cursor with position := max scope.outer.position close }
  | .ok (.foreign kind) scope =>
      .error (.defect (.notAStatement name kind)) { cursor with position := scope.outer.position }
  | .error fault scope => .error fault { cursor with position := scope.outer.position }

def recogniseBlock (registry : Registry Tag.Reader) (nested : Tag.Nested) :
    Cursor.Action Node := do
  let opening ← Cursor.expect .blockBegin none
  match ← Cursor.take? [.name] with
  | none => Cursor.refuse .general .expectedStatementName
  | some name =>
      match registry.lookup name.value with
      | none => throw (.grammar .general (.unknownStatement name.value) name)
      | some reader =>
          match ← Cursor.closing? with
          | none => throw (.grammar .general (.tagNotClosed name.value) opening)
          | some close => do
              let statement ← readTag reader nested name.value close
              let _ ← Cursor.expect .blockEnd (some (.expectedEndOfTag name.value))
              return .block opening name.value statement

/-- Recognises the text, tag or short comment at the cursor. A short comment is no node. -/
def recogniseNext (registry : Registry Tag.Reader) (nested : Tag.Nested) :
    Cursor.Action (Option Node) := do
  match (← Cursor.current).kind with
  | .data => return some (.data (← Cursor.advance).value)
  | .blockBegin => return some (← recogniseBlock registry nested)
  | .commentBegin => do
      skipShortComment
      return none
  | kind => Cursor.refuse .general (.unexpectedToken kind)

/-- Recognises what follows the cursor, in so many steps at most. -/
def recogniseSteps (registry : Registry Tag.Reader) (nested : Tag.Nested) :
    Nat → Cursor → Recognition
  | 0, cursor => ⟨[], cursor, none⟩
  | steps + 1, cursor =>
      match Cursor.atEnd cursor with
      | .error fault cursor => ⟨[], cursor, some fault⟩
      | .ok true cursor => ⟨[], cursor, none⟩
      | .ok false cursor =>
          match recogniseNext registry nested cursor with
          | .error fault cursor => ⟨[], cursor, some fault⟩
          | .ok none cursor => recogniseSteps registry nested steps cursor
          | .ok (some node) cursor => (recogniseSteps registry nested steps cursor).cons node

/-- Recognises everything up to the end of the region. There are not more steps than tokens. -/
def recogniseWith (registry : Registry Tag.Reader) (nested : Tag.Nested)
    (cursor : Cursor) : Recognition :=
  recogniseSteps registry nested cursor.room cursor

def recogniseExtent (registry : Registry Tag.Reader) (nested : Tag.Nested) : Tag.Nested
  | .region => fun cursor => (recogniseWith registry nested cursor).toResult
  | .tag => do return [← recogniseBlock registry nested]

/-- Recognition inside of tags, which may lie in each other to the given depth. -/
def recogniseNested (registry : Registry Tag.Reader) : Nat → Tag.Nested
  | 0 => throw (.defect .tooDeep)
  | depth + 1 => recogniseExtent registry (recogniseNested registry depth)

/-- Recognises the nodes of a region. A reader that asks for more than so many regions and tags within each other is
told that they are too deep. -/
def Cursor.recogniseWithin (registry : Registry Tag.Reader) (depth : Nat) (cursor : Cursor) : Recognition :=
  recogniseWith registry (recogniseNested registry depth) cursor

/-- The depth to which tags can lie in each other, if each starts behind the one around it. -/
def Cursor.depth (cursor : Cursor) : Nat :=
  2 * cursor.tokens.size + 1

def Cursor.recognise (registry : Registry Tag.Reader) (cursor : Cursor) : Recognition :=
  recogniseWith registry (recogniseNested registry cursor.depth) cursor

theorem Cursor.recognise_eq_recogniseWithin (registry : Registry Tag.Reader) (cursor : Cursor) :
    cursor.recognise registry = cursor.recogniseWithin registry cursor.depth := rfl

def Cursor.recogniseBlock (registry : Registry Tag.Reader) : Cursor.Action Node := fun cursor =>
  TagTemplate.recogniseBlock registry (recogniseNested registry cursor.depth) cursor

end TagTemplate
