import TagTemplate.Recognition

/-!
# The built-in tags

Filler text and block comments. The arguments of the first are a count, the letter of a mode and the
word that asks for a random choice, each of which may be missing, in this order. The second skips
everything up to its end tag, and looks at its own arguments only then.
-/

namespace TagTemplate.Tag

def readCount (token : Token) : Reading Int :=
  match Number.readInteger token.value with
  | .ok count => return count
  | .error error => throw (.defect (.integer error))

def readMode (token : Token) : Reading Lorem.Mode :=
  match Lorem.Mode.ofLetter? token.value with
  | some mode => return mode
  | none => throw (.grammar .malformedArguments .loremMethod token)

def lorem : Reader := fun _ => do
  let location ← outer Cursor.current
  let count ← match ← arguments (Cursor.take? [.integer]) with
    | some token => readCount token
    | none => pure 1
  let mode ← match ← arguments (Cursor.take? [.name]) with
    | some token => readMode token
    | none => pure .plainParagraphs
  let random ← arguments (Cursor.takeName? ["random"])
  unless ← arguments Cursor.atEnd do
    arguments (Cursor.refuse .malformedArguments .loremArguments)
  return .statement (.lorem location count mode.letter random.isSome)

/-- A block comment. Skipping starts at the delimiter that closes the opening tag, so that this is also
the place to blame if there is no end tag. -/
def comment : Reader := fun _ => do
  let location ← outer Cursor.current
  outer (Cursor.skipUntil ["endcomment"])
  unless ← arguments Cursor.atEnd do
    arguments (Cursor.refuse .malformedArguments .commentArguments)
  return .statement (.comment location)

inductive Builtin where
  | comment
  | lorem
deriving DecidableEq, Repr

namespace Builtin

/-- All of them, in the order in which they enter a registry. -/
def all : List Builtin := [comment, lorem]

def name : Builtin → String
  | comment => "comment"
  | lorem => "lorem"

def reader : Builtin → Reader
  | comment => Tag.comment
  | lorem => Tag.lorem

def enabled (disabled : List String) : List Builtin :=
  all.filter fun tag => !disabled.contains tag.name

def registry (disabled : List String) : Registry Builtin :=
  (Registry.empty.registerAll ((enabled disabled).map fun tag => (tag.name, tag))).1

end Builtin

def builtinReaders (disabled : List String) : Registry Reader :=
  (Builtin.registry disabled).map Builtin.reader

end TagTemplate.Tag
