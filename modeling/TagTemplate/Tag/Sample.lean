import TagTemplate.Recognition

/-!
# Sample tags

Small tags that show what a reader of one's own can do: look at its arguments, check them, skip a body
or recognise nodes in it, use the source of randomness, and fail in every way there is.
-/

namespace TagTemplate.Tag

def valuesWithin : Nat → Cursor.Action (List String)
  | 0 => return []
  | count + 1 => do
      if ← Cursor.atEnd then return []
      let token ← Cursor.advance
      return token.value :: (← valuesWithin count)

def values : Cursor.Action (List String) := do
  valuesWithin (← get).room

def echo : Reader := fun _ => do
  let location ← outer Cursor.current
  return .statement (.echo location (← arguments values))

def noop : Reader := fun _ => do
  return .statement (.echo (← outer Cursor.current) [])

def digit : Reader := fun _ => do
  let location ← outer Cursor.current
  return .statement (.custom location "DigitStatement" do
    let digit ← Renderer.draw (Draw.between 0 9)
    let _ ← Renderer.write (toString digit))

def bad : Reader := fun _ => return .foreign "str"

def none : Reader := fun _ => return .foreign "NoneType"

/-- Takes a name and a number, and nothing more. -/
def typed : Reader := fun _ => do
  let location ← outer Cursor.current
  let name ← arguments (Cursor.expect .name Option.none)
  let number ← arguments (Cursor.expect .integer (some (.other "Expected a number")))
  unless ← arguments Cursor.atEnd do
    arguments (Cursor.refuse .general (.other "Too many arguments"))
  return .statement (.echo location [name.value, number.value])

/-- Skips its body, which has two end tags to choose from. -/
def raw : Reader := fun _ => do
  let location ← outer Cursor.current
  outer (Cursor.skipUntil ["endraw", "end"])
  return .statement (.echo location [])

def wrap : Reader := fun nested => do
  let location ← outer Cursor.current
  let start := (← arguments get).bound + 1
  outer (Cursor.skipUntil ["endwrap"])
  let cursor ← outer get
  let body ← within (cursor.sub start (cursor.position - 2)) (nested .region)
  return .statement (.wrap location body)

/-- Fails in the middle of its output. -/
def fail : Reader := fun _ => do
  let location ← outer Cursor.current
  return .statement (.custom location "FailStatement" do
    let _ ← Renderer.write "partial"
    throw (.defect (.value "execute failure")))

/-- Fails with a mistake of the template's author. -/
def uerr : Reader := fun _ => throw (.user (.plain "plain user error"))

/-- Fails as another template would. -/
def perr : Reader := fun _ => throw (.processing ⟨"inner failure", "inner.txt", Option.none⟩)

def verr : Reader := fun _ => throw (.defect (.value "plugin failure"))

inductive Sample where
  | echo
  | noop
  | digit
  | bad
  | none
  | typed
  | raw
  | wrap
  | fail
  | uerr
  | perr
  | verr
deriving DecidableEq, Repr

namespace Sample

def all : List Sample :=
  [echo, noop, digit, bad, none, typed, raw, wrap, fail, uerr, perr, verr]

def name : Sample → String
  | echo => "echo"
  | noop => "noop"
  | digit => "digit"
  | bad => "bad"
  | none => "none"
  | typed => "typed"
  | raw => "raw"
  | wrap => "wrap"
  | fail => "fail"
  | uerr => "uerr"
  | perr => "perr"
  | verr => "verr"

def reader : Sample → Reader
  | echo => Tag.echo
  | noop => Tag.noop
  | digit => Tag.digit
  | bad => Tag.bad
  | none => Tag.none
  | typed => Tag.typed
  | raw => Tag.raw
  | wrap => Tag.wrap
  | fail => Tag.fail
  | uerr => Tag.uerr
  | perr => Tag.perr
  | verr => Tag.verr

end Sample

end TagTemplate.Tag
