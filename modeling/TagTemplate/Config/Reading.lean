import TagTemplate.Config.Settings
import TagTemplate.Config.Value

/-!
# Reading a configuration

A configuration is given as a mapping with sections for the delimiters, for the disabled tags and for random text; what
it leaves out keeps its default. Sections are looked at before their contents, in a fixed order, and the first mistake
counts.

A mistake is reported with the value that it is about. How deep that value may be depends on where the program runs, and
so the room for it is given to every reading that can end with such a report.
-/

namespace TagTemplate.Config

inductive Mistake where
  | documentNotAMapping (path : String)
  | unsupportedSchema (version : Value)
  | unknownSections (names : List CodeText)
  | sectionNotAMapping (name : String)
  | unknownKeys (name : String) (keys : List CodeText)
  | disabledNotNames
  | seedNotAnInteger (seed : Value)
  | badDelimiter (name : String)
  | equalStarts

namespace Mistake

def message : Mistake → String
  | documentNotAMapping path => "YAML must be a mapping: " ++ path
  | unsupportedSchema version =>
      "Unsupported config schema " ++ version.written ++ " (tool expects 1)"
  | unknownSections names => "Unknown config keys: " ++ ", ".intercalate (names.map CodeText.written)
  | sectionNotAMapping name => "Config section '" ++ name ++ "' must be a mapping"
  | unknownKeys name keys =>
      "Unknown keys in '" ++ name ++ "': " ++ ", ".intercalate (keys.map CodeText.written)
  | disabledNotNames => "statements.disabled must be a list of statement names"
  | seedNotAnInteger seed => "lorem.seed must be an integer, got " ++ seed.shown
  | badDelimiter name => "Delimiter '" ++ name ++ "' must be a non-empty string"
  | equalStarts => "block_start and comment_start must differ"

end Mistake

/-- What can be wrong with a configuration. Unknown keys that are no texts cannot be listed in a message: either the
first of them is in the way, or two of them cannot be put in order. Nor can a mistake be reported if that takes an
integer of too many digits, or more nesting than there is room for. -/
inductive Fault where
  | mistake (mistake : Mistake)
  | integer (error : IntegerError)
  | tooDeep
  | keyNotText (index : Nat) (kind : String)
  | keysNotOrdered (left right : String)

namespace Fault

def message : Fault → String
  | mistake cause => cause.message
  | integer error => error.message
  | tooDeep => "maximum recursion depth exceeded while getting the repr of an object"
  | keyNotText index kind =>
      "sequence item " ++ toString index ++ ": expected str instance, " ++ kind ++ " found"
  | keysNotOrdered left right =>
      "'<' not supported between instances of '" ++ left ++ "' and '" ++ right ++ "'"

end Fault

/-- The value that a mistake is reported with. -/
def Mistake.culprit? : Mistake → Option Value
  | .unsupportedSchema value | .seedNotAnInteger value => some value
  | _ => none

def Value.Obstacle.fault : Value.Obstacle → Fault
  | digits => .integer .unwritable
  | depth => .tooDeep

/-- The fault of a mistake: the mistake itself, if it can be reported. -/
def Mistake.toFault (room : Nat) (cause : Mistake) : Fault :=
  match cause.culprit?.bind (Value.obstacle? room) with
  | none => .mistake cause
  | some obstacle => obstacle.fault

def orMistake {α : Type} (room : Nat) : Except Mistake α → Except Fault α
  | .ok value => .ok value
  | .error cause => .error (cause.toFault room)

/-! ### Keys -/

/-- How a key takes part in an order: with texts, numbers, lists, or others of its class, or with nothing. -/
inductive KeyClass where
  | text
  | number
  | list
  | foreign (kind : String)
  | other
deriving DecidableEq, Repr

def keyClass : Value → KeyClass
  | .text _ => .text
  | .bool _ | .int _ | .float _ => .number
  | .list _ => .list
  | .foreign thing _ => .foreign thing.kind
  | .null | .map _ => .other

/-- The first of some keys that cannot be compared with the key before it. -/
def firstUnordered : List Value → Option (Value × Value)
  | left :: right :: keys =>
      if keyClass left = keyClass right ∧ keyClass left ≠ .other then firstUnordered (right :: keys)
      else some (right, left)
  | _ => none

def numberOf : Value → Float
  | .bool value => if value then 1 else 0
  | .int value => Float.ofInt value
  | .float value => value
  | _ => 0

/-- The names of some unknown keys in alphabetical order. -/
def namesOf (keys : List Value) : Except Fault (List CodeText) :=
  match firstUnordered keys with
  | some (left, right) => .error (.keysNotOrdered left.keyKind right.keyKind)
  | none =>
      let names := keys.filterMap Value.text?
      if names.length = keys.length then .ok (names.mergeSort CodeText.precedes)
      else
        let sorted := keys.mergeSort fun left right => numberOf left ≤ numberOf right
        .error (.keyNotText 0 ((sorted.head?.map Value.keyKind).getD ""))

def unknownKeys (known : List String) (entries : List (Value × Value)) : List Value :=
  (entries.map Prod.fst).filter fun key => !known.any fun name => key.same (.text name)

/-! ### Sections -/

def defaults : List (String × List (String × Value)) :=
  [("delimiters",
      [("block_start", .text Delimiters.standard.blockStart),
       ("block_end", .text Delimiters.standard.blockEnd),
       ("comment_start", .text Delimiters.standard.commentStart),
       ("comment_end", .text Delimiters.standard.commentEnd)]),
   ("statements", [("disabled", .list [])]),
   ("lorem", [("seed", .null)])]

def entriesOf (pairs : List (String × Value)) : List (Value × Value) :=
  pairs.map fun pair => (.text pair.1, pair.2)

def defaultSection (name : String) : List (String × Value) :=
  ((defaults.find? fun part => part.1 == name).map Prod.snd).getD []

def schemaVersion : Int := 1

/-- The entries of a document that leaves everything out. -/
def defaultDocument : List (Value × Value) :=
  (.text "schema_version", .int schemaVersion) ::
    defaults.map fun part => (.text part.1, .map (entriesOf part.2))

/-- A section of a document over its defaults. A section that says nothing is empty. -/
def readSection (document : List (Value × Value)) (name : String) :
    Except Fault (List (Value × Value)) :=
  let given := (Value.find? document name).getD .null
  let value := if given.isTruthy then given else .map []
  match value with
  | .map entries =>
      match unknownKeys ((defaultSection name).map Prod.fst) entries with
      | [] => .ok (Value.overlay (entriesOf (defaultSection name)) entries)
      | unknown => do throw (.mistake (.unknownKeys name (← namesOf unknown)))
  | _ => .error (.mistake (.sectionNotAMapping name))

def readDelimiter (entries : List (Value × Value)) (name : String) :
    Except Mistake { text : CodeText // text ≠ .chars "" } :=
  match (Value.find? entries name).bind Value.text? with
  | some value => if h : value ≠ .chars "" then .ok ⟨value, h⟩ else .error (.badDelimiter name)
  | none => .error (.badDelimiter name)

def readDelimiters (entries : List (Value × Value)) : Except Mistake CodeDelimiters := do
  let blockStart ← readDelimiter entries "block_start"
  let blockEnd ← readDelimiter entries "block_end"
  let commentStart ← readDelimiter entries "comment_start"
  let commentEnd ← readDelimiter entries "comment_end"
  if h : blockStart.val ≠ commentStart.val then
    return ⟨blockStart, blockEnd, commentStart, commentEnd, blockStart.property, blockEnd.property,
      commentStart.property, commentEnd.property, h⟩
  else throw .equalStarts

def readNames : Value → Except Mistake (List CodeText)
  | .list items =>
      let names := items.filterMap Value.text?
      if names.length = items.length then .ok names else .error .disabledNotNames
  | _ => .error .disabledNotNames

def readSeed : Value → Except Mistake (Option Int)
  | .null => .ok none
  | .int seed => .ok (some seed)
  | value => .error (.seedNotAnInteger value)

def ofEntries (room : Nat) (document : List (Value × Value)) : Except Fault Settings := do
  let delimiters ← readSection document "delimiters"
  let statements ← readSection document "statements"
  let lorem ← readSection document "lorem"
  let given := (Value.find? statements "disabled").getD .null
  let disabled ← orMistake room (readNames (if given.isTruthy then given else .list []))
  let seed ← orMistake room (readSeed ((Value.find? lorem "seed").getD .null))
  let delimiters ← orMistake room (readDelimiters delimiters)
  return { delimiters, disabled, seed }

/-- A document over the default one. -/
def overDefaults (document : List (Value × Value)) : Except Fault (List (Value × Value)) :=
  match unknownKeys ("schema_version" :: defaults.map Prod.fst) document with
  | [] => .ok (Value.overlay defaultDocument document)
  | unknown => do throw (.mistake (.unknownSections (← namesOf unknown)))

/-- The settings in a whole document, which `path` leads to. A document that says nothing is an empty mapping, and one
without a version is up to date. -/
def ofDocument (room : Nat) (path : String) (document : Value) : Except Fault Settings :=
  let document := if document.isTruthy then document else .map []
  match document with
  | .map entries => do
      let version := (Value.find? entries "schema_version").getD (.int schemaVersion)
      unless version.same (.int schemaVersion) do
        throw ((Mistake.unsupportedSchema version).toFault room)
      ofEntries room (← overDefaults entries)
  | _ => .error (.mistake (.documentNotAMapping path))

end TagTemplate.Config
