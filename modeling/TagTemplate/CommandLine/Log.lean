import TagTemplate.Config.Settings
import TagTemplate.Path
import TagTemplate.Template

/-!
# The log

What the program does, event by event. Warnings are always shown, everything else only on demand.
-/

namespace TagTemplate.CommandLine

inductive Event where
  | configNotFound (path : Path)
  | registered (tag : String)
  | unknownDisabled (tags : List CodeText)
  | scanned (characters tokens : Nat)
  | recognisedTag (name : String) (place : Location)
  | recognised (nodes : Nat)
  | compiled (template : String) (nodes : Nat)
deriving DecidableEq, Repr

namespace Event

def isWarning : Event → Bool
  | unknownDisabled _ => true
  | _ => false

def logger : Event → String
  | configNotFound _ => "tagc.config"
  | registered _ | unknownDisabled _ => "tagc.template.registry"
  | scanned .. => "tagc.template.lexer"
  | recognisedTag .. | recognised _ => "tagc.template.parser"
  | compiled .. => "tagc.template.processor"

def message : Event → String
  | configNotFound path => "Config " ++ path.text ++ " not found, using defaults"
  | registered tag => "Registered statement: " ++ tag
  | unknownDisabled tags =>
      "Unknown statements in disabled list: " ++ ", ".intercalate (tags.map CodeText.written)
  | scanned characters tokens =>
      "Tokenized " ++ toString characters ++ " chars -> " ++ toString tokens ++ " tokens"
  | recognisedTag name place => "Parsed statement '" ++ name ++ "' at " ++ place.text
  | recognised nodes => "Parsed AST with " ++ toString nodes ++ " nodes"
  | compiled template nodes =>
      "Compiled template '" ++ template ++ "' -> " ++ toString nodes ++ " nodes"

def line (event : Event) : String :=
  (if event.isWarning then "WARNING" else "DEBUG") ++ " " ++ event.logger ++ ": " ++ event.message ++ "\n"

end Event

def logText (verbose : Bool) (events : List Event) : String :=
  String.join ((events.filter fun event => verbose || event.isWarning).map Event.line)

/-- The names on a list of disabled tags that no built-in tag has, in alphabetical order. -/
def unknownNames (disabled : List CodeText) : List CodeText :=
  (disabled.filter fun name => !Tag.Builtin.all.any fun tag => name == .chars tag.name).eraseDups.mergeSort
    CodeText.precedes

/-- What happens when the built-in tags are registered. -/
def registrationEvents (disabled : List CodeText) : List Event :=
  (Tag.Builtin.enabled (disabled.filterMap CodeText.chars?)).map (fun tag => .registered tag.name) ++
    match unknownNames disabled with
    | [] => []
    | unknown => [.unknownDisabled unknown]

def tagEvents (nodes : List Node) : List Event :=
  nodes.filterMap fun node => match node with
    | .block location name _ => some (.recognisedTag name location.place)
    | _ => none

/-- What happens when a text is compiled, up to the first thing that is wrong with it. -/
def compilationEvents (compiler : Compiler) (text name : String) : List Event :=
  match (compiler.scan text).outcome with
  | .error _ => []
  | .ok tokens =>
      let recognition := compiler.recognise tokens
      .scanned text.length tokens.length :: tagEvents recognition.nodes ++
        match recognition.fault with
        | some _ => []
        | none => [.recognised recognition.nodes.length, .compiled name recognition.nodes.length]

end TagTemplate.CommandLine
