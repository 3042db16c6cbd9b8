import TagTemplate.CommandLine.Log
import TagTemplate.CommandLine.Request
import TagTemplate.Config.Load

/-!
# The command line

The whole program as a function of its arguments and of what it finds around it. Mistakes of the user end it with code 2
and one line in the error output, and then nothing is in the output. Anything else that is wrong leaves the program as
it is.
-/

namespace TagTemplate.CommandLine

variable {ε : Type}

/-- What the program finds around it: files, a reader of documents, room for values within each other in a message, and
a source of randomness for templates without a seed. -/
structure System (ε : Type) where
  files : Files
  load : String → Except ε Config.Value
  room : Nat
  fresh : Twister

/-- What leaves the program without being handled. -/
inductive Escape (ε : Type) where
  | fault (fault : Fault)
  | config (error : Config.LoadError ε)
  | encoding (error : Text.Utf8Error)
  | file (error : FileError) (path : Path)
  | unusablePath

def Escape.message (describe : ε → String) : Escape ε → String
  | .fault cause => cause.message
  | .config error => error.message describe
  | .encoding cause => cause.message
  | .file cause path => cause.message path
  | .unusablePath => "embedded null byte"

inductive Ending (ε : Type) where
  | code (code : Nat)
  | escape (escape : Escape ε)

structure Outcome (ε : Type) where
  output : String
  errors : String
  ending : Ending ε

inductive ConfigProblem (ε : Type) where
  | mistake (mistake : Config.Mistake)
  | escape (escape : Escape ε)

/-- Reads the configuration. A file that is not there is no mistake. -/
def loadConfig (system : System ε) (path : Path) : Except (ConfigProblem ε) (Config.Settings × List Event) :=
  if path.isUnusable then .ok ({}, [.configNotFound path])
  else
    match system.files path with
    | .error error =>
        if error.isMissing then .ok ({}, [.configNotFound path]) else .error (.escape (.file error path))
    | .ok bytes =>
        match Config.ofBytes system.load system.room path.text bytes with
        | .ok settings => .ok (settings, [])
        | .error (.content (.mistake mistake)) => .error (.mistake mistake)
        | .error error => .error (.escape (.config error))

def succeed (output log : String) : Outcome ε := ⟨output, log, .code 0⟩

def giveUp (message log : String) : Outcome ε := ⟨"", log ++ "Error: " ++ message ++ "\n", .code 2⟩

def leave (escape : Escape ε) (log : String) : Outcome ε := ⟨"", log, .escape escape⟩

def failWith (fault : Fault) (log : String) : Outcome ε :=
  match fault with
  | .user error => giveUp error.message log
  | .processing error => giveUp error.message log
  | .defect _ => leave (.fault fault) log

def unreadable (error : FileError) (path : Path) : ProcessingError :=
  ⟨"Cannot read template: " ++ error.message path, path.text, none⟩

/-- A fault in a template, with the delimiter that was expected as it stands in the settings. -/
def reworded (delimiters : Config.CodeDelimiters) : Fault → Fault
  | .processing ⟨_, name, some (.scan ⟨.unclosedTag _, place⟩)⟩ =>
      Compiler.underName name (.user (.scan ⟨.unclosedTag delimiters.blockEnd.written, place⟩))
  | .processing ⟨_, name, some (.scan ⟨.unclosedComment _, place⟩)⟩ =>
      Compiler.underName name (.user (.scan ⟨.unclosedComment delimiters.commentEnd.written, place⟩))
  | fault => fault

def renderText (settings : Config.Settings) (text name : String) (seed : Option Int) (fresh : Twister)
    (log : List Event → String) : Outcome ε :=
  let compiler := Compiler.ofConfig (settings.config text)
  let log := log (compilationEvents compiler text name)
  match (compiler.render text name (seed.map Twister.ofSeed) fresh).outcome with
  | .ok output => succeed output log
  | .error fault => failWith (reworded settings.delimiters fault) log

def renderFile (settings : Config.Settings) (system : System ε) (path : Path) (seed : Option Int)
    (log : List Event → String) : Outcome ε :=
  if path.isUnusable then leave .unusablePath (log [])
  else
    match system.files path with
    | .error error => failWith (.processing (unreadable error path)) (log [])
    | .ok bytes =>
        match Text.decode bytes with
        | .error error => leave (.encoding error) (log [])
        | .ok text =>
            renderText settings (String.ofList (Text.unifyLineEnds text)) path.text seed system.fresh log

def perform (system : System ε) (request : Request) : Outcome ε :=
  match loadConfig system request.config with
  | .error (.mistake mistake) => giveUp mistake.message ""
  | .error (.escape escape) => leave escape ""
  | .ok (settings, events) =>
      let log (more : List Event) : String :=
        logText request.verbose (events ++ registrationEvents settings.disabled ++ more)
      match request.command with
      | .render template seed => renderFile settings system template seed log
      | .list =>
          let names := (Compiler.ofConfig (settings.config "")).registry.names
          succeed (String.join (names.map (· ++ "\n"))) (log [])

/-- The answer to arguments that ask for no work. -/
def Notice.outcome : Notice → Outcome ε
  | .information text => succeed text ""
  | .misuse usage program error => ⟨"", usage ++ program ++ ": error: " ++ error.message ++ "\n", .code 2⟩

def run (system : System ε) (arguments : List String) : Outcome ε :=
  match Request.ofArguments arguments with
  | .error notice => notice.outcome
  | .ok request => perform system request

end TagTemplate.CommandLine
