import TagTemplate.CommandLine.Grammar
import TagTemplate.Number.Integer
import TagTemplate.Path

/-!
# Requests

What a list of arguments asks the program to do: render a template, list the tags, or just tell about the
program itself. Help and the version are given at once, whatever else stands behind them.
-/

namespace TagTemplate.CommandLine

inductive Command where
  | render (template : Path) (seed : Option Int)
  | list
deriving DecidableEq, Repr

structure Request where
  verbose : Bool
  config : Path
  command : Command
deriving DecidableEq, Repr

/-- The files that have to be read for it. -/
def Request.paths (request : Request) : List Path :=
  match request.command with
  | .render template _ => [request.config, template]
  | .list => [request.config]

/-- An answer that needs no work: help or the version, or a complaint about the arguments. -/
inductive Notice where
  | information (text : String)
  | misuse (usage program : String) (error : UsageError)
deriving DecidableEq, Repr

inductive MainOption where
  | help
  | version
  | verbose
  | config
deriving DecidableEq, Repr

inductive RenderOption where
  | help
  | seed
deriving DecidableEq, Repr

inductive ListOption where
  | help
deriving DecidableEq, Repr

/-! ### Texts -/

def versionText : String := "tagc 0.1.0\n"

def mainUsage : String :=
  "usage: tagc [-h] [-V] [-v] [--config CONFIG] \x7brender,list\x7d ...\n"

def renderUsage : String := "usage: tagc render [-h] [--seed SEED] template\n"

def listUsage : String := "usage: tagc list [-h] \x7bstatements\x7d\n"

def mainHelp : String :=
  mainUsage ++
  "\nTemplate tag compiler\n" ++
  "\npositional arguments:\n" ++
  "  \x7brender,list\x7d\n" ++
  "    render         Отрендерить шаблон в stdout\n" ++
  "    list           Списки сущностей\n" ++
  "\noptions:\n" ++
  "  -h, --help       show this help message and exit\n" ++
  "  -V, --version    show program's version number and exit\n" ++
  "  -v, --verbose    отладочный лог в stderr\n" ++
  "  --config CONFIG  путь к конфигу (по умолчанию ./tagc.yaml)\n"

def renderHelp : String :=
  renderUsage ++
  "\npositional arguments:\n" ++
  "  template     файл шаблона\n" ++
  "\noptions:\n" ++
  "  -h, --help   show this help message and exit\n" ++
  "  --seed SEED  seed для случайной генерации (перекрывает lorem.seed из\n" ++
  "               конфига)\n"

def listHelp : String :=
  listUsage ++
  "\npositional arguments:\n" ++
  "  \x7bstatements\x7d  что вывести\n" ++
  "\noptions:\n" ++
  "  -h, --help    show this help message and exit\n"

/-! ### Grammars -/

def mainGrammar : Grammar MainOption where
  options :=
    [("-h", .help), ("--help", .help), ("-V", .version), ("--version", .version), ("-v", .verbose),
     ("--verbose", .verbose), ("--config", .config)]
  label
    | .help => "-h/--help"
    | .version => "-V/--version"
    | .verbose => "-v/--verbose"
    | .config => "--config"
  takesValue option := option == .config
  takesRest := true

def renderGrammar : Grammar RenderOption where
  options := [("-h", .help), ("--help", .help), ("--seed", .seed)]
  label
    | .help => "-h/--help"
    | .seed => "--seed"
  takesValue option := option == .seed
  takesRest := false

def listGrammar : Grammar ListOption where
  options := [("-h", .help), ("--help", .help)]
  label _ := "-h/--help"
  takesValue _ := false
  takesRest := false

/-! ### From items to requests -/

def defaultConfig : Path := Path.ofText "tagc.yaml"

/-- A single argument, without the dashes around it. -/
def single (arguments : List String) : String :=
  (arguments.erase "--").headD ""

/-- Acts on the arguments of rendering: the template, the seed, and the arguments that are left over. -/
def readRender : List (Item RenderOption) → Option Path → Option Int → List String →
    Except Notice (Command × List String)
  | [], none, _, _ => .error (.misuse renderUsage "tagc render" (.required "template"))
  | [], some template, seed, extras => .ok (.render template seed, extras)
  | .option .help _ :: _, _, _, _ => .error (.information renderHelp)
  | .option .seed value :: items, template, _, extras =>
      match Number.readInteger (value.getD "") with
      | .ok seed => readRender items template (some seed) extras
      | .error _ =>
          .error (.misuse renderUsage "tagc render" (.invalidInteger "--seed" (value.getD "")))
  | .positional arguments :: items, _, seed, extras =>
      readRender items (some (Path.ofText (single arguments))) seed extras
  | .extra argument :: items, template, seed, extras =>
      readRender items template seed (extras ++ [argument])
  | .refused error :: _, _, _, _ => .error (.misuse renderUsage "tagc render" error)

/-- Acts on the arguments of listing. There is only one thing to list. -/
def readList : List (Item ListOption) → (found : Bool) → List String →
    Except Notice (Command × List String)
  | [], false, _ => .error (.misuse listUsage "tagc list" (.required "what"))
  | [], true, extras => .ok (.list, extras)
  | .option .help _ :: _, _, _ => .error (.information listHelp)
  | .positional arguments :: items, _, extras =>
      if single arguments == "statements" then readList items true extras
      else
        .error (.misuse listUsage "tagc list"
          (.invalidChoice "what" (single arguments) ["statements"]))
  | .extra argument :: items, found, extras => readList items found (extras ++ [argument])
  | .refused error :: _, _, _ => .error (.misuse listUsage "tagc list" error)

def readCommand (arguments : List String) : Except Notice (Command × List String) :=
  match arguments with
  | "render" :: arguments => readRender (renderGrammar.read arguments) none none []
  | "list" :: arguments => readList (listGrammar.read arguments) false []
  | name :: _ => .error (.misuse mainUsage "tagc" (.invalidChoice "cmd" name ["render", "list"]))
  | [] => .error (.misuse mainUsage "tagc" (.required "cmd"))

/-- Acts on the arguments of the program. What is left over is only complained about at the end. -/
def readMain : List (Item MainOption) → (verbose : Bool) → Path → Option (Command × List String) →
    List String → Except Notice Request
  | [], _, _, none, _ => .error (.misuse mainUsage "tagc" (.required "cmd"))
  | [], verbose, config, some (command, more), extras =>
      match extras ++ more with
      | [] => .ok ⟨verbose, config, command⟩
      | unrecognized => .error (.misuse mainUsage "tagc" (.unrecognized unrecognized))
  | .option .help _ :: _, _, _, _, _ => .error (.information mainHelp)
  | .option .version _ :: _, _, _, _, _ => .error (.information versionText)
  | .option .verbose _ :: items, _, config, command, extras =>
      readMain items true config command extras
  | .option .config value :: items, verbose, _, command, extras =>
      readMain items verbose (Path.ofText (value.getD "")) command extras
  | .positional arguments :: items, verbose, config, _, extras =>
      match readCommand arguments with
      | .error notice => .error notice
      | .ok command => readMain items verbose config (some command) extras
  | .extra argument :: items, verbose, config, command, extras =>
      readMain items verbose config command (extras ++ [argument])
  | .refused error :: _, _, _, _, _ => .error (.misuse mainUsage "tagc" error)

def Request.ofArguments (arguments : List String) : Except Notice Request :=
  readMain (mainGrammar.read arguments) false defaultConfig none []

end TagTemplate.CommandLine
