import TagTemplate.Text.Digit
import TagTemplate.Text.Quoted

/-!
# Options and arguments

A command has options, some of which take a value, and one positional argument, which may be the name of
another command and then takes everything behind it as well. Long options may be cut short as long as it
is clear which is meant, short ones may be written together, and a value may be joined to its option.
Behind two dashes nothing is an option.

Reading a list of arguments yields items in the order in which they take effect. Whoever acts on them may
stop before the end, so what is wrong with an argument only counts when its turn comes; only options that
are not clear are refused before anything else.
-/

namespace TagTemplate.CommandLine

inductive UsageError where
  | ambiguous (option : String) (candidates : List String)
  | valueIgnored (option value : String)
  | valueExpected (option : String)
  | required (argument : String)
  | invalidChoice (argument value : String) (choices : List String)
  | invalidInteger (option value : String)
  | unrecognized (arguments : List String)
deriving DecidableEq, Repr

def UsageError.message : UsageError → String
  | ambiguous option candidates =>
      "ambiguous option: " ++ option ++ " could match " ++ ", ".intercalate candidates
  | valueIgnored option value =>
      "argument " ++ option ++ ": ignored explicit argument " ++ Text.quoted value
  | valueExpected option => "argument " ++ option ++ ": expected one argument"
  | required argument => "the following arguments are required: " ++ argument
  | invalidChoice argument value choices =>
      "argument " ++ argument ++ ": invalid choice: " ++ Text.quoted value ++ " (choose from " ++
        ", ".intercalate (choices.map Text.quoted) ++ ")"
  | invalidInteger option value =>
      "argument " ++ option ++ ": invalid int value: " ++ Text.quoted value
  | unrecognized arguments => "unrecognized arguments: " ++ " ".intercalate arguments

/-- The options of a command by all their spellings, in order, and its positional argument. -/
structure Grammar (ω : Type) where
  options : List (String × ω)
  label : ω → String
  takesValue : ω → Bool
  takesRest : Bool

/-- What an argument asks for: an option, how it is spelled in full, and the value that is joined to it,
with an equals sign or without. -/
structure Candidate (ω : Type) where
  option : ω
  spelling : String
  byEquals : Bool
  value : Option String

inductive Kind (ω : Type) where
  | dashes
  | plain
  | unknown
  | option (candidate : Candidate ω)

inductive Item (ω : Type) where
  | option (option : ω) (value : Option String)
  | positional (arguments : List String)
  | extra (argument : String)
  | refused (error : UsageError)

namespace Grammar

variable {ω : Type}

def splitEquals (s : List Char) : Option (List Char × List Char) :=
  match s.span (· != '=') with
  | (front, _ :: back) => some (front, back)
  | (_, []) => none

/-- Whether a text is a negative number rather than an option. A line feed at its end does not count. -/
def isNegativeNumber (s : List Char) : Bool :=
  match s with
  | '-' :: number =>
      let number := if number.getLast? == some '\n' then number.dropLast else number
      let whole := number.takeWhile Text.isDigit
      match number.dropWhile Text.isDigit with
      | [] => !whole.isEmpty
      | '.' :: fraction => !fraction.isEmpty && fraction.all Text.isDigit
      | _ => false
  | _ => false

def longCandidates (grammar : Grammar ω) (argument : List Char) : List (Candidate ω) :=
  let (front, value) := match splitEquals argument with
    | some (front, back) => (front, some (String.ofList back))
    | none => (argument, none)
  grammar.options.filterMap fun (spelling, option) =>
    if front.isPrefixOf spelling.toList then some ⟨option, spelling, value.isSome, value⟩ else none

/-- The options of one letter that an argument may start with, and those that it may be short for. -/
def shortCandidates (grammar : Grammar ω) (argument : List Char) : List (Candidate ω) :=
  grammar.options.filterMap fun (spelling, option) =>
    if spelling.toList == argument.take 2 then
      some ⟨option, spelling, false, some (String.ofList (argument.drop 2))⟩
    else if argument.isPrefixOf spelling.toList then some ⟨option, spelling, false, none⟩
    else none

/-- The options that an argument which is none of them in full may stand for. -/
def candidates (grammar : Grammar ω) (argument : List Char) : List (Candidate ω) :=
  match argument with
  | '-' :: '-' :: _ => grammar.longCandidates argument
  | _ => grammar.shortCandidates argument

def classify (grammar : Grammar ω) (argument : String) : Except UsageError (Kind ω) :=
  let chars := argument.toList
  if chars.head? != some '-' then .ok .plain
  else
    match grammar.options.lookup argument with
    | some option => .ok (.option ⟨option, argument, false, none⟩)
    | none =>
        if chars.length = 1 then .ok .plain
        else
          let joined := do
            let (front, back) ← splitEquals chars
            let option ← grammar.options.lookup (String.ofList front)
            some (⟨option, String.ofList front, true, some (String.ofList back)⟩ : Candidate ω)
          match joined with
          | some candidate => .ok (.option candidate)
          | none =>
              match grammar.candidates chars with
              | [candidate] => .ok (.option candidate)
              | [] => .ok (if isNegativeNumber chars || chars.contains ' ' then .plain else .unknown)
              | several => .error (.ambiguous argument (several.map Candidate.spelling))

def classifyAll (grammar : Grammar ω) : List String → Except UsageError (List (Kind ω × String))
  | [] => .ok []
  | argument :: arguments =>
      if argument == "--" then .ok ((.dashes, argument) :: arguments.map (.plain, ·))
      else do
        let kind ← grammar.classify argument
        return (kind, argument) :: (← grammar.classifyAll arguments)

def isOption : Kind ω × String → Bool
  | (.option _, _) | (.unknown, _) => true
  | _ => false

def isDashes : Kind ω × String → Bool
  | (.dashes, _) => true
  | _ => false

/-- The arguments that the positional one takes, and the rest: dashes in front of it or behind it, the
argument, and everything else if it takes that. -/
def takePositional (grammar : Grammar ω) (arguments : List (Kind ω × String)) :
    Option (List String × List (Kind ω × String)) :=
  let front := arguments.takeWhile isDashes
  match arguments.dropWhile isDashes with
  | (.plain, argument) :: rest =>
      let back := if grammar.takesRest then rest else rest.takeWhile isDashes
      let rest := if grammar.takesRest then [] else rest.dropWhile isDashes
      some (front.map Prod.snd ++ argument :: back.map Prod.snd, rest)
  | _ => none

/-- An option of one letter and what is joined to it, if that is the next of several that are written
together. -/
def nextOfCluster (grammar : Grammar ω) (value : List Char) : Option (Candidate ω) :=
  match value with
  | [] => none
  | c :: rest =>
      let spelling := String.ofList ['-', c]
      (grammar.options.lookup spelling).map fun option =>
        match rest with
        | [] => ⟨option, spelling, false, none⟩
        | '=' :: rest => ⟨option, spelling, true, some (String.ofList rest)⟩
        | rest => ⟨option, spelling, false, some (String.ofList rest)⟩

/-- The items of an option and those that are written together with it, in so many steps at most, and the
arguments that are left. -/
def takeOption (grammar : Grammar ω) (rest : List (Kind ω × String)) :
    Nat → Candidate ω → List (Item ω) → List (Item ω) × List (Kind ω × String)
  | 0, _, taken => (taken, rest)
  | steps + 1, candidate, taken =>
      match candidate.value with
      | none =>
          if grammar.takesValue candidate.option then
            match rest with
            | (.plain, value) :: rest => (taken ++ [.option candidate.option (some value)], rest)
            | _ => ([.refused (.valueExpected (grammar.label candidate.option))], [])
          else (taken ++ [.option candidate.option none], rest)
      | some value =>
          if grammar.takesValue candidate.option then
            (taken ++ [.option candidate.option (some value)], rest)
          else if candidate.spelling.length = 2 && value != "" && !candidate.byEquals &&
              value.toList.head? != some '-' then
            let taken := taken ++ [.option candidate.option none]
            match grammar.nextOfCluster value.toList with
            | some candidate => takeOption grammar rest steps candidate taken
            | none => (.extra ("-" ++ value) :: taken, rest)
          else ([.refused (.valueIgnored (grammar.label candidate.option) value)], [])

/-- The items of some arguments, in so many steps at most. The positional argument is looked for in front
of every option, and at the end, as long as it has not been found. -/
def items (grammar : Grammar ω) : Nat → (wanted : Bool) → List (Kind ω × String) → List (Item ω)
  | 0, _, _ => []
  | steps + 1, wanted, arguments =>
      match arguments with
      | (.unknown, argument) :: rest => .extra argument :: grammar.items steps wanted rest
      | (.option candidate, argument) :: rest =>
          let (taken, rest) := grammar.takeOption rest (argument.length + 1) candidate []
          taken ++ grammar.items steps wanted rest
      | _ =>
          match (if wanted then grammar.takePositional arguments else none) with
          | some (taken, rest) => .positional taken :: grammar.items steps false rest
          | none =>
              let front := arguments.takeWhile (!isOption ·)
              front.map (fun argument => .extra argument.2) ++
                match arguments.dropWhile (!isOption ·) with
                | [] => []
                | rest => grammar.items steps wanted rest

def read (grammar : Grammar ω) (arguments : List String) : List (Item ω) :=
  match grammar.classifyAll arguments with
  | .error error => [.refused error]
  | .ok arguments => grammar.items (2 * arguments.length + 2) true arguments

end Grammar

end TagTemplate.CommandLine
