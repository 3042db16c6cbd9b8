import TagTemplate.Yaml.Scalar

/-!
# YAML tokens

A document as a list of tokens, in which the indentation of lines shows as starts and ends of block
collections. That something is a key is only known once its colon is seen: until then its place is kept,
and the marks of a key and of a mapping are put in there afterwards.

Covered are block and flow collections, comments, the markers of a document, anchors and aliases, and
plain and quoted scalars. Anything else is no document for this library.
-/

namespace TagTemplate.Yaml

inductive Token where
  | documentStart
  | documentEnd
  | blockSequenceStart
  | blockMappingStart
  | blockEnd
  | blockEntry
  | flowSequenceStart
  | flowSequenceEnd
  | flowMappingStart
  | flowMappingEnd
  | flowEntry
  | key
  | value
  | alias (name : String)
  | anchor (name : String)
  | plain (text : String)
  | quoted (codes : List Nat)
deriving DecidableEq, Repr

/-- The tokens of a document, up to the fault where they end, if there is one. -/
structure Scan where
  tokens : List Token
  fault : Option Fault
deriving DecidableEq, Repr

/-- What may turn out to be a key: the index of its first token, its place, and whether nothing else can
stand there. -/
structure PendingKey where
  index : Nat
  mark : Mark
  required : Bool
deriving DecidableEq, Repr

inductive FlowKind where
  | sequence
  | mapping
deriving DecidableEq, Repr

/-- A flow collection that is open, and what was pending around it when it was opened. -/
structure OpenFlow where
  kind : FlowKind
  outer : Option PendingKey
deriving DecidableEq, Repr

/-- How far a document is read. There is a pending key at most for the block context and for every flow
collection that is open, the innermost first. -/
structure Scanner where
  input : Input
  tokens : Array Token
  indent : Int
  indents : List Int
  keyAllowed : Bool
  pending : Option PendingKey
  flows : List OpenFlow

namespace Scanner

def ofText (text : String) : Scanner :=
  ⟨Input.ofText text, #[], -1, [], true, none, []⟩

def inFlow (scanner : Scanner) : Bool := !scanner.flows.isEmpty

def column (scanner : Scanner) : Nat := scanner.input.mark.column

def push (scanner : Scanner) (token : Token) : Scanner :=
  { scanner with tokens := scanner.tokens.push token }

def take (scanner : Scanner) (count : Nat) (token : Token) : Scanner :=
  { scanner.push token with input := scanner.input.skip count }

/-- Starts a block collection whose first token is at `index`, if the column lies further to the right than
the collection around it. -/
def indentTo (scanner : Scanner) (column index : Nat) (token : Token) : Scanner :=
  if scanner.inFlow || column ≤ scanner.indent then scanner
  else
    { scanner with
      tokens := (scanner.tokens.toList.insertIdx index token).toArray
      indent := column
      indents := scanner.indent :: scanner.indents }

def unindentTo (scanner : Scanner) (column : Int) : List Int → Scanner
  | [] => scanner
  | indent :: indents =>
      if scanner.inFlow || scanner.indent ≤ column then scanner
      else
        unindentTo { scanner.push .blockEnd with indent := indent, indents := indents } column indents

/-- Ends the block collections that lie further to the right than the column. -/
def unindent (scanner : Scanner) (column : Int) : Scanner :=
  scanner.unindentTo column scanner.indents

def dropKey (scanner : Scanner) : Except Fault Scanner :=
  if scanner.pending.any PendingKey.required then throw .malformed
  else return { scanner with pending := none }

def keepKey (scanner : Scanner) : Except Fault Scanner :=
  if scanner.keyAllowed then do
    let scanner ← scanner.dropKey
    return { scanner with
      pending := some ⟨scanner.tokens.size, scanner.input.mark,
        !scanner.inFlow && scanner.indent == scanner.column⟩ }
  else return scanner

/-- Whether a pending key is given up at a place: a key stays on one line and is not too long. -/
def isStale (mark : Mark) (key : PendingKey) : Bool :=
  key.mark.line != mark.line || key.mark.index + 1024 < mark.index

def firstPending (scanner : Scanner) : Option Nat :=
  let pending := (scanner.pending :: scanner.flows.map OpenFlow.outer).filterMap id
  ((pending.filter fun key => !isStale scanner.input.mark key).map PendingKey.index).min?

def settled (scanner : Scanner) : List Token :=
  match scanner.firstPending with
  | some index => scanner.tokens.toList.take index
  | none => scanner.tokens.toList

/-- A pending key unless it is given up, which fails if nothing else can stand there. -/
def refresh (mark : Mark) (pending : Option PendingKey) : Except Fault (Option PendingKey) :=
  if pending.any (isStale mark) then
    if pending.any PendingKey.required then throw .malformed else return none
  else return pending

def dropStale (scanner : Scanner) : Except Fault Scanner := do
  let mark := scanner.input.mark
  let pending ← refresh mark scanner.pending
  let flows ← scanner.flows.mapM fun flow => do
    return { flow with outer := ← refresh mark flow.outer }
  return { scanner with pending, flows }

/-- Skips blanks, comments and line breaks. Tabs are blanks only inside of flow collections, and outside of
them a new line may start with a key. -/
def skipGaps (inFlow : Bool) : List Char → Mark → (keyAllowed comment : Bool) → Input × Bool
  | [], mark, keyAllowed, _ => (⟨[], mark⟩, keyAllowed)
  | c :: rest, mark, keyAllowed, comment =>
      if comment && !endsLine c then skipGaps inFlow rest (mark.after c) keyAllowed true
      else if isBreak c then skipGaps inFlow rest (mark.after c) (keyAllowed || !inFlow) false
      else if c == ' ' || c == '\t' && inFlow then skipGaps inFlow rest (mark.after c) keyAllowed false
      else if c == '#' then skipGaps inFlow rest (mark.after c) keyAllowed true
      else (⟨c :: rest, mark⟩, keyAllowed)

def marker (scanner : Scanner) (token : Token) : Except Fault Scanner := do
  let scanner ← (scanner.unindent (-1)).dropKey
  return { scanner.take 3 token with keyAllowed := false }

def openFlow (scanner : Scanner) (kind : FlowKind) (token : Token) : Except Fault Scanner := do
  let scanner ← scanner.keepKey
  return { scanner.take 1 token with
    keyAllowed := true, pending := none, flows := ⟨kind, scanner.pending⟩ :: scanner.flows }

/-- A closing bracket. Whether it is of the right kind does not show here. -/
def closeFlow (scanner : Scanner) (token : Token) : Except Fault Scanner := do
  let scanner ← scanner.dropKey
  let scanner := { scanner.take 1 token with keyAllowed := false }
  match scanner.flows with
  | [] => return scanner
  | flow :: flows => return { scanner with pending := flow.outer, flows }

def flowEntry (scanner : Scanner) : Except Fault Scanner := do
  let scanner ← scanner.dropKey
  return { scanner.take 1 .flowEntry with keyAllowed := true }

def blockEntry (scanner : Scanner) : Except Fault Scanner := do
  if !scanner.inFlow && !scanner.keyAllowed then throw .malformed
  let scanner ← (scanner.indentTo scanner.column scanner.tokens.size .blockSequenceStart).dropKey
  return { scanner.take 1 .blockEntry with keyAllowed := true }

def keyMark (scanner : Scanner) : Except Fault Scanner := do
  if !scanner.inFlow && !scanner.keyAllowed then throw .malformed
  let scanner ← (scanner.indentTo scanner.column scanner.tokens.size .blockMappingStart).dropKey
  return { scanner.take 1 .key with keyAllowed := !scanner.inFlow }

def valueMark (scanner : Scanner) : Except Fault Scanner :=
  match scanner.pending with
  | some key =>
      let tokens := (scanner.tokens.toList.insertIdx key.index .key).toArray
      let scanner := { scanner with tokens, pending := none }
      let scanner := scanner.indentTo key.mark.column key.index .blockMappingStart
      return { scanner.take 1 .value with keyAllowed := false }
  | none => do
      let scanner ← scanner.dropKey
      if !scanner.inFlow && !scanner.keyAllowed then throw .malformed
      let scanner := scanner.indentTo scanner.column scanner.tokens.size .blockMappingStart
      return { scanner.take 1 .value with keyAllowed := !scanner.inFlow }

def isNameChar (c : Char) : Bool :=
  !isFlowIndicator c &&
    ((0x21 ≤ c.toNat && c.toNat ≤ 0x7E) || 0x10000 ≤ c.toNat ||
      (0xA0 ≤ c.toNat && c.toNat ≤ 0xFFFD && c != byteOrderMark))

/-- An anchor or alias: its indicator and a name, which ends at a gap or at the indicator of a flow
collection. -/
def reference (scanner : Scanner) (token : String → Token) : Except Fault Scanner := do
  let name := scanner.input.rest.tail.takeWhile isNameChar
  let rest := scanner.input.rest.tail.dropWhile isNameChar
  if name.isEmpty || !rest.head?.all (fun c => isGap c || isFlowIndicator c) then throw .malformed
  let scanner ← scanner.keepKey
  return { scanner.take (name.length + 1) (token (String.ofList name)) with keyAllowed := false }

def quoted (scanner : Scanner) (quote : Char) : Except Fault Scanner := do
  let scanner ← scanner.keepKey
  let (codes, input) ← readQuoted quote (scanner.input.rest.length + 1) scanner.input.next []
  return { scanner.push (.quoted codes) with input, keyAllowed := false }

def plain (scanner : Scanner) : Except Fault Scanner := do
  let scanner ← scanner.keepKey
  let (text, input, folded) :=
    readPlain scanner.inFlow (scanner.indent + 1) (scanner.input.rest.length + 1) scanner.input Gap.empty []
  return { scanner.push (.plain (String.ofList text)) with input, keyAllowed := folded }

def startsPlain (inFlow : Bool) (c : Char) (rest : List Char) : Bool :=
  if c == '-' || c == ':' || c == '?' && !inFlow then !atWordEnd rest
  else
    !(isFlowIndicator c || c == '?' || c == '#' || c == '&' || c == '*' || c == '!' || c == '|' ||
      c == '>' || c == '\'' || c == '"' || c == '%' || c == '@' || c.toNat == 0x60 || isGap c)

/-- Whether a colon stands in front of a value, given what follows it. Inside of a flow mapping it does,
unless it comes right behind such a colon while it is still open whether all that is a key; everywhere
else it does so only at the end of a word. -/
def startsValue (scanner : Scanner) (undecided : Bool) (rest : List Char) : Bool :=
  match scanner.flows with
  | ⟨.mapping, _⟩ :: _ => !(undecided && scanner.tokens.back? == some .value) || atWordEnd rest
  | _ => atWordEnd rest

/-- Reads the token that starts with the given character. It may be undecided whether some of the tokens
before it are a key. -/
def fetch (scanner : Scanner) (undecided : Bool) (c : Char) (rest : List Char) : Except Fault Scanner :=
  if scanner.column == 0 && c == '%' then throw .malformed
  else if scanner.input.atMarker '-' then scanner.marker .documentStart
  else if scanner.input.atMarker '.' then scanner.marker .documentEnd
  else if c == '[' then scanner.openFlow .sequence .flowSequenceStart
  else if c == '{' then scanner.openFlow .mapping .flowMappingStart
  else if c == ']' then scanner.closeFlow .flowSequenceEnd
  else if c == '}' then scanner.closeFlow .flowMappingEnd
  else if c == ',' then scanner.flowEntry
  else if c == '-' && atWordEnd rest then scanner.blockEntry
  else if c == '?' && (scanner.inFlow || atWordEnd rest) then scanner.keyMark
  else if c == ':' && scanner.startsValue undecided rest then scanner.valueMark
  else if c == '*' then scanner.reference .alias
  else if c == '&' then scanner.reference .anchor
  else if c == '\'' || c == '"' then scanner.quoted c
  else if startsPlain scanner.inFlow c rest then scanner.plain
  else throw .malformed

def step (scanner : Scanner) : Except Fault (Scanner × Bool) := do
  let undecided := scanner.firstPending.isSome
  let (input, keyAllowed) :=
    skipGaps scanner.inFlow scanner.input.rest scanner.input.mark scanner.keyAllowed false
  let scanner ← ({ scanner with input, keyAllowed } : Scanner).dropStale
  match input.rest with
  | [] => return (← (scanner.unindent (-1)).dropKey, true)
  | c :: rest => return (← (scanner.unindent scanner.column).fetch undecided c rest, false)

/-- Reads tokens to the end of the document or to a fault, in so many steps at most. Behind a fault the
tokens are not known, nor are those in front of it that may be a key. -/
def run : Nat → Scanner → Scan
  | 0, scanner => ⟨scanner.settled, some .malformed⟩
  | steps + 1, scanner =>
      match scanner.step with
      | .error fault => ⟨scanner.settled, some fault⟩
      | .ok (scanner, true) => ⟨scanner.tokens.toList, none⟩
      | .ok (scanner, false) => run steps scanner

end Scanner

def Scan.ofText (text : String) : Scan :=
  if text.toList.all isAllowed then Scanner.run (text.length + 1) (Scanner.ofText text)
  else ⟨[], some .malformed⟩

end TagTemplate.Yaml
