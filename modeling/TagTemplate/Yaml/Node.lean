import TagTemplate.Yaml.Token

/-!
# YAML nodes

The tree of scalars, sequences and mappings that the tokens of a document stand for. What is left out is an
empty plain scalar. An alias stands for the node that its anchor was put on, which has to be complete by then.
-/

namespace TagTemplate.Yaml

/-- A node of a document. In some mappings later entries stand in for earlier ones with the same key. -/
inductive Node where
  | plain (text : String)
  | quoted (codes : List Nat)
  | sequence (items : List Node)
  | mapping (overlaid : Bool) (entries : List (Node × Node))

instance : Inhabited Node := ⟨.plain ""⟩

namespace Node

def omitted : Node := .plain ""

/-- The scan that is left, and the nodes with an anchor. -/
structure Reader where
  scan : Scan
  anchors : List (String × Node)

abbrev Reading := StateT Reader (Except Fault)

/-- The next token, if there is one. It may be that there is a fault in its place. -/
def peek : Reading (Option Token) := do
  match (← get).scan with
  | ⟨[], some fault⟩ => throw fault
  | scan => return scan.tokens.head?

def skip : Reading Unit :=
  modify fun reader => { reader with scan := ⟨reader.scan.tokens.tail, reader.scan.fault⟩ }

def nextIs (tokens : List Token) : Reading Bool := do
  return (← peek).any tokens.contains

def accept (token : Token) : Reading Bool := do
  if ← nextIs [token] then
    skip
    return true
  return false

def expect (token : Token) : Reading Unit := do
  unless ← accept token do throw .malformed

/-- Puts an anchor on a node. So many nodes had one when it was written; those that got one since are parts
of the node, and come after it. -/
def remember (anchor : Option String) (before : Nat) (node : Node) : Reading Node := do
  if let some name := anchor then
    modify fun reader =>
      { reader with
        anchors := reader.anchors.insertIdx (reader.anchors.length - before) (name, node) }
  return node

def readAnchor : Reading (Option String) := do
  match ← peek with
  | some (.anchor name) => do
      skip
      return some name
  | _ => return none

mutual

/-- Reads a node, with as many steps as there are at most. Inside of flow collections there are no block
collections, and only some places take a sequence that is not indented. -/
def readNode (block indentless : Bool) : Nat → Reading Node
  | 0 => throw .malformed
  | steps + 1 => do
      let anchor ← readAnchor
      let before := (← get).anchors.length
      match ← peek with
      | some (.alias name) => do
          if anchor.isSome then throw .malformed
          skip
          match (← get).anchors.lookup name with
          | some node => return node
          | none => throw .malformed
      | some (.plain text) => do
          skip
          remember anchor before (.plain text)
      | some (.quoted codes) => do
          skip
          remember anchor before (.quoted codes)
      | some .flowSequenceStart => do
          skip
          remember anchor before (.sequence (← readFlowItems true steps))
      | some .flowMappingStart => do
          skip
          remember anchor before (.mapping false (← readFlowEntries true steps))
      | some .blockEntry => do
          if indentless then remember anchor before (.sequence (← readBareItems steps))
          else if anchor.isSome then remember anchor before omitted
          else throw .malformed
      | some .blockSequenceStart => do
          if !block then throw .malformed
          skip
          remember anchor before (.sequence (← readBlockItems steps))
      | some .blockMappingStart => do
          if !block then throw .malformed
          skip
          remember anchor before (.mapping false (← readBlockEntries steps))
      | _ => if anchor.isSome then remember anchor before omitted else throw .malformed

/-- Reads a node unless one of some tokens follows, which shows that it is left out. -/
def readUnless (tokens : List Token) (block indentless : Bool) : Nat → Reading Node
  | 0 => throw .malformed
  | steps + 1 => do
      if (← peek).isNone || (← nextIs tokens) then return omitted
      readNode block indentless steps

def readBlockItems : Nat → Reading (List Node)
  | 0 => throw .malformed
  | steps + 1 => do
      if ← accept .blockEnd then return []
      expect .blockEntry
      let item ← readUnless [.blockEntry, .blockEnd] true false steps
      return item :: (← readBlockItems steps)

def readBareItems : Nat → Reading (List Node)
  | 0 => throw .malformed
  | steps + 1 => do
      if !(← accept .blockEntry) then return []
      let item ← readUnless [.blockEntry, .key, .value, .blockEnd] true false steps
      return item :: (← readBareItems steps)

/-- Reads the entries of a block mapping. Without the mark of a key the key is left out. -/
def readBlockEntries : Nat → Reading (List (Node × Node))
  | 0 => throw .malformed
  | steps + 1 => do
      if ← accept .blockEnd then return []
      let marked ← accept .key
      unless marked || (← nextIs [.value]) do throw .malformed
      let key ← readUnless [.key, .value, .blockEnd] true true steps
      let value ←
        if ← accept .value then readUnless [.key, .value, .blockEnd] true true steps else pure omitted
      return (key, value) :: (← readBlockEntries steps)

def readFlowItems (first : Bool) : Nat → Reading (List Node)
  | 0 => throw .malformed
  | steps + 1 => do
      if ← accept .flowSequenceEnd then return []
      unless first do expect .flowEntry
      if ← accept .key then
        let key ← readUnless [.value, .flowEntry, .flowSequenceEnd] false false steps
        let value ←
          if ← accept .value then readUnless [.flowEntry, .flowSequenceEnd] false false steps
          else pure omitted
        return .mapping false [(key, value)] :: (← readFlowItems false steps)
      if !first && (← accept .flowSequenceEnd) then return []
      let item ← readNode false false steps
      return item :: (← readFlowItems false steps)

/-- Reads the entries of a flow mapping; all but the first have a comma in front. Without the mark of a key
either the key or the value is left out. -/
def readFlowEntries (first : Bool) : Nat → Reading (List (Node × Node))
  | 0 => throw .malformed
  | steps + 1 => do
      if ← accept .flowMappingEnd then return []
      unless first do expect .flowEntry
      if !first && (← accept .flowMappingEnd) then return []
      let marked ← accept .key
      if marked || (← nextIs [.value]) then
        let key ← readUnless [.value, .flowEntry, .flowMappingEnd] false false steps
        let value ←
          if ← accept .value then readUnless [.flowEntry, .flowMappingEnd] false false steps
          else pure omitted
        return (key, value) :: (← readFlowEntries false steps)
      let key ← readNode false false steps
      return (key, omitted) :: (← readFlowEntries false steps)

end

/-- Reads the only document of a stream, if the stream holds one at all. One marker of its end may follow. -/
def readDocument (steps : Nat) : Reading (Option Node) := do
  if (← peek).isNone then return none
  let marked ← accept .documentStart
  let node ←
    if marked then readUnless [.documentStart, .documentEnd] true false steps
    else readNode true false steps
  let _ ← accept .documentEnd
  unless (← peek).isNone do throw .malformed
  return some node

def ofScan (scan : Scan) : Except Fault (Option Node) :=
  ((readDocument (4 * scan.tokens.length + 4)).run ⟨scan, []⟩).map Prod.fst

end Node

end TagTemplate.Yaml
