import TagTemplate.Yaml.Node
import TagTemplate.Yaml.Resolve

/-!
# YAML documents

The reader of documents that the program is run with. It knows a part of YAML: neither block scalars, tags and
directives, nor dates, which are texts to it. What is said of configurations is said of any other reader as well.

No key may occur twice in a mapping, and no mapping can be a key. A mapping that takes over others has their entries in
front of its own, which win.

A document with several faults is reported with the one that is met first. Keys are read with all that is
in them, as soon as their turn comes, but other collections from the outside to the inside: one level of
the document after the other, and each level from its start to its end.
-/

namespace TagTemplate.Yaml

open Config (Value)

/-! ### Mappings that take over others -/

/-- The entries of a sequence of mappings that are taken over together; the first of them wins. -/
def entriesOfAll : List Node → Option (List (Node × Node))
  | [] => some []
  | .mapping _ entries :: nodes => (entriesOfAll nodes).map (· ++ entries)
  | _ => none

def offered : Node → Option (List (Node × Node))
  | .mapping _ entries => some entries
  | .sequence items => entriesOfAll items
  | _ => none

/-- The entries that are taken over, besides those that were already, and the others. Only one entry of a
mapping may take over anything. -/
def separate (taken : List (Node × Node)) :
    List (Node × Node) → Option (List (Node × Node) × List (Node × Node))
  | [] => some (taken, [])
  | (.plain text, value) :: entries =>
      if text == mergeText then do
        if !taken.isEmpty then none
        separate (← offered value) entries
      else do
        let (taken, own) ← separate taken entries
        let key : Node := if text == valueText then .quoted (text.toList.map Char.toNat) else .plain text
        return (taken, (key, value) :: own)
  | entry :: entries => do
      let (taken, own) ← separate taken entries
      return (taken, entry :: own)

/-- A mapping of some entries and of those that it takes over. If they cannot be taken over, it is left
with a key that has no value. -/
def Node.mappingOf (entries : List (Node × Node)) : Node :=
  match separate [] entries with
  | some (taken, own) => .mapping (!taken.isEmpty) (taken ++ own)
  | none => .mapping false [(.plain mergeText, .omitted)]

mutual

/-- A node in which every mapping has the entries that it takes over in front of its own. -/
def Node.merged : Node → Node
  | .plain text => .plain text
  | .quoted codes => .quoted codes
  | .sequence items => .sequence (Node.mergedItems items)
  | .mapping _ entries => .mappingOf (Node.mergedEntries entries)

def Node.mergedItems : List Node → List Node
  | [] => []
  | item :: items => item.merged :: Node.mergedItems items

def Node.mergedEntries : List (Node × Node) → List (Node × Node)
  | [] => []
  | (key, value) :: entries => (key.merged, value.merged) :: Node.mergedEntries entries

end

/-! ### Values -/

def keyOf : Value → Except Fault Value
  | .map _ => .error .malformed
  | value => .ok value

/-- The first part of a list that keeps it from being a key. -/
def unusablePart? : Value → Option Value
  | .list items => items.find? fun item => match item with
      | .list _ | .map _ => true
      | _ => false
  | _ => none

/-- Adds an entry to a mapping, whose keys have to differ unless it is overlaid. The complaint about equal
keys shows what they are and what they stand for, which may be more than can be shown. -/
def enter (overlaid : Bool) (entries : List (Value × Value)) (key value : Value) :
    Except Fault (List (Value × Value)) :=
  match unusablePart? key with
  | some part => .error (.unusableKey part.kind)
  | none =>
      match if overlaid then none else entries.find? fun entry => entry.1.same key with
      | some (_, old) =>
          .error (if [key, value, old].all Value.isWritable then .malformed else .integer .unwritable)
      | none => .ok (Value.put entries key value)

mutual

def Node.toValue : Node → Except Fault Value
  | .plain text => resolve text
  | .quoted codes => .ok (.text (.ofPoints codes))
  | .sequence items => (Node.toValues items).map .list
  | .mapping overlaid entries => (Node.toEntries overlaid [] entries).map .map

def Node.toValues : List Node → Except Fault (List Value)
  | [] => .ok []
  | item :: items => do
      let value ← item.toValue
      return value :: (← Node.toValues items)

def Node.toEntries (overlaid : Bool) (done : List (Value × Value)) :
    List (Node × Node) → Except Fault (List (Value × Value))
  | [] => .ok done
  | (key, value) :: entries => do
      let key ← keyOf (← key.toValue)
      let value ← value.toValue
      Node.toEntries overlaid (← enter overlaid done key value) entries

end

/-! ### The first fault -/

def Node.isCollection : Node → Bool
  | .plain _ | .quoted _ => false
  | .sequence _ | .mapping .. => true

/-- The value of a node before its parts are looked at. -/
def Node.outline : Node → Except Fault Value
  | .sequence _ => .ok (.list [])
  | .mapping .. => .ok (.map [])
  | node => node.toValue

def Node.outlineEntries (overlaid : Bool) (done : List (Value × Value)) :
    List (Node × Node) → Except Fault (List (Value × Value))
  | [] => .ok done
  | (key, value) :: entries => do
      let key ← keyOf (← key.toValue)
      let value ← value.outline
      Node.outlineEntries overlaid (← enter overlaid done key value) entries

/-- The parts of a node that have parts themselves, unless there is a fault before one comes to them. -/
def Node.parts : Node → Except Fault (List Node)
  | .plain _ | .quoted _ => .ok []
  | .sequence items => do
      let _ ← items.mapM Node.outline
      return items.filter Node.isCollection
  | .mapping overlaid entries => do
      let _ ← Node.outlineEntries overlaid [] entries
      return (entries.map Prod.snd).filter Node.isCollection

def Node.surveyLevels : Nat → List Node → Except Fault Unit
  | 0, _ => .ok ()
  | _, [] => .ok ()
  | levels + 1, nodes => do
      let parts ← nodes.mapM Node.parts
      Node.surveyLevels levels parts.flatten

/-- The value of a document, or its first fault. There are not more levels than tokens. An empty document
stands for nothing. -/
def valueOf (text : String) : Except Fault Value := do
  let scan := Scan.ofText text
  match ← Node.ofScan scan with
  | none => return .null
  | some node =>
      Node.surveyLevels (scan.tokens.length + 1) [node.merged]
      node.merged.toValue

end TagTemplate.Yaml
