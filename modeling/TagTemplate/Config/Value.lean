import TagTemplate.CodeText
import TagTemplate.Number.Integer
import TagTemplate.Number.Shortest

/-!
# Values of a configuration

What a configuration document can hold: scalars, lists, and mappings in the order in which they were written. Numbers
are equal when they are the same number, whatever their kind, and the truth values count as one and zero. What is no
number is equal to itself.
-/

namespace TagTemplate.Config

/-- A value of a class that the program does not know: a date or a moment, bytes, a set; and also a list or a mapping
where it comes again inside of itself. All that counts of it is the name of its class, how it looks in messages, by
itself and inside of another value, and whether it says anything. -/
structure Foreign where
  kind : String
  written : String
  shown : String
  isTruthy : Bool
deriving DecidableEq, Repr

/-- A value. One of a class that is not known has the parts that are shown with it. -/
inductive Value where
  | null
  | bool (value : Bool)
  | int (value : Int)
  | float (value : Float)
  | text (value : CodeText)
  | foreign (thing : Foreign) (parts : List Value)
  | list (items : List Value)
  | map (entries : List (Value × Value))

namespace Value

instance : Inhabited Value := ⟨null⟩

/-- Whether a value says anything: neither nothing, nor false, nor zero, nor empty. -/
def isTruthy : Value → Bool
  | null => false
  | bool value => value
  | int value => value != 0
  | float value => value != 0.0
  | text value => value != .chars ""
  | foreign thing _ => thing.isTruthy
  | list items => !items.isEmpty
  | map entries => !entries.isEmpty

def kind : Value → String
  | null => "NoneType"
  | bool _ => "bool"
  | int _ => "int"
  | float _ => "float"
  | text _ => "str"
  | foreign thing _ => thing.kind
  | list _ => "list"
  | map _ => "dict"

/-- The kind of a key, for messages. A list that serves as a key is fixed. -/
def keyKind : Value → String
  | list _ => "tuple"
  | key => key.kind

/-- The integer that a number or truth value is, if it is one. -/
def integer? : Value → Option Int
  | bool value => some (if value then 1 else 0)
  | int value => some value
  | float value => Number.integerOfFloat? value
  | _ => none

def text? : Value → Option CodeText
  | text value => some value
  | _ => none

mutual

def same : Value → Value → Bool
  | null, null => true
  | text value, text value' => value == value'
  | foreign thing parts, foreign thing' parts' => thing == thing' && sameItems parts parts'
  | list items, list items' => sameItems items items'
  | map entries, map entries' => entries.length == entries'.length && within entries entries'
  | float value, float value' => value == value' || value.isNaN && value'.isNaN
  | bool value, other => other.integer? == some (if value then 1 else 0)
  | int value, other => other.integer? == some value
  | float value, other =>
      match other with
      | bool _ | int _ => other.integer? == Number.integerOfFloat? value && other.integer?.isSome
      | _ => false
  | _, _ => false

def sameItems : List Value → List Value → Bool
  | [], [] => true
  | item :: items, item' :: items' => same item item' && sameItems items items'
  | _, _ => false

def within : List (Value × Value) → List (Value × Value) → Bool
  | [], _ => true
  | (key, value) :: entries, others =>
      others.any (fun other => same key other.1 && same value other.2) && within entries others

end

/-! ### Values in messages -/

mutual

/-- A value as messages show it, texts between quotes. -/
def shown : Value → String
  | null => "None"
  | bool value => if value then "True" else "False"
  | int value => toString value
  | float value => Number.floatText value
  | text value => value.quoted
  | foreign thing _ => thing.shown
  | list items => "[" ++ shownItems items ++ "]"
  | map entries => "\x7b" ++ shownEntries entries ++ "\x7d"

def shownItems : List Value → String
  | [] => ""
  | [item] => shown item
  | item :: items => shown item ++ ", " ++ shownItems items

def shownEntries : List (Value × Value) → String
  | [] => ""
  | [(key, value)] => shownKey key ++ ": " ++ shown value
  | (key, value) :: entries => shownKey key ++ ": " ++ shown value ++ ", " ++ shownEntries entries

/-- A key as messages show it. A list that serves as a key is put between parentheses. -/
def shownKey : Value → String
  | list [] => "()"
  | list [item] => "(" ++ shownKey item ++ ",)"
  | list items => "(" ++ shownItems items ++ ")"
  | key => shown key

end

/-- A value as messages write it out: a text without quotes. -/
def written : Value → String
  | text value => value.written
  | foreign thing _ => thing.written
  | value => value.shown

mutual

def isWritable : Value → Bool
  | int value => Number.isWritable value
  | foreign _ parts => allWritable parts
  | list items => allWritable items
  | map entries => entriesWritable entries
  | _ => true

def allWritable : List Value → Bool
  | [] => true
  | item :: items => isWritable item && allWritable items

def entriesWritable : List (Value × Value) → Bool
  | [] => true
  | (key, value) :: entries => isWritable key && isWritable value && entriesWritable entries

end

/-- What can be in the way of showing a value: an integer of too many digits, or a part that lies too deep in it. -/
inductive Obstacle where
  | digits
  | depth
deriving DecidableEq, Repr

mutual

/-- What one comes upon first that is in the way of showing a value, if only so many lists and mappings can be shown
within each other. -/
def obstacle? : Nat → Value → Option Obstacle
  | _, int value => if Number.isWritable value then none else some .digits
  | room, foreign _ parts => obstacleInItems? room parts
  | room, list items => obstacleInItems? room items
  | room, map entries => obstacleInEntries? room entries
  | _, _ => none

def obstacleInItems? : Nat → List Value → Option Obstacle
  | _, [] => none
  | 0, _ :: _ => some .depth
  | room + 1, item :: items => (obstacle? room item).or (obstacleInItems? (room + 1) items)

def obstacleInEntries? : Nat → List (Value × Value) → Option Obstacle
  | _, [] => none
  | 0, _ :: _ => some .depth
  | room + 1, (key, value) :: entries =>
      ((obstacle? room key).or (obstacle? room value)).or (obstacleInEntries? (room + 1) entries)

end

/-! ### Mappings -/

def find? (entries : List (Value × Value)) (key : String) : Option Value :=
  (entries.find? fun entry => same entry.1 (text key)).map Prod.snd

/-- A list of entries with the value of a key replaced, or a new entry at the end. -/
def put (entries : List (Value × Value)) (key value : Value) : List (Value × Value) :=
  if entries.any fun entry => same entry.1 key then
    entries.map fun entry => if same entry.1 key then (entry.1, value) else entry
  else entries ++ [(key, value)]

/-- A list of entries under some others, which win. -/
def overlay (entries others : List (Value × Value)) : List (Value × Value) :=
  others.foldl (fun entries entry => put entries entry.1 entry.2) entries

end Value

end TagTemplate.Config
