import TagTemplate.Fault

/-!
# Cursors over a list of tokens

A cursor reads a region of a token list: it starts at one index and is bounded by another. At the bound
it sees the token that stands there, a delimiter as a rule, or the end of the text, but never takes it.
Several cursors may read regions of one list, and none of them moves another.

Indices are integers. A negative one counts from the end of the list, and there is nothing before the
first token.
-/

namespace TagTemplate

/-- A reading position within a region of a token list. -/
structure Cursor where
  tokens : Array Token
  start : Int
  position : Int
  bound : Int
deriving DecidableEq, Repr

namespace Cursor

def region (tokens : Array Token) (start bound : Int) : Cursor :=
  ⟨tokens, start, start, bound⟩

def whole (tokens : Array Token) : Cursor :=
  region tokens 0 tokens.size

def sub (cursor : Cursor) (start bound : Int) : Cursor :=
  region cursor.tokens start bound

def room (cursor : Cursor) : Nat :=
  (cursor.bound - cursor.position).toNat

def endToken (tokens : Array Token) : Token :=
  match tokens.back? with
  | none => ⟨.eof, "", Location.start⟩
  | some last => ⟨.eof, "", { last.place with offset := last.place.offset + last.value.length }⟩

/-- The token at an index, which may be negative. -/
def tokenAt? (tokens : Array Token) (index : Int) : Except Fault Token :=
  let index' := if index < 0 then index + tokens.size else index
  if index' < 0 then .error (.defect .indexOutOfRange)
  else .ok (tokens[index'.toNat]?.getD (endToken tokens))

/-- Actions of a cursor. One that fails leaves the cursor where the failure met it. -/
abbrev Action := EStateM Fault Cursor

/-- The token at an index, or the one at the bound when the index is beyond it. -/
def look (index : Int) : Action Token := do
  let cursor ← get
  match tokenAt? cursor.tokens (min index cursor.bound) with
  | .ok token => return token
  | .error fault => throw fault

def current : Action Token := do
  look (← get).position

def peek (offset : Int) : Action Token := do
  look ((← get).position + offset)

/-- Whether there is nothing more to take: at the bound, or at the end of the text. -/
def atEnd : Action Bool := do
  let cursor ← get
  if cursor.bound ≤ cursor.position then return true
  return (← current).kind == .eof

def forward (cursor : Cursor) : Cursor :=
  { cursor with position := cursor.position + 1 }

/-- Takes the token at the cursor, whatever it is; at the end it is only looked at. -/
def advance : Action Token := do
  let token ← current
  unless ← atEnd do modify forward
  return token

def take? (kinds : List TokenKind) : Action (Option Token) := do
  if ← atEnd then return none
  if kinds.contains (← current).kind then return some (← advance)
  return none

def takeName? (names : List String) : Action (Option Token) := do
  let token ← current
  if ← atEnd then return none
  if token.kind == .name && names.contains token.value then return some (← advance)
  return none

def complain (kind : SyntaxError.Kind) (complaint : Complaint) : Action SyntaxError := do
  return ⟨kind, complaint, ← current⟩

def refuse {α : Type} (kind : SyntaxError.Kind) (complaint : Complaint) : Action α := do
  throw (.user (.grammar (← complain kind complaint)))

/-- Takes the token at the cursor, which has to be of the given kind. Without a complaint of its own the
refusal names both kinds. -/
def expect (kind : TokenKind) (complaint : Option Complaint) : Action Token := do
  match ← take? [kind] with
  | some token => return token
  | none => do
      let found ← current
      refuse .general (complaint.getD (.expectedToken kind found.kind))

/-- Looks for a tag with one of the given names, for as many steps as there is room, and says whether one
was found. The cursor stops right after the name. -/
def seek (names : List String) : Nat → Action Bool
  | 0 => return false
  | room + 1 => do
      if ← atEnd then return false
      if (← take? [.blockBegin]).isSome then
        if (← takeName? names).isSome then return true
      unless (← current).kind == .blockBegin do
        let _ ← advance
      seek names room

/-- Skips everything up to a tag with one of the given names, and that name. If there is none, the token
from which skipping started is to blame. -/
def skipUntil (names : List String) : Action Unit := do
  let started ← current
  unless ← seek names (← get).room do
    throw (.grammar .unterminatedBlock (.unexpectedEnd names) started)

/-- The index of the delimiter that closes the tag whose arguments start at `index`, looked for among so
many tokens: it comes before any tag opens and before the end of the text. -/
def closingIndex? (tokens : Array Token) : Int → Nat → Except Fault (Option Int)
  | _, 0 => .ok none
  | index, count + 1 => do
      let token ← tokenAt? tokens index
      if token.kind == .blockEnd then return some index
      if token.kind == .blockBegin || token.kind == .eof then return none
      closingIndex? tokens (index + 1) count

def closing? : Action (Option Int) := do
  let cursor ← get
  let count := (min cursor.bound cursor.tokens.size - cursor.position).toNat
  match closingIndex? cursor.tokens cursor.position count with
  | .ok index => return index
  | .error fault => throw fault

end Cursor

end TagTemplate
