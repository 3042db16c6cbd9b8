import TagTemplate.Text.Quoted

/-!
# Tokens

A template is read as a list of tokens. Every token keeps the place where it starts, so that whatever
goes wrong later can be reported at its line and column.
-/

namespace TagTemplate

/-- A place in a template: the number of characters before it, and its line and column from 1. -/
structure Location where
  offset : Nat
  line : Nat
  column : Nat
deriving DecidableEq, Repr

namespace Location

def start : Location := ⟨0, 1, 1⟩

/-- The place after one character: only a line feed starts a line. -/
def next (place : Location) (c : Char) : Location :=
  if c = '\n' then ⟨place.offset + 1, place.line + 1, 1⟩
  else ⟨place.offset + 1, place.line, place.column + 1⟩

def after (place : Location) (s : List Char) : Location :=
  s.foldl next place

def text (place : Location) : String :=
  toString place.line ++ ":" ++ toString place.column

@[simp] theorem after_nil (place : Location) : place.after [] = place := rfl

@[simp] theorem after_cons (place : Location) (c : Char) (s : List Char) :
    place.after (c :: s) = (place.next c).after s := rfl

@[simp] theorem after_append (place : Location) (s t : List Char) :
    place.after (s ++ t) = (place.after s).after t := by
  simp [after]

theorem offset_after (place : Location) (s : List Char) :
    (place.after s).offset = place.offset + s.length := by
  induction s generalizing place with
  | nil => rfl
  | cons c s ih =>
      rw [after_cons, ih, List.length_cons]
      by_cases h : c = '\n' <;> simp [next, h] <;> omega

theorem offset_start_after (s : List Char) : (start.after s).offset = s.length := by
  rw [offset_after]
  exact Nat.zero_add _

end Location

/-- What a token is: text between the tags, a delimiter, a lexeme of a tag, or the end. -/
inductive TokenKind where
  | data
  | blockBegin
  | blockEnd
  | commentBegin
  | commentEnd
  | name
  | integer
  | float
  | string
  | symbol
  | eof
deriving DecidableEq, Repr

namespace TokenKind

/-- Every kind, in the order in which they are listed above. -/
def all : List TokenKind :=
  [data, blockBegin, blockEnd, commentBegin, commentEnd, name, integer, float, string, symbol, eof]

def label : TokenKind → String
  | data => "DATA"
  | blockBegin => "BLOCK_BEGIN"
  | blockEnd => "BLOCK_END"
  | commentBegin => "COMMENT_BEGIN"
  | commentEnd => "COMMENT_END"
  | name => "NAME"
  | integer => "INTEGER"
  | float => "FLOAT"
  | string => "STRING"
  | symbol => "SYMBOL"
  | eof => "EOF"

def ofLabel? (label : String) : Option TokenKind :=
  all.find? fun kind => kind.label == label

end TokenKind

/-- A stretch of a template, the place where it starts, and what it is. -/
structure Token where
  kind : TokenKind
  value : String
  place : Location
deriving DecidableEq, Repr

/-- A token on a line of its own, for people who look into a token list. -/
def Token.summary (token : Token) : String :=
  "Token(" ++ token.kind.label ++ ", " ++ Text.quoted token.value ++ ", " ++ token.place.text ++ ")"

end TagTemplate
