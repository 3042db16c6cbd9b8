/-!
# Reading a YAML document by characters

Character classes of YAML, and a text together with the line and column it has reached, both counted
from zero.
-/

namespace TagTemplate.Yaml

def isSpace (c : Char) : Bool := c == ' ' || c == '\t'

def endsLine (c : Char) : Bool := c == '\n' || c == '\r' || c.toNat == 0x85

/-- A line break: what ends a line, and the two separators of Unicode, which end none. -/
def isBreak (c : Char) : Bool := endsLine c || c.toNat == 0x2028 || c.toNat == 0x2029

def isGap (c : Char) : Bool := isSpace c || isBreak c

def endsWord (c : Char) : Bool := isSpace c || endsLine c

/-- Whether a word ends before a text: the text is over, or goes on with a space or a new line. -/
def atWordEnd (s : List Char) : Bool := s.head?.all endsWord

/-- Whether a text starts with the marker of a document's start or end, three equal characters. -/
def startsWithMarker (c : Char) (s : List Char) : Bool :=
  [c, c, c].isPrefixOf s && atWordEnd (s.drop 3)

def marksDocument (line : List Char) : Bool :=
  startsWithMarker '-' line || startsWithMarker '.' line

def isFlowIndicator (c : Char) : Bool :=
  c == ',' || c == '[' || c == ']' || c == '{' || c == '}'

def isAllowed (c : Char) : Bool :=
  c == '\t' || c == '\n' || c == '\r' || (0x20 ≤ c.toNat && c.toNat ≤ 0x7E) || c.toNat == 0x85 ||
    (0xA0 ≤ c.toNat && c.toNat ≤ 0xFFFD) || 0x10000 ≤ c.toNat

def digit? (base : Nat) (c : Char) : Option Nat :=
  let value? :=
    if '0' ≤ c && c ≤ '9' then some (c.toNat - 48)
    else if 'a' ≤ c && c ≤ 'f' then some (c.toNat - 87)
    else if 'A' ≤ c && c ≤ 'F' then some (c.toNat - 55)
    else none
  value?.filter (· < base)

def byteOrderMark : Char := Char.ofNat 0xFEFF

structure Mark where
  index : Nat
  line : Nat
  column : Nat
deriving DecidableEq, Repr

/-- The place after a character. Only the line feed and the carriage return count as lines, and a mark of
the byte order takes no column. -/
def Mark.after (mark : Mark) (c : Char) : Mark :=
  if c == '\n' || c == '\r' then ⟨mark.index + 1, mark.line + 1, 0⟩
  else if c == byteOrderMark then ⟨mark.index + 1, mark.line, mark.column⟩
  else ⟨mark.index + 1, mark.line, mark.column + 1⟩

/-- What is left of a document, and its place. -/
structure Input where
  rest : List Char
  mark : Mark
deriving DecidableEq, Repr

namespace Input

/-- A whole document, without the mark of the byte order that it may start with. -/
def ofText (text : String) : Input :=
  let chars := text.toList
  ⟨if chars.head? == some byteOrderMark then chars.tail else chars, ⟨0, 0, 0⟩⟩

def next (input : Input) : Input :=
  match input.rest with
  | [] => input
  | c :: rest => ⟨rest, input.mark.after c⟩

def skip (input : Input) : Nat → Input
  | 0 => input
  | count + 1 => input.next.skip count

def atMarker (input : Input) (c : Char) : Bool :=
  input.mark.column == 0 && startsWithMarker c input.rest

end Input

end TagTemplate.Yaml
