import TagTemplate.Yaml.Fault
import TagTemplate.Yaml.Input

/-!
# The text of scalars

Plain scalars and those in single or double quotes may run over several lines. A single line break then
stands for a space and each further one for itself; blanks around line breaks do not count.
-/

namespace TagTemplate.Yaml

/-! ### Gaps inside of scalars -/

/-- A gap inside of a scalar: the blanks before its first line break, that break, and the ones after it.
After an escaped break there is no first one, but the gap is folded all the same. -/
structure Gap where
  blanks : List Char
  folded : Bool
  first : List Char
  more : List Char
deriving Repr

namespace Gap

def empty : Gap := ⟨[], false, [], []⟩

def escaped : Gap := ⟨[], true, [], []⟩

def normal (c : Char) : Char :=
  if endsLine c then '\n' else c

def isEmpty (gap : Gap) : Bool := gap.blanks.isEmpty && !gap.folded

def push (gap : Gap) (c : Char) : Gap :=
  if isBreak c then
    if gap.folded then { gap with more := gap.more ++ [normal c] } else ⟨[], true, [normal c], []⟩
  else if gap.folded then gap
  else { gap with blanks := gap.blanks ++ [c] }

def text (gap : Gap) : List Char :=
  if !gap.folded then gap.blanks
  else if gap.first == ['\n'] then if gap.more.isEmpty then [' '] else gap.more
  else gap.first ++ gap.more

end Gap

/-- Reads a gap that consists of line breaks and of the characters that are `blank`. -/
def readGap (blank : Char → Bool) : List Char → Mark → Gap → Gap × Input
  | [], mark, gap => (gap, ⟨[], mark⟩)
  | c :: rest, mark, gap =>
      if isBreak c || blank c then readGap blank rest (mark.after c) (gap.push c)
      else (gap, ⟨c :: rest, mark⟩)

/-- Whether a document would start or end inside of the gap at the beginning of a text. No scalar goes on
behind such a place. -/
def gapMarksDocument (blank : Char → Bool) : List Char → Bool
  | [] => false
  | c :: rest =>
      isBreak c && marksDocument rest || (isBreak c || blank c) && gapMarksDocument blank rest

/-! ### Quoted scalars -/

def escapes : List (Char × Nat) :=
  [('0', 0x00), ('a', 0x07), ('b', 0x08), ('t', 0x09), ('\t', 0x09), ('n', 0x0A), ('v', 0x0B),
   ('f', 0x0C), ('r', 0x0D), ('e', 0x1B), (' ', 0x20), ('"', 0x22), ('/', 0x2F), ('\\', 0x5C),
   ('N', 0x85), ('_', 0xA0), ('L', 0x2028), ('P', 0x2029)]

def codeLetters : List (Char × Nat) := [('x', 2), ('u', 4), ('U', 8)]

/-- The code that a letter and digits of base 16 spell, and the number of characters they take. -/
def readCode : List Char → Option (Nat × Nat)
  | [] => none
  | letter :: s => do
      let count ← codeLetters.lookup letter
      let digits ← (s.take count).mapM (digit? 16)
      if digits.length < count then none
      return (digits.foldl (fun n digit => 16 * n + digit) 0, count + 1)

def readEscape (s : List Char) : Except Fault (Nat × Nat) :=
  match s.head?.bind (List.lookup · escapes) with
  | some code => .ok (code, 1)
  | none =>
      match readCode s with
      | some (code, count) => if 0x10FFFF < code then .error (.character code) else .ok (code, count)
      | none => .error .malformed

/-- Reads a quoted scalar after its opening quote, in so many steps at most, as code points. -/
def readQuoted (quote : Char) : Nat → Input → List Nat → Except Fault (List Nat × Input)
  | 0, _, _ => .error .malformed
  | steps + 1, input, codes =>
      match input.rest with
      | [] => .error .malformed
      | c :: rest =>
          if isGap c then
            if gapMarksDocument isSpace (c :: rest) then .error .malformed
            else
              let (gap, input) := readGap isSpace (c :: rest) input.mark Gap.empty
              readQuoted quote steps input (codes ++ gap.text.map Char.toNat)
          else if c == quote then
            if quote == '\'' && rest.head? == some '\'' then
              readQuoted quote steps (input.skip 2) (codes ++ [c.toNat])
            else .ok (codes, input.next)
          else if quote == '"' && c == '\\' then
            if rest.head?.any isBreak then
              if gapMarksDocument isSpace rest then .error .malformed
              else
                let (gap, input) := readGap isSpace rest.tail (input.skip 2).mark Gap.escaped
                readQuoted quote steps input (codes ++ gap.text.map Char.toNat)
            else do
              let (code, count) ← readEscape rest
              readQuoted quote steps (input.skip (count + 1)) (codes ++ [code])
          else readQuoted quote steps input.next (codes ++ [c.toNat])

/-! ### Plain scalars -/

/-- The characters of a plain scalar up to the end of a word or to an indicator that ends it. A colon is
such an indicator only at the end of a word. -/
def plainRun (inFlow : Bool) : List Char → List Char
  | [] => []
  | c :: rest =>
      if endsWord c || c == ':' && atWordEnd rest || inFlow && isFlowIndicator c then []
      else c :: plainRun inFlow rest

/-- Reads a plain scalar from `margin` on, in so many steps at most, and says whether the gap behind it
has a line break. The gap read last is not yet a part of the text. Tabs do not belong to gaps. -/
def readPlain (inFlow : Bool) (margin : Int) :
    Nat → Input → Gap → List Char → List Char × Input × Bool
  | 0, input, gap, text => (text, input, gap.folded)
  | steps + 1, input, gap, text =>
      let run := plainRun inFlow input.rest
      if input.rest.head? == some '#' || run.isEmpty then (text, input, gap.folded)
      else
        let text := text ++ gap.text ++ run
        let behind := input.skip run.length
        let (gap, input) := readGap (· == ' ') behind.rest behind.mark Gap.empty
        if gap.isEmpty || gapMarksDocument (· == ' ') behind.rest ||
            !inFlow && input.mark.column < margin then
          (text, input, gap.folded)
        else readPlain inFlow margin steps input gap text

end TagTemplate.Yaml
