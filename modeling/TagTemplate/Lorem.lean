import TagTemplate.Lorem.Corpus
import TagTemplate.Random.Draw

/-!
# Generating filler text

So many words or paragraphs, either the canonical ones, over and over in their order, or a random
choice of words and of sentences. Words are joined by a space and paragraphs by an empty line.
-/

namespace TagTemplate.Lorem

/-- What filler text is made of. -/
inductive Mode where
  | words
  | htmlParagraphs
  | plainParagraphs
deriving DecidableEq, Repr

namespace Mode

def letter : Mode → String
  | words => "w"
  | htmlParagraphs => "p"
  | plainParagraphs => "b"

def ofLetter? : String → Option Mode
  | "w" => some words
  | "p" => some htmlParagraphs
  | "b" => some plainParagraphs
  | _ => none

@[simp] theorem ofLetter?_letter (mode : Mode) : ofLetter? mode.letter = some mode := by
  cases mode <;> rfl

end Mode

def minSentences : Nat := 4

def maxSentences : Nat := 8

def paragraphSeparator : String := "\n\n"

/-- The first so many items of a list that is repeated for ever. -/
def cycle (items : Array String) (count : Nat) : List String :=
  (List.range count).map fun i => items.getD (i % items.size) ""

def randomWord : Draw String :=
  Draw.choice words words_size_pos

/-- A random paragraph: first its length is drawn, then its sentences. -/
def randomParagraph : Draw String := do
  let count ← Draw.between minSentences maxSentences
  return " ".intercalate (← Draw.sample count sentences)

def someWords (count : Nat) (random : Bool) : Draw (List String) :=
  if random then Draw.repeated randomWord count else return cycle words count

def someParagraphs (count : Nat) (random : Bool) : Draw (List String) :=
  if random then Draw.repeated randomParagraph count else return cycle paragraphs count

def Mode.wrap : Mode → String → String
  | .htmlParagraphs, paragraph => "<p>" ++ paragraph ++ "</p>"
  | _, paragraph => paragraph

/-- Filler text of the given length, empty unless the length is positive. -/
def generate (count : Int) (mode : Mode) (random : Bool) : Draw String := do
  if count ≤ 0 then return ""
  else if mode = .words then return " ".intercalate (← someWords count.toNat random)
  else return paragraphSeparator.intercalate ((← someParagraphs count.toNat random).map mode.wrap)

end TagTemplate.Lorem
