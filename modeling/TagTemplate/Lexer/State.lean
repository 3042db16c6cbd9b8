import TagTemplate.Lexer

/-!
# Lexers with a state

One lexer can be given one text after another. It keeps the text that it was given last, how far it came in that text
and the tokens that it found there, also when the text could not be read. The next text starts all of it anew.
-/

namespace TagTemplate

/-- A lexer: its delimiters, the text that it was given last and the length of that text, the place that it reached,
and the tokens before that place. -/
structure Lexer where
  delimiters : Delimiters
  text : String
  length : Nat
  place : Location
  tokens : List Token
deriving DecidableEq

/-- What came of a text: its tokens or a mistake in it, and the lexer afterwards. -/
structure Lexed where
  outcome : Except ScanError (List Token)
  lexer : Lexer

namespace Lexer

def ofDelimiters (d : Delimiters) : Lexer :=
  ⟨d, "", 0, Location.start, []⟩

def load (lexer : Lexer) (text : String) : Lexer :=
  { lexer with text := text, length := text.length, place := Location.start, tokens := [] }

def remaining (lexer : Lexer) : List Char :=
  (lexer.text.toList.take lexer.length).drop lexer.place.offset

/-- Goes on by so many characters, but not beyond the end. -/
def advance (lexer : Lexer) (count : Nat) : Lexer :=
  { lexer with place := lexer.place.after (lexer.remaining.take count) }

def emit (lexer : Lexer) (kind : TokenKind) (size : Nat) : Lexer :=
  let token : Token := ⟨kind, String.ofList (lexer.remaining.take size), lexer.place⟩
  ({ lexer with tokens := lexer.tokens ++ [token] } : Lexer).advance size

def skipGap (lexer : Lexer) (mode : Mode) : Lexer :=
  lexer.advance (mode.gap lexer.remaining).length

theorem remaining_advance (lexer : Lexer) (count : Nat) :
    (lexer.advance count).remaining = lexer.remaining.drop count := by
  have hoffset : (lexer.advance count).place.offset = lexer.place.offset + min count lexer.remaining.length := by
    rw [advance, Location.offset_after, List.length_take]
  rw [remaining, hoffset, ← List.drop_drop]
  change lexer.remaining.drop _ = _
  by_cases hcount : count ≤ lexer.remaining.length
  · rw [Nat.min_eq_left hcount]
  · rw [Nat.min_eq_right (by omega), List.drop_length, List.drop_eq_nil_of_le (by omega)]

theorem remaining_emit (lexer : Lexer) (kind : TokenKind) (size : Nat) :
    (lexer.emit kind size).remaining = lexer.remaining.drop size := by
  rw [emit, remaining_advance]
  rfl

def run (lexer : Lexer) (mode : Mode) : Lexed :=
  match _h : mode.step lexer.delimiters (lexer.skipGap mode).place (lexer.skipGap mode).remaining with
  | .finished =>
      let lexer := (lexer.skipGap mode).emit .eof 0
      ⟨.ok lexer.tokens, lexer⟩
  | .failed cause place => ⟨.error ⟨cause, place⟩, lexer.skipGap mode⟩
  | .token kind _ rest next =>
      ((lexer.skipGap mode).emit kind ((lexer.skipGap mode).remaining.length - rest.length)).run next
termination_by lexer.remaining.length
decreasing_by
  have hrest := Mode.length_step _h
  have hgap : (lexer.skipGap mode).remaining.length ≤ lexer.remaining.length := by
    rw [skipGap, remaining_advance, List.length_drop]
    omega
  rw [remaining_emit, List.length_drop]
  omega

def tokenize (lexer : Lexer) (text : String) : Lexed :=
  (lexer.load text).run .text

def tokenizeAll (lexer : Lexer) : List String → List Lexed
  | [] => []
  | text :: texts => lexer.tokenize text :: (lexer.tokenize text).lexer.tokenizeAll texts

end Lexer

end TagTemplate
