import TagTemplate.Delimiters
import TagTemplate.Text.Blank
import TagTemplate.Text.Digit
import TagTemplate.Text.Split
import TagTemplate.Token

/-!
# From text to tokens

A template is read from left to right in one of three modes: between the tags, inside a tag, or inside
a short comment. A step skips the blanks that its mode allows, then reads one token and says in which
mode to go on. The rest of the text is shorter after every step, so reading ends; it ends with a token
for the end of the text, or with the first construct that cannot be completed.
-/

namespace TagTemplate

inductive ScanError.Cause where
  | unclosedTag (expected : String)
  | unclosedComment (expected : String)
  | unexpectedCharacter (c : Char)
deriving DecidableEq, Repr

def ScanError.Cause.text : ScanError.Cause → String
  | .unclosedTag expected => "Unclosed tag, expected '" ++ expected ++ "'"
  | .unclosedComment expected => "Unclosed comment, expected '" ++ expected ++ "'"
  | .unexpectedCharacter c => "Unexpected character in tag: " ++ Text.quoted (String.singleton c)

/-- A text that is not a list of tokens: what is wrong and where. An unclosed construct is blamed on
its opening delimiter, a stray character on itself. -/
structure ScanError where
  cause : ScanError.Cause
  place : Location
deriving DecidableEq, Repr

def ScanError.message (error : ScanError) : String :=
  error.cause.text ++ " at " ++ error.place.text

/-! ### The lexemes of a tag

Each reader splits a text that starts with its lexeme into the lexeme and the rest.
-/

namespace Lexeme

/-- A letter or underscore of ASCII. -/
def isNameStart (c : Char) : Bool := c.isAlpha || c == '_'

def isNamePart (c : Char) : Bool := c.isAlphanum || c == '_'

def name? : List Char → Option (List Char × List Char)
  | [] => none
  | c :: s => if isNameStart c then some (c :: s.takeWhile isNamePart, s.dropWhile isNamePart) else none

def integer? (s : List Char) : Option (List Char × List Char) :=
  match s.takeWhile Text.isDigit with
  | [] => none
  | digits => some (digits, s.dropWhile Text.isDigit)

def float? (s : List Char) : Option (List Char × List Char) :=
  match integer? s with
  | some (whole, '.' :: s') => (integer? s').map fun (fraction, rest) => (whole ++ '.' :: fraction, rest)
  | _ => none

/-- A string literal after its opening quote, up to and with the first quote of that kind that no
backslash stands before. A backslash takes any next character with it, a line feed included. -/
def stringTail? (quote : Char) : List Char → Option (List Char × List Char)
  | [] => none
  | [c] => if c = quote then some ([c], []) else none
  | c :: c' :: s =>
      if c = quote then some ([c], c' :: s)
      else if c = '\\' then (stringTail? quote s).map fun (tail, rest) => (c :: c' :: tail, rest)
      else (stringTail? quote (c' :: s)).map fun (tail, rest) => (c :: tail, rest)

def string? : List Char → Option (List Char × List Char)
  | [] => none
  | c :: s =>
      if c = '"' ∨ c = '\'' then (stringTail? c s).map fun (tail, rest) => (c :: tail, rest) else none

def longSymbols : List (List Char) :=
  [['=', '='], ['!', '='], ['<', '='], ['>', '='], ['/', '/'], ['*', '*']]

def shortSymbols : List Char :=
  ['-', '+', '*', '/', '%', '<', '>', '=', '!', '(', ')', '[', ']', '{', '}', '.', ',', ':', '|', '~']

def symbol? (s : List Char) : Option (List Char × List Char) :=
  if longSymbols.contains (s.take 2) then some (s.take 2, s.drop 2)
  else
    match s with
    | [] => none
    | c :: s' => if shortSymbols.contains c then some ([c], s') else none

/-- The lexeme at the start of a text: the first of the five kinds, in this order, that fits. -/
def read? (s : List Char) : Option (TokenKind × List Char × List Char) :=
  ((name? s).map (TokenKind.name, ·)).or <|
  ((float? s).map (TokenKind.float, ·)).or <|
  ((integer? s).map (TokenKind.integer, ·)).or <|
  ((string? s).map (TokenKind.string, ·)).or <|
  (symbol? s).map (TokenKind.symbol, ·)

theorem length_name? {s value rest : List Char} (h : name? s = some (value, rest)) :
    rest.length < s.length := by
  cases s with
  | nil => simp [name?] at h
  | cons c s =>
      simp only [name?] at h
      split at h <;> simp at h
      rw [← h.2, List.length_cons]
      have := (List.dropWhile_suffix isNamePart (l := s)).length_le
      omega

theorem length_integer? {s value rest : List Char} (h : integer? s = some (value, rest)) :
    rest.length < s.length := by
  unfold integer? at h
  have hs := List.takeWhile_append_dropWhile (p := Text.isDigit) (l := s)
  split at h
  · simp at h
  · rename_i hdigits
    simp only [Option.some.injEq, Prod.mk.injEq] at h
    rw [← h.2]
    have := congrArg List.length hs
    rw [List.length_append] at this
    have hpos := List.length_pos_iff.2 hdigits
    omega

theorem length_float? {s value rest : List Char} (h : float? s = some (value, rest)) :
    rest.length < s.length := by
  unfold float? at h
  split at h
  · rename_i whole s' hwhole
    obtain ⟨⟨fraction, rest'⟩, hfraction, hrest⟩ := Option.map_eq_some_iff.1 h
    have h₁ := length_integer? hwhole
    have h₂ := length_integer? hfraction
    simp only [Prod.mk.injEq] at hrest
    rw [← hrest.2]
    simp only [List.length_cons] at h₁
    omega
  · simp at h

theorem length_stringTail? {quote : Char} {s value rest : List Char}
    (h : stringTail? quote s = some (value, rest)) : rest.length < s.length := by
  fun_induction stringTail? quote s generalizing value rest with
  | case1 => simp at h
  | case2 => simp at h; simp [← h.2]
  | case3 => simp at h
  | case4 => simp at h; simp [← h.2]
  | case5 c' s hquote ih =>
      obtain ⟨⟨tail, rest'⟩, htail, heq⟩ := Option.map_eq_some_iff.1 h
      simp only [Prod.mk.injEq] at heq
      have := ih htail
      simp only [List.length_cons, ← heq.2] at this ⊢
      omega
  | case6 c c' s hquote hescape ih =>
      obtain ⟨⟨tail, rest'⟩, htail, heq⟩ := Option.map_eq_some_iff.1 h
      simp only [Prod.mk.injEq] at heq
      have := ih htail
      simp only [List.length_cons, ← heq.2] at this ⊢
      omega

theorem length_string? {s value rest : List Char} (h : string? s = some (value, rest)) :
    rest.length < s.length := by
  cases s with
  | nil => simp [string?] at h
  | cons c s =>
      simp only [string?] at h
      split at h
      · obtain ⟨⟨tail, rest'⟩, htail, heq⟩ := Option.map_eq_some_iff.1 h
        simp only [Prod.mk.injEq] at heq
        have := length_stringTail? htail
        simp only [List.length_cons, ← heq.2]
        omega
      · simp at h

theorem length_symbol? {s value rest : List Char} (h : symbol? s = some (value, rest)) :
    rest.length < s.length := by
  unfold symbol? at h
  split at h
  · rename_i hlong
    cases s with
    | nil => simp [longSymbols] at hlong
    | cons c s =>
        simp only [Option.some.injEq, Prod.mk.injEq] at h
        rw [← h.2, List.length_drop, List.length_cons]
        omega
  · split at h
    · simp at h
    · split at h <;> simp at h
      simp [← h.2]

theorem length_read? {s value rest : List Char} {kind : TokenKind}
    (h : read? s = some (kind, value, rest)) : rest.length < s.length := by
  simp only [read?, Option.or_eq_some_iff, Option.map_eq_some_iff, Prod.mk.injEq] at h
  rcases h with ⟨_, h, _, rfl⟩ | ⟨_, ⟨_, h, _, rfl⟩ | ⟨_, ⟨_, h, _, rfl⟩ | ⟨_, ⟨_, h, _, rfl⟩ | ⟨_, _, h, _, rfl⟩⟩⟩⟩
  · exact length_name? h
  · exact length_float? h
  · exact length_integer? h
  · exact length_string? h
  · exact length_symbol? h

end Lexeme

/-! ### Where constructs open -/

namespace Delimiters

/-- Whether a tag opens right here. Where both opening delimiters stand, the longer one counts. -/
def opensTag (d : Delimiters) (s : List Char) : Bool :=
  d.blockStart.toList.isPrefixOf s &&
    (!d.commentStart.toList.isPrefixOf s || d.commentStart.length ≤ d.blockStart.length)

def opensComment (d : Delimiters) (s : List Char) : Bool :=
  d.commentStart.toList.isPrefixOf s && !d.opensTag s

def opens (d : Delimiters) (s : List Char) : Bool :=
  d.opensTag s || d.opensComment s

end Delimiters

/-! ### One token at a time -/

/-- Where reading stands: between the tags, or inside a construct that opened at a known place. -/
inductive Mode where
  | text
  | tag (opened : Location)
  | comment (opened : Location)
deriving DecidableEq, Repr

/-- What a text starts with: a token, nothing more, or something that fits nowhere. -/
inductive Step where
  | token (kind : TokenKind) (value rest : List Char) (next : Mode)
  | finished
  | failed (cause : ScanError.Cause) (place : Location)
deriving DecidableEq, Repr

def Step.delimiter (kind : TokenKind) (delimiter : String) (s : List Char) (next : Mode) : Step :=
  .token kind delimiter.toList (s.drop delimiter.toList.length) next

/-- The blanks that a mode skips before its next token: only tags have any. -/
def Mode.gap : Mode → List Char → List Char
  | .tag _, s => s.takeWhile Text.isBlank
  | _, _ => []

/-- The next token of a text that starts at `here`, its gap already skipped. -/
def Mode.step (d : Delimiters) (here : Location) : Mode → List Char → Step
  | .text, [] => .finished
  | .text, s =>
      if d.opensTag s then .delimiter .blockBegin d.blockStart s (.tag here)
      else if d.opensComment s then .delimiter .commentBegin d.commentStart s (.comment here)
      else .token .data (Text.splitBefore d.opens s).1 (Text.splitBefore d.opens s).2 .text
  | .tag opened, [] => .failed (.unclosedTag d.blockEnd) opened
  | .tag opened, c :: s =>
      if d.blockEnd.toList.isPrefixOf (c :: s) then .delimiter .blockEnd d.blockEnd (c :: s) .text
      else
        match Lexeme.read? (c :: s) with
        | some (kind, value, rest) => .token kind value rest (.tag opened)
        | none => .failed (.unexpectedCharacter c) here
  | .comment opened, s =>
      if d.commentEnd.toList.isPrefixOf s then .delimiter .commentEnd d.commentEnd s .text
      else
        match Text.splitBefore d.commentEnd.toList.isPrefixOf s with
        | (_, []) => .failed (.unclosedComment d.commentEnd) opened
        | (body, rest) => .token .data body rest (.comment opened)

theorem length_drop_of_isPrefixOf {delimiter : String} (hne : delimiter ≠ "") {s : List Char}
    (h : delimiter.toList.isPrefixOf s = true) : (s.drop delimiter.toList.length).length < s.length := by
  have hpos := Delimiters.length_pos_of_ne hne
  have hle := (List.isPrefixOf_iff_prefix.1 h).length_le
  rw [List.length_drop]
  omega

theorem Mode.length_step {d : Delimiters} {here : Location} {mode next : Mode} {kind : TokenKind}
    {s value rest : List Char} (h : mode.step d here s = .token kind value rest next) :
    rest.length < s.length := by
  cases mode with
  | text =>
      cases s with
      | nil => simp [Mode.step] at h
      | cons c s =>
          simp only [Mode.step] at h
          split at h
          · rename_i hopens
            simp only [Step.delimiter, Step.token.injEq] at h
            rw [← h.2.2.1]
            refine length_drop_of_isPrefixOf d.blockStart_ne ?_
            simp only [Delimiters.opensTag, Bool.and_eq_true] at hopens
            exact hopens.1
          · split at h
            · rename_i hopens
              simp only [Step.delimiter, Step.token.injEq] at h
              rw [← h.2.2.1]
              refine length_drop_of_isPrefixOf d.commentStart_ne ?_
              simp only [Delimiters.opensComment, Bool.and_eq_true] at hopens
              exact hopens.1
            · rename_i htag hcomment
              simp only [Step.token.injEq] at h
              rw [← h.2.2.1]
              refine Text.length_splitBefore_lt (by simp) ?_
              simp [Delimiters.opens, htag, hcomment]
  | tag opened =>
      cases s with
      | nil => simp [Mode.step] at h
      | cons c s =>
          simp only [Mode.step] at h
          split at h
          · rename_i hends
            simp only [Step.delimiter, Step.token.injEq] at h
            rw [← h.2.2.1]
            exact length_drop_of_isPrefixOf d.blockEnd_ne hends
          · split at h
            · rename_i hread
              simp only [Step.token.injEq] at h
              rw [← h.2.2.1]
              exact Lexeme.length_read? hread
            · simp at h
  | comment opened =>
      simp only [Mode.step] at h
      split at h
      · rename_i hends
        simp only [Step.delimiter, Step.token.injEq] at h
        rw [← h.2.2.1]
        exact length_drop_of_isPrefixOf d.commentEnd_ne hends
      · rename_i hends
        split at h
        · simp at h
        · rename_i body rest' hrest hsplit
          simp only [Step.token.injEq] at h
          rw [← h.2.2.1, show rest' = (Text.splitBefore d.commentEnd.toList.isPrefixOf s).2 by rw [hsplit]]
          refine Text.length_splitBefore_lt ?_ (Bool.not_eq_true _ ▸ hends)
          rintro rfl
          simp only [Text.splitBefore, Prod.mk.injEq] at hsplit
          exact hrest hsplit.2.symm

/-! ### The whole text -/

/-- How far reading came: the tokens read, the place reached, and what stopped it there, if anything. -/
structure Scan where
  tokens : List Token
  stop : Location
  error : Option ScanError
deriving DecidableEq, Repr

namespace Scan

def cons (token : Token) (scan : Scan) : Scan :=
  { scan with tokens := token :: scan.tokens }

def outcome (scan : Scan) : Except ScanError (List Token) :=
  match scan.error with
  | none => .ok scan.tokens
  | some error => .error error

end Scan

/-- Reads a text that starts at `start` in the given mode. -/
def Mode.scan (d : Delimiters) (mode : Mode) (start : Location) (s : List Char) : Scan :=
  match _h : mode.step d (start.after (mode.gap s)) (s.drop (mode.gap s).length) with
  | .finished => ⟨[⟨.eof, "", start.after (mode.gap s)⟩], start.after (mode.gap s), none⟩
  | .failed cause place => ⟨[], start.after (mode.gap s), some ⟨cause, place⟩⟩
  | .token kind value rest next =>
      (next.scan d ((start.after (mode.gap s)).after value) rest).cons
        ⟨kind, String.ofList value, start.after (mode.gap s)⟩
termination_by s.length
decreasing_by
  have := Mode.length_step _h
  rw [List.length_drop] at this
  omega

def Delimiters.scan (d : Delimiters) (text : String) : Scan :=
  Mode.text.scan d Location.start text.toList

end TagTemplate
