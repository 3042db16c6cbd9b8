import TagTemplate.Lexer.State
import TagTemplate.Proofs.Coverage
import TagTemplate.Proofs.Location
import TagTemplate.Proofs.Truncation

/-!
# Lexers that are used again

Whatever a lexer was given before, and wherever it broke off, it reads the next text as a new lexer does. What it keeps
afterwards belongs to that text alone: the place that it reached, and tokens that fill the text up to there.
-/

namespace TagTemplate

open Text (isBlank)

/-! ### Tokens that fill a text up to a place -/

/-- Whether a tag is open behind a token of a kind, if it is known whether one was open before it. -/
def TokenKind.tagAfter (inTag : Bool) : TokenKind → Bool
  | .blockBegin => true
  | .blockEnd => false
  | _ => inTag

def Mode.inTag : Mode → Bool
  | .tag _ => true
  | _ => false

/-- Only blanks stand from one offset of a text up to another, and nothing at all unless a tag is open there. -/
structure Text.IsGap (text : String) (inTag : Bool) (start stop : Nat) : Prop where
  start_le : start ≤ stop
  isBlank : ∀ c ∈ slice text start stop, isBlank c = true
  eq_of_text : inTag = false → start = stop

/-- Tokens fill a text from one offset up to another: each holds the characters at its place, and what stands between
two of them, before the first and behind the last are gaps. -/
def Token.Fill (text : String) (stop : Nat) : Bool → Nat → List Token → Prop
  | inTag, reached, [] => Text.IsGap text inTag reached stop
  | inTag, reached, token :: tokens =>
      Text.IsGap text inTag reached token.place.offset ∧
        token.value.toList = Text.slice text token.place.offset token.stop ∧
        Fill text stop (token.kind.tagAfter inTag) token.stop tokens

theorem Text.isGap_refl (text : String) (inTag : Bool) (offset : Nat) : IsGap text inTag offset offset := by
  refine ⟨le_refl offset, ?_, fun _ => rfl⟩
  have hempty : slice text offset offset = [] := by
    rw [slice, List.drop_eq_nil_iff, List.length_take]
    exact Nat.min_le_left _ _
  simp [hempty]

namespace Mode

variable {d : Delimiters} {mode next : Mode} {here start : Location} {kind : TokenKind}
  {front s value rest : List Char} {text : String}

theorem inTag_of_step (h : mode.step d here s = .token kind value rest next) :
    next.inTag = kind.tagAfter mode.inTag := by
  cases mode with
  | text =>
      cases s with
      | nil => simp [step] at h
      | cons c s =>
          simp only [step, Step.delimiter] at h
          split at h
          · obtain ⟨rfl, -, -, rfl⟩ := Step.token.inj h
            rfl
          · split at h
            all_goals
              obtain ⟨rfl, -, -, rfl⟩ := Step.token.inj h
              rfl
  | tag opened =>
      cases s with
      | nil => simp [step] at h
      | cons c s =>
          simp only [step, Step.delimiter] at h
          split at h
          · obtain ⟨rfl, -, -, rfl⟩ := Step.token.inj h
            rfl
          · split at h
            · rename_i hread
              obtain ⟨rfl, rfl, rfl, rfl⟩ := Step.token.inj h
              -- a lexeme is neither of the delimiters of its tag
              have hmem := (Lexeme.read?_eq_some_iff.1 hread).2.fits.mem_patterns
              have hkinds : ∀ kind ∈ Lexeme.patterns, kind.tagAfter true = true := by decide
              exact (hkinds _ hmem).symm
            · cases h
  | comment opened =>
      simp only [step, Step.delimiter] at h
      split at h
      · obtain ⟨rfl, -, -, rfl⟩ := Step.token.inj h
        rfl
      · split at h
        · cases h
        · obtain ⟨rfl, -, -, rfl⟩ := Step.token.inj h
          rfl

theorem isGap_gap (mode : Mode) (htext : text.toList = front ++ s) (hstart : start.offset = front.length) :
    Text.IsGap text mode.inTag start.offset (start.after (mode.gap s)).offset := by
  obtain ⟨rest, hrest⟩ := gap_isPrefix mode s
  have hslice : Text.slice text start.offset (start.after (mode.gap s)).offset = mode.gap s := by
    refine Text.slice_eq front (mode.gap s) rest (by rw [htext, hrest]) hstart ?_
    rw [Location.offset_after, hstart]
  refine ⟨?_, ?_, ?_⟩
  · rw [Location.offset_after]
    exact Nat.le_add_right _ _
  · rw [hslice]
    cases mode with
    | text | comment => simp [gap]
    | tag opened => exact (Text.isRun_takeWhile isBlank s).all
  · intro htag
    cases mode with
    | text | comment => rfl
    | tag opened => cases htag

/-- Reading fills the text up to the place that it reaches, whether or not it ends there with a mistake. -/
theorem fill_scan (mode : Mode) (htext : text.toList = front ++ s) (hstart : start.offset = front.length) :
    Token.Fill text (mode.scan d start s).stop.offset mode.inTag start.offset (mode.scan d start s).tokens := by
  fun_induction scan d mode start s generalizing front with
  | case1 mode start s hstep =>
      have hempty := Text.isGap_refl text mode.inTag (start.after (mode.gap s)).offset
      refine ⟨isGap_gap mode htext hstart, ?_, hempty⟩
      simp [Token.stop, Text.slice]
  | case2 mode start s cause place hstep => exact isGap_gap mode htext hstart
  | case3 mode start s kind value rest next hstep ih =>
      have hfront : text.toList = front ++ mode.gap s ++ (value ++ rest) := by
        rw [htext, List.append_assoc, append_of_step_eq_token hstep]
      have hhere : (start.after (mode.gap s)).offset = (front ++ mode.gap s).length := by
        rw [Location.offset_after, hstart, List.length_append]
      have hbehind := @ih (front ++ mode.gap s ++ value) (by rw [hfront, List.append_assoc _ value])
        (by rw [Location.offset_after, hhere, ← List.length_append])
      have hstop : Token.stop ⟨kind, String.ofList value, start.after (mode.gap s)⟩ =
          ((start.after (mode.gap s)).after value).offset := by
        rw [Token.stop, Location.offset_after _ value, String.length_ofList]
      refine ⟨isGap_gap mode htext hstart, ?_, ?_⟩
      · rw [hstop, String.toList_ofList]
        refine (Text.slice_eq _ value rest hfront hhere ?_).symm
        rw [Location.offset_after _ value, hhere]
      · rw [hstop, ← inTag_of_step hstep]
        exact hbehind

end Mode

/-! ### The lexer reads as if it had no state -/

/-- What a lexer makes of its text if reading goes as it does. -/
def Scan.lexed (scan : Scan) (lexer : Lexer) : Lexed :=
  ⟨scan.outcome, { lexer with place := scan.stop, tokens := scan.tokens }⟩

namespace Lexer

variable {lexer : Lexer} {mode : Mode}

theorem skipGap_eq (lexer : Lexer) (mode : Mode) :
    lexer.skipGap mode = { lexer with place := lexer.place.after (mode.gap lexer.remaining) } := by
  rw [skipGap, advance, ← List.prefix_iff_eq_take.1 (Mode.gap_isPrefix mode lexer.remaining)]

theorem step_skipGap {d : Delimiters} (lexer : Lexer) (mode : Mode) :
    mode.step d (lexer.skipGap mode).place (lexer.skipGap mode).remaining =
      mode.step d (lexer.place.after (mode.gap lexer.remaining))
        (lexer.remaining.drop (mode.gap lexer.remaining).length) := by
  have hremaining : (lexer.skipGap mode).remaining = lexer.remaining.drop (mode.gap lexer.remaining).length :=
    remaining_advance _ _
  rw [hremaining, skipGap_eq]

/-- The token that is made of the next characters of the text is the one that was recognised there. -/
theorem emit_eq {kind : TokenKind} {value rest : List Char} (h : lexer.remaining = value ++ rest) :
    lexer.emit kind (lexer.remaining.length - rest.length) =
      { lexer with place := lexer.place.after value
                   tokens := lexer.tokens ++ [⟨kind, String.ofList value, lexer.place⟩] } := by
  have htake : lexer.remaining.take (lexer.remaining.length - rest.length) = value := by
    rw [h, List.length_append, Nat.add_sub_cancel, List.take_left]
  rw [emit, htake]
  change { lexer with place := lexer.place.after (lexer.remaining.take _), tokens := _ } = _
  rw [htake]

/-- Reading on adds to what the lexer has already what is read from its place. -/
theorem run_eq_lexed (lexer : Lexer) (mode : Mode) :
    lexer.run mode =
      ((mode.scan lexer.delimiters lexer.place lexer.remaining).behind lexer.tokens).lexed lexer := by
  fun_induction Lexer.run lexer mode with
  | case1 lexer mode hstep skipped =>
      rw [step_skipGap] at hstep
      rw [Mode.scan_eq, hstep]
      simp only [skipped, skipGap_eq]
      rfl
  | case2 lexer mode cause place hstep =>
      rw [step_skipGap] at hstep
      rw [Mode.scan_eq, hstep, skipGap_eq, Scan.behind, List.append_nil]
      rfl
  | case3 lexer mode kind value rest next hstep ih =>
      obtain ⟨hvalue, -⟩ := Mode.of_step_eq_token hstep
      have hemit : (lexer.skipGap mode).emit kind ((lexer.skipGap mode).remaining.length - rest.length) = _ :=
        emit_eq hvalue
      have hremaining : ((lexer.skipGap mode).emit kind
          ((lexer.skipGap mode).remaining.length - rest.length)).remaining = rest := by
        rw [remaining_emit, hvalue, List.length_append, Nat.add_sub_cancel, List.drop_left]
      rw [hremaining, hemit, skipGap_eq] at ih
      rw [step_skipGap] at hstep
      -- Only the reading on the right takes a step; the one behind the token stays as the induction leaves it.
      have hscan := Mode.scan_eq (d := lexer.delimiters) mode lexer.place lexer.remaining
      rw [hstep] at hscan
      rw [hemit, skipGap_eq, ih, hscan]
      simp only [Scan.lexed, Scan.behind, Scan.cons, Scan.outcome, List.append_assoc, List.singleton_append]

theorem remaining_load (lexer : Lexer) (text : String) : (lexer.load text).remaining = text.toList := by
  have hlength : (lexer.load text).length = text.toList.length := String.length_toList.symm
  rw [remaining, hlength]
  exact List.take_length

/-- A text is read as one reads that has nothing but the delimiters. -/
theorem tokenize_eq (lexer : Lexer) (text : String) :
    lexer.tokenize text = (lexer.delimiters.scan text).lexed (lexer.load text) := by
  rw [tokenize, run_eq_lexed, remaining_load]
  rfl

end Lexer

/-! ### Where reading stops -/

/-- How far reading gets, by what comes of it: to the end of a text that can be read, and of one that ends inside of a
tag; behind the delimiter of a comment that is not closed; up to a character that fits nowhere. -/
def Delimiters.Reaches (d : Delimiters) (text : String) (stop : Location) : Except ScanError (List Token) → Prop
  | .ok _ => stop.offset = text.length
  | .error ⟨.unclosedTag _, _⟩ => stop.offset = text.length
  | .error ⟨.unclosedComment _, place⟩ =>
      stop.offset = place.offset + d.commentStart.length ∧
        Text.slice text place.offset stop.offset = d.commentStart.toList
  | .error ⟨.unexpectedCharacter c, place⟩ => stop = place ∧ text.toList[stop.offset]? = some c

namespace Delimiters

variable {d : Delimiters} {text : String} {parts : List Part} {rest : List Char} {error : ScanError}

theorem Reads.reaches_of_unfinished (hreads : d.Reads parts text.toList rest)
    (h : d.Unfinished (Location.start.after (Part.sources d parts)) rest error) :
    d.Reaches text (d.scan text).stop (.error error) := by
  have htext := hreads.eq_append
  have hscan : (d.scan text).stop = (Mode.text.scan d (Location.start.after (Part.sources d parts)) rest).stop := by
    rw [Delimiters.scan, Mode.scan_of_reads hreads]
    rfl
  cases h with
  | comment hwins hnone =>
      have hstop : (d.scan text).stop =
          (Location.start.after (Part.sources d parts)).after d.commentStart.toList := by
        rw [hscan, Mode.scan_unclosedComment hwins hnone]
      refine ⟨?_, Text.slice_eq _ _ _ htext (Location.offset_start_after _) ?_⟩
      · rw [hstop, Location.offset_after, String.length_toList]
      · rw [hstop, Location.offset_after, Location.offset_start_after]
  | tag hwins hholds hgap =>
      have hstop : (d.scan text).stop = Location.start.after text.toList := by
        rw [hscan, Mode.scan_unclosedTag hwins hholds hgap, htext, Location.after_append _ (Part.sources d parts)]
      change (d.scan text).stop.offset = text.length
      rw [hstop, Location.offset_start_after, String.length_toList]
  | @character lexemes gap c rest hwins hholds hgap hend hmisses =>
      have hstop : (d.scan text).stop = (Location.start.after (Part.sources d parts)).after
          (d.blockStart.toList ++ (Piece.sources lexemes ++ gap)) := by
        rw [hscan, Mode.scan_unexpectedCharacter hwins hholds hgap hend hmisses]
      refine ⟨hstop, ?_⟩
      rw [hstop, ← Location.after_append, Location.offset_start_after, htext]
      simp only [← List.append_assoc]
      rw [List.getElem?_append_right (le_refl _), Nat.sub_self]
      rfl

theorem reaches_scan (d : Delimiters) (text : String) :
    d.Reaches text (d.scan text).stop (d.scan text).outcome := by
  obtain ⟨parts, rest, hreads, rfl | ⟨error, hunfinished⟩⟩ := d.reads_or_unfinished Location.start text.toList
  · have htext := hreads.eq_append
    rw [List.append_nil] at htext
    have hscan : d.scan text = ⟨Piece.tokens Location.start (Part.allPieces d parts) ++
        [⟨.eof, "", Location.start.after text.toList⟩], Location.start.after text.toList, none⟩ := by
      rw [Delimiters.scan, Mode.scan_of_reads hreads, Mode.scan_finished, ← htext]
      rfl
    rw [hscan]
    exact (Location.offset_start_after _).trans String.length_toList
  · have hreaches := hreads.reaches_of_unfinished hunfinished
    rwa [← scan_eq_error_iff.2 ⟨parts, rest, hreads, hunfinished⟩] at hreaches

end Delimiters

/-! ### Lexers after a text -/

namespace Lexer

/-- A lexer that has read a text, or has begun to: its place is one of that text, with the line and column that the
text before it gives, and its tokens fill the text up to there. -/
structure Behind (lexer : Lexer) (text : String) : Prop where
  text_eq : lexer.text = text
  length_eq : lexer.length = text.length
  exact : lexer.place.Exact text.toList
  fill : Token.Fill text lexer.place.offset false 0 lexer.tokens

theorem behind_tokenize (lexer : Lexer) (text : String) : (lexer.tokenize text).lexer.Behind text := by
  rw [tokenize_eq]
  refine ⟨rfl, rfl, lexer.delimiters.exact_stop_scan text, ?_⟩
  exact @Mode.fill_scan lexer.delimiters Location.start [] text.toList text .text rfl rfl

theorem outcome_tokenize (lexer : Lexer) (text : String) :
    (lexer.tokenize text).outcome = (lexer.delimiters.scan text).outcome := by
  rw [tokenize_eq]
  rfl

theorem delimiters_tokenize (lexer : Lexer) (text : String) :
    (lexer.tokenize text).lexer.delimiters = lexer.delimiters := by
  rw [tokenize_eq]
  rfl

theorem reaches_tokenize (lexer : Lexer) (text : String) :
    lexer.delimiters.Reaches text (lexer.tokenize text).lexer.place (lexer.tokenize text).outcome := by
  rw [tokenize_eq]
  exact lexer.delimiters.reaches_scan text

/-- Of texts that are read one after the other, each is read as a new lexer reads it, whether those before it could be
read or not, and the state of the lexer afterwards belongs to that text: its place is exact, its tokens fill the text up
to there, and how far it came is decided by what came of the text. -/
theorem tokenizeAll_as_new (lexer : Lexer) (texts : List String) :
    List.Forall₂
      (fun text lexed =>
        lexed.outcome = ((ofDelimiters lexer.delimiters).tokenize text).outcome ∧
          lexed.lexer.delimiters = lexer.delimiters ∧
          lexed.lexer.Behind text ∧
          lexer.delimiters.Reaches text lexed.lexer.place lexed.outcome ∧
          ∀ tokens, lexed.outcome = .ok tokens → lexed.lexer.tokens = tokens)
      texts (lexer.tokenizeAll texts) := by
  induction texts generalizing lexer with
  | nil => exact .nil
  | cons text texts ih =>
      refine .cons ⟨?_, delimiters_tokenize lexer text, behind_tokenize lexer text, reaches_tokenize lexer text, ?_⟩ ?_
      · rw [outcome_tokenize, outcome_tokenize]
        rfl
      · intro tokens htokens
        rw [tokenize_eq] at htokens ⊢
        change (lexer.delimiters.scan text).outcome = .ok tokens at htokens
        change (lexer.delimiters.scan text).tokens = tokens
        rw [Scan.outcome] at htokens
        split at htokens
        · exact Except.ok.inj htokens
        · cases htokens
      · have hnext := ih (lexer.tokenize text).lexer
        rwa [delimiters_tokenize] at hnext

example :
    ((ofDelimiters .standard).tokenizeAll ["\x7b# b", "f"]).map
        (fun lexed => (lexed.lexer.place, lexed.lexer.tokens.map Token.kind)) =
      [(⟨2, 1, 3⟩, [.commentBegin]), (⟨1, 1, 2⟩, [.data, .eof])] := by
  cbv

end Lexer

end TagTemplate
