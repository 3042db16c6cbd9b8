import TagTemplate.Proofs.Printing

/-!
# Tokens that are written down

Tokens can be written as a text segment by segment: plain text, short comments, and tags with blanks between their
lexemes. Reading the text gives back the tokens. Two characters that meet where one token ends and another begins
are never taken for anything else, be it a percent sign in front of the end of a tag, a brace in front of its start, or
a delimiter in a string.
-/

namespace TagTemplate

open Text (isBlank)

structure Margin where
  blanks : List Char
  all_isBlank : blanks.all isBlank = true

/-- A lexeme as it is when nothing follows it. -/
structure Spelling where
  kind : TokenKind
  value : String
  fits : Lexeme.Fits kind value.toList []

/-- Plain text, a short comment or a tag. In a tag blanks stand before every lexeme but the first, and may stand
beside the delimiters. -/
inductive Segment where
  | data (content : PlainText)
  | comment (body : String) (closesLast : ¬Delimiters.standard.commentEnd.toList <:+: body.toList)
  | blankTag (margin : Margin)
  | tag (before : Margin) (first : Spelling) (more : List (Gap × Spelling)) (behind : Margin)

namespace Segment

def isData : Segment → Bool
  | data _ => true
  | _ => false

def Separate (segment next : Segment) : Prop :=
  segment.isData = true → next.isData = false

instance (segment next : Segment) : Decidable (Separate segment next) :=
  inferInstanceAs (Decidable (_ → _))

def source : Segment → List Char
  | data content => content.text.toList
  | comment body _ =>
      Delimiters.standard.commentStart.toList ++ (body.toList ++ Delimiters.standard.commentEnd.toList)
  | blankTag margin =>
      Delimiters.standard.blockStart.toList ++ (margin.blanks ++ Delimiters.standard.blockEnd.toList)
  | tag before first more behind =>
      Delimiters.standard.blockStart.toList ++ (before.blanks ++ (first.value.toList ++
        (more.flatMap (fun (gap, lexeme) => gap.blanks ++ lexeme.value.toList) ++
          (behind.blanks ++ Delimiters.standard.blockEnd.toList))))

/-- The kinds and values of the tokens of a segment. -/
def words : Segment → List (TokenKind × String)
  | data content => [(.data, content.text)]
  | comment body _ =>
      (.commentBegin, Delimiters.standard.commentStart) ::
        (if body = "" then [] else [(.data, body)]) ++ [(.commentEnd, Delimiters.standard.commentEnd)]
  | blankTag _ => [(.blockBegin, Delimiters.standard.blockStart), (.blockEnd, Delimiters.standard.blockEnd)]
  | tag _ first more _ =>
      (.blockBegin, Delimiters.standard.blockStart) :: (first.kind, first.value) ::
        more.map (fun (_, lexeme) => (lexeme.kind, lexeme.value)) ++ [(.blockEnd, Delimiters.standard.blockEnd)]

def write (segments : List Segment) : String :=
  String.ofList (segments.flatMap source)

/-! ### Segments as parts -/

def lexeme (blanks : List Char) (spelling : Spelling) : Piece :=
  ⟨blanks, spelling.kind, spelling.value.toList⟩

def part : Segment → Part
  | data content => .text content.text.toList
  | comment body _ => .comment body.toList
  | blankTag margin => .tag [] margin.blanks
  | tag before first more behind =>
      .tag (lexeme before.blanks first :: more.map fun (gap, spelling) => lexeme gap.blanks spelling) behind.blanks

variable {segment : Segment} {rest : List Char}

theorem source_part (segment : Segment) : segment.part.source .standard = segment.source := by
  cases segment with
  | data content => exact Part.source_text _ _
  | comment body closesLast => exact Part.source_comment _ _
  | blankTag margin => exact Part.source_tag _ _ _
  | tag before first more behind =>
      rw [part, Part.source_tag, Piece.sources_cons, Piece.sources, List.flatMap_map]
      simp only [Piece.source, lexeme, List.append_assoc]
      rfl

theorem spelled_lexeme {blanks : List Char} (hblank : ∀ c ∈ blanks, isBlank c = true) (spelling : Spelling) :
    (lexeme blanks spelling).Spelled :=
  ⟨spelling.fits, hblank⟩

theorem stands_part (segment : Segment)
    (hrest : segment.isData = true → rest = [] ∨ Delimiters.standard.Opens rest) :
    segment.part.Stands .standard rest := by
  cases segment with
  | data content => exact content.stands (hrest rfl)
  | comment body closesLast => exact Part.stands_comment closesLast rest
  | blankTag margin => exact Part.stands_tag (by simp) (by simp) (List.all_eq_true.1 margin.all_isBlank) rest
  | tag before first more behind =>
      refine Part.stands_tag ?_ ?_ (List.all_eq_true.1 behind.all_isBlank) rest
      · refine List.forall_mem_cons.2 ⟨spelled_lexeme (List.all_eq_true.1 before.all_isBlank) first, ?_⟩
        intro lexeme hmem
        obtain ⟨⟨gap, spelling⟩, -, rfl⟩ := List.mem_map.1 hmem
        exact spelled_lexeme gap.isBlank_of_mem spelling
      · intro lexeme hmem
        obtain ⟨⟨gap, spelling⟩, -, rfl⟩ := List.mem_map.1 hmem
        exact gap.ne_nil

theorem opens_source (h : segment.isData = false) (rest : List Char) :
    Delimiters.standard.Opens (segment.source ++ rest) := by
  cases segment with
  | data content => cases h
  | comment body closesLast =>
      rw [source, List.append_assoc]
      exact .inr (List.prefix_append _ _)
  | blankTag margin =>
      rw [source, List.append_assoc]
      exact .inl (List.prefix_append _ _)
  | tag before first more behind =>
      rw [source, List.append_assoc]
      exact .inl (List.prefix_append _ _)

/-- What is written falls into the segments it was written from. -/
theorem reads_source {segments : List Segment} (hseparate : segments.IsChain Separate) :
    Delimiters.standard.Reads (segments.map part) (segments.flatMap source) [] := by
  induction segments with
  | nil => exact .done
  | cons segment segments ih =>
      have hrest : segment.isData = true → segments.flatMap source = [] ∨
          Delimiters.standard.Opens (segments.flatMap source) :=
        Delimiters.opens_flatMap (fun _ => opens_source) hseparate
      rw [List.map_cons, List.flatMap_cons, ← source_part]
      exact .part (stands_part segment hrest) (ih hseparate.tail)

end Segment

/-! ### Tokens without their places -/

/-- What a token is, wherever it stands. -/
def Token.word (token : Token) : TokenKind × String :=
  (token.kind, token.value)

def Piece.word (piece : Piece) : TokenKind × String :=
  (piece.kind, String.ofList piece.value)

theorem Piece.map_word_tokens (start : Location) (pieces : List Piece) :
    (tokens start pieces).map Token.word = pieces.map word := by
  induction pieces generalizing start with
  | nil => rfl
  | cons piece pieces ih =>
      rw [tokens, List.map_cons, ih]
      rfl

theorem Segment.map_word_pieces (segment : Segment) :
    (segment.part.pieces .standard).map Piece.word = segment.words := by
  cases segment with
  | data content => simp [part, Part.pieces, Piece.word, words]
  | comment body closesLast =>
      by_cases hbody : body = ""
      · subst hbody
        simp [part, Part.pieces, Part.body, Piece.word, words]
      · obtain ⟨c, s, hs⟩ := List.exists_cons_of_ne_nil (mt String.toList_eq_nil_iff.1 hbody)
        have hof : String.ofList (c :: s) = body := by
          rw [← hs, String.ofList_toList]
        simp [part, Part.pieces, Part.body, Piece.word, words, hs, hbody, hof]
  | blankTag margin => simp [part, Part.pieces, Piece.word, words]
  | tag before first more behind =>
      simp [part, Part.pieces, Piece.word, words, lexeme]

/-- Reading what segments are written as gives back their tokens, and the end of the text behind them. -/
theorem scan_write (segments : List Segment) (hseparate : segments.IsChain Segment.Separate) :
    ∃ tokens, (Delimiters.standard.scan (Segment.write segments)).outcome = .ok tokens ∧
      tokens.map Token.word = segments.flatMap Segment.words ++ [(.eof, "")] := by
  have hreads : Delimiters.standard.Reads (segments.map Segment.part) (Segment.write segments).toList [] := by
    rw [Segment.write, String.toList_ofList]
    exact Segment.reads_source hseparate
  refine ⟨_, Mode.outcome_eq_ok_iff.2 ⟨_, hreads, rfl⟩, ?_⟩
  rw [Piece.map_word_tokens, List.map_append, Part.allPieces, List.map_flatMap, List.flatMap_map]
  simp only [Segment.map_word_pieces]
  rfl

/-- A brace in front of a tag, a percent sign beside both delimiters of the tag, the end of a tag in a string, and
the parts of the delimiter that ends a short comment at the ends of its body. -/
theorem scan_write_percent_signs :
    ∃ segments tokens, Segment.write segments = "a\x7b\x7b%% 12.50\t'%\x7d'\n%%\x7d\x7b#\x7d##\x7d%\x7d\x7b%%\x7d" ∧
      (Delimiters.standard.scan (Segment.write segments)).outcome = .ok tokens ∧
      tokens.map Token.word = [(.data, "a\x7b"), (.blockBegin, "\x7b%"), (.symbol, "%"), (.float, "12.50"),
        (.string, "'%\x7d'"), (.symbol, "%"), (.blockEnd, "%\x7d"), (.commentBegin, "\x7b#"), (.data, "\x7d#"),
        (.commentEnd, "#\x7d"), (.data, "%\x7d"), (.blockBegin, "\x7b%"), (.blockEnd, "%\x7d"), (.eof, "")] := by
  have hpercent : Lexeme.Fits .symbol "%".toList [] :=
    @Lexeme.Fits.shortSymbol '%' [] (by decide) (by decide)
  have hfloat : Lexeme.Fits .float "12.50".toList [] :=
    @Lexeme.Fits.float ['1', '2'] ['5', '0'] [] (by decide) (List.all_eq_true.1 (by cbv)) (by decide)
      ⟨List.all_eq_true.1 (by cbv), by simp⟩
  have hstring : Lexeme.Fits .string "'%\x7d'".toList [] :=
    @Lexeme.Fits.string '\'' ['%', '\x7d'] [] (by decide) (.plain (by decide) (by decide)
      (.plain (by decide) (by decide) .nil))
  obtain ⟨tokens, hscan, hwords⟩ := scan_write [.data ⟨"a\x7b", by decide, by decide, by decide⟩,
    .tag ⟨[], by decide⟩ ⟨.symbol, "%", hpercent⟩ [(.space, ⟨.float, "12.50", hfloat⟩),
      (⟨['\t'], by decide, by decide⟩, ⟨.string, "'%\x7d'", hstring⟩),
      (⟨['\n'], by decide, by decide⟩, ⟨.symbol, "%", hpercent⟩)] ⟨[], by decide⟩,
    .comment "\x7d#" (by decide), .data ⟨"%\x7d", by decide, by decide, by decide⟩, .blankTag ⟨[], by decide⟩]
    (by simp [Segment.Separate, Segment.isData])
  refine ⟨_, tokens, ?_, hscan, hwords.trans ?_⟩
  all_goals cbv

end TagTemplate
