import Mathlib
import TagTemplate.Proofs.Scan

/-!
# The tokens of a text cover it

Reading a text loses nothing and takes nothing twice. Between two tokens that follow each other there is
nothing, except inside of tags, where there may be blanks, so the text is its tokens with those blanks put
back.
-/

namespace TagTemplate

open Text (IsRun isBlank)

/-- The characters of a text from one offset up to another. -/
def Text.slice (text : String) (start stop : Nat) : List Char :=
  (text.toList.take stop).drop start

namespace Token

/-- The offset right behind a token. -/
def stop (token : Token) : Nat :=
  token.place.offset + token.value.length

/-- The tokens with whatever the text has between them, from an offset on. -/
def spread (text : String) : Nat → List Token → List Char
  | _, [] => []
  | reached, token :: tokens =>
      Text.slice text reached token.place.offset ++ (token.value.toList ++ spread text token.stop tokens)

end Token

/-- A place in a list of tokens between the delimiters of one tag. -/
def InsideTag (before after : List TokenKind) : Prop :=
  ∃ head lexemes lexemes' tail, before = head ++ .blockBegin :: lexemes ∧
    after = lexemes' ++ .blockEnd :: tail ∧ ∀ kind ∈ lexemes ++ lexemes', kind ∈ Lexeme.patterns

/-- Tokens cover a text: they end with the end of the text and hold its characters in their order, from the
first to the last, with nothing but blanks between them, and these only inside of tags. -/
structure Covers (text : String) (tokens : List Token) : Prop where
  final : ∃ others last, tokens = others ++ [last] ∧ last.kind = .eof ∧ last.value = "" ∧
    last.place.offset = text.length ∧ ∀ token ∈ others, token.kind ≠ .eof ∧ token.value ≠ ""
  first : ∀ token ∈ tokens.head?, token.place.offset = 0
  value : ∀ token ∈ tokens, token.value.toList = Text.slice text token.place.offset token.stop
  ordered : ∀ before token next after, tokens = before ++ token :: next :: after →
    token.stop ≤ next.place.offset
  gap : ∀ before token next after, tokens = before ++ token :: next :: after →
    (∀ c ∈ Text.slice text token.stop next.place.offset, isBlank c = true) ∧
    (token.stop = next.place.offset ∨
      InsideTag ((before ++ [token]).map Token.kind) ((next :: after).map Token.kind))
  whole : Token.spread text 0 tokens = text.toList

/-! ### Tokens of pieces -/

theorem Text.slice_eq {text : String} (before middle after : List Char)
    (h : text.toList = before ++ (middle ++ after)) {start stop : Nat} (hstart : start = before.length)
    (hstop : stop = before.length + middle.length) : slice text start stop = middle := by
  rw [slice, h, hstart, hstop, ← List.append_assoc, ← List.length_append, List.take_left, List.drop_left]

namespace Piece

theorem stop_token (piece : Piece) (before : List Char) :
    Token.stop ⟨piece.kind, String.ofList piece.value, Location.start.after (before ++ piece.gap)⟩ =
      (before ++ piece.source).length := by
  simp only [Token.stop, Location.offset_start_after, source, String.length_ofList, List.length_append]
  omega

/-- Of two tokens that follow each other, the second starts behind the blanks before it. -/
theorem exists_of_tokens_eq_two {pieces : List Piece} {before after : List Token} {token next : Token}
    (h : tokens Location.start pieces = before ++ token :: next :: after) :
    ∃ front piece piece' back, pieces = front ++ piece :: piece' :: back ∧
      token.stop = (sources (front ++ [piece])).length ∧
      next.place.offset = (sources (front ++ [piece]) ++ piece'.gap).length ∧
      (before ++ [token]).map Token.kind = (front ++ [piece]).map kind ∧
      (next :: after).map Token.kind = (piece' :: back).map kind := by
  obtain ⟨front, piece, back, rfl, rfl, rfl, hback⟩ := exists_of_tokens_eq h
  obtain ⟨front', piece', back, rfl, hfront', rfl, rfl⟩ := @exists_of_tokens_eq _ _ [] _ _ hback.symm
  obtain rfl := tokens_eq_nil_iff.1 hfront'.symm
  refine ⟨front, piece, piece', back, rfl, ?_, ?_, ?_, ?_⟩
  · rw [stop_token]
    simp
  · rw [← Location.after_append, Location.offset_start_after]
    simp
  · rw [List.map_append, map_kind_tokens, List.map_append]
    rfl
  · rw [List.map_cons, map_kind_tokens, List.map_cons]

theorem spread_tokens {text : String} {start : Location} {pieces : List Piece} {before : List Char}
    (htext : text.toList = before ++ sources pieces) (hstart : start.offset = before.length) :
    Token.spread text start.offset (tokens start pieces) = sources pieces := by
  induction pieces generalizing start before with
  | nil => rfl
  | cons piece pieces ih =>
      have hgap : Text.slice text start.offset (start.after piece.gap).offset = piece.gap := by
        refine Text.slice_eq before piece.gap (piece.value ++ sources pieces) ?_ hstart ?_
        · rw [htext, sources_cons, source, List.append_assoc]
        · rw [Location.offset_after, hstart]
      have hstop : (start.after piece.gap).offset + (String.ofList piece.value).length =
          (start.after piece.source).offset := by
        simp only [Location.offset_after, source, List.length_append, String.length_ofList]
        omega
      have hrest := @ih (start.after piece.source) (before ++ piece.source)
        (by rw [htext, sources_cons, List.append_assoc])
        (by rw [Location.offset_after, hstart, List.length_append])
      rw [tokens, Token.spread, hgap, Token.stop, hstop, hrest, String.toList_ofList, sources_cons,
        source, List.append_assoc]

end Piece

/-! ### Pieces of parts -/

namespace Part

variable {d : Delimiters}

/-- Only the pieces behind the first of a tag have blanks before them. -/
theorem Stands.insideTag {part : Part} {rest : List Char} (h : part.Stands d rest) {front back : List Piece}
    {piece : Piece} (hsplit : part.pieces d = front ++ piece :: back) (hgap : piece.gap ≠ []) :
    InsideTag (front.map Piece.kind) ((piece :: back).map Piece.kind) := by
  have hmem : piece ∈ part.pieces d := by simp [hsplit]
  cases part with
  | text value =>
      obtain rfl := List.mem_singleton.1 hmem
      exact absurd rfl hgap
  | comment content =>
      simp only [pieces, List.cons_append, List.mem_cons, List.mem_append, List.not_mem_nil, or_false]
        at hmem
      rcases hmem with rfl | hmem | rfl
      · exact absurd rfl hgap
      · cases content with
        | nil => simp [body] at hmem
        | cons c content =>
            obtain rfl := List.mem_singleton.1 hmem
            exact absurd rfl hgap
      · exact absurd rfl hgap
  | tag lexemes gap =>
      cases front with
      | nil =>
          obtain ⟨rfl, -⟩ := List.cons.inj hsplit
          exact absurd rfl hgap
      | cons opening front =>
          obtain ⟨rfl, hrest⟩ := List.cons.inj hsplit
          -- the delimiter that closes the tag is behind the piece, or is the piece
          obtain ⟨middle, hlexemes, hback⟩ : ∃ middle, lexemes = front ++ middle ∧
              piece :: back = middle ++ [⟨gap, .blockEnd, d.blockEnd.toList⟩] := by
            rcases List.append_eq_append_iff.1 hrest with ⟨extra, rfl, hclosing⟩ | ⟨middle, rfl, hback⟩
            · cases extra with
              | nil => exact ⟨[], by simp, hclosing.symm⟩
              | cons piece' extra =>
                  have hlength := congrArg List.length hclosing
                  simp at hlength
            · exact ⟨middle, rfl, hback⟩
          refine ⟨[], front.map Piece.kind, middle.map Piece.kind, [], rfl, by rw [hback]; simp, ?_⟩
          intro kind hkind
          rw [← List.map_append, ← hlexemes] at hkind
          obtain ⟨lexeme, hlexeme, rfl⟩ := List.mem_map.1 hkind
          exact h.lexical lexeme hlexeme

end Part

theorem InsideTag.append {before after : List TokenKind} (h : InsideTag before after)
    (front back : List TokenKind) : InsideTag (front ++ before) (after ++ back) := by
  obtain ⟨head, lexemes, lexemes', tail, rfl, rfl, hkinds⟩ := h
  exact ⟨front ++ head, lexemes, lexemes', tail ++ back, by simp, by simp, hkinds⟩

namespace Delimiters

variable {d : Delimiters}

theorem Reads.insideTag {parts : List Part} {s rest : List Char} (h : d.Reads parts s rest)
    {front back : List Piece} {piece : Piece}
    (hsplit : Part.allPieces d parts ++ [Piece.final] = front ++ piece :: back) (hgap : piece.gap ≠ []) :
    InsideTag (front.map Piece.kind) ((piece :: back).map Piece.kind) := by
  induction h generalizing front with
  | done =>
      have hmem : piece ∈ [Piece.final] := by
        rw [Part.allPieces_nil, List.nil_append] at hsplit
        simp [hsplit]
      obtain rfl := List.mem_singleton.1 hmem
      exact absurd rfl hgap
  | @part part parts s rest hstands hreads ih =>
      rw [Part.allPieces_cons, List.append_assoc] at hsplit
      rcases List.append_eq_append_iff.1 hsplit with ⟨front', rfl, hrest⟩ | ⟨back', hpart, hrest⟩
      · have hinside := (ih hrest).append ((part.pieces d).map Piece.kind) []
        rwa [List.append_nil, ← List.map_append] at hinside
      · cases back' with
        | nil =>
            rw [List.append_nil] at hpart
            have hinside := (@ih [] hrest.symm).append ((part.pieces d).map Piece.kind) []
            rwa [List.append_nil, List.map_nil, List.append_nil, hpart] at hinside
        | cons piece' back' =>
            obtain ⟨rfl, rfl⟩ := List.cons.inj hrest
            have hinside := (hstands.insideTag hpart hgap).append []
              ((Part.allPieces d parts ++ [Piece.final]).map Piece.kind)
            rwa [List.nil_append, ← List.map_append] at hinside

end Delimiters

/-! ### The tokens of a text -/

namespace Piece

variable {text : String} {pieces : List Piece}

theorem toList_value_eq_slice (htext : text.toList = sources pieces) {token : Token}
    (hmem : token ∈ tokens Location.start pieces) :
    token.value.toList = Text.slice text token.place.offset token.stop := by
  obtain ⟨front, piece, back, rfl, rfl⟩ := exists_of_mem_tokens hmem
  rw [stop_token, Location.offset_start_after, String.toList_ofList]
  refine (Text.slice_eq (sources front ++ piece.gap) piece.value (sources back) ?_ rfl ?_).symm
  · rw [htext]
    simp [source]
  · simp [source]
    omega

theorem stop_le_of_tokens_eq {before after : List Token} {token next : Token}
    (h : tokens Location.start pieces = before ++ token :: next :: after) :
    token.stop ≤ next.place.offset := by
  obtain ⟨front, piece, piece', back, -, hstop, hstart, -, -⟩ := exists_of_tokens_eq_two h
  rw [hstop, hstart, List.length_append]
  omega

/-- What a text has between two tokens are the blanks before the second. -/
theorem exists_gap_of_tokens_eq (htext : text.toList = sources pieces) {before after : List Token}
    {token next : Token} (h : tokens Location.start pieces = before ++ token :: next :: after) :
    ∃ front piece back, pieces = front ++ piece :: back ∧
      Text.slice text token.stop next.place.offset = piece.gap ∧
      (piece.gap = [] → token.stop = next.place.offset) ∧
      (before ++ [token]).map Token.kind = front.map kind ∧
      (next :: after).map Token.kind = (piece :: back).map kind := by
  obtain ⟨front, piece, piece', back, rfl, hstop, hstart, hbefore, hafter⟩ := exists_of_tokens_eq_two h
  refine ⟨front ++ [piece], piece', back, by simp, ?_, ?_, hbefore, hafter⟩
  · refine Text.slice_eq (sources (front ++ [piece])) piece'.gap (piece'.value ++ sources back) ?_ hstop ?_
    · rw [htext]
      simp [source]
    · rw [hstart, List.length_append]
  · intro hgap
    rw [hstop, hstart, hgap, List.append_nil]

end Piece

theorem Delimiters.Reads.exists_final {d : Delimiters} {text : String} {parts : List Part}
    (h : d.Reads parts text.toList []) :
    ∃ others last,
      Piece.tokens Location.start (Part.allPieces d parts ++ [Piece.final]) = others ++ [last] ∧
      last.kind = .eof ∧ last.value = "" ∧ last.place.offset = text.length ∧
      ∀ token ∈ others, token.kind ≠ .eof ∧ token.value ≠ "" := by
  refine ⟨_, _, Piece.tokens_append _ _ _, rfl, rfl, ?_, ?_⟩
  · have htext : text.toList = Piece.sources (Part.allPieces d parts) :=
      h.eq_append.trans (List.append_nil _)
    change (Location.start.after (Piece.sources (Part.allPieces d parts))).offset = text.length
    rw [← htext, Location.offset_start_after, String.length_toList]
  · intro token hmem
    obtain ⟨front, piece, back, hsplit, rfl⟩ := Piece.exists_of_mem_tokens hmem
    have hpiece : piece ∈ Part.allPieces d parts := by simp [hsplit]
    obtain ⟨hkind, hvalue, -⟩ := h.piece hpiece
    exact ⟨hkind, mt (congrArg String.toList) (by simpa using hvalue)⟩

theorem Delimiters.Reads.offset_head? {d : Delimiters} {parts : List Part} {s rest : List Char}
    (h : d.Reads parts s rest) {token : Token}
    (hmem : token ∈ (Piece.tokens Location.start (Part.allPieces d parts ++ [Piece.final])).head?) :
    token.place.offset = 0 := by
  obtain ⟨after, hafter⟩ := List.head?_eq_some_iff.1 (Option.mem_def.1 hmem)
  obtain ⟨front, piece, back, hsplit, hfront, rfl, -⟩ := @Piece.exists_of_tokens_eq _ _ [] _ _ hafter
  obtain rfl := Piece.tokens_eq_nil_iff.1 hfront.symm
  have hgap : piece.gap = [] := by
    by_contra hgap
    obtain ⟨head, lexemes, -, -, hbefore, -⟩ := h.insideTag hsplit hgap
    exact absurd hbefore (by simp)
  simp [hgap, Location.start]

theorem Delimiters.Reads.isBlank_gap {d : Delimiters} {parts : List Part} {s rest : List Char}
    (h : d.Reads parts s rest) {piece : Piece} (hmem : piece ∈ Part.allPieces d parts ++ [Piece.final]) :
    ∀ c ∈ piece.gap, isBlank c = true := by
  rcases List.mem_append.1 hmem with hmem | hmem
  · exact (h.piece hmem).2.2
  · obtain rfl := List.mem_singleton.1 hmem
    simp [Piece.final]

/-- The tokens of a text that can be read cover it. -/
theorem covers_of_scan (d : Delimiters) (text : String) (tokens : List Token)
    (h : (d.scan text).outcome = .ok tokens) : Covers text tokens := by
  obtain ⟨parts, hreads, rfl⟩ := Mode.outcome_eq_ok_iff.1 h
  have htext : text.toList = Piece.sources (Part.allPieces d parts ++ [Piece.final]) := by
    rw [hreads.eq_append, Piece.sources_append]
    rfl
  refine ⟨hreads.exists_final, fun token => hreads.offset_head?, ?_, ?_, ?_, ?_⟩
  · intro token hmem
    exact Piece.toList_value_eq_slice htext hmem
  · intro before token next after hsplit
    exact Piece.stop_le_of_tokens_eq hsplit
  · intro before token next after hsplit
    obtain ⟨front, piece, back, hpieces, hslice, hjoined, hbefore, hafter⟩ :=
      Piece.exists_gap_of_tokens_eq htext hsplit
    rw [hslice, hbefore, hafter]
    refine ⟨hreads.isBlank_gap (by simp [hpieces]), ?_⟩
    by_cases hgap : piece.gap = []
    · exact .inl (hjoined hgap)
    · exact .inr (hreads.insideTag hpieces hgap)
  · rw [htext]
    exact @Piece.spread_tokens text Location.start _ [] htext rfl

/-- One of the delimiters of this text is a part of another, and one stands in a string literal as well. -/
theorem covers_of_scan_nested_delimiters :
    ∃ tokens, ((Delimiters.mk "<" ">" "<!" "!>" (by decide) (by decide) (by decide) (by decide)
        (by decide)).scan "a<x  '>' >\n<! > !>b").outcome = .ok tokens ∧
      Covers "a<x  '>' >\n<! > !>b" tokens := by
  refine ⟨[⟨.data, "a", ⟨0, 1, 1⟩⟩, ⟨.blockBegin, "<", ⟨1, 1, 2⟩⟩, ⟨.name, "x", ⟨2, 1, 3⟩⟩,
    ⟨.string, "'>'", ⟨5, 1, 6⟩⟩, ⟨.blockEnd, ">", ⟨9, 1, 10⟩⟩, ⟨.data, "\n", ⟨10, 1, 11⟩⟩,
    ⟨.commentBegin, "<!", ⟨11, 2, 1⟩⟩, ⟨.data, " > ", ⟨13, 2, 3⟩⟩, ⟨.commentEnd, "!>", ⟨16, 2, 6⟩⟩,
    ⟨.data, "b", ⟨18, 2, 8⟩⟩, ⟨.eof, "", ⟨19, 2, 9⟩⟩], ?_⟩
  refine (and_iff_left_of_imp fun hscan => covers_of_scan _ _ _ hscan).2 ?_
  cbv

end TagTemplate
