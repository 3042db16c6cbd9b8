import Mathlib.Data.List.Infix
import TagTemplate.Proofs.Lexeme

/-!
# The parts of a text

A text that can be read at all falls into parts: stretches of plain text, short comments and tags. What may
stand in a part, and where the part ends, is said here without the steps by which a text is read.
-/

namespace TagTemplate

open Text (IsRun isBlank)

namespace Text

/-- Nothing of the kind begins inside a stretch of text that goes on with `rest`. -/
def Clear (found : List Char → Prop) (stretch rest : List Char) : Prop :=
  ∀ before after, stretch = before ++ after → after ≠ [] → ¬found (after ++ rest)

theorem Clear.nil {found : List Char → Prop} {rest : List Char} : Clear found [] rest := by
  intro before after h hne
  exact absurd (List.append_eq_nil_iff.1 h.symm).2 hne

theorem Clear.mono {found found' : List Char → Prop} {stretch rest : List Char}
    (h : Clear found stretch rest) (himp : ∀ s, found' s → found s) : Clear found' stretch rest := by
  intro before after heq hne hfound
  exact h before after heq hne (himp _ hfound)

theorem clear_cons {found : List Char → Prop} {c : Char} {stretch rest : List Char} :
    Clear found (c :: stretch) rest ↔ ¬found (c :: (stretch ++ rest)) ∧ Clear found stretch rest := by
  constructor
  · intro h
    refine ⟨h [] (c :: stretch) rfl (by simp), ?_⟩
    rintro before after rfl hne
    exact h (c :: before) after rfl hne
  · rintro ⟨hc, h⟩ before after heq hne
    cases before with
    | nil =>
        obtain rfl : c :: stretch = after := heq
        exact hc
    | cons c' before =>
        obtain ⟨rfl, rfl⟩ := List.cons.inj heq
        exact h before after rfl hne

/-- Splitting a text finds the first place of the kind, or none at all. -/
theorem splitBefore_eq_iff {found : List Char → Bool} {s stretch rest : List Char} :
    splitBefore found s = (stretch, rest) ↔
      s = stretch ++ rest ∧ Clear (found · = true) stretch rest ∧ (rest = [] ∨ found rest = true) := by
  induction s generalizing stretch with
  | nil =>
      constructor
      · intro h
        obtain ⟨rfl, rfl⟩ := Prod.mk.inj h
        exact ⟨rfl, Clear.nil, .inl rfl⟩
      · rintro ⟨h, -, -⟩
        obtain ⟨rfl, rfl⟩ := List.append_eq_nil_iff.1 h.symm
        rfl
  | cons c s ih =>
      by_cases hfound : found (c :: s) = true
      · rw [splitBefore, if_pos hfound]
        constructor
        · intro h
          obtain ⟨rfl, rfl⟩ := Prod.mk.inj h
          exact ⟨rfl, Clear.nil, .inr hfound⟩
        · rintro ⟨heq, hclear, -⟩
          cases stretch with
          | nil => rw [heq, List.nil_append]
          | cons c' stretch =>
              have hhead := (clear_cons.1 hclear).1
              rw [List.cons_append] at heq
              exact absurd (heq ▸ hfound) hhead
      · rw [splitBefore, if_neg hfound]
        constructor
        · intro h
          obtain ⟨rfl, hrest⟩ := Prod.mk.inj h
          obtain ⟨hs, hclear, hend⟩ := ih.1 (Prod.ext rfl hrest)
          refine ⟨by rw [List.cons_append, ← hs], clear_cons.2 ⟨?_, hclear⟩, hend⟩
          rwa [← hs]
        · rintro ⟨heq, hclear, hend⟩
          cases stretch with
          | nil =>
              rw [List.nil_append] at heq
              subst heq
              rcases hend with h | h
              · exact absurd h (by simp)
              · exact absurd h hfound
          | cons c' stretch =>
              obtain ⟨rfl, hs⟩ := List.cons.inj heq
              have hsplit := ih.2 ⟨hs, (clear_cons.1 hclear).2, hend⟩
              rw [hsplit]

end Text

/-! ### Pieces -/

/-- A token without its place, and the blanks before it. -/
structure Piece where
  gap : List Char
  kind : TokenKind
  value : List Char

namespace Piece

/-- What a piece takes up of a text. -/
def source (piece : Piece) : List Char :=
  piece.gap ++ piece.value

def sources (pieces : List Piece) : List Char :=
  pieces.flatMap source

/-- The tokens of pieces that follow each other from a place on. -/
def tokens : Location → List Piece → List Token
  | _, [] => []
  | start, piece :: pieces =>
      ⟨piece.kind, String.ofList piece.value, start.after piece.gap⟩ ::
        tokens (start.after piece.source) pieces

/-- The piece with which every text ends. -/
def final : Piece := ⟨[], .eof, []⟩

@[simp] theorem sources_nil : sources [] = [] := rfl

@[simp] theorem sources_cons (piece : Piece) (pieces : List Piece) :
    sources (piece :: pieces) = piece.source ++ sources pieces := rfl

@[simp] theorem sources_append (pieces pieces' : List Piece) :
    sources (pieces ++ pieces') = sources pieces ++ sources pieces' := List.flatMap_append

@[simp] theorem tokens_nil (start : Location) : tokens start [] = [] := rfl

theorem tokens_eq_nil_iff {start : Location} {pieces : List Piece} :
    tokens start pieces = [] ↔ pieces = [] := by
  cases pieces <;> simp [tokens]

theorem tokens_append (start : Location) (pieces pieces' : List Piece) :
    tokens start (pieces ++ pieces') =
      tokens start pieces ++ tokens (start.after (sources pieces)) pieces' := by
  induction pieces generalizing start with
  | nil => rfl
  | cons piece pieces ih => simp [tokens, ih]

theorem map_kind_tokens (start : Location) (pieces : List Piece) :
    (tokens start pieces).map Token.kind = pieces.map kind := by
  induction pieces generalizing start with
  | nil => rfl
  | cons piece pieces ih => simp [tokens, ih]

theorem exists_of_tokens_eq {start : Location} {pieces : List Piece} {before after : List Token}
    {token : Token} (h : tokens start pieces = before ++ token :: after) :
    ∃ front piece back, pieces = front ++ piece :: back ∧ before = tokens start front ∧
      token = ⟨piece.kind, String.ofList piece.value, start.after (sources front ++ piece.gap)⟩ ∧
      after = tokens (start.after (sources front ++ piece.source)) back := by
  induction pieces generalizing start before with
  | nil => simp [tokens] at h
  | cons piece pieces ih =>
      cases before with
      | nil =>
          obtain ⟨htoken, hafter⟩ := List.cons.inj h
          exact ⟨[], piece, pieces, rfl, rfl, htoken.symm, hafter.symm⟩
      | cons token' before =>
          obtain ⟨rfl, hrest⟩ := List.cons.inj h
          obtain ⟨front, piece', back, rfl, rfl, rfl, rfl⟩ := ih hrest
          refine ⟨piece :: front, piece', back, rfl, rfl, ?_, ?_⟩
          all_goals rw [sources_cons, List.append_assoc, Location.after_append _ piece.source]

theorem exists_of_mem_tokens {start : Location} {pieces : List Piece} {token : Token}
    (h : token ∈ tokens start pieces) :
    ∃ front piece back, pieces = front ++ piece :: back ∧
      token = ⟨piece.kind, String.ofList piece.value, start.after (sources front ++ piece.gap)⟩ := by
  obtain ⟨before, after, hsplit⟩ := List.append_of_mem h
  obtain ⟨front, piece, back, hpieces, -, htoken, -⟩ := exists_of_tokens_eq hsplit
  exact ⟨front, piece, back, hpieces, htoken⟩

end Piece

/-! ### Parts -/

/-- A part of a text. A tag consists of its lexemes, each with the blanks before it, and of the blanks
before the delimiter that closes it. -/
inductive Part where
  | text (value : List Char)
  | comment (body : List Char)
  | tag (lexemes : List Piece) (gap : List Char)

namespace Part

/-- The body of a short comment; an empty one is no piece. -/
def body : List Char → List Piece
  | [] => []
  | body => [⟨[], .data, body⟩]

/-- The pieces of a part, delimiters included. -/
def pieces (d : Delimiters) : Part → List Piece
  | text value => [⟨[], .data, value⟩]
  | comment content =>
      ⟨[], .commentBegin, d.commentStart.toList⟩ :: body content ++ [⟨[], .commentEnd, d.commentEnd.toList⟩]
  | tag lexemes gap =>
      ⟨[], .blockBegin, d.blockStart.toList⟩ :: lexemes ++ [⟨gap, .blockEnd, d.blockEnd.toList⟩]

def allPieces (d : Delimiters) (parts : List Part) : List Piece :=
  parts.flatMap (pieces d)

/-- What a part takes up of a text. -/
def source (d : Delimiters) (part : Part) : List Char :=
  Piece.sources (part.pieces d)

theorem sources_body (content : List Char) : Piece.sources (body content) = content := by
  cases content <;> simp [body, Piece.source]

theorem source_text (d : Delimiters) (value : List Char) : (text value).source d = value := by
  simp [source, pieces, Piece.source]

theorem source_comment (d : Delimiters) (content : List Char) :
    (comment content).source d = d.commentStart.toList ++ (content ++ d.commentEnd.toList) := by
  simp [source, pieces, Piece.source, sources_body]

theorem source_tag (d : Delimiters) (lexemes : List Piece) (gap : List Char) :
    (tag lexemes gap).source d =
      d.blockStart.toList ++ (Piece.sources lexemes ++ (gap ++ d.blockEnd.toList)) := by
  simp [source, pieces, Piece.source]

def sources (d : Delimiters) (parts : List Part) : List Char :=
  Piece.sources (allPieces d parts)

@[simp] theorem allPieces_nil (d : Delimiters) : allPieces d [] = [] := rfl

@[simp] theorem allPieces_cons (d : Delimiters) (part : Part) (parts : List Part) :
    allPieces d (part :: parts) = part.pieces d ++ allPieces d parts := rfl

@[simp] theorem allPieces_append (d : Delimiters) (parts parts' : List Part) :
    allPieces d (parts ++ parts') = allPieces d parts ++ allPieces d parts' := List.flatMap_append

theorem sources_append (d : Delimiters) (parts parts' : List Part) :
    sources d (parts ++ parts') = sources d parts ++ sources d parts' := by
  rw [sources, allPieces_append, Piece.sources_append]
  rfl

@[simp] theorem sources_nil (d : Delimiters) : sources d [] = [] := rfl

@[simp] theorem sources_cons (d : Delimiters) (part : Part) (parts : List Part) :
    sources d (part :: parts) = part.source d ++ sources d parts := by
  simp [sources, source]

end Part

namespace Delimiters

/-- One of the opening delimiters stands at the start of a text. -/
def Opens (d : Delimiters) (s : List Char) : Prop :=
  d.blockStart.toList <+: s ∨ d.commentStart.toList <+: s

/-- One opening delimiter stands at the start of a text, and the other does not or is shorter. -/
def Wins (opening other : String) (s : List Char) : Prop :=
  opening.toList <+: s ∧ (other.toList <+: s → other.length < opening.length)

/-- Lexemes stand in a tag that goes on with `rest`: each behind as many blanks as there are, where the tag
does not end, and according to the first pattern that fits. -/
def Holds (d : Delimiters) : List Piece → List Char → Prop
  | [], _ => True
  | lexeme :: lexemes, rest =>
      (IsRun isBlank lexeme.gap (lexeme.value ++ (Piece.sources lexemes ++ rest)) ∧
        ¬d.blockEnd.toList <+: lexeme.value ++ (Piece.sources lexemes ++ rest) ∧
        Lexeme.Leads lexeme.kind lexeme.value (Piece.sources lexemes ++ rest)) ∧
      d.Holds lexemes rest

end Delimiters

theorem Delimiters.Holds.exists_leads {d : Delimiters} {lexemes : List Piece} {rest : List Char}
    (h : d.Holds lexemes rest) {lexeme : Piece} (hmem : lexeme ∈ lexemes) :
    ∃ rest', IsRun isBlank lexeme.gap (lexeme.value ++ rest') ∧
      Lexeme.Leads lexeme.kind lexeme.value rest' := by
  induction lexemes with
  | nil => simp at hmem
  | cons lexeme' lexemes ih =>
      obtain ⟨⟨hgap, -, hleads⟩, hrest⟩ := h
      rcases List.mem_cons.1 hmem with rfl | hmem
      · exact ⟨_, hgap, hleads⟩
      · exact ih hrest hmem

/-- A part stands in a text that goes on with `rest`. Plain text reaches up to the first opening delimiter,
of which the longer one counts where both stand; a short comment reaches up to the first delimiter that
closes it, and a tag up to the first that comes where a lexeme could. -/
def Part.Stands (d : Delimiters) : Part → List Char → Prop
  | .text value, rest => value ≠ [] ∧ Text.Clear d.Opens value rest ∧ (rest = [] ∨ d.Opens rest)
  | .comment body, rest =>
      Delimiters.Wins d.commentStart d.blockStart ((Part.comment body).source d ++ rest) ∧
        Text.Clear (d.commentEnd.toList <+: ·) body (d.commentEnd.toList ++ rest)
  | .tag lexemes gap, rest =>
      Delimiters.Wins d.blockStart d.commentStart ((Part.tag lexemes gap).source d ++ rest) ∧
        d.Holds lexemes (gap ++ (d.blockEnd.toList ++ rest)) ∧
        IsRun isBlank gap (d.blockEnd.toList ++ rest)

/-- A part whose tag, if it is one, has lexemes only. -/
def Part.Lexical : Part → Prop
  | tag lexemes _ => ∀ lexeme ∈ lexemes, lexeme.kind ∈ Lexeme.patterns
  | _ => True

theorem Part.Stands.lexical {d : Delimiters} {part : Part} {rest : List Char} (h : part.Stands d rest) :
    part.Lexical := by
  cases part with
  | text | comment => trivial
  | tag lexemes gap =>
      intro lexeme hmem
      obtain ⟨rest', -, hleads⟩ := h.2.1.exists_leads hmem
      exact hleads.fits.mem_patterns

theorem Part.Stands.piece {d : Delimiters} {part : Part} {rest : List Char} (h : part.Stands d rest)
    {piece : Piece} (hmem : piece ∈ part.pieces d) :
    piece.kind ≠ .eof ∧ piece.value ≠ [] ∧ ∀ c ∈ piece.gap, isBlank c = true := by
  have hne {s : String} (hs : s ≠ "") : s.toList ≠ [] := mt String.toList_eq_nil_iff.1 hs
  cases part with
  | text value =>
      obtain rfl := List.mem_singleton.1 hmem
      exact ⟨by simp, h.1, by simp⟩
  | comment content =>
      simp only [Part.pieces, List.cons_append, List.mem_cons, List.mem_append, List.not_mem_nil, or_false]
        at hmem
      rcases hmem with rfl | hmem | rfl
      · exact ⟨by simp, hne d.commentStart_ne, by simp⟩
      · cases content with
        | nil => simp [Part.body] at hmem
        | cons c content =>
            obtain rfl := List.mem_singleton.1 hmem
            exact ⟨by simp, by simp, by simp⟩
      · exact ⟨by simp, hne d.commentEnd_ne, by simp⟩
  | tag lexemes gap =>
      obtain ⟨-, hholds, hgap⟩ := h
      simp only [Part.pieces, List.cons_append, List.mem_cons, List.mem_append, List.not_mem_nil, or_false]
        at hmem
      rcases hmem with rfl | hmem | rfl
      · exact ⟨by simp, hne d.blockStart_ne, by simp⟩
      · obtain ⟨rest', hgap', hleads⟩ := hholds.exists_leads hmem
        have hkind := Lexeme.ne_of_mem_patterns piece.kind hleads.fits.mem_patterns
        exact ⟨hkind.2.2.2, hleads.fits.value_ne_nil, hgap'.all⟩
      · exact ⟨by simp, hne d.blockEnd_ne, hgap.all⟩

theorem Part.source_ne_nil (d : Delimiters) {part : Part} {rest : List Char} (h : part.Stands d rest) :
    part.source d ≠ [] := by
  have hblock := mt String.toList_eq_nil_iff.1 d.blockStart_ne
  have hcomment := mt String.toList_eq_nil_iff.1 d.commentStart_ne
  cases part with
  | text value => rw [source_text]; exact h.1
  | comment body => rw [source_comment]; exact List.append_ne_nil_of_left_ne_nil hcomment _
  | tag lexemes gap => rw [source_tag]; exact List.append_ne_nil_of_left_ne_nil hblock _

/-- A text up to `rest` falls into parts. -/
inductive Delimiters.Reads (d : Delimiters) : List Part → List Char → List Char → Prop
  | done {rest : List Char} : d.Reads [] rest rest
  | part {part : Part} {parts : List Part} {s rest : List Char} :
      part.Stands d s → d.Reads parts s rest → d.Reads (part :: parts) (part.source d ++ s) rest

theorem Delimiters.Reads.eq_append {d : Delimiters} {parts : List Part} {s rest : List Char}
    (h : d.Reads parts s rest) : s = Part.sources d parts ++ rest := by
  induction h with
  | done => rfl
  | part hstands hreads ih => rw [Part.sources_cons, List.append_assoc, ← ih]

theorem Delimiters.Reads.piece {d : Delimiters} {parts : List Part} {s rest : List Char}
    (h : d.Reads parts s rest) {piece : Piece} (hmem : piece ∈ Part.allPieces d parts) :
    piece.kind ≠ .eof ∧ piece.value ≠ [] ∧ ∀ c ∈ piece.gap, isBlank c = true := by
  induction h with
  | done => simp at hmem
  | part hstands hreads ih =>
      rcases List.mem_append.1 hmem with hmem | hmem
      · exact hstands.piece hmem
      · exact ih hmem

theorem Delimiters.Reads.lexical {d : Delimiters} {parts : List Part} {s rest : List Char}
    (h : d.Reads parts s rest) : ∀ part ∈ parts, part.Lexical := by
  induction h with
  | done => simp
  | part hstands hreads ih => exact List.forall_mem_cons.2 ⟨hstands.lexical, ih⟩

/-! ### Which delimiter opens -/

namespace Delimiters

variable {d : Delimiters} {s : List Char}

theorem wins_of_length_le {opening other : String} (hne : opening ≠ other)
    (hopening : opening.toList <+: s) (h : other.toList <+: s → other.length ≤ opening.length) :
    Wins opening other s := by
  refine ⟨hopening, fun hother => ?_⟩
  refine lt_of_le_of_ne (h hother) fun hlength => hne ?_
  have hlength' : opening.toList.length = other.toList.length := by
    rw [String.length_toList, String.length_toList, hlength]
  have hprefix := List.prefix_of_prefix_length_le hopening hother hlength'.le
  exact String.toList_injective (List.IsPrefix.eq_of_length hprefix hlength')

theorem opensTag_iff : d.opensTag s = true ↔ Wins d.blockStart d.commentStart s := by
  simp only [opensTag, Bool.and_eq_true, Bool.or_eq_true, Bool.not_eq_true', decide_eq_true_eq,
    List.isPrefixOf_iff_prefix]
  constructor
  · rintro ⟨hblock, h⟩
    refine wins_of_length_le d.starts_ne hblock fun hcomment => ?_
    rcases h with h | h
    · rw [List.isPrefixOf_iff_prefix.2 hcomment] at h
      exact absurd h (by decide)
    · exact h
  · rintro ⟨hblock, h⟩
    refine ⟨hblock, ?_⟩
    by_cases hcomment : d.commentStart.toList <+: s
    · exact .inr (h hcomment).le
    · exact .inl (by rwa [← Bool.not_eq_true, List.isPrefixOf_iff_prefix])

theorem opensComment_iff : d.opensComment s = true ↔ Wins d.commentStart d.blockStart s := by
  simp only [opensComment, Bool.and_eq_true, Bool.not_eq_true', ← Bool.not_eq_true, opensTag_iff,
    List.isPrefixOf_iff_prefix]
  constructor
  · rintro ⟨hcomment, h⟩
    refine ⟨hcomment, fun hblock => ?_⟩
    by_contra hlength
    exact h (wins_of_length_le d.starts_ne hblock fun _ => by omega)
  · rintro ⟨hcomment, h⟩
    refine ⟨hcomment, fun hblock => ?_⟩
    have h₁ := h hblock.1
    have h₂ := hblock.2 hcomment
    omega

theorem opens_iff : d.opens s = true ↔ d.Opens s := by
  rw [opens, Bool.or_eq_true, opensTag_iff, opensComment_iff, Opens]
  constructor
  · rintro (h | h)
    · exact .inl h.1
    · exact .inr h.1
  · intro h
    by_cases hblock : Wins d.blockStart d.commentStart s
    · exact .inl hblock
    · refine .inr (opensComment_iff.1 ?_)
      have hcomment : d.commentStart.toList <+: s := by
        rcases h with h | h
        · by_contra hcomment
          exact hblock ⟨h, fun hother => absurd hother hcomment⟩
        · exact h
      rw [opensComment, Bool.and_eq_true, Bool.not_eq_true', ← Bool.not_eq_true, opensTag_iff]
      exact ⟨List.isPrefixOf_iff_prefix.2 hcomment, hblock⟩

end Delimiters

end TagTemplate
