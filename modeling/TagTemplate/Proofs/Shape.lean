import Mathlib.Data.List.Chain
import Mathlib.Data.List.DropRight
import TagTemplate.Proofs.Scan

/-!
# The shape of a list of tokens

Reading a text yields stretches of plain text, whole tags and whole short comments, and the end. Where each
of them starts and ends is a matter of first occurrences in the text alone.
-/

namespace TagTemplate

/-- The kinds of the tokens of plain text, tags and short comments, up to the end. -/
inductive TokenKind.Formed : List TokenKind → Prop
  | final : Formed [.eof]
  | text {kinds : List TokenKind} : Formed kinds → Formed (.data :: kinds)
  | tag {lexemes kinds : List TokenKind} :
      (∀ kind ∈ lexemes, kind ∈ Lexeme.patterns) → Formed kinds →
      Formed (.blockBegin :: (lexemes ++ .blockEnd :: kinds))
  | comment {kinds : List TokenKind} : Formed kinds → Formed (.commentBegin :: .data :: .commentEnd :: kinds)
  | emptyComment {kinds : List TokenKind} : Formed kinds → Formed (.commentBegin :: .commentEnd :: kinds)

/-- Two kinds are not both plain text. -/
def TokenKind.Apart (kind next : TokenKind) : Prop :=
  ¬(kind = .data ∧ next = .data)

/-- Whether a part is plain text. -/
def Part.isText : Part → Bool
  | .text _ => true
  | _ => false

/-- An opening delimiter stands at an offset of a text, and none between another offset and this one. -/
def Delimiters.OpensFirst (d : Delimiters) (text : List Char) (start offset : Nat) : Prop :=
  start ≤ offset ∧ d.Opens (text.drop offset) ∧ ∀ i, start ≤ i → i < offset → ¬d.Opens (text.drop i)

/-- A text splits into parts, and the tokens are those of the parts. A tag or short comment starts at the
first opening delimiter behind the tag or short comment before it. -/
structure Delimiters.Splits (d : Delimiters) (text : String) (parts : List Part) (tokens : List Token) :
    Prop where
  text_eq : text.toList = Part.sources d parts
  tokens_eq : tokens = Piece.tokens Location.start (Part.allPieces d parts ++ [Piece.final])
  formed : TokenKind.Formed (tokens.map Token.kind)
  apart : (tokens.map Token.kind).IsChain TokenKind.Apart
  stands : ∀ before part after, parts = before ++ part :: after → part.Stands d (Part.sources d after)
  opensFirst : ∀ before part after, parts = before ++ part :: after → part.isText = false →
    d.OpensFirst text.toList (Part.sources d (before.rdropWhile Part.isText)).length
      (Part.sources d before).length

namespace Delimiters

variable {d : Delimiters}

theorem reads_nil_iff {parts : List Part} {s : List Char} :
    d.Reads parts s [] ↔ s = Part.sources d parts ∧
      ∀ before part after, parts = before ++ part :: after → part.Stands d (Part.sources d after) := by
  constructor
  · intro h
    refine ⟨by rw [h.eq_append, List.append_nil], ?_⟩
    generalize hrest : ([] : List Char) = rest at h
    induction h with
    | done => simp
    | @part part parts s rest hstands hreads ih =>
        subst hrest
        intro before part' after hsplit
        cases before with
        | nil =>
            obtain ⟨rfl, rfl⟩ := List.cons.inj hsplit
            rwa [← List.append_nil (Part.sources d parts), ← hreads.eq_append]
        | cons part'' before =>
            obtain ⟨rfl, rfl⟩ := List.cons.inj hsplit
            exact ih rfl before part' after rfl
  · rintro ⟨rfl, h⟩
    induction parts with
    | nil => exact .done
    | cons part parts ih =>
        rw [Part.sources_cons]
        refine .part (h [] part parts rfl) (ih ?_)
        rintro before part' after rfl
        exact h (part :: before) part' after rfl

end Delimiters

namespace Part

variable {d : Delimiters}

/-- Plain text is not followed by plain text. -/
theorem Stands.isText_eq_false {value : List Char} {part : Part} {rest : List Char}
    (htext : (text value).Stands d (part.source d ++ rest)) (h : part.Stands d rest) :
    part.isText = false := by
  cases part with
  | comment | tag => rfl
  | text value' =>
      obtain ⟨-, -, hend⟩ := htext
      obtain ⟨hne, hclear, -⟩ := h
      rw [source_text] at hend
      have hopens := hend.resolve_left (List.append_ne_nil_of_left_ne_nil hne rest)
      exact absurd hopens (hclear [] value' rfl hne)

theorem Stands.opens {part : Part} {rest : List Char} (h : part.Stands d rest)
    (hpart : part.isText = false) : d.Opens (part.source d ++ rest) := by
  cases part with
  | text value => simp [isText] at hpart
  | comment body => exact .inr h.1.1
  | tag lexemes gap => exact .inl h.1.1

theorem Stands.formed {part : Part} {rest : List Char} (h : part.Stands d rest) {kinds : List TokenKind}
    (hkinds : TokenKind.Formed kinds) : TokenKind.Formed ((part.pieces d).map Piece.kind ++ kinds) := by
  cases part with
  | text value => exact .text hkinds
  | comment content =>
      cases content with
      | nil => exact .emptyComment hkinds
      | cons c content => exact .comment hkinds
  | tag lexemes gap =>
      have hlexemes : ∀ kind ∈ lexemes.map Piece.kind, kind ∈ Lexeme.patterns := by
        intro kind hmem
        obtain ⟨lexeme, hlexeme, rfl⟩ := List.mem_map.1 hmem
        exact h.lexical lexeme hlexeme
      have hformed := TokenKind.Formed.tag hlexemes hkinds
      simpa [pieces] using hformed

end Part

theorem TokenKind.isChain_apart_of_ne {kinds : List TokenKind} (h : ∀ kind ∈ kinds, kind ≠ .data) :
    kinds.IsChain Apart := by
  induction kinds with
  | nil => exact .nil
  | cons kind kinds ih =>
      rw [List.forall_mem_cons] at h
      exact (ih h.2).cons fun _ _ hdata => h.1 hdata.1

namespace Part

variable {d : Delimiters}

theorem Stands.isChain_apart {part : Part} {rest : List Char} (h : part.Stands d rest) :
    ((part.pieces d).map Piece.kind).IsChain TokenKind.Apart := by
  cases part with
  | text value => exact .singleton _
  | comment content => cases content <;> simp [pieces, body, TokenKind.Apart]
  | tag lexemes gap =>
      apply TokenKind.isChain_apart_of_ne
      intro kind hmem
      simp only [pieces, List.map_cons, List.map_append, List.map_nil, List.cons_append, List.mem_cons,
        List.mem_append, List.mem_map, List.not_mem_nil, or_false] at hmem
      rcases hmem with rfl | ⟨lexeme, hlexeme, rfl⟩ | rfl
      · decide
      · exact (Lexeme.ne_of_mem_patterns _ (h.lexical lexeme hlexeme)).1
      · decide

end Part

namespace Delimiters.Reads

variable {d : Delimiters} {parts : List Part} {s rest : List Char}

theorem formed (h : d.Reads parts s rest) :
    TokenKind.Formed ((Part.allPieces d parts ++ [Piece.final]).map Piece.kind) := by
  induction h with
  | done => exact .final
  | part hstands hreads ih =>
      rw [Part.allPieces_cons, List.append_assoc, List.map_append]
      exact hstands.formed ih

theorem isChain_apart (h : d.Reads parts s rest) :
    ((Part.allPieces d parts ++ [Piece.final]).map Piece.kind).IsChain TokenKind.Apart := by
  induction h with
  | done => exact .singleton _
  | @part part parts s rest hstands hreads ih =>
      rw [Part.allPieces_cons, List.append_assoc, List.map_append]
      refine hstands.isChain_apart.append ih ?_
      intro kind hkind next hnext
      rintro ⟨rfl, rfl⟩
      cases part with
      | comment | tag =>
          rw [Part.pieces, List.map_append, List.map_singleton, List.getLast?_concat] at hkind
          simp at hkind
      | text value =>
          cases hreads with
          | done => simp [Piece.final] at hnext
          | @part part' parts s _ hstands' hreads' =>
              have hpart := hstands.isText_eq_false hstands'
              cases part' with
              | text value' => simp [Part.isText] at hpart
              | comment body => simp [Part.pieces] at hnext
              | tag lexemes gap => simp [Part.pieces] at hnext

end Delimiters.Reads

/-! ### Openings -/

namespace Part

variable {d : Delimiters}

/-- Before the plain text in front of a tag or short comment there is no more plain text. -/
theorem rdropWhile_isText {before : List Part} {value : List Char} {part : Part} {rest : List Char}
    (hstands : ∀ front part' back, before ++ [text value] = front ++ part' :: back →
      part'.Stands d (sources d back ++ (part.source d ++ rest))) :
    (before ++ [text value]).rdropWhile isText = before := by
  rw [List.rdropWhile_concat_pos _ _ _ rfl, List.rdropWhile_eq_self_iff]
  intro hne
  obtain ⟨front, last, rfl⟩ := before.eq_nil_or_concat'.resolve_left hne
  have hlast := hstands front last [text value] (by simp)
  have htext := hstands (front ++ [last]) (text value) [] rfl
  rw [sources_cons, sources_nil, List.append_nil] at hlast
  rw [List.getLast_append_singleton]
  intro hisText
  cases last with
  | comment | tag => simp [isText] at hisText
  | text value' => exact absurd (hlast.isText_eq_false htext) (by simp [isText])

end Part

namespace Delimiters

variable {d : Delimiters}

theorem OpensFirst.refl {text : List Char} {offset : Nat} (h : d.Opens (text.drop offset)) :
    d.OpensFirst text offset offset :=
  ⟨le_refl offset, h, fun i hle hlt => absurd hle (by omega)⟩

/-- Behind a stretch of plain text comes the first opening from its start on. -/
theorem OpensFirst.of_clear {front value rest : List Char} (hclear : Text.Clear d.Opens value rest)
    (hopens : d.Opens rest) :
    d.OpensFirst (front ++ (value ++ rest)) front.length (front ++ value).length := by
  refine ⟨by simp, ?_, ?_⟩
  · rwa [← List.append_assoc, List.drop_left]
  · intro i hle hlt
    rw [List.length_append] at hlt
    have hvalue := List.take_append_drop (i - front.length) value
    have hdrop : (front ++ (value ++ rest)).drop i = value.drop (i - front.length) ++ rest := by
      rw [List.drop_append, List.drop_eq_nil_of_le hle, List.nil_append]
      exact List.drop_append_of_le_length (by omega)
    rw [hdrop]
    apply hclear _ _ hvalue.symm
    rw [List.ne_nil_iff_length_pos, List.length_drop]
    omega

theorem opensFirst_of_stands {before after : List Part} {part : Part}
    (h : ∀ front part' back, before ++ part :: after = front ++ part' :: back →
      part'.Stands d (Part.sources d back)) (hpart : part.isText = false) :
    d.OpensFirst (Part.sources d (before ++ part :: after))
      (Part.sources d (before.rdropWhile Part.isText)).length (Part.sources d before).length := by
  have hopens := (h before part after rfl).opens hpart
  rw [Part.sources_append, Part.sources_cons]
  rcases before.eq_nil_or_concat' with rfl | ⟨front, last, rfl⟩
  · exact OpensFirst.refl hopens
  cases last with
  | comment | tag =>
      rw [List.rdropWhile_concat_neg _ _ _ (by simp [Part.isText])]
      apply OpensFirst.refl
      rwa [List.drop_left]
  | text value =>
      obtain ⟨-, hclear, -⟩ := h front (.text value) (part :: after) (by simp)
      rw [Part.sources_cons] at hclear
      have hfront : (front ++ [Part.text value]).rdropWhile Part.isText = front := by
        refine @Part.rdropWhile_isText d front value part (Part.sources d after) ?_
        intro front' part' back hsplit
        have hstands := h front' part' (back ++ part :: after) (by rw [hsplit]; simp)
        rwa [Part.sources_append, Part.sources_cons] at hstands
      rw [hfront, Part.sources_append, Part.sources_cons, Part.sources_nil, Part.source_text,
        List.append_nil, List.append_assoc]
      exact OpensFirst.of_clear hclear hopens

/-- A text is read without an error exactly if it splits into parts. -/
theorem scan_eq_ok_iff_splits (d : Delimiters) (text : String) (tokens : List Token) :
    (d.scan text).outcome = .ok tokens ↔ ∃ parts, d.Splits text parts tokens := by
  refine Mode.outcome_eq_ok_iff.trans ⟨?_, ?_⟩
  · rintro ⟨parts, hreads, rfl⟩
    obtain ⟨htext, hstands⟩ := reads_nil_iff.1 hreads
    refine ⟨parts, htext, rfl, ?_, ?_, hstands, ?_⟩
    · rw [Piece.map_kind_tokens]
      exact hreads.formed
    · rw [Piece.map_kind_tokens]
      exact hreads.isChain_apart
    · rintro before part after rfl hpart
      rw [htext]
      exact opensFirst_of_stands hstands hpart
  · rintro ⟨parts, hsplits⟩
    exact ⟨parts, reads_nil_iff.2 ⟨hsplits.text_eq, hsplits.stands⟩, hsplits.tokens_eq⟩

end Delimiters

end TagTemplate
