import Mathlib
import TagTemplate.Proofs.Integer
import TagTemplate.Proofs.Seam

/-!
# Tags and comments that are written down

A lexeme ends in front of a blank, and in front of the standard delimiter that ends a tag. So lexemes with blanks
between them stand in a tag as they were written, with or without blanks beside its delimiters. A short comment
holds any text in which the delimiter that ends it does not occur.
-/

namespace TagTemplate

open Text (IsRun isBlank isDigit Clear)

theorem Text.IsRun.of_cons {p : Char → Bool} {run rest : List Char} {c : Char} (hall : ∀ c ∈ run, p c = true)
    (hc : p c = false) : IsRun p run (c :: rest) := by
  refine ⟨hall, ?_⟩
  rintro _ ⟨⟩
  exact hc

namespace Lexeme

variable {c : Char} {kind : TokenKind} {value rest : List Char}

/-! ### Characters -/

theorem isNameStart_iff : isNameStart c = true ↔
    (0x41 ≤ c.toNat ∧ c.toNat ≤ 0x5A) ∨ (0x61 ≤ c.toNat ∧ c.toNat ≤ 0x7A) ∨ c.toNat = 0x5F := by
  have hunderscore : c = '_' ↔ c.toNat = 0x5F := by
    rw [← Char.toNat_inj]
    rfl
  simp only [isNameStart, Char.isAlpha, Char.isUpper, Char.isLower, Bool.or_eq_true, Bool.and_eq_true,
    decide_eq_true_eq, ge_iff_le, UInt32.le_iff_toNat_le, beq_iff_eq, hunderscore, or_assoc]
  rfl

theorem isNamePart_iff : isNamePart c = true ↔ isNameStart c = true ∨ c.isDigit = true := by
  simp only [isNamePart, isNameStart, Char.isAlphanum, Bool.or_eq_true]
  exact or_right_comm

theorem not_isNameStart_of_isDigit (h : isDigit c = true) : isNameStart c = false := by
  obtain ⟨row, hmem, hrow⟩ := Text.isDigit_iff.1 h
  have hapart := Text.digitZeros_apart row hmem
  rw [Bool.eq_false_iff, ne_eq, isNameStart_iff]
  omega

theorem not_isBlank_of_isNameStart (h : isNameStart c = true) : isBlank c = false := by
  rw [isNameStart_iff] at h
  simp only [isBlank, Text.isAsciiBlank, Bool.or_eq_false_iff, Bool.and_eq_false_iff, decide_eq_false_iff_not,
    beq_eq_false_iff_ne]
  omega

theorem not_isNamePart_of_isBlank (h : isBlank c = true) : isNamePart c = false := by
  rw [Bool.eq_false_iff, ne_eq, isNamePart_iff]
  rintro (hstart | hdigit)
  · simp [not_isBlank_of_isNameStart hstart] at h
  · simp [Text.not_isBlank_of_isDigit (Text.isDigit_of_isDigit hdigit)] at h

/-- A blank, or the first character of the delimiter that ends a tag. -/
def Ends (c : Char) : Prop :=
  isBlank c = true ∨ c = '%'

instance (c : Char) : Decidable (Ends c) :=
  inferInstanceAs (Decidable (_ ∨ _))

namespace Ends

theorem not_isNamePart (h : Ends c) : isNamePart c = false := by
  rcases h with h | rfl
  · exact not_isNamePart_of_isBlank h
  · decide

theorem not_isDigit (h : Ends c) : isDigit c = false := by
  rcases h with h | rfl
  · by_contra hdigit
    simp [Text.not_isBlank_of_isDigit (by simpa using hdigit)] at h
  · decide

end Ends

/-! ### Lexemes -/

theorem of_mem_longSymbols (hmem : value ∈ longSymbols) (hc : c ∈ value) :
    isNameStart c = false ∧ isDigit c = false ∧ ¬Ends c := by
  have hall : longSymbols.flatten.Forall fun c => isNameStart c = false ∧ isDigit c = false ∧ ¬Ends c := by
    decide
  exact List.forall_iff_forall_mem.1 hall c (List.mem_flatten.2 ⟨value, hmem, hc⟩)

theorem of_mem_shortSymbols (hmem : c ∈ shortSymbols) :
    isNameStart c = false ∧ isDigit c = false ∧ isBlank c = false := by
  have hall : shortSymbols.Forall fun c => isNameStart c = false ∧ isDigit c = false ∧ isBlank c = false := by
    decide
  exact List.forall_iff_forall_mem.1 hall c hmem

/-- A symbol begins with a character that no other lexeme begins with, and only one symbol can be taken for the end
of a tag. -/
theorem Fits.head_of_symbol (h : Fits .symbol (c :: value) rest) :
    isNameStart c = false ∧ isDigit c = false ∧ isBlank c = false ∧ (c = '%' → value = []) := by
  cases h with
  | longSymbol hmem =>
      obtain ⟨hstart, hdigit, hends⟩ := of_mem_longSymbols hmem List.mem_cons_self
      rw [Ends, not_or, Bool.not_eq_true] at hends
      exact ⟨hstart, hdigit, hends.1, fun hc => absurd hc hends.2⟩
  | shortSymbol hmem =>
      obtain ⟨hstart, hdigit, hblank⟩ := of_mem_shortSymbols hmem
      exact ⟨hstart, hdigit, hblank, fun _ => rfl⟩

theorem Fits.exists_head (h : Fits kind value rest) :
    ∃ c s, value = c :: s ∧ isBlank c = false ∧ (c = '%' → s = []) := by
  have hdigit {c : Char} {s : List Char} (hc : isDigit c = true) : isBlank c = false ∧ (c = '%' → s = []) := by
    refine ⟨Text.not_isBlank_of_isDigit hc, ?_⟩
    rintro rfl
    exact absurd hc (by decide)
  by_cases hkind : kind = .symbol
  · subst hkind
    obtain ⟨c, s, rfl⟩ := List.exists_cons_of_ne_nil h.value_ne_nil
    exact ⟨c, s, rfl, h.head_of_symbol.2.2⟩
  cases h with
  | @name c s rest hc hrun =>
      refine ⟨c, s, rfl, not_isBlank_of_isNameStart hc, ?_⟩
      rintro rfl
      exact absurd hc (by decide)
  | float hwhole hdigits =>
      obtain ⟨c, s, rfl⟩ := List.exists_cons_of_ne_nil hwhole
      exact ⟨c, _, rfl, hdigit (hdigits c (by simp))⟩
  | integer hne hrun =>
      obtain ⟨c, s, rfl⟩ := List.exists_cons_of_ne_nil hne
      exact ⟨c, s, rfl, hdigit (hrun.all c (by simp))⟩
  | @string quote body _ hquote =>
      refine ⟨quote, _, rfl, ?_⟩
      rcases hquote with rfl | rfl
      · exact ⟨by decide, by simp⟩
      · exact ⟨by decide, by simp⟩
  | longSymbol | shortSymbol => exact absurd rfl hkind

/-- A lexeme that nothing follows does not go on in front of a blank or the end of a tag. -/
theorem Fits.followed (h : Fits kind value []) (hc : Ends c) : Fits kind value (c :: rest) := by
  cases h with
  | name hstart hrun => exact .name hstart (.of_cons hrun.all hc.not_isNamePart)
  | float hwhole hdigits hfraction hrun =>
      exact .float hwhole hdigits hfraction (.of_cons hrun.all hc.not_isDigit)
  | integer hne hrun => exact .integer hne (.of_cons hrun.all hc.not_isDigit)
  | string hquote hbody => exact .string hquote hbody
  | longSymbol hmem => exact .longSymbol hmem
  | shortSymbol hmem =>
      refine .shortSymbol hmem ?_
      rintro value hvalue ⟨s, hs⟩
      obtain ⟨c₁, c₂, rfl⟩ := List.length_eq_two.1 (length_longSymbols value hvalue)
      obtain ⟨-, hrest⟩ := List.cons.inj hs
      obtain ⟨rfl, -⟩ := List.cons.inj hrest
      exact (of_mem_longSymbols hvalue (by simp)).2.2 hc

theorem Fits.leads (h : Fits kind value []) (hc : Ends c) : Leads kind value (c :: rest) := by
  refine ⟨h.followed hc, ?_⟩
  by_cases hkind : kind = .symbol
  · subst hkind
    obtain ⟨c', s, rfl⟩ := List.exists_cons_of_ne_nil h.value_ne_nil
    obtain ⟨hstart, hdigit, -⟩ := h.head_of_symbol
    simp [patterns, misses_name hstart, misses_float hdigit, misses_integer hdigit,
      misses_string h.ne_quote.1 h.ne_quote.2]
  cases h with
  | name => simp [patterns]
  | float hwhole hdigits =>
      obtain ⟨c', s, rfl⟩ := List.exists_cons_of_ne_nil hwhole
      have hname := not_isNameStart_of_isDigit (hdigits c' (by simp))
      simp [patterns, misses_name hname]
  | integer hne hrun =>
      have hfloat : Misses .float (value ++ c :: rest) := by
        refine misses_float_of_isRun (.of_cons hrun.all hc.not_isDigit) fun c' s' heq => ?_
        obtain ⟨rfl, -⟩ := List.cons.inj heq
        exact absurd hc (by decide)
      obtain ⟨c', s, rfl⟩ := List.exists_cons_of_ne_nil hne
      have hname := not_isNameStart_of_isDigit (hrun.all c' (by simp))
      simpa [patterns] using ⟨misses_name hname, hfloat⟩
  | @string quote body _ hquote =>
      have hhead : isNameStart quote = false ∧ isDigit quote = false := by
        rcases hquote with rfl | rfl <;> decide
      simp [patterns, misses_name hhead.1, misses_float hhead.2, misses_integer hhead.2]
  | longSymbol | shortSymbol => exact absurd rfl hkind

end Lexeme

/-! ### Tags -/

/-- A lexeme on its own, and blanks before it. -/
structure Piece.Spelled (piece : Piece) : Prop where
  fits : Lexeme.Fits piece.kind piece.value []
  blank : ∀ c ∈ piece.gap, isBlank c = true

namespace Delimiters

variable {lexemes : List Piece} {gap rest : List Char}

theorem exists_ends (hblank : ∀ c ∈ gap, isBlank c = true)
    (hrest : gap = [] → ∃ c s, rest = c :: s ∧ Lexeme.Ends c) : ∃ c s, gap ++ rest = c :: s ∧ Lexeme.Ends c := by
  cases gap with
  | nil => exact hrest rfl
  | cons c gap => exact ⟨c, gap ++ rest, rfl, .inl (hblank c (by simp))⟩

/-- Lexemes with blanks between them stand in a tag as they are. -/
theorem holds_of_spelled (hspelled : ∀ lexeme ∈ lexemes, lexeme.Spelled)
    (hgaps : ∀ lexeme ∈ lexemes.tail, lexeme.gap ≠ []) (hrest : ∃ c s, rest = c :: s ∧ Lexeme.Ends c) :
    standard.Holds lexemes rest := by
  induction lexemes with
  | nil => trivial
  | cons lexeme lexemes ih =>
      obtain ⟨hlexeme, hlexemes⟩ := List.forall_mem_cons.1 hspelled
      have hholds := ih hlexemes fun lexeme hmem => hgaps lexeme (List.mem_of_mem_tail hmem)
      obtain ⟨c, s, hs, hc⟩ : ∃ c s, Piece.sources lexemes ++ rest = c :: s ∧ Lexeme.Ends c := by
        cases lexemes with
        | nil => exact hrest
        | cons next lexemes =>
            rw [Piece.sources_cons, Piece.source, List.append_assoc, List.append_assoc]
            exact exists_ends (hlexemes next (by simp)).blank fun hnil => absurd hnil (hgaps next (by simp))
      obtain ⟨c', s', hvalue, hblank, hpercent⟩ := hlexeme.fits.exists_head
      refine ⟨⟨⟨hlexeme.blank, ?_⟩, ?_, ?_⟩, hholds⟩
      · rw [hvalue]
        rintro _ ⟨⟩
        exact hblank
      · -- A percent sign is a lexeme of its own, and no blank and no other sign can be the rest of the delimiter.
        rw [hvalue, hs]
        rintro ⟨t, ht⟩
        obtain ⟨rfl, htail⟩ := List.cons.inj ht
        rw [hpercent rfl] at htail
        obtain ⟨rfl, -⟩ := List.cons.inj htail
        exact absurd hc (by decide)
      · rw [hs]
        exact hlexeme.fits.leads hc

end Delimiters

namespace Part

/-- A tag of lexemes with blanks between them is read as it was written, whatever blanks stand beside its delimiters
and whatever follows it. -/
theorem stands_tag {lexemes : List Piece} {gap : List Char} (hspelled : ∀ lexeme ∈ lexemes, lexeme.Spelled)
    (hgaps : ∀ lexeme ∈ lexemes.tail, lexeme.gap ≠ []) (hgap : ∀ c ∈ gap, isBlank c = true) (rest : List Char) :
    (tag lexemes gap).Stands .standard rest := by
  have hclose : ∃ c s, Delimiters.standard.blockEnd.toList ++ rest = c :: s ∧ Lexeme.Ends c :=
    ⟨'%', _, rfl, .inr rfl⟩
  refine ⟨?_, Delimiters.holds_of_spelled hspelled hgaps (Delimiters.exists_ends hgap fun _ => hclose), hgap, ?_⟩
  · rw [source_tag, List.append_assoc]
    exact Delimiters.settled_standard.wins_block (List.prefix_append _ _)
  · rintro _ ⟨⟩
    decide

/-! ### Short comments -/

/-- The delimiter that ends a short comment does not begin in its body either. -/
theorem clear_of_not_infix {body : List Char} (h : ¬Delimiters.standard.commentEnd.toList <:+: body)
    (rest : List Char) : Clear (Delimiters.standard.commentEnd.toList <+: ·) body
      (Delimiters.standard.commentEnd.toList ++ rest) := by
  have hend : Delimiters.standard.commentEnd.toList = ['#', '\x7d'] := rfl
  rw [hend] at h ⊢
  rintro before after rfl hne ⟨t, ht⟩
  rcases after with _ | ⟨c₁, _ | ⟨c₂, after⟩⟩
  · exact hne rfl
  · -- The body ends in the first character of the delimiter, and behind it the delimiter stands as a whole.
    obtain ⟨-, htail⟩ := List.cons.inj ht
    exact absurd (List.cons.inj htail).1 (by decide)
  · obtain ⟨rfl, htail⟩ := List.cons.inj ht
    obtain ⟨rfl, -⟩ := List.cons.inj htail
    exact h ⟨before, after, by simp⟩

theorem stands_comment {body : List Char} (h : ¬Delimiters.standard.commentEnd.toList <:+: body)
    (rest : List Char) : (comment body).Stands .standard rest := by
  refine ⟨?_, clear_of_not_infix h rest⟩
  rw [source_comment, List.append_assoc]
  exact Delimiters.settled_standard.wins_comment (List.prefix_append _ _)

end Part

/-! ### Plain text between delimiters -/

/-- Where no two plain texts are neighbours, a delimiter opens behind each of them, or nothing follows. -/
theorem Delimiters.opens_flatMap {d : Delimiters} {α : Type} {plain : α → Bool} {source : α → List Char}
    (hopens : ∀ item, plain item = false → ∀ rest, d.Opens (source item ++ rest)) {item : α} {items : List α}
    (h : (item :: items).IsChain fun item next => plain item = true → plain next = false)
    (hplain : plain item = true) : items.flatMap source = [] ∨ d.Opens (items.flatMap source) := by
  cases items with
  | nil => exact .inl rfl
  | cons next items =>
      obtain ⟨hnext, -⟩ := List.isChain_cons_cons.1 h
      exact .inr (hopens next (hnext hplain) _)

end TagTemplate
