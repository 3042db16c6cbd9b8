import TagTemplate.Lexer

/-!
# What a lexeme is

The five patterns of a tag's lexemes, said without the readers that look for them. A pattern relates a
lexeme to the text behind it, because a name or a number reaches as far as it can. The first pattern that
fits anything at the start of a text decides, and the readers do just that.
-/

namespace TagTemplate

namespace Text

/-- A run of a class of characters, as long as it can be in a text that goes on with `rest`. -/
structure IsRun (p : Char → Bool) (run rest : List Char) : Prop where
  all : ∀ c ∈ run, p c = true
  stop : ∀ c ∈ rest.head?, p c = false

theorem isRun_takeWhile (p : Char → Bool) (s : List Char) :
    IsRun p (s.takeWhile p) (s.dropWhile p) where
  all c hc := by
    have hall := List.all_takeWhile (p := p) (l := s)
    exact List.all_eq_true.1 hall c hc
  stop c hc := by
    have hhead := List.head?_dropWhile_not p s
    rw [Option.mem_def.1 hc] at hhead
    exact hhead

namespace IsRun

variable {p : Char → Bool} {run rest : List Char}

theorem takeWhile_eq_nil (h : IsRun p run rest) : rest.takeWhile p = [] := by
  cases rest with
  | nil => rfl
  | cons c rest => simp [h.stop c rfl]

theorem takeWhile_append (h : IsRun p run rest) : (run ++ rest).takeWhile p = run := by
  rw [List.takeWhile_append_of_pos h.all, h.takeWhile_eq_nil, List.append_nil]

theorem dropWhile_append (h : IsRun p run rest) : (run ++ rest).dropWhile p = rest := by
  have hsplit := List.takeWhile_append_dropWhile (p := p) (l := run ++ rest)
  rw [h.takeWhile_append] at hsplit
  exact List.append_cancel_left hsplit

end IsRun

/-- A text is split in one way only into a run and what follows it. -/
theorem isRun_iff {p : Char → Bool} {s run rest : List Char} :
    s.takeWhile p = run ∧ s.dropWhile p = rest ↔ s = run ++ rest ∧ IsRun p run rest := by
  constructor
  · rintro ⟨rfl, rfl⟩
    exact ⟨List.takeWhile_append_dropWhile.symm, isRun_takeWhile p s⟩
  · rintro ⟨rfl, h⟩
    exact ⟨h.takeWhile_append, h.dropWhile_append⟩

end Text

namespace Lexeme

open Text (IsRun isDigit isRun_iff)

/-! ### The patterns -/

/-- What may stand between two quotes: a backslash takes the next character with it, whatever that is, and
no other character is a backslash or the quote. -/
inductive Quotable (quote : Char) : List Char → Prop
  | nil : Quotable quote []
  | plain {c : Char} {body : List Char} :
      c ≠ quote → c ≠ '\\' → Quotable quote body → Quotable quote (c :: body)
  | escape {c : Char} {body : List Char} : Quotable quote body → Quotable quote ('\\' :: c :: body)

/-- The lexemes of each kind. The text behind a lexeme counts too: names and numbers go on for as long as
they can, and a long symbol is never taken for a short one. -/
inductive Fits : TokenKind → List Char → List Char → Prop
  | name {c : Char} {value rest : List Char} :
      isNameStart c = true → IsRun isNamePart value rest → Fits .name (c :: value) rest
  | float {whole fraction rest : List Char} :
      whole ≠ [] → (∀ c ∈ whole, isDigit c = true) → fraction ≠ [] → IsRun isDigit fraction rest →
      Fits .float (whole ++ '.' :: fraction) rest
  | integer {value rest : List Char} :
      value ≠ [] → IsRun isDigit value rest → Fits .integer value rest
  | string {quote : Char} {body rest : List Char} :
      quote = '"' ∨ quote = '\'' → Quotable quote body → Fits .string (quote :: body ++ [quote]) rest
  | longSymbol {value rest : List Char} : value ∈ longSymbols → Fits .symbol value rest
  | shortSymbol {c : Char} {rest : List Char} :
      c ∈ shortSymbols → (∀ value ∈ longSymbols, ¬value <+: c :: rest) → Fits .symbol [c] rest

/-- The patterns in the order in which they are tried. -/
def patterns : List TokenKind := [.name, .float, .integer, .string, .symbol]

/-- No lexeme of this kind stands at the start of a text. -/
def Misses (kind : TokenKind) (s : List Char) : Prop :=
  ∀ value rest, s = value ++ rest → ¬Fits kind value rest

/-- A lexeme of a kind, where no pattern before that kind fits. -/
structure Leads (kind : TokenKind) (value rest : List Char) : Prop where
  fits : Fits kind value rest
  first : ∀ earlier ∈ patterns.takeWhile (· != kind), Misses earlier (value ++ rest)

theorem Fits.mem_patterns {kind : TokenKind} {value rest : List Char} (h : Fits kind value rest) :
    kind ∈ patterns := by
  cases h <;> decide

theorem ne_of_mem_patterns : ∀ kind ∈ patterns,
    kind ≠ .data ∧ kind ≠ .blockBegin ∧ kind ≠ .blockEnd ∧ kind ≠ .eof := by
  decide

theorem Fits.value_ne_nil {kind : TokenKind} {value rest : List Char} (h : Fits kind value rest) :
    value ≠ [] := by
  cases h with
  | name | string | shortSymbol => simp
  | float => simp
  | integer hne => exact hne
  | longSymbol hmem =>
      rintro rfl
      exact absurd hmem (by decide)

/-! ### The readers find them -/

theorem name?_eq_some_iff {s value rest : List Char} :
    name? s = some (value, rest) ↔ s = value ++ rest ∧ Fits .name value rest := by
  constructor
  · intro h
    cases s with
    | nil => simp [name?] at h
    | cons c s =>
        simp only [name?] at h
        split at h
        · rename_i hc
          simp only [Option.some.injEq, Prod.mk.injEq] at h
          obtain ⟨rfl, rfl⟩ := h
          have hrun := Text.isRun_takeWhile isNamePart s
          exact ⟨by rw [List.cons_append, List.takeWhile_append_dropWhile], .name hc hrun⟩
        · simp at h
  · rintro ⟨rfl, hfits⟩
    cases hfits with
    | name hc hrun => simp [name?, hc, hrun.takeWhile_append, hrun.dropWhile_append]

theorem integer?_eq_some_iff {s value rest : List Char} :
    integer? s = some (value, rest) ↔ s = value ++ rest ∧ Fits .integer value rest := by
  constructor
  · intro h
    unfold integer? at h
    split at h
    · simp at h
    · rename_i hne
      simp only [Option.some.injEq, Prod.mk.injEq] at h
      obtain ⟨hs, hrun⟩ := isRun_iff.1 h
      rw [h.1] at hne
      exact ⟨hs, .integer hne hrun⟩
  · rintro ⟨rfl, hfits⟩
    cases hfits with
    | integer hne hrun =>
        obtain ⟨c, digits, rfl⟩ := List.exists_cons_of_ne_nil hne
        unfold integer?
        rw [hrun.takeWhile_append, hrun.dropWhile_append]

/-- A point is no digit, so the whole part of a fraction is all the digits before it. -/
theorem isRun_point {whole rest : List Char} (h : ∀ c ∈ whole, isDigit c = true) :
    IsRun isDigit whole ('.' :: rest) where
  all := h
  stop c hc := by
    obtain rfl : '.' = c := Option.some.inj hc
    decide

theorem float?_eq_some_iff {s value rest : List Char} :
    float? s = some (value, rest) ↔ s = value ++ rest ∧ Fits .float value rest := by
  constructor
  · intro h
    unfold float? at h
    split at h
    · rename_i whole s' hwhole
      obtain ⟨⟨fraction, rest'⟩, hfraction, heq⟩ := Option.map_eq_some_iff.1 h
      simp only [Prod.mk.injEq] at heq
      obtain ⟨rfl, rfl⟩ := heq
      obtain ⟨rfl, hw⟩ := integer?_eq_some_iff.1 hwhole
      obtain ⟨rfl, hf⟩ := integer?_eq_some_iff.1 hfraction
      cases hw with
      | integer hwne hwrun =>
          cases hf with
          | integer hfne hfrun => exact ⟨by simp, .float hwne hwrun.all hfne hfrun⟩
    · simp at h
  · rintro ⟨rfl, hfits⟩
    cases hfits with
    | @float whole fraction rest hwne hwhole hfne hfrun =>
        have hw : integer? (whole ++ '.' :: (fraction ++ rest)) =
            some (whole, '.' :: (fraction ++ rest)) :=
          integer?_eq_some_iff.2 ⟨rfl, .integer hwne (isRun_point hwhole)⟩
        have hf : integer? (fraction ++ rest) = some (fraction, rest) :=
          integer?_eq_some_iff.2 ⟨rfl, .integer hfne hfrun⟩
        rw [List.append_assoc, List.cons_append]
        simp [float?, hw, hf]

theorem stringTail?_eq_some_iff {quote : Char} (hquote : quote ≠ '\\') {s value rest : List Char} :
    stringTail? quote s = some (value, rest) ↔
      ∃ body, Quotable quote body ∧ value = body ++ [quote] ∧ s = value ++ rest := by
  constructor
  · intro h
    fun_induction stringTail? quote s generalizing value rest with
    | case1 => simp at h
    | case2 =>
        simp only [Option.some.injEq, Prod.mk.injEq] at h
        obtain ⟨rfl, rfl⟩ := h
        exact ⟨[], .nil, rfl, rfl⟩
    | case3 => simp at h
    | case4 =>
        simp only [Option.some.injEq, Prod.mk.injEq] at h
        obtain ⟨rfl, rfl⟩ := h
        exact ⟨[], .nil, rfl, rfl⟩
    | case5 c' s hne ih =>
        obtain ⟨⟨tail, rest'⟩, htail, heq⟩ := Option.map_eq_some_iff.1 h
        simp only [Prod.mk.injEq] at heq
        obtain ⟨rfl, rfl⟩ := heq
        obtain ⟨body, hbody, rfl, rfl⟩ := ih htail
        exact ⟨'\\' :: c' :: body, .escape hbody, rfl, rfl⟩
    | case6 c c' s hne hescape ih =>
        obtain ⟨⟨tail, rest'⟩, htail, heq⟩ := Option.map_eq_some_iff.1 h
        simp only [Prod.mk.injEq] at heq
        obtain ⟨rfl, rfl⟩ := heq
        obtain ⟨body, hbody, rfl, hs⟩ := ih htail
        exact ⟨c :: body, .plain hne hescape hbody, rfl, by rw [hs]; rfl⟩
  · rintro ⟨body, hbody, rfl, rfl⟩
    induction hbody with
    | nil => cases rest <;> simp [stringTail?]
    | @plain c body hne hescape hbody ih =>
        -- what follows the character is not empty: the closing quote is still to come
        obtain ⟨c', s, hs⟩ : ∃ c' s, body ++ [quote] ++ rest = c' :: s := by
          cases body <;> simp
        rw [List.cons_append, List.cons_append, hs, stringTail?, if_neg hne, if_neg hescape, ← hs, ih]
        rfl
    | @escape c body hbody ih =>
        simp only [List.cons_append] at ih ⊢
        rw [stringTail?, if_neg hquote.symm, if_pos rfl, ih]
        rfl

theorem string?_eq_some_iff {s value rest : List Char} :
    string? s = some (value, rest) ↔ s = value ++ rest ∧ Fits .string value rest := by
  have hne {c : Char} (hc : c = '"' ∨ c = '\'') : c ≠ '\\' := by
    rcases hc with rfl | rfl <;> decide
  constructor
  · intro h
    cases s with
    | nil => simp [string?] at h
    | cons c s =>
        simp only [string?] at h
        split at h
        · rename_i hc
          obtain ⟨⟨tail, rest'⟩, htail, heq⟩ := Option.map_eq_some_iff.1 h
          simp only [Prod.mk.injEq] at heq
          obtain ⟨rfl, rfl⟩ := heq
          obtain ⟨body, hbody, rfl, rfl⟩ := (stringTail?_eq_some_iff (hne hc)).1 htail
          exact ⟨rfl, .string hc hbody⟩
        · simp at h
  · rintro ⟨rfl, hfits⟩
    cases hfits with
    | @string quote body rest hc hbody =>
        have htail : stringTail? quote (body ++ [quote] ++ rest) = some (body ++ [quote], rest) :=
          (stringTail?_eq_some_iff (hne hc)).2 ⟨body, hbody, rfl, rfl⟩
        rw [List.cons_append, List.cons_append, string?, if_pos hc, htail]
        rfl

theorem prefix_longSymbol_iff {s : List Char} :
    (∃ value ∈ longSymbols, value <+: s) ↔ s.take 2 ∈ longSymbols := by
  have hlength : ∀ value ∈ longSymbols, value.length = 2 := by decide
  constructor
  · rintro ⟨value, hmem, rest, rfl⟩
    rw [← hlength value hmem, List.take_left]
    exact hmem
  · exact fun h => ⟨s.take 2, h, List.take_prefix 2 s⟩

theorem symbol?_eq_some_iff {s value rest : List Char} :
    symbol? s = some (value, rest) ↔ s = value ++ rest ∧ Fits .symbol value rest := by
  constructor
  · intro h
    unfold symbol? at h
    split at h
    · rename_i hlong
      simp only [Option.some.injEq, Prod.mk.injEq] at h
      obtain ⟨rfl, rfl⟩ := h
      exact ⟨(List.take_append_drop 2 s).symm, .longSymbol (List.contains_iff_mem.1 hlong)⟩
    · rename_i hlong
      split at h
      · simp at h
      · rename_i c s'
        split at h
        · rename_i hshort
          simp only [Option.some.injEq, Prod.mk.injEq] at h
          obtain ⟨rfl, rfl⟩ := h
          refine ⟨rfl, .shortSymbol (List.contains_iff_mem.1 hshort) ?_⟩
          intro value hmem hprefix
          exact hlong (List.contains_iff_mem.2 (prefix_longSymbol_iff.1 ⟨value, hmem, hprefix⟩))
        · simp at h
  · rintro ⟨rfl, hfits⟩
    cases hfits with
    | longSymbol hmem =>
        have hlength : value.length = 2 := (by decide : ∀ value ∈ longSymbols, value.length = 2) value hmem
        have htake : (value ++ rest).take 2 = value := by rw [← hlength, List.take_left]
        have hdrop : (value ++ rest).drop 2 = rest := by rw [← hlength, List.drop_left]
        simp [symbol?, htake, hdrop, hmem]
    | @shortSymbol c rest hmem hlong =>
        have htake : (c :: rest).take 2 ∉ longSymbols := by
          intro h
          obtain ⟨value, hvalue, hprefix⟩ := prefix_longSymbol_iff.2 h
          exact hlong value hvalue hprefix
        simp only [symbol?, List.contains_iff_mem, List.cons_append, List.nil_append, if_neg htake,
          if_pos hmem]

/-- A reader of a pattern finds nothing where the pattern does not fit. -/
theorem eq_none_iff_misses {reader : List Char → Option (List Char × List Char)} {kind : TokenKind}
    (hreader : ∀ {s value rest},
      reader s = some (value, rest) ↔ s = value ++ rest ∧ Fits kind value rest) {s : List Char} :
    reader s = none ↔ Misses kind s := by
  constructor
  · rintro h value rest rfl hfits
    rw [hreader.2 ⟨rfl, hfits⟩] at h
    exact absurd h (by simp)
  · intro h
    cases hread : reader s with
    | none => rfl
    | some found =>
        obtain ⟨hs, hfits⟩ := hreader.1 hread
        exact absurd hfits (h _ _ hs)

/-- The lexeme at the start of a text is the one of the first pattern that fits. -/
theorem read?_eq_some_iff {kind : TokenKind} {s value rest : List Char} :
    read? s = some (kind, value, rest) ↔ s = value ++ rest ∧ Leads kind value rest := by
  have hname := eq_none_iff_misses @name?_eq_some_iff (s := s)
  have hfloat := eq_none_iff_misses @float?_eq_some_iff (s := s)
  have hinteger := eq_none_iff_misses @integer?_eq_some_iff (s := s)
  have hstring := eq_none_iff_misses @string?_eq_some_iff (s := s)
  simp only [read?, Option.or_eq_some_iff, Option.map_eq_some_iff, Option.map_eq_none_iff,
    Prod.mk.injEq, hname, hfloat, hinteger, hstring]
  constructor
  · rintro (⟨_, h, rfl, rfl⟩ | ⟨hnm, ⟨_, h, rfl, rfl⟩ | ⟨hfl, ⟨_, h, rfl, rfl⟩ |
      ⟨hin, ⟨_, h, rfl, rfl⟩ | ⟨hst, _, h, rfl, rfl⟩⟩⟩⟩)
    · obtain ⟨rfl, hfits⟩ := name?_eq_some_iff.1 h
      exact ⟨rfl, hfits, by simp [patterns]⟩
    · obtain ⟨rfl, hfits⟩ := float?_eq_some_iff.1 h
      exact ⟨rfl, hfits, by simp [patterns, hnm]⟩
    · obtain ⟨rfl, hfits⟩ := integer?_eq_some_iff.1 h
      exact ⟨rfl, hfits, by simp [patterns, hnm, hfl]⟩
    · obtain ⟨rfl, hfits⟩ := string?_eq_some_iff.1 h
      exact ⟨rfl, hfits, by simp [patterns, hnm, hfl, hin]⟩
    · obtain ⟨rfl, hfits⟩ := symbol?_eq_some_iff.1 h
      exact ⟨rfl, hfits, by simp [patterns, hnm, hfl, hin, hst]⟩
  · rintro ⟨rfl, hfits, hfirst⟩
    have hkind := hfits.mem_patterns
    simp only [patterns, List.mem_cons, List.not_mem_nil, or_false] at hkind
    rcases hkind with rfl | rfl | rfl | rfl | rfl
    · exact .inl ⟨_, name?_eq_some_iff.2 ⟨rfl, hfits⟩, rfl, rfl⟩
    · have hnm := hfirst .name (by decide)
      exact .inr ⟨hnm, .inl ⟨_, float?_eq_some_iff.2 ⟨rfl, hfits⟩, rfl, rfl⟩⟩
    · have hnm := hfirst .name (by decide)
      have hfl := hfirst .float (by decide)
      exact .inr ⟨hnm, .inr ⟨hfl, .inl ⟨_, integer?_eq_some_iff.2 ⟨rfl, hfits⟩, rfl, rfl⟩⟩⟩
    · have hnm := hfirst .name (by decide)
      have hfl := hfirst .float (by decide)
      have hin := hfirst .integer (by decide)
      exact .inr ⟨hnm, .inr ⟨hfl, .inr ⟨hin, .inl ⟨_, string?_eq_some_iff.2 ⟨rfl, hfits⟩, rfl, rfl⟩⟩⟩⟩
    · have hnm := hfirst .name (by decide)
      have hfl := hfirst .float (by decide)
      have hin := hfirst .integer (by decide)
      have hst := hfirst .string (by decide)
      exact .inr ⟨hnm, .inr ⟨hfl, .inr ⟨hin, .inr ⟨hst, _, symbol?_eq_some_iff.2 ⟨rfl, hfits⟩, rfl, rfl⟩⟩⟩⟩

end Lexeme

end TagTemplate
