import TagTemplate.Proofs.Scan

/-!
# Texts that go on

A part of a text stays what it is when the text goes on behind it, if no opening delimiter is hidden in the other
and the delimiter that ends a tag has the two characters that settle whether a lexeme ends. All that can change is
plain text at the very end, of which the last characters may become the first of a delimiter.
-/

namespace TagTemplate

open Text (IsRun isBlank isDigit Clear)

theorem Text.IsRun.append {p : Char → Bool} {run rest : List Char} (h : IsRun p run rest) (hne : rest ≠ [])
    (more : List Char) : IsRun p run (rest ++ more) where
  all := h.all
  stop c hc := by
    rw [List.head?_append_of_ne_nil rest hne] at hc
    exact h.stop c hc

/-! ### Lexemes -/

namespace Lexeme

variable {kind : TokenKind} {value rest s : List Char} {c : Char}

theorem length_longSymbols : ∀ value ∈ longSymbols, value.length = 2 := by
  decide

theorem Fits.append (h : Fits kind value rest) (hne : rest ≠ []) (more : List Char) :
    Fits kind value (rest ++ more) := by
  cases h with
  | name hc hrun => exact .name hc (hrun.append hne more)
  | float hwhole hdigits hfraction hrun => exact .float hwhole hdigits hfraction (hrun.append hne more)
  | integer hdigits hrun => exact .integer hdigits (hrun.append hne more)
  | string hquote hbody => exact .string hquote hbody
  | longSymbol hmem => exact .longSymbol hmem
  | @shortSymbol c _ hmem hlong =>
      refine .shortSymbol hmem fun value hvalue hprefix => hlong value hvalue ?_
      rw [← List.cons_append] at hprefix
      refine (List.isPrefix_append_of_length ?_).1 hprefix
      rw [length_longSymbols value hvalue, List.length_cons]
      have := List.length_pos_iff.2 hne
      omega

theorem misses_name (h : isNameStart c = false) : Misses .name (c :: s) := by
  intro value rest heq hfits
  cases hfits with
  | name hc =>
      obtain ⟨rfl, -⟩ := List.cons.inj heq
      simp [hc] at h

theorem misses_integer (h : isDigit c = false) : Misses .integer (c :: s) := by
  intro value rest heq hfits
  cases hfits with
  | integer hne hrun =>
      obtain ⟨c', value, rfl⟩ := List.exists_cons_of_ne_nil hne
      obtain ⟨rfl, -⟩ := List.cons.inj heq
      simp [hrun.all c (by simp)] at h

theorem misses_float (h : isDigit c = false) : Misses .float (c :: s) := by
  intro value rest heq hfits
  cases hfits with
  | float hne hwhole =>
      obtain ⟨c', whole, rfl⟩ := List.exists_cons_of_ne_nil hne
      obtain ⟨rfl, -⟩ := List.cons.inj heq
      simp [hwhole c (by simp)] at h

/-- Digits are no fraction if there is no point behind them, or no digit behind the point. -/
theorem misses_float_of_isRun {digits : List Char} (hrun : IsRun isDigit digits rest)
    (hrest : ∀ c' s', rest = '.' :: c' :: s' → isDigit c' = false) : Misses .float (digits ++ rest) := by
  intro value rest' heq hfits
  cases hfits with
  | @float whole fraction _ hne hwhole hne' hrun' =>
      rw [List.append_assoc, List.cons_append] at heq
      have hdrop := hrun.dropWhile_append
      rw [heq, (isRun_point hwhole).dropWhile_append] at hdrop
      obtain ⟨c', fraction, rfl⟩ := List.exists_cons_of_ne_nil hne'
      have hdigit := hrest c' _ hdrop.symm
      simp [hrun'.all c' (by simp)] at hdigit

theorem misses_string (h : c ≠ '"') (h' : c ≠ '\'') : Misses .string (c :: s) := by
  intro value rest heq hfits
  cases hfits with
  | string hquote =>
      obtain ⟨rfl, -⟩ := List.cons.inj heq
      exact hquote.elim h h'

theorem not_isNameStart_of_misses (h : Misses .name (c :: s)) : isNameStart c = false := by
  by_contra hc
  refine h (c :: s.takeWhile isNamePart) (s.dropWhile isNamePart) ?_
    (.name (by simpa using hc) (Text.isRun_takeWhile isNamePart s))
  rw [List.cons_append, List.takeWhile_append_dropWhile]

theorem not_isDigit_of_misses (h : Misses .integer (c :: s)) : isDigit c = false := by
  by_contra hc
  refine h ((c :: s).takeWhile isDigit) ((c :: s).dropWhile isDigit) List.takeWhile_append_dropWhile.symm
    (.integer ?_ (Text.isRun_takeWhile isDigit _))
  rw [List.takeWhile_cons_of_pos (by simpa using hc)]
  exact List.cons_ne_nil _ _

theorem not_isDigit_of_misses_float {digits : List Char} (hne : digits ≠ [])
    (hdigits : ∀ c ∈ digits, isDigit c = true) (h : Misses .float (digits ++ '.' :: c :: s)) :
    isDigit c = false := by
  by_contra hc
  refine h (digits ++ '.' :: (c :: s).takeWhile isDigit) ((c :: s).dropWhile isDigit) ?_
    (.float hne hdigits ?_ (Text.isRun_takeWhile isDigit _))
  · rw [List.append_assoc, List.cons_append, List.takeWhile_append_dropWhile]
  · rw [List.takeWhile_cons_of_pos (by simpa using hc)]
    exact List.cons_ne_nil _ _

theorem Fits.ne_quote {value : List Char} (h : Fits .symbol (c :: value) rest) : c ≠ '"' ∧ c ≠ '\'' := by
  have hlong : ∀ value ∈ longSymbols, value.head? ≠ some '"' ∧ value.head? ≠ some '\'' := by decide
  have hshort : '"' ∉ shortSymbols ∧ '\'' ∉ shortSymbols := by decide
  cases h with
  | longSymbol hmem => exact (hlong _ hmem).imp (mt (congrArg some)) (mt (congrArg some))
  | shortSymbol hmem => exact hshort.imp (ne_of_mem_of_not_mem hmem) (ne_of_mem_of_not_mem hmem)

/-- The patterns that can have been tried before one that fits. -/
theorem earlier_cases : ∀ kind ∈ patterns, ∀ earlier ∈ patterns.takeWhile (· != kind),
    earlier = .name ∨ earlier = .integer ∨ (earlier = .string ∧ kind = .symbol) ∨
      (earlier = .float ∧ (kind = .integer ∨ .integer ∈ patterns.takeWhile (· != kind))) := by
  decide

/-- A lexeme that is not the last thing in its tag stays one, whatever follows the tag. -/
theorem Leads.append (h : Leads kind value rest) (hrest : 2 ≤ rest.length) (more : List Char) :
    Leads kind value (rest ++ more) := by
  have hne : rest ≠ [] := List.length_pos_iff.1 (by omega)
  refine ⟨h.fits.append hne more, fun earlier hearlier => ?_⟩
  have hfirst := h.first earlier hearlier
  obtain ⟨c, value', rfl⟩ := List.exists_cons_of_ne_nil h.fits.value_ne_nil
  rcases earlier_cases kind h.fits.mem_patterns earlier hearlier with
    rfl | rfl | ⟨rfl, rfl⟩ | ⟨rfl, rfl | hinteger⟩
  · exact misses_name (not_isNameStart_of_misses hfirst)
  · exact misses_integer (not_isDigit_of_misses hfirst)
  · exact misses_string h.fits.ne_quote.1 h.fits.ne_quote.2
  · cases h.fits with
    | integer hdigits hrun =>
        refine misses_float_of_isRun (hrun.append hne more) fun c' s' heq => ?_
        -- The point and what follows it stand before the seam already.
        rcases rest with _ | ⟨point, _ | ⟨c'', rest⟩⟩
        · simp at hrest
        · simp at hrest
        · obtain ⟨rfl, htail⟩ := List.cons.inj heq
          obtain ⟨rfl, -⟩ := List.cons.inj htail
          exact not_isDigit_of_misses_float hdigits hrun.all hfirst
  · exact misses_float (not_isDigit_of_misses (h.first .integer hinteger))

end Lexeme

/-! ### Delimiters -/

namespace Delimiters

variable {d : Delimiters} {s more : List Char}

/-- Neither opening delimiter is a part of the other, and the delimiter that ends a tag is no single character. -/
structure Settled (d : Delimiters) : Prop where
  blockStart : ¬d.blockStart.toList <:+: d.commentStart.toList
  commentStart : ¬d.commentStart.toList <:+: d.blockStart.toList
  blockEnd : 2 ≤ d.blockEnd.toList.length

theorem settled_standard : standard.Settled :=
  ⟨by decide, by decide, by decide⟩

namespace Settled

theorem wins {opening other : String} (hopening : ¬opening.toList <:+: other.toList)
    (hother : ¬other.toList <:+: opening.toList) (h : opening.toList <+: s) : Wins opening other s := by
  refine ⟨h, fun h' => ?_⟩
  rcases List.prefix_or_prefix_of_prefix h h' with hprefix | hprefix
  · exact absurd hprefix.isInfix hopening
  · exact absurd hprefix.isInfix hother

theorem wins_block (hd : d.Settled) (h : d.blockStart.toList <+: s) : Wins d.blockStart d.commentStart s :=
  wins hd.blockStart hd.commentStart h

theorem wins_comment (hd : d.Settled) (h : d.commentStart.toList <+: s) : Wins d.commentStart d.blockStart s :=
  wins hd.commentStart hd.blockStart h

/-- A delimiter does not open in front of another that opens and end behind it. -/
theorem prefix_of_prefix_append {opening other before : List Char} (hother : ¬other <:+: opening)
    (hopens : opening <+: s ∨ other <+: s) (hne : before ≠ []) (h : opening <+: before ++ s ++ more) :
    opening <+: before ++ s := by
  refine (List.prefix_or_prefix_of_prefix h (List.prefix_append _ more)).resolve_right fun hwhole => ?_
  rcases hopens with hopens | hopens
  · have hlength := hwhole.length_le
    have := hopens.length_le
    have := List.length_pos_iff.2 hne
    rw [List.length_append] at hlength
    omega
  · exact hother (hopens.isInfix.trans ((List.suffix_append before s).isInfix.trans hwhole.isInfix))

theorem opens_of_append (hd : d.Settled) {before : List Char} (hopens : d.Opens s) (hne : before ≠ [])
    (h : d.Opens (before ++ s ++ more)) : d.Opens (before ++ s) := by
  rcases h with h | h
  · exact .inl (prefix_of_prefix_append hd.commentStart hopens hne h)
  · exact .inr (prefix_of_prefix_append hd.blockStart hopens.symm hne h)

end Settled

theorem Opens.append (h : d.Opens s) (more : List Char) : d.Opens (s ++ more) :=
  h.imp (·.trans (List.prefix_append _ _)) (·.trans (List.prefix_append _ _))

theorem Holds.append (hd : d.Settled) {lexemes : List Piece} {rest : List Char} (h : d.Holds lexemes rest)
    (hrest : d.blockEnd.toList.length ≤ rest.length) (more : List Char) : d.Holds lexemes (rest ++ more) := by
  induction lexemes with
  | nil => trivial
  | cons lexeme lexemes ih =>
      obtain ⟨⟨hgap, hend, hleads⟩, hholds⟩ := h
      have hlength : d.blockEnd.toList.length ≤ (Piece.sources lexemes ++ rest).length := by
        rw [List.length_append]
        omega
      refine ⟨⟨?_, ?_, ?_⟩, ih hholds⟩
      · rw [← List.append_assoc _ rest, ← List.append_assoc]
        refine hgap.append ?_ more
        exact List.append_ne_nil_of_left_ne_nil hleads.fits.value_ne_nil _
      · rw [← List.append_assoc _ rest, ← List.append_assoc]
        refine fun hprefix => hend ((List.isPrefix_append_of_length ?_).1 hprefix)
        rw [List.length_append]
        exact hlength.trans (Nat.le_add_left _ _)
      · rw [← List.append_assoc]
        exact hleads.append (hd.blockEnd.trans hlength) more

end Delimiters

/-! ### Parts -/

namespace Text.Clear

variable {value rest : List Char}

/-- What does not begin in a stretch does not begin there when the text goes on, if what follows the stretch
already settles it. -/
theorem append {found : List Char → Prop} (h : Clear found value rest) (more : List Char)
    (hfound : ∀ before, before ≠ [] → found (before ++ rest ++ more) → found (before ++ rest)) :
    Clear found value (rest ++ more) := by
  intro before after heq hne hbegins
  rw [← List.append_assoc] at hbegins
  exact h before after heq hne (hfound after hne hbegins)

theorem join {found : List Char → Prop} {value' : List Char} (h : Clear found value (value' ++ rest))
    (h' : Clear found value' rest) : Clear found (value ++ value') rest := by
  induction value with
  | nil => exact h'
  | cons c value ih =>
      obtain ⟨hc, hvalue⟩ := clear_cons.1 h
      exact clear_cons.2 ⟨List.append_assoc value value' rest ▸ hc, ih hvalue⟩

end Text.Clear

namespace Part

variable {d : Delimiters} {part : Part} {s : List Char}

/-- A part other than plain text at the end of a text stays what it is when the text goes on. -/
theorem Stands.append (hd : d.Settled) (h : part.Stands d s) (hs : ∀ value, part = text value → s ≠ [])
    (more : List Char) : part.Stands d (s ++ more) := by
  cases part with
  | text value =>
      obtain ⟨hne, hclear, hend⟩ := h
      have hopens := hend.resolve_left (hs value rfl)
      exact ⟨hne, hclear.append more fun _ => hd.opens_of_append hopens, .inr (hopens.append more)⟩
  | comment content =>
      obtain ⟨hwins, hclear⟩ := h
      refine ⟨?_, ?_⟩
      · rw [← List.append_assoc]
        exact hd.wins_comment (hwins.1.trans (List.prefix_append _ _))
      · rw [← List.append_assoc]
        refine hclear.append more fun before _ hprefix => ?_
        refine (List.isPrefix_append_of_length ?_).1 hprefix
        rw [List.length_append, List.length_append]
        omega
  | tag lexemes gap =>
      obtain ⟨hwins, hholds, hgap⟩ := h
      refine ⟨?_, ?_, ?_⟩
      · rw [← List.append_assoc]
        exact hd.wins_block (hwins.1.trans (List.prefix_append _ _))
      · rw [← List.append_assoc _ s, ← List.append_assoc]
        refine hholds.append hd ?_ more
        rw [List.length_append, List.length_append]
        omega
      · rw [← List.append_assoc]
        refine hgap.append (List.append_ne_nil_of_left_ne_nil ?_ _) more
        exact mt String.toList_eq_nil_iff.1 d.blockEnd_ne

end Part

namespace Delimiters.Reads

variable {d : Delimiters} {parts parts' : List Part} {s t rest more : List Char}

theorem text {value : List Char} (hne : value ≠ []) (hclear : Clear d.Opens value rest)
    (hrest : rest = [] ∨ d.Opens rest) : d.Reads [.text value] (value ++ rest) rest := by
  have hstands : (Part.text value).Stands d rest := ⟨hne, hclear, hrest⟩
  have hreads := Delimiters.Reads.part hstands .done
  rwa [Part.source_text] at hreads

theorem append (h : d.Reads parts s t) (h' : d.Reads parts' t rest) : d.Reads (parts ++ parts') s rest := by
  induction h with
  | done => exact h'
  | part hstands _ ih => exact .part hstands (ih h')

theorem exists_of_append (h : d.Reads (parts ++ parts') s rest) :
    ∃ t, d.Reads parts s t ∧ d.Reads parts' t rest := by
  induction parts generalizing s with
  | nil => exact ⟨s, .done, h⟩
  | cons part parts ih =>
      cases h with
      | part hstands hreads =>
          obtain ⟨t, hfront, hback⟩ := ih hreads
          exact ⟨t, .part hstands hfront, hback⟩

theorem eq_nil_of_nil (h : d.Reads parts [] rest) : parts = [] ∧ rest = [] := by
  generalize hs : ([] : List Char) = s at h
  cases h with
  | done => exact ⟨rfl, rfl⟩
  | part hstands =>
      exact absurd (List.append_eq_nil_iff.1 hs.symm).1 (Part.source_ne_nil d hstands)

/-- A text that falls into parts falls into the same parts when it goes on, if plain text at its end does
not reach further and no delimiter opens across the seam. -/
theorem extend_of_settled (hd : d.Settled) (h : d.Reads parts s rest)
    (hseam : rest = [] → ∀ value, parts.getLast? = some (.text value) → Clear d.Opens value [] →
      Clear d.Opens value more ∧ (more = [] ∨ d.Opens more)) :
    d.Reads parts (s ++ more) (rest ++ more) := by
  induction h with
  | done => exact .done
  | @part part parts s rest hstands hreads ih =>
      rw [List.append_assoc]
      refine .part ?_ (ih fun hrest value hlast => hseam hrest value ?_)
      · by_cases hs : s = []
        · subst hs
          obtain ⟨rfl, rfl⟩ := hreads.eq_nil_of_nil
          cases part with
          | text value => exact ⟨hstands.1, hseam rfl value rfl hstands.2.1⟩
          | comment | tag => exact hstands.append hd (by simp) more
        · exact hstands.append hd (fun _ _ => hs) more
      · rw [List.getLast?_cons, hlast]
        rfl

end Delimiters.Reads

/-! ### The standard delimiters -/

/-- The last character of one text and the first of the next are no delimiter that opens a tag or comment. -/
def Apart (s more : List Char) : Prop :=
  ¬(s.getLast? = some '\x7b' ∧ (more.head? = some '%' ∨ more.head? = some '#'))

instance (s more : List Char) : Decidable (Apart s more) :=
  inferInstanceAs (Decidable ¬(_ ∧ _))

theorem Apart.of_append {s t more : List Char} (h : Apart (s ++ t) more) : Apart t more := by
  rintro ⟨hlast, hmore⟩
  refine h ⟨?_, hmore⟩
  rw [List.getLast?_append, hlast]
  rfl

namespace Delimiters

variable {s more : List Char}

theorem standard_opens_iff :
    standard.Opens s ↔ ∃ c s', s = '\x7b' :: c :: s' ∧ (c = '%' ∨ c = '#') := by
  constructor
  · rintro (⟨s', rfl⟩ | ⟨s', rfl⟩)
    · exact ⟨'%', s', rfl, .inl rfl⟩
    · exact ⟨'#', s', rfl, .inr rfl⟩
  · rintro ⟨c, s', rfl, rfl | rfl⟩
    · exact .inl ⟨s', rfl⟩
    · exact .inr ⟨s', rfl⟩

/-- In front of a delimiter, or of nothing, a text is apart from what follows it. -/
theorem apart_of_opens (h : more = [] ∨ standard.Opens more) : Apart s more := by
  rintro ⟨-, hhead⟩
  rcases h with rfl | hopens
  · simp at hhead
  · obtain ⟨c, s', rfl, -⟩ := standard_opens_iff.1 hopens
    exact absurd hhead (by simp)

end Delimiters

/-- No delimiter opens across a seam between two characters that are none together. -/
theorem Text.Clear.opens_of_apart {value rest : List Char} (h : Clear Delimiters.standard.Opens value [])
    (happart : Apart value rest) : Clear Delimiters.standard.Opens value rest := by
  rintro before after rfl hne hopens
  obtain ⟨c, s', heq, hc⟩ := Delimiters.standard_opens_iff.1 hopens
  rcases after with _ | ⟨c₁, _ | ⟨c₂, after⟩⟩
  · exact hne rfl
  · obtain ⟨rfl, rfl⟩ := List.cons.inj heq
    refine happart ⟨by simp, ?_⟩
    simpa using hc
  · obtain ⟨rfl, htail⟩ := List.cons.inj heq
    obtain ⟨rfl, -⟩ := List.cons.inj htail
    refine h before _ rfl hne (Delimiters.standard_opens_iff.2 ⟨_, after ++ [], rfl, hc⟩)

theorem Delimiters.Reads.extend {parts : List Part} {s rest more : List Char} (h : standard.Reads parts s rest)
    (hseam : rest = [] → ∀ value, parts.getLast? = some (.text value) →
      Apart value more ∧ (more = [] ∨ standard.Opens more)) :
    standard.Reads parts (s ++ more) (rest ++ more) := by
  apply h.extend_of_settled settled_standard
  intro hrest value hlast hclear
  obtain ⟨happart, hmore⟩ := hseam hrest value hlast
  exact ⟨hclear.opens_of_apart happart, hmore⟩

end TagTemplate
