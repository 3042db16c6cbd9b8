import TagTemplate.Proofs.Filler

/-!
# Longer filler text

Filler text of the sum of two lengths is the text of the first length, a separator and a text of the second length.
If it is random, then the second text is what the source gives out behind the first one. If it is canonical, then the
second text goes on in the corpus where the first one stops, and so it begins at the beginning again if the first length
is a multiple of the corpus.
-/

namespace TagTemplate

namespace Draw

variable {α : Type}

theorem repeated_add (draw : Draw α) (n m : Nat) :
    repeated draw (n + m) = do
      let first ← repeated draw n
      let rest ← repeated draw m
      return first ++ rest := by
  induction n with
  | zero => simp [repeated]
  | succ n ih =>
      rw [Nat.add_right_comm, repeated, ih]
      simp [repeated]

end Draw

theorem Demand.draw_add (n m : Nat) (words : Bool) :
    Demand.draw ⟨n + m, words⟩ = do
      let first ← Demand.draw ⟨n, words⟩
      let rest ← Demand.draw ⟨m, words⟩
      return first ++ rest := by
  cases words with
  | false => exact Draw.repeated_add Lorem.randomParagraph n m
  | true => exact Draw.repeated_add Lorem.randomWord n m

namespace Lorem

variable {mode : Mode} {items others : List String}

namespace Mode

theorem write_append (hitems : items ≠ []) (hothers : others ≠ []) :
    mode.write (items ++ others) = mode.write items ++ mode.separator ++ mode.write others := by
  have hwrapped : items.map mode.wrap ≠ [] := by simpa using hitems
  have hwrapped' : others.map mode.wrap ≠ [] := by simpa using hothers
  rw [write_eq, write_eq, write_eq, List.map_append, String.intercalate_append_of_ne_nil hwrapped hwrapped']

/-- The words or paragraphs that the canonical text of a mode goes over again and again. -/
def corpus : Mode → Array String
  | words => Lorem.words
  | htmlParagraphs | plainParagraphs => paragraphs

theorem canonical_eq (mode : Mode) (count : Nat) : mode.canonical count = cycle mode.corpus count := by
  cases mode <;> rfl

/-- A shorter canonical text has the first items of a longer one. -/
theorem take_canonical (mode : Mode) (n m : Nat) : (mode.canonical (n + m)).take n = mode.canonical n := by
  rw [canonical_eq, canonical_eq, cycle, ← List.map_take, List.take_range, Nat.min_eq_left (Nat.le_add_right n m)]
  rfl

/-- Behind a multiple of the corpus a canonical text begins anew. -/
theorem drop_canonical (mode : Mode) {n : Nat} (m : Nat) (h : mode.corpus.size ∣ n) :
    (mode.canonical (n + m)).drop n = mode.canonical m := by
  obtain ⟨rounds, rfl⟩ := h
  rw [canonical_eq, canonical_eq, cycle, cycle]
  apply List.ext_getElem?
  intro index
  rw [List.getElem?_drop, List.getElem?_map, List.getElem?_map]
  by_cases hindex : index < m
  · rw [List.getElem?_range (Nat.add_lt_add_left hindex _), List.getElem?_range hindex, Option.map_some,
      Option.map_some, Nat.mul_add_mod]
  · rw [List.getElem?_eq_none (by simpa using hindex), List.getElem?_eq_none (by simpa using hindex)]

end Mode

theorem draw_ne_nil {count : Nat} (h : 0 < count) (words : Bool) (source : Twister) :
    (Demand.draw ⟨count, words⟩ source).1 ≠ [] := by
  rw [← List.length_pos_iff, Demand.length_draw]
  exact h

theorem canonical_ne_nil (mode : Mode) {count : Nat} (h : 0 < count) : mode.canonical count ≠ [] := by
  rw [← List.length_pos_iff, length_canonical]
  exact h

/-- Random text of a sum of lengths: the two texts are drawn one after the other. -/
theorem generate_add_of_random (mode : Mode) {n m : Int} (hn : 1 ≤ n) (hm : 1 ≤ m) :
    generate (n + m) mode true = do
      let first ← generate n mode true
      let rest ← generate m mode true
      return first ++ mode.separator ++ rest := by
  rw [generate_of_pos (by omega), generate_of_pos (by omega), generate_of_pos (by omega),
    Int.toNat_add (by omega) (by omega), Demand.draw_add]
  funext source
  have hfirst := draw_ne_nil (Int.lt_toNat.2 hn) (mode = .words) source
  have hrest := draw_ne_nil (Int.lt_toNat.2 hm) (mode = .words) (Demand.draw ⟨n.toNat, mode = .words⟩ source).2
  exact congrArg (·, _) (Mode.write_append hfirst hrest)

/-- Canonical text of a sum of lengths: behind the first text stand the items that follow it in the corpus. -/
theorem generate_add_of_canonical (mode : Mode) {n m : Int} (hn : 1 ≤ n) (hm : 1 ≤ m) :
    ∃ items : List String, (items.length : Int) = m ∧
      (∀ index item, items[index]? = some item → mode.Admits false (n.toNat + index) item) ∧
      generate (n + m) mode false =
        pure (mode.write (mode.canonical n.toNat) ++ mode.separator ++ mode.write items) ∧
      ((mode.corpus.size : Int) ∣ n → items = mode.canonical m.toNat) := by
  have hlength := length_canonical mode (n.toNat + m.toNat)
  refine ⟨(mode.canonical (n.toNat + m.toNat)).drop n.toNat, ?_, fun index item hitem => ?_, ?_, fun hdvd => ?_⟩
  · rw [List.length_drop, hlength]
    omega
  · rw [List.getElem?_drop] at hitem
    exact Mode.admits_canonical hitem
  · have hfirst : mode.canonical n.toNat ≠ [] := canonical_ne_nil mode (Int.lt_toNat.2 hn)
    have hrest : (mode.canonical (n.toNat + m.toNat)).drop n.toNat ≠ [] := by
      rw [← List.length_pos_iff, List.length_drop, hlength]
      omega
    rw [generate_of_canonical, Int.toNat_add (by omega) (by omega), ← Mode.write_append hfirst hrest,
      ← Mode.take_canonical mode n.toNat m.toNat, List.take_append_drop]
  · have hdvd : mode.corpus.size ∣ n.toNat := by
      rwa [← Int.natCast_dvd_natCast, Int.toNat_of_nonneg (by omega)]
    exact Mode.drop_canonical mode m.toNat hdvd

/-- Filler text of the sum of two positive lengths begins with the text of the first length, and behind a separator
stands a text of the second length. A random one is what the source gives out then, and the source ends up the same. A
canonical one consists of the words or paragraphs of the following indices, in their cycle; it is the canonical text of
its length if the first length is a multiple of the number of those in the corpus. -/
theorem generate_add (mode : Mode) {n m : Int} (hn : 1 ≤ n) (hm : 1 ≤ m) :
    (generate (n + m) mode true = do
      let first ← generate n mode true
      let rest ← generate m mode true
      return first ++ mode.separator ++ rest) ∧
    ∃ (first : String) (items : List String), generate n mode false = pure first ∧ (items.length : Int) = m ∧
      (∀ index item, items[index]? = some item → mode.Admits false (n.toNat + index) item) ∧
      generate (n + m) mode false = pure (first ++ mode.separator ++ mode.write items) ∧
      ((mode.corpus.size : Int) ∣ n → generate m mode false = pure (mode.write items)) := by
  obtain ⟨items, hlength, hadmits, htext, hrepeats⟩ := generate_add_of_canonical mode hn hm
  refine ⟨generate_add_of_random mode hn hm, mode.write (mode.canonical n.toNat), items, generate_of_canonical n mode,
    hlength, hadmits, htext, fun hdvd => ?_⟩
  rw [generate_of_canonical, hrepeats hdvd]

/-- Three random words and four, and two paragraphs behind the five that there are. -/
theorem generate_add_words_or_paragraphs :
    (generate 7 .words true = do
      let first ← generate 3 .words true
      let rest ← generate 4 .words true
      return first ++ " " ++ rest) ∧
    ∃ first rest, generate 5 .htmlParagraphs false = pure first ∧ generate 2 .htmlParagraphs false = pure rest ∧
      generate 7 .htmlParagraphs false = pure (first ++ "\n\n" ++ rest) := by
  obtain ⟨hrandom, -⟩ := @generate_add .words 3 4 (by decide) (by decide)
  obtain ⟨-, first, items, hfirst, -, -, htext, hrest⟩ := @generate_add .htmlParagraphs 5 2 (by decide) (by decide)
  exact ⟨hrandom, first, _, hfirst, hrest (by decide), htext⟩

end Lorem

end TagTemplate
