import TagTemplate.Proofs.Demand
import TagTemplate.Proofs.Part

/-!
# What filler text consists of

Filler text can be taken apart again. Split at its separators it falls into as many words or paragraphs as were asked
for, because no separator occurs within one of them, and each is a canonical one or a random one of its mode, whatever
the source gives out.
-/

namespace TagTemplate

/-! ### Splitting at separators -/

namespace Text

/-- The pieces of a text between the separators in it, which are found from left to right. The separator is not
empty. -/
def splitOn (separator s : List Char) : List (List Char) :=
  match _h : splitBefore separator.isPrefixOf s with
  | (piece, []) => [piece]
  | (piece, _ :: rest) => piece :: splitOn separator (rest.drop (separator.length - 1))
termination_by s.length
decreasing_by
  have hlength := congrArg List.length (splitBefore_append separator.isPrefixOf s)
  rw [_h, List.length_append, List.length_cons] at hlength
  rw [List.length_drop]
  omega

/-- The pieces of a text, as texts. -/
def pieces (separator text : String) : List String :=
  (splitOn separator.toList text.toList).map String.ofList

variable {c : Char} {separator piece rest : List Char}

theorem clear_of_not_mem (h : c ∉ piece) : Clear ((c :: separator).isPrefixOf · = true) piece rest := by
  rintro before after rfl hne hbegins
  obtain ⟨c', after, rfl⟩ := List.exists_cons_of_ne_nil hne
  obtain ⟨rfl, -⟩ := List.cons_prefix_cons.1 (List.isPrefixOf_iff_prefix.1 hbegins)
  simp at h

theorem splitOn_of_not_mem (h : c ∉ piece) : splitOn (c :: separator) piece = [piece] := by
  have hsplit : splitBefore (c :: separator).isPrefixOf piece = (piece, []) :=
    splitBefore_eq_iff.2 ⟨(List.append_nil piece).symm, clear_of_not_mem h, .inl rfl⟩
  rw [splitOn]
  split
  · rename_i hsplit'
    rw [hsplit] at hsplit'
    rw [(Prod.mk.inj hsplit').1]
  · rename_i hsplit'
    rw [hsplit] at hsplit'
    cases hsplit'

theorem splitOn_append (h : c ∉ piece) :
    splitOn (c :: separator) (piece ++ (c :: separator ++ rest)) = piece :: splitOn (c :: separator) rest := by
  have hbegins : (c :: separator).isPrefixOf (c :: separator ++ rest) = true :=
    List.isPrefixOf_iff_prefix.2 (List.prefix_append _ _)
  have hsplit : splitBefore (c :: separator).isPrefixOf (piece ++ (c :: separator ++ rest)) =
      (piece, c :: separator ++ rest) :=
    splitBefore_eq_iff.2 ⟨rfl, clear_of_not_mem h, .inr hbegins⟩
  rw [splitOn]
  split
  · rename_i hsplit'
    rw [hsplit] at hsplit'
    cases hsplit'
  · rename_i hsplit'
    rw [hsplit] at hsplit'
    obtain ⟨rfl, hrest⟩ := Prod.mk.inj hsplit'
    rw [List.cons_append] at hrest
    obtain ⟨-, rfl⟩ := List.cons.inj hrest
    rw [List.length_cons, Nat.add_sub_cancel, List.drop_left]

/-- Splitting undoes joining if the separator can not begin within an item. -/
theorem splitOn_intercalate {items : List (List Char)} (hne : items ≠ []) (h : ∀ item ∈ items, c ∉ item) :
    splitOn (c :: separator) ((c :: separator).intercalate items) = items := by
  induction items with
  | nil => exact absurd rfl hne
  | cons item items ih =>
      obtain ⟨hitem, hitems⟩ := List.forall_mem_cons.1 h
      cases items with
      | nil => rw [List.intercalate_singleton, splitOn_of_not_mem hitem]
      | cons item' items =>
          rw [List.intercalate_cons_cons, List.append_assoc, splitOn_append hitem, ih (List.cons_ne_nil _ _) hitems]

theorem pieces_intercalate {separator : String} {c : Char} (hc : separator.toList.head? = some c) {items : List String}
    (hne : items ≠ []) (h : ∀ item ∈ items, c ∉ item.toList) :
    pieces separator (separator.intercalate items) = items := by
  obtain ⟨others, hseparator⟩ := List.head?_eq_some_iff.1 hc
  have hsplit : splitOn (c :: others) ((c :: others).intercalate (items.map String.toList)) =
      items.map String.toList := by
    refine splitOn_intercalate (by simpa using hne) fun item hitem => ?_
    obtain ⟨item, hmem, rfl⟩ := List.mem_map.1 hitem
    exact h item hmem
  rw [pieces, String.toList_intercalate, hseparator, hsplit]
  simp

example : pieces "\n\n" "a\n\n\nb\n\n" = ["a", "\nb", ""] := by cbv

end Text

/-! ### What is drawn -/

namespace Draw

variable {α : Type}

theorem between_le {low high : Nat} (h : low ≤ high) (source : Twister) :
    low ≤ (between low high source).1 ∧ (between low high source).1 ≤ high := by
  obtain ⟨above, habove⟩ : ∃ above : Fin (high - low + 1), (between low high source).1 = low + above := ⟨_, rfl⟩
  rw [habove]
  omega

theorem choice_mem {members : Array α} (h : 0 < members.size) (source : Twister) :
    (choice members h source).1 ∈ members := by
  obtain ⟨index, hindex⟩ : ∃ index : Fin members.size, (choice members h source).1 = members[index] := ⟨_, rfl⟩
  rw [hindex]
  exact Array.getElem_mem index.isLt

theorem forall_mem_repeated {P : α → Prop} {draw : Draw α} (h : ∀ source, P (draw source).1) (count : Nat)
    (source : Twister) : ∀ item ∈ (repeated draw count source).1, P item := by
  induction count generalizing source with
  | zero => simp [repeated, pure, StateT.pure]
  | succ count ih =>
      obtain ⟨source', hsource'⟩ : ∃ source',
          (repeated draw (count + 1) source).1 = (draw source).1 :: (repeated draw count source').1 := ⟨_, rfl⟩
      rw [hsource']
      exact List.forall_mem_cons.2 ⟨h source, ih source'⟩

/-- The place in the whole pool of what has a place in the pool that an item was taken from: the last of the pool has
moved to where that item was. -/
def fromRest {size : Nat} (taken : Fin size) (place : Fin (size - 1)) : Fin size :=
  if place.val = taken.val then ⟨size - 1, Nat.pred_lt_of_lt taken.isLt⟩ else ⟨place.val, Nat.lt_of_lt_pred place.isLt⟩

theorem fromRest_ne {size : Nat} (taken : Fin size) (place : Fin (size - 1)) : fromRest taken place ≠ taken := by
  unfold fromRest
  split <;> simp only [ne_eq, Fin.ext_iff] <;> omega

theorem fromRest_injective {size : Nat} (taken : Fin size) : Function.Injective (fromRest taken) := by
  intro place place' heq
  unfold fromRest at heq
  split at heq <;> split at heq <;> simp only [Fin.ext_iff] at heq ⊢ <;> omega

theorem size_rest {pool : Array α} (h : 0 < pool.size) (taken : Fin pool.size) :
    (pool.set taken (pool.back h) taken.isLt).pop.size = pool.size - 1 := by
  rw [Array.size_pop, Array.size_set]

theorem getElem_rest {pool : Array α} (h : 0 < pool.size) {taken origin : Fin pool.size}
    {place : Fin (pool.set taken (pool.back h) taken.isLt).pop.size}
    (horigin : fromRest taken (place.cast (size_rest h taken)) = origin) :
    (pool.set taken (pool.back h) taken.isLt).pop[place] = pool[origin] := by
  rw [Fin.getElem_fin, Array.getElem_pop, Array.getElem_set]
  by_cases hplace : place.val = taken.val
  · obtain rfl := horigin.symm.trans (if_pos hplace)
    rw [if_pos hplace.symm]
    rfl
  · obtain rfl := horigin.symm.trans (if_neg hplace)
    rw [if_neg (Ne.symm hplace)]
    rfl

/-- A sample never has the same place of the pool twice. -/
theorem exists_places_sample (count : Nat) (pool : Array α) (source : Twister) (hcount : count ≤ pool.size) :
    ∃ places : List (Fin pool.size), places.Nodup ∧ places.length = count ∧
      (sample count pool source).1 = places.map (pool[·]) := by
  induction count generalizing pool source with
  | zero => exact ⟨[], .nil, rfl, rfl⟩
  | succ count ih =>
      have hpos : 0 < pool.size := by omega
      obtain ⟨taken, source', hsample⟩ : ∃ (taken : Fin pool.size) (source' : Twister),
          (sample (count + 1) pool source).1 =
            pool[taken] :: (sample count (pool.set taken (pool.back hpos)).pop source').1 := by
        rw [sample, dif_pos hpos]
        exact ⟨_, _, rfl⟩
      -- The places of the others are places of the smaller pool, so they are taken back to the whole one.
      have hsize := size_rest hpos taken
      obtain ⟨places, hnodup, hlength, hplaces⟩ := ih (pool.set taken (pool.back hpos)).pop source' (by omega)
      refine ⟨taken :: places.map (fromRest taken ∘ Fin.cast hsize), ?_, by simp [hlength], ?_⟩
      · refine List.nodup_cons.2 ⟨?_, hnodup.map ?_⟩
        · simp [fromRest_ne]
        · exact (fromRest_injective taken).comp (Fin.cast_injective hsize)
      · rw [hsample, hplaces, List.map_cons, List.map_map]
        refine congrArg _ (List.map_congr_left fun place _ => ?_)
        exact getElem_rest hpos rfl

end Draw

/-! ### Words and paragraphs -/

namespace Lorem

variable {random : Bool} {mode : Mode} {items : List String} {item word : String} {index : Nat}

theorem isAlpha_of_mem_letterRunsFrom (s : List Char) :
    (∀ c ∈ (letterRunsFrom s).1, c.isAlpha = true) ∧ ∀ run ∈ (letterRunsFrom s).2, ∀ c ∈ run, c.isAlpha = true := by
  induction s with
  | nil => simp [letterRunsFrom]
  | cons c s ih =>
      obtain ⟨hrun, hruns⟩ := ih
      by_cases hc : c.isAlpha = true
      · simp only [letterRunsFrom, if_pos hc, List.forall_mem_cons]
        exact ⟨⟨hc, hrun⟩, hruns⟩
      · simp only [letterRunsFrom, if_neg hc]
        refine ⟨by simp, ?_⟩
        split
        · exact hruns
        · exact List.forall_mem_cons.2 ⟨hrun, hruns⟩

theorem isAlpha_of_mem_letterRuns {s run : List Char} (h : run ∈ letterRuns s) : ∀ c ∈ run, c.isAlpha = true := by
  obtain ⟨hfirst, hothers⟩ := isAlpha_of_mem_letterRunsFrom s
  simp only [letterRuns] at h
  split at h
  · exact hothers run h
  · rcases List.mem_cons.1 h with rfl | h
    · exact hfirst
    · exact hothers run h

theorem space_not_mem_of_mem_words (h : word ∈ words) : ' ' ∉ word.toList := by
  rw [words, List.mem_toArray] at h
  obtain ⟨run, hrun, rfl⟩ := List.mem_map.1 h
  rw [String.toList_ofList]
  intro hspace
  simpa using isAlpha_of_mem_letterRuns hrun ' ' hspace

/-- A piece of a text is made of its characters. -/
theorem mem_of_mem_piecesFrom (behindPeriod : Bool) (s : List Char) :
    (piecesFrom behindPeriod s).1 ⊆ s ∧ ∀ piece ∈ (piecesFrom behindPeriod s).2, piece ⊆ s := by
  induction s generalizing behindPeriod with
  | nil => simp [piecesFrom]
  | cons c s ih =>
      have hlater {s' : List Char} (h : s' ⊆ s) : s' ⊆ c :: s := List.subset_cons_of_subset _ h
      rw [piecesFrom]
      split
      · obtain ⟨hpiece, hpieces⟩ := ih true
        exact ⟨hlater hpiece, fun piece hmem => hlater (hpieces piece hmem)⟩
      split
      · obtain ⟨hpiece, hpieces⟩ := ih true
        refine ⟨by simp, List.forall_mem_cons.2 ⟨hlater hpiece, fun piece hmem => hlater (hpieces piece hmem)⟩⟩
      · obtain ⟨hpiece, hpieces⟩ := ih false
        exact ⟨List.cons_subset_cons c hpiece, fun piece hmem => hlater (hpieces piece hmem)⟩

theorem break_not_mem_ofList {s : List Char} (h : s.contains '\n' = false) : '\n' ∉ (String.ofList s).toList := by
  rw [String.toList_ofList]
  simpa using h

set_option maxRecDepth 4000 in
theorem break_not_mem_of_mem_corpus : ∀ paragraph ∈ corpus, '\n' ∉ paragraph.toList := by
  simp only [corpus, List.forall_mem_cons, List.not_mem_nil, false_imp_iff, implies_true, and_true]
  and_intros
  all_goals
    refine break_not_mem_ofList ?_
    decide +kernel

theorem break_not_mem_of_mem_sentences {sentence : String} (h : sentence ∈ sentences) : '\n' ∉ sentence.toList := by
  rw [sentences, List.mem_toArray] at h
  obtain ⟨paragraph, hparagraph, hsentence⟩ := List.mem_flatMap.1 h
  obtain ⟨piece, hpiece, rfl⟩ := List.mem_map.1 hsentence
  obtain ⟨hfirst, hothers⟩ := mem_of_mem_piecesFrom false paragraph.toList
  rw [String.toList_ofList]
  intro hbreak
  refine break_not_mem_of_mem_corpus paragraph hparagraph ?_
  rcases List.mem_cons.1 hpiece with rfl | hpiece
  · exact hfirst hbreak
  · exact hothers piece hpiece hbreak

theorem break_not_mem_intercalate {sentences : List String} (h : ∀ sentence ∈ sentences, '\n' ∉ sentence.toList) :
    '\n' ∉ (" ".intercalate sentences).toList := by
  induction sentences with
  | nil => simp
  | cons sentence sentences ih =>
      obtain ⟨hsentence, hsentences⟩ := List.forall_mem_cons.1 h
      cases sentences with
      | nil => rwa [String.intercalate_singleton]
      | cons sentence' sentences =>
          rw [String.intercalate_cons_cons, String.toList_append, String.toList_append, List.mem_append,
            List.mem_append, not_or, not_or]
          exact ⟨⟨hsentence, by decide⟩, ih hsentences⟩

/-- A paragraph of sentences from the corpus, four to eight of them and no place of the corpus twice, with a space in
between. -/
def IsMixed (paragraph : String) : Prop :=
  ∃ places : List (Fin sentences.size), places.Nodup ∧ 4 ≤ places.length ∧ places.length ≤ 8 ∧
    paragraph = " ".intercalate (places.map (sentences[·]))

theorem isMixed_randomParagraph (source : Twister) : IsMixed (randomParagraph source).1 := by
  obtain ⟨count, source', hcount, hparagraph⟩ : ∃ count source',
      count = (Draw.between minSentences maxSentences source).1 ∧
        (randomParagraph source).1 = " ".intercalate (Draw.sample count sentences source').1 := ⟨_, _, rfl, rfl⟩
  obtain ⟨hmin, hmax⟩ := @Draw.between_le minSentences maxSentences (by decide) source
  rw [← hcount] at hmin hmax
  have hsize : count ≤ sentences.size := by
    rw [sentences_size]
    exact hmax.trans (by decide)
  obtain ⟨places, hnodup, hlength, hplaces⟩ := Draw.exists_places_sample count sentences source' hsize
  refine ⟨places, hnodup, hlength ▸ hmin, hlength ▸ hmax, ?_⟩
  rw [hparagraph, hplaces]

namespace Mode

/-- What stands between the words or paragraphs of a mode. -/
def separator : Mode → String
  | words => " "
  | _ => paragraphSeparator

/-- The character that a separator begins with. -/
def mark : Mode → Char
  | words => ' '
  | _ => '\n'

/-- What may have an index in a text that a mode writes: the canonical word or paragraph of that index, or any random
one. -/
def Admits (mode : Mode) (random : Bool) (index : Nat) (item : String) : Prop :=
  match mode, random with
  | words, false => Lorem.words[index % Lorem.words.size]? = some item
  | words, true => item ∈ Lorem.words
  | _, false => paragraphs[index % paragraphs.size]? = some item
  | _, true => IsMixed item

end Mode

theorem break_not_mem_of_mem_paragraphs (h : item ∈ paragraphs) : '\n' ∉ item.toList := by
  rw [paragraphs, List.mem_toArray] at h
  exact break_not_mem_of_mem_corpus item h

theorem IsMixed.break_not_mem (h : IsMixed item) : '\n' ∉ item.toList := by
  obtain ⟨places, -, -, -, rfl⟩ := h
  refine break_not_mem_intercalate fun sentence hsentence => break_not_mem_of_mem_sentences ?_
  obtain ⟨place, -, rfl⟩ := List.mem_map.1 hsentence
  exact Array.getElem_mem place.isLt

/-- No separator begins within a word or a paragraph. -/
theorem Mode.Admits.mark_not_mem (h : mode.Admits random index item) : mode.mark ∉ item.toList := by
  cases mode <;> cases random
  case words.false => exact space_not_mem_of_mem_words (Array.mem_of_getElem? h)
  case words.true => exact space_not_mem_of_mem_words h
  case htmlParagraphs.false | plainParagraphs.false => exact break_not_mem_of_mem_paragraphs (Array.mem_of_getElem? h)
  case htmlParagraphs.true | plainParagraphs.true => exact IsMixed.break_not_mem h

theorem Mode.mark_not_mem_wrap (h : mode.mark ∉ item.toList) : mode.mark ∉ (mode.wrap item).toList := by
  cases mode with
  | words | plainParagraphs => exact h
  | htmlParagraphs =>
      rw [wrap, String.toList_append, String.toList_append, List.mem_append, List.mem_append, not_or, not_or]
      exact ⟨⟨by decide, h⟩, by decide⟩

theorem Mode.write_eq (mode : Mode) (items : List String) :
    mode.write items = mode.separator.intercalate (items.map mode.wrap) := by
  cases mode with
  | words =>
      have hwrap : items.map words.wrap = items := List.map_id items
      rw [hwrap]
      rfl
  | htmlParagraphs | plainParagraphs => rfl

/-- What a mode has written falls into its items again. -/
theorem Mode.pieces_write (hne : items ≠ []) (h : ∀ item ∈ items, mode.mark ∉ item.toList) :
    Text.pieces mode.separator (mode.write items) = items.map mode.wrap := by
  have hmark : mode.separator.toList.head? = some mode.mark := by cases mode <;> decide
  rw [write_eq]
  refine Text.pieces_intercalate hmark (by simpa using hne) fun item hitem => ?_
  obtain ⟨item, hmem, rfl⟩ := List.mem_map.1 hitem
  exact mark_not_mem_wrap (h item hmem)

theorem getElem?_of_cycle {all : Array String} (hpos : 0 < all.size) {count : Nat}
    (h : (cycle all count)[index]? = some item) : all[index % all.size]? = some item := by
  rw [cycle, List.getElem?_map, Option.map_eq_some_iff] at h
  obtain ⟨index', hindex, rfl⟩ := h
  obtain ⟨hlt, rfl⟩ := List.getElem?_eq_some_iff.1 hindex
  have hmod := Nat.mod_lt index hpos
  rw [List.getElem_range, Array.getD_eq_getD_getElem?, Array.getElem?_eq_getElem hmod, Option.getD_some]

theorem Mode.admits_canonical {count : Nat} (h : (mode.canonical count)[index]? = some item) :
    mode.Admits false index item := by
  have hpos : 0 < paragraphs.size := by decide
  cases mode with
  | words => exact getElem?_of_cycle words_size_pos h
  | htmlParagraphs | plainParagraphs => exact getElem?_of_cycle hpos h

theorem Mode.admits_draw {count : Nat} (source : Twister) (h : item ∈ (Demand.draw ⟨count, mode = .words⟩ source).1) :
    mode.Admits true index item := by
  cases mode with
  | words => exact Draw.forall_mem_repeated (Draw.choice_mem words_size_pos) count source item h
  | htmlParagraphs | plainParagraphs => exact Draw.forall_mem_repeated isMixed_randomParagraph count source item h

theorem length_canonical (mode : Mode) (count : Nat) : (mode.canonical count).length = count := by
  rw [Mode.canonical, cycle, List.length_map, List.length_range]

/-- The items of a text: it is what the mode writes of them, and they are admitted at their indices. -/
theorem exists_items (mode : Mode) (random : Bool) {count : Int} (hcount : 0 < count) (source : Twister) :
    ∃ items : List String, (items.length : Int) = count ∧ (generate count mode random source).1 = mode.write items ∧
      ∀ index item, items[index]? = some item → mode.Admits random index item := by
  have hlength : (count.toNat : Int) = count := Int.toNat_of_nonneg hcount.le
  cases random with
  | false =>
      refine ⟨mode.canonical count.toNat, ?_, ?_, fun index item => Mode.admits_canonical⟩
      · rw [length_canonical, hlength]
      · rw [generate_of_canonical]
        rfl
  | true =>
      refine ⟨(Demand.draw ⟨count.toNat, mode = .words⟩ source).1, ?_, ?_, fun index item hitem => ?_⟩
      · rw [Demand.length_draw, hlength]
      · rw [generate_of_pos hcount]
        rfl
      · exact Mode.admits_draw source (List.mem_of_getElem? hitem)

/-- Filler text of a positive length falls, at the separators of its mode, into as many words or paragraphs as were
asked for; paragraphs are wrapped in HTML only. Without randomness the word or paragraph of an index is the canonical
one, and the source stays as it was; otherwise each is a word of the corpus, or four to eight sentences of it. Text of
any other length is empty and draws nothing. -/
theorem generate_falls_into_items (count : Int) (mode : Mode) (random : Bool) (source : Twister) :
    (0 < count → ∃ items : List String, (items.length : Int) = count ∧
      Text.pieces mode.separator (generate count mode random source).1 =
        items.map (fun item => if mode = .htmlParagraphs then "<p>" ++ item ++ "</p>" else item) ∧
      ∀ index item, items[index]? = some item → mode.Admits random index item) ∧
    (random = false → (generate count mode random source).2 = source) ∧
    (count ≤ 0 → generate count mode random source = ("", source)) := by
  refine ⟨fun hcount => ?_, ?_, fun hcount => ?_⟩
  · obtain ⟨items, hlength, htext, hadmits⟩ := exists_items mode random hcount source
    have hne : items ≠ [] := by
      rintro rfl
      exact hcount.ne hlength
    have hmark : ∀ item ∈ items, mode.mark ∉ item.toList := by
      intro item hitem
      obtain ⟨index, hindex⟩ := List.mem_iff_getElem?.1 hitem
      exact (hadmits index item hindex).mark_not_mem
    refine ⟨items, hlength, ?_, hadmits⟩
    rw [htext, Mode.pieces_write hne hmark]
    cases mode <;> rfl
  · rintro rfl
    rw [generate_of_canonical]
    rfl
  · rw [generate, if_pos hcount]
    rfl

/-- Seven random paragraphs in HTML, seven canonical words, and less than nothing. -/
theorem generate_falls_into_items_seven_or_none :
    (∃ items : List String, (items.length : Int) = 7 ∧
      Text.pieces "\n\n" (generate 7 .htmlParagraphs true (Twister.ofSeed 1)).1 =
        items.map (fun item => "<p>" ++ item ++ "</p>") ∧
      ∀ (index : Nat) item, items[index]? = some item → IsMixed item) ∧
    (∃ items : List String, (items.length : Int) = 7 ∧
      Text.pieces " " (generate 7 .words false (Twister.ofSeed 1)).1 = items ∧
      ∀ (index : Nat) item, items[index]? = some item → words[index % words.size]? = some item) ∧
    (generate 7 .words false (Twister.ofSeed 1)).2 = Twister.ofSeed 1 ∧
    generate (-3) .plainParagraphs true (Twister.ofSeed 1) = ("", Twister.ofSeed 1) := by
  obtain ⟨hrandom, -, -⟩ := generate_falls_into_items 7 .htmlParagraphs true (Twister.ofSeed 1)
  obtain ⟨hcanonical, hsource, -⟩ := generate_falls_into_items 7 .words false (Twister.ofSeed 1)
  obtain ⟨-, -, hnone⟩ := generate_falls_into_items (-3) .plainParagraphs true (Twister.ofSeed 1)
  obtain ⟨items, hlength, hpieces, hadmits⟩ := hcanonical (by decide)
  refine ⟨hrandom (by decide), ⟨items, hlength, ?_, hadmits⟩, hsource rfl, hnone (by decide)⟩
  exact hpieces.trans (List.map_id items)

end Lorem

end TagTemplate
