import TagTemplate.Config.Value

/-!
# Mappings in a configuration

What is found under a name in a mapping to which entries were added, and in one that was laid over another. No two
entries of a mapping that was loaded have the same key, so that the entry which is found is the only one.
-/

namespace TagTemplate.Config.Value

variable {entries others : List (Value × Value)} {key value : Value} {name : String}

/-! ### Names as keys -/

theorem same_text_iff : same key (text name) = true ↔ key = text name := by
  cases key <;> simp [same, integer?]

theorem text_same_iff : same (text name) key = true ↔ key = text name := by
  cases key with
  | text name' => rw [same, beq_iff_eq, text.injEq, eq_comm]
  | _ => simp [same]

theorem text_same (name : String) (key : Value) : same (text name) key = same key (text name) := by
  rw [Bool.eq_iff_iff, text_same_iff, same_text_iff]

/-! ### What is found under a name -/

theorem find?_cons (key value : Value) (entries : List (Value × Value)) (name : String) :
    find? ((key, value) :: entries) name = if same key (text name) then some value else find? entries name := by
  rw [find?, List.find?_cons]
  cases same key (text name) <;> rfl

theorem find?_eq_none_iff : find? entries name = none ↔ ∀ entry ∈ entries, same entry.1 (text name) = false := by
  simp [find?]

theorem mem_of_find?_eq_some (h : find? entries name = some value) : (text name, value) ∈ entries := by
  rw [find?, Option.map_eq_some_iff] at h
  obtain ⟨⟨key, value⟩, hfind, rfl⟩ := h
  have hsame := List.find?_some hfind
  obtain rfl : key = text name := same_text_iff.1 hsame
  exact List.mem_of_find?_eq_some hfind

/-- An entry with its value replaced if it has a certain key. -/
def replace (key value : Value) (entry : Value × Value) : Value × Value :=
  if same entry.1 key then (entry.1, value) else entry

theorem replace_fst (key value : Value) (entry : Value × Value) : (replace key value entry).1 = entry.1 := by
  rw [replace]
  split <;> rfl

theorem put_of_any (h : entries.any (fun entry => same entry.1 key) = true) (value : Value) :
    put entries key value = entries.map (replace key value) := by
  rw [put, if_pos h]
  rfl

theorem put_of_not_any (h : entries.any (fun entry => same entry.1 key) = false) (value : Value) :
    put entries key value = entries ++ [(key, value)] := by
  rw [put, h, if_neg Bool.false_ne_true]

theorem find?_map_replace (entries : List (Value × Value)) (key value : Value) (name : String) :
    find? (entries.map (replace key value)) name =
      (find? entries name).map fun old => if same key (text name) then value else old := by
  rw [find?, List.find?_map, find?]
  have hkeys : (fun entry : Value × Value => same entry.1 (text name)) ∘ replace key value =
      fun entry => same entry.1 (text name) := by
    funext entry
    rw [Function.comp_apply, replace_fst]
  rw [hkeys]
  cases hfind : entries.find? fun entry => same entry.1 (text name) with
  | none => rfl
  | some entry =>
      have hsame := List.find?_some hfind
      have hentry : entry.1 = text name := same_text_iff.1 hsame
      simp only [Option.map_some, replace, hentry, text_same]
      split <;> rfl

theorem mem_put {entry : Value × Value} (h : entry ∈ put entries key value) : entry ∈ entries ∨ entry.2 = value := by
  cases hany : entries.any fun entry => same entry.1 key with
  | true =>
      rw [put_of_any hany] at h
      obtain ⟨old, hold, rfl⟩ := List.mem_map.1 h
      rw [replace]
      split
      case isTrue => exact .inr rfl
      case isFalse => exact .inl hold
  | false =>
      rw [put_of_not_any hany, List.mem_append, List.mem_singleton] at h
      exact h.imp_right fun hentry => by rw [hentry]

/-- An entry that is put into a mapping is found under its key, and the others under theirs. -/
theorem find?_put (entries : List (Value × Value)) (key value : Value) (name : String) :
    find? (put entries key value) name = if same key (text name) then some value else find? entries name := by
  cases hany : entries.any fun entry => same entry.1 key with
  | true =>
      rw [put_of_any hany, find?_map_replace]
      split
      case isTrue hkey =>
        obtain ⟨entry, hmem, hsame⟩ := List.any_eq_true.1 hany
        obtain rfl : key = text name := same_text_iff.1 hkey
        cases hfind : find? entries name with
        | none => exact absurd hsame (by rw [find?_eq_none_iff.1 hfind entry hmem]; exact Bool.false_ne_true)
        | some old => rfl
      case isFalse => rw [Option.map_id']
  | false =>
      rw [put_of_not_any hany, find?, List.find?_append, List.find?_cons, List.find?_nil]
      cases hkey : same key (text name) with
      | true =>
          obtain rfl : key = text name := same_text_iff.1 hkey
          rw [List.find?_eq_none.2 fun entry hmem => List.any_eq_false.1 hany entry hmem]
          rfl
      | false =>
          rw [Option.or_none]
          rfl

/-- No two entries have the same key. -/
def Distinct (entries : List (Value × Value)) : Prop :=
  entries.Pairwise fun entry other => same entry.1 other.1 = false

theorem distinct_put (h : Distinct entries) (key value : Value) : Distinct (put entries key value) := by
  cases hany : entries.any fun entry => same entry.1 key with
  | true =>
      rw [put_of_any hany, Distinct, List.pairwise_map]
      simpa only [replace_fst, Distinct] using h
  | false =>
      rw [put_of_not_any hany, Distinct, List.pairwise_append]
      refine ⟨h, List.pairwise_singleton _ _, fun entry hentry other hother => ?_⟩
      obtain rfl := List.mem_singleton.1 hother
      simpa using List.any_eq_false.1 hany entry hentry

theorem find?_overlay (entries : List (Value × Value)) (h : Distinct others) (name : String) :
    find? (overlay entries others) name = (find? others name).or (find? entries name) := by
  rw [overlay]
  induction others generalizing entries with
  | nil => rfl
  | cons entry others ih =>
      obtain ⟨key, value⟩ := entry
      obtain ⟨hkey, hothers⟩ := List.pairwise_cons.1 h
      rw [List.foldl_cons, ih _ hothers, find?_put, find?_cons]
      split
      case isTrue hname =>
        obtain rfl : key = text name := same_text_iff.1 hname
        have hnone : find? others name = none :=
          find?_eq_none_iff.2 fun other hother => by rw [← text_same]; exact hkey other hother
        rw [hnone]
        rfl
      case isFalse => rfl

end TagTemplate.Config.Value
