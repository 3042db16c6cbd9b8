import TagTemplate.Proofs.Mapping

/-!
# Documents as they are loaded

What is asked of a reader of documents: a document, if it is a mapping, has no key twice, and neither has a mapping that
stands under one of its keys. What says nothing serves as an empty mapping.
-/

namespace TagTemplate

namespace Config

section Outcomes

variable {ε α β : Type} {outcome : Except ε α} {next : α → Except ε β} {f : α → β} {result : β} {error : ε}

theorem map_ok_iff : outcome.map f = .ok result ↔ ∃ value, outcome = .ok value ∧ result = f value := by
  cases outcome <;> simp [Except.map, eq_comm]

theorem bind_ok_iff :
    outcome >>= next = .ok result ↔ ∃ value, outcome = .ok value ∧ next value = .ok result := by
  cases outcome <;> simp [bind, Except.bind]

theorem bind_error_iff :
    outcome >>= next = .error error ↔
      outcome = .error error ∨ ∃ value, outcome = .ok value ∧ next value = .error error := by
  cases outcome <;> simp [bind, Except.bind]

end Outcomes

namespace Value

variable {entries others : List (Value × Value)} {value : Value}

/-- Whether a value has no key twice if it is a mapping. -/
def IsKeyed (value : Value) : Prop := ∀ entries, value = map entries → Distinct entries

/-- Whether no key stands twice in a mapping nor in the mappings right inside of it. -/
def IsDocument (document : Value) : Prop :=
  document.IsKeyed ∧ ∀ entries, document = map entries → ∀ entry ∈ entries, entry.2.IsKeyed

theorem isKeyed_map_iff : (map entries).IsKeyed ↔ Distinct entries := by
  constructor
  · exact fun h => h entries rfl
  · rintro h _ ⟨⟩
    exact h

theorem isDocument_map_iff : (map entries).IsDocument ↔ Distinct entries ∧ ∀ entry ∈ entries, entry.2.IsKeyed := by
  rw [IsDocument, isKeyed_map_iff]
  constructor
  · exact fun ⟨hdistinct, hkeyed⟩ => ⟨hdistinct, hkeyed entries rfl⟩
  · rintro ⟨hdistinct, hkeyed⟩
    exact ⟨hdistinct, by rintro _ ⟨⟩; exact hkeyed⟩

/-- The entries of a mapping. What says nothing has none, and what is no mapping says something else. -/
def entries? (value : Value) : Option (List (Value × Value)) :=
  if value.isTruthy then
    match value with
    | map entries => some entries
    | _ => none
  else some []

theorem entries?_map (entries : List (Value × Value)) : (map entries).entries? = some entries := by
  cases entries <;> rfl

theorem entries?_of_not_isTruthy (h : value.isTruthy = false) : value.entries? = some [] := by
  unfold entries?
  rw [h, if_neg Bool.false_ne_true]

theorem entries?_eq_some_iff :
    value.entries? = some entries ↔ value = map entries ∨ value.isTruthy = false ∧ entries = [] := by
  cases htruthy : value.isTruthy with
  | true =>
      unfold entries?
      rw [htruthy, if_pos rfl]
      cases value <;> simp
  | false =>
      rw [entries?_of_not_isTruthy htruthy]
      constructor
      · intro h
        exact .inr ⟨rfl, (Option.some.inj h).symm⟩
      · rintro (rfl | ⟨-, rfl⟩)
        · cases entries with
          | nil => rfl
          | cons => exact absurd htruthy (by simp [isTruthy])
        · rfl

theorem IsKeyed.distinct (h : value.IsKeyed) (hentries : value.entries? = some entries) : Distinct entries := by
  obtain rfl | ⟨-, rfl⟩ := entries?_eq_some_iff.1 hentries
  · exact h entries rfl
  · exact List.Pairwise.nil

theorem IsDocument.isKeyed (h : value.IsDocument) (hentries : value.entries? = some entries) :
    ∀ entry ∈ entries, entry.2.IsKeyed := by
  obtain rfl | ⟨-, rfl⟩ := entries?_eq_some_iff.1 hentries
  · exact h.2 entries rfl
  · exact fun _ hmem => absurd hmem List.not_mem_nil

end Value

end Config

end TagTemplate
