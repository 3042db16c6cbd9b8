import TagTemplate.Config.Value

/-!
# Values that can be shown

Nothing is in the way of showing a value exactly if its integers have few enough digits and its parts do not lie deeper
in it than there is room for.
-/

namespace TagTemplate.Config.Value

mutual

/-- So many lists and mappings lie within each other in a value, not counting those that are empty. -/
def depth : Value → Nat
  | foreign _ parts => depthOfItems parts
  | list items => depthOfItems items
  | map entries => depthOfEntries entries
  | _ => 0

def depthOfItems : List Value → Nat
  | [] => 0
  | item :: items => max (item.depth + 1) (depthOfItems items)

def depthOfEntries : List (Value × Value) → Nat
  | [] => 0
  | (key, value) :: entries => max (max (key.depth + 1) (value.depth + 1)) (depthOfEntries entries)

end

mutual

theorem obstacle?_eq_none_iff (room : Nat) (value : Value) :
    value.obstacle? room = none ↔ value.isWritable = true ∧ value.depth ≤ room := by
  match value with
  | int n => simp [obstacle?, isWritable, depth]
  | foreign _ items | list items =>
      rw [obstacle?, isWritable, depth]
      exact obstacleInItems?_eq_none_iff room items
  | map entries =>
      rw [obstacle?, isWritable, depth]
      exact obstacleInEntries?_eq_none_iff room entries
  | null | bool _ | float _ | text _ => simp [obstacle?, isWritable, depth]

theorem obstacleInItems?_eq_none_iff (room : Nat) (items : List Value) :
    obstacleInItems? room items = none ↔ allWritable items = true ∧ depthOfItems items ≤ room := by
  match room, items with
  | _, [] => simp [obstacleInItems?, allWritable, depthOfItems]
  | 0, item :: items => simp [obstacleInItems?, depthOfItems]
  | room + 1, item :: items =>
      have hitem := obstacle?_eq_none_iff room item
      have hitems := obstacleInItems?_eq_none_iff (room + 1) items
      rw [obstacleInItems?, Option.or_eq_none_iff, hitem, hitems, allWritable, depthOfItems, Bool.and_eq_true,
        Nat.max_le, Nat.add_le_add_iff_right]
      exact and_and_and_comm

theorem obstacleInEntries?_eq_none_iff (room : Nat) (entries : List (Value × Value)) :
    obstacleInEntries? room entries = none ↔ entriesWritable entries = true ∧ depthOfEntries entries ≤ room := by
  match room, entries with
  | _, [] => simp [obstacleInEntries?, entriesWritable, depthOfEntries]
  | 0, (key, value) :: entries => simp [obstacleInEntries?, depthOfEntries]
  | room + 1, (key, value) :: entries =>
      have hkey := obstacle?_eq_none_iff room key
      have hvalue := obstacle?_eq_none_iff room value
      have hentries := obstacleInEntries?_eq_none_iff (room + 1) entries
      rw [obstacleInEntries?, Option.or_eq_none_iff, Option.or_eq_none_iff, hkey, hvalue, hentries, entriesWritable,
        depthOfEntries, Bool.and_eq_true, Bool.and_eq_true, Nat.max_le, Nat.max_le, Nat.add_le_add_iff_right,
        Nat.add_le_add_iff_right, @and_and_and_comm (key.isWritable = true)]
      exact and_and_and_comm

end

end TagTemplate.Config.Value
