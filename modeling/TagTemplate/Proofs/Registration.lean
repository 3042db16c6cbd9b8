import Mathlib.Data.List.Sort
import Mathlib.Data.String.Basic
import TagTemplate.Proofs.Builtin

/-!
# What a registry keeps

A registry answers by its entries, and an operation only adds entries behind them, so that a name keeps its first
meaning however many operations follow and whether they are refused or not. Rules that are entered together are entered
up to the first one whose name has a meaning by then.
-/

namespace TagTemplate.Registry

variable {α : Type} {registry registry' : Registry α} {name : String} {value : α}

/-! ### Operations -/

/-- What changes a registry: one name is entered, or several are, one after the other. -/
inductive Operation (α : Type) where
  | register (name : String) (value : α)
  | registerAll (rules : List (String × α))

/-- The registry behind an operation, and the refusal if there was one. -/
def perform (registry : Registry α) : Operation α → Registry α × Option DuplicateName
  | .register name value =>
      match registry.register name value with
      | .ok registry => (registry, none)
      | .error refusal => (registry, some refusal)
  | .registerAll rules => registry.registerAll rules

/-- The registry behind some operations, one after the other, no matter which of them were refused. -/
def run (registry : Registry α) (operations : List (Operation α)) : Registry α :=
  operations.foldl (fun registry operation => (registry.perform operation).1) registry

/-! ### What a registry answers -/

theorem lookup_eq (registry : Registry α) (name : String) : registry.lookup name = registry.entries.lookup name := by
  rw [lookup]
  induction registry.entries with
  | nil => rfl
  | cons entry entries ih =>
      rw [List.find?_cons, List.lookup_cons, BEq.comm]
      split
      · rfl
      · exact ih

theorem contains_eq_true_iff : registry.contains name = true ↔ name ∈ registry.entries.map Prod.fst := by
  rw [contains, List.contains_iff_mem]

theorem isSome_lookup (registry : Registry α) (name : String) :
    (registry.lookup name).isSome = registry.contains name := by
  rw [Bool.eq_iff_iff, contains_eq_true_iff, Option.isSome_iff_exists, List.mem_map]
  constructor
  · rintro ⟨value, hvalue⟩
    exact ⟨(name, value), lookup_eq_some_iff.1 hvalue, rfl⟩
  · rintro ⟨⟨_, value⟩, hmem, rfl⟩
    exact ⟨value, lookup_eq_some_iff.2 hmem⟩

theorem mem_names_iff : name ∈ registry.names ↔ registry.contains name = true := by
  rw [names, List.mem_mergeSort, contains_eq_true_iff]

theorem length_names (registry : Registry α) : registry.names.length = registry.size := by
  rw [names, List.length_mergeSort, List.length_map, size]

theorem pairwise_names (registry : Registry α) : registry.names.Pairwise (· < ·) := by
  have hsorted : registry.names.Pairwise (· ≤ ·) := List.pairwise_mergeSort' (· ≤ ·) _
  have hnodup : registry.names.Nodup := List.nodup_mergeSort.2 registry.nodup
  exact hsorted.imp₂ (fun _ _ hle hne => lt_of_le_of_ne hle hne) hnodup

/-! ### What an operation adds -/

theorem register_of_contains (h : registry.contains name = true) (value : α) :
    registry.register name value = .error ⟨name⟩ := by
  rw [register, dif_pos (contains_eq_true_iff.1 h)]

theorem register_of_not_contains (h : registry.contains name = false) (value : α) :
    ∃ registry', registry.register name value = .ok registry' ∧
      registry'.entries = registry.entries ++ [(name, value)] := by
  have hmem : name ∉ registry.entries.map Prod.fst := by
    rw [← contains_eq_true_iff, h]
    exact Bool.false_ne_true
  rw [register, dif_neg hmem]
  exact ⟨_, rfl, rfl⟩

/-- How rules are entered: some are taken, which stand behind the old entries, and the first that is left, if there is
one, is refused because its name has a meaning by then. -/
structure Enters (registry : Registry α) (taken left : List (String × α)) (after : Registry α)
    (refusal : Option DuplicateName) : Prop where
  entries_eq : after.entries = registry.entries ++ taken
  refusal_eq : refusal = left.head?.map fun rule => ⟨rule.1⟩
  contains_of_left : ∀ rule ∈ left.head?, after.contains rule.1 = true

namespace Enters

variable {taken left : List (String × α)} {after : Registry α} {refusal : Option DuplicateName}

theorem cons (hentries : registry'.entries = registry.entries ++ [(name, value)])
    (h : Enters registry' taken left after refusal) : Enters registry ((name, value) :: taken) left after refusal where
  entries_eq := by rw [h.entries_eq, hentries, List.append_assoc, List.singleton_append]
  refusal_eq := h.refusal_eq
  contains_of_left := h.contains_of_left

/-- The names that are taken are new, and no two of them are the same. -/
theorem nodup (h : Enters registry taken left after refusal) :
    (taken.map Prod.fst).Nodup ∧ ∀ name ∈ taken.map Prod.fst, registry.contains name = false := by
  have hnodup := after.nodup
  rw [h.entries_eq, List.map_append, List.nodup_append] at hnodup
  obtain ⟨-, htaken, hapart⟩ := hnodup
  refine ⟨htaken, fun name hname => ?_⟩
  rw [← Bool.not_eq_true, contains_eq_true_iff]
  exact fun hold => hapart name hold name hname rfl

theorem lookup_eq (h : Enters registry taken left after refusal) (name : String) :
    after.lookup name = (registry.lookup name).or (taken.lookup name) := by
  rw [Registry.lookup_eq, Registry.lookup_eq, h.entries_eq, List.lookup_append]

theorem contains_or_mem (h : Enters registry taken left after refusal) :
    ∀ rule ∈ left.head?, registry.contains rule.1 = true ∨ rule.1 ∈ taken.map Prod.fst := by
  intro rule hrule
  have hcontains := h.contains_of_left rule hrule
  rw [contains_eq_true_iff, h.entries_eq, List.map_append, List.mem_append] at hcontains
  rwa [contains_eq_true_iff]

end Enters

/-- Rules are entered up to the first duplicate. -/
theorem exists_enters (registry : Registry α) (rules : List (String × α)) :
    ∃ taken left, rules = taken ++ left ∧
      Enters registry taken left (registry.registerAll rules).1 (registry.registerAll rules).2 := by
  induction rules generalizing registry with
  | nil => exact ⟨[], [], rfl, (List.append_nil _).symm, rfl, by simp⟩
  | cons rule rules ih =>
      obtain ⟨name, value⟩ := rule
      cases hname : registry.contains name with
      | true =>
          rw [registerAll, register_of_contains hname]
          refine ⟨[], (name, value) :: rules, rfl, (List.append_nil _).symm, rfl, ?_⟩
          rintro _ ⟨⟩
          exact hname
      | false =>
          obtain ⟨registry', hregister, hentries⟩ := register_of_not_contains hname value
          obtain ⟨taken, left, rfl, henters⟩ := ih registry'
          rw [registerAll, hregister]
          exact ⟨(name, value) :: taken, left, rfl, henters.cons hentries⟩

/-- Behind a name that was entered the names mean what they did, and that name what it was entered with. -/
theorem lookup_of_registered (hname : registry.contains name = false)
    (hentries : registry'.entries = registry.entries ++ [(name, value)]) (other : String) :
    registry'.lookup other = if other = name then some value else registry.lookup other := by
  rw [lookup_eq, lookup_eq, hentries, List.lookup_append, List.lookup_cons]
  by_cases h : other = name
  · subst h
    rw [← isSome_lookup, Option.isSome_eq_false_iff, Option.isNone_iff_eq_none, lookup_eq] at hname
    rw [hname, beq_self_eq_true, if_pos rfl]
    rfl
  · rw [beq_eq_false_iff_ne.2 h, if_neg h]
    exact Option.or_none

/-! ### Runs -/

theorem perform_register_of_contains (h : registry.contains name = true) (value : α) :
    registry.perform (.register name value) = (registry, some ⟨name⟩) := by
  rw [perform, register_of_contains h]

theorem perform_register_of_not_contains (h : registry.contains name = false) (value : α) :
    ∃ after, registry.perform (.register name value) = (after, none) ∧
      after.entries = registry.entries ++ [(name, value)] := by
  obtain ⟨after, hregister, hentries⟩ := register_of_not_contains h value
  refine ⟨after, ?_, hentries⟩
  rw [perform, hregister]

/-- An operation leaves the entries that there are. -/
theorem entries_prefix_perform (registry : Registry α) (operation : Operation α) :
    registry.entries <+: (registry.perform operation).1.entries := by
  cases operation with
  | register name value =>
      cases hname : registry.contains name with
      | true =>
          exact ⟨[], by rw [List.append_nil, perform_register_of_contains hname]⟩
      | false =>
          obtain ⟨after, hperform, hentries⟩ := perform_register_of_not_contains hname value
          rw [hperform, hentries]
          exact List.prefix_append _ _
  | registerAll rules =>
      obtain ⟨taken, left, -, henters⟩ := exists_enters registry rules
      rw [perform, henters.entries_eq]
      exact List.prefix_append _ _

theorem entries_prefix_run (registry : Registry α) (operations : List (Operation α)) :
    registry.entries <+: (registry.run operations).entries := by
  induction operations generalizing registry with
  | nil => exact List.prefix_refl _
  | cons operation operations ih => exact (entries_prefix_perform registry operation).trans (ih _)

theorem run_append (registry : Registry α) (operations later : List (Operation α)) :
    registry.run (operations ++ later) = (registry.run operations).run later :=
  List.foldl_append

/-- A name keeps its meaning for the rest of a run. -/
theorem lookup_run (h : registry.lookup name = some value) (operations : List (Operation α)) :
    (registry.run operations).lookup name = some value := by
  have hbefore := entries_prefix_run registry operations
  exact lookup_eq_some_iff.2 (hbefore.subset (lookup_eq_some_iff.1 h))

/-- What is true of a registry at any time: names are entered once, and all answers agree. -/
structure IsWriteOnce (registry : Registry α) : Prop where
  /-- A name that has a meaning is refused, and nothing changes. -/
  register_of_contains : ∀ name value, registry.contains name = true →
    registry.register name value = .error ⟨name⟩ ∧
      registry.perform (.register name value) = (registry, some ⟨name⟩)
  /-- Any other name is entered, and nothing else changes. -/
  register_of_not_contains : ∀ name value, registry.contains name = false →
    ∃ after, registry.register name value = .ok after ∧ registry.perform (.register name value) = (after, none) ∧
      ∀ other, after.lookup other = if other = name then some value else registry.lookup other
  /-- Of several rules those before the first duplicate are entered, which is refused. -/
  registerAll : ∀ rules, ∃ taken left after, rules = taken ++ left ∧
    registry.perform (.registerAll rules) = (after, left.head?.map fun rule => ⟨rule.1⟩) ∧
    (taken.map Prod.fst).Nodup ∧ (∀ name ∈ taken.map Prod.fst, registry.contains name = false) ∧
    (∀ rule ∈ left.head?, registry.contains rule.1 = true ∨ rule.1 ∈ taken.map Prod.fst) ∧
    ∀ name, after.lookup name = (registry.lookup name).or (taken.lookup name)
  names_increasing : registry.names.Pairwise (· < ·)
  size_eq : registry.size = registry.names.length
  contains_iff : ∀ name, registry.contains name = true ↔ name ∈ registry.names
  isSome_lookup : ∀ name, (registry.lookup name).isSome = registry.contains name

/-- At any time of a run a registry enters names once and answers accordingly, and a name that has a meaning then keeps
it for the rest of the run. -/
theorem run_isWriteOnce (registry : Registry α) (operations : List (Operation α)) :
    (registry.run operations).IsWriteOnce ∧
      ∀ name value, (registry.run operations).lookup name = some value →
        ∀ later, (registry.run (operations ++ later)).lookup name = some value := by
  generalize hnow : registry.run operations = now
  refine ⟨⟨fun name value hname => ?_, fun name value hname => ?_, fun rules => ?_, pairwise_names now,
    (length_names now).symm, fun name => mem_names_iff.symm, isSome_lookup now⟩, fun name value hvalue later => ?_⟩
  · exact ⟨register_of_contains hname value, perform_register_of_contains hname value⟩
  · obtain ⟨after, hregister, hentries⟩ := register_of_not_contains hname value
    refine ⟨after, hregister, ?_, lookup_of_registered hname hentries⟩
    rw [perform, hregister]
  · obtain ⟨taken, left, rfl, henters⟩ := exists_enters now rules
    refine ⟨taken, left, _, rfl, ?_, henters.nodup.1, henters.nodup.2, henters.contains_or_mem, henters.lookup_eq⟩
    exact Prod.ext rfl henters.refusal_eq
  · rw [run_append, hnow]
    exact lookup_run hvalue later

/-- Rules with a name that occurs twice, for a registry without one of the built-in tags: what is behind the second
occurrence is not entered. The name keeps its first meaning, and it is refused ever after. -/
theorem run_isWriteOnce_repeated_name :
    ∃ now, (Tag.Builtin.registry ["lorem"]).run
        [.registerAll [("b", .lorem), ("a", .lorem), ("b", .comment), ("c", .lorem)]] = now ∧
      now.names = ["a", "b", "comment"] ∧ now.lookup "c" = none ∧ now.lookup "b" = some .lorem ∧
      now.perform (.register "b" .comment) = (now, some ⟨"b"⟩) ∧ ∀ later,
        ((Tag.Builtin.registry ["lorem"]).run ([.registerAll [("b", .lorem), ("a", .lorem), ("b", .comment),
          ("c", .lorem)]] ++ later)).lookup "b" = some .lorem := by
  obtain ⟨hnow, hkeeps⟩ := run_isWriteOnce (Tag.Builtin.registry ["lorem"])
    [.registerAll [("b", .lorem), ("a", .lorem), ("b", .comment), ("c", .lorem)]]
  have hlookup : ((Tag.Builtin.registry ["lorem"]).run
      [.registerAll [("b", .lorem), ("a", .lorem), ("b", .comment), ("c", .lorem)]]).lookup "b" = some .lorem := by
    rfl
  have hnames : ((Tag.Builtin.registry ["lorem"]).run
      [.registerAll [("b", .lorem), ("a", .lorem), ("b", .comment), ("c", .lorem)]]).names = ["a", "b", "comment"] := by
    have hperm : ["comment", "b", "a"].Perm ["a", "b", "comment"] := by decide
    have hsorted : ["a", "b", "comment"].Pairwise (· < ·) := by decide +kernel
    exact ((List.mergeSort_perm _ _).trans hperm).eq_of_pairwise' hnow.names_increasing hsorted
  have hcontains := hnow.isSome_lookup "b"
  rw [hlookup, Option.isSome_some] at hcontains
  exact ⟨_, rfl, hnames, rfl, hlookup, (hnow.register_of_contains "b" .comment hcontains.symm).2,
    hkeeps "b" .lorem hlookup⟩

end TagTemplate.Registry
