/-!
# Tables of tags

A registry gives names their meaning. Every name is entered once at most and never taken out, so that
a table that was only read since says the same as before.
-/

namespace TagTemplate

/-- A write-once table, in the order of entry. -/
structure Registry (α : Type) where
  entries : List (String × α)
  nodup : (entries.map Prod.fst).Nodup

structure DuplicateName where
  name : String
deriving DecidableEq, Repr

def DuplicateName.message (error : DuplicateName) : String :=
  "Statement '" ++ error.name ++ "' is already registered"

namespace Registry

variable {α β : Type}

def empty : Registry α := ⟨[], List.nodup_nil⟩

instance : Inhabited (Registry α) := ⟨empty⟩

def lookup (registry : Registry α) (name : String) : Option α :=
  (registry.entries.find? fun entry => entry.1 == name).map Prod.snd

def contains (registry : Registry α) (name : String) : Bool :=
  (registry.entries.map Prod.fst).contains name

def size (registry : Registry α) : Nat :=
  registry.entries.length

/-- The names in alphabetical order, by code point. -/
def names (registry : Registry α) : List String :=
  (registry.entries.map Prod.fst).mergeSort (· ≤ ·)

def register (registry : Registry α) (name : String) (value : α) :
    Except DuplicateName (Registry α) :=
  if h : name ∈ registry.entries.map Prod.fst then .error ⟨name⟩
  else
    .ok ⟨registry.entries ++ [(name, value)], by
      rw [List.map_append, List.nodup_append]
      refine ⟨registry.nodup, by simp, ?_⟩
      intro old hold new hnew
      simp only [List.map_cons, List.map_nil, List.mem_singleton] at hnew
      rintro rfl
      exact h (hnew ▸ hold)⟩

/-- Enters names one after the other up to the first that has a meaning already. The names before it
stay entered. -/
def registerAll (registry : Registry α) : List (String × α) → Registry α × Option DuplicateName
  | [] => (registry, none)
  | (name, value) :: rules =>
      match registry.register name value with
      | .error refusal => (registry, some refusal)
      | .ok registry => registry.registerAll rules

def map (f : α → β) (registry : Registry α) : Registry β where
  entries := registry.entries.map fun entry => (entry.1, f entry.2)
  nodup := by simpa [List.map_map, Function.comp_def] using registry.nodup

end Registry

end TagTemplate
