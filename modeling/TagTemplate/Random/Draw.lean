import TagTemplate.Random.Twister

/-!
# Drawing at random

Numbers below a limit, members of a list and samples without repetition, all drawn from one source. A
draw takes words from the source until one of them, cut to the length of the limit, is below it.
-/

namespace TagTemplate

/-- A value drawn from a source, and the source after it. -/
abbrev Draw := StateM Twister

namespace Draw

/-- The next word of the source, cut to its `k` highest bits. -/
def bits (k : Nat) : Draw Nat := fun source =>
  let (word, source) := source.next
  (word.toNat >>> (32 - k), source)

/-- A cut-off for rejections. A draw that has rejected so many words in a row takes the remainder of the next one,
where it would else go on rejecting. Each word is rejected with a chance of less than one half. -/
def patience : Nat := 1000

def belowWithin (n : Nat) (h : 0 < n) : Nat → Draw (Fin n)
  | 0 => do
      let candidate ← bits (n.log2 + 1)
      return ⟨candidate % n, Nat.mod_lt _ h⟩
  | rejections + 1 => do
      let candidate ← bits (n.log2 + 1)
      if hlt : candidate < n then return ⟨candidate, hlt⟩
      belowWithin n h rejections

def below (n : Nat) (h : 0 < n) : Draw (Fin n) :=
  belowWithin n h patience

def between (low high : Nat) : Draw Nat := do
  let above ← below (high - low + 1) (Nat.succ_pos _)
  return low + above

def choice {α : Type} (members : Array α) (h : 0 < members.size) : Draw α := do
  let index ← below members.size h
  return members[index]

/-- Some members of a list, no place of it twice. Each is taken out of the pool, and the last of the pool
fills the gap. -/
def sample {α : Type} : Nat → Array α → Draw (List α)
  | 0, _ => return []
  | count + 1, pool =>
      if h : 0 < pool.size then do
        let index ← below pool.size h
        let rest ← sample count (pool.set index (pool.back h)).pop
        return pool[index] :: rest
      else return []

def repeated {α : Type} (draw : Draw α) : Nat → Draw (List α)
  | 0 => return []
  | count + 1 => do
      let first ← draw
      let rest ← repeated draw count
      return first :: rest

end Draw

end TagTemplate
