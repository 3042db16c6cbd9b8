import TagTemplate.Proofs.Document
import TagTemplate.Yaml

/-!
# The documents of the program's own reader

The reader that the program is run with gives documents: no key stands twice in what it makes of a text.
-/

namespace TagTemplate

namespace Yaml

open Config Config.Value

variable {entries done result : List (Value × Value)} {key value : Value}

theorem resolve_ne_map (text : String) : resolve text ≠ .ok (map entries) := by
  intro h
  unfold resolve at h
  split at h
  · exact nomatch h
  split at h
  · exact nomatch h
  split at h
  · exact nomatch h
  split at h
  case h_1 number _ => cases number <;> exact nomatch h
  split at h
  case h_1 number _ => cases number <;> exact nomatch h
  exact nomatch h

theorem enter_eq_ok {overlaid : Bool} (h : enter overlaid done key value = .ok result) :
    result = put done key value := by
  unfold enter at h
  split at h
  · exact nomatch h
  · split at h
    · exact nomatch h
    · exact (Except.ok.inj h).symm

theorem exists_of_toEntries_cons {overlaid : Bool} {node node' : Node} {nodes : List (Node × Node)}
    (h : Node.toEntries overlaid done ((node, node') :: nodes) = .ok result) :
    ∃ key value, node'.toValue = .ok value ∧ Node.toEntries overlaid (put done key value) nodes = .ok result := by
  rw [Node.toEntries] at h
  obtain ⟨_, _, h⟩ := bind_ok_iff.1 h
  obtain ⟨key, _, h⟩ := bind_ok_iff.1 h
  obtain ⟨value, hvalue, h⟩ := bind_ok_iff.1 h
  obtain ⟨entries, henter, h⟩ := bind_ok_iff.1 h
  obtain rfl := enter_eq_ok henter
  exact ⟨key, value, hvalue, h⟩

theorem distinct_toEntries {overlaid : Bool} {nodes : List (Node × Node)} (hdone : Distinct done)
    (h : Node.toEntries overlaid done nodes = .ok result) : Distinct result := by
  induction nodes generalizing done with
  | nil =>
      obtain rfl := Except.ok.inj h
      exact hdone
  | cons entry nodes ih =>
      obtain ⟨key, value, -, h⟩ := exists_of_toEntries_cons h
      exact ih (distinct_put hdone key value) h

/-- Only a mapping has the value of one. -/
theorem exists_of_toValue_eq_map {node : Node} (h : node.toValue = .ok (map entries)) :
    ∃ overlaid nodes, Node.toEntries overlaid [] nodes = .ok entries := by
  cases node with
  | plain text => exact absurd h (resolve_ne_map text)
  | quoted codes => exact nomatch h
  | sequence items =>
      obtain ⟨values, -, hvalues⟩ := map_ok_iff.1 h
      exact nomatch hvalues
  | mapping overlaid nodes =>
      obtain ⟨result, hresult, hentries⟩ := map_ok_iff.1 h
      obtain rfl := map.inj hentries
      exact ⟨overlaid, nodes, hresult⟩

theorem isKeyed_toValue {node : Node} (h : node.toValue = .ok value) : value.IsKeyed := by
  rintro entries rfl
  obtain ⟨_, _, hentries⟩ := exists_of_toValue_eq_map h
  exact distinct_toEntries List.Pairwise.nil hentries

theorem isKeyed_of_mem_toEntries {overlaid : Bool} {nodes : List (Node × Node)}
    (hdone : ∀ entry ∈ done, entry.2.IsKeyed) (h : Node.toEntries overlaid done nodes = .ok result) :
    ∀ entry ∈ result, entry.2.IsKeyed := by
  induction nodes generalizing done with
  | nil =>
      obtain rfl := Except.ok.inj h
      exact hdone
  | cons entry nodes ih =>
      obtain ⟨key, value, hvalue, h⟩ := exists_of_toEntries_cons h
      refine ih (fun entry hmem => ?_) h
      obtain hold | hnew := mem_put hmem
      · exact hdone entry hold
      · rw [hnew]
        exact isKeyed_toValue hvalue

theorem isDocument_toValue {node : Node} (h : node.toValue = .ok value) : value.IsDocument := by
  refine ⟨isKeyed_toValue h, ?_⟩
  rintro entries rfl
  obtain ⟨_, _, hentries⟩ := exists_of_toValue_eq_map h
  exact isKeyed_of_mem_toEntries (fun _ hmem => absurd hmem List.not_mem_nil) hentries

/-- The value of a text is fit to be a document. -/
theorem isDocument_of_valueOf {text : String} {document : Value} (h : valueOf text = .ok document) :
    document.IsDocument := by
  unfold valueOf at h
  obtain ⟨node?, -, h⟩ := bind_ok_iff.1 h
  cases node? with
  | none =>
      obtain rfl := Except.ok.inj h
      exact ⟨nofun, nofun⟩
  | some node =>
      obtain ⟨-, -, h⟩ := bind_ok_iff.1 h
      exact isDocument_toValue h

end Yaml

end TagTemplate
