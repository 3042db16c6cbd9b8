import TagTemplate.Config.Reading
import TagTemplate.Proofs.Document

/-!
# The sections of a configuration

What a document says about each section, and what is read there. A section is filled with its own defaults, so that
it makes no difference whether a document is laid over the default one before.
-/

namespace TagTemplate.Config

open Value

variable {document others entries : List (Value × Value)} {name : String} {value : Value} {room : Nat}

/-! ### What a document says -/

/-- What stands under a name. If the name is left out, this is nothing. -/
def said (entries : List (Value × Value)) (name : String) : Value := (find? entries name).getD .null

/-- The entries of a section, if it has any. -/
def contents (document : List (Value × Value)) (name : String) : List (Value × Value) :=
  (said document name).entries?.getD []

/-- A section, with the defaults of what it leaves out. -/
def filled (document : List (Value × Value)) (name : String) : List (Value × Value) :=
  overlay (entriesOf (defaultSection name)) (contents document name)

/-- The version that a document is written for. -/
def version (document : List (Value × Value)) : Value :=
  (find? document "schema_version").getD (.int schemaVersion)

/-- The delimiter of a name, if it is a text. -/
def delimiter? (document : List (Value × Value)) (name : String) : Option CodeText :=
  ((find? (contents document "delimiters") name).or
    (find? (entriesOf (defaultSection "delimiters")) name)).bind text?

/-- Whether a document says what some delimiters are. -/
structure Spells (document : List (Value × Value)) (delimiters : CodeDelimiters) : Prop where
  blockStart : delimiter? document "block_start" = some delimiters.blockStart
  blockEnd : delimiter? document "block_end" = some delimiters.blockEnd
  commentStart : delimiter? document "comment_start" = some delimiters.commentStart
  commentEnd : delimiter? document "comment_end" = some delimiters.commentEnd

/-- Whether a value is a list of names. What says nothing is an empty one. -/
def IsNames (value : Value) : Prop :=
  value.isTruthy = false ∨ ∃ items, value = .list items ∧ ∀ item ∈ items, item.text?.isSome

/-! ### Keys that are not known -/

/-- Whether a fault says that keys cannot be listed. -/
def Fault.IsOfKeys : Fault → Prop
  | keyNotText .. | keysNotOrdered .. => True
  | mistake _ | integer _ | tooDeep => False

theorem keyClass_of_text {key : Value} (h : key.text?.isSome) : keyClass key = .text := by
  cases key <;> first | rfl | exact nomatch h

theorem firstUnordered_of_texts {keys : List Value} (h : ∀ key ∈ keys, key.text?.isSome) :
    firstUnordered keys = none := by
  induction keys with
  | nil => rfl
  | cons left keys ih =>
      cases keys with
      | nil => rfl
      | cons right keys =>
          have hleft := keyClass_of_text (h left List.mem_cons_self)
          have hright := keyClass_of_text (h right (List.mem_cons_of_mem _ List.mem_cons_self))
          rw [firstUnordered, hleft, hright, if_pos ⟨rfl, nofun⟩]
          exact ih fun key hkey => h key (List.mem_cons_of_mem _ hkey)

theorem namesOf_of_texts {keys : List Value} (h : ∀ key ∈ keys, key.text?.isSome) :
    ∃ names, namesOf keys = .ok names := by
  rw [namesOf, firstUnordered_of_texts h]
  exact ⟨_, if_pos (List.filterMap_length_eq_length.2 h)⟩

/-- An unknown key that is no text keeps all of them from being listed. -/
theorem namesOf_of_mem {keys : List Value} {key : Value} (hmem : key ∈ keys) (hkey : key.text? = none) :
    ∃ fault, namesOf keys = .error fault ∧ fault.IsOfKeys := by
  rw [namesOf]
  split
  · exact ⟨_, rfl, trivial⟩
  · have hlength : (keys.filterMap text?).length ≠ keys.length := by
      intro hlength
      have hsome := List.filterMap_length_eq_length.1 hlength key hmem
      rw [hkey] at hsome
      exact nomatch hsome
    exact ⟨_, if_neg hlength, trivial⟩

/-- The outcome if some keys are not known, with a mistake that lists them. -/
def refuse {α : Type} (unknown : List Value) (mistake : List CodeText → Mistake) (value : α) : Except Fault α :=
  match unknown with
  | [] => .ok value
  | keys => do throw (.mistake (mistake (← namesOf keys)))

theorem refuse_eq_ok {α : Type} {unknown : List Value} {mistake : List CodeText → Mistake} {value result : α}
    (h : refuse unknown mistake value = .ok result) : result = value := by
  unfold refuse at h
  split at h
  · exact (Except.ok.inj h).symm
  · obtain ⟨names, -, hnames⟩ := bind_ok_iff.1 h
    exact nomatch hnames

theorem refuse_bind_congr {α β γ : Type} {unknown : List Value} {mistake : List CodeText → Mistake} {value : α}
    {value' : β} {next : α → Except Fault γ} {next' : β → Except Fault γ} (h : next value = next' value') :
    refuse unknown mistake value >>= next = refuse unknown mistake value' >>= next' := by
  unfold refuse
  split
  · exact h
  · cases namesOf unknown <;> rfl

/-! ### Sections -/

theorem readSection_eq (document : List (Value × Value)) (name : String) :
    readSection document name =
      match (said document name).entries? with
      | some entries =>
          refuse (unknownKeys ((defaultSection name).map Prod.fst) entries) (.unknownKeys name)
            (overlay (entriesOf (defaultSection name)) entries)
      | none => .error (.mistake (.sectionNotAMapping name)) := by
  unfold readSection entries? said
  dsimp only
  cases ((find? document name).getD .null).isTruthy with
  | false => rfl
  | true => cases (find? document name).getD .null <;> rfl

theorem readSection_eq_ok (h : readSection document name = .ok entries) : entries = filled document name := by
  rw [readSection_eq] at h
  rw [filled, contents]
  split at h
  case h_1 given hgiven =>
    rw [hgiven, Option.getD_some]
    exact refuse_eq_ok h
  case h_2 => exact nomatch h

theorem readSection_congr (h : (said document name).entries? = (said others name).entries?) :
    readSection document name = readSection others name := by
  rw [readSection_eq, readSection_eq, h]

theorem readSection_of_find?_eq_none (h : find? document name = none) :
    readSection document name = .ok (entriesOf (defaultSection name)) := by
  rw [readSection_eq, said, h]
  rfl

/-- The default document says in each section what holds if the section is left out. -/
theorem readSection_defaultDocument (hname : name ∈ defaults.map Prod.fst) :
    readSection defaultDocument name = .ok (entriesOf (defaultSection name)) := by
  have hnames : defaults.map Prod.fst = ["delimiters", "statements", "lorem"] := rfl
  rw [hnames] at hname
  simp only [List.mem_cons, List.not_mem_nil, or_false] at hname
  obtain rfl | rfl | rfl := hname <;> rfl

theorem readSection_overlay (h : Distinct document) (hname : name ∈ defaults.map Prod.fst) :
    readSection (overlay defaultDocument document) name = readSection document name := by
  have hfind := find?_overlay defaultDocument h name
  cases hgiven : find? document name with
  | some value =>
      apply readSection_congr
      rw [said, said, hfind, hgiven, Option.some_or]
  | none =>
      rw [readSection_of_find?_eq_none hgiven, ← readSection_defaultDocument hname]
      apply readSection_congr
      rw [said, said, hfind, hgiven, Option.none_or]

theorem ofEntries_congr (h : ∀ name ∈ defaults.map Prod.fst, readSection document name = readSection others name) :
    ofEntries room document = ofEntries room others := by
  unfold ofEntries
  rw [h "delimiters" (by decide), h "statements" (by decide), h "lorem" (by decide)]

/-- The defaults of a whole document change nothing, as each section is filled with its own. -/
theorem ofEntries_overlay (h : Distinct document) :
    ofEntries room (overlay defaultDocument document) = ofEntries room document :=
  ofEntries_congr fun _ hname => readSection_overlay h hname

/-! ### What is in a section -/

theorem isKeyed_said (h : ∀ entry ∈ document, entry.2.IsKeyed) (name : String) : (said document name).IsKeyed := by
  rw [said]
  cases hfind : find? document name with
  | none => exact nofun
  | some value => exact h _ (mem_of_find?_eq_some hfind)

theorem distinct_contents (h : ∀ entry ∈ document, entry.2.IsKeyed) (name : String) :
    Distinct (contents document name) := by
  rw [contents]
  cases hentries : (said document name).entries? with
  | none => exact List.Pairwise.nil
  | some entries => exact (isKeyed_said h name).distinct hentries

theorem find?_filled (h : Distinct (contents document name)) (key : String) :
    find? (filled document name) key =
      (find? (contents document name) key).or (find? (entriesOf (defaultSection name)) key) :=
  find?_overlay _ h key

/-- What the disabled names are read from, which is an empty list if nothing is said. -/
def listed (entries : List (Value × Value)) : Value :=
  if (said entries "disabled").isTruthy then said entries "disabled" else .list []

theorem ofEntries_eq (room : Nat) (document : List (Value × Value)) :
    ofEntries room document = do
      let delimiters ← readSection document "delimiters"
      let statements ← readSection document "statements"
      let lorem ← readSection document "lorem"
      let disabled ← orMistake room (readNames (listed statements))
      let seed ← orMistake room (readSeed (said lorem "seed"))
      let delimiters ← orMistake room (readDelimiters delimiters)
      return { delimiters, disabled, seed } := rfl

theorem listed_overlay (h : Distinct entries) :
    listed (overlay (entriesOf (defaultSection "statements")) entries) = listed entries := by
  rw [listed, listed, said, said, find?_overlay _ h]
  cases find? entries "disabled" <;> rfl

theorem readNames_of_isNames {value : Value} (h : IsNames value) :
    ∃ names, readNames (if value.isTruthy then value else .list []) = .ok names := by
  obtain hfalsy | ⟨items, rfl, hitems⟩ := h
  · rw [hfalsy]
    exact ⟨[], rfl⟩
  · have hlist : (if (list items).isTruthy then list items else list []) = list items := by cases items <;> rfl
    rw [hlist, readNames]
    exact ⟨_, if_pos (List.filterMap_length_eq_length.2 hitems)⟩

theorem readNames_of_not_isNames {value : Value} (h : ¬IsNames value) :
    readNames (if value.isTruthy then value else .list []) = .error .disabledNotNames := by
  have htruthy : value.isTruthy = true := by
    rw [← Bool.not_eq_false]
    exact fun hfalsy => h (.inl hfalsy)
  rw [htruthy, if_pos rfl]
  cases value with
  | list items =>
      exact if_neg fun hlength => h (.inr ⟨items, rfl, List.filterMap_length_eq_length.1 hlength⟩)
  | _ => rfl

theorem readDelimiter_eq_ok_iff {text : { text : CodeText // text ≠ .chars "" }} :
    readDelimiter entries name = .ok text ↔ (find? entries name).bind text? = some text.val := by
  unfold readDelimiter
  split
  case h_1 value hvalue =>
    rw [hvalue, Option.some.injEq]
    split
    case isTrue => rw [Except.ok.injEq, Subtype.ext_iff]
    case isFalse hempty =>
      constructor
      · exact nofun
      · exact fun h => absurd (h ▸ text.property) hempty
  case h_2 hnone =>
    rw [hnone]
    exact iff_of_false nofun nofun

theorem readDelimiter_eq_error {cause : Mistake} (h : readDelimiter entries name = .error cause) :
    cause = .badDelimiter name := by
  unfold readDelimiter at h
  split at h
  · split at h
    · exact nomatch h
    · exact (Except.error.inj h).symm
  · exact (Except.error.inj h).symm

theorem readDelimiters_eq_ok_iff (h : Distinct (contents document "delimiters")) {delimiters : CodeDelimiters} :
    readDelimiters (filled document "delimiters") = .ok delimiters ↔ Spells document delimiters := by
  have hdelimiter : ∀ name, (find? (filled document "delimiters") name).bind text? = delimiter? document name := by
    intro name
    rw [find?_filled h, delimiter?]
  constructor
  · intro hread
    obtain ⟨blockStart, hblockStart, hread⟩ := bind_ok_iff.1 hread
    obtain ⟨blockEnd, hblockEnd, hread⟩ := bind_ok_iff.1 hread
    obtain ⟨commentStart, hcommentStart, hread⟩ := bind_ok_iff.1 hread
    obtain ⟨commentEnd, hcommentEnd, hread⟩ := bind_ok_iff.1 hread
    rw [readDelimiter_eq_ok_iff, hdelimiter] at hblockStart hblockEnd hcommentStart hcommentEnd
    split at hread
    case isTrue =>
      obtain rfl := Except.ok.inj hread
      exact ⟨hblockStart, hblockEnd, hcommentStart, hcommentEnd⟩
    case isFalse => exact nomatch hread
  · intro hspells
    have hread : ∀ name text (htext : text ≠ .chars ""), delimiter? document name = some text →
        readDelimiter (filled document "delimiters") name = .ok ⟨text, htext⟩ := by
      intro name text htext hgiven
      rw [readDelimiter_eq_ok_iff, hdelimiter, hgiven]
    rw [readDelimiters, hread _ _ delimiters.blockStart_ne hspells.blockStart,
      hread _ _ delimiters.blockEnd_ne hspells.blockEnd, hread _ _ delimiters.commentStart_ne hspells.commentStart,
      hread _ _ delimiters.commentEnd_ne hspells.commentEnd]
    exact dif_pos delimiters.starts_ne

theorem readDelimiters_eq_error {cause : Mistake} (h : readDelimiters entries = .error cause) :
    (∃ name, cause = .badDelimiter name) ∨ cause = .equalStarts := by
  obtain h | ⟨blockStart, -, h⟩ := bind_error_iff.1 h
  · exact .inl ⟨_, readDelimiter_eq_error h⟩
  obtain h | ⟨blockEnd, -, h⟩ := bind_error_iff.1 h
  · exact .inl ⟨_, readDelimiter_eq_error h⟩
  obtain h | ⟨commentStart, -, h⟩ := bind_error_iff.1 h
  · exact .inl ⟨_, readDelimiter_eq_error h⟩
  obtain h | ⟨commentEnd, -, h⟩ := bind_error_iff.1 h
  · exact .inl ⟨_, readDelimiter_eq_error h⟩
  split at h
  · exact nomatch h
  · exact .inr (Except.error.inj h).symm

/-! ### Whole documents -/

/-- The version has to be the one that documents are written for. -/
def readVersion (room : Nat) (document : List (Value × Value)) : Except Fault Unit :=
  if (version document).same (.int schemaVersion) then .ok ()
  else .error ((Mistake.unsupportedSchema (version document)).toFault room)

theorem ofDocument_map (room : Nat) (path : String) (document : List (Value × Value)) :
    ofDocument room path (.map document) =
      readVersion room document >>= fun _ => overDefaults document >>= ofEntries room := by
  have hdocument : (if (map document).isTruthy then map document else .map []) = map document := by
    cases document <;> rfl
  unfold ofDocument readVersion version
  dsimp only
  rw [hdocument]
  dsimp only
  cases ((find? document "schema_version").getD (.int schemaVersion)).same (.int schemaVersion) <;> rfl

/-- The names of sections that a document says and that are not known. -/
def unknownSections (document : List (Value × Value)) : List Value :=
  unknownKeys ("schema_version" :: defaults.map Prod.fst) document

theorem ofDocument_map_of_distinct (room : Nat) (path : String) (h : Distinct document) :
    ofDocument room path (.map document) =
      readVersion room document >>= fun _ =>
        refuse (unknownSections document) .unknownSections () >>= fun _ => ofEntries room document := by
  rw [ofDocument_map]
  apply congrArg (readVersion room document >>= ·)
  funext _
  have hread : overDefaults document =
      refuse (unknownSections document) .unknownSections (overlay defaultDocument document) := rfl
  rw [hread]
  exact refuse_bind_congr (ofEntries_overlay h)

theorem ofDocument_of_not_isTruthy (room : Nat) (path : String) {value : Value} (h : value.isTruthy = false) :
    ofDocument room path value = ofDocument room path (.map []) := by
  unfold ofDocument
  rw [h]
  rfl

theorem ofDocument_of_entries? (room : Nat) (path : String) {value : Value} (h : value.entries? = some document) :
    ofDocument room path value = ofDocument room path (.map document) := by
  obtain rfl | ⟨hfalsy, rfl⟩ := entries?_eq_some_iff.1 h
  · rfl
  · exact ofDocument_of_not_isTruthy room path hfalsy

theorem ofDocument_of_entries?_eq_none (room : Nat) (path : String) {value : Value} (h : value.entries? = none) :
    ofDocument room path value = .error (.mistake (.documentNotAMapping path)) := by
  cases htruthy : value.isTruthy with
  | false =>
      rw [entries?_of_not_isTruthy htruthy] at h
      exact nomatch h
  | true =>
      unfold ofDocument
      rw [htruthy]
      cases value with
      | map entries =>
          rw [entries?_map] at h
          exact nomatch h
      | _ => rfl

end TagTemplate.Config
