import TagTemplate.Proofs.Check

/-!
# What settings are made of

A document says what it says with or without the defaults laid under it, and what it leaves out has its default. All
settings have a document that says all of them, from which they are read again.
-/

namespace TagTemplate.Config

open Value

variable {room : Nat} {document entries : List (Value × Value)} {name : String} {settings : Settings} {fault : Fault}

/-! ### Documents with known names -/

/-- A mapping without names that are not known, the sections of which have texts as keys. -/
structure IsKnown (document : List (Value × Value)) : Prop where
  isDocument : (map document).IsDocument
  known : ∀ entry ∈ document, ∃ name ∈ "schema_version" :: defaults.map Prod.fst, entry.1 = .text name
  texts : ∀ entry ∈ document, ∀ entries, entry.2 = .map entries → ∀ inner ∈ entries, inner.1.text?.isSome

theorem IsKnown.distinct (h : IsKnown document) : Distinct document :=
  h.isDocument.1 document rfl

theorem IsKnown.isKeyed (h : IsKnown document) : ∀ entry ∈ document, entry.2.IsKeyed :=
  h.isDocument.2 document rfl

theorem IsKnown.unknownSections_eq_nil (h : IsKnown document) : unknownSections document = [] := by
  rw [unknownSections, unknownKeys, List.filter_eq_nil_iff]
  intro key hkey
  obtain ⟨entry, hentry, rfl⟩ := List.mem_map.1 hkey
  obtain ⟨name, hname, hentry⟩ := h.known entry hentry
  rw [Bool.not_eq_true', Bool.not_eq_false, List.any_eq_true]
  exact ⟨name, hname, same_text_iff.2 hentry⟩

/-- The defaults of the whole document make no difference. -/
theorem IsKnown.overDefaults_bind (h : IsKnown document) (room : Nat) :
    (overDefaults document >>= ofEntries room) = ofEntries room document := by
  have hread : overDefaults document =
      refuse (unknownSections document) .unknownSections (overlay defaultDocument document) := rfl
  rw [hread, h.unknownSections_eq_nil]
  exact ofEntries_overlay h.distinct

theorem IsKnown.text?_isSome (h : IsKnown document) {entry : Value × Value} (hentry : entry ∈ contents document name) :
    entry.1.text?.isSome := by
  rw [contents, said] at hentry
  cases hfind : find? document name with
  | none =>
      rw [hfind] at hentry
      exact absurd hentry List.not_mem_nil
  | some value =>
      rw [hfind, Option.getD_some] at hentry
      cases hentries : value.entries? with
      | none =>
          rw [hentries] at hentry
          exact absurd hentry List.not_mem_nil
      | some entries =>
          rw [hentries, Option.getD_some] at hentry
          obtain rfl | ⟨-, rfl⟩ := entries?_eq_some_iff.1 hentries
          · exact h.texts _ (mem_of_find?_eq_some hfind) _ rfl _ hentry
          · exact absurd hentry List.not_mem_nil

/-- The sections of such a document have only texts as unknown keys. -/
theorem IsKnown.text?_of_mem_unknown (h : IsKnown document) {check : Check} (hcheck : check ∈ checks.drop 2)
    {key : Value} (hkey : key ∈ check.unknown document) : key.text?.isSome := by
  cases check with
  | part name =>
      obtain ⟨entry, hentry, rfl⟩ := List.mem_map.1 (List.mem_filter.1 hkey).1
      exact h.text?_isSome hentry
  | names => simp [checks] at hcheck
  | _ => exact absurd hkey List.not_mem_nil

/-- A value that a check of the sections shows is the seed. -/
theorem Check.eq_seed_of_shown? {check : Check} {value : Value} (hcheck : check ∈ checks.drop 2)
    (hvalue : check.shown? document = some value) :
    check = .seed ∧ value = said (contents document "lorem") "seed" := by
  cases check with
  | seed => exact ⟨rfl, (Option.some.inj hvalue).symm⟩
  | version => simp [checks] at hcheck
  | _ => exact nomatch hvalue

theorem Check.FirstFails.mem {check : Check} {list : List Check} (h : check.FirstFails document list) :
    check ∈ list := by
  obtain ⟨before, after, rfl, -⟩ := h
  exact List.mem_append_right _ List.mem_cons_self

/-- What is wrong with such a document is a mistake in it, but for a seed that has to be shown and cannot be. -/
theorem IsKnown.fault_cases (h : IsKnown document) (hfault : ofEntries room document = .error fault) :
    (∃ cause, fault = .mistake cause) ∨ fault = .integer .unwritable ∨ fault = .tooDeep := by
  have hdecides := decides_ofEntries room h.isKeyed
  rw [hfault] at hdecides
  obtain ⟨check, hfirst, hreports⟩ := hdecides.exists_firstFails
  rcases hreports.fault_cases with hmistake | hkeys | hobstacle
  · exact .inl hmistake
  · obtain ⟨key, hkey, hnone⟩ := hreports.isOfKeys_iff.1 hkeys
    exact absurd (h.text?_of_mem_unknown hfirst.mem hkey) (by simp [hnone])
  · exact .inr hobstacle

theorem ofEntries_eq_fault_iff (room : Nat) (h : ∀ entry ∈ document, entry.2.IsKeyed) (obstacle : Obstacle) :
    ofEntries room document = .error obstacle.fault ↔
      Check.seed.FirstFails document (checks.drop 2) ∧
        (said (contents document "lorem") "seed").obstacle? room = some obstacle := by
  have hdecides := decides_ofEntries room h
  constructor
  · intro hfault
    rw [hfault] at hdecides
    obtain ⟨check, hfirst, hreports⟩ := hdecides.exists_firstFails
    obtain ⟨value, hvalue, hobstacle⟩ := (hreports.eq_fault_iff obstacle).1 rfl
    obtain ⟨rfl, rfl⟩ := Check.eq_seed_of_shown? hfirst.mem hvalue
    exact ⟨hfirst, hobstacle⟩
  · rintro ⟨hfirst, hobstacle⟩
    obtain ⟨fault, hfault, hreports⟩ := hdecides.exists_reports hfirst
    rw [hfault, (hreports.eq_fault_iff obstacle).2 ⟨_, rfl, hobstacle⟩]

/-! ### What settings have from their document -/

/-- A part of the settings agrees with the value that was given for it. If none was, it is the default. -/
def GivenOr {α : Type} (given : Option Value) (default : α) (agrees : Value → α → Prop) (part : α) : Prop :=
  match given with
  | some value => agrees value part
  | none => part = default

/-- A value stands for some names: it is a list of them, or it says nothing and there are none. -/
def ListsNames (value : Value) (names : List CodeText) : Prop :=
  value.isTruthy = false ∧ names = [] ∨ value = .list (names.map .text)

/-- The value of a seed. -/
def seedValue (seed : Option Int) : Value := seed.elim .null .int

/-- Every part of the settings is as it stands in its section, and the default if it does not, or if the section says
nothing. -/
structure Follows (document : List (Value × Value)) (settings : Settings) : Prop where
  blockStart : GivenOr (find? (contents document "delimiters") "block_start") ({} : Settings).delimiters.blockStart
    (fun value text => value = .text text) settings.delimiters.blockStart
  blockEnd : GivenOr (find? (contents document "delimiters") "block_end") ({} : Settings).delimiters.blockEnd
    (fun value text => value = .text text) settings.delimiters.blockEnd
  commentStart : GivenOr (find? (contents document "delimiters") "comment_start")
    ({} : Settings).delimiters.commentStart (fun value text => value = .text text) settings.delimiters.commentStart
  commentEnd : GivenOr (find? (contents document "delimiters") "comment_end") ({} : Settings).delimiters.commentEnd
    (fun value text => value = .text text) settings.delimiters.commentEnd
  disabled : GivenOr (find? (contents document "statements") "disabled") ({} : Settings).disabled ListsNames
    settings.disabled
  seed : GivenOr (find? (contents document "lorem") "seed") ({} : Settings).seed
    (fun value seed => value = seedValue seed) settings.seed
  delimiters_ne : ∀ text ∈ [settings.delimiters.blockStart, settings.delimiters.blockEnd,
    settings.delimiters.commentStart, settings.delimiters.commentEnd], text ≠ .chars ""
  starts_ne : settings.delimiters.blockStart ≠ settings.delimiters.commentStart

theorem text?_eq_some_iff {value : Value} {text : CodeText} : value.text? = some text ↔ value = .text text := by
  cases value <;> simp [text?]

theorem givenOr_of_delimiter? {default text : CodeText}
    (hdefault : find? (entriesOf (defaultSection "delimiters")) name = some (.text default))
    (h : delimiter? document name = some text) :
    GivenOr (find? (contents document "delimiters") name) default (fun value text => value = .text text) text := by
  rw [delimiter?, hdefault] at h
  cases hgiven : find? (contents document "delimiters") name with
  | some value =>
      rw [hgiven] at h
      exact text?_eq_some_iff.1 h
  | none =>
      rw [hgiven] at h
      exact (Option.some.inj h).symm

theorem map_text_filterMap_text? {items : List Value} (h : ∀ item ∈ items, item.text?.isSome) :
    (items.filterMap text?).map text = items := by
  induction items with
  | nil => rfl
  | cons item items ih =>
      obtain ⟨hitem, hitems⟩ := List.forall_mem_cons.1 h
      obtain ⟨name, hname⟩ := Option.isSome_iff_exists.1 hitem
      rw [List.filterMap_cons_some hname, List.map_cons, ih hitems, ← text?_eq_some_iff.1 hname]

theorem listsNames_of_readNames {value : Value} {names : List CodeText}
    (h : readNames (if value.isTruthy then value else .list []) = .ok names) : ListsNames value names := by
  cases htruthy : value.isTruthy with
  | false =>
      rw [htruthy] at h
      exact .inl ⟨htruthy, (Except.ok.inj h).symm⟩
  | true =>
      rw [htruthy, if_pos rfl] at h
      cases value with
      | list items =>
          rw [readNames] at h
          split at h
          case isTrue hlength =>
            rw [← Except.ok.inj h]
            exact .inr (congrArg list (map_text_filterMap_text? (List.filterMap_length_eq_length.1 hlength)).symm)
          case isFalse => cases h
      | _ => cases h

theorem eq_seedValue_of_readSeed {value : Value} {seed : Option Int} (h : readSeed value = .ok seed) :
    value = seedValue seed := by
  cases value with
  | null | int => rw [← Except.ok.inj h, seedValue]; rfl
  | _ => cases h

theorem orMistake_eq_ok {α : Type} {outcome : Except Mistake α} {value : α}
    (h : orMistake room outcome = .ok value) : outcome = .ok value := by
  cases outcome with
  | ok value' => rw [Except.ok.inj h]
  | error cause => cases h

theorem follows_of_ofEntries (h : ∀ entry ∈ document, entry.2.IsKeyed)
    (hsettings : ofEntries room document = .ok settings) : Follows document settings := by
  rw [ofEntries_eq] at hsettings
  obtain ⟨delimiterEntries, hdelimiters, hsettings⟩ := bind_ok_iff.1 hsettings
  obtain ⟨statements, hstatements, hsettings⟩ := bind_ok_iff.1 hsettings
  obtain ⟨lorem, hlorem, hsettings⟩ := bind_ok_iff.1 hsettings
  obtain rfl := readSection_eq_ok hdelimiters
  obtain rfl := readSection_eq_ok hstatements
  obtain rfl := readSection_eq_ok hlorem
  obtain ⟨disabled, hdisabled, hsettings⟩ := bind_ok_iff.1 hsettings
  obtain ⟨seed, hseed, hsettings⟩ := bind_ok_iff.1 hsettings
  obtain ⟨delimiters, hread, hsettings⟩ := bind_ok_iff.1 hsettings
  obtain rfl := Except.ok.inj hsettings
  have hspells := (readDelimiters_eq_ok_iff (distinct_contents h "delimiters")).1 (orMistake_eq_ok hread)
  refine ⟨givenOr_of_delimiter? rfl hspells.blockStart, givenOr_of_delimiter? rfl hspells.blockEnd,
    givenOr_of_delimiter? rfl hspells.commentStart, givenOr_of_delimiter? rfl hspells.commentEnd, ?disabled, ?seed,
    ?nonempty, delimiters.starts_ne⟩
  case disabled =>
    have hnames := orMistake_eq_ok hdisabled
    rw [filled, listed_overlay (distinct_contents h "statements"), listed, said] at hnames
    cases hgiven : find? (contents document "statements") "disabled" with
    | some value =>
        rw [hgiven] at hnames
        exact listsNames_of_readNames hnames
    | none =>
        rw [hgiven] at hnames
        exact (Except.ok.inj hnames).symm
  case seed =>
    have hvalue := eq_seedValue_of_readSeed (orMistake_eq_ok hseed)
    rw [said, find?_filled (distinct_contents h "lorem")] at hvalue
    cases hgiven : find? (contents document "lorem") "seed" with
    | some value =>
        rw [hgiven] at hvalue
        exact hvalue
    | none =>
        rw [hgiven] at hvalue
        cases seed with
        | none => rfl
        | some seed => cases hvalue
  case nonempty =>
    simp [delimiters.blockStart_ne, delimiters.blockEnd_ne, delimiters.commentStart_ne, delimiters.commentEnd_ne]

/-! ### The document of some settings -/

/-- The document that says all that is in some settings. -/
def Settings.toEntries (settings : Settings) : List (Value × Value) :=
  entriesOf
    [("schema_version", .int schemaVersion),
     ("delimiters", .map (entriesOf
        [("block_start", .text settings.delimiters.blockStart), ("block_end", .text settings.delimiters.blockEnd),
         ("comment_start", .text settings.delimiters.commentStart),
         ("comment_end", .text settings.delimiters.commentEnd)])),
     ("statements", .map (entriesOf [("disabled", .list (settings.disabled.map .text))])),
     ("lorem", .map (entriesOf [("seed", seedValue settings.seed)]))]

theorem isKeyed_entriesOf {pairs : List (String × Value)} (h : (pairs.map Prod.fst).Nodup) :
    (map (entriesOf pairs)).IsKeyed := by
  rw [isKeyed_map_iff, Distinct, entriesOf, List.pairwise_map]
  refine (List.pairwise_map.1 h).imp fun {pair other} hne => ?_
  rw [← Bool.not_eq_true, same_text_iff, text.injEq, CodeText.chars.injEq]
  exact hne

theorem forall_mem_entriesOf {pairs : List (String × Value)} {P : Value × Value → Prop} :
    (∀ entry ∈ entriesOf pairs, P entry) ↔ ∀ pair ∈ pairs, P (.text pair.1, pair.2) :=
  List.forall_mem_map

/-- A document of texts is known if its names are and the mappings under them are again of texts. -/
theorem isKnown_entriesOf {pairs : List (String × Value)} (hnodup : (pairs.map Prod.fst).Nodup)
    (hknown : ∀ pair ∈ pairs, pair.1 ∈ "schema_version" :: defaults.map Prod.fst)
    (hinner : ∀ pair ∈ pairs, ∀ entries, pair.2 = .map entries →
      ∃ inner : List (String × Value), entries = entriesOf inner ∧ (inner.map Prod.fst).Nodup) :
    IsKnown (entriesOf pairs) where
  isDocument := by
    refine isDocument_map_iff.2 ⟨isKeyed_map_iff.1 (isKeyed_entriesOf hnodup), ?_⟩
    refine forall_mem_entriesOf.2 fun pair hpair entries hentries => ?_
    obtain ⟨inner, rfl, hinner⟩ := hinner pair hpair entries hentries
    exact isKeyed_entriesOf hinner _ rfl
  known := forall_mem_entriesOf.2 fun pair hpair => ⟨pair.1, hknown pair hpair, rfl⟩
  texts := by
    refine forall_mem_entriesOf.2 fun pair hpair entries hentries => ?_
    obtain ⟨inner, rfl, -⟩ := hinner pair hpair entries hentries
    exact forall_mem_entriesOf.2 fun _ _ => rfl

theorem isKnown_toEntries (settings : Settings) : IsKnown settings.toEntries := by
  refine isKnown_entriesOf (by simp) (by simp [defaults]) ?_
  simp only [List.forall_mem_cons, map.injEq]
  refine ⟨nofun, ?_, ?_, ?_, nofun⟩
  all_goals
    rintro _ rfl
    exact ⟨_, rfl, by simp⟩

theorem readSection_of_known (name : String) (hentries : (said document name).entries? = some entries)
    (hknown : unknownKeys ((defaultSection name).map Prod.fst) entries = []) :
    readSection document name = .ok (filled document name) := by
  rw [readSection_eq, hentries]
  dsimp only
  rw [hknown, filled, contents, hentries]
  rfl

theorem readNames_map_text (names : List CodeText) :
    readNames (if (list (names.map text)).isTruthy then list (names.map text) else .list []) = .ok names := by
  have hread : readNames (list (names.map text)) = .ok names := by
    have hnames : (names.map text).filterMap text? = names := by
      rw [List.filterMap_map]
      exact List.filterMap_some
    rw [readNames, hnames, if_pos (List.length_map _).symm]
  cases names with
  | nil => rfl
  | cons name names => exact hread

theorem ofEntries_toEntries (room : Nat) (settings : Settings) : ofEntries room settings.toEntries = .ok settings := by
  have hkeyed := (isKnown_toEntries settings).isKeyed
  have hspells : Spells settings.toEntries settings.delimiters := ⟨rfl, rfl, rfl, rfl⟩
  have hdelimiters := (readDelimiters_eq_ok_iff (distinct_contents hkeyed "delimiters")).2 hspells
  have hdisabled : readNames (listed (filled settings.toEntries "statements")) = .ok settings.disabled := by
    rw [filled, listed_overlay (distinct_contents hkeyed "statements")]
    exact readNames_map_text settings.disabled
  have hseed : readSeed (said (filled settings.toEntries "lorem") "seed") = .ok settings.seed := by
    have hgiven : said (filled settings.toEntries "lorem") "seed" = seedValue settings.seed := rfl
    rw [hgiven]
    cases settings.seed <;> rfl
  rw [ofEntries_eq, readSection_of_known "delimiters" rfl rfl,
    readSection_of_known "statements" rfl rfl, readSection_of_known "lorem" rfl rfl]
  simp only [bind, Except.bind, hdisabled, hseed, hdelimiters, orMistake]
  rfl

/-- A mapping without unknown names comes to the same with and without the defaults laid under it: to settings that
follow it, or to a mistake, unless the seed is what is wrong, and a number of too many digits or too much nesting is in
the way of showing it. And all settings come from their own document. -/
theorem ofEntries_of_isKnown (room : Nat) (document : List (Value × Value)) (h : IsKnown document) :
    (overDefaults document >>= ofEntries room) = ofEntries room document ∧
      (∀ settings, ofEntries room document = .ok settings → Follows document settings) ∧
      (∀ fault, ofEntries room document = .error fault →
        (∃ cause, fault = .mistake cause) ∨ fault = .integer .unwritable ∨ fault = .tooDeep) ∧
      (ofEntries room document = .error (.integer .unwritable) ↔
        Check.seed.FirstFails document (checks.drop 2) ∧
          (said (contents document "lorem") "seed").obstacle? room = some .digits) ∧
      (ofEntries room document = .error .tooDeep ↔
        Check.seed.FirstFails document (checks.drop 2) ∧
          (said (contents document "lorem") "seed").obstacle? room = some .depth) ∧
      ∀ settings : Settings, IsKnown settings.toEntries ∧ ofEntries room settings.toEntries = .ok settings :=
  ⟨h.overDefaults_bind room, fun _ => follows_of_ofEntries h.isKeyed, fun _ => h.fault_cases,
    ofEntries_eq_fault_iff room h.isKeyed .digits, ofEntries_eq_fault_iff room h.isKeyed .depth,
    fun settings => ⟨isKnown_toEntries settings, ofEntries_toEntries room settings⟩⟩

/-- A document with two surrogates as its starts and with false in place of a section, and two documents with a list as
the seed: that of a number with too many digits, and one with more lists in it than there is room for. -/
theorem ofEntries_of_isKnown_surrogates_and_bad_seeds :
    (∃ document settings, document = entriesOf
        [("delimiters", .map (entriesOf
          [("block_start", .text (.codes [0xD800] rfl)), ("comment_start", .text (.codes [0xD801] rfl))])),
         ("statements", .bool false)] ∧
      settings.delimiters.blockStart = .codes [0xD800] rfl ∧ settings.delimiters.blockEnd = .chars "%\x7d" ∧
      settings.disabled = [] ∧ IsKnown document ∧ ofEntries 990 document = .ok settings ∧
      (overDefaults document >>= ofEntries 990) = .ok settings ∧ Follows document settings) ∧
    ∀ seed ∈ [(.int (.ofNat (Nat.pow 10 Number.maxDigits)), .digits), (.list [.null], .depth)],
      ∃ document, document = entriesOf [("lorem", .map (entriesOf [("seed", .list [seed.1])]))] ∧
        IsKnown document ∧ ofEntries 1 document = .error (Obstacle.fault seed.2) ∧
        (overDefaults document >>= ofEntries 1) = .error (Obstacle.fault seed.2) := by
  constructor
  · have hknown : IsKnown (entriesOf
        [("delimiters", .map (entriesOf
          [("block_start", .text (.codes [0xD800] rfl)), ("comment_start", .text (.codes [0xD801] rfl))])),
         ("statements", .bool false)]) := by
      refine isKnown_entriesOf (by simp) (by simp [defaults]) ?_
      simp only [List.forall_mem_cons, map.injEq]
      exact ⟨fun _ h => ⟨_, h.symm, by simp⟩, by simp, by simp⟩
    obtain ⟨hagree, hfollows, -⟩ := ofEntries_of_isKnown 990 _ hknown
    have hread : ofEntries 990 (entriesOf
        [("delimiters", .map (entriesOf
          [("block_start", .text (.codes [0xD800] rfl)), ("comment_start", .text (.codes [0xD801] rfl))])),
         ("statements", .bool false)]) =
        .ok { delimiters := ⟨.codes [0xD800] rfl, "%\x7d", .codes [0xD801] rfl, "#\x7d",
          by decide, by decide, by decide, by decide, by decide⟩ } :=
      rfl
    exact ⟨_, _, rfl, rfl, rfl, rfl, hknown, hread, hagree.trans hread, hfollows _ hread⟩
  · have hknown (seed : Value) :
        IsKnown (entriesOf [("lorem", .map (entriesOf [("seed", .list [seed])]))]) := by
      refine isKnown_entriesOf (by simp) (by simp [defaults]) ?_
      simp only [List.forall_mem_cons, map.injEq]
      exact ⟨fun _ h => ⟨_, h.symm, by simp⟩, by simp⟩
    have hfirst (seed : Value) : Check.seed.FirstFails
        (entriesOf [("lorem", .map (entriesOf [("seed", .list [seed])]))]) (checks.drop 2) := by
      refine ⟨[.part "delimiters", .part "statements", .part "lorem", .disabled], [.delimiters], rfl, ?_, ?_⟩
      · simp only [List.forall_mem_cons]
        exact ⟨⟨rfl, rfl⟩, ⟨rfl, rfl⟩, ⟨rfl, rfl⟩, .inl rfl, by simp⟩
      · rintro (h | ⟨n, h⟩) <;> cases h
    have hlong (digits : Nat) : decide ((Int.ofNat (Nat.pow 10 digits)).natAbs < Nat.pow 10 digits) = false :=
      decide_eq_false (Nat.lt_irrefl _)
    have hdigits : obstacle? 1 (.list [.int (.ofNat (Nat.pow 10 Number.maxDigits))]) = some .digits := by
      rw [obstacle?, obstacleInItems?, obstacle?, Number.isWritable, hlong]
      rfl
    simp only [List.forall_mem_cons]
    refine ⟨?digits, ?depth, by simp⟩
    case digits =>
      obtain ⟨hagree, -, -, hunwritable, -⟩ :=
        ofEntries_of_isKnown 1 _ (hknown (.int (.ofNat (Nat.pow 10 Number.maxDigits))))
      have hread := hunwritable.2 ⟨hfirst _, hdigits⟩
      exact ⟨_, rfl, hknown _, hread, hagree.trans hread⟩
    case depth =>
      obtain ⟨hagree, -, -, -, htooDeep, -⟩ := ofEntries_of_isKnown 1 _ (hknown (.list [.null]))
      have hread := htooDeep.2 ⟨hfirst _, rfl⟩
      exact ⟨_, rfl, hknown _, hread, hagree.trans hread⟩

end TagTemplate.Config
