import TagTemplate.Proofs.Section
import TagTemplate.Proofs.Shown

/-!
# The checks of a configuration

What is looked at in a document, in which order, and what each check asks for. A document in which all checks are
passed has settings, and otherwise the first one that is not passed decides what is reported: a mistake that it is
about, unless a key that has to be listed is no text, or a value that has to be shown holds a number of too many digits
or lies too deep in itself.
-/

namespace TagTemplate.Config

open Value

variable {room : Nat} {document : List (Value × Value)} {value : Value} {fault : Fault}

/-! ### Checks -/

/-- What is looked at in a document: its version, the names of its sections, each section and its names, and then
what is in the sections. -/
inductive Check where
  | version
  | names
  | part (name : String)
  | disabled
  | seed
  | delimiters

/-- The checks in their order. -/
def checks : List Check :=
  [.version, .names, .part "delimiters", .part "statements", .part "lorem", .disabled, .seed, .delimiters]

namespace Check

/-- The keys that a check finds and that are not known. -/
def unknown (document : List (Value × Value)) : Check → List Value
  | names => unknownSections document
  | part name => unknownKeys ((defaultSection name).map Prod.fst) (contents document name)
  | _ => []

/-- The value that a check shows if it is not passed. -/
def shown? (document : List (Value × Value)) : Check → Option Value
  | version => some (Config.version document)
  | seed => some (said (contents document "lorem") "seed")
  | _ => none

/-- What a check asks for. -/
def Passes (document : List (Value × Value)) : Check → Prop
  | version => (Config.version document).same (.int schemaVersion) = true
  | names => names.unknown document = []
  | part name => (said document name).entries?.isSome ∧ (part name).unknown document = []
  | disabled => IsNames (said (contents document "statements") "disabled")
  | seed => said (contents document "lorem") "seed" = .null ∨ ∃ n, said (contents document "lorem") "seed" = .int n
  | delimiters => ∃ delimiters, Spells document delimiters

/-- The first of some checks that is not passed. -/
def FirstFails (document : List (Value × Value)) (checks : List Check) (check : Check) : Prop :=
  ∃ before after, checks = before ++ check :: after ∧ (∀ earlier ∈ before, earlier.Passes document) ∧
    ¬check.Passes document

theorem eq_of_cons_eq_append {check other : Check} {middle after after' : List Check}
    (h : check :: after = middle ++ other :: after') (hmiddle : ∀ earlier ∈ middle, earlier.Passes document)
    (hfails : ¬check.Passes document) : check = other := by
  cases middle with
  | nil => exact (List.cons.inj h).1
  | cons first middle =>
      obtain ⟨rfl, -⟩ := List.cons.inj h
      exact absurd (hmiddle check List.mem_cons_self) hfails

theorem FirstFails.unique {list : List Check} {check other : Check} (h : check.FirstFails document list)
    (hother : other.FirstFails document list) : check = other := by
  obtain ⟨before, after, rfl, hbefore, hfails⟩ := h
  obtain ⟨before', after', heq, hbefore', hfails'⟩ := hother
  obtain ⟨middle, rfl, hmiddle⟩ | ⟨middle, rfl, hmiddle⟩ := List.append_eq_append_iff.1 heq
  · exact eq_of_cons_eq_append hmiddle (List.forall_mem_append.1 hbefore').2 hfails
  · exact (eq_of_cons_eq_append hmiddle (List.forall_mem_append.1 hbefore).2 hfails').symm

end Check

/-- The check that a mistake is found by, unless there is no mapping to be checked at all. -/
def Mistake.check? : Mistake → Option Check
  | documentNotAMapping _ => none
  | unsupportedSchema _ => some .version
  | unknownSections _ => some .names
  | sectionNotAMapping name | unknownKeys name _ => some (.part name)
  | disabledNotNames => some .disabled
  | seedNotAnInteger _ => some .seed
  | badDelimiter _ | equalStarts => some .delimiters

/-- What is reported if a check is not passed, with so much room for the value that it shows. -/
inductive Check.Reports (room : Nat) (document : List (Value × Value)) (check : Check) : Fault → Prop
  | key {key : Value} {fault : Fault} :
      key ∈ check.unknown document → key.text? = none → fault.IsOfKeys → Reports room document check fault
  | obstacle {value : Value} {obstacle : Obstacle} :
      check.shown? document = some value → value.obstacle? room = some obstacle →
      Reports room document check obstacle.fault
  | mistake {cause : Mistake} :
      cause.check? = some check → (∀ key ∈ check.unknown document, key.text?.isSome) →
      (∀ value ∈ check.shown? document, value.isWritable ∧ value.depth ≤ room) →
      Reports room document check (.mistake cause)

/-- An outcome that some checks decide: it is a value if all of them are passed, and what the first one reports that
is not. -/
inductive Decides (room : Nat) (document : List (Value × Value)) (checks : List Check) {α : Type} :
    Except Fault α → Prop
  | passed {value : α} : (∀ check ∈ checks, check.Passes document) → Decides room document checks (.ok value)
  | failed {check : Check} {fault : Fault} :
      check.FirstFails document checks → check.Reports room document fault →
      Decides room document checks (.error fault)

/-! ### Outcomes that checks decide -/

namespace Decides

variable {α β : Type} {list others : List Check} {check : Check}

theorem of_pass {value : α} (h : check.Passes document) : Decides room document [check] (.ok value : Except Fault α) :=
  passed (List.forall_mem_singleton.2 h)

theorem of_fail (h : ¬check.Passes document) (hreports : check.Reports room document fault) :
    Decides room document [check] (.error fault : Except Fault α) :=
  failed ⟨[], [], rfl, fun _ hmem => absurd hmem List.not_mem_nil, h⟩ hreports

theorem bind {outcome : Except Fault α} {next : α → Except Fault β} (h : Decides room document list outcome)
    (hnext : ∀ value, outcome = .ok value → Decides room document others (next value)) :
    Decides room document (list ++ others) (outcome >>= next) := by
  cases h with
  | @failed check fault hfirst hreports =>
      obtain ⟨before, after, rfl, hbefore, hfails⟩ := hfirst
      refine failed ⟨before, after ++ others, ?_, hbefore, hfails⟩ hreports
      rw [List.append_assoc, List.cons_append]
  | @passed value hpasses =>
      change Decides room document (list ++ others) (next value)
      have hresult := hnext value rfl
      generalize next value = result at hresult
      cases hresult with
      | passed hothers => exact passed (List.forall_mem_append.2 ⟨hpasses, hothers⟩)
      | failed hfirst hreports =>
          obtain ⟨before, after, rfl, hbefore, hfails⟩ := hfirst
          refine failed ⟨list ++ before, after, ?_, List.forall_mem_append.2 ⟨hpasses, hbefore⟩, hfails⟩ hreports
          rw [List.append_assoc]

theorem passes {result : α} (h : Decides room document list (.ok result : Except Fault α)) :
    ∀ check ∈ list, check.Passes document := by
  cases h with
  | passed hpasses => exact hpasses

theorem exists_reports {outcome : Except Fault α} (h : Decides room document list outcome)
    (hfirst : check.FirstFails document list) :
    ∃ fault, outcome = .error fault ∧ check.Reports room document fault := by
  cases h with
  | passed hpasses =>
      obtain ⟨before, after, rfl, -, hfails⟩ := hfirst
      exact absurd (hpasses check (List.mem_append_right _ List.mem_cons_self)) hfails
  | @failed other fault hother hreports =>
      obtain rfl := hfirst.unique hother
      exact ⟨fault, rfl, hreports⟩

theorem exists_firstFails (h : Decides room document list (.error fault : Except Fault α)) :
    ∃ check : Check, check.FirstFails document list ∧ check.Reports room document fault := by
  cases h with
  | failed hfirst hreports => exact ⟨_, hfirst, hreports⟩

end Decides

/-! ### One check after the other -/

theorem decides_refuse {α : Type} {check : Check} {mistake : List CodeText → Mistake} (value : α)
    (hpasses : check.Passes document ↔ check.unknown document = [])
    (hshown : check.shown? document = none) (hcheck : ∀ names, (mistake names).check? = some check) :
    Decides room document [check] (refuse (check.unknown document) mistake value) := by
  unfold refuse
  split
  case h_1 hunknown => exact .of_pass (hpasses.2 hunknown)
  case h_2 hunknown =>
    have hfails : ¬check.Passes document := fun h => hunknown (hpasses.1 h)
    by_cases htexts : ∀ key ∈ check.unknown document, key.text?.isSome
    · obtain ⟨names, hnames⟩ := namesOf_of_texts htexts
      rw [hnames]
      refine .of_fail hfails (.mistake (hcheck names) htexts ?_)
      rw [hshown]
      exact nofun
    · obtain ⟨key, htext⟩ := Classical.not_forall.1 htexts
      obtain ⟨hmem, hkey⟩ := Classical.not_imp.1 htext
      rw [Option.not_isSome_iff_eq_none] at hkey
      obtain ⟨fault, hfault, hkeys⟩ := namesOf_of_mem hmem hkey
      rw [hfault]
      exact .of_fail hfails (.key hmem hkey hkeys)

/-- A mistake that shows no other value than its check does. -/
theorem reports_toFault {check : Check} {cause : Mistake} (hcheck : cause.check? = some check)
    (hunknown : check.unknown document = []) (hculprit : cause.culprit? = check.shown? document) :
    check.Reports room document (cause.toFault room) := by
  have hmistake (h : ∀ value ∈ check.shown? document, value.obstacle? room = none) :
      check.Reports room document (.mistake cause) := by
    refine .mistake hcheck (fun key hmem => ?_) fun value hvalue =>
      (obstacle?_eq_none_iff room value).1 (h value hvalue)
    rw [hunknown] at hmem
    exact absurd hmem List.not_mem_nil
  rw [Mistake.toFault, hculprit]
  cases hshown : check.shown? document with
  | none =>
      rw [hshown] at hmistake
      exact hmistake nofun
  | some value =>
      rw [hshown] at hmistake
      cases hobstacle : value.obstacle? room with
      | none =>
          rw [Option.bind_some, hobstacle]
          exact hmistake fun _ hvalue => Option.some.inj hvalue ▸ hobstacle
      | some obstacle =>
          rw [Option.bind_some, hobstacle]
          exact .obstacle hshown hobstacle

theorem decides_readVersion (room : Nat) (document : List (Value × Value)) :
    Decides room document [.version] (readVersion room document) := by
  unfold readVersion
  split
  case isTrue hversion => exact .of_pass hversion
  case isFalse hversion => exact .of_fail hversion (reports_toFault rfl rfl rfl)

theorem decides_names (room : Nat) (document : List (Value × Value)) :
    Decides room document [.names] (refuse (unknownSections document) .unknownSections ()) :=
  decides_refuse () Iff.rfl rfl fun _ => rfl

theorem decides_readSection (room : Nat) (document : List (Value × Value)) (name : String) :
    Decides room document [.part name] (readSection document name) := by
  rw [readSection_eq]
  cases hentries : (said document name).entries? with
  | some entries =>
      have hcontents : contents document name = entries := by rw [contents, hentries, Option.getD_some]
      have hsome : (said document name).entries?.isSome := by rw [hentries, Option.isSome_some]
      rw [← hcontents]
      exact decides_refuse _ (and_iff_right hsome) rfl fun _ => rfl
  | none =>
      have hunknown : (Check.part name).unknown document = [] := by
        rw [Check.unknown, contents, hentries]
        rfl
      have hreports : (Check.part name).Reports room document ((Mistake.sectionNotAMapping name).toFault room) :=
        reports_toFault rfl hunknown rfl
      refine .of_fail (fun h => ?_) hreports
      rw [Check.Passes, hentries] at h
      exact Bool.false_ne_true h.1

theorem decides_disabled (h : Distinct (contents document "statements")) :
    Decides room document [.disabled] (orMistake room (readNames (listed (filled document "statements")))) := by
  rw [filled, listed_overlay h, listed]
  by_cases hnames : IsNames (said (contents document "statements") "disabled")
  · obtain ⟨names, hread⟩ := readNames_of_isNames hnames
    rw [hread]
    exact .of_pass hnames
  · rw [readNames_of_not_isNames hnames]
    exact .of_fail hnames (reports_toFault rfl rfl rfl)

theorem decides_seed (h : Distinct (contents document "lorem")) :
    Decides room document [.seed] (orMistake room (readSeed (said (filled document "lorem") "seed"))) := by
  have hgiven : said (filled document "lorem") "seed" = said (contents document "lorem") "seed" := by
    rw [said, said, find?_filled h]
    cases find? (contents document "lorem") "seed" <;> rfl
  rw [hgiven]
  cases hseed : said (contents document "lorem") "seed" with
  | null => exact .of_pass (.inl hseed)
  | int n => exact .of_pass (.inr ⟨n, hseed⟩)
  | _ =>
      refine .of_fail ?_ (reports_toFault rfl rfl (congrArg some hseed.symm))
      rw [Check.Passes, hseed]
      rintro (h | ⟨n, h⟩) <;> cases h

theorem decides_delimiters (h : Distinct (contents document "delimiters")) :
    Decides room document [.delimiters] (orMistake room (readDelimiters (filled document "delimiters"))) := by
  cases hread : readDelimiters (filled document "delimiters") with
  | ok delimiters => exact .of_pass ⟨delimiters, (readDelimiters_eq_ok_iff h).1 hread⟩
  | error cause =>
      have hfails : ¬Check.delimiters.Passes document := by
        rintro ⟨delimiters, hspells⟩
        rw [(readDelimiters_eq_ok_iff h).2 hspells] at hread
        exact nomatch hread
      obtain ⟨name, rfl⟩ | rfl := readDelimiters_eq_error hread
      · exact .of_fail hfails (reports_toFault rfl rfl rfl)
      · exact .of_fail hfails (reports_toFault rfl rfl rfl)

/-! ### All checks -/

theorem decides_ofEntries (room : Nat) (h : ∀ entry ∈ document, entry.2.IsKeyed) :
    Decides room document [.part "delimiters", .part "statements", .part "lorem", .disabled, .seed, .delimiters]
      (ofEntries room document) := by
  rw [ofEntries_eq]
  refine (decides_readSection room document "delimiters").bind fun delimiters hdelimiters => ?_
  obtain rfl := readSection_eq_ok hdelimiters
  refine (decides_readSection room document "statements").bind fun statements hstatements => ?_
  obtain rfl := readSection_eq_ok hstatements
  refine (decides_readSection room document "lorem").bind fun lorem hlorem => ?_
  obtain rfl := readSection_eq_ok hlorem
  refine (decides_disabled (distinct_contents h "statements")).bind fun disabled _ => ?_
  refine (decides_seed (distinct_contents h "lorem")).bind fun seed _ => ?_
  refine (decides_delimiters (distinct_contents h "delimiters")).bind fun delimiters _ => ?_
  exact .passed fun _ hmem => absurd hmem List.not_mem_nil

/-- The checks of a document decide what comes of it. -/
theorem decides_ofDocument (room : Nat) (path : String) {value : Value} (h : value.IsDocument)
    (hentries : value.entries? = some document) : Decides room document checks (ofDocument room path value) := by
  rw [ofDocument_of_entries? room path hentries, ofDocument_map_of_distinct room path (h.1.distinct hentries)]
  refine (decides_readVersion room document).bind fun _ _ => ?_
  refine (decides_names room document).bind fun _ _ => ?_
  exact decides_ofEntries room (h.isKeyed hentries)

namespace Check

variable {check : Check} {key : Value}

theorem unknown_eq_nil (h : check.shown? document = some value) : check.unknown document = [] := by
  cases check with
  | names => exact nomatch h
  | part name => exact nomatch h
  | _ => rfl

theorem Reports.fault_cases (h : check.Reports room document fault) :
    (∃ cause, fault = .mistake cause) ∨ fault.IsOfKeys ∨ fault = .integer .unwritable ∨ fault = .tooDeep := by
  cases h with
  | key _ _ hkeys => exact .inr (.inl hkeys)
  | @obstacle _ obstacle => cases obstacle <;> simp [Obstacle.fault]
  | mistake => exact .inl ⟨_, rfl⟩

theorem Reports.isOfKeys_iff (h : check.Reports room document fault) :
    fault.IsOfKeys ↔ ∃ key ∈ check.unknown document, key.text? = none := by
  cases h with
  | key hmem hkey hkeys => exact iff_of_true hkeys ⟨_, hmem, hkey⟩
  | @obstacle _ obstacle hvalue _ =>
      refine iff_of_false (by cases obstacle <;> exact id) ?_
      rw [unknown_eq_nil hvalue]
      exact nofun
  | mistake _ htexts _ =>
      refine iff_of_false id ?_
      rintro ⟨key, hmem, hkey⟩
      exact Option.not_isSome_iff_eq_none.2 hkey (htexts key hmem)

theorem Reports.eq_fault_iff (h : check.Reports room document fault) (obstacle : Obstacle) :
    fault = obstacle.fault ↔ ∃ value, check.shown? document = some value ∧ value.obstacle? room = some obstacle := by
  cases h with
  | key hmem _ hkeys =>
      refine iff_of_false ?_ ?_
      · rintro rfl
        cases obstacle <;> exact hkeys
      · rintro ⟨value, hvalue, -⟩
        rw [unknown_eq_nil hvalue] at hmem
        exact absurd hmem List.not_mem_nil
  | @obstacle value other hvalue hother =>
      constructor
      · intro hfault
        obtain rfl : other = obstacle := by cases other <;> cases obstacle <;> first | rfl | cases hfault
        exact ⟨value, hvalue, hother⟩
      · rintro ⟨value', hvalue', hobstacle⟩
        obtain rfl := Option.some.inj (hvalue.symm.trans hvalue')
        rw [Option.some.inj (hother.symm.trans hobstacle)]
  | mistake _ _ hshown =>
      refine iff_of_false (by cases obstacle <;> exact nofun) ?_
      rintro ⟨value, hvalue, hobstacle⟩
      rw [(obstacle?_eq_none_iff room value).2 (hshown value hvalue)] at hobstacle
      exact nomatch hobstacle

end Check

/-! ### What is reported about a document -/

theorem fault_cases_of_ofDocument {path : String} (h : value.IsDocument)
    (hfault : ofDocument room path value = .error fault) :
    (∃ cause, fault = .mistake cause) ∨ fault.IsOfKeys ∨ fault = .integer .unwritable ∨ fault = .tooDeep := by
  cases hentries : value.entries? with
  | none =>
      rw [ofDocument_of_entries?_eq_none room path hentries] at hfault
      exact .inl ⟨_, (Except.error.inj hfault).symm⟩
  | some document =>
      have hdecides := decides_ofDocument room path h hentries
      rw [hfault] at hdecides
      obtain ⟨check, -, hreports⟩ := hdecides.exists_firstFails
      exact hreports.fault_cases

/-- What comes of a document is settled by its first check that is not passed, unless the document is no mapping. -/
theorem exists_fault_iff (room : Nat) (path : String) (h : value.IsDocument) {P : Fault → Prop}
    {Q : List (Value × Value) → Check → Prop} (hmapping : ¬P (.mistake (.documentNotAMapping path)))
    (hreported : ∀ document (check : Check) fault, check.Reports room document fault → (P fault ↔ Q document check)) :
    (∃ fault, ofDocument room path value = .error fault ∧ P fault) ↔
      ∃ document, ∃ check : Check, value.entries? = some document ∧ check.FirstFails document checks ∧
        Q document check := by
  constructor
  · rintro ⟨fault, hfault, hP⟩
    cases hentries : value.entries? with
    | none =>
        rw [ofDocument_of_entries?_eq_none room path hentries] at hfault
        obtain rfl := Except.error.inj hfault
        exact absurd hP hmapping
    | some document =>
        have hdecides := decides_ofDocument room path h hentries
        rw [hfault] at hdecides
        obtain ⟨check, hfirst, hreports⟩ := hdecides.exists_firstFails
        exact ⟨document, check, rfl, hfirst, (hreported document check fault hreports).1 hP⟩
  · rintro ⟨document, check, hentries, hfirst, hQ⟩
    obtain ⟨fault, hfault, hreports⟩ := (decides_ofDocument room path h hentries).exists_reports hfirst
    exact ⟨fault, hfault, (hreported document check fault hreports).2 hQ⟩

theorem ofDocument_eq_fault_iff (room : Nat) (path : String) (h : value.IsDocument) (obstacle : Obstacle) :
    ofDocument room path value = .error obstacle.fault ↔
      ∃ document, ∃ check : Check, value.entries? = some document ∧ check.FirstFails document checks ∧
        ∃ shown, check.shown? document = some shown ∧ shown.obstacle? room = some obstacle := by
  rw [← exists_fault_iff room path h (P := (· = obstacle.fault)) (by cases obstacle <;> exact nofun)
    fun _ _ _ hreports => hreports.eq_fault_iff obstacle]
  constructor
  · exact fun hfault => ⟨_, hfault, rfl⟩
  · rintro ⟨_, hfault, rfl⟩
    exact hfault

/-- Whatever a reader of documents makes of a text, it has settings, or there is a mistake in it that is reported. The
exceptions are these: the first check that is not passed finds keys that are not known, and one of them is no text; or
it has to show a value, and there a number of too many digits or too much nesting is in the way. -/
theorem ofDocument_reports_mistake (room : Nat) (path : String) (value : Value) (h : value.IsDocument) :
    (∀ fault, ofDocument room path value = .error fault →
      (∃ cause, fault = .mistake cause) ∨ fault.IsOfKeys ∨ fault = .integer .unwritable ∨ fault = .tooDeep) ∧
    ((∃ fault, ofDocument room path value = .error fault ∧ fault.IsOfKeys) ↔
      ∃ document, ∃ check : Check, value.entries? = some document ∧ check.FirstFails document checks ∧
        ∃ key ∈ check.unknown document, key.text? = none) ∧
    (ofDocument room path value = .error (.integer .unwritable) ↔
      ∃ document, ∃ check : Check, value.entries? = some document ∧ check.FirstFails document checks ∧
        ∃ shown, check.shown? document = some shown ∧ shown.obstacle? room = some .digits) ∧
    (ofDocument room path value = .error .tooDeep ↔
      ∃ document, ∃ check : Check, value.entries? = some document ∧ check.FirstFails document checks ∧
        ∃ shown, check.shown? document = some shown ∧ shown.obstacle? room = some .depth) :=
  ⟨fun _ hfault => fault_cases_of_ofDocument h hfault,
    exists_fault_iff room path h id fun _ _ _ hreports => hreports.isOfKeys_iff,
    ofDocument_eq_fault_iff room path h .digits, ofDocument_eq_fault_iff room path h .depth⟩

/-- A truth value or a date where the name of a section should be, and as the seed more lists within each other than
there is room for. -/
theorem ofDocument_reports_mistake_no_name_and_no_room :
    (∀ key ∈ [Value.bool true, .foreign ⟨"datetime.date", "2001-12-14", "datetime.date(2001, 12, 14)", true⟩ []],
      (map [(key, .text "x")]).IsDocument ∧
        ∃ fault, ofDocument 990 "tagc.yaml" (.map [(key, .text "x")]) = .error fault ∧ fault.IsOfKeys) ∧
    (map [(.text "lorem", .map [(.text "seed", .list [.list [.null]])])]).IsDocument ∧
      ofDocument 1 "tagc.yaml" (.map [(.text "lorem", .map [(.text "seed", .list [.list [.null]])])]) =
        .error .tooDeep := by
  constructor
  · intro key hkey
    have hdocument : (map [(key, .text "x")]).IsDocument :=
      isDocument_map_iff.2 ⟨List.pairwise_singleton _ _, List.forall_mem_singleton.2 nofun⟩
    refine ⟨hdocument, (ofDocument_reports_mistake 990 "tagc.yaml" _ hdocument).2.1.2 ?_⟩
    simp only [List.mem_cons, List.not_mem_nil, or_false] at hkey
    obtain rfl | rfl := hkey
    all_goals
      refine ⟨_, .names, rfl, ⟨[.version], _, rfl, List.forall_mem_singleton.2 rfl, List.cons_ne_nil _ _⟩, _,
        List.mem_cons_self, rfl⟩
  · have hdocument : (map [(.text "lorem", .map [(.text "seed", .list [.list [.null]])])]).IsDocument :=
      isDocument_map_iff.2 ⟨List.pairwise_singleton _ _,
        List.forall_mem_singleton.2 (isKeyed_map_iff.2 (List.pairwise_singleton _ _))⟩
    refine ⟨hdocument, (ofDocument_reports_mistake 1 "tagc.yaml" _ hdocument).2.2.2.2 ?_⟩
    refine ⟨_, .seed, rfl, ⟨[.version, .names, .part "delimiters", .part "statements", .part "lorem", .disabled],
      [.delimiters], rfl, ?_, ?_⟩, _, rfl, rfl⟩
    · simp only [List.forall_mem_cons]
      exact ⟨rfl, rfl, ⟨rfl, rfl⟩, ⟨rfl, rfl⟩, ⟨rfl, rfl⟩, .inl rfl, nofun⟩
    · rintro (h | ⟨n, h⟩) <;> cases h

end TagTemplate.Config
