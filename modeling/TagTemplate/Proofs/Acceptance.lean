import TagTemplate.Proofs.Builtin

/-!
# What is recognised

One step of recognition takes one construct of the grammar and nothing else, so that the constructs that a
whole run takes are a derivation of the tokens ahead. There is always a token to take, since every
construct has one at least.
-/

namespace TagTemplate

open Grammar

variable {disabled : List String} {nested : Tag.Nested} {cursor cursor' : Cursor}

theorem Cursor.head?_eq_here {arguments rest : List Token} {closing : Token} (h : cursor.Placed)
    (hahead : cursor.ahead = arguments ++ closing :: rest) :
    (arguments ++ [closing]).head? = some cursor.here := by
  cases arguments with
  | nil | cons =>
      rw [here_of_ahead h hahead]
      rfl

theorem Cursor.ahead_skip_comment {closing opening name : Token} {body rest : List Token}
    (h : cursor.Placed) (hahead : cursor.ahead = closing :: (body ++ opening :: name :: rest)) :
    (cursor.skip (body.length + 3)).ahead = rest := by
  have hsplit : cursor.ahead = (closing :: (body ++ [opening, name])) ++ rest := by simp [hahead]
  simpa using ahead_skip h hsplit

/-- What is recognised as a tag is one that the grammar has. -/
theorem exists_construct_of_recogniseBlock (h : cursor.Placed) {node : Node}
    (hok : recogniseBlock (Tag.builtinReaders disabled) nested cursor = .ok node cursor') :
    ∃ opening tokens rest, cursor.ahead = opening :: (tokens ++ rest) ∧ opening.kind = .blockBegin ∧
      Construct disabled (opening :: tokens) (some node) ∧ cursor' = cursor.skip (tokens.length + 1) := by
  obtain ⟨opening, name, arguments, closing, rest, reader, statement, reached, ending, hahead, hkind, hname,
    hclosing, -, hreader, hread, hending, rfl⟩ := (recogniseBlock_eq_ok_iff h).1 hok
  have h₂ := h.skip 2
  have hahead₂ : (cursor.skip 2).ahead = arguments ++ closing :: rest :=
    Cursor.ahead_skip h (show _ = [opening, name] ++ _ from hahead)
  have hhere := Cursor.head?_eq_here h₂ hahead₂
  obtain ⟨henabled, ⟨hvalue, rfl⟩ | ⟨hvalue, rfl⟩⟩ := Tag.lookup_builtinReaders_eq_some_iff.1 hreader
  · obtain ⟨count, letter, random, harguments, rfl, rfl⟩ := (readTag_lorem_eq_ok_iff h₂ hahead₂).1 hread
    obtain ⟨rest', hrest', hkind', rfl⟩ := (Cursor.expect_eq_ok_iff (h₂.skip _)).1 hending
    refine ⟨opening, name :: (arguments ++ [closing]), rest, by simp [hahead], hkind, ?_, ?_⟩
    · rw [hvalue] at henabled ⊢
      exact .lorem henabled hkind hname hvalue harguments hclosing hhere
    · simp [Nat.add_comm, Nat.add_left_comm]
  · obtain ⟨rfl, body, opening', name', rest', rfl, hmarks, hbody, rfl, rfl⟩ :=
      (readTag_comment_eq_ok_iff h₂ hahead₂ hclosing).1 hread
    have hreached := Cursor.ahead_skip_comment h₂ hahead₂
    obtain ⟨rest, hrest, hkind', rfl⟩ := (Cursor.expect_eq_ok_iff (h₂.skip _)).1 hending
    obtain rfl : rest' = ending :: rest := hreached.symm.trans hrest
    have hlocation : closing = (cursor.skip 2).here := Option.some.inj hhere
    refine ⟨opening, name :: closing :: (body ++ [opening', name', ending]), rest, by simp [hahead], hkind,
      ?_, ?_⟩
    · rw [hvalue] at henabled ⊢
      rw [← hlocation]
      exact .comment henabled hkind hname hvalue hclosing hbody hmarks.1 hmarks.2.1
        (List.mem_singleton.1 hmarks.2.2) hkind'
    · simp [Nat.add_comm, Nat.add_left_comm]

theorem recogniseBlock_of_construct (h : cursor.Placed) {opening : Token} {tokens rest : List Token}
    {node : Node} (hahead : cursor.ahead = opening :: (tokens ++ rest)) (hkind : opening.kind = .blockBegin)
    (hconstruct : Construct disabled (opening :: tokens) (some node)) :
    recogniseBlock (Tag.builtinReaders disabled) nested cursor =
      .ok node (cursor.skip (tokens.length + 1)) := by
  rw [recogniseBlock_eq_ok_iff h]
  have h₂ := h.skip 2
  cases hconstruct with
  | data hdata => exact absurd (hkind.symm.trans hdata) (by decide)
  | @lorem _ name closing location arguments count letter random henabled _ hname hvalue harguments hclosing
      hlocation =>
      have hahead' : cursor.ahead = [opening, name] ++ (arguments ++ closing :: rest) := by simp [hahead]
      have hahead₂ : (cursor.skip 2).ahead = arguments ++ closing :: rest := Cursor.ahead_skip h hahead'
      have hahead₃ := Cursor.ahead_skip h₂ hahead₂
      rw [Cursor.head?_eq_here h₂ hahead₂, Option.some.injEq] at hlocation
      refine ⟨opening, name, arguments, closing, rest, Tag.lorem, _, _, closing, hahead', hkind, hname,
        hclosing, harguments.inner, ?_, (readTag_lorem_eq_ok_iff h₂ hahead₂).2
        ⟨count, letter, random, harguments, rfl, rfl⟩, ?_, ?_⟩
      · exact Tag.lookup_builtinReaders_eq_some_iff.2 ⟨hvalue ▸ henabled, .inl ⟨hvalue, rfl⟩⟩
      · refine (Cursor.expect_eq_ok_iff (h₂.skip _)).2 ⟨rest, hahead₃, hclosing, ?_⟩
        simp [Nat.add_comm, Nat.add_left_comm]
      · rw [hvalue, hlocation]
  | @comment _ name closing opening' name' closing' body henabled _ hname hvalue hclosing hbody hkind' hname'
      hvalue' hclosing' =>
      have hahead' : cursor.ahead = [opening, name] ++
          ([] ++ closing :: (body ++ opening' :: name' :: closing' :: rest)) := by simp [hahead]
      have hahead₂ := Cursor.ahead_skip h hahead'
      have hreached := Cursor.ahead_skip_comment h₂ hahead₂
      have hlocation : some closing = some (cursor.skip 2).here := Cursor.head?_eq_here h₂ hahead₂
      have hmarks : Cursor.Marks ["endcomment"] opening' name' := ⟨hkind', hname', by simp [hvalue']⟩
      refine ⟨opening, name, [], closing, _, Tag.comment, _, _, closing', hahead', hkind, hname, hclosing,
        by simp [Cursor.Inner], ?_, (readTag_comment_eq_ok_iff h₂ hahead₂ hclosing).2
        ⟨rfl, body, opening', name', _, rfl, hmarks, hbody, rfl, rfl⟩, ?_, ?_⟩
      · exact Tag.lookup_builtinReaders_eq_some_iff.2 ⟨hvalue ▸ henabled, .inr ⟨hvalue, rfl⟩⟩
      · refine (Cursor.expect_eq_ok_iff (h₂.skip _)).2 ⟨rest, hreached, hclosing', ?_⟩
        simp [Nat.add_comm, Nat.add_left_comm]
      · rw [hvalue, Option.some.inj hlocation]

/-- What one step of recognition takes is one construct. -/
theorem exists_construct_of_recogniseNext (h : cursor.Placed) (hne : cursor.ahead ≠ [])
    {node : Option Node}
    (hok : recogniseNext (Tag.builtinReaders disabled) nested cursor = .ok node cursor') :
    ∃ tokens rest, cursor.ahead = tokens ++ rest ∧ Construct disabled tokens node ∧
      cursor' = cursor.skip tokens.length := by
  rw [recogniseNext, bind_of_ok (Cursor.current_apply h)] at hok
  obtain ⟨token, tokens, hahead⟩ := List.exists_cons_of_ne_nil hne
  rw [Cursor.here_of_ahead h hahead] at hok
  cases hkind : token.kind with
  | data =>
      simp only [hkind] at hok
      rw [bind_of_ok (Cursor.advance_apply h), hahead, Cursor.here_of_ahead h hahead] at hok
      obtain ⟨rfl, rfl⟩ := pure_eq_ok_iff.1 hok
      exact ⟨[token], tokens, hahead, .data hkind, rfl⟩
  | blockBegin =>
      simp only [hkind] at hok
      obtain ⟨node, cursor₁, hblock, hok⟩ := bind_eq_ok_iff.1 hok
      obtain ⟨rfl, rfl⟩ := pure_eq_ok_iff.1 hok
      obtain ⟨opening, tokens', rest, hahead', -, hconstruct, rfl⟩ :=
        exists_construct_of_recogniseBlock h hblock
      exact ⟨opening :: tokens', rest, hahead', hconstruct, rfl⟩
  | commentBegin =>
      simp only [hkind] at hok
      obtain ⟨_, cursor₁, hcomment, hok⟩ := bind_eq_ok_iff.1 hok
      obtain ⟨rfl, rfl⟩ := pure_eq_ok_iff.1 hok
      obtain ⟨opening, content, closing, rest, hahead', hopening, hcontent, hclosing, rfl⟩ :=
        (skipShortComment_eq_ok_iff h).1 hcomment
      exact ⟨opening :: (content.toList ++ [closing]), rest, by simp [hahead'],
        .shortComment hopening hcontent hclosing, by simp⟩
  | _ => simp [hkind, Cursor.refuse_apply h] at hok

theorem recogniseNext_of_construct (h : cursor.Placed) {tokens rest : List Token} {node : Option Node}
    (hahead : cursor.ahead = tokens ++ rest) (hconstruct : Construct disabled tokens node) :
    recogniseNext (Tag.builtinReaders disabled) nested cursor = .ok node (cursor.skip tokens.length) := by
  rw [recogniseNext, bind_of_ok (Cursor.current_apply h)]
  cases hconstruct with
  | @data token hkind =>
      have hhere := Cursor.here_of_ahead h hahead
      simp only [hhere, hkind]
      rw [bind_of_ok (Cursor.advance_apply h), hahead, hhere]
      rfl
  | @shortComment opening closing content hkind hcontent hclosing =>
      have hhere := Cursor.here_of_ahead h hahead
      have hskip := (skipShortComment_eq_ok_iff h).2
        ⟨opening, content, closing, rest, by simp [hahead], hkind, hcontent, hclosing, rfl⟩
      simp only [hhere, hkind]
      rw [bind_of_ok hskip]
      simp [pure_eq_ok_iff]
  | lorem henabled hkind hname hvalue harguments hclosing hlocation =>
      have hconstruct := Construct.lorem henabled hkind hname hvalue harguments hclosing hlocation
      simp only [Cursor.here_of_ahead h hahead, hkind]
      rw [bind_of_ok (recogniseBlock_of_construct h hahead hkind hconstruct)]
      rfl
  | comment henabled hkind hname hvalue hclosing hbody hkind' hname' hvalue' hclosing' =>
      have hconstruct :=
        Construct.comment henabled hkind hname hvalue hclosing hbody hkind' hname' hvalue' hclosing'
      simp only [Cursor.here_of_ahead h hahead, hkind]
      rw [bind_of_ok (recogniseBlock_of_construct h hahead hkind hconstruct)]
      rfl

/-! ### Whole runs -/

theorem Grammar.derives_nil_iff {nodes : List Node} : Derives disabled [] nodes ↔ nodes = [] := by
  constructor
  · intro h
    generalize htokens : ([] : List Token) = tokens at h
    cases h with
    | nil => rfl
    | cons hconstruct =>
        obtain ⟨token, tokens', rfl⟩ := hconstruct.exists_cons
        simp at htokens
  · rintro rfl
    exact .nil

theorem Grammar.Derives.exists_construct {tokens : List Token} {nodes : List Node}
    (h : Derives disabled tokens nodes) (hne : tokens ≠ []) :
    ∃ tokens' rest node nodes', tokens = tokens' ++ rest ∧ Construct disabled tokens' node ∧
      Derives disabled rest nodes' ∧ Joins node nodes' nodes := by
  cases h with
  | nil => exact absurd rfl hne
  | cons hconstruct hrest hjoins => exact ⟨_, _, _, _, rfl, hconstruct, hrest, hjoins⟩

theorem Recognition.outcome_cons_eq_ok_iff {node : Node} {nodes : List Node} {recognition : Recognition} :
    (recognition.cons node).outcome = .ok nodes ↔
      ∃ nodes', recognition.outcome = .ok nodes' ∧ nodes = node.joinTo nodes' := by
  rw [outcome, outcome, cons]
  cases recognition.fault <;> simp [eq_comm]

theorem outcome_recogniseSteps_succ {registry : Registry Tag.Reader} {steps : Nat} {node : Option Node}
    {nodes : List Node} (h : cursor.Placed) (hne : cursor.ahead ≠ [])
    (hnext : recogniseNext registry nested cursor = .ok node cursor') :
    (recogniseSteps registry nested (steps + 1) cursor).outcome = .ok nodes ↔
      ∃ nodes', (recogniseSteps registry nested steps cursor').outcome = .ok nodes' ∧
        Joins node nodes' nodes := by
  have hend : Cursor.atEnd cursor = .ok false cursor := by
    rw [Cursor.atEnd_apply h, List.isEmpty_eq_false_iff.2 hne]
  rw [recogniseSteps, hend]
  simp only [hnext, joins_iff]
  cases node with
  | none => simp
  | some node => exact Recognition.outcome_cons_eq_ok_iff

/-- A run of recognition takes a derivation. -/
theorem outcome_recogniseSteps_eq_ok_iff (h : cursor.Placed) {steps : Nat}
    (hsteps : cursor.ahead.length ≤ steps) {nodes : List Node} :
    (recogniseSteps (Tag.builtinReaders disabled) nested steps cursor).outcome = .ok nodes ↔
      Derives disabled cursor.ahead nodes := by
  induction steps generalizing cursor nodes with
  | zero =>
      rw [List.eq_nil_of_length_eq_zero (Nat.le_zero.1 hsteps), derives_nil_iff]
      simp [recogniseSteps, Recognition.outcome, eq_comm]
  | succ steps ih =>
      by_cases hnil : cursor.ahead = []
      · rw [hnil, derives_nil_iff, recogniseSteps, Cursor.atEnd_apply h, hnil]
        simp [Recognition.outcome, eq_comm]
      -- What is left after a construct is shorter, since the construct has a token.
      have hrest : ∀ {tokens rest : List Token} {node : Option Node}, cursor.ahead = tokens ++ rest →
          Construct disabled tokens node → ∀ {nodes : List Node},
          (recogniseSteps (Tag.builtinReaders disabled) nested steps (cursor.skip tokens.length)).outcome =
            .ok nodes ↔ Derives disabled rest nodes := by
        intro tokens rest node hahead hconstruct nodes
        obtain ⟨token, tokens', rfl⟩ := hconstruct.exists_cons
        have hskip := Cursor.ahead_skip h hahead
        rw [hahead, List.length_append, List.length_cons] at hsteps
        rw [ih (h.skip _) (by rw [hskip]; omega), hskip]
      constructor
      · intro hok
        cases hnext : recogniseNext (Tag.builtinReaders disabled) nested cursor with
        | error fault cursor' =>
            rw [recogniseSteps, Cursor.atEnd_apply h, List.isEmpty_eq_false_iff.2 hnil] at hok
            simp [hnext, Recognition.outcome] at hok
        | ok node cursor' =>
            obtain ⟨tokens, rest, hahead, hconstruct, rfl⟩ := exists_construct_of_recogniseNext h hnil hnext
            obtain ⟨nodes', hok', hjoins⟩ := (outcome_recogniseSteps_succ h hnil hnext).1 hok
            rw [hahead]
            exact .cons hconstruct ((hrest hahead hconstruct).1 hok') hjoins
      · intro hderives
        obtain ⟨tokens, rest, node, nodes', hahead, hconstruct, hderives', hjoins⟩ :=
          hderives.exists_construct hnil
        have hnext : recogniseNext (Tag.builtinReaders disabled) nested cursor =
            .ok node (cursor.skip tokens.length) := recogniseNext_of_construct h hahead hconstruct
        have hok := (hrest hahead hconstruct).2 hderives'
        exact (outcome_recogniseSteps_succ h hnil hnext).2 ⟨nodes', hok, hjoins⟩

theorem Cursor.outcome_recognise_eq_ok_iff (h : cursor.Placed) {nodes : List Node} :
    (cursor.recognise (Tag.builtinReaders disabled)).outcome = .ok nodes ↔
      Derives disabled cursor.ahead nodes :=
  outcome_recogniseSteps_eq_ok_iff h length_ahead_le_room

/-- With the built-in tags, some of which may be disabled, a list of tokens is recognised exactly if it
derives from the grammar up to its end, and then as the nodes of the derivation. -/
theorem recognise_whole_eq_ok_iff_derives (disabled : List String) (tokens : List Token)
    (nodes : List Node) :
    ((Cursor.whole tokens.toArray).recognise (Tag.builtinReaders disabled)).outcome = .ok nodes ↔
      Derives disabled (tokens.takeWhile (·.kind != .eof)) nodes := by
  rw [Cursor.outcome_recognise_eq_ok_iff (Cursor.placed_whole _), Cursor.ahead_whole]

end TagTemplate
