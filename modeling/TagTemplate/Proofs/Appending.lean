import TagTemplate.Proofs.Confined
import TagTemplate.Proofs.Execution

/-!
# Output that only grows

What only writes to a renderer and draws words from its source is not affected by what has been written before, leaves
it in front of what it writes itself, and moves the source on by the words that it draws. Nodes that do no more than
that can be executed in two goes. If one of them fails, the renderer is left as those before it and the failing one
have made it, and those behind it make no difference.
-/

namespace TagTemplate

namespace Twister

/-- The source after so many words. -/
def after (source : Twister) : Nat → Twister
  | 0 => source
  | words + 1 => source.next.2.after words

theorem after_add (source : Twister) (words words' : Nat) :
    source.after (words + words') = (source.after words).after words' := by
  induction words generalizing source with
  | zero => rw [Nat.zero_add, after]
  | succ words ih => rw [Nat.succ_add, after, ih, after]

end Twister

/-! ### Actions that only write and draw -/

namespace Rendering

variable {α β : Type} {action : Rendering α} {next : α → Rendering β} {handler : Fault → Rendering α} {value : α}
  {fault : Fault} {outcome outcome' : Except Fault α} {source : Twister} {renderer renderer' final : Renderer}
  {text text' : String} {words words' : Nat}

/-- Actions that are made of writing texts and of drawing words, one after the other. They may fail, and go on
after a failure. -/
inductive WritesAndDraws : {α : Type} → Rendering α → Prop
  | pure {α : Type} (value : α) : WritesAndDraws (pure value)
  | throw {α : Type} (fault : Fault) : WritesAndDraws (throw fault : Rendering α)
  | write (text : String) : WritesAndDraws (Renderer.write text)
  | word : WritesAndDraws (Renderer.draw Twister.next)
  | bind {α β : Type} {action : Rendering α} {next : α → Rendering β} :
      WritesAndDraws action → (∀ value, WritesAndDraws (next value)) → WritesAndDraws (action >>= next)
  | tryCatch {α : Type} {action : Rendering α} {handler : Fault → Rendering α} :
      WritesAndDraws action → (∀ fault, WritesAndDraws (handler fault)) → WritesAndDraws (tryCatch action handler)

/-- A renderer with the outcome of an action. -/
def result : Except Fault α → Renderer → EStateM.Result Fault Renderer α
  | .ok value, renderer => .ok value renderer
  | .error fault, renderer => .error fault renderer

theorem result_inj (h : result outcome renderer = result outcome' renderer') :
    outcome = outcome' ∧ renderer = renderer' := by
  cases outcome <;> cases outcome' <;> simp_all [result]

/-- What an action does with a source, whatever has been written before: the outcome that it has, the text that it adds
to the output and the number of words that it draws. -/
def Does (action : Rendering α) (source : Twister) (outcome : Except Fault α) (text : String) (words : Nat) : Prop :=
  ∀ output, action ⟨output, source⟩ = result outcome ⟨output ++ text, source.after words⟩

theorem does_pure (value : α) (source : Twister) : Does (pure value) source (.ok value) "" 0 := by
  intro output
  rw [String.append_empty]
  rfl

theorem does_throw (fault : Fault) (source : Twister) :
    Does (throw fault : Rendering α) source (.error fault) "" 0 := by
  intro output
  rw [String.append_empty]
  rfl

theorem does_write (text : String) (source : Twister) : Does (Renderer.write text) source (.ok text.length) text 0 :=
  fun _ => rfl

theorem does_word (source : Twister) : Does (Renderer.draw Twister.next) source (.ok source.next.1) "" 1 := by
  intro output
  rw [String.append_empty]
  rfl

theorem Does.bind {outcome : Except Fault β} (h : Does action source (.ok value) text words)
    (hnext : Does (next value) (source.after words) outcome text' words') :
    Does (action >>= next) source outcome (text ++ text') (words + words') := by
  intro output
  rw [bind_of_ok (h output), hnext, String.append_assoc, Twister.after_add]

theorem Does.bind_error (h : Does action source (.error fault) text words) :
    Does (action >>= next) source (.error fault) text words :=
  fun output => bind_of_error (h output)

theorem Does.tryCatch_ok (h : Does action source (.ok value) text words) :
    Does (tryCatch action handler) source (.ok value) text words := by
  intro output
  show EStateM.tryCatch action handler _ = _
  rw [EStateM.tryCatch, h output]
  rfl

theorem Does.tryCatch_error (h : Does action source (.error fault) text words)
    (hhandler : Does (handler fault) (source.after words) outcome text' words') :
    Does (tryCatch action handler) source outcome (text ++ text') (words + words') := by
  intro output
  show EStateM.tryCatch action handler _ = _
  rw [EStateM.tryCatch, h output, ← String.append_assoc, Twister.after_add]
  exact hhandler _

/-- What only writes and draws adds some text and draws some words. Neither depends on what has been written before. -/
theorem WritesAndDraws.exists_does (h : WritesAndDraws action) (source : Twister) :
    ∃ outcome text words, Does action source outcome text words := by
  induction h generalizing source with
  | pure value => exact ⟨_, _, _, does_pure value source⟩
  | throw fault => exact ⟨_, _, _, does_throw fault source⟩
  | write text => exact ⟨_, _, _, does_write text source⟩
  | word => exact ⟨_, _, _, does_word source⟩
  | bind _ _ ih ihnext =>
      obtain ⟨fault | value, text, words, haction⟩ := ih source
      · exact ⟨_, _, _, haction.bind_error⟩
      · obtain ⟨outcome, text', words', hnext⟩ := ihnext value (source.after words)
        exact ⟨_, _, _, haction.bind hnext⟩
  | tryCatch _ _ ih ihhandler =>
      obtain ⟨fault | value, text, words, haction⟩ := ih source
      · obtain ⟨outcome, text', words', hhandler⟩ := ihhandler fault (source.after words)
        exact ⟨_, _, _, haction.tryCatch_error hhandler⟩
      · exact ⟨_, _, _, haction.tryCatch_ok⟩

theorem WritesAndDraws.exists_does_of_eq (h : WritesAndDraws action)
    (hresult : action renderer = result outcome final) :
    ∃ text words, Does action renderer.source outcome text words ∧
      final = ⟨renderer.output ++ text, renderer.source.after words⟩ := by
  obtain ⟨outcome', text, words, hdoes⟩ := h.exists_does renderer.source
  obtain ⟨rfl, rfl⟩ := result_inj (hresult.symm.trans (hdoes renderer.output))
  exact ⟨text, words, hdoes, rfl⟩

end Rendering

open Rendering (WritesAndDraws)

/-! ### What random text does -/

namespace Draw

variable {α β : Type} {draw : Draw α} {next : α → Draw β}

/-- A draw takes words from the source, and nothing else. -/
def TakesWords (draw : Draw α) : Prop := (Renderer.draw draw).WritesAndDraws

theorem takesWords_pure (value : α) : TakesWords (pure value) := .pure value

theorem TakesWords.bind (h : TakesWords draw) (hnext : ∀ value, TakesWords (next value)) :
    TakesWords (draw >>= next) :=
  WritesAndDraws.bind h hnext

theorem takesWords_bits (k : Nat) : TakesWords (bits k) :=
  WritesAndDraws.bind .word fun word => .pure (word.toNat >>> (32 - k))

theorem takesWords_belowWithin (n : Nat) (h : 0 < n) (rejections : Nat) : TakesWords (belowWithin n h rejections) := by
  induction rejections with
  | zero => exact (takesWords_bits _).bind fun _ => takesWords_pure _
  | succ rejections ih =>
      refine (takesWords_bits _).bind fun candidate => ?_
      split
      · exact takesWords_pure _
      · exact ih

theorem takesWords_below (n : Nat) (h : 0 < n) : TakesWords (below n h) := takesWords_belowWithin n h patience

theorem takesWords_between (low high : Nat) : TakesWords (between low high) :=
  (takesWords_below _ _).bind fun _ => takesWords_pure _

theorem takesWords_choice (members : Array α) (h : 0 < members.size) : TakesWords (choice members h) :=
  (takesWords_below _ _).bind fun _ => takesWords_pure _

theorem takesWords_sample (count : Nat) (pool : Array α) : TakesWords (sample count pool) := by
  induction count generalizing pool with
  | zero => exact takesWords_pure _
  | succ count ih =>
      rw [sample]
      split
      · exact (takesWords_below _ _).bind fun _ => (ih _).bind fun _ => takesWords_pure _
      · exact takesWords_pure _

theorem TakesWords.repeated (h : TakesWords draw) (count : Nat) : TakesWords (repeated draw count) := by
  induction count with
  | zero => exact takesWords_pure _
  | succ count ih => exact h.bind fun _ => ih.bind fun _ => takesWords_pure _

theorem takesWords_generate (count : Int) (mode : Lorem.Mode) (random : Bool) :
    TakesWords (Lorem.generate count mode random) := by
  have hwords : TakesWords (Lorem.someWords count.toNat random) := by
    cases random with
    | false => exact takesWords_pure _
    | true => exact (takesWords_choice _ _).repeated _
  have hparagraphs : TakesWords (Lorem.someParagraphs count.toNat random) := by
    cases random with
    | false => exact takesWords_pure _
    | true =>
        have hparagraph : TakesWords Lorem.randomParagraph :=
          (takesWords_between _ _).bind fun _ => (takesWords_sample _ _).bind fun _ => takesWords_pure _
        exact hparagraph.repeated _
  rw [Lorem.generate]
  split
  · exact takesWords_pure _
  split
  · exact hwords.bind fun _ => takesWords_pure _
  · exact hparagraphs.bind fun _ => takesWords_pure _

end Draw

/-! ### Nodes that only write and draw -/

mutual

/-- Whether to execute a node is to write and to draw. Only a statement of one's own may do something else. -/
def Node.IsPlain : Node → Prop
  | .data _ | .unknown _ => True
  | .block _ _ statement | .statement statement => statement.IsPlain

/-- Whether to execute a statement is to write and to draw. -/
def Statement.IsPlain : Statement → Prop
  | .lorem .. | .comment _ | .echo .. => True
  | .wrap _ body => Node.ArePlain body
  | .custom _ _ action => action.WritesAndDraws

/-- Whether this is so of all nodes. -/
def Node.ArePlain : List Node → Prop
  | [] => True
  | node :: nodes => node.IsPlain ∧ Node.ArePlain nodes

end

theorem Node.arePlain_iff {nodes : List Node} : ArePlain nodes ↔ ∀ node ∈ nodes, node.IsPlain := by
  induction nodes with
  | nil => simp [ArePlain]
  | cons node nodes ih => rw [ArePlain, ih, List.forall_mem_cons]

mutual

theorem Node.writesAndDraws_execute {node : Node} (h : node.IsPlain) : node.execute.WritesAndDraws := by
  cases node with
  | data text =>
      rw [Node.execute]
      exact .bind (.write text) fun _ => .pure _
  | unknown kind =>
      rw [Node.execute]
      exact .throw _
  | block location name statement | statement statement =>
      rw [Node.execute]
      exact Statement.writesAndDraws_execute h

theorem Statement.writesAndDraws_execute {statement : Statement} (h : statement.IsPlain) :
    statement.execute.WritesAndDraws := by
  cases statement with
  | lorem location count letter random =>
      rw [Statement.execute]
      split
      · exact .throw _
      · exact .bind (Draw.takesWords_generate _ _ _) fun text => .bind (.write text) fun _ => .pure _
  | comment location =>
      rw [Statement.execute]
      exact .pure _
  | echo location values =>
      rw [Statement.execute]
      exact .bind (.write _) fun _ => .pure _
  | wrap location body =>
      rw [Statement.execute]
      have hbody := Node.writesAndDraws_executeAll h
      exact .bind (.write _) fun _ => .bind hbody fun _ => .bind (.write _) fun _ => .pure _
  | custom location kind action =>
      rw [Statement.execute]
      exact h

theorem Node.writesAndDraws_executeAll {nodes : List Node} (h : Node.ArePlain nodes) :
    (Node.executeAll nodes).WritesAndDraws := by
  cases nodes with
  | nil =>
      rw [Node.executeAll]
      exact .pure _
  | cons node nodes =>
      rw [Node.executeAll]
      exact .bind (Node.writesAndDraws_execute h.1) fun _ => Node.writesAndDraws_executeAll h.2

end

theorem Recording.eq_ok_of_forget {α : Type} {result : EStateM.Result Fault Record α} {value : α} {renderer : Renderer}
    (h : forget result = .ok value renderer) : ∃ executed, result = .ok value ⟨renderer, executed⟩ := by
  cases result with
  | ok value' record =>
      obtain ⟨rfl, rfl⟩ := EStateM.Result.ok.inj h
      exact ⟨record.executed, rfl⟩
  | error fault record => cases h

theorem Recording.eq_error_of_forget {α : Type} {result : EStateM.Result Fault Record α} {fault : Fault}
    {renderer : Renderer} (h : forget result = .error fault renderer) :
    ∃ executed, result = .error fault ⟨renderer, executed⟩ := by
  cases result with
  | ok value record => cases h
  | error fault' record =>
      obtain ⟨rfl, rfl⟩ := EStateM.Result.error.inj h
      exact ⟨record.executed, rfl⟩

namespace Node

variable {xs ys nodes : List Node} {renderer final : Renderer} {fault : Fault}

theorem executeAll_append (xs ys : List Node) : executeAll (xs ++ ys) = executeAll xs >>= fun _ => executeAll ys := by
  induction xs with
  | nil => rw [List.nil_append, executeAll, pure_bind]
  | cons node nodes ih =>
      rw [List.cons_append, executeAll, executeAll, bind_assoc]
      exact congrArg (node.execute >>= ·) (funext fun _ => ih)

theorem recordAll_append (xs ys : List Node) : recordAll (xs ++ ys) = recordAll xs >>= fun _ => recordAll ys := by
  induction xs with
  | nil => rw [List.nil_append, recordAll, pure_bind]
  | cons node nodes ih =>
      rw [List.cons_append, recordAll, recordAll, bind_assoc]
      exact congrArg (node.record >>= ·) (funext fun _ => ih)

/-- Nodes of which one fails: those before it are executed, and then it fails itself. -/
theorem exists_of_executeAll_eq_error (h : executeAll nodes renderer = .error fault final) :
    ∃ before node after middle, nodes = before ++ node :: after ∧ executeAll before renderer = .ok () middle ∧
      node.execute middle = .error fault final := by
  induction nodes generalizing renderer with
  | nil => cases h
  | cons node nodes ih =>
      cases hexecute : node.execute renderer with
      | error fault' final' =>
          rw [executeAll, bind_of_error hexecute] at h
          obtain ⟨rfl, rfl⟩ := EStateM.Result.error.inj h
          exact ⟨[], node, nodes, renderer, rfl, rfl, hexecute⟩
      | ok value renderer' =>
          rw [executeAll_cons_of_ok hexecute] at h
          obtain ⟨before, failing, after, middle, rfl, hbefore, hfailing⟩ := ih h
          exact ⟨node :: before, failing, after, middle, rfl, by rw [executeAll_cons_of_ok hexecute, hbefore], hfailing⟩

/-- Nodes before one that fails are recorded, and then it, whatever stands behind it. -/
theorem exists_record_of_error {before : List Node} {node : Node} {middle : Renderer}
    (hbefore : executeAll before renderer = .ok () middle) (hnode : node.execute middle = .error fault final) :
    ∃ ran executed, recordAll before ⟨renderer, []⟩ = .ok () ⟨middle, ran⟩ ∧
      node.record ⟨middle, ran⟩ = .error fault ⟨final, executed⟩ ∧
      ∀ after, recordAll (before ++ node :: after) ⟨renderer, []⟩ = .error fault ⟨final, executed⟩ := by
  have hforget := forget_recordAll before ⟨renderer, []⟩
  obtain ⟨ran, hran⟩ := Recording.eq_ok_of_forget (hforget.trans hbefore)
  obtain ⟨executed, hexecuted⟩ := Recording.eq_error_of_forget ((forget_record node ⟨middle, ran⟩).trans hnode)
  refine ⟨ran, executed, hran, hexecuted, fun after => ?_⟩
  rw [recordAll_append, bind_of_ok hran, recordAll, bind_of_error hexecuted]

/-- Nodes of which one fails. The output has what the nodes before that one write and then what that one writes before
it fails, and the source has been moved on by what they draw. No node behind it has been executed: whatever nodes these
are, the recording is that of the nodes before the failing one and of that one. -/
structure FailsAt (renderer : Renderer) (before : List Node) (node : Node) (fault : Fault) (final : Renderer) :
    Prop where
  exists_effects : ∃ text words text' words',
    (executeAll before).Does renderer.source (.ok ()) text words ∧
      node.execute.Does (renderer.source.after words) (.error fault) text' words' ∧
      final = ⟨renderer.output ++ text ++ text', renderer.source.after (words + words')⟩
  exists_record : ∃ middle executed, recordAll before ⟨renderer, []⟩ = .ok () middle ∧
    node.record middle = .error fault ⟨final, executed⟩ ∧
    ∀ after, recordAll (before ++ node :: after) ⟨renderer, []⟩ = .error fault ⟨final, executed⟩

theorem exists_failsAt (hplain : ∀ node ∈ nodes, node.IsPlain) (h : executeAll nodes renderer = .error fault final) :
    ∃ before node after, nodes = before ++ node :: after ∧ FailsAt renderer before node fault final := by
  obtain ⟨before, node, after, middle, rfl, hbefore, hnode⟩ := exists_of_executeAll_eq_error h
  obtain ⟨hbeforePlain, hplain⟩ := List.forall_mem_append.1 hplain
  have hnodePlain := (List.forall_mem_cons.1 hplain).1
  have hok : executeAll before renderer = Rendering.result (.ok ()) middle := hbefore
  have herror : node.execute middle = Rendering.result (.error fault) final := hnode
  obtain ⟨text, words, hdoes, rfl⟩ := (writesAndDraws_executeAll (arePlain_iff.2 hbeforePlain)).exists_does_of_eq hok
  obtain ⟨text', words', hdoes', rfl⟩ := (writesAndDraws_execute hnodePlain).exists_does_of_eq herror
  refine ⟨before, node, after, rfl, ⟨text, words, text', words', hdoes, hdoes', ?_⟩, ?_⟩
  · rw [Twister.after_add]
  · obtain ⟨ran, executed, hran, hexecuted, hrecord⟩ := exists_record_of_error hbefore hnode
    exact ⟨_, executed, hran, hexecuted, hrecord⟩

/-- Nodes that only write and draw are executed as their first part and, if that succeeds, the second one. They add to
the output and move the source on. If they fail, it is at one of them, and the renderer has only what was done until
then. -/
theorem executeAll_splits (xs ys : List Node) (hxs : ∀ node ∈ xs, node.IsPlain) (hys : ∀ node ∈ ys, node.IsPlain)
    (renderer : Renderer) :
    (executeAll (xs ++ ys) renderer = match executeAll xs renderer with
      | .ok _ middle => executeAll ys middle
      | .error fault final => .error fault final) ∧
    (∃ outcome text words, (executeAll (xs ++ ys)).Does renderer.source outcome text words) ∧
    ∀ fault final, executeAll (xs ++ ys) renderer = .error fault final →
      ∃ before node after, xs ++ ys = before ++ node :: after ∧ FailsAt renderer before node fault final := by
  have hplain : ∀ node ∈ xs ++ ys, node.IsPlain := List.forall_mem_append.2 ⟨hxs, hys⟩
  refine ⟨?_, (writesAndDraws_executeAll (arePlain_iff.2 hplain)).exists_does _, fun fault final h => ?_⟩
  · rw [executeAll_append]
    cases h : executeAll xs renderer with
    | ok value middle => exact bind_of_ok h
    | error fault final => exact bind_of_error h
  · exact exists_failsAt hplain h

/-- Text and random words in front of a statement that fails after it has written something, and text behind it. -/
theorem executeAll_splits_partial_output :
    ∃ (random failing : Node) (source : Twister) (fault : Fault) (final : Renderer),
      random = .block ⟨.blockBegin, "\x7b%", .start⟩ "lorem" (.lorem ⟨.integer, "2", .start⟩ 2 "w" true) ∧
      failing = .statement (.custom ⟨.name, "fail", .start⟩ "FailStatement" do
        let _ ← Renderer.write "partial"
        throw fault) ∧
      final = ⟨"out" ++ "a" ++ (Lorem.generate 2 .words true source).1 ++ "partial",
        (Lorem.generate 2 .words true source).2⟩ ∧
      (∀ node ∈ [.data "a", random], node.IsPlain) ∧ (∀ node ∈ [failing, .data "z"], node.IsPlain) ∧
      executeAll ([.data "a", random] ++ [failing, .data "z"]) ⟨"out", source⟩ = .error fault final ∧
      ∃ before node after, [.data "a", random] ++ [failing, .data "z"] = before ++ node :: after ∧
        FailsAt ⟨"out", source⟩ before node fault final := by
  refine ⟨_, _, .ofSeed 1, .defect (.value "execute failure"), _, rfl, rfl, rfl, ?_⟩
  generalize hrandom : block ⟨.blockBegin, "\x7b%", .start⟩ "lorem" (.lorem ⟨.integer, "2", .start⟩ 2 "w" true) = random
  generalize hfailing : statement (.custom ⟨.name, "fail", .start⟩ "FailStatement" do
    let _ ← Renderer.write "partial"
    throw (.defect (.value "execute failure"))) = failing
  generalize Twister.ofSeed 1 = source
  have hxs : ∀ node ∈ [data "a", random], node.IsPlain := by
    subst hrandom
    simp [IsPlain, Statement.IsPlain]
  have hys : ∀ node ∈ [failing, data "z"], node.IsPlain := by
    subst hfailing
    simp only [List.forall_mem_cons]
    exact ⟨.bind (.write _) fun _ => .throw _, trivial, nofun⟩
  have hfirst : random.execute ⟨"out" ++ "a", source⟩ = .ok () ⟨"out" ++ "a" ++ (Lorem.generate 2 .words true source).1,
      (Lorem.generate 2 .words true source).2⟩ := by
    subst hrandom
    exact execute_lorem _ _ _ _ .words _ _
  have hsecond : ∀ output source, failing.execute ⟨output, source⟩ =
      .error (.defect (.value "execute failure")) ⟨output ++ "partial", source⟩ := by
    subst hfailing
    exact fun _ _ => rfl
  have hexecute : executeAll ([data "a", random] ++ [failing, data "z"]) ⟨"out", source⟩ =
      .error (.defect (.value "execute failure")) ⟨"out" ++ "a" ++ (Lorem.generate 2 .words true source).1 ++ "partial",
        (Lorem.generate 2 .words true source).2⟩ := by
    have hdata : (data "a").execute ⟨"out", source⟩ = .ok () ⟨"out" ++ "a", source⟩ := rfl
    rw [List.cons_append, executeAll_cons_of_ok hdata, List.cons_append, executeAll_cons_of_ok hfirst, List.nil_append]
    exact bind_of_error (hsecond _ _)
  exact ⟨hxs, hys, hexecute, (executeAll_splits _ _ hxs hys ⟨"out", source⟩).2.2 _ _ hexecute⟩

end Node

end TagTemplate
