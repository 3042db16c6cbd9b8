import TagTemplate.Proofs.Demand
import TagTemplate.Proofs.Failure

/-!
# What compiles can be executed

Nodes put together by hand may have a count below zero or a mode that does not exist, or be of a kind that nobody
knows how to execute. The nodes of a template that compiles are not like that: none of them fails, whatever has been
written and drawn before it. To say that nothing else is executed, executions are recorded, and the record of a
template is the list of its nodes.
-/

namespace TagTemplate

open Grammar

/-! ### Recorded executions -/

/-- A renderer, and the nodes whose execution has begun, in this order. -/
structure Record where
  renderer : Renderer
  executed : List Node

abbrev Recording := EStateM Fault Record

namespace Recording

variable {α β : Type}

/-- An action of the renderer in which no node is executed. -/
def perform (action : Rendering α) : Recording α := fun record =>
  match action record.renderer with
  | .ok value renderer => .ok value { record with renderer := renderer }
  | .error fault renderer => .error fault { record with renderer := renderer }

/-- Notes that the execution of a node begins. -/
def note (node : Node) : Recording Unit := fun record =>
  .ok () { record with executed := record.executed ++ [node] }

theorem note_bind (node : Node) (next : Unit → Recording α) (record : Record) :
    (note node >>= next) record = next () { record with executed := record.executed ++ [node] } := rfl

/-- What is left of a result without the record. -/
def forget : EStateM.Result Fault Record α → EStateM.Result Fault Renderer α
  | .ok value record => .ok value record.renderer
  | .error fault record => .error fault record.renderer

theorem forget_perform (action : Rendering α) (record : Record) :
    forget (perform action record) = action record.renderer := by
  unfold perform
  cases action record.renderer <;> rfl

theorem forget_bind {first : Recording α} {second : α → Recording β} {action : Rendering α}
    {next : α → Rendering β} (hfirst : ∀ record, forget (first record) = action record.renderer)
    (hsecond : ∀ value record, forget (second value record) = next value record.renderer) (record : Record) :
    forget ((first >>= second) record) = (action >>= next) record.renderer := by
  have h := hfirst record
  show forget (EStateM.bind first second record) = EStateM.bind action next record.renderer
  unfold EStateM.bind
  rw [← h]
  cases first record with
  | ok value record' => exact hsecond value record'
  | error fault record' => rfl

end Recording

open Recording (perform note note_bind forget forget_perform forget_bind)

mutual

/-- Executes a node and notes every node that is executed on the way. -/
def Node.record : Node → Recording Unit
  | .data text => do
      note (.data text)
      perform (Node.data text).execute
  | .block location name statement => do
      note (.block location name statement)
      statement.record
  | .statement statement => do
      note (.statement statement)
      statement.record
  | .unknown kind => do
      note (.unknown kind)
      perform (Node.unknown kind).execute

/-- Executes a statement. Only brackets have nodes between them. -/
def Statement.record : Statement → Recording Unit
  | .wrap _ body => do
      let _ ← perform (Renderer.write "[")
      Node.recordAll body
      let _ ← perform (Renderer.write "]")
  | statement => perform statement.execute

def Node.recordAll : List Node → Recording Unit
  | [] => pure ()
  | node :: nodes => do
      node.record
      Node.recordAll nodes

end

mutual

/-- A recorded execution is an execution, whether it succeeds or fails. -/
theorem Node.forget_record (node : Node) (record : Record) :
    forget (node.record record) = node.execute record.renderer := by
  cases node with
  | data | unknown =>
      rw [Node.record, note_bind]
      exact forget_perform _ _
  | block location name statement | statement statement =>
      rw [Node.record, Node.execute, note_bind]
      exact Statement.forget_record statement _

theorem Statement.forget_record (statement : Statement) (record : Record) :
    forget (statement.record record) = statement.execute record.renderer := by
  cases statement with
  | wrap location body =>
      rw [Statement.record, Statement.execute]
      apply forget_bind (forget_perform _)
      intro _
      apply forget_bind (Node.forget_recordAll body)
      intro _
      exact forget_bind (forget_perform _) fun _ _ => rfl
  | lorem | comment | echo | custom =>
      rw [Statement.record]
      · exact forget_perform _ record
      · simp

theorem Node.forget_recordAll (nodes : List Node) (record : Record) :
    forget (Node.recordAll nodes record) = Node.executeAll nodes record.renderer := by
  cases nodes with
  | nil => rfl
  | cons node nodes =>
      rw [Node.recordAll, Node.executeAll]
      apply forget_bind (Node.forget_record node)
      intro _
      exact Node.forget_recordAll nodes

end

/-- Nodes between brackets are executed after the brackets themselves. -/
example (location : Token) (renderer : Renderer) :
    Node.recordAll [.data "a", .statement (.wrap location [.data "b"])] ⟨renderer, []⟩ =
      .ok () ⟨⟨renderer.output ++ "a" ++ "[" ++ "b" ++ "]", renderer.source⟩,
        [.data "a", .statement (.wrap location [.data "b"]), .data "b"]⟩ := by
  rfl

namespace Node

/-! ### Executing the nodes of a template -/

variable {node : Node} {nodes : List Node}

/-- The count of a block of filler text. -/
def count? : Node → Option Int
  | block _ _ (.lorem _ count _ _) => some count
  | _ => none

/-- Whatever a renderer has written and drawn, an ordinary node can be executed. -/
theorem Ordinary.exists_execute (h : node.Ordinary) (renderer : Renderer) :
    ∃ renderer', node.execute renderer = .ok () renderer' := by
  cases hdemand : node.demand? with
  | none => exact ⟨_, h.execute_of_none hdemand renderer⟩
  | some demand => exact ⟨_, h.execute_of_some hdemand renderer⟩

theorem Ordinary.record_eq (h : node.Ordinary) : node.record = (do
    note node
    perform node.execute) := by
  cases h with
  | data text => rw [record]
  | lorem | comment =>
      rw [record, execute, Statement.record]
      simp

theorem Ordinary.record_of_execute (h : node.Ordinary) {record : Record} {renderer : Renderer}
    (hexecute : node.execute record.renderer = .ok () renderer) :
    node.record record = .ok () ⟨renderer, record.executed ++ [node]⟩ := by
  rw [h.record_eq, note_bind, perform, hexecute]

theorem exists_recordAll (h : ∀ node ∈ nodes, node.Ordinary) (record : Record) :
    ∃ renderer, executeAll nodes record.renderer = .ok () renderer ∧
      recordAll nodes record = .ok () ⟨renderer, record.executed ++ nodes⟩ := by
  induction nodes generalizing record with
  | nil =>
      refine ⟨record.renderer, rfl, ?_⟩
      rw [List.append_nil]
      rfl
  | cons node nodes ih =>
      obtain ⟨hnode, hnodes⟩ := List.forall_mem_cons.1 h
      obtain ⟨renderer, hexecute⟩ := hnode.exists_execute record.renderer
      obtain ⟨renderer', hexecuteAll, hrecordAll⟩ := ih hnodes ⟨renderer, record.executed ++ [node]⟩
      refine ⟨renderer', ?_, ?_⟩
      · rw [executeAll_cons_of_ok hexecute, hexecuteAll]
      · rw [recordAll, bind_of_ok (hnode.record_of_execute hexecute), hrecordAll, List.append_assoc]
        rfl

end Node

namespace Grammar

variable {disabled : List String} {tokens : List Token} {nodes : List Node}

/-- If no number is below zero, no count is. -/
theorem Construct.count_nonneg {node : Node} (h : Construct disabled tokens (some node))
    (hnumbers : ∀ number ∈ tokens, number.kind = .integer → ∀ n, Number.readInteger number.value = .ok n → 0 ≤ n) :
    ∀ count ∈ node.count?, 0 ≤ count := by
  cases h with
  | data | comment => simp [Node.count?]
  | lorem _ _ _ _ harguments =>
      rintro _ ⟨⟩
      cases harguments with
      | uncounted => decide
      | counted hkind hread => exact hnumbers _ (by simp) hkind _ hread

theorem Derives.count_nonneg (h : Derives disabled tokens nodes)
    (hnumbers : ∀ number ∈ tokens, number.kind = .integer → ∀ n, Number.readInteger number.value = .ok n → 0 ≤ n) :
    ∀ node ∈ nodes, ∀ count ∈ node.count?, 0 ≤ count := by
  apply h.forall_mem (P := fun node => ∀ count ∈ node.count?, 0 ≤ count)
  · simp [Node.count?]
  · intro construct node hwithin hconstruct
    apply hconstruct.count_nonneg
    intro number hmem
    exact hnumbers number (hwithin.mem hmem)

end Grammar

/-- A template that compiles consists of plain text and of blocks of the built-in tags, the counts of which are not
below zero. None of these nodes fails, whatever has been written and drawn before it, so the template renders to a
text, whatever the source. Executing it executes these nodes and no others, each once and in their order. -/
theorem render_of_compile (config : Config) (text name : String) (template : Template)
    (h : (Compiler.ofConfig config).compile text name = .ok template) :
    (∀ node ∈ template.nodes, node.Ordinary ∧ (∀ count ∈ node.count?, 0 ≤ count) ∧
      ∀ renderer, ∃ renderer', node.execute renderer = .ok () renderer') ∧
    ∀ given fresh, ∃ renderer,
      template.render given fresh = ⟨.ok renderer.output, renderer.source⟩ ∧
      Node.recordAll template.nodes ⟨.ofSource (template.sourceOf given fresh), []⟩ =
        .ok () ⟨renderer, template.nodes⟩ := by
  have hordinary := ordinary_of_compile h
  obtain ⟨parts, hreads, hderives⟩ := exists_derives_of_compile h
  constructor
  · intro node hmem
    refine ⟨hordinary node hmem, ?_, (hordinary node hmem).exists_execute⟩
    apply hderives.count_nonneg ?_ node hmem
    intro number hnumber hkind n hread
    exact hreads.nonneg_of_readInteger hnumber hkind hread
  · intro given fresh
    obtain ⟨renderer, hexecute, hrecord⟩ :=
      Node.exists_recordAll hordinary ⟨.ofSource (template.sourceOf given fresh), []⟩
    refine ⟨renderer, ?_, hrecord⟩
    rw [Template.render, Template.renderFrom, hexecute]

/-- A count with zeros before it, a count of nothing, and a block comment around a count that is none. -/
theorem render_of_compile_counts :
    ∃ template, (Compiler.ofConfig {}).compile
        "\x7b% lorem 02 w random %\x7d-\x7b% lorem 0 %\x7d\x7b% comment %\x7d\x7b% lorem -1 %\x7d\x7b% endcomment %\x7d"
        "t" = .ok template ∧
      template.nodes.filterMap Node.count? = [2, 0] ∧ template.nodes.length = 4 ∧
      (∀ node ∈ template.nodes, node.Ordinary ∧ (∀ count ∈ node.count?, 0 ≤ count) ∧
        ∀ renderer, ∃ renderer', node.execute renderer = .ok () renderer') ∧
      ∀ given fresh, ∃ renderer, template.render given fresh = ⟨.ok renderer.output, renderer.source⟩ ∧
        Node.recordAll template.nodes ⟨.ofSource (template.sourceOf given fresh), []⟩ =
          .ok () ⟨renderer, template.nodes⟩ := by
  have hcompile : (Compiler.ofConfig {}).compile
      "\x7b% lorem 02 w random %\x7d-\x7b% lorem 0 %\x7d\x7b% comment %\x7d\x7b% lorem -1 %\x7d\x7b% endcomment %\x7d"
      "t" = .ok ⟨"t", [
        .block ⟨.blockBegin, "\x7b%", ⟨0, 1, 1⟩⟩ "lorem" (.lorem ⟨.integer, "02", ⟨9, 1, 10⟩⟩ 2 "w" true),
        .data "-",
        .block ⟨.blockBegin, "\x7b%", ⟨24, 1, 25⟩⟩ "lorem" (.lorem ⟨.integer, "0", ⟨33, 1, 34⟩⟩ 0 "b" false),
        .block ⟨.blockBegin, "\x7b%", ⟨37, 1, 38⟩⟩ "comment" (.comment ⟨.blockEnd, "%\x7d", ⟨48, 1, 49⟩⟩)],
        none⟩ := by
    cbv
  exact ⟨_, hcompile, rfl, rfl, render_of_compile {} _ "t" _ hcompile⟩

end TagTemplate
