import TagTemplate.Proofs.Flaw
import TagTemplate.Proofs.Scan

/-!
# Texts at another place

Where a text starts decides nothing but the places that are reported. Reading a text from another place
gives the same tokens or the same error, moved by the distance between the two places, and so does every
flaw of the tokens.
-/

namespace TagTemplate

open Cursor (Inner Marks)

namespace Location

/-- A place of a text, seen from the start of another text in which that text begins at `origin`. -/
def shift (place origin : Location) : Location where
  offset := origin.offset + place.offset
  line := place.line + (origin.line - 1)
  column := if place.line = 1 then place.column + (origin.column - 1) else place.column

theorem line_next_pos {place : Location} (h : 0 < place.line) (c : Char) : 0 < (place.next c).line := by
  unfold next
  split
  · exact Nat.succ_pos _
  · exact h

theorem line_after_pos {place : Location} (h : 0 < place.line) (s : List Char) : 0 < (place.after s).line := by
  induction s generalizing place with
  | nil => exact h
  | cons c s ih => exact ih (line_next_pos h c)

theorem column_after_pos {place : Location} (h : 0 < place.column) (s : List Char) :
    0 < (place.after s).column := by
  induction s generalizing place with
  | nil => exact h
  | cons c s ih =>
      refine ih ?_
      unfold next
      split <;> exact Nat.succ_pos _

theorem shift_next {place : Location} (h : 0 < place.line) (origin : Location) (c : Char) :
    (place.next c).shift origin = (place.shift origin).next c := by
  unfold next
  split
  · have hline : place.line + 1 ≠ 1 := by omega
    simp only [shift, if_neg hline, mk.injEq, and_true]
    omega
  · simp only [shift, mk.injEq, true_and]
    refine ⟨rfl, ?_⟩
    split <;> omega

theorem shift_after {place : Location} (h : 0 < place.line) (origin : Location) (s : List Char) :
    (place.after s).shift origin = (place.shift origin).after s := by
  induction s generalizing place with
  | nil => rfl
  | cons c s ih => rw [after_cons, after_cons, ih (line_next_pos h c), shift_next h]

theorem start_shift (s : List Char) : start.shift (start.after s) = start.after s := by
  have hline := line_after_pos (show 0 < start.line by decide) s
  have hcolumn := column_after_pos (show 0 < start.column by decide) s
  generalize start.after s = origin at hline hcolumn
  simp only [shift, start, if_true]
  cases origin
  simp only [mk.injEq] at *
  omega

/-- What lies behind one text in another lies behind both. -/
theorem shift_start_after (s t : List Char) :
    (start.after t).shift (start.after s) = start.after (s ++ t) := by
  rw [shift_after (by decide), start_shift, after_append]

end Location

/-! ### Reading -/

/-- The same token at another place. -/
def Token.shift (origin : Location) (token : Token) : Token :=
  { token with place := token.place.shift origin }

@[simp] theorem Token.kind_shift (origin : Location) (token : Token) : (token.shift origin).kind = token.kind :=
  rfl

@[simp] theorem Token.value_shift (origin : Location) (token : Token) :
    (token.shift origin).value = token.value := rfl

def ScanError.shift (origin : Location) (error : ScanError) : ScanError :=
  { error with place := error.place.shift origin }

def Mode.shift (origin : Location) : Mode → Mode
  | text => text
  | tag opened => tag (opened.shift origin)
  | comment opened => comment (opened.shift origin)

def Step.shift (origin : Location) : Step → Step
  | token kind value rest next => token kind value rest (next.shift origin)
  | finished => finished
  | failed cause place => failed cause (place.shift origin)

def Scan.shift (origin : Location) (scan : Scan) : Scan where
  tokens := scan.tokens.map (Token.shift origin)
  stop := scan.stop.shift origin
  error := scan.error.map (ScanError.shift origin)

namespace Mode

variable {d : Delimiters} (origin : Location)

theorem gap_shift (mode : Mode) (s : List Char) : (mode.shift origin).gap s = mode.gap s := by
  cases mode <;> rfl

theorem step_shift (mode : Mode) (here : Location) (s : List Char) :
    (mode.shift origin).step d (here.shift origin) s = (mode.step d here s).shift origin := by
  cases mode with
  | text =>
      cases s with
      | nil => rfl
      | cons c s =>
          simp only [shift, step]
          split
          · rfl
          · split <;> rfl
  | tag opened =>
      cases s with
      | nil => rfl
      | cons c s =>
          simp only [shift, step]
          split
          · rfl
          · split <;> rfl
  | comment opened =>
      simp only [shift, step]
      split
      · rfl
      · split <;> rfl

theorem scan_eq (mode : Mode) (start : Location) (s : List Char) :
    mode.scan d start s =
      match mode.step d (start.after (mode.gap s)) (s.drop (mode.gap s).length) with
      | .finished => ⟨[⟨.eof, "", start.after (mode.gap s)⟩], start.after (mode.gap s), none⟩
      | .failed cause place => ⟨[], start.after (mode.gap s), some ⟨cause, place⟩⟩
      | .token kind value rest next =>
          (next.scan d ((start.after (mode.gap s)).after value) rest).cons
            ⟨kind, String.ofList value, start.after (mode.gap s)⟩ := by
  rw [scan]
  split
  all_goals
    rename_i h
    rw [h]

/-- Reading a text from another place moves what comes of it. -/
theorem scan_shift {mode : Mode} {start : Location} (hline : 0 < start.line) (s : List Char) :
    (mode.shift origin).scan d (start.shift origin) s = (mode.scan d start s).shift origin := by
  fun_induction scan d mode start s with
  | case1 mode start s h | case2 mode start s cause place h =>
      rw [scan_eq, gap_shift, ← Location.shift_after hline, step_shift, h]
      rfl
  | case3 mode start s kind value rest next h ih =>
      have hhere := Location.line_after_pos hline (mode.gap s)
      have hrest := ih (Location.line_after_pos hhere value)
      rw [scan_eq, gap_shift, ← Location.shift_after hline, step_shift, h]
      simp only [Step.shift]
      rw [← Location.shift_after hhere, hrest]
      rfl

end Mode

theorem Piece.tokens_shift (origin : Location) {start : Location} (hline : 0 < start.line)
    (pieces : List Piece) :
    tokens (start.shift origin) pieces = (tokens start pieces).map (Token.shift origin) := by
  induction pieces generalizing start with
  | nil => rfl
  | cons piece pieces ih =>
      have hrest := ih (Location.line_after_pos hline piece.source)
      rw [tokens, tokens, List.map_cons, ← hrest, Location.shift_after hline]
      rw [Token.shift, Location.shift_after hline]

/-! ### Flaws -/

def SyntaxError.shift (origin : Location) (error : SyntaxError) : SyntaxError :=
  { error with token := error.token.shift origin }

def UserError.shift (origin : Location) : UserError → UserError
  | scan error => scan (error.shift origin)
  | grammar error => grammar (error.shift origin)
  | plain text => plain text

/-- The same failure under the same name, its reason with the place to which it has moved. -/
def ProcessingError.shift (origin : Location) (error : ProcessingError) : ProcessingError :=
  match error.cause with
  | none => error
  | some cause => ⟨(cause.shift origin).message, error.templateName, some (cause.shift origin)⟩

/-- The same fault with the place to which it has moved, if it has one. -/
def Fault.shift (origin : Location) : Fault → Fault
  | user error => user (error.shift origin)
  | processing error => processing (error.shift origin)
  | defect mistake => defect mistake

namespace Grammar

variable {disabled : List String} {tokens : List Token} (origin : Location)

theorem inner_map_shift (h : Inner tokens) : Inner (tokens.map (Token.shift origin)) := by
  intro token hmem
  obtain ⟨token', hmem', rfl⟩ := List.mem_map.1 hmem
  exact h token' hmem'

theorem isChain_map_shift_iff {names : List String} :
    ((tokens.map (Token.shift origin)).IsChain fun token next => ¬Marks names token next) ↔
      tokens.IsChain fun token next => ¬Marks names token next :=
  List.isChain_map _

theorem Choice.map_shift {letter : String} {random : Bool} (h : Choice tokens letter random) :
    Choice (tokens.map (Token.shift origin)) letter random := by
  cases h with
  | default => exact .default
  | mode hkind hvalue => exact .mode hkind hvalue
  | random hkind hvalue hkind' hvalue' => exact .random hkind hvalue hkind' hvalue'

theorem Arguments.map_shift {count : Int} {letter : String} {random : Bool}
    (h : Arguments tokens count letter random) :
    Arguments (tokens.map (Token.shift origin)) count letter random := by
  cases h with
  | uncounted hchoice => exact .uncounted (hchoice.map_shift origin)
  | counted hkind hread hchoice => exact .counted hkind hread (hchoice.map_shift origin)

theorem Construct.map_shift {node : Option Node} (h : Construct disabled tokens node) :
    ∃ node, Construct disabled (tokens.map (Token.shift origin)) node := by
  cases h with
  | data hkind => exact ⟨_, .data hkind⟩
  | @shortComment opening closing content hopening hcontent hclosing =>
      have hcontent' : ∀ body ∈ content.map (Token.shift origin), body.kind = .data := by
        simpa using hcontent
      have hsplit : (content.toList ++ [closing]).map (Token.shift origin) =
          (content.map (Token.shift origin)).toList ++ [closing.shift origin] := by
        cases content <;> rfl
      refine ⟨none, ?_⟩
      rw [List.map_cons, hsplit]
      exact .shortComment hopening hcontent' hclosing
  | @lorem opening name closing location arguments _ _ _ henabled hopening hname hvalue harguments hclosing
      hlocation =>
      have hlocation' : (arguments.map (Token.shift origin) ++ [closing.shift origin]).head? =
          some (location.shift origin) := by
        simpa using congrArg (Option.map (Token.shift origin)) hlocation
      have hconstruct : Construct disabled (opening.shift origin :: name.shift origin ::
          (arguments.map (Token.shift origin) ++ [closing.shift origin])) _ :=
        .lorem henabled hopening hname hvalue (harguments.map_shift origin) hclosing hlocation'
      exact ⟨_, by simpa using hconstruct⟩
  | @comment opening name closing opening' name' closing' body henabled hopening hname hvalue hclosing hbody
      hopening' hname' hvalue' hclosing' =>
      have hconstruct : Construct disabled (opening.shift origin :: name.shift origin :: closing.shift origin ::
          (body.map (Token.shift origin) ++
            [opening'.shift origin, name'.shift origin, closing'.shift origin])) _ :=
        .comment henabled hopening hname hvalue hclosing ((isChain_map_shift_iff origin).2 hbody) hopening' hname'
          hvalue' hclosing'
      exact ⟨_, by simpa using hconstruct⟩

theorem Derives.map_shift {nodes : List Node} (h : Derives disabled tokens nodes) :
    ∃ nodes, Derives disabled (tokens.map (Token.shift origin)) nodes := by
  induction h with
  | nil => exact ⟨[], .nil⟩
  | cons hconstruct _ _ ih =>
      obtain ⟨node, hconstruct⟩ := hconstruct.map_shift origin
      obtain ⟨nodes, hnodes⟩ := ih
      rw [List.map_append]
      exact hnodes.behind hconstruct

theorem Closed.map_shift (h : Closed tokens) : Closed (tokens.map (Token.shift origin)) := by
  obtain ⟨arguments, closing, rest, rfl, hclosing, hinner⟩ := h
  rw [List.map_append, List.map_cons]
  exact ⟨_, _, _, rfl, hclosing, inner_map_shift origin hinner⟩

theorem Misplaced.map_shift {token : Token} {complaint : Complaint} (h : Misplaced tokens token complaint) :
    Misplaced (tokens.map (Token.shift origin)) (token.shift origin) complaint := by
  cases h with
  | mode hkind hvalue => exact .mode hkind hvalue
  | argument hkind => exact .argument hkind
  | word hkind hvalue hword => exact .word hkind hvalue hword
  | extra hkind hvalue hkind' hvalue' => exact .extra hkind hvalue hkind' hvalue'

theorem Flaw.map_shift {inside rest : List Token} {token : Token} {fault : Fault}
    (h : Flaw disabled inside token rest fault) :
    Flaw disabled (inside.map (Token.shift origin)) (token.shift origin) (rest.map (Token.shift origin))
      (fault.shift origin) := by
  cases h with
  | statementName hopening hkind => exact .statementName hopening hkind
  | unknown hopening hname hunknown => exact .unknown hopening hname hunknown
  | count henabled hopening hname hvalue hkind hread hclosed =>
      exact .count henabled hopening hname hvalue hkind hread (hclosed.map_shift origin)
  | @arguments opening name _ count front _ _ henabled hopening hname hvalue hcount hfirst hmisplaced hkind
      hclosed =>
      have hsplit : (count.toList ++ front).map (Token.shift origin) =
          (count.map (Token.shift origin)).toList ++ front.map (Token.shift origin) := by
        cases count <;> simp
      have hclosed' := hclosed.map_shift origin
      rw [List.map_append, hsplit] at hclosed'
      rw [List.map_cons, List.map_cons, hsplit]
      refine .arguments henabled hopening hname hvalue (by simpa using hcount) ?_
        (hmisplaced.map_shift origin) hkind hclosed'
      simpa [← hsplit] using hfirst
  | unterminated henabled hopening hname hvalue hclosed hchain =>
      exact .unterminated henabled hopening hname hvalue (hclosed.map_shift origin)
        ((isChain_map_shift_iff origin).2 hchain)
  | commentArguments henabled hopening hname hvalue hkind hclosed hchain =>
      exact .commentArguments henabled hopening hname hvalue hkind (hclosed.map_shift origin)
        fun hchain' => hchain ((isChain_map_shift_iff origin).1 hchain')
  | commentEnd henabled hopening hname hvalue hclosing hbody hmarks hkind =>
      rw [List.map_cons, List.map_cons, List.map_cons, List.map_append]
      exact .commentEnd henabled hopening hname hvalue hclosing ((isChain_map_shift_iff origin).2 hbody) hmarks
        hkind

/-- Tokens at another place have the same flaw there. -/
theorem Flawed.map_shift {fault : Fault} (h : Flawed disabled tokens fault) :
    Flawed disabled (tokens.map (Token.shift origin)) (fault.shift origin) := by
  obtain ⟨before, nodes, inside, token, rest, rfl, hbefore, hflaw⟩ := h
  obtain ⟨nodes, hbefore⟩ := hbefore.map_shift origin
  exact ⟨_, nodes, _, _, _, by simp, hbefore, hflaw.map_shift origin⟩

end Grammar

end TagTemplate
