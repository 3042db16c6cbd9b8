import TagTemplate.Proofs.Composition

/-!
# Lines and columns

Places are counted on from token to token. Whatever lies in between, be it a line feed in a delimiter, a string
or a comment, the line and column of every token are those that one finds by looking at the text before it, and
so are those that a mistake is reported at.
-/

namespace TagTemplate

open Text (splitBefore_eq_iff)

namespace Location

variable {place : Location} {s text : List Char}

/-! ### Counting -/

theorem line_after (place : Location) (s : List Char) : (place.after s).line = place.line + s.count '\n' := by
  induction s generalizing place with
  | nil => rfl
  | cons c s ih =>
      rw [after_cons, ih, List.count_cons]
      by_cases hc : c = '\n'
      · simp [next, hc]
        omega
      · simp [next, hc]

theorem column_after_of_not_mem (h : '\n' ∉ s) : (place.after s).column = place.column + s.length := by
  induction s generalizing place with
  | nil => rfl
  | cons c s ih =>
      have hc : c ≠ '\n' := fun hc => h (by simp [hc])
      have hs : '\n' ∉ s := fun hs => h (List.mem_cons_of_mem c hs)
      rw [after_cons, ih hs, next, if_neg hc, List.length_cons, Nat.add_right_comm, Nat.add_assoc]

theorem column_after_of_break (before : List Char) (h : '\n' ∉ s) :
    (place.after (before ++ '\n' :: s)).column = s.length + 1 := by
  rw [after_append, after_cons, column_after_of_not_mem h, next, if_pos rfl]
  exact Nat.add_comm 1 _

/-! ### Looking at the text -/

/-- The last line feed of a text has the index `i`. -/
def IsLastBreak (s : List Char) (i : Nat) : Prop :=
  s[i]? = some '\n' ∧ ∀ j, i < j → s[j]? ≠ some '\n'

theorem IsLastBreak.eq_append {i : Nat} (h : IsLastBreak s i) :
    ∃ before after, s = before ++ '\n' :: after ∧ '\n' ∉ after ∧ i = before.length := by
  obtain ⟨hi, hlast⟩ := h
  obtain ⟨hlength, hget⟩ := List.getElem?_eq_some_iff.1 hi
  refine ⟨s.take i, s.drop (i + 1), ?_, ?_, ?_⟩
  · rw [← hget, ← List.drop_eq_getElem_cons hlength, List.take_append_drop]
  · intro hmem
    obtain ⟨j, hj⟩ := List.mem_iff_getElem?.1 hmem
    rw [List.getElem?_drop] at hj
    exact hlast (i + 1 + j) (by omega) hj
  · rw [List.length_take]
    omega

theorem exists_isLastBreak (h : '\n' ∈ s) : ∃ i, IsLastBreak s i := by
  obtain ⟨after, before, hs, hafter⟩ := List.eq_append_cons_of_mem (List.mem_reverse.2 h)
  obtain rfl : s = before.reverse ++ '\n' :: after.reverse := by
    rw [← List.reverse_reverse s, hs]
    simp
  refine ⟨before.reverse.length, by simp, fun j hj hget => hafter ?_⟩
  obtain ⟨k, rfl⟩ := Nat.exists_eq_add_of_lt hj
  rw [Nat.add_assoc, List.getElem?_append_right (Nat.le_add_right _ _), Nat.add_sub_cancel_left,
    List.getElem?_cons_succ] at hget
  exact List.mem_reverse.1 (List.mem_of_getElem? hget)

/-- A place of a text, with the line and column that the text before it gives it. -/
structure Exact (place : Location) (text : List Char) : Prop where
  offset_le : place.offset ≤ text.length
  line_eq : place.line = 1 + (text.take place.offset).count '\n'
  column_of_first : '\n' ∉ text.take place.offset → place.column = place.offset + 1
  column_of_later : ∀ i, IsLastBreak (text.take place.offset) i → place.column = place.offset - i

/-- What is counted along a text is what is found by looking at it. -/
theorem exact_start_after (h : s <+: text) : (start.after s).Exact text := by
  obtain ⟨rest, rfl⟩ := h
  have hoffset := offset_start_after s
  have htake : (s ++ rest).take (start.after s).offset = s := by
    rw [hoffset, List.take_left]
  refine ⟨?_, ?_, ?_, ?_⟩
  · rw [hoffset, List.length_append]
    exact Nat.le_add_right _ _
  · rw [htake, line_after]
    rfl
  · intro hfirst
    rw [htake] at hfirst
    rw [column_after_of_not_mem hfirst, hoffset]
    exact Nat.add_comm 1 _
  · intro i hi
    rw [htake] at hi
    obtain ⟨before, after, rfl, hafter, rfl⟩ := hi.eq_append
    rw [column_after_of_break before hafter, hoffset, List.length_append, List.length_cons]
    omega

/-- Looking at the text leaves one place only for an offset. -/
theorem Exact.eq_start_after (h : place.Exact text) : place = start.after (text.take place.offset) := by
  have hcounted := exact_start_after (List.take_prefix place.offset text)
  have hoffset : (start.after (text.take place.offset)).offset = place.offset := by
    rw [offset_start_after, List.length_take, Nat.min_eq_left h.offset_le]
  generalize start.after (text.take place.offset) = counted at hcounted hoffset
  have hline : place.line = counted.line := by
    rw [h.line_eq, hcounted.line_eq, hoffset]
  have hcolumn : place.column = counted.column := by
    by_cases hbreak : '\n' ∈ text.take place.offset
    · obtain ⟨i, hi⟩ := exists_isLastBreak hbreak
      rw [h.column_of_later i hi, hcounted.column_of_later i (hoffset.symm ▸ hi), hoffset]
    · rw [h.column_of_first hbreak, hcounted.column_of_first (hoffset.symm ▸ hbreak), hoffset]
  cases place
  cases counted
  simp_all

end Location

/-! ### The places of a reading -/

namespace Mode

variable {d : Delimiters} {mode next : Mode} {start here place : Location} {kind : TokenKind}
  {s value rest : List Char}

/-- Where the construct opens that is being read. -/
def opened? : Mode → Option Location
  | text => none
  | tag opened | comment opened => some opened

theorem of_delimiter_eq_token {kind' : TokenKind} {delimiter : String} (hbegins : delimiter.toList.isPrefixOf s = true)
    (h : Step.delimiter kind delimiter s mode = .token kind' value rest next) : s = value ++ rest ∧ mode = next := by
  obtain ⟨t, rfl⟩ := List.isPrefixOf_iff_prefix.1 hbegins
  rw [Step.delimiter, List.drop_left, Step.token.injEq] at h
  obtain ⟨-, rfl, rfl, hnext⟩ := h
  exact ⟨rfl, hnext⟩

/-- A step takes its token off the text, and what is open behind it was open before or opens with it. -/
theorem of_step_eq_token (h : mode.step d here s = .token kind value rest next) :
    s = value ++ rest ∧ ∀ place ∈ next.opened?, place = here ∨ place ∈ mode.opened? := by
  cases mode with
  | text =>
      cases s with
      | nil => simp [step] at h
      | cons c s =>
          simp only [step] at h
          split at h
          · rename_i hopens
            rw [Delimiters.opensTag, Bool.and_eq_true] at hopens
            obtain ⟨hs, rfl⟩ := of_delimiter_eq_token hopens.1 h
            exact ⟨hs, by simp [opened?]⟩
          · split at h
            · rename_i hopens
              rw [Delimiters.opensComment, Bool.and_eq_true] at hopens
              obtain ⟨hs, rfl⟩ := of_delimiter_eq_token hopens.1 h
              exact ⟨hs, by simp [opened?]⟩
            · simp only [Step.token.injEq] at h
              obtain ⟨-, hvalue, hrest, rfl⟩ := h
              exact ⟨(splitBefore_eq_iff.1 (Prod.ext hvalue hrest)).1, by simp [opened?]⟩
  | tag opened =>
      cases s with
      | nil => simp [step] at h
      | cons c s =>
          simp only [step] at h
          split at h
          · rename_i hends
            obtain ⟨hs, rfl⟩ := of_delimiter_eq_token hends h
            exact ⟨hs, by simp [opened?]⟩
          · split at h
            · rename_i hread
              simp only [Step.token.injEq] at h
              obtain ⟨-, rfl, rfl, rfl⟩ := h
              exact ⟨(Lexeme.read?_eq_some_iff.1 hread).1, fun place => .inr⟩
            · simp at h
  | comment opened =>
      simp only [step] at h
      split at h
      · rename_i hends
        obtain ⟨hs, rfl⟩ := of_delimiter_eq_token hends h
        exact ⟨hs, by simp [opened?]⟩
      · split at h
        · simp at h
        · rename_i hsplit
          simp only [Step.token.injEq] at h
          obtain ⟨-, rfl, rfl, rfl⟩ := h
          exact ⟨(splitBefore_eq_iff.1 hsplit).1, fun place => .inr⟩

/-- A step that fails blames what is open, or the place where it stands. -/
theorem of_step_eq_failed {cause : ScanError.Cause} (h : mode.step d here s = .failed cause place) :
    place = here ∨ place ∈ mode.opened? := by
  cases mode with
  | text =>
      cases s with
      | nil => simp [step] at h
      | cons c s =>
          simp only [step] at h
          split at h
          · simp [Step.delimiter] at h
          · split at h <;> simp [Step.delimiter] at h
  | tag opened =>
      cases s with
      | nil =>
          simp only [step, Step.failed.injEq] at h
          exact .inr (congrArg some h.2)
      | cons c s =>
          simp only [step] at h
          split at h
          · simp [Step.delimiter] at h
          · split at h
            · simp at h
            · simp only [Step.failed.injEq] at h
              exact .inl h.2.symm
  | comment opened =>
      simp only [step] at h
      split at h
      · simp [Step.delimiter] at h
      · split at h
        · simp only [Step.failed.injEq] at h
          exact .inr (congrArg some h.2)
        · simp at h

theorem gap_isPrefix (mode : Mode) (s : List Char) : mode.gap s <+: s := by
  cases mode with
  | text | comment => exact List.nil_prefix
  | tag => exact List.takeWhile_prefix _

theorem append_of_step_eq_token (h : mode.step d here (s.drop (mode.gap s).length) = .token kind value rest next) :
    mode.gap s ++ (value ++ rest) = s := by
  obtain ⟨hvalue, -⟩ := of_step_eq_token h
  rw [← hvalue]
  exact List.prefix_iff_eq_append.1 (gap_isPrefix mode s)

/-- What is true of every place from the start of a text on, and of the place where something is open there, is
true of every place that reading the text brings up, and of the place where it stops. -/
theorem forall_place_scan {P : Location → Prop} (hopened : ∀ place ∈ mode.opened?, P place)
    (hfront : ∀ front, front <+: s → P (start.after front)) :
    ((∀ token ∈ (mode.scan d start s).tokens, P token.place) ∧
      ∀ error ∈ (mode.scan d start s).error, P error.place) ∧ P (mode.scan d start s).stop := by
  fun_induction scan d mode start s with
  | case1 mode start s hstep =>
      have hstop := hfront _ (gap_isPrefix mode s)
      exact ⟨⟨by simpa using hstop, by simp⟩, hstop⟩
  | case2 mode start s cause place hstep =>
      refine ⟨⟨by simp, ?_⟩, hfront _ (gap_isPrefix mode s)⟩
      rintro _ ⟨⟩
      rcases of_step_eq_failed hstep with rfl | hplace
      · exact hfront _ (gap_isPrefix mode s)
      · exact hopened place hplace
  | case3 mode start s kind value rest next hstep ih =>
      obtain ⟨-, hnext⟩ := of_step_eq_token hstep
      have hopened' : ∀ place ∈ next.opened?, P place := by
        intro place hplace
        rcases hnext place hplace with rfl | hplace
        · exact hfront _ (gap_isPrefix mode s)
        · exact hopened place hplace
      have hfront' : ∀ front, front <+: rest → P (((start.after (mode.gap s)).after value).after front) := by
        intro front hbegins
        rw [← Location.after_append, ← Location.after_append]
        have hwhole := (List.prefix_append_right_inj (mode.gap s)).2 ((List.prefix_append_right_inj value).2 hbegins)
        rw [append_of_step_eq_token hstep] at hwhole
        exact hfront _ hwhole
      obtain ⟨⟨htokens, herror⟩, hstop⟩ := ih hopened' hfront'
      refine ⟨⟨?_, herror⟩, hstop⟩
      intro token hmem
      rcases List.mem_cons.1 hmem with rfl | hmem
      · exact hfront _ (gap_isPrefix mode s)
      · exact htokens token hmem

end Mode

/-- Every token of a text, and the mistake that keeps it from being read, is placed exactly. -/
theorem Delimiters.exact_scan (d : Delimiters) (text : String) :
    (∀ token ∈ (d.scan text).tokens, token.place.Exact text.toList) ∧
      ∀ error ∈ (d.scan text).error, error.place.Exact text.toList :=
  (@Mode.forall_place_scan d .text Location.start text.toList (·.Exact text.toList) (by simp [Mode.opened?])
    fun _ => Location.exact_start_after).1

theorem Delimiters.exact_stop_scan (d : Delimiters) (text : String) : (d.scan text).stop.Exact text.toList :=
  (@Mode.forall_place_scan d .text Location.start text.toList (·.Exact text.toList) (by simp [Mode.opened?])
    fun _ => Location.exact_start_after).2

/-! ### The places of mistakes -/

namespace UserError

/-- Where a mistake is, if that is known. -/
def place? : UserError → Option Location
  | scan error => some error.place
  | grammar error => some error.token.place
  | plain _ => none

theorem exists_message {cause : UserError} {place : Location} (h : cause.place? = some place) :
    ∃ what, cause.message = what ++ " at " ++ place.text := by
  cases cause with
  | scan error =>
      obtain rfl := Option.some.inj h
      exact ⟨error.cause.text, rfl⟩
  | grammar error =>
      obtain rfl := Option.some.inj h
      exact ⟨error.complaint.text, rfl⟩
  | plain text => simp [place?] at h

end UserError

theorem Delimiters.Reads.exact {d : Delimiters} {parts : List Part} {text : String}
    (h : d.Reads parts text.toList []) {token : Token} (hmem : token ∈ Part.tokens d Location.start parts) :
    token.place.Exact text.toList := by
  have hscan : (d.scan text).tokens = Part.tokens d Location.start parts ++
      [⟨.eof, "", Location.start.after (Part.sources d parts)⟩] := by
    rw [Delimiters.scan, Mode.scan_of_reads h, Mode.scan_finished]
    rfl
  apply (d.exact_scan text).1
  rw [hscan]
  exact List.mem_append_left _ hmem

/-- What keeps a text from being compiled has an exact place in it, if it can be mended there. -/
theorem Fails.exact {disabled : List String} {d : Delimiters} {text : String} {fault : Fault}
    (h : Fails disabled d Location.start text.toList fault) :
    (∃ cause place, fault = .user cause ∧ cause.place? = some place ∧ place.Exact text.toList) ∨
      ∃ mistake, fault = .defect mistake := by
  cases h with
  | @read error herror => exact .inl ⟨.scan error, _, rfl, rfl, (d.exact_scan text).2 error herror⟩
  | recognise hreads hflawed =>
      obtain ⟨before, nodes, inside, token, rest, htokens, -, hflaw⟩ := hflawed
      rcases hflaw.fault_cases with ⟨kind, complaint, rfl⟩ | ⟨error, rfl, -⟩
      · exact .inl ⟨.grammar ⟨kind, complaint, token⟩, _, rfl, rfl, hreads.exact (by simp [htokens])⟩
      · exact .inr ⟨_, rfl⟩

/-- Whatever a text is read with, the tokens and the mistake that stops reading are at the lines and columns that
one counts in the text. So is every mistake that is reported when the text is compiled, and its reason ends with
the line and column. -/
theorem exact_of_scan_and_compile (config : Config) (text name : String) :
    (∀ token ∈ (config.delimiters.scan text).tokens, token.place.Exact text.toList) ∧
    (∀ error ∈ (config.delimiters.scan text).error, error.place.Exact text.toList) ∧
    ∀ error, (Compiler.ofConfig config).compile text name = .error (.processing error) →
      ∃ cause place what, error.cause = some cause ∧ cause.place? = some place ∧ place.Exact text.toList ∧
        error.reason = cause.message ∧
        cause.message = what ++ " at " ++ (toString place.line ++ ":" ++ toString place.column) := by
  obtain ⟨htokens, herror⟩ := config.delimiters.exact_scan text
  refine ⟨htokens, herror, ?_⟩
  intro error hcompile
  obtain ⟨fault, hfails, hfault⟩ := exists_fails_of_compile hcompile
  rcases hfails.exact with ⟨cause, place, rfl, hplace, hexact⟩ | ⟨mistake, rfl⟩
  · obtain rfl := Fault.processing.inj hfault
    obtain ⟨what, hmessage⟩ := UserError.exists_message hplace
    exact ⟨cause, place, what, rfl, hplace, hexact, rfl, hmessage⟩
  · cases hfault

/-- Line feeds in a delimiter, in a string and between lexemes, before a mistake in the arguments of a tag, and in
a comment before a tag that is not closed. -/
theorem exact_of_scan_and_compile_line_feeds :
    ∃ config : Config, config.delimiters.blockStart = "<\n" ∧
      (∃ error cause, (Compiler.ofConfig config).compile "a<\nlorem '\n'\n  >" "t" = .error (.processing error) ∧
        error.cause = some cause ∧ cause.place? = some ⟨9, 2, 7⟩ ∧
        Location.Exact ⟨9, 2, 7⟩ "a<\nlorem '\n'\n  >".toList ∧
        ∃ what, error.reason = what ++ " at " ++ (toString 2 ++ ":" ++ toString 7)) ∧
      ∃ error ∈ (config.delimiters.scan "<!\n!>b<\nx").error,
        error.place = ⟨6, 2, 4⟩ ∧ error.place.Exact "<!\n!>b<\nx".toList := by
  refine ⟨{ delimiters := ⟨"<\n", ">", "<!", "!>", by decide, by decide, by decide, by decide, by decide⟩ }, rfl,
    ?_, ?_⟩
  · have hnodes : (Compiler.ofConfig { delimiters := ⟨"<\n", ">", "<!", "!>", by decide, by decide, by decide,
        by decide, by decide⟩ }).nodesOf "a<\nlorem '\n'\n  >" =
        .error (.grammar .malformedArguments .loremArguments ⟨.string, "'\n'", ⟨9, 2, 7⟩⟩) := by
      cbv
    have hcompile : (Compiler.ofConfig { delimiters := ⟨"<\n", ">", "<!", "!>", by decide, by decide, by decide,
        by decide, by decide⟩ }).compile "a<\nlorem '\n'\n  >" "t" = .error (Compiler.underName "t"
        (.grammar .malformedArguments .loremArguments ⟨.string, "'\n'", ⟨9, 2, 7⟩⟩)) := by
      rw [Compiler.compile, hnodes]
    obtain ⟨cause, place, what, hcause, hplace, hexact, hreason, hmessage⟩ :=
      (exact_of_scan_and_compile _ _ _).2.2 _ hcompile
    obtain rfl := Option.some.inj hcause
    obtain rfl := Option.some.inj hplace
    exact ⟨_, _, hcompile, rfl, rfl, hexact, what, hreason.trans hmessage⟩
  · have herror : (Delimiters.scan ⟨"<\n", ">", "<!", "!>", by decide, by decide, by decide, by decide, by decide⟩
        "<!\n!>b<\nx").error = some ⟨.unclosedTag ">", ⟨6, 2, 4⟩⟩ := by
      cbv
    obtain ⟨-, hexact, -⟩ := exact_of_scan_and_compile
      { delimiters := ⟨"<\n", ">", "<!", "!>", by decide, by decide, by decide, by decide, by decide⟩ }
      "<!\n!>b<\nx" "t"
    exact ⟨_, herror, rfl, hexact _ herror⟩

end TagTemplate
