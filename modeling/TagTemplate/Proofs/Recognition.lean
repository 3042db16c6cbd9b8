import TagTemplate.Proofs.Cursor
import TagTemplate.Recognition

/-!
# What recognition takes

A short comment or a tag is recognised exactly if the tokens ahead of the cursor start with one. Of a tag
this is said for any reader: what its reader makes of the arguments is left open.
-/

namespace TagTemplate

variable {cursor cursor' : Cursor}

theorem skipShortComment_eq_ok_iff (h : cursor.Placed) :
    skipShortComment cursor = .ok () cursor' ↔
      ∃ (opening : Token) (content : Option Token) (closing : Token) (rest : List Token),
        cursor.ahead = opening :: (content.toList ++ closing :: rest) ∧ opening.kind = .commentBegin ∧
          (∀ body ∈ content, body.kind = .data) ∧ closing.kind = .commentEnd ∧
          cursor' = cursor.skip (content.toList.length + 2) := by
  rw [skipShortComment, bind_eq_ok_iff]
  constructor
  · rintro ⟨opening, cursor₁, hopening, hok⟩
    obtain ⟨tokens, hahead, hkind, rfl⟩ := (Cursor.expect_eq_ok_iff h).1 hopening
    have h₁ := h.skip 1
    have hahead₁ := Cursor.ahead_skip_one h hahead
    obtain ⟨content, cursor₂, hcontent, hok⟩ := bind_eq_ok_iff.1 hok
    obtain ⟨closing, cursor₃, hclosing, hok⟩ := bind_eq_ok_iff.1 hok
    obtain ⟨-, rfl⟩ := pure_eq_ok_iff.1 hok
    cases content with
    | none =>
        obtain ⟨rfl, -⟩ := (Cursor.take?_eq_none_iff h₁).1 hcontent
        obtain ⟨rest, hrest, hkind', rfl⟩ := (Cursor.expect_eq_ok_iff h₁).1 hclosing
        refine ⟨opening, none, closing, rest, ?_, hkind, by simp, hkind', Cursor.skip_skip⟩
        rw [hahead, ← hahead₁, hrest]
        rfl
    | some body =>
        obtain ⟨tokens', htokens, hbody, rfl⟩ := (Cursor.take?_eq_some_iff h₁).1 hcontent
        obtain ⟨rest, hrest, hkind', rfl⟩ := (Cursor.expect_eq_ok_iff (h₁.skip 1)).1 hclosing
        refine ⟨opening, some body, closing, rest, ?_, hkind, by simpa using hbody, hkind', by simp⟩
        rw [hahead, ← hahead₁, htokens, ← Cursor.ahead_skip_one h₁ htokens, hrest]
        rfl
  · rintro ⟨opening, content, closing, rest, hahead, hkind, hcontent, hclosing, rfl⟩
    have h₁ := h.skip 1
    have hahead₁ := Cursor.ahead_skip_one h hahead
    refine ⟨opening, _, (Cursor.expect_eq_ok_iff h).2 ⟨_, hahead, hkind, rfl⟩, ?_⟩
    cases content with
    | none =>
        have htake : Cursor.take? [.data] (cursor.skip 1) = .ok none (cursor.skip 1) := by
          refine (Cursor.take?_eq_none_iff h₁).2 ⟨rfl, fun token hhead hdata => ?_⟩
          rw [hahead₁] at hhead
          rw [← Option.some.inj hhead, hclosing] at hdata
          exact absurd hdata (by decide)
        rw [bind_of_ok htake, bind_of_ok ((Cursor.expect_eq_ok_iff h₁).2 ⟨rest, hahead₁, hclosing, rfl⟩)]
        rw [Cursor.skip_skip]
        rfl
    | some body =>
        have htake := (Cursor.take?_eq_some_iff h₁).2 ⟨_, hahead₁, hcontent body rfl, rfl⟩
        have hahead₂ := Cursor.ahead_skip_one h₁ hahead₁
        rw [bind_of_ok htake,
          bind_of_ok ((Cursor.expect_eq_ok_iff (h₁.skip 1)).2 ⟨rest, hahead₂, hclosing, rfl⟩)]
        rw [Cursor.skip_skip, Cursor.skip_skip]
        rfl

theorem readTag_eq_ok_iff {reader : Tag.Reader} {nested : Tag.Nested} {name : String}
    {close : Int} {statement : Statement} :
    readTag reader nested name close cursor = .ok statement cursor' ↔
      ∃ scope, reader nested ⟨cursor, cursor.sub cursor.position close⟩ = .ok (.statement statement) scope ∧
        cursor' = { cursor with position := max scope.outer.position close } := by
  rw [readTag]
  constructor
  · intro hok
    split at hok
    · rename_i statement' scope hread
      simp only [EStateM.Result.ok.injEq] at hok
      obtain ⟨rfl, rfl⟩ := hok
      exact ⟨scope, hread, rfl⟩
    · simp at hok
    · simp at hok
  · rintro ⟨scope, hread, rfl⟩
    rw [hread]

variable {registry : Registry Tag.Reader} {nested : Tag.Nested} {node : Node}

/-- A tag is recognised exactly if its arguments end before any other tag opens, the registry has a reader
for its name, and a delimiter that closes a tag stands where the reader stopped. -/
theorem recogniseBlock_eq_ok_iff (h : cursor.Placed) :
    recogniseBlock registry nested cursor = .ok node cursor' ↔
      ∃ opening name arguments closing rest reader statement reached ending,
        cursor.ahead = opening :: name :: (arguments ++ closing :: rest) ∧
          opening.kind = .blockBegin ∧ name.kind = .name ∧ closing.kind = .blockEnd ∧
          Cursor.Inner arguments ∧ registry.lookup name.value = some reader ∧
          readTag reader nested name.value ((cursor.skip 2).position + arguments.length) (cursor.skip 2) =
            .ok statement reached ∧
          Cursor.expect .blockEnd (some (.expectedEndOfTag name.value)) reached = .ok ending cursor' ∧
          node = .block opening name.value statement := by
  rw [recogniseBlock, bind_eq_ok_iff]
  constructor
  · rintro ⟨opening, cursor₁, hopening, hok⟩
    obtain ⟨tokens, hahead, hkind, rfl⟩ := (Cursor.expect_eq_ok_iff h).1 hopening
    obtain ⟨name?, cursor₂, hname, hok⟩ := bind_eq_ok_iff.1 hok
    cases name? with
    | none =>
        obtain ⟨rfl, -⟩ := (Cursor.take?_eq_none_iff (h.skip 1)).1 hname
        simp [Cursor.refuse_apply (h.skip 1)] at hok
    | some name =>
        obtain ⟨tokens', htokens, hkind', rfl⟩ := (Cursor.take?_eq_some_iff (h.skip 1)).1 hname
        have hahead' := Cursor.ahead_skip_one (h.skip 1) htokens
        rw [Cursor.ahead_skip_one h hahead] at htokens
        rw [Cursor.skip_skip] at hok hahead'
        cases hreader : registry.lookup name.value with
        | none => simp [hreader] at hok
        | some reader =>
            simp only [hreader] at hok
            obtain ⟨close?, cursor₃, hclose, hok⟩ := bind_eq_ok_iff.1 hok
            cases close? with
            | none => simp at hok
            | some close =>
                obtain ⟨rfl, arguments, closing, rest, hrest, rfl, hclosing, hinner⟩ :=
                  (Cursor.closing?_eq_some_iff (h.skip 2)).1 hclose
                obtain ⟨statement, reached, hread, hok⟩ := bind_eq_ok_iff.1 hok
                obtain ⟨ending, cursor₄, hending, hok⟩ := bind_eq_ok_iff.1 hok
                obtain ⟨rfl, rfl⟩ := pure_eq_ok_iff.1 hok
                refine ⟨opening, name, arguments, closing, rest, reader, statement, reached, ending, ?_,
                  hkind, hkind', hclosing, hinner, hreader, hread, hending, rfl⟩
                rw [hahead, htokens, ← hahead', hrest]
  · rintro ⟨opening, name, arguments, closing, rest, reader, statement, reached, ending, hahead, hkind,
      hkind', hclosing, hinner, hreader, hread, hending, rfl⟩
    have hahead₁ := Cursor.ahead_skip_one h hahead
    have hahead₂ := Cursor.ahead_skip_one (h.skip 1) hahead₁
    rw [Cursor.skip_skip] at hahead₂
    have hclose := (Cursor.closing?_eq_some_iff (h.skip 2)).2
      ⟨rfl, arguments, closing, rest, hahead₂, rfl, hclosing, hinner⟩
    refine ⟨opening, _, (Cursor.expect_eq_ok_iff h).2 ⟨_, hahead, hkind, rfl⟩, ?_⟩
    rw [bind_of_ok ((Cursor.take?_eq_some_iff (h.skip 1)).2 ⟨_, hahead₁, hkind', rfl⟩), Cursor.skip_skip]
    simp only [hreader, bind_of_ok hclose, bind_of_ok hread, bind_of_ok hending]
    rfl

end TagTemplate
