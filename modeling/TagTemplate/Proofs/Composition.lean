import TagTemplate.Proofs.Failure
import TagTemplate.Proofs.Seam
import TagTemplate.Proofs.Shift

/-!
# Templates one after the other

A text that compiles can have any text behind it, unless the two make a delimiter where they meet. What comes
of both is what comes of the first and then of the second: the output of one behind that of the other, from
one source of randomness, or the fault of the second at its place in the whole.
-/

namespace TagTemplate

open Grammar
open Text (Clear)

variable {disabled : List String} {d : Delimiters} {parts parts' : List Part} {meaning meaning' : Draw String}

/-! ### Failing -/

/-- Why a text that starts at a place does not compile: it cannot be read, or its tokens have a flaw. -/
inductive Fails (disabled : List String) (d : Delimiters) (place : Location) (s : List Char) : Fault → Prop
  | read {error : ScanError} :
      (Mode.text.scan d place s).error = some error → Fails disabled d place s (.user (.scan error))
  | recognise {parts : List Part} {fault : Fault} :
      d.Reads parts s [] → Flawed disabled (Part.tokens d place parts) fault → Fails disabled d place s fault

theorem fails_or_means (disabled : List String) (d : Delimiters) (place : Location) (s : List Char) :
    (∃ fault, Fails disabled d place s fault) ∨
      ∃ parts meaning, d.Reads parts s [] ∧ Means disabled parts meaning := by
  cases herror : (Mode.text.scan d place s).error with
  | some error => exact .inl ⟨_, .read herror⟩
  | none =>
      obtain ⟨parts, hreads⟩ := Mode.reads_of_error_eq_none herror
      rcases @derives_or_flawed disabled d place parts hreads.lexical with ⟨nodes, hderives⟩ | ⟨fault, hflawed⟩
      · obtain ⟨meaning, hmeans⟩ := exists_means_of_derives hreads.lexical hderives
        exact .inr ⟨parts, meaning, hreads, hmeans⟩
      · exact .inl ⟨fault, .recognise hreads hflawed⟩

namespace Fails

variable {place : Location} {s t : List Char} {fault : Fault}

/-- At another place a text fails for the same reason, which has moved with it. -/
theorem shift (h : Fails disabled d place s fault) (hline : 0 < place.line) (origin : Location) :
    Fails disabled d (place.shift origin) s (fault.shift origin) := by
  cases h with
  | read herror =>
      have hscan := @Mode.scan_shift d origin .text place hline s
      refine .read ?_
      rw [show Mode.text = Mode.text.shift origin from rfl, hscan, Scan.shift, herror]
      rfl
  | recognise hreads hflawed =>
      refine .recognise hreads ?_
      rw [Part.tokens, Piece.tokens_shift origin hline]
      exact hflawed.map_shift origin

/-- A text fails if what stands behind parts of it that mean something fails. -/
theorem behind (h : Fails disabled d (place.after (Part.sources d parts)) t fault)
    (hreads : d.Reads parts s t) (hmeans : Means disabled parts meaning) : Fails disabled d place s fault := by
  cases h with
  | read herror =>
      refine .read ?_
      rw [Mode.scan_of_reads hreads, Scan.error_behind, herror]
  | recognise hrest hflawed =>
      obtain ⟨nodes, hderives, -⟩ := hmeans.exists_derives hreads.lexical d place
      obtain ⟨before, nodes', inside, token, rest, htokens, hbefore, hflaw⟩ := hflawed
      obtain ⟨nodes'', hfront⟩ := hderives.append hbefore
      refine .recognise (hreads.append hrest) ⟨_, nodes'', inside, token, rest, ?_, hfront, hflaw⟩
      rw [Part.tokens_append, htokens, List.append_assoc]

theorem nodesOf {config : Config} {text : String}
    (h : Fails config.disabled config.delimiters Location.start text.toList fault) :
    (Compiler.ofConfig config).nodesOf text = .error fault := by
  cases h with
  | @read error herror =>
      have hscan : (config.delimiters.scan text).outcome = .error error := by
        rw [Delimiters.scan, Scan.outcome, herror]
      rw [Compiler.nodesOf, Compiler.scan, Compiler.ofConfig, hscan]
  | recognise hreads hflawed => exact Compiler.nodesOf_of_flawed config hreads hflawed

end Fails

theorem underName_shift (name : String) (origin : Location) (fault : Fault) :
    Compiler.underName name (fault.shift origin) = (Compiler.underName name fault).shift origin := by
  cases fault <;> rfl

/-! ### Meaning -/

theorem Means.append (h : Means disabled parts meaning) (h' : Means disabled parts' meaning') :
    Means disabled (parts ++ parts') (do
      let output ← meaning
      let output' ← meaning'
      return output ++ output') := by
  induction h with
  | nil => simpa only [List.nil_append, pure_bind, String.empty_append, bind_pure] using h'
  | text _ ih => simpa only [List.cons_append, bind_assoc, pure_bind, String.append_assoc] using ih.text
  | shortComment _ ih => exact ih.shortComment
  | lorem henabled hname hvalue harguments _ ih =>
      simpa only [List.cons_append, bind_assoc, pure_bind, String.append_assoc] using
        ih.lorem henabled hname hvalue harguments
  | comment henabled hname hvalue hbody hendName hendValue _ ih =>
      simpa only [List.cons_append, List.append_assoc] using
        ih.comment henabled hname hvalue hbody hendName hendValue

/-- Plain text at the end of parts that mean something can be taken off. -/
theorem Means.exists_of_append_text {value : List Char} (h : Means disabled (parts ++ [.text value]) meaning) :
    ∃ meaning', Means disabled parts meaning' ∧ meaning = (do
      let output ← meaning'
      return output ++ String.ofList value) := by
  generalize hall : parts ++ [Part.text value] = all at h
  induction h generalizing parts with
  | nil => simp at hall
  | @text value' rest _ hrest ih =>
      rcases List.append_eq_cons_iff.1 hall with ⟨rfl, hlast⟩ | ⟨parts, rfl, htail⟩
      · obtain ⟨hvalue, rfl⟩ := List.cons.inj hlast
        obtain rfl := Part.text.inj hvalue
        cases hrest with
        | nil => exact ⟨_, .nil, by simp⟩
      · obtain ⟨meaning', hmeans, rfl⟩ := ih htail.symm
        exact ⟨_, hmeans.text, by simp [String.append_assoc]⟩
  | shortComment _ ih =>
      obtain ⟨parts, rfl, htail⟩ := (List.append_eq_cons_iff.1 hall).resolve_left (by simp)
      obtain ⟨meaning', hmeans, rfl⟩ := ih htail.symm
      exact ⟨_, hmeans.shortComment, rfl⟩
  | lorem henabled hname hvalue harguments _ ih =>
      obtain ⟨parts, rfl, htail⟩ := (List.append_eq_cons_iff.1 hall).resolve_left (by simp)
      obtain ⟨meaning', hmeans, rfl⟩ := ih htail.symm
      exact ⟨_, hmeans.lorem henabled hname hvalue harguments, by simp [String.append_assoc]⟩
  | comment henabled hname hvalue hbody hendName hendValue _ ih =>
      obtain ⟨parts, rfl, htail⟩ := (List.append_eq_cons_iff.1 hall).resolve_left (by simp)
      -- The text stands behind the tag that ends the comment, so it is not taken from the body.
      rcases List.append_eq_append_iff.1 htail.symm with ⟨more, rfl, hmore⟩ | ⟨more, rfl, hmore⟩
      · cases more <;> simp at hmore
      · obtain ⟨more, rfl, hrest⟩ := (List.append_eq_cons_iff.1 hmore.symm).resolve_left (by simp)
        obtain ⟨meaning', hmeans, rfl⟩ := ih hrest.symm
        exact ⟨_, hmeans.comment henabled hname hvalue hbody hendName hendValue, rfl⟩

/-! ### Across the seam -/

/-- Plain text as a part, or no part if there is none. -/
def Part.plain : List Char → List Part
  | [] => []
  | c :: value => [.text (c :: value)]

namespace Part

theorem sources_plain (value : List Char) : sources d (plain value) = value := by
  cases value with
  | nil => rfl
  | cons c value => rw [plain, sources_cons, source_text, sources_nil, List.append_nil]

theorem means_plain (disabled : List String) (value : List Char) :
    Means disabled (plain value) (pure (String.ofList value)) := by
  cases value with
  | nil => exact .nil
  | cons c value =>
      have hmeans : Means disabled [.text (c :: value)] _ := .text .nil
      rwa [pure_bind, String.append_empty] at hmeans

theorem reads_plain {value rest : List Char} (hclear : Clear d.Opens value rest)
    (hrest : rest = [] ∨ d.Opens rest) : d.Reads (plain value) (value ++ rest) rest := by
  cases value with
  | nil => exact .done
  | cons c value => exact .text (List.cons_ne_nil c value) hclear hrest

end Part

/-- A text that has a meaning consists of parts that stay what they are, whatever follows them, and of plain
text in which nothing opens. -/
theorem exists_front {s : List Char} (hreads : Delimiters.standard.Reads parts s [])
    (hmeans : Means disabled parts meaning) :
    ∃ front last output, s = Part.sources .standard front ++ last ∧ Clear Delimiters.standard.Opens last [] ∧
      Means disabled front output ∧ meaning = (do
        let output ← output
        return output ++ String.ofList last) ∧
      ∀ more, Delimiters.standard.Reads front (s ++ more) (last ++ more) := by
  rcases List.eq_nil_or_concat' parts with rfl | ⟨front, part, rfl⟩
  · exact ⟨[], [], _, hreads.eq_append, Clear.nil, hmeans, by simp, fun _ => hreads.extend (by simp)⟩
  cases part with
  | text value =>
      obtain ⟨t, hfront, hlast⟩ := hreads.exists_of_append
      obtain ⟨output, hmeans', rfl⟩ := hmeans.exists_of_append_text
      cases hlast with
      | part hstands hrest =>
          cases hrest with
          | done =>
              rw [Part.source_text, List.append_nil] at hfront
              refine ⟨front, value, output, hfront.eq_append, hstands.2.1, hmeans', rfl, fun more => ?_⟩
              exact hfront.extend fun hnil => absurd hnil hstands.1
  | comment content | tag lexemes gap =>
      refine ⟨_, [], _, hreads.eq_append, Clear.nil, hmeans, by simp, fun more => ?_⟩
      exact hreads.extend (by simp)

/-- Two texts that meet: the first is parts and plain text, the second plain text and a rest, and the plain
text in the middle is one in the whole. -/
theorem exists_seam {s t : List Char} (hreads : Delimiters.standard.Reads parts s [])
    (hmeans : Means disabled parts meaning) (happart : Apart s t) :
    ∃ front last value rest output, s = Part.sources .standard front ++ last ∧
      Delimiters.standard.Reads (Part.plain value) t rest ∧
      Delimiters.standard.Reads (front ++ Part.plain (last ++ value)) (s ++ t) rest ∧
      Means disabled front output ∧ meaning = (do
        let output ← output
        return output ++ String.ofList last) := by
  obtain ⟨front, last, output, hs, hlast, hfront, houtput, hextend⟩ := exists_front hreads hmeans
  obtain ⟨value, rest, hsplit⟩ : ∃ value rest, Text.splitBefore Delimiters.standard.opens t = (value, rest) :=
    ⟨_, _, rfl⟩
  obtain ⟨rfl, hclear, hrest⟩ := Text.splitBefore_eq_iff.1 hsplit
  replace hclear := hclear.mono fun _ => Delimiters.opens_iff.2
  replace hrest := hrest.imp id Delimiters.opens_iff.1
  have hjoined := (hlast.opens_of_apart (hs ▸ happart).of_append).join hclear
  refine ⟨front, last, value, rest, output, hs, Part.reads_plain hclear hrest, ?_, hfront, houtput⟩
  refine (hextend (value ++ rest)).append ?_
  rw [← List.append_assoc]
  exact Part.reads_plain hjoined hrest

section Compile

variable {config : Config} {text name : String} {template : Template}

theorem compile_of_fails {fault : Fault}
    (h : Fails config.disabled config.delimiters Location.start text.toList fault) :
    (Compiler.ofConfig config).compile text name = .error (Compiler.underName name fault) := by
  rw [Compiler.compile, h.nodesOf]

theorem exists_fails_of_compile {fault : Fault}
    (h : (Compiler.ofConfig config).compile text name = .error fault) :
    ∃ fault', Fails config.disabled config.delimiters Location.start text.toList fault' ∧
      fault = Compiler.underName name fault' := by
  rcases fails_or_means config.disabled config.delimiters Location.start text.toList with
    ⟨fault', hfails⟩ | ⟨parts, meaning, hreads, hmeans⟩
  · rw [compile_of_fails hfails] at h
    exact ⟨fault', hfails, (Except.error.inj h).symm⟩
  · obtain ⟨template, htemplate, -⟩ := compile_of_means name hreads hmeans
    rw [htemplate] at h
    cases h

/-- Rendering what compiles gives the meaning of the parts. -/
theorem renderFrom_of_compile (h : (Compiler.ofConfig config).compile text name = .ok template)
    (hreads : config.delimiters.Reads parts text.toList []) (hmeans : Means config.disabled parts meaning)
    (source : Twister) : template.renderFrom source = ⟨.ok (meaning source).1, (meaning source).2⟩ := by
  obtain ⟨template', htemplate, hrender⟩ := compile_of_means name hreads hmeans
  obtain rfl : template = template' := Except.ok.inj (h.symm.trans htemplate)
  exact hrender (some source) source

end Compile

/-- A text that compiles, with another one behind it. The whole compiles if the other does, and renders to what
the one renders to and then the other, which goes on with the source that the one leaves. Otherwise the whole
fails as the other does, with every place moved behind the one. -/
theorem compile_append (config : Config) (hstandard : config.delimiters = .standard) (a b name : String)
    (template : Template) (ha : (Compiler.ofConfig config).compile a name = .ok template)
    (happart : Apart a.toList b.toList) :
    ((∃ whole, (Compiler.ofConfig config).compile (a ++ b) name = .ok whole) ↔
      ∃ template', (Compiler.ofConfig config).compile b name = .ok template') ∧
    (∀ template' whole, (Compiler.ofConfig config).compile b name = .ok template' →
      (Compiler.ofConfig config).compile (a ++ b) name = .ok whole → ∀ source,
        ∃ output output', (template.renderFrom source).outcome = .ok output ∧
          (template'.renderFrom (template.renderFrom source).source).outcome = .ok output' ∧
          whole.renderFrom source =
            ⟨.ok (output ++ output'), (template'.renderFrom (template.renderFrom source).source).source⟩) ∧
    ∀ fault, (Compiler.ofConfig config).compile b name = .error fault →
      (Compiler.ofConfig config).compile (a ++ b) name =
        .error (fault.shift (Location.start.after a.toList)) := by
  obtain ⟨partsA, meaningA, hreadsA, hmeansA⟩ := exists_means_of_compile ha
  obtain ⟨front, last, value, rest, output, hsource, hreadsB, hreadsAB, hfront, rfl⟩ :=
    exists_seam (hstandard ▸ hreadsA) hmeansA happart
  have hmeansB := Part.means_plain config.disabled value
  have hmeansAB := hfront.append (Part.means_plain config.disabled (last ++ value))
  rw [← String.toList_append] at hreadsAB
  rw [← hstandard] at hreadsB hreadsAB hsource
  rcases fails_or_means config.disabled config.delimiters (Location.start.after value) rest with
    ⟨fault, hfails⟩ | ⟨partsR, meaningR, hreadsR, hmeansR⟩
  · have hplace : (Location.start.after value).shift (Location.start.after a.toList) =
        Location.start.after (Part.sources config.delimiters (front ++ Part.plain (last ++ value))) := by
      rw [Location.shift_start_after, hsource, Part.sources_append, Part.sources_plain, List.append_assoc]
    have hfailsAB := hfails.shift (Location.line_after_pos (by decide) value) (Location.start.after a.toList)
    rw [hplace] at hfailsAB
    rw [← @Part.sources_plain config.delimiters value] at hfails
    have hb := @compile_of_fails config b name _ (hfails.behind hreadsB hmeansB)
    have hab := @compile_of_fails config (a ++ b) name _ (hfailsAB.behind hreadsAB hmeansAB)
    rw [underName_shift] at hab
    rw [hb, hab]
    refine ⟨by simp, by simp, ?_⟩
    rintro _ ⟨⟩
    rfl
  · have hreadsB := hreadsB.append hreadsR
    have hreadsAB := hreadsAB.append hreadsR
    have hmeansB := hmeansB.append hmeansR
    have hmeansAB := hmeansAB.append hmeansR
    obtain ⟨templateB, hb, -⟩ := compile_of_means name hreadsB hmeansB
    obtain ⟨templateAB, hab, -⟩ := compile_of_means name hreadsAB hmeansAB
    rw [hb, hab]
    refine ⟨by simp, ?_, by simp⟩
    rintro _ _ ⟨⟩ ⟨⟩ source
    rw [renderFrom_of_compile ha hreadsA hmeansA, renderFrom_of_compile hab hreadsAB hmeansAB,
      renderFrom_of_compile hb hreadsB hmeansB]
    refine ⟨_, _, rfl, rfl, ?_⟩
    rcases hfirst : output source with ⟨first, source'⟩
    rcases hsecond : meaningR source' with ⟨second, source''⟩
    simp [bind, StateT.bind, pure, StateT.pure, hfirst, hsecond, String.append_assoc]

/-- A text that ends in a brace, with a short comment behind it and with a tag that nobody knows behind it. -/
theorem compile_append_after_brace :
    ∃ template, (Compiler.ofConfig {}).compile "x\n\x7b% lorem 2 w %\x7d\x7b" "t" = .ok template ∧
      (∃ whole, (Compiler.ofConfig {}).compile
        ("x\n\x7b% lorem 2 w %\x7d\x7b" ++ "\x7b# c #\x7dy") "t" = .ok whole) ∧
      (Compiler.ofConfig {}).compile ("x\n\x7b% lorem 2 w %\x7d\x7b" ++ "z\x7b% nope %\x7d") "t" =
        .error (Compiler.underName "t"
          (.grammar .general (.unknownStatement "nope") ⟨.name, "nope", ⟨22, 2, 21⟩⟩)) := by
  have hfirst : (Compiler.ofConfig {}).compile "x\n\x7b% lorem 2 w %\x7d\x7b" "t" = .ok ⟨"t", [.data "x\n",
      .block ⟨.blockBegin, "\x7b%", ⟨2, 2, 1⟩⟩ "lorem" (.lorem ⟨.integer, "2", ⟨11, 2, 10⟩⟩ 2 "w" false),
      .data "\x7b"], none⟩ := by
    cbv
  refine ⟨_, hfirst, ?_, ?_⟩
  · have hcomment : (Compiler.ofConfig {}).compile "\x7b# c #\x7dy" "t" = .ok ⟨"t", [.data "y"], none⟩ := by
      cbv
    exact (compile_append {} rfl _ _ "t" _ hfirst (by decide)).1.2 ⟨_, hcomment⟩
  · have hnodes : (Compiler.ofConfig {}).nodesOf "z\x7b% nope %\x7d" =
        .error (.grammar .general (.unknownStatement "nope") ⟨.name, "nope", ⟨4, 1, 5⟩⟩) := by
      cbv
    have hwhole := (compile_append {} rfl _ "z\x7b% nope %\x7d" "t" _ hfirst (by decide)).2.2 _
      (by rw [Compiler.compile, hnodes])
    rw [hwhole, ← underName_shift]
    rfl

end TagTemplate
