import TagTemplate.Proofs.Composition
import TagTemplate.Proofs.Printing

/-!
# Comments are erased

A comment between two texts leaves no trace in what comes of them, whatever stands in it: the second text
compiles behind it or not, and renders, as it does on its own behind the first.
-/

namespace TagTemplate

open Cursor (Marks)

variable {disabled : List String}

/-! ### Comments as texts -/

/-- A comment and what stands in it. In a short one the delimiter that ends it does not occur, and a block
comment can skip what stands between its tags. -/
inductive Comment (disabled : List String) where
  | short {body : String} (closesLast : ¬Delimiters.standard.commentEnd.toList <:+: body.toList)
  | block (enabled : "comment" ∉ disabled) (body : Skippable)

namespace Comment

/-- The text of a comment. -/
def text : Comment disabled → String
  | @short _ body _ => "\x7b#" ++ body ++ "#\x7d"
  | block _ body => "\x7b% comment %\x7d" ++ body.text ++ "\x7b% endcomment %\x7d"

theorem toList_text_short {body : String} (closesLast : ¬Delimiters.standard.commentEnd.toList <:+: body.toList) :
    (short closesLast : Comment disabled).text.toList = (Part.comment body.toList).source .standard := by
  rw [Part.source_comment, text, String.toList_append, String.toList_append, List.append_assoc]
  rfl

theorem toList_text_block (enabled : "comment" ∉ disabled) (body : Skippable) :
    (block enabled body).text.toList = Item.source (.comment body fun _ => .space) := by
  rw [text, String.toList_append, String.toList_append, List.append_assoc]
  rfl

theorem opens_text (comment : Comment disabled) (rest : List Char) :
    Delimiters.standard.Opens (comment.text.toList ++ rest) := by
  cases comment with
  | short closesLast =>
      rw [toList_text_short, Part.source_comment, List.append_assoc]
      exact .inr (List.prefix_append _ _)
  | block enabled body =>
      rw [toList_text_block]
      exact Item.opens_source rfl rest

/-- A comment is read as parts that mean nothing, whatever follows it. -/
theorem exists_parts (comment : Comment disabled) (rest : List Char) :
    ∃ parts, Delimiters.standard.Reads parts (comment.text.toList ++ rest) rest ∧
      Means disabled parts (pure "") := by
  cases comment with
  | short closesLast =>
      rw [toList_text_short]
      exact ⟨_, .part (Part.stands_comment closesLast rest) .done, .shortComment .nil⟩
  | block enabled body =>
      obtain ⟨parts, hreads, hends⟩ := Item.exists_reads_comment body (fun _ => .space) rest
      rw [toList_text_block]
      exact ⟨_, hreads, .comment enabled rfl String.ofList_toList hends rfl String.ofList_toList .nil⟩

end Comment

/-! ### Erasure -/

section Behind

variable {config : Config} {parts : List Part} {meaning : Draw String} {text rest : String}

theorem renderFrom_behind {name : String} {template whole : Template}
    (hreads : config.delimiters.Reads parts text.toList rest.toList) (hmeans : Means config.disabled parts meaning)
    (htemplate : (Compiler.ofConfig config).compile rest name = .ok template)
    (hwhole : (Compiler.ofConfig config).compile text name = .ok whole) (source : Twister) :
    ∃ output, (template.renderFrom (meaning source).2).outcome = .ok output ∧
      whole.renderFrom source =
        ⟨.ok ((meaning source).1 ++ output), (template.renderFrom (meaning source).2).source⟩ := by
  obtain ⟨partsRest, meaningRest, hreadsRest, hmeansRest⟩ := exists_means_of_compile htemplate
  rw [renderFrom_of_compile htemplate hreadsRest hmeansRest,
    renderFrom_of_compile hwhole (hreads.append hreadsRest) (hmeans.append hmeansRest)]
  exact ⟨_, rfl, rfl⟩

theorem compile_behind_iff (hreads : config.delimiters.Reads parts text.toList rest.toList)
    (hmeans : Means config.disabled parts meaning) (name : String) :
    (∃ whole, (Compiler.ofConfig config).compile text name = .ok whole) ↔
      ∃ template, (Compiler.ofConfig config).compile rest name = .ok template := by
  rcases fails_or_means config.disabled config.delimiters Location.start rest.toList with
    ⟨fault, hfails⟩ | ⟨partsRest, meaningRest, hreadsRest, hmeansRest⟩
  · -- What fails on its own fails behind the parts too, for the same reason at another place.
    have hwhole := hfails.shift (by decide) (Location.start.after (Part.sources config.delimiters parts))
    rw [Location.start_shift] at hwhole
    rw [compile_of_fails (hwhole.behind hreads hmeans), compile_of_fails hfails]
    simp
  · obtain ⟨template, htemplate, -⟩ := compile_of_means name hreadsRest hmeansRest
    obtain ⟨whole, hwhole, -⟩ := compile_of_means name (hreads.append hreadsRest) (hmeans.append hmeansRest)
    rw [htemplate, hwhole]
    simp

end Behind

/-- A text that compiles, a comment and another text. The whole compiles if the other text does, and then
renders to what the one renders to and what the other renders to, which goes on with the source that the one
leaves. -/
theorem compile_append_comment (config : Config) (hstandard : config.delimiters = .standard) (a c name : String)
    (comment : Comment config.disabled) (template : Template)
    (ha : (Compiler.ofConfig config).compile a name = .ok template) :
    ((∃ whole, (Compiler.ofConfig config).compile (a ++ comment.text ++ c) name = .ok whole) ↔
      ∃ template', (Compiler.ofConfig config).compile c name = .ok template') ∧
    ∀ template' whole, (Compiler.ofConfig config).compile c name = .ok template' →
      (Compiler.ofConfig config).compile (a ++ comment.text ++ c) name = .ok whole → ∀ source,
        ∃ output output', (template.renderFrom source).outcome = .ok output ∧
          (template'.renderFrom (template.renderFrom source).source).outcome = .ok output' ∧
          whole.renderFrom source =
            ⟨.ok (output ++ output'), (template'.renderFrom (template.renderFrom source).source).source⟩ := by
  obtain ⟨partsA, meaning, hreadsA, hmeansA⟩ := exists_means_of_compile ha
  obtain ⟨partsK, hreadsK, hmeansK⟩ := comment.exists_parts c.toList
  have hopens := comment.opens_text c.toList
  have hreads : config.delimiters.Reads (partsA ++ partsK) (a ++ comment.text ++ c).toList c.toList := by
    rw [String.toList_append, String.toList_append, List.append_assoc]
    rw [hstandard] at hreadsA ⊢
    apply Delimiters.Reads.append ?_ hreadsK
    exact hreadsA.extend fun _ value _ => ⟨Delimiters.apart_of_opens (.inr hopens), .inr hopens⟩
  have hmeans : Means config.disabled (partsA ++ partsK) meaning := by
    simpa using hmeansA.append hmeansK
  refine ⟨compile_behind_iff hreads hmeans name, ?_⟩
  intro template' whole htemplate' hwhole source
  obtain ⟨output', houtput', hrendered⟩ := renderFrom_behind hreads hmeans htemplate' hwhole source
  rw [renderFrom_of_compile ha hreadsA hmeansA]
  exact ⟨_, output', rfl, houtput', hrendered⟩

/-- Between a brace and the end of a delimiter, a comment with a tag that nobody knows in it, and with the tag that
ends it in a short comment and in a string. -/
theorem compile_append_comment_hidden_end :
    ∃ body whole,
      body.text = "\x7b% x %\x7d\x7b# \x7b% endcomment %\x7d #\x7d\x7b% \"\x7b% endcomment %\x7d\" %\x7d" ∧
      (Compiler.ofConfig {}).compile ("a\x7b" ++ (.block (by decide) body : Comment []).text ++ "%\x7d") "t" =
        .ok whole ∧
      ∀ source, whole.renderFrom source = ⟨.ok "a\x7b%\x7d", source⟩ := by
  have hscan : (Delimiters.standard.scan
      "\x7b% x %\x7d\x7b# \x7b% endcomment %\x7d #\x7d\x7b% \"\x7b% endcomment %\x7d\" %\x7d").outcome =
      .ok [⟨.blockBegin, "\x7b%", ⟨0, 1, 1⟩⟩, ⟨.name, "x", ⟨3, 1, 4⟩⟩, ⟨.blockEnd, "%\x7d", ⟨5, 1, 6⟩⟩,
        ⟨.commentBegin, "\x7b#", ⟨7, 1, 8⟩⟩, ⟨.data, " \x7b% endcomment %\x7d ", ⟨9, 1, 10⟩⟩,
        ⟨.commentEnd, "#\x7d", ⟨27, 1, 28⟩⟩, ⟨.blockBegin, "\x7b%", ⟨29, 1, 30⟩⟩,
        ⟨.string, "\"\x7b% endcomment %\x7d\"", ⟨32, 1, 33⟩⟩, ⟨.blockEnd, "%\x7d", ⟨51, 1, 52⟩⟩,
        ⟨.eof, "", ⟨53, 1, 54⟩⟩] := by
    cbv
  have hfirst : (Compiler.ofConfig {}).compile "a\x7b" "t" = .ok ⟨"t", [.data "a\x7b"], none⟩ := by
    cbv
  have hlast : (Compiler.ofConfig {}).compile "%\x7d" "t" = .ok ⟨"t", [.data "%\x7d"], none⟩ := by
    cbv
  obtain ⟨hiff, hrender⟩ := compile_append_comment {} rfl "a\x7b" "%\x7d" "t"
    (.block (by decide) ⟨_, _, hscan, by simp [Marks]⟩) _ hfirst
  obtain ⟨whole, hwhole⟩ := hiff.2 ⟨_, hlast⟩
  refine ⟨_, whole, rfl, hwhole, fun source => ?_⟩
  obtain ⟨output, output', houtput, houtput', hrendered⟩ := hrender _ whole hlast hwhole source
  obtain rfl := Except.ok.inj houtput
  obtain rfl := Except.ok.inj houtput'
  exact hrendered

end TagTemplate
