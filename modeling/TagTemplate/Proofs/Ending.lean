import TagTemplate.CommandLine
import TagTemplate.Proofs.Composition

/-!
# How the program ends

When the arguments ask for something to be done, the program ends with code 0 and the whole output, or with code 2,
a complaint and no output. The exceptions are told apart here, one by one: what is not a mistake in a template or a
configuration to the program is not handled, and no code is given for it.
-/

namespace TagTemplate.CommandLine

/-! ### What is not handled -/

variable {ε : Type}

end TagTemplate.CommandLine

namespace TagTemplate

/-! ### Compiling -/

theorem Fails.fault_cases {disabled : List String} {d : Delimiters} {place : Location} {s : List Char}
    {fault : Fault} (h : Fails disabled d place s fault) :
    (∃ error, fault = .user error) ∨
      ∃ digits, Number.maxDigits < digits ∧ fault = .defect (.integer (.tooLong digits)) := by
  cases h with
  | read => exact .inl ⟨_, rfl⟩
  | @recognise parts _ hreads hflawed =>
      obtain ⟨before, nodes, inside, token, rest, htokens, -, hflaw⟩ := hflawed
      rcases hflaw.fault_cases with ⟨kind, complaint, rfl⟩ | ⟨error, rfl, hkind, hread⟩
      · exact .inl ⟨_, rfl⟩
      · have hmem : token ∈ Part.tokens d place parts := by simp [htokens]
        obtain ⟨hlong, rfl⟩ := hreads.eq_tooLong hmem hkind hread
        exact .inr ⟨_, hlong, rfl⟩

variable {config : Config} {text name : String}

namespace CommandLine

variable {ε : Type} {system : System ε} {settings : Config.Settings} {path : Path} {text : String} {seed : Option Int}
  {escape : Escape ε}

/-! ### Loading a configuration -/

variable {request : Request}

end CommandLine

end TagTemplate
