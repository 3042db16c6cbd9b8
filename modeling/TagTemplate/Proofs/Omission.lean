import TagTemplate.Proofs.Check

/-!
# What a configuration may leave out

A document that has settings is a mapping with mappings as sections and a list of names as the disabled tags,
but for what says nothing: false, zero and what is empty stand for any of these, and count as left out.
-/

namespace TagTemplate.Config

open Value

variable {room : Nat} {document others entries : List (Value × Value)} {name : String} {value key : Value}

end TagTemplate.Config
