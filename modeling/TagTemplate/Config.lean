import TagTemplate.Delimiters

/-!
# Configuration

What a compiler is told: the delimiters, the names of the built-in tags that are disabled, and the seed for random text.
-/

namespace TagTemplate

structure Config where
  delimiters : Delimiters := Delimiters.standard
  disabled : List String := []
  seed : Option Int := none
deriving DecidableEq

end TagTemplate
