import TagTemplate.Fault
import TagTemplate.Random.Draw

/-!
# Renderers

A renderer collects the output of a template and owns the source of randomness for it. Text is only
ever added at the end.
-/

namespace TagTemplate

structure Renderer where
  output : String
  source : Twister
deriving DecidableEq

/-- Actions of a renderer. One that fails leaves the output and the source as they were when it failed. -/
abbrev Rendering := EStateM Fault Renderer

namespace Renderer

def ofSource (source : Twister) : Renderer :=
  ⟨"", source⟩

/-- Adds a text to the output and tells its length. -/
def write (text : String) : Rendering Nat := fun renderer =>
  .ok text.length { renderer with output := renderer.output ++ text }

def draw {α : Type} (draw : Draw α) : Rendering α := fun renderer =>
  match draw renderer.source with
  | (value, source) => .ok value { renderer with source := source }

end Renderer

end TagTemplate
