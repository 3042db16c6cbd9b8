import TagTemplate.Config
import TagTemplate.Tag.Builtin

/-!
# Templates

A compiler turns a text into a template, with the delimiters of a configuration and the tags of a
registry. A template can then be rendered as often as one likes. The mistakes that a template's author
can mend are reported under the template's name; all others are passed on as they are.
-/

namespace TagTemplate

/-- A compiled template, with the seed for its random text. -/
structure Template where
  name : String
  nodes : List Node
  seed : Option Int

/-- What came of rendering: the text or a fault, and the source of randomness afterwards. -/
structure Rendered where
  outcome : Except Fault String
  source : Twister

namespace Template

/-- The source for a rendering: the given one, or that of the template's seed, or a fresh one. -/
def sourceOf (template : Template) (given : Option Twister) (fresh : Twister) : Twister :=
  match given, template.seed with
  | some source, _ => source
  | none, some seed => Twister.ofSeed seed
  | none, none => fresh

def renderFrom (template : Template) (source : Twister) : Rendered :=
  match Node.executeAll template.nodes (Renderer.ofSource source) with
  | .ok () renderer => ⟨.ok renderer.output, renderer.source⟩
  | .error fault renderer => ⟨.error fault, renderer.source⟩

def render (template : Template) (given : Option Twister) (fresh : Twister) : Rendered :=
  template.renderFrom (template.sourceOf given fresh)

end Template

structure Compiler where
  registry : Registry Tag.Reader
  config : Config

namespace Compiler

def ofConfig (config : Config) : Compiler :=
  ⟨Tag.builtinReaders config.disabled, config⟩

def scan (compiler : Compiler) (text : String) : Scan :=
  compiler.config.delimiters.scan text

def recognise (compiler : Compiler) (tokens : List Token) : Recognition :=
  (Cursor.whole tokens.toArray).recognise compiler.registry

/-- A fault under the name of its template. -/
def underName (name : String) : Fault → Fault
  | .user error => .processing ⟨error.message, name, some error⟩
  | .processing error => .processing error
  | .defect mistake => .defect mistake

def nodesOf (compiler : Compiler) (text : String) : Except Fault (List Node) :=
  match (compiler.scan text).outcome with
  | .error error => .error (.user (.scan error))
  | .ok tokens => (compiler.recognise tokens).outcome

def compile (compiler : Compiler) (text name : String) : Except Fault Template :=
  match compiler.nodesOf text with
  | .error fault => .error (underName name fault)
  | .ok nodes => .ok ⟨name, nodes, compiler.config.seed⟩

/-- Compiles a text and renders it at once. A source is only used up if there is something to render. -/
def render (compiler : Compiler) (text name : String) (given : Option Twister) (fresh : Twister) :
    Rendered :=
  match compiler.compile text name with
  | .error fault => ⟨.error fault, given.getD fresh⟩
  | .ok template => template.render given fresh

end Compiler

end TagTemplate
