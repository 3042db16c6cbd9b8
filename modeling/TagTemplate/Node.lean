import TagTemplate.Lorem
import TagTemplate.Renderer
import TagTemplate.Token

/-!
# Nodes

What a template is made of once its tags are recognised: stretches of text and blocks, each of which
holds the statement that a tag stands for. The two built-in statements generate filler text and nothing
at all; others write words, or put brackets around nodes, or do whatever an action of the renderer does.
-/

namespace TagTemplate

mutual

/-- A part of a template. Recognition yields only text and blocks; nodes may also be put together by
hand, and there may be kinds of nodes that nobody knows how to execute. -/
inductive Node where
  | data (text : String)
  | block (location : Token) (name : String) (statement : Statement)
  | statement (statement : Statement)
  | unknown (kind : String)

/-- What a tag stands for. Every statement keeps the token that its tag's arguments start with. The
letter of a filler text's mode is not looked at before execution. -/
inductive Statement where
  | lorem (location : Token) (count : Int) (mode : String) (random : Bool)
  | comment (location : Token)
  | echo (location : Token) (values : List String)
  | wrap (location : Token) (body : List Node)
  | custom (location : Token) (kind : String) (action : Rendering Unit)

end

instance : Inhabited Node := ⟨.data ""⟩

namespace Statement

def location : Statement → Token
  | lorem location .. | comment location | echo location _ | wrap location _
  | custom location .. => location

def kind : Statement → String
  | lorem .. => "LoremStatement"
  | comment .. => "CommentStatement"
  | echo .. => "EchoStatement"
  | wrap .. => "WrapStatement"
  | custom _ kind _ => kind

def describePlace (place : Location) : String :=
  "Line=" ++ toString place.line ++ " Col=" ++ toString place.column

def describe (statement : Statement) : String :=
  statement.kind ++ "(" ++ describePlace statement.location.place ++ ")"

def describeBlock (location : Token) (statement : Statement) : String :=
  "StatementBlock(" ++ describePlace location.place ++ " " ++ statement.describe ++ ")"

end Statement

namespace Node

/-- A node before other nodes. Text before text is one text. -/
def joinTo : Node → List Node → List Node
  | data before, data after :: nodes => data (before ++ after) :: nodes
  | node, nodes => node :: nodes

end Node

/-! ### Execution -/

mutual

def Node.execute : Node → Rendering Unit
  | .data text => do let _ ← Renderer.write text
  | .block _ _ statement => statement.execute
  | .statement statement => statement.execute
  | .unknown kind => throw (.defect (.notExecutable kind))

def Statement.execute : Statement → Rendering Unit
  | .lorem _ count mode random =>
      match Lorem.Mode.ofLetter? mode with
      | none => throw (.defect (.unknownMethod mode))
      | some mode => do
          let text ← Renderer.draw (Lorem.generate count mode random)
          let _ ← Renderer.write text
  | .comment _ => pure ()
  | .echo _ values => do let _ ← Renderer.write (" ".intercalate values)
  | .wrap _ body => do
      let _ ← Renderer.write "["
      Node.executeAll body
      let _ ← Renderer.write "]"
  | .custom _ _ action => action

def Node.executeAll : List Node → Rendering Unit
  | [] => pure ()
  | node :: nodes => do
      node.execute
      Node.executeAll nodes

end

end TagTemplate
