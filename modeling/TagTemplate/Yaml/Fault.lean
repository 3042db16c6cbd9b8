import TagTemplate.Number.Integer
import TagTemplate.Text.Quoted

/-!
# Faults of YAML documents

What keeps a document from having a value.
-/

namespace TagTemplate.Yaml

/-- Why a document has no value: it is none, or it has the code of a character that does not exist, a number
that cannot be read, or a list as a key that has a list or mapping in it. -/
inductive Fault where
  | malformed
  | character (code : Nat)
  | integer (error : IntegerError)
  | float (text : String)
  | unusableKey (part : String)
deriving DecidableEq, Repr

def Fault.message : Fault → String
  | malformed => "the text is not a YAML document"
  | character _ => "chr() arg not in range(0x110000)"
  | integer error => error.message
  | float text => "could not convert string to float: " ++ Text.quoted text
  | unusableKey part => "unhashable type: '" ++ part ++ "'"

end TagTemplate.Yaml
