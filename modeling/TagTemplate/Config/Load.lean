import TagTemplate.Config.Reading
import TagTemplate.Text.Utf8

/-!
# Loading a configuration

A configuration file is a document in UTF-8. The reader of documents is not a part of this library; it is given as a
function that has the value of a text, or a reason why the text is no document.
-/

namespace TagTemplate.Config

variable {ε : Type}

/-- Why a file is no configuration: its bytes are no text, the text is no document, or the document is no
configuration. -/
inductive LoadError (ε : Type) where
  | encoding (error : Text.Utf8Error)
  | document (error : ε)
  | content (fault : Fault)

/-- The words for it, given those for texts that are no documents. -/
def LoadError.message (describe : ε → String) : LoadError ε → String
  | encoding error => error.message
  | document error => describe error
  | content fault => fault.message

def ofText (load : String → Except ε Value) (room : Nat) (path : String) (text : List Char) :
    Except (LoadError ε) Settings :=
  match load (String.ofList (Text.unifyLineEnds text)) with
  | .error error => .error (.document error)
  | .ok value =>
      match ofDocument room path value with
      | .error fault => .error (.content fault)
      | .ok settings => .ok settings

/-- The settings in a file, which is read piece by piece. -/
def ofBytes (load : String → Except ε Value) (room : Nat) (path : String) (bytes : List UInt8) :
    Except (LoadError ε) Settings :=
  match Text.decode bytes with
  | .error error => .error (.encoding error.piecewise)
  | .ok text => ofText load room path text

end TagTemplate.Config
