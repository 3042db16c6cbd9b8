import TagTemplate.Lexer
import TagTemplate.Number.Integer

/-!
# What can go wrong

Faults are of three sorts. A *user error* is a mistake in a template, and the compiler adds the
template's name to it. A *processing error* already has that name, and is passed on as it is. A *defect*
is a mistake in a tag, not in a template, and nobody adds anything to it.
-/

namespace TagTemplate

inductive Complaint where
  | unexpectedToken (found : TokenKind)
  | expectedToken (expected found : TokenKind)
  | expectedStatementName
  | unknownStatement (name : String)
  | tagNotClosed (name : String)
  | expectedEndOfTag (name : String)
  | expectedEndOfComment
  | unexpectedEnd (expected : List String)
  | loremMethod
  | loremArguments
  | commentArguments
  | other (text : String)
deriving DecidableEq, Repr

namespace Complaint

def text : Complaint → String
  | unexpectedToken found => "Unexpected token " ++ found.label
  | expectedToken expected found => "Expected " ++ expected.label ++ ", got " ++ found.label
  | expectedStatementName => "Expected statement name"
  | unknownStatement name => "Unknown statement name '" ++ name ++ "'"
  | tagNotClosed name => "Tag '" ++ name ++ "' is not closed"
  | expectedEndOfTag name => "Expected end of '" ++ name ++ "' tag"
  | expectedEndOfComment => "Expected end of comment"
  | unexpectedEnd expected =>
      "Unexpected end of template, expected one of: " ++ ", ".intercalate expected
  | loremMethod => "lorem-method must be either 'w', 'p' or 'b'."
  | loremArguments => "Malformed lorem-tag args."
  | commentArguments => "Tag 'comment' does not take any argument."
  | other text => text

/-- A complaint in words of the caller's own; no words are no complaint. -/
def ofText? (text : String) : Option Complaint :=
  if text = "" then none else some (other text)

end Complaint

/-- The kinds of syntax errors: of tags in general, of the arguments of one tag, and of a block that is
never closed. -/
inductive SyntaxError.Kind where
  | general
  | malformedArguments
  | unterminatedBlock
deriving DecidableEq, Repr

/-- A list of tokens that makes no sense: which token is to blame, and for what. -/
structure SyntaxError where
  kind : SyntaxError.Kind
  complaint : Complaint
  token : Token
deriving DecidableEq, Repr

def SyntaxError.message (error : SyntaxError) : String :=
  error.complaint.text ++ " at " ++ error.token.place.text

/-- A mistake that the author of a template can mend. -/
inductive UserError where
  | scan (error : ScanError)
  | grammar (error : SyntaxError)
  | plain (text : String)
deriving DecidableEq, Repr

def UserError.message : UserError → String
  | scan error => error.message
  | grammar error => error.message
  | plain text => text

/-- A template that could not be processed: what is wrong, the template's name, and the mistake in it,
if that is known. -/
structure ProcessingError where
  reason : String
  templateName : String
  cause : Option UserError
deriving DecidableEq, Repr

def ProcessingError.message (error : ProcessingError) : String :=
  "Template processing error in '" ++ error.templateName ++ "': " ++ error.reason

/-- A mistake in a tag or in its use, which no author of a template can mend. -/
inductive Defect where
  | indexOutOfRange
  | notAStatement (tag kind : String)
  | notExecutable (kind : String)
  | integer (error : IntegerError)
  | value (text : String)
  | unknownMethod (method : String)
  | tooDeep
deriving DecidableEq, Repr

def Defect.message : Defect → String
  | indexOutOfRange => "list index out of range"
  | notAStatement tag kind => "Parser for '" ++ tag ++ "' returned " ++ kind ++ ", expected Statement"
  | notExecutable kind => "Cannot execute node of type " ++ kind
  | integer error => error.message
  | value text => text
  | unknownMethod method => "Unsupported lorem method: " ++ Text.quoted method
  | tooDeep => "maximum recursion depth exceeded"

/-- Whatever stops a tag from being read or executed. -/
inductive Fault where
  | user (error : UserError)
  | processing (error : ProcessingError)
  | defect (mistake : Defect)
deriving DecidableEq, Repr

namespace Fault

def grammar (kind : SyntaxError.Kind) (complaint : Complaint) (token : Token) : Fault :=
  .user (.grammar ⟨kind, complaint, token⟩)

def message : Fault → String
  | user error => error.message
  | processing error => error.message
  | defect mistake => mistake.message

end Fault

end TagTemplate
