import TagTemplate.CommandLine
import TagTemplate.Yaml

/-!
# The program

Reads the files that a request names, takes a fresh source of randomness from the system, and writes what
comes out. What the program does with them is said in `CommandLine`.
-/

namespace TagTemplate

/-- The error with the number that the system has for it. Some numbers come with their sign turned. -/
def FileError.ofCode (code : UInt32) (reason : String) : FileError :=
  let code := min code (0 - code)
  ([notFound, notADirectory, isADirectory, nameTooLong].find? (·.code == code.toNat)).getD
    ⟨code.toNat, reason⟩

def FileError.ofSystem : IO.Error → FileError
  | .noFileOrDirectory .. => notFound
  | .inappropriateType _ code reason | .invalidArgument _ code reason
  | .permissionDenied _ code reason | .resourceExhausted _ code reason => ofCode code reason
  | .illegalOperation code reason | .hardwareFault code reason | .otherError code reason =>
      ofCode code reason
  | error => ⟨0, error.toString⟩

def readBytes (path : Path) : IO (Except FileError (List UInt8)) := do
  match ← (IO.FS.readBinFile path.text).toBaseIO with
  | .ok bytes => return .ok bytes.toList
  | .error error => return .error (.ofSystem error)

/-- Reads some files, and knows of no others. -/
def readFiles (paths : List Path) : IO Files := do
  let contents ← paths.mapM fun path => return (path, ← readBytes path)
  return fun path => (contents.lookup path).getD (.error .notFound)

def freshTwister : IO Twister := do
  let bytes ← IO.getRandomBytes 32
  return .ofSeed (bytes.foldl (fun seed byte => 256 * seed + byte.toNat) (0 : Nat))

/-- So many values can lie within each other in a message. -/
def messageRoom : Nat := 990

def runProgram (arguments : List String) : IO UInt32 := do
  let paths := match CommandLine.Request.ofArguments arguments with
    | .ok request => request.paths.filter (!·.isUnusable)
    | .error _ => []
  let system : CommandLine.System Yaml.Fault :=
    ⟨← readFiles paths, Yaml.valueOf, messageRoom, ← freshTwister⟩
  let outcome := CommandLine.run system arguments
  IO.print outcome.output
  IO.eprint outcome.errors
  match outcome.ending with
  | .code code => return code.toUInt32
  | .escape escape =>
      IO.eprintln (escape.message Yaml.Fault.message)
      return 1

end TagTemplate

def main (arguments : List String) : IO UInt32 := TagTemplate.runProgram arguments
