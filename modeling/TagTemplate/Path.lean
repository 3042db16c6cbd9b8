import TagTemplate.Text.Quoted

/-!
# Paths

A path is a list of names below the current directory or below the root. Empty names and single dots say
nothing and are left out; two dots are kept, because what they lead to depends on the files.
-/

namespace TagTemplate

/-- A path: what it starts with, and its names. -/
structure Path where
  root : String
  names : List String
deriving DecidableEq, Repr

namespace Path

def pieces : List Char → List (List Char)
  | [] => [[]]
  | c :: s => if c == '/' then [] :: pieces s else (pieces s).modifyHead (c :: ·)

/-- The slashes that a text starts with. Exactly two of them are not the same as one. -/
def rootOf : List Char → String
  | '/' :: '/' :: '/' :: _ => "/"
  | '/' :: '/' :: _ => "//"
  | '/' :: _ => "/"
  | _ => ""

def ofText (text : String) : Path :=
  ⟨rootOf text.toList,
    ((pieces text.toList).map String.ofList).filter fun name => name != "" && name != "."⟩

/-- A path as it is written; one that says nothing is the current directory. -/
def text (path : Path) : String :=
  if path.root == "" && path.names.isEmpty then "." else path.root ++ "/".intercalate path.names

def isUnusable (path : Path) : Bool :=
  path.names.any fun name => name.toList.contains (Char.ofNat 0)

end Path

/-- Why a file could not be read: the number that the system has for it, and the words. -/
structure FileError where
  code : Nat
  reason : String
deriving DecidableEq, Repr

namespace FileError

def notFound : FileError := ⟨2, "No such file or directory"⟩

def notADirectory : FileError := ⟨20, "Not a directory"⟩

def isADirectory : FileError := ⟨21, "Is a directory"⟩

def nameTooLong : FileError := ⟨36, "File name too long"⟩

/-- Whether an error says that there is no such file: it has no entry, nothing can have one below it, its descriptor is
bad, or its links lead to themselves. -/
def isMissing (error : FileError) : Bool := [2, 9, 20, 40].contains error.code

def message (error : FileError) (path : Path) : String :=
  "[Errno " ++ toString error.code ++ "] " ++ error.reason ++ ": " ++ Text.quoted path.text

end FileError

/-- What paths lead to: the bytes of a file, or why there are none. -/
abbrev Files := Path → Except FileError (List UInt8)

/-! ### Files in memory -/

/-- A directory with everything below it: files and directories by their names from the top. -/
structure FileTree where
  entries : List (List String × Option (List UInt8))

namespace FileTree

inductive Entry where
  | directory
  | file (bytes : List UInt8)
  | missing

def reaches (tree : FileTree) (place : List String) : Bool :=
  place.isEmpty || tree.entries.any fun entry => place.isPrefixOf entry.1

def entryAt (tree : FileTree) (place : List String) : Entry :=
  match tree.entries.find? fun entry => entry.1 == place with
  | some (_, some bytes) => .file bytes
  | some (_, none) => .directory
  | none => if tree.reaches place then .directory else .missing

/-- The length of the longest name that a file can have, in bytes. -/
def maxNameLength : Nat := 255

/-- The length of the longest path that can be asked for, in bytes. -/
def maxPathLength : Nat := 4095

/-- Follows names from a place, which lies so far above the top of the tree. Nothing is known of what is
there but that these are directories. -/
def follow (tree : FileTree) : (above : Nat) → (place : List String) → List String →
    Except FileError (List UInt8)
  | above, place, [] =>
      if 0 < above then .error .isADirectory
      else
        match tree.entryAt place with
        | .directory => .error .isADirectory
        | .file bytes => .ok bytes
        | .missing => .error .notFound
  | above, place, name :: names =>
      match (if 0 < above then .directory else tree.entryAt place : Entry) with
      | .file _ => .error .notADirectory
      | .missing => .error .notFound
      | .directory =>
          if name == ".." then
            if above == 0 && !place.isEmpty then follow tree 0 place.dropLast names
            else follow tree (above + 1) [] names
          else if maxNameLength < name.utf8ByteSize then .error .nameTooLong
          else if 0 < above then .error .notFound
          else follow tree 0 (place ++ [name]) names

/-- What paths lead to in a tree. Of what lies outside, only the root is known. -/
def files (tree : FileTree) : Files := fun path =>
  if maxPathLength < path.text.utf8ByteSize then .error .nameTooLong
  else if path.root == "" then tree.follow 0 [] path.names
  else if path.names.all (· == "..") then .error .isADirectory
  else if path.names.any fun name => maxNameLength < name.utf8ByteSize then .error .nameTooLong
  else .error .notFound

end FileTree

end TagTemplate
