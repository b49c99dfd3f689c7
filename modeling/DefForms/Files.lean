import DefForms.Span

set_option autoImplicit false

/-! # Files and paths

A `Directory` is the working directory of a program, given by the files below it. `Directory.read`
follows a path from there and returns the text of the file that it names. A path is followed name
by name: each name needs a directory to be looked up in, `.` and an empty name stay there, and `..`
goes up. Nothing is known about the directories above the working directory but that they are
directories. -/

namespace DefForms

/-- Why no text can be read. -/
inductive FileFault where
  /-- A name on the path is not there. -/
  | notFound
  /-- A file stands where a directory is needed. -/
  | notDirectory
  /-- The path names a directory. -/
  | isDirectory
  /-- The path or a name on it is too long. -/
  | nameTooLong
  /-- The path holds the character U+0000, which no name can hold. -/
  | nulInPath
  /-- The bytes of the file are not UTF-8. -/
  | notText
  /-- Another reason, as the system words it. -/
  | other (reason : String)
deriving DecidableEq

/-- The wording of a fault. -/
def FileFault.message : FileFault → String
  | .notFound => "No such file or directory (os error 2)"
  | .notDirectory => "Not a directory (os error 20)"
  | .isDirectory => "Is a directory (os error 21)"
  | .nameTooLong => "File name too long (os error 36)"
  | .nulInPath => "file name contained an unexpected NUL byte"
  | .notText => "stream did not contain valid UTF-8"
  | .other reason => reason

/-- The text that bytes stand for in UTF-8. -/
def decodeText (bytes : ByteArray) : Except FileFault String :=
  match String.fromUTF8? bytes with
  | some text => .ok text
  | none => .error .notText

/-- The names that a path is made of. -/
abbrev Names := List (List Char)

/-- The files below a directory, each with the names on the way to it. -/
structure Directory where
  files : List (Names × ByteArray)

/-- Where following a path has come. -/
inductive Place where
  /-- Below the working directory, or in it. -/
  | below (names : Names)
  /-- In a directory above the working directory. -/
  | above
deriving DecidableEq

namespace Directory

/-- A path of this many bytes is too long. -/
def pathBound : Nat := 4096

/-- A name may have this many bytes. -/
def longestName : Nat := 255

/-- The directory with files at these paths. -/
def ofPaths (files : List (String × ByteArray)) : Directory :=
  ⟨files.map fun (path, bytes) =>
    ((path.toList.splitOn '/').filter fun name => name ≠ [] ∧ name ≠ ['.'], bytes)⟩

/-- The bytes of the file at a place. -/
def file? (dir : Directory) : Place → Option ByteArray
  | .below names => dir.files.lookup names
  | .above => none

/-- There is a directory at a place. -/
def isDirectory (dir : Directory) : Place → Bool
  | .below names =>
    names.isEmpty ||
      dir.files.any fun (path, _) =>
        names.isPrefixOf path && decide (names.length < path.length)
  | .above => true

/-- Go up from a place. -/
def parent : Place → Place
  | .below [] => .above
  | .below names => .below names.dropLast
  | .above => .above

/-- Look a name up. -/
def step (dir : Directory) (place : Place) (name : List Char) : Except FileFault Place :=
  if !dir.isDirectory place then .error .notDirectory
  else if name = [] ∨ name = ['.'] then .ok place
  else if name = ['.', '.'] then .ok (parent place)
  else if longestName < byteSize name then .error .nameTooLong
  else
    match place with
    | .above => .error .notFound
    | .below names =>
      let child := .below (names ++ [name])
      if (dir.file? child).isSome || dir.isDirectory child then .ok child else .error .notFound

/-- Follow names from a place. -/
def follow (dir : Directory) (place : Place) : Names → Except FileFault Place
  | [] => .ok place
  | name :: rest =>
    match dir.step place name with
    | .ok next => dir.follow next rest
    | .error fault => .error fault

/-- The bytes of the file that a path names. -/
def bytesAt (dir : Directory) (path : List Char) : Except FileFault ByteArray :=
  if path.contains '\x00' then .error .nulInPath
  else if path = [] then .error .notFound
  else if pathBound ≤ byteSize path then .error .nameTooLong
  else
    match dir.follow (if path.head? = some '/' then .above else .below []) (path.splitOn '/') with
    | .error fault => .error fault
    | .ok place =>
      match dir.file? place with
      | some bytes => .ok bytes
      | none => .error .isDirectory

/-- The text of the file that a path names. -/
def read (dir : Directory) (path : String) : Except FileFault String :=
  match dir.bytesAt path.toList with
  | .ok bytes => decodeText bytes
  | .error fault => .error fault

end Directory

end DefForms
