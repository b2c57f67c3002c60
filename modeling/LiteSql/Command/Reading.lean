import LiteSql.Text.Quoted

/-!
# Reading files by name

`Reading` is what comes of reading a file. `Folder` is a directory of text files that is
kept in memory; names lead through it as they do through directories on disk.
-/

namespace LiteSql.Command

/-- Why a file could not be read. -/
inductive ReadFailure
  | missing
  | throughFile
  | directory
  | nameTooLong
  | notText
deriving DecidableEq

def ReadFailure.message : ReadFailure → Text
  | .missing => "No such file or directory (os error 2)".toList
  | .throughFile => "Not a directory (os error 20)".toList
  | .directory => "Is a directory (os error 21)".toList
  | .nameTooLong => "File name too long (os error 36)".toList
  | .notText => "stream did not contain valid UTF-8".toList

/-- The content of a file, or why there is none. -/
abbrev Reading := Except ReadFailure String

/-- Whether there is a file or a directory with the name that was read. -/
def Reading.found : Reading → Bool
  | .ok _ => true
  | .error .directory => true
  | .error .notText => true
  | .error _ => false

/-- The parts of a name between its slashes. -/
def nameParts : Text → List Text
  | [] => [[]]
  | c :: rest =>
    if c = '/' then [] :: nameParts rest
    else
      match nameParts rest with
      | [] => [[c]]
      | part :: parts => (c :: part) :: parts

/-- Text files by the parts of their names, and directories that may hold none. -/
structure Folder where
  files : List (List Text × String)
  directories : List (List Text)

namespace Folder

/-- A folder with the given files and directories. -/
def ofNames (files : List (String × String)) (directories : List String) : Folder :=
  ⟨files.map fun (name, content) => (nameParts name.toList, content),
    directories.map fun name => nameParts name.toList⟩

/-- Whether a place is a directory: the folder itself, or one that is given or above
something that is. -/
def isDirectory (folder : Folder) (place : List Text) : Bool :=
  place.isEmpty || folder.directories.any (fun d => place.isPrefixOf d) ||
    folder.files.any fun f => place.isPrefixOf f.1 && place.length < f.1.length

/-- The longest name of a file, in bytes. -/
def longestPart : Nat := 255

/-- The longest name with all directories, in bytes. -/
def longestName : Nat := 4095

/-- Whether a part of a name stays in a directory. -/
def stays (part : Text) : Bool :=
  part.isEmpty || part = ['.']

/-- Reads above the folder, where nothing but the directories above it is known. -/
def outside : List Text → Reading
  | [] => .error .directory
  | part :: parts =>
    if stays part || part = ['.', '.'] then outside parts
    else .error (if longestPart < Text.byteLength part then .nameTooLong else .missing)

/-- Follows the parts of a name from a place on. A part that is empty or a point stays in
a directory, and two points leave it. -/
def follow (folder : Folder) (place : List Text) : List Text → Reading
  | [] =>
    match folder.files.lookup place with
    | some content => .ok content
    | none => .error (if folder.isDirectory place then .directory else .missing)
  | part :: parts =>
    if !folder.isDirectory place then
      .error (if (folder.files.lookup place).isSome then .throughFile else .missing)
    else if stays part then follow folder place parts
    else if part = ['.', '.'] then
      if place.isEmpty then outside parts else follow folder place.dropLast parts
    else if longestPart < Text.byteLength part then .error .nameTooLong
    else follow folder (place ++ [part]) parts

/-- Reads the file with a name relative to the folder. -/
def read (folder : Folder) (name : String) : Reading :=
  if name.isEmpty then .error .missing
  else if longestName < Text.byteLength name.toList then .error .nameTooLong
  else
    match nameParts name.toList with
    | [] :: parts => outside parts
    | parts => follow folder [] parts

end Folder

end LiteSql.Command
