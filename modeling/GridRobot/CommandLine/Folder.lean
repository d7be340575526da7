import GridRobot.Text.Lines

/-!
# Files and the paths that lead to them

The program reads its files through a function from paths to texts. A folder of files gives such a
function: a path is followed from the folder, one name at a time, and the first name that leads nowhere
decides the fault. A folder holds no other folders, and nothing is known of what lies around it.
-/

namespace GridRobot

namespace CommandLine

/-- Why no text could be read from a path. -/
inductive ReadFault where
  | missing
  /-- The path goes on behind a file. -/
  | notFolder
  /-- The path leads to a folder. -/
  | isFolder
  | nameTooLong
  /-- The bytes of the file are no UTF-8 text. -/
  | notText
  | other (reason : String)
  deriving DecidableEq, Repr

def ReadFault.reason : ReadFault → String
  | .missing => "No such file or directory (os error 2)"
  | .notFolder => "Not a directory (os error 20)"
  | .isFolder => "Is a directory (os error 21)"
  | .nameTooLong => "File name too long (os error 36)"
  | .notText => "stream did not contain valid UTF-8"
  | .other reason => reason

/-- What paths lead to. -/
abbrev Files := String → Except ReadFault String

/-- The files of a folder by name. -/
abbrev Folder := List (String × Except ReadFault String)

/-- The greatest number of bytes of a name. -/
def maxName : Nat := 255

/-- The greatest number of bytes of a path. -/
def maxPath : Nat := 4095

namespace Folder

/-- Follows the names of a path. `folder` is none once the path has left the folder it started in. -/
def follow : (folder : Option Folder) → List String → Except ReadFault String
  | _, [] => .error .isFolder
  | folder, name :: rest =>
      if name = "" ∨ name = "." then follow folder rest
      else if name = ".." then follow none rest
      else if maxName < name.utf8ByteSize then .error .nameTooLong
      else
        match folder.bind (·.lookup name) with
        | none => .error .missing
        | some content => if rest.isEmpty then content else .error .notFolder

/-- What the paths lead to that start in a folder, or with a slash at the root around it. -/
def files (folder : Folder) : Files := fun path =>
  if path = "" then .error .missing
  else if maxPath < path.utf8ByteSize then .error .nameTooLong
  else
    let start := if path.toList.head? = some '/' then none else some folder
    follow start ((Text.pieces '/' path.toList).map String.ofList)

end Folder

end CommandLine

end GridRobot
