/-!
# Faults of files

Why an operation on files failed, in the words of the system.
-/

namespace Scaffold.Disk

/-- Why an operation on files failed. -/
inductive Fault where
  | notFound
  | denied
  | alreadyExists
  | notDirectory
  | isDirectory
  | tooManyLinks
  /-- The file is no program. -/
  | notProgram
  /-- The bytes are no text. -/
  | notText
  /-- Only the content of files can be copied. -/
  | notFile
  | outsideTemplate (path : String)
  | outsideProject (path : String)
  /-- A fault on the way through a directory. -/
  | walking (path : String) (cause : Fault)
  /-- A link leads back to a directory that it is in. -/
  | cycle (path ancestor : String)
  /-- What is shown or read as a question failed. -/
  | words (text : String)
deriving DecidableEq, Repr

/-- The sentence for a fault. -/
def Fault.message : Fault → String
  | notFound => "No such file or directory (os error 2)"
  | denied => "Permission denied (os error 13)"
  | alreadyExists => "File exists (os error 17)"
  | notDirectory => "Not a directory (os error 20)"
  | isDirectory => "Is a directory (os error 21)"
  | tooManyLinks => "Too many levels of symbolic links (os error 40)"
  | notProgram => "Exec format error (os error 8)"
  | notText => "stream did not contain valid UTF-8"
  | notFile => "the source path is neither a regular file nor a symlink to a regular file"
  | outsideTemplate path => s!"`{path}` is outside the template"
  | outsideProject path => s!"`{path}` is outside the project"
  | walking path cause => s!"IO error for operation on {path}: {cause.message}"
  | cycle path ancestor => s!"File system loop found: {path} points to an ancestor {ancestor}"
  | words text => text

end Scaffold.Disk
