import Scaffold.Text.Split

/-!
# Paths

A path is kept as it is written, since messages show it that way. Its parts are what it says:
an empty piece says nothing, and neither does a dot that is not the first piece.

`normalize` reads an absolute path from left to right with a stack. `containedJoin` extends a
root by a path that cannot leave it.
-/

namespace Scaffold

/-- A path as it is written. -/
structure Path where
  text : String
deriving DecidableEq, Repr, Inhabited

namespace Path

/-- A part of a path. -/
inductive Part where
  | root
  /-- A dot in the first place. -/
  | here
  | up
  | name (name : String)
deriving DecidableEq, Repr

/-- The part that a piece stands for, unless it says nothing. -/
def partOf? (piece : List Char) : Option Part :=
  match piece with
  | [] | ['.'] => none
  | ['.', '.'] => some .up
  | _ => some (.name (String.ofList piece))

/-- The parts of a text. -/
def partsOf (text : List Char) : List Part :=
  let ps := Text.pieces '/' text
  let start := match text with
    | '/' :: _ => [.root]
    | _ => if ps.head? = some ['.'] then [.here] else []
  start ++ ps.filterMap partOf?

/-- The parts of a path. -/
def parts (p : Path) : List Part := partsOf p.text.toList

/-- Whether a path starts at the top. -/
def isAbsolute (p : Path) : Bool := p.text.startsWith "/"

/-- A path followed by another one, which counts alone if it is absolute. -/
def join (p : Path) (next : String) : Path :=
  if next.startsWith "/" then ⟨next⟩
  else if p.text.isEmpty || p.text.endsWith "/" then ⟨p.text ++ next⟩
  else ⟨p.text ++ "/" ++ next⟩

/-- A path without the slashes at its end; the top keeps one. -/
def withoutSlash (p : Path) : Path :=
  match (p.text.toList.reverse.dropWhile (· = '/')).reverse with
  | [] => if p.isAbsolute then ⟨"/"⟩ else p
  | chars => ⟨String.ofList chars⟩

/-- A part as it is written. -/
def Part.text : Part → String
  | root => "/"
  | here => "."
  | up => ".."
  | name n => n

/-- The path of some parts. -/
def ofParts (parts : List Part) : Path := parts.foldl (fun p part => p.join part.text) ⟨""⟩

/-- The path without its last part; the top and the empty path have none. -/
def parent? (p : Path) : Option Path :=
  match p.parts.reverse with
  | [] | [.root] => none
  | _ :: rest => some (ofParts rest.reverse)

/-- The last part, if it is a name. -/
def fileName? (p : Path) : Option String :=
  match p.parts.getLast? with
  | some (.name n) => some n
  | _ => none

/-- What stands after the last dot of the file name, unless that is its first character. -/
def extension? (p : Path) : Option String := do
  let chars := (← p.fileName?).toList.reverse
  let ext := chars.takeWhile (· ≠ '.')
  if ext.length + 1 < chars.length then some (String.ofList ext.reverse) else none

/-- Goes over one part with the stack of names, last one first. -/
def stepNormal (stack : List String) : Part → List String
  | .root => []
  | .here => stack
  | .up => stack.drop 1
  | .name n => n :: stack

/-- The absolute path of names, last one first. -/
def ofStack (stack : List String) : Path := ⟨"/" ++ "/".intercalate stack.reverse⟩

/-- An absolute path without dots: a double dot drops the name before it, if there is one. -/
def normalize (p : Path) : Path := ofStack (p.parts.foldl stepNormal [])

/-- A path and those above it, from the path to the top. -/
def ancestorsOfStack : List String → List Path
  | [] => [ofStack []]
  | n :: rest => ofStack (n :: rest) :: ancestorsOfStack rest

/-- A normal path and those above it, the deepest first. -/
def ancestors (p : Path) : List Path := ancestorsOfStack (p.parts.foldl stepNormal [])

/-- Extends a root by the names of a path; none if the path is absolute or goes up. -/
def containedJoin (root : Path) (relative : String) : Option Path :=
  (partsOf relative.toList).foldl (fun p part =>
    p.bind fun p =>
      match part with
      | .name n => some (p.join n)
      | .here => some p
      | .up | .root => none) (some root)

end Path

end Scaffold
