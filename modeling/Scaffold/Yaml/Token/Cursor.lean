/-!
# A place in a YAML text

A `Cursor` is the rest of a text together with the line and column that it starts at. Line
breaks are line feed, carriage return, the two of them, next line, and the line and paragraph
separators; `takeBreak` gives the break as it counts in a scalar.
-/

namespace Scaffold.Yaml

/-- Whether a character ends a line. -/
def isBreak (c : Char) : Bool :=
  c = '\n' || c = '\r' || c = '\u0085' || c = '\u2028' || c = '\u2029'

/-- Whether a character is a blank or a tab. -/
def isSpace (c : Char) : Bool := c = ' ' || c = '\t'

/-- Whether a character may be part of an anchor or a tag handle. -/
def isNamePart (c : Char) : Bool := c.isAlphanum || c = '_' || c = '-'

/-- A place in a text. -/
structure Cursor where
  rest : List Char
  line : Nat := 0
  column : Nat := 0
  index : Nat := 0

namespace Cursor

/-- The character `n` places ahead. -/
def at? (c : Cursor) (n : Nat) : Option Char := c.rest[n]?

/-- Whether the character `n` places ahead is a given one. -/
def isAt (c : Cursor) (n : Nat) (ch : Char) : Bool := c.rest[n]? = some ch

/-- Whether the character `n` places ahead ends a line or the text. -/
def breaksAt (c : Cursor) (n : Nat) : Bool :=
  match c.rest[n]? with
  | some ch => isBreak ch
  | none => true

/-- Whether the character `n` places ahead is blank or ends a line or the text. -/
def gapAt (c : Cursor) (n : Nat) : Bool :=
  match c.rest[n]? with
  | some ch => isSpace ch || isBreak ch
  | none => true

/-- Whether the text ends here. -/
def atEnd (c : Cursor) : Bool := c.rest.isEmpty

/-- Goes over one character of the line. -/
def skip (c : Cursor) : Cursor :=
  match c.rest with
  | [] => c
  | _ :: rest => { c with rest, column := c.column + 1, index := c.index + 1 }

/-- Goes over some characters of the line. -/
def skipMany (c : Cursor) (n : Nat) : Cursor :=
  { c with rest := c.rest.drop n, column := c.column + n, index := c.index + n }

/-- Goes over a line break, and gives the break that counts for it. -/
def takeBreak (c : Cursor) : String × Cursor :=
  match c.rest with
  | '\r' :: '\n' :: rest =>
    ("\n", { rest, line := c.line + 1, column := 0, index := c.index + 2 })
  | ch :: rest =>
    if isBreak ch then
      (if ch = '\u2028' || ch = '\u2029' then String.singleton ch else "\n",
        { rest, line := c.line + 1, column := 0, index := c.index + 1 })
    else ("", c)
  | [] => ("", c)

/-- Goes over the rest of the line, but not over its break. -/
def skipLine (c : Cursor) : Cursor :=
  c.skipMany (c.rest.takeWhile fun ch => !isBreak ch).length

/-- Goes over blanks and tabs. -/
def skipSpaces (c : Cursor) : Cursor := c.skipMany (c.rest.takeWhile isSpace).length

/-- Whether a line of three dashes or three dots starts here. -/
def atDocumentMark (c : Cursor) : Bool :=
  c.column = 0 && c.gapAt 3 &&
    ((c.isAt 0 '-' && c.isAt 1 '-' && c.isAt 2 '-') ||
      (c.isAt 0 '.' && c.isAt 1 '.' && c.isAt 2 '.'))

end Cursor

end Scaffold.Yaml
