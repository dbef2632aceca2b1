import Scaffold.Decimal.Reading
import Scaffold.Yaml.Token
import Scaffold.Yaml.Token.Cursor

/-!
# Scanning tags, anchors and directives
-/

namespace Scaffold.Yaml

open Scaffold

/-- Whether a character may be part of the name of a tag. -/
def isTagPart (verbatim : Bool) (c : Char) : Bool :=
  isNamePart c || ";/?:@&=+$.%!~*'()".toList.contains c ||
    (verbatim && [',', '[', ']'].contains c)

/-- Puts bytes together to text; `fuel` bounds their number. -/
def decodeUtf8? (bytes : List Nat) : Option String :=
  String.fromUTF8? ⟨(bytes.map UInt8.ofNat).toArray⟩

/-- Reads the bytes that are written as a percent sign and two digits. -/
def takeBytes : Nat → List Char → List Nat × List Char
  | 0, text => ([], text)
  | fuel + 1, '%' :: a :: b :: rest =>
    match Decimal.readDigits? 16 [a, b] with
    | some n =>
      let r := takeBytes fuel rest
      (n :: r.1, r.2)
    | none => ([], '%' :: a :: b :: rest)
  | _ + 1, text => ([], text)

/-- Replaces bytes by number in the name of a tag. -/
def decodeTag? : Nat → List Char → Option String
  | 0, _ => some ""
  | _ + 1, [] => some ""
  | fuel + 1, '%' :: rest =>
    match takeBytes (fuel + 1) ('%' :: rest) with
    | ([], _) => none
    | (bytes, rest) => do
      let s ← decodeUtf8? bytes
      return s ++ (← decodeTag? fuel rest)
  | fuel + 1, c :: rest => (String.singleton c ++ ·) <$> decodeTag? fuel rest

/-- Reads the name of a tag. The start of it may have been read before. -/
def takeTagName (verbatim : Bool) (start : String) (c : Cursor) : Option (String × Cursor) := do
  let name := c.rest.takeWhile (isTagPart verbatim)
  if start.isEmpty && name.isEmpty then none
  let decoded ← decodeTag? (name.length + 1) name
  return (String.ofList (start.toList.drop 1) ++ decoded, c.skipMany name.length)

/-- Reads a tag: its handle and its name. -/
def takeTag (inFlow : Bool) (c : Cursor) : Option (Token × Cursor) := do
  let (handle, suffix, c) ←
    if c.isAt 1 '<' then do
      let (suffix, c) ← takeTagName true "" (c.skipMany 2)
      if !c.isAt 0 '>' then none
      pure ("", suffix, c.skip)
    else do
      let name := (c.rest.drop 1).takeWhile isNamePart
      let c := c.skipMany (name.length + 1)
      let start := "!" ++ String.ofList name
      if c.isAt 0 '!' then
        let (suffix, c) ← takeTagName false "" c.skip
        pure (start ++ "!", suffix, c)
      else
        let (suffix, c) ← takeTagName false start c
        if suffix.isEmpty then pure ("", "!", c) else pure ("!", suffix, c)
  if c.gapAt 0 || (inFlow && c.isAt 0 ',') then return (.tag handle suffix, c) else none

/-- Reads the name of an anchor after its sign. -/
def takeAnchor (c : Cursor) : Option (String × Cursor) :=
  let name := c.rest.takeWhile isNamePart
  let c := c.skipMany name.length
  let ends := c.gapAt 0 || (c.at? 0).any fun ch => "?:,]\x7d%@`".toList.contains ch
  if name.isEmpty || !ends then none else some (String.ofList name, c)

/-- Reads a number of a version. -/
def takeVersionPart (c : Cursor) : Option (Nat × Cursor) :=
  let digits := c.rest.takeWhile Char.isDigit
  if digits.length > 9 then none
  else (Decimal.readDigits? 10 digits).map fun n => (n, c.skipMany digits.length)

/-- Reads a directive after its percent sign, up to the end of its line. -/
def takeDirective (c : Cursor) : Option (Token × Cursor) := do
  let name := c.rest.takeWhile isNamePart
  let c := c.skipMany name.length
  if name.isEmpty || !c.gapAt 0 then none
  let (token, c) ←
    if name = "YAML".toList then do
      let (major, c) ← takeVersionPart c.skipSpaces
      if !c.isAt 0 '.' then none
      let (minor, c) ← takeVersionPart c.skip
      pure (Token.versionDirective major minor, c)
    else if name = "TAG".toList then do
      let c := c.skipSpaces
      if !c.isAt 0 '!' then none
      let middle := (c.rest.drop 1).takeWhile isNamePart
      let c := c.skipMany (middle.length + 1)
      let closed := c.isAt 0 '!'
      if !closed && !middle.isEmpty then none
      let c := if closed then c.skip else c
      let handle := "!" ++ String.ofList middle ++ (if closed then "!" else "")
      if !((c.at? 0).any isSpace) then none
      let (lead, c) ← takeTagName true "" c.skipSpaces
      if !c.gapAt 0 then none
      pure (Token.tagDirective handle lead, c)
    else none
  let c := c.skipSpaces
  let c := if c.isAt 0 '#' then c.skipLine else c
  if !c.breaksAt 0 then none else return (token, c.takeBreak.2)

end Scaffold.Yaml
