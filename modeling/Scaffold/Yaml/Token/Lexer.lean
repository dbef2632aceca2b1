import Scaffold.Yaml.Token.Scalar
import Scaffold.Yaml.Token.Tag

/-!
# From text to tokens of YAML

A token at which an implicit key may start is held back until the text shows whether a colon
follows: the key has to end on its line and within 1024 characters. `Token.scan` gives the
tokens that come out before the text ends or turns out to be malformed. What is still held
back then does not come out.
-/

namespace Scaffold.Yaml

/-- A place where an implicit key may start: the number of the token there. -/
structure KeySpot where
  number : Nat
  required : Bool
  line : Nat
  column : Nat
  index : Nat

/-- The state of scanning. -/
structure Scanner where
  cursor : Cursor
  /-- The tokens that are held back, and how many came out before them. -/
  held : List Token := []
  given : Nat := 0
  indent : Int := -1
  outerIndents : List Int := []
  /-- The possible key of every open flow collection, the innermost first. -/
  spots : List (Option KeySpot) := [none]
  keyAllowed : Bool := true
  flow : Nat := 0
  done : Bool := false

namespace Scanner

/-- Adds a token. -/
def put (s : Scanner) (t : Token) : Scanner := { s with held := s.held ++ [t] }

/-- Adds a token before the one with a number. -/
def putAt (s : Scanner) (number : Nat) (t : Token) : Scanner :=
  let n := number - s.given
  { s with held := s.held.take n ++ t :: s.held.drop n }

/-- Gives up possible keys that the text has left behind; none if one of them had to be a
key. -/
def dropStale (s : Scanner) : Option Scanner :=
  let isStale (k : KeySpot) : Bool :=
    k.line < s.cursor.line || k.index + 1024 < s.cursor.index
  if s.spots.any fun k => k.any fun k => isStale k && k.required then none
  else some { s with spots := s.spots.map fun k => k.filter fun k => !isStale k }

/-- Gives up the possible key of the innermost collection; none if it had to be a key. -/
def dropSpot (s : Scanner) : Option Scanner :=
  match s.spots with
  | some k :: rest => if k.required then none else some { s with spots := none :: rest }
  | _ => some s

/-- Notes that an implicit key may start here. -/
def noteSpot (s : Scanner) : Option Scanner :=
  if s.keyAllowed then do
    let s ← s.dropSpot
    let c := s.cursor
    let spot : KeySpot :=
      { number := s.given + s.held.length
        required := s.flow = 0 && s.indent = c.column
        line := c.line, column := c.column, index := c.index }
    return { s with spots := some spot :: s.spots.drop 1 }
  else some s

/-- Opens a block at a column that is further to the right, before the token with a number. -/
def openBlock (s : Scanner) (column : Nat) (number : Option Nat) (t : Token) : Scanner :=
  if s.flow = 0 && s.indent < column then
    let s := { s with indent := column, outerIndents := s.indent :: s.outerIndents }
    match number with
    | some n => s.putAt n t
    | none => s.put t
  else s

/-- Closes the blocks that are further to the right than a column. -/
def closeBlocksFrom : List Int → Int → Scanner → Scanner
  | [], _, s => s
  | outer :: rest, column, s =>
    if s.flow = 0 && column < s.indent then
      closeBlocksFrom rest column { (s.put .blockEnd) with indent := outer, outerIndents := rest }
    else s

def closeBlocks (s : Scanner) (column : Int) : Scanner :=
  closeBlocksFrom s.outerIndents column s

/-- Goes over blanks, comments and line ends to the next token. -/
def toNext : Nat → Scanner → Scanner
  | 0, s => s
  | fuel + 1, s =>
    let c := s.cursor
    let c := if c.column = 0 && c.isAt 0 '\ufeff' then c.skip else c
    let tabs := s.flow > 0 || !s.keyAllowed
    let c := c.skipMany (c.rest.takeWhile fun ch => ch = ' ' || (tabs && ch = '\t')).length
    let c := if c.isAt 0 '#' then c.skipLine else c
    if !c.atEnd && c.breaksAt 0 then
      toNext fuel
        { s with cursor := c.takeBreak.2, keyAllowed := s.keyAllowed || s.flow = 0 }
    else { s with cursor := c }

/-- Adds a token of some characters after closing all blocks. -/
def documentMark (s : Scanner) (t : Token) : Option Scanner := do
  let s ← (s.closeBlocks (-1)).dropSpot
  return { (s.put t) with keyAllowed := false, cursor := s.cursor.skipMany 3 }

/-- Adds the end of the stream. -/
def finish (s : Scanner) : Option Scanner := do
  let s ← (s.closeBlocks (-1)).dropSpot
  return { (s.put .streamEnd) with keyAllowed := false, done := true }

/-- Adds a scalar that may be an implicit key. -/
def keyScalar (s : Scanner) (scan : Cursor → Option (Token × Bool × Cursor)) :
    Option Scanner := do
  let s ← s.noteSpot
  let (t, allowed, cursor) ← scan s.cursor
  return { (s.put t) with keyAllowed := allowed, cursor }

/-- Adds the start of a flow collection. -/
def openFlow (s : Scanner) (t : Token) : Option Scanner := do
  let s ← s.noteSpot
  return { (s.put t) with
    spots := none :: s.spots, flow := s.flow + 1, keyAllowed := true, cursor := s.cursor.skip }

/-- Adds the end of a flow collection. -/
def closeFlow (s : Scanner) (t : Token) : Option Scanner := do
  let s ← s.dropSpot
  return { (s.put t) with
    spots := if s.flow = 0 then s.spots else s.spots.drop 1
    flow := s.flow - 1, keyAllowed := false, cursor := s.cursor.skip }

/-- Adds the dash of a block sequence. -/
def blockEntry (s : Scanner) : Option Scanner := do
  let s ←
    if s.flow = 0 then
      if s.keyAllowed then pure (s.openBlock s.cursor.column none .blockSequenceStart) else none
    else pure s
  let s ← s.dropSpot
  return { (s.put .blockEntry) with keyAllowed := true, cursor := s.cursor.skip }

/-- Adds the question mark of an explicit key. -/
def explicitKey (s : Scanner) : Option Scanner := do
  let s ←
    if s.flow = 0 then
      if s.keyAllowed then pure (s.openBlock s.cursor.column none .blockMappingStart) else none
    else pure s
  let s ← s.dropSpot
  return { (s.put .key) with keyAllowed := s.flow = 0, cursor := s.cursor.skip }

/-- Adds the colon before a value, and the key token where an implicit key started. -/
def valueMark (s : Scanner) : Option Scanner := do
  let s ← match s.spots with
    | some k :: rest =>
      let s := s.putAt k.number .key
      let s := s.openBlock k.column (some k.number) .blockMappingStart
      pure { s with spots := none :: rest, keyAllowed := false }
    | _ =>
      let s ←
        if s.flow = 0 then
          if s.keyAllowed then pure (s.openBlock s.cursor.column none .blockMappingStart)
          else none
        else pure s
      pure { s with keyAllowed := s.flow = 0 }
  return { (s.put .value) with cursor := s.cursor.skip }

/-- Adds a block scalar. -/
def blockScalar (s : Scanner) (folded : Bool) : Option Scanner := do
  let s ← s.dropSpot
  let (text, cursor) ← takeBlock folded s.indent (s.cursor.rest.length + 2) s.cursor.skip
  return { (s.put (.scalar text (if folded then .folded else .literal))) with
    keyAllowed := true, cursor }

/-- The characters that a plain scalar does not start with. -/
def isIndicator (c : Char) : Bool := "-?:,[]{}#&*!|>'\"%@`".toList.contains c

/-- Whether a plain scalar starts here. -/
def atPlain (s : Scanner) : Bool :=
  let c := s.cursor
  match c.at? 0 with
  | none => false
  | some ch =>
    (!c.gapAt 0 && !isIndicator ch) ||
      (ch = '-' && !(c.at? 1).any isSpace) ||
      (s.flow = 0 && (ch = '?' || ch = ':') && !c.gapAt 1)

/-- Adds the next tokens; none where the text is malformed. -/
def fetch (s : Scanner) : Option Scanner := do
  let fuel := s.cursor.rest.length + 2
  let s ← (s.toNext fuel).dropStale
  let s := s.closeBlocks s.cursor.column
  let c := s.cursor
  let inFlow : Bool := s.flow > 0
  match c.at? 0 with
  | none => s.finish
  | some ch =>
    if c.column = 0 && ch = '%' then
      let s ← (s.closeBlocks (-1)).dropSpot
      let (t, cursor) ← takeDirective s.cursor.skip
      return { (s.put t) with keyAllowed := false, cursor }
    else if c.atDocumentMark then
      s.documentMark (if ch = '-' then .documentStart else .documentEnd)
    else if ch = '[' then s.openFlow .flowSequenceStart
    else if ch = '{' then s.openFlow .flowMappingStart
    else if ch = ']' then s.closeFlow .flowSequenceEnd
    else if ch = '}' then s.closeFlow .flowMappingEnd
    else if ch = ',' then
      let s ← s.dropSpot
      return { (s.put .flowEntry) with keyAllowed := true, cursor := c.skip }
    else if ch = '-' && c.gapAt 1 then s.blockEntry
    else if ch = '?' && (inFlow || c.gapAt 1) then s.explicitKey
    else if ch = ':' && (inFlow || c.gapAt 1) then s.valueMark
    else if ch = '*' then
      s.keyScalar fun c => (takeAnchor c.skip).map fun r => (.alias r.1, false, r.2)
    else if ch = '&' then
      s.keyScalar fun c => (takeAnchor c.skip).map fun r => (.anchor r.1, false, r.2)
    else if ch = '!' then
      s.keyScalar fun c => (takeTag inFlow c).map fun r => (r.1, false, r.2)
    else if ch = '|' && !inFlow then s.blockScalar false
    else if ch = '>' && !inFlow then s.blockScalar true
    else if ch = '\'' then
      s.keyScalar fun c => (quotedFrom true fuel "" c.skip).map fun r =>
        (.scalar r.1 .single, false, r.2)
    else if ch = '"' then
      s.keyScalar fun c => (quotedFrom false fuel "" c.skip).map fun r =>
        (.scalar r.1 .double, false, r.2)
    else if s.atPlain then
      s.keyScalar fun c => (plainFrom inFlow (s.indent + 1).toNat fuel "" {} c).map fun r =>
        (.scalar r.1 .plain, r.2.1, r.2.2)
    else none

/-- Whether the first token held back may be an implicit key. -/
def mayBeKey (s : Scanner) : Bool := s.spots.any fun k => k.any (·.number = s.given)

/-- The tokens that come out, and whether the text is malformed after them. -/
def run : Nat → Scanner → List Token × Bool
  | 0, _ => ([], true)
  | fuel + 1, s =>
    match s.held with
    | [] =>
      if s.done then ([], false)
      else
        match s.fetch with
        | some s => run fuel s
        | none => ([], true)
    | t :: held =>
      match s.dropStale with
      | none => ([], true)
      | some s =>
        if s.mayBeKey && !s.done then
          match s.fetch with
          | some s => run fuel s
          | none => ([], true)
        else
          let r := run fuel { s with held, given := s.given + 1 }
          (t :: r.1, r.2)

end Scanner

/-- Whether a character may occur in a YAML text. -/
def isAllowed (c : Char) : Bool :=
  let n := c.toNat
  n = 9 || n = 10 || n = 13 || (32 ≤ n && n ≤ 0x7e) || n = 0x85 ||
    (0xa0 ≤ n && n ≤ 0xfffd) || (0x10000 ≤ n && n ≤ 0x10ffff)

/-- The tokens of a text, and whether it is malformed after them. A character that may not
occur spoils the whole text. -/
def Token.scan (text : List Char) : List Token × Bool :=
  let text := match text with
    | '\ufeff' :: rest => rest
    | text => text
  if text.all isAllowed then
    Scanner.run (12 * text.length + 64) { cursor := { rest := text } }
  else ([], true)

end Scaffold.Yaml
