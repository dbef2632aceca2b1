import Scaffold.Yaml.Token
import Scaffold.Yaml.Token.Cursor
import Scaffold.Decimal.Reading

/-!
# Scanning scalars

Plain and quoted scalars run over lines: a single line break counts as a blank, and of
several the first one is dropped. Literal scalars keep their lines, folded ones join them.
Every scanner counts `fuel` down, which is more than the length of the text.
-/

namespace Scaffold.Yaml

open Scaffold

/-- What stands between two words of a scalar: blanks, or line breaks. -/
structure Gap where
  blanks : String := ""
  broke : Bool := false
  first : String := ""
  later : String := ""

/-- The text that a gap counts for. -/
def Gap.text (g : Gap) : String :=
  if g.broke then
    if g.first = "\n" then (if g.later.isEmpty then " " else g.later) else g.first ++ g.later
  else g.blanks

/-- Goes over blanks and line breaks. A plain scalar has no tab before its indentation. -/
def takeGap (minColumn : Option Nat) : Nat → Gap → Cursor → Option (Gap × Cursor)
  | 0, g, c => some (g, c)
  | fuel + 1, g, c =>
    match c.rest with
    | [] => some (g, c)
    | ch :: _ =>
      if isSpace ch then
        if g.broke && ch = '\t' && minColumn.any (c.column < ·) then none
        else
          let g := if g.broke then g else { g with blanks := g.blanks.push ch }
          takeGap minColumn fuel g c.skip
      else if isBreak ch then
        let (b, c) := c.takeBreak
        let g :=
          if g.broke then { g with later := g.later ++ b }
          else { g with blanks := "", broke := true, first := b }
        takeGap minColumn fuel g c
      else some (g, c)

/-! ## Plain scalars -/

/-- Whether a plain scalar ends before the next character. -/
def endsPlain (inFlow : Bool) (c : Cursor) : Bool :=
  (c.isAt 0 ':' && c.gapAt 1) ||
    (inFlow && (c.at? 0).any fun ch => [',', '[', ']', '{', '}'].contains ch)

/-- Whether a colon stands where a flow collection does not allow it. -/
def strayColon (inFlow : Bool) (c : Cursor) : Bool :=
  inFlow && c.isAt 0 ':' && (c.at? 1).any fun ch => [',', '?', '[', ']', '{', '}'].contains ch

/-- Reads a word of a plain scalar; none if it has a stray colon. -/
def plainWord (inFlow : Bool) : Nat → String → Cursor → Option (String × Cursor)
  | 0, s, c => some (s, c)
  | fuel + 1, s, c =>
    match c.rest with
    | [] => some (s, c)
    | ch :: _ =>
      if isSpace ch || isBreak ch then some (s, c)
      else if strayColon inFlow c then none
      else if endsPlain inFlow c then some (s, c)
      else plainWord inFlow fuel (s.push ch) c.skip

/-- Reads a plain scalar, and tells whether a line ended after its last word. -/
def plainFrom (inFlow : Bool) (indent : Nat) :
    Nat → String → Gap → Cursor → Option (String × Bool × Cursor)
  | 0, s, g, c => some (s, g.broke, c)
  | fuel + 1, s, g, c =>
    if c.atDocumentMark || c.isAt 0 '#' then some (s, g.broke, c)
    else do
      let (word, c) ← plainWord inFlow (fuel + 1) "" c
      let s := if word.isEmpty then s else s ++ g.text ++ word
      let g := if word.isEmpty then g else {}
      if c.atEnd || !c.gapAt 0 then return (s, g.broke, c)
      let (g, c) ← takeGap (some indent) (fuel + 1) g c
      if !inFlow && c.column < indent then return (s, g.broke, c)
      plainFrom inFlow indent fuel s g c

/-! ## Quoted scalars -/

/-- The characters that an escape of one letter stands for. -/
def escape? : Char → Option Char
  | '0' => some '\x00'
  | 'a' => some '\x07'
  | 'b' => some '\x08'
  | 't' | '\t' => some '\t'
  | 'n' => some '\n'
  | 'v' => some '\x0b'
  | 'f' => some '\x0c'
  | 'r' => some '\r'
  | 'e' => some '\x1b'
  | ' ' => some ' '
  | '"' => some '"'
  | '/' => some '/'
  | '\\' => some '\\'
  | 'N' => some '\u0085'
  | '_' => some '\u00a0'
  | 'L' => some '\u2028'
  | 'P' => some '\u2029'
  | _ => none

/-- How many digits follow the letter of an escape by number. -/
def escapeLength? : Char → Option Nat
  | 'x' => some 2
  | 'u' => some 4
  | 'U' => some 8
  | _ => none

/-- Reads an escape after its backslash. -/
def takeEscape (c : Cursor) : Option (Char × Cursor) := do
  let ch ← c.at? 0
  match escape? ch with
  | some d => return (d, c.skip)
  | none =>
    let count ← escapeLength? ch
    let digits := (c.rest.drop 1).take count
    if digits.length < count then none
    else
      let n ← Decimal.readDigits? 16 digits
      if n > 0x10ffff || (0xd800 ≤ n && n ≤ 0xdfff) then none
      else return (Char.ofNat n, c.skipMany (count + 1))

/-- Reads up to a blank, a line break or the closing quote. The flag tells of a line break
that is escaped. -/
def quotedWord (single : Bool) : Nat → String → Cursor → Option (String × Bool × Cursor)
  | 0, s, c => some (s, false, c)
  | fuel + 1, s, c =>
    match c.rest with
    | [] => some (s, false, c)
    | ch :: _ =>
      if isSpace ch || isBreak ch then some (s, false, c)
      else if single then
        if ch = '\'' then
          if c.isAt 1 '\'' then quotedWord single fuel (s.push ch) (c.skipMany 2)
          else some (s, false, c)
        else quotedWord single fuel (s.push ch) c.skip
      else if ch = '"' then some (s, false, c)
      else if ch = '\\' then
        if (c.at? 1).any isBreak then some (s, true, c.skip.takeBreak.2)
        else do
          let (d, c) ← takeEscape c.skip
          quotedWord single fuel (s.push d) c
      else quotedWord single fuel (s.push ch) c.skip

/-- Reads a quoted scalar after its opening quote. -/
def quotedFrom (single : Bool) : Nat → String → Cursor → Option (String × Cursor)
  | 0, _, _ => none
  | fuel + 1, s, c =>
    if c.atDocumentMark || c.atEnd then none
    else do
      let (s, broke, c) ← quotedWord single (fuel + 1) s c
      if c.isAt 0 (if single then '\'' else '"') then return (s, c.skip)
      let (g, c) ← takeGap none (fuel + 1) { broke } c
      quotedFrom single fuel (s ++ g.text) c

/-! ## Block scalars -/

/-- What happens to the line breaks at the end of a block scalar. -/
inductive Chomp where
  | strip | clip | keep
deriving DecidableEq

/-- Reads a digit that tells the indentation. -/
def takeIncrement (c : Cursor) : Option (Option Nat × Cursor) :=
  match c.rest with
  | ch :: _ =>
    if ch = '0' then none
    else if ch.isDigit then some (some (ch.toNat - 48), c.skip)
    else some (none, c)
  | [] => some (none, c)

/-- Reads a sign that tells what happens to the last line breaks. -/
def takeChomp (c : Cursor) : Chomp × Cursor :=
  if c.isAt 0 '+' then (.keep, c.skip) else if c.isAt 0 '-' then (.strip, c.skip) else (.clip, c)

/-- Reads the head of a block scalar after its indicator. -/
def takeBlockHead (c : Cursor) : Option (Chomp × Option Nat × Cursor) := do
  let (chomp, c) := takeChomp c
  let (increment, c) ← takeIncrement c
  let (chomp, c) := if chomp = .clip then takeChomp c else (chomp, c)
  let c := c.skipSpaces
  let c := if c.isAt 0 '#' then c.skipLine else c
  if !c.breaksAt 0 then none else return (chomp, increment, c.takeBreak.2)

/-- Goes over empty lines and indentation. Without a known indentation, all blanks are
indentation, and the widest is told. -/
def takeBreaks (indent : Option Nat) :
    Nat → Nat → String → Cursor → Option (Nat × String × Cursor)
  | 0, widest, breaks, c => some (widest, breaks, c)
  | fuel + 1, widest, breaks, c =>
    let blanks := (c.rest.takeWhile (· = ' ')).length
    let c := c.skipMany (match indent with
      | some n => min blanks (n - c.column)
      | none => blanks)
    let widest := max widest c.column
    if c.isAt 0 '\t' && indent.all (c.column < ·) then none
    else if !c.atEnd && c.breaksAt 0 then
      let (b, c) := c.takeBreak
      takeBreaks indent fuel widest (breaks ++ b) c
    else some (widest, breaks, c)

/-- Reads the lines of a block scalar. -/
def blockLines (folded : Bool) (chomp : Chomp) (indent : Nat) :
    Nat → String → String → String → Bool → Cursor → Option (String × Cursor)
  | 0, _, _, _, _, _ => none
  | fuel + 1, s, lead, breaks, leadBlank, c =>
    if c.column = indent && !c.atEnd then do
      let blank := (c.at? 0).any isSpace
      let s :=
        if folded && lead = "\n" && !leadBlank && !blank then
          (if breaks.isEmpty then s ++ " " else s) ++ breaks
        else s ++ lead ++ breaks
      let line := c.rest.takeWhile fun ch => !isBreak ch
      let (lead, c) := c.skipLine.takeBreak
      let (_, breaks, c) ← takeBreaks (some indent) (fuel + 1) 0 "" c
      blockLines folded chomp indent fuel (s ++ String.ofList line) lead breaks blank c
    else
      let s := if chomp = .strip then s else s ++ lead
      some (if chomp = .keep then s ++ breaks else s, c)

/-- Reads a block scalar after its indicator, inside of a block with an indentation. -/
def takeBlock (folded : Bool) (parent : Int) (fuel : Nat) (c : Cursor) :
    Option (String × Cursor) := do
  let (chomp, increment, c) ← takeBlockHead c
  match increment with
  | some n =>
    let indent := (max parent 0).toNat + n
    let (_, breaks, c) ← takeBreaks (some indent) fuel 0 "" c
    blockLines folded chomp indent fuel "" "" breaks false c
  | none =>
    let (widest, breaks, c) ← takeBreaks none fuel 0 "" c
    let indent := max widest (max (parent + 1).toNat 1)
    blockLines folded chomp indent fuel "" "" breaks false c

end Scaffold.Yaml
