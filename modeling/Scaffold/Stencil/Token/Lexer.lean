import Scaffold.Stencil.Token.Literal
import Scaffold.Text.Case

/-!
# From text to tokens

`Token.ofExpression` splits an expression, `Token.ofStencil` a whole stencil. A minus sign at
a mark takes away the white space on its side of the mark, a plus sign does nothing. Inside
of brackets the end of a region is not looked for. Comments vanish, and between the tags
`raw` and `endraw` nothing is a mark.
-/

namespace Scaffold.Stencil

open Scaffold

/-- The white space that separates words inside a region. -/
def isGap (c : Char) : Bool :=
  c = ' ' || c = '\t' || c = '\n' || c = '\r' || c = '\x0c'

def isWordStart (c : Char) : Bool := c.isAlpha || c = '_'

def isWordPart (c : Char) : Bool := c.isAlphanum || c = '_'

/-- The sign that a text starts with. -/
def splitSign? : List Char → Option (Sign × List Char)
  | '/' :: '/' :: rest => some (.slashSlash, rest)
  | '*' :: '*' :: rest => some (.power, rest)
  | '=' :: '=' :: rest => some (.equals, rest)
  | '!' :: '=' :: rest => some (.notEquals, rest)
  | '>' :: '=' :: rest => some (.greaterEq, rest)
  | '<' :: '=' :: rest => some (.lessEq, rest)
  | '+' :: rest => some (.plus, rest)
  | '-' :: rest => some (.minus, rest)
  | '*' :: rest => some (.times, rest)
  | '/' :: rest => some (.slash, rest)
  | '%' :: rest => some (.percent, rest)
  | '~' :: rest => some (.tilde, rest)
  | '<' :: rest => some (.less, rest)
  | '>' :: rest => some (.greater, rest)
  | '.' :: rest => some (.dot, rest)
  | ',' :: rest => some (.comma, rest)
  | ':' :: rest => some (.colon, rest)
  | '|' :: rest => some (.pipe, rest)
  | '=' :: rest => some (.assign, rest)
  | '(' :: rest => some (.parenOpen, rest)
  | ')' :: rest => some (.parenClose, rest)
  | '[' :: rest => some (.bracketOpen, rest)
  | ']' :: rest => some (.bracketClose, rest)
  | '{' :: rest => some (.braceOpen, rest)
  | '}' :: rest => some (.braceClose, rest)
  | _ => none

/-- What a sign adds to the number of open brackets. -/
def Sign.nesting : Sign → Int
  | parenOpen | bracketOpen | braceOpen => 1
  | parenClose | bracketClose | braceClose => -1
  | _ => 0

/-- The next token inside a region; the text does not start with white space and is not
empty. -/
def splitToken (text : List Char) : Token × List Char :=
  match splitSign? text with
  | some (sign, rest) => (.sign sign, rest)
  | none =>
    match text with
    | [] => (.fault .malformed, [])
    | c :: rest =>
      if c = '"' ∨ c = '\'' then
        match splitLiteral? c rest with
        | none => (.fault .malformed, [])
        | some (inside, rest) =>
          match unescape (inside.length + 1) inside with
          | .ok value => (.str (String.ofList value), rest)
          | .error fault => (.fault fault, [])
      else if c.isDigit then splitNumber text
      else if isWordStart c then
        (.word (String.ofList (text.takeWhile isWordPart)), text.dropWhile isWordPart)
      else (.fault .malformed, [])

/-- Where a text is read: between regions, or inside one with a number of open brackets. -/
inductive Place where
  | outside (trim : Bool)
  | inside (isTag : Bool) (nesting : Int)

/-- The end of a region: its token, whether it takes away the white space after it, and the
rest of the text. -/
def splitEnd? (isTag : Bool) : List Char → Option (Bool × List Char)
  | '-' :: c :: '}' :: rest =>
    if c = (if isTag then '%' else '}') then some (true, rest) else none
  | '+' :: c :: '}' :: rest =>
    if c = (if isTag then '%' else '}') then some (false, rest) else none
  | c :: '}' :: rest => if c = (if isTag then '%' else '}') then some (false, rest) else none
  | _ => none

/-- Splits a text before its first mark: what stands before it and what follows its brace. -/
def splitMark : List Char → List Char × List Char
  | [] => ([], [])
  | '{' :: c :: rest =>
    if c = '{' ∨ c = '%' ∨ c = '#' then ([], c :: rest)
    else
      let r := splitMark (c :: rest)
      ('{' :: r.1, r.2)
  | c :: rest =>
    let r := splitMark rest
    (c :: r.1, r.2)

/-- What follows the first `#}`, and the character before it. -/
def splitComment? (before : Char) : List Char → Option (Char × List Char)
  | '#' :: '}' :: rest => some (before, rest)
  | [] => none
  | c :: rest => splitComment? c rest

/-- The rest after a tag that is only a name, and whether its end takes away white space. -/
def splitBareTag? (name : String) (mayTrim : Bool) (text : List Char) :
    Option (Bool × List Char) :=
  let text := match text with
    | '-' :: rest => if mayTrim then rest else text
    | '+' :: rest => if mayTrim then rest else text
    | text => text
  let text := text.dropWhile isGap
  if name.toList.isPrefixOf text then
    let text := (text.drop name.length).dropWhile isGap
    match text with
    | '-' :: '%' :: '}' :: rest => some (true, rest)
    | '+' :: '%' :: '}' :: rest => some (false, rest)
    | '%' :: '}' :: rest => some (false, rest)
    | _ => none
  else none

/-- The text up to the tag that ends raw text, whether that tag's start and end take away
white space, and the rest. -/
def splitRaw? : List Char → Option (List Char × Bool × Bool × List Char)
  | [] => none
  | c :: rest =>
    let go := (splitRaw? rest).map fun r => (c :: r.1, r.2)
    match c, rest with
    | '{', '%' :: after =>
      match splitBareTag? "endraw" true after with
      | some (trimAfter, rest) => some ([], after.head? = some '-', trimAfter, rest)
      | none => go
    | _, _ => go

def trimStart (text : List Char) : List Char := text.dropWhile Text.isBlank

def trimEnd (text : List Char) : List Char := (text.reverse.dropWhile Text.isBlank).reverse

/-- A text as a token, unless there is nothing of it. -/
def textToken (text : List Char) : List Token :=
  if text.isEmpty then [] else [.text (String.ofList text)]

/-- The tokens of a text; `fuel` is more than its length, and every step takes at least one
character off. -/
def scan : Nat → Place → List Char → List Token
  | 0, _, _ => []
  | fuel + 1, .outside trim, text =>
    let text := if trim then trimStart text else text
    let (lead, mark) := splitMark text
    match mark with
    | [] => textToken lead
    | kind :: after =>
      let lead := if after.head? = some '-' then trimEnd lead else lead
      let body := match after with
        | '-' :: rest => rest
        | '+' :: rest => rest
        | after => after
      textToken lead ++
        if kind = '#' then
          match splitComment? '#' body with
          | none => [.fault .malformed]
          | some (before, rest) => scan fuel (.outside (before = '-')) rest
        else if kind = '{' then .valueStart :: scan fuel (.inside false 0) body
        else
          match splitBareTag? "raw" false body with
          | none => .tagStart :: scan fuel (.inside true 0) body
          | some (trimsStart, rest) =>
            match splitRaw? rest with
            | none => [.fault .malformed]
            | some (raw, trimsEnd, trimAfter, rest) =>
              let raw := if trimsStart then trimStart raw else raw
              let raw := if trimsEnd then trimEnd raw else raw
              .text (String.ofList raw) :: scan fuel (.outside trimAfter) rest
  | fuel + 1, .inside isTag nesting, text =>
    match if nesting = 0 then splitEnd? isTag text else none with
    | some (trim, rest) =>
      (if isTag then Token.tagEnd else .valueEnd) :: scan fuel (.outside trim) rest
    | none =>
      match text with
      | [] => []
      | c :: rest =>
        if isGap c then scan fuel (.inside isTag nesting) rest
        else
          match splitToken text with
          | (.sign s, rest) => .sign s :: scan fuel (.inside isTag (nesting + s.nesting)) rest
          | (.fault f, _) => [.fault f]
          | (token, rest) => token :: scan fuel (.inside isTag nesting) rest

/-- The tokens of an expression. -/
def Token.ofExpression (text : List Char) : List Token :=
  scan (text.length + 1) (.inside false 0) text

/-- The tokens of a stencil. -/
def Token.ofStencil (text : List Char) : List Token :=
  scan (text.length + 1) (.outside false) text

end Scaffold.Stencil
