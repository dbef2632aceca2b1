import Scaffold.Decimal.Power
import Scaffold.Decimal.Reading
import Scaffold.Stencil.Token

/-!
# Literals of the stencil language

Texts between quotes with their escapes, and numbers: decimal ones with point and exponent,
and integers in base 2, 8 and 16. An underscore may stand between digits.
-/

namespace Scaffold.Stencil

open Scaffold

/-- The code that two halves of a surrogate pair stand for. -/
def pairedCode (high low : Nat) : Nat := 0x10000 + (high - 0xD800) * 0x400 + (low - 0xDC00)

/-- Whether a code is the first half of a surrogate pair. -/
def isHighHalf (n : Nat) : Bool := 0xD800 ≤ n && n < 0xDC00

/-- Whether a code is the second half of a surrogate pair. -/
def isLowHalf (n : Nat) : Bool := 0xDC00 ≤ n && n < 0xE000

/-- Reads `count` digits of base sixteen; the first may be a plus sign. -/
def readHex? (count : Nat) (text : List Char) : Option (Nat × List Char) :=
  if text.length < count then none
  else
    let digits := text.take count
    let digits := match digits with
      | '+' :: rest => rest
      | digits => digits
    (Decimal.readDigits? 16 digits).map fun n => (n, text.drop count)

/-- The character for up to three digits of base eight. -/
def readOctal (text : List Char) : Char × List Char :=
  let isOctal (c : Char) : Bool := '0' ≤ c && c ≤ '7'
  let digits := (text.take 3).takeWhile isOctal
  (Char.ofNat ((Decimal.readDigits? 8 digits).getD 0), text.drop digits.length)

/-- Replaces the escapes of a text; `fuel` bounds its length. An unknown escape stays. -/
def unescape : Nat → List Char → Except Fault (List Char)
  | 0, _ => .ok []
  | _, [] => .ok []
  | fuel + 1, '\\' :: rest =>
    match rest with
    | [] => .error .badEscape
    | c :: after =>
      let put (d : Char) := (unescape fuel after).map (d :: ·)
      match c with
      | '"' | '\\' | '/' | '\'' => put c
      | 'b' => put '\x08'
      | 'f' => put '\x0c'
      | 'n' => put '\n'
      | 'r' => put '\r'
      | 't' => put '\t'
      | 'x' =>
        match readHex? 2 after with
        | some (n, after) => (unescape fuel after).map (Char.ofNat n :: ·)
        | none => .error .badEscape
      | 'u' =>
        match readHex? 4 after with
        | none => .error .badEscape
        | some (n, after) =>
          if isHighHalf n then
            match after with
            | '\\' :: 'u' :: after =>
              match readHex? 4 after with
              | some (m, after) =>
                if isLowHalf m then
                  (unescape fuel after).map (Char.ofNat (pairedCode n m) :: ·)
                else .error .badEscape
              | none => .error .badEscape
            | _ => .error .badEscape
          else if isLowHalf n then .error .badEscape
          else (unescape fuel after).map (Char.ofNat n :: ·)
      | c =>
        if '0' ≤ c ∧ c ≤ '7' then
          let (d, after) := readOctal (c :: after)
          (unescape fuel after).map (d :: ·)
        else (unescape fuel after).map ('\\' :: c :: ·)
  | fuel + 1, c :: rest => (unescape fuel rest).map (c :: ·)

/-- Splits off the inside of a literal up to its closing quote; none if it is not closed. -/
def splitLiteral? (quote : Char) : List Char → Option (List Char × List Char)
  | [] => none
  | c :: rest =>
    if c = '\\' then
      match rest with
      | [] => none
      | e :: rest => (splitLiteral? quote rest).map fun p => (c :: e :: p.1, p.2)
    else if c = quote then some ([], rest)
    else (splitLiteral? quote rest).map fun p => (c :: p.1, p.2)

/-- Where a decimal number may go on from what was read of it. -/
inductive NumberPart where
  | whole | fraction | exponentStart | exponent

/-- The characters of a decimal number at the start of a text, and whether it is a double. -/
def splitDecimal (part : NumberPart) : List Char → List Char × Bool × List Char
  | [] => ([], part matches .fraction | .exponentStart | .exponent, [])
  | c :: rest =>
    let next? : Option NumberPart :=
      match part with
      | .whole =>
        if c.isDigit || c = '_' then some .whole
        else if c = '.' then some .fraction
        else if c = 'e' || c = 'E' then some .exponentStart
        else none
      | .fraction =>
        if c.isDigit || c = '_' then some .fraction
        else if c = 'e' || c = 'E' then some .exponentStart
        else none
      | .exponentStart =>
        if c.isDigit || c = '+' || c = '-' then some .exponent
        else if c = '_' then some .exponentStart
        else none
      | .exponent => if c.isDigit || c = '_' then some .exponent else none
    match next? with
    | some next =>
      let r := splitDecimal next rest
      (c :: r.1, r.2.1, r.2.2)
    | none => ([], part matches .fraction | .exponentStart | .exponent, c :: rest)

/-- The token for the digits of a number. Integers have at most 128 bits. -/
def numberToken (base : Nat) (isFloat : Bool) (chars : List Char) : Token :=
  if chars.getLast? = some '_' then .fault .malformed
  else
    let chars := chars.filter (· ≠ '_')
    if isFloat then
      match Decimal.readFloat? chars with
      | some x => .float x
      | none => .fault .malformed
    else
      match Decimal.readDigits? base chars with
      | some n => if n < Decimal.pow2 128 then .int n else .fault .malformed
      | none => .fault .malformed

/-- Splits off the number that a text starts with. -/
def splitNumber (text : List Char) : Token × List Char :=
  let inBase (base : Nat) (text : List Char) : Token × List Char :=
    let isDigit (c : Char) : Bool :=
      c.isDigit || c = '_' ||
        (base = 16 && (('a' ≤ c && c ≤ 'f') || ('A' ≤ c && c ≤ 'F')))
    (numberToken base false (text.takeWhile isDigit), text.dropWhile isDigit)
  match text with
  | '0' :: 'b' :: rest | '0' :: 'B' :: rest => inBase 2 rest
  | '0' :: 'o' :: rest | '0' :: 'O' :: rest => inBase 8 rest
  | '0' :: 'x' :: rest | '0' :: 'X' :: rest => inBase 16 rest
  | text =>
    let (chars, isFloat, rest) := splitDecimal .whole text
    (numberToken 10 isFloat chars, rest)

end Scaffold.Stencil
