import Scaffold.Text.CaseTable
import Scaffold.Text.Ranges

/-!
# Letters and their case

Classes and full case mappings of characters, and the lower case of a whole text. In a text
a capital sigma that ends a word becomes a final sigma; every other character maps alone.
-/

namespace Scaffold.Text

/-- White space, as the Unicode standard has it. -/
def isBlank (c : Char) : Bool :=
  if c.val < 128 then c == ' ' || (9 ≤ c.val && c.val ≤ 13) else inRanges blankRanges c.toNat

/-- Letters and what counts as letters. -/
def isAlphabetic (c : Char) : Bool :=
  if c.val < 128 then c.isAlpha else inRanges alphabeticRanges c.toNat

/-- Digits and other numbers. -/
def isNumeric (c : Char) : Bool :=
  if c.val < 128 then c.isDigit else inRanges numericRanges c.toNat

/-- Letters and numbers. -/
def isAlphanumeric (c : Char) : Bool := isAlphabetic c || isNumeric c

/-- The full lower case mapping of one character. -/
def lowerChar (c : Char) : List Char :=
  if c.val < 128 then [c.toLower]
  else (mapCode lowerRuns lowerExpansions c.toNat).map Char.ofNat

/-- The full upper case mapping of one character. -/
def upperChar (c : Char) : List Char :=
  if c.val < 128 then [c.toUpper]
  else (mapCode upperRuns upperExpansions c.toNat).map Char.ofNat

/-- Small letters: those with case that lower case leaves alone. -/
def isLowercase (c : Char) : Bool :=
  inRanges casedRanges c.toNat && lowerChar c == [c] && !inRanges bareCapitalRanges c.toNat

/-- Capital letters: those with case that upper case leaves alone and lower case does not, and
those without lower case. -/
def isUppercase (c : Char) : Bool :=
  (inRanges casedRanges c.toNat && upperChar c == [c] && lowerChar c != [c]) ||
    inRanges bareCapitalRanges c.toNat

/-- Whether the first character that is not looked through has case. -/
def meetsCased (text : List Char) : Bool :=
  match text.dropWhile fun c => inRanges caseIgnorableRanges c.toNat with
  | [] => false
  | c :: _ => inRanges casedRanges c.toNat

/-- Lower case of the characters that follow those in `before`, which is reversed. -/
def lowerAfter (before : List Char) : List Char → List Char
  | [] => []
  | c :: rest =>
    let mapped :=
      if c = 'Σ' then
        if meetsCased before && !meetsCased rest then ['ς'] else ['σ']
      else lowerChar c
    mapped ++ lowerAfter (c :: before) rest

/-- The lower case of a text. -/
def lower (text : String) : String := String.ofList (lowerAfter [] text.toList)

/-- The upper case of a text. -/
def upper (text : String) : String := String.ofList (text.toList.flatMap upperChar)

/-- A text without the white space at its ends. -/
def trim (text : List Char) : List Char :=
  ((text.dropWhile isBlank).reverse.dropWhile isBlank).reverse

/-- Upper case for the letter that starts each word; everything else stays. A character
that is neither alphanumeric nor an underscore ends a word. -/
def titleFrom (atStart : Bool) : List Char → List Char
  | [] => []
  | c :: rest =>
    (if atStart && isAlphabetic c then upperChar c else [c]) ++
      titleFrom (!(isAlphanumeric c || c == '_')) rest

/-- The text with each word's first letter in upper case. -/
def title (text : String) : String := String.ofList (titleFrom true text.toList)

end Scaffold.Text
