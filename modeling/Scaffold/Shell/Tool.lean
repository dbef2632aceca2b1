import Scaffold.Decimal.Reading

/-!
# Tools of scripts

What the small programs do that scripts call: formatting, counting, replacing characters and
comparing. Each is a function from words and bytes to bytes.
-/

namespace Scaffold.Shell

/-- Whether a pattern of characters, stars and question marks fits a whole text. -/
def fits : List Char → List Char → Bool
  | [], [] => true
  | [], _ :: _ => false
  | '*' :: pattern, text =>
    let rec anywhere : List Char → Bool
      | [] => fits pattern []
      | c :: rest => fits pattern (c :: rest) || anywhere rest
    anywhere text
  | '?' :: pattern, _ :: text => fits pattern text
  | p :: pattern, c :: text => p == c && fits pattern text
  | _ :: _, [] => false

/-- The lengths of the starts of a text that a pattern fits, shortest first. -/
def fittingStarts (pattern text : List Char) : List Nat :=
  (List.range (text.length + 1)).filter fun n => fits pattern (text.take n)

/-- The places from which a pattern fits the rest of a text, first one first. -/
def fittingEnds (pattern text : List Char) : List Nat :=
  (List.range (text.length + 1)).filter fun n => fits pattern (text.drop n)

/-- The bytes of a text. -/
def bytesOf (text : String) : List UInt8 := text.toUTF8.toList

/-- Reads up to some digits of base eight. -/
def readOctal : Nat → Nat → List Char → Nat × List Char
  | 0, n, rest => (n, rest)
  | count + 1, n, c :: rest =>
    if '0' ≤ c ∧ c ≤ '7' then readOctal count (8 * n + (c.toNat - 48)) rest else (n, c :: rest)
  | _, n, [] => (n, [])

/-- What stands for a character after a backslash. -/
def escape : List Char → List UInt8 × List Char
  | 'n' :: rest => ([10], rest)
  | 'r' :: rest => ([13], rest)
  | 't' :: rest => ([9], rest)
  | 'a' :: rest => ([7], rest)
  | 'b' :: rest => ([8], rest)
  | '\\' :: rest => ([92], rest)
  | '"' :: rest => ([34], rest)
  | c :: rest =>
    if '0' ≤ c ∧ c ≤ '7' then
      let (n, rest) := readOctal 3 0 (c :: rest)
      ([n.toUInt8], rest)
    else (bytesOf (String.ofList ['\\', c]), rest)
  | [] => ([92], [])

/-- A text in a field of a format: at most `precision` characters, at least `width`. -/
def padded (width : Nat) (precision : Option Nat) (leftAligned : Bool) (text : String) : String :=
  let cut := match precision with
    | some n => text.toList.take n
    | none => text.toList
  let blanks := List.replicate (width - cut.length) ' '
  String.ofList (if leftAligned then cut ++ blanks else blanks ++ cut)

/-- Writes a format once, and tells the words that are left and whether any was used. -/
def formatOnce : Nat → List Char → List String → Bool → List UInt8 × List String × Bool
  | 0, _, words, used => ([], words, used)
  | _, [], words, used => ([], words, used)
  | fuel + 1, '\\' :: rest, words, used =>
    let (bytes, rest) := escape rest
    let (more, words, used) := formatOnce fuel rest words used
    (bytes ++ more, words, used)
  | fuel + 1, '%' :: '%' :: rest, words, used =>
    let (more, words, used) := formatOnce fuel rest words used
    (37 :: more, words, used)
  | fuel + 1, '%' :: rest, words, _ =>
    let leftAligned := rest.head? = some '-'
    let rest := if leftAligned then rest.drop 1 else rest
    let width := (Decimal.readDigits? 10 (rest.takeWhile Char.isDigit)).getD 0
    let rest := rest.dropWhile Char.isDigit
    let (precision, rest) := match rest with
      | '.' :: rest =>
        (some ((Decimal.readDigits? 10 (rest.takeWhile Char.isDigit)).getD 0),
          rest.dropWhile Char.isDigit)
      | rest => (none, rest)
    let (more, left, used) := formatOnce fuel (rest.drop 1) (words.drop 1) true
    let word := words.head?.getD (if rest.head? = some 's' then "" else "0")
    (bytesOf (padded width precision leftAligned word) ++ more, left, used)
  | fuel + 1, c :: rest, words, used =>
    let (more, words, used) := formatOnce fuel rest words used
    (bytesOf (String.singleton c) ++ more, words, used)

/-- Writes a format again and again until no words are left. -/
def format : Nat → List Char → List String → List UInt8
  | 0, _, _ => []
  | fuel + 1, pattern, words =>
    let (bytes, left, used) := formatOnce (pattern.length + 1) pattern words false
    bytes ++ (if left.isEmpty || !used then [] else format fuel pattern left)

/-- The characters of a set with ranges. -/
def charSet : List Char → List Char
  | a :: '-' :: b :: rest =>
    ((List.range (b.toNat + 1 - a.toNat)).map fun n => Char.ofNat (a.toNat + n)) ++ charSet rest
  | '\\' :: 'n' :: rest => '\n' :: charSet rest
  | c :: rest => c :: charSet rest
  | [] => []

/-- Replaces bytes of a set by those of another one; its last one counts on. -/
def translate (source target : String) (bytes : List UInt8) : List UInt8 :=
  let sources := charSet source.toList
  let targets := charSet target.toList
  bytes.map fun b =>
    match sources.idxOf? (Char.ofNat b.toNat) with
    | some i => ((targets[i]?.or targets.getLast?).map (·.toNat.toUInt8)).getD b
    | none => b

/-- The numbers from one to another. -/
def numbers (first last : Int) : List String :=
  (List.range (last + 1 - first).toNat).map fun (n : Nat) => toString (first + n)

/-- Reads a whole number, with blanks around it. -/
def readNumber? (text : String) : Option Int :=
  let chars := text.toList.filter fun c => !c.isWhitespace
  Decimal.readInt? chars

/-- The value of a comparison of words. -/
def test (isFile : String → Bool) : List String → Bool
  | ["!", a] => a.isEmpty
  | ["-n", a] => !a.isEmpty
  | ["-z", a] => a.isEmpty
  | ["-s", a] | ["-e", a] | ["-f", a] => isFile a
  | ["!", "-e", a] | ["!", "-f", a] => !isFile a
  | [a] => !a.isEmpty
  | [a, "=", b] => a == b
  | [a, "!=", b] => a != b
  | [a, operator, b] =>
    match readNumber? a, readNumber? b with
    | some x, some y =>
      match operator with
      | "-eq" => x == y
      | "-ne" => x != y
      | "-lt" => x < y
      | "-le" => x ≤ y
      | "-gt" => x > y
      | "-ge" => x ≥ y
      | _ => false
    | _, _ => false
  | _ => false

/-! ## Calculations -/

/-- Reads a factor of a calculation. -/
def factor (value : String → Int) (text : List Char) : Int × List Char :=
  match text with
  | '-' :: rest =>
    let digits := rest.takeWhile Char.isAlphanum
    (-(operand digits), rest.drop digits.length)
  | text =>
    let digits := text.takeWhile Char.isAlphanum
    (operand digits, text.drop digits.length)
where
  operand (word : List Char) : Int := (Decimal.readInt? word).getD (value (String.ofList word))

/-- Multiplies and divides from left to right. -/
def product (value : String → Int) : Nat → Int → List Char → Int × List Char
  | 0, n, rest => (n, rest)
  | fuel + 1, n, c :: rest =>
    if c = '*' ∨ c = '/' ∨ c = '%' then
      let (m, rest) := factor value rest
      product value fuel (if c = '*' then n * m else if c = '/' then n.tdiv m else n.tmod m) rest
    else (n, c :: rest)
  | _, n, [] => (n, [])

/-- Adds and subtracts from left to right. -/
def total (value : String → Int) : Nat → Int → List Char → Int
  | 0, n, _ => n
  | fuel + 1, n, c :: rest =>
    if c = '+' ∨ c = '-' then
      let (m, rest) := factor value rest
      let (m, rest) := product value fuel m rest
      total value fuel (if c = '+' then n + m else n - m) rest
    else n
  | _, n, [] => n

/-- The value of a calculation. -/
def calculate (value : String → Int) (expression : String) : Int :=
  let chars := expression.toList.filter fun c => !c.isWhitespace && c ≠ '$'
  let (n, rest) := factor value chars
  let (n, rest) := product value chars.length n rest
  total value chars.length n rest

end Scaffold.Shell
