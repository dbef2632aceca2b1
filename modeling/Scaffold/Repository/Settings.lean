import Scaffold.Entries
import Scaffold.Text.Case

/-!
# Settings of repositories

Settings are written in lines below headings. A heading in square brackets is a name, with a
second name in quotes after it if need be, and a line below it gives a value to a key. The full
name of a setting is all of these with dots between them.

A value may stand in quotes, wholly or in part; outside of them blanks at its ends do not count
and a `#` or `;` starts a remark. `read_quoted` says that what `quoted` writes is read back.
-/

namespace Scaffold

namespace Settings

/-- Whether a character is a blank inside of a line. -/
def isBlank (c : Char) : Bool := c = ' ' || c = '\t' || c = '\r' || c = '\x0b' || c = '\x0c'

/-- Whether a character can be in the name of a key. -/
def isKeyChar (c : Char) : Bool := c.isAlphanum || c = '-'

/-- Removes blanks at the end of a value that is kept with its last character first. -/
def trimmed (value : List Char) : List Char := (value.dropWhile isBlank).reverse

/-- The rest after the end of the line. -/
def afterLine (text : List Char) : List Char := (text.dropWhile (· ≠ '\n')).drop 1

/-- The character that stands after a backslash for itself or another one. -/
def escaped? : Char → Option Char
  | 'n' => some '\n'
  | 't' => some '\t'
  | 'b' => some '\x08'
  | '"' => some '"'
  | '\\' => some '\\'
  | _ => none

/-- Reads a value up to the end of its line. `value` is what was read so far, last character
first, and `kept` the part of it that blanks do not change. -/
def readValue (inQuotes : Bool) (kept value : List Char) :
    List Char → Option (List Char × List Char)
  | [] => some (kept.reverse ++ trimmed value, [])
  | '\n' :: rest => some (kept.reverse ++ trimmed value, rest)
  | '\\' :: '\n' :: rest => readValue inQuotes kept value rest
  | '\\' :: c :: rest => (escaped? c).bind fun e => readValue inQuotes (e :: value ++ kept) [] rest
  | '"' :: rest => readValue (!inQuotes) (value ++ kept) [] rest
  | c :: rest =>
    if inQuotes then readValue inQuotes (c :: value ++ kept) [] rest
    else if c = '#' ∨ c = ';' then some (kept.reverse ++ trimmed value, afterLine rest)
    else readValue inQuotes kept (c :: value) rest

/-- Reads the second name of a heading, after its opening quote. -/
def readSecond (name : List Char) : List Char → Option (List Char × List Char)
  | [] | '\n' :: _ => none
  | '\\' :: c :: rest => if c = '\n' then none else readSecond (c :: name) rest
  | '"' :: rest => some (name.reverse, rest)
  | c :: rest => readSecond (c :: name) rest

/-- Reads a heading, after its opening bracket. -/
def readHeading (text : List Char) : Option (List Char × List Char) :=
  let isNameChar (c : Char) := isKeyChar c || c = '.'
  let name := (text.takeWhile isNameChar).map (·.toLower)
  match text.dropWhile isNameChar with
  | ']' :: rest => if name.isEmpty then none else some (name, rest)
  | c :: rest =>
    if isBlank c then
      match rest.dropWhile isBlank with
      | '"' :: rest =>
        match readSecond [] rest with
        | some (second, ']' :: rest) => some (name ++ '.' :: second, rest)
        | _ => none
      | _ => none
    else none
  | [] => none

/-- Reads a key and its value, if it has one. -/
def readKey (text : List Char) : Option (List Char × List Char × List Char) :=
  let key := (text.takeWhile isKeyChar).map (·.toLower)
  if key.isEmpty then none
  else
    match (text.dropWhile isKeyChar).dropWhile isBlank with
    | '=' :: rest => (readValue false [] [] (rest.dropWhile isBlank)).map fun r => (key, r.1, r.2)
    | [] => some (key, [], [])
    | '\n' :: rest => some (key, [], rest)
    | c :: rest => if c = '#' ∨ c = ';' then some (key, [], afterLine rest) else none

/-- Reads settings below a heading, in at most `fuel` steps. -/
def readAll : Nat → List Char → Entries String → List Char → Option (Entries String)
  | 0, _, _, _ => none
  | fuel + 1, heading, settings, text =>
    match text with
    | [] => some settings
    | '[' :: rest => (readHeading rest).bind fun r => readAll fuel r.1 settings r.2
    | c :: rest =>
      if isBlank c || c = '\n' then readAll fuel heading settings rest
      else if c = '#' ∨ c = ';' then readAll fuel heading settings (afterLine rest)
      else
        (readKey text).bind fun (key, value, rest) =>
          let name := if heading.isEmpty then key else heading ++ '.' :: key
          readAll fuel heading (Entries.insert (String.ofList name) (String.ofList value) settings)
            rest

/-- The settings of a text, by their full names. -/
def ofText (text : String) : Option (Entries String) :=
  let chars := text.toList
  readAll (chars.length + 1) [] [] chars

/-- Writes the characters of a value inside of quotes. -/
def quotedChars : List Char → List Char
  | [] => []
  | '\n' :: rest => '\\' :: 'n' :: quotedChars rest
  | '"' :: rest => '\\' :: '"' :: quotedChars rest
  | '\\' :: rest => '\\' :: '\\' :: quotedChars rest
  | c :: rest => c :: quotedChars rest

/-- Writes a value in quotes. -/
def quoted (value : List Char) : List Char := '"' :: quotedChars value ++ ['"']

theorem readValue_quotedChars (value kept rest : List Char) :
    readValue true kept [] (quotedChars value ++ rest) =
      readValue true (value.reverse ++ kept) [] rest := by
  fun_induction quotedChars value generalizing kept with
  | case1 => simp
  | case2 r ih => simp [readValue, escaped?, ih]
  | case3 r ih => simp [readValue, escaped?, ih]
  | case4 r ih => simp [readValue, escaped?, ih]
  | case5 c r h₁ h₂ h₃ ih =>
    rw [List.cons_append, readValue.eq_6 _ _ _ _ _ h₁ (by simp_all) (by simp_all) h₂, if_pos rfl]
    simp [ih]

/-- A value in quotes reads back as it is. -/
theorem read_quoted (value rest : List Char) :
    readValue false [] [] (quoted value ++ '\n' :: rest) = some (value, rest) := by
  simp [quoted, readValue, readValue_quotedChars, trimmed]

end Settings

end Scaffold
