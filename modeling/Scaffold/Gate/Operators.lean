/-!
# Symbolic operators of gates

A gate may write `&&`, `||` and a leading `!` for `and`, `or` and `not`. `spellOut` replaces
the symbols by the words and leaves string literals alone: a literal runs from a quote to
the first matching quote that no backslash stands before, or to the end of the text.
-/

namespace Scaffold.Gate

/-- Replaces symbolic operators by words; `quote` is the quote of the literal that the
text starts in. A `!` that belongs to `!=` stays. -/
def spellOutFrom (quote : Option Char) : List Char → List Char
  | [] => []
  | c :: rest =>
    match quote with
    | some q =>
      if c = '\\' then
        match rest with
        | [] => [c]
        | e :: rest => c :: e :: spellOutFrom (some q) rest
      else if c = q then c :: spellOutFrom none rest
      else c :: spellOutFrom (some q) rest
    | none =>
      if c = '"' ∨ c = '\'' then c :: spellOutFrom (some c) rest
      else
        match c, rest with
        | '&', '&' :: rest => " and ".toList ++ spellOutFrom none rest
        | '|', '|' :: rest => " or ".toList ++ spellOutFrom none rest
        | '!', '=' :: rest => '!' :: '=' :: spellOutFrom none rest
        | '!', rest => " not ".toList ++ spellOutFrom none rest
        | c, rest => c :: spellOutFrom none rest

/-- The expression with every operator outside string literals written as a word. -/
def spellOut (expression : String) : String :=
  String.ofList (spellOutFrom none expression.toList)

end Scaffold.Gate
