import Scaffold.Text.Latin

/-!
# Slugs

A slug is made of small letters and digits, with single dashes between. Letters that are not
ASCII are spelled in Latin first.
-/

namespace Scaffold.Text

/-- The spelling of a character; one without a spelling counts as a dash. -/
def slugSpelling (c : Char) : List Char := ((latinSpelling? c).getD "-").toList

/-- Writes the slug of ASCII characters. `pending` notes that characters were left out after
the last one that was written. -/
def slugFrom (written pending : Bool) : List Char → List Char
  | [] => []
  | c :: rest =>
    if c.isAlphanum then
      (if written && pending then ['-'] else []) ++ c.toLower :: slugFrom true false rest
    else slugFrom written true rest

/-- The slug of a text. -/
def slug (text : String) : String :=
  String.ofList (slugFrom false false (text.toList.flatMap slugSpelling))

end Scaffold.Text
