import Scaffold.Path
import Scaffold.Text.Split

/-!
# Addresses of repositories

An address with the mark of a scheme or host is somewhere else; any other one is a path, and
so is what stands after the scheme for files.

The address of a submodule may start from the one of the repository that holds it.
-/

namespace Scaffold.Repository

/-- What the address of a file starts with. -/
def fileScheme : String := "file://"

/-- The value of a character as a digit to the base sixteen. -/
def hexDigit? (c : Char) : Option Nat :=
  if c.isDigit then some (c.toNat - 48)
  else if 'a' ≤ c ∧ c ≤ 'f' then some (c.toNat - 87)
  else if 'A' ≤ c ∧ c ≤ 'F' then some (c.toNat - 55)
  else none

/-- Bytes in which a percent sign and two digits stand for a byte. -/
def unescaped : List Char → List UInt8
  | '%' :: a :: b :: rest =>
    match hexDigit? a, hexDigit? b with
    | some x, some y => (16 * x + y).toUInt8 :: unescaped rest
    | _, _ => '%'.toNat.toUInt8 :: unescaped (a :: b :: rest)
  | c :: rest => (String.singleton c).toUTF8.toList ++ unescaped rest
  | [] => []

/-- The path that an address is. -/
def pathOfAddress? (url : String) : Option Path :=
  if url.startsWith fileScheme then
    let rest := url.toList.drop fileScheme.toList.length
    let host := "localhost".toList
    let path := if host.isPrefixOf rest then rest.drop host.length else rest
    match path with
    | '/' :: c :: _ =>
      if c = '/' then none else (String.fromUTF8? ⟨(unescaped path).toArray⟩).map Path.mk
    | _ => none
  else if url.isEmpty ∨ url.toList.contains ':' then none
  else some ⟨url⟩

/-! ## Addresses that start from others -/

/-- Whether an address starts from another one. -/
def isRelative (url : List Char) : Bool :=
  "./".toList.isPrefixOf url || "../".toList.isPrefixOf url

/-- How many characters at the start of an address are not gone up from: the root, or the
scheme. -/
def fixedLength (url : List Char) : Nat :=
  if url.head? = some '/' then 1
  else
    let scheme := url.takeWhile Char.isAlpha
    if "://".toList.isPrefixOf (url.drop scheme.length) then scheme.length + 3 else 0

/-- Goes over pieces with a stack of those gone over, last one first. Going up from nothing is
refused where something is fixed. -/
def climb (isFixed : Bool) (stack : List (List Char)) : List (List Char) →
    Option (List (List Char))
  | [] => some stack.reverse
  | piece :: rest =>
    if piece = [] ∨ piece = ['.'] then climb isFixed stack rest
    else if piece = ['.', '.'] then
      match stack with
      | top :: below =>
        if top = ['.', '.'] then climb isFixed (piece :: stack) rest
        else climb isFixed below rest
      | [] => if isFixed then none else climb isFixed [piece] rest
    else climb isFixed (piece :: stack) rest

/-- An address from the one of the repository that names it, if it is an address at all. -/
def resolveAddress (base url : String) : Option String :=
  let chars := url.toList
  if isRelative chars then
    let joined := (Path.join ⟨base⟩ url).text.toList
    let fixed := fixedLength joined
    (climb (0 < fixed) [] (Text.pieces '/' (joined.drop fixed))).map fun ps =>
      String.ofList (joined.take fixed) ++ "/".intercalate (ps.map String.ofList)
  else if chars.contains ':' ∨ chars.head? = some '/' then some url
  else none

end Scaffold.Repository
