import Scaffold.Host.Address
import Scaffold.Host.Domain

/-!
# Hosts

Templates are fetched from a host, which has to make sense as the part of an address between
the two slashes and the first single one: a name or a number of the host. Users stand before it and
ports after it, where there are any.
-/

namespace Scaffold.Host

/-- Why a text is no host. -/
inductive Fault where
  | empty
  | notName
  | notPort
  | notAddress4
  | notAddress6
deriving DecidableEq, Repr

/-- The words for a fault. -/
def Fault.message : Fault → String
  | empty => "empty host"
  | notName => "invalid international domain name"
  | notPort => "invalid port number"
  | notAddress4 => "invalid IPv4 address"
  | notAddress6 => "invalid IPv6 address"

/-- The characters that end the part with the host. -/
def endsAuthority (c : Char) : Bool := c = '/' || c = '\\' || c = '?' || c = '#'

/-- What stands after the last at sign. -/
def afterUser (authority : List Char) : List Char :=
  (authority.reverse.takeWhile (· ≠ '@')).reverse

/-- Splits a host from the number after it, at the first colon that stands in no brackets. -/
def splitPort (inBrackets : Bool) : List Char → List Char × Option (List Char)
  | [] => ([], none)
  | c :: rest =>
    if c = ':' ∧ !inBrackets then ([], some rest)
    else
      let (host, number) := splitPort (if c = '[' then true else if c = ']' then false else inBrackets) rest
      (c :: host, number)

/-- Checks the name or number of a host. -/
def checkName (host : List Char) : Except Fault Unit :=
  match host with
  | [] => .error .empty
  | '[' :: rest =>
    if rest.getLast? = some ']' && isAddress6 rest.dropLast then .ok () else .error .notAddress6
  | host =>
    match normalName? host with
    | none => .error .notName
    | some name =>
      if !((Text.pieces '.' name).mapM readLabel?).any keepDirection then .error .notName
      else if name.isEmpty then .error .empty
      else if endsInNumber name && !isAddress4 name then .error .notAddress4
      else .ok ()

/-- Ports are numbers of sixteen bits; none at all is fine. -/
def checkPort (number : List Char) : Except Fault Unit :=
  if number.isEmpty then .ok ()
  else if number.all Char.isDigit && (Decimal.readDigits? 10 number).any (· < 65536) then .ok ()
  else .error .notPort

/-- Checks that a text can stand for a host. -/
def check (text : String) : Except Fault Unit := do
  let chars := text.toList.filter fun c => c ≠ '\t' ∧ c ≠ '\n' ∧ c ≠ '\r'
  let rest := chars.dropWhile fun c => c = '/' || c = '\\'
  let (host, number) := splitPort false (afterUser (rest.takeWhile (!endsAuthority ·)))
  checkName host
  checkPort (number.getD [])

end Scaffold.Host
