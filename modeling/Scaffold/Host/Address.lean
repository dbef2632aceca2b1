import Scaffold.Decimal.Reading
import Scaffold.Text.Split

/-!
# Addresses of hosts

A host can be an address of four numbers, which may be written in several bases and with
numbers left out, or one of eight numbers between square brackets.
-/

namespace Scaffold.Host

open Decimal (readDigits?)
open Text (pieces)

/-- Reads a number of an address: plain, with a leading zero to base eight, or with `0x` to
base sixteen. -/
def readNumber? (text : List Char) : Option Nat :=
  match text with
  | [] => none
  | '0' :: x :: rest =>
    if x = 'x' ∨ x = 'X' then (if rest.isEmpty then some 0 else readDigits? 16 rest)
    else readDigits? 8 (x :: rest)
  | text => readDigits? 10 text

/-- The pieces of a host, without an empty one at the end. -/
def labels (host : List Char) : List (List Char) :=
  let parts := pieces '.' host
  if parts.getLast? = some [] then parts.dropLast else parts

/-- Whether a host has to be an address of four numbers: its last piece is one. -/
def endsInNumber (host : List Char) : Bool :=
  match (labels host).getLast? with
  | some last => (!last.isEmpty && last.all Char.isDigit) || (readNumber? last).isSome
  | none => false

/-- Whether a host is an address of at most four numbers, the last of which fills the rest. -/
def isAddress4 (host : List Char) : Bool :=
  let parts := labels host
  match (parts.map readNumber?).reverse with
  | some last :: before =>
    parts.length ≤ 4 && before.all (·.any (· < 256)) && last < Nat.pow 256 (5 - parts.length)
  | _ => false

/-- Whether a text is four decimal numbers below 256 without leading zeros. -/
def isDottedQuad (text : List Char) : Bool :=
  let parts := pieces '.' text
  parts.length = 4 && parts.all fun p =>
    p.all Char.isDigit && (p.length = 1 || p.head? ≠ some '0') &&
      (readDigits? 10 p).any (· < 256)

/-- Whether a piece is one of the eight numbers. -/
def isGroup (piece : List Char) : Bool :=
  !piece.isEmpty && piece.length ≤ 4 && (readDigits? 16 piece).isSome

/-- How many of the eight numbers some pieces are; the last one may stand for two. -/
def countGroups (parts : List (List Char)) : Option Nat :=
  match parts.reverse with
  | [] => some 0
  | last :: before =>
    if !before.all isGroup then none
    else if isGroup last then some (before.length + 1)
    else if isDottedQuad last then some (before.length + 2)
    else none

/-- Splits a text where two colons stand for numbers left out. -/
def splitAtGap : List Char → List Char × Option (List Char)
  | [] => ([], none)
  | ':' :: ':' :: rest => ([], some rest)
  | c :: rest =>
    let (before, after) := splitAtGap rest
    (c :: before, after)

/-- Whether a text is an address of eight numbers. -/
def isAddress6 (text : List Char) : Bool :=
  let count (part : List Char) : Option Nat :=
    if part.isEmpty then some 0 else countGroups (pieces ':' part)
  match splitAtGap text with
  | (all, none) => count all == some 8
  | (before, some after) =>
    match count before, count after with
    | some m, some n => m + n ≤ 7 && (pieces ':' before).all (!isDottedQuad ·)
    | _, _ => false

end Scaffold.Host
