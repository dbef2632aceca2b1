import Scaffold.Stencil.Pattern
import Scaffold.Stencil.Predicate

/-!
# Filters

A filter makes a value from another one: `x | upper`. `Filter.apply` applies one by its
name; `map`, `select` and their like apply a filter or a test to every item.
-/

namespace Scaffold.Stencil

open Scaffold

namespace Filter

/-- A filter: makes a value from an input and arguments. -/
abbrev Action := Value → Args → Except Fault Value

/-- A filter of a text without arguments. -/
def ofText (f : String → String) : Action := fun v args => do
  let _ ← args.atMost 0
  return .text (f (← Args.asText v))

/-- A filter without arguments. -/
def ofValue (f : Value → Except Fault Value) : Action := fun v args => do
  let _ ← args.atMost 0
  f v

/-- The result of an operation that not every value has. -/
def given {α : Type} : Option α → Except Fault α
  | some a => .ok a
  | none => .error .invalidOperation

/-- Each word starts with upper case and goes on with lower case; white space and ASCII
punctuation separate words. -/
def titleFrom (atStart : Bool) : List Char → List Char
  | [] => []
  | c :: rest =>
    if Text.isBlank c || (c.val < 127 && 32 < c.val && !c.isAlphanum) then
      c :: titleFrom true rest
    else (if atStart then Text.upperChar c else Text.lowerChar c) ++ titleFrom false rest

/-- The first character in upper case and the others in lower case. -/
def capitalize (s : String) : String :=
  match s.toList with
  | [] => ""
  | c :: rest => String.ofList (Text.upperChar c) ++ Text.lower (String.ofList rest)

/-- Replaces every occurrence; an empty pattern occurs before and after every character. -/
def replaceAll (pattern replacement : List Char) : Nat → List Char → List Char
  | 0, text => text
  | fuel + 1, text =>
    match text with
    | [] => if pattern.isEmpty then replacement else []
    | c :: rest =>
      if pattern.isEmpty then replacement ++ c :: replaceAll pattern replacement fuel rest
      else if pattern.isPrefixOf text then
        replacement ++ replaceAll pattern replacement fuel (text.drop pattern.length)
      else c :: replaceAll pattern replacement fuel rest

/-- The text before and after the first occurrence of a separator. -/
def splitOnce? (separator : List Char) : List Char → Option (List Char × List Char)
  | [] => if separator.isEmpty then some ([], []) else none
  | c :: rest =>
    if separator.isPrefixOf (c :: rest) then some ([], (c :: rest).drop separator.length)
    else (splitOnce? separator rest).map fun p => (c :: p.1, p.2)

/-- Splits at a separator, at most `count` times. -/
def splitAt (separator : List Char) : Nat → List Char → List (List Char)
  | 0, text => [text]
  | count + 1, text =>
    match splitOnce? separator text with
    | some (before, after) => before :: splitAt separator count after
    | none => [text]

/-- Splits after every character, at most `count` times. -/
def splitCharacters : Nat → List Char → List (List Char)
  | 0, text => [text]
  | _, [] => [[]]
  | count + 1, c :: rest => [c] :: splitCharacters count rest

/-- Splits at an empty separator, which is before and after every character. -/
def splitEverywhere : Nat → List Char → List (List Char)
  | 0, text => [text]
  | count + 1, text => [] :: splitCharacters count text

/-- The words of a text between white space. -/
def words (text : List Char) : List (List Char) :=
  let (current, done) := text.foldl (fun (acc : List Char × List (List Char)) c =>
    if Text.isBlank c then
      if acc.1.isEmpty then acc else ([], acc.1.reverse :: acc.2)
    else (c :: acc.1, acc.2)) ([], [])
  (if current.isEmpty then done else current.reverse :: done).reverse

/-- Splits at single white space characters, at most `count` times. -/
def splitBlank : Nat → List Char → List (List Char)
  | 0, text => [text]
  | count + 1, text =>
    match text.dropWhile (!Text.isBlank ·) with
    | [] => [text]
    | _ :: rest => text.takeWhile (!Text.isBlank ·) :: splitBlank count rest

/-- The lines of a text; the end of the last one may be left out. -/
def lines (s : String) : List String :=
  let parts := s.splitOn "\n"
  let parts := if parts.getLast? = some "" then parts.dropLast else parts
  parts.map fun l => if l.endsWith "\r" then String.ofList (l.toList.dropLast) else l

/-- Drops one line end at the end of a text. -/
def dropLineEnd (text : List Char) : List Char :=
  let text := if text.getLast? = some '\n' then text.dropLast else text
  if text.getLast? = some '\r' then text.dropLast else text

/-- Moves lines to the right. -/
def indent (s : String) (width : Nat) (first blank : Bool) : String :=
  let lead := String.ofList (List.replicate width ' ')
  let shift (l : String) : String := if l.isEmpty then (if blank then lead else "") else lead ++ l
  let ls := (String.ofList (dropLineEnd s.toList)).splitOn "\n"
  let ls := match ls with
    | l :: rest => (if first then shift l else l) :: rest.map shift
    | [] => []
  String.ofList (dropLineEnd (String.join (ls.map (· ++ "\n"))).toList)

/-- The order of two values; texts without regard to case unless asked for. -/
def orderFolded (caseSensitive : Bool) (a b : Value) : Ordering :=
  match a, b with
  | .str s _, .str t _ =>
    if caseSensitive then compare s t else compare (Text.lower s) (Text.lower t)
  | a, b => a.order b

/-- Sorts by a key; equal ones stay in order. -/
def sortBy {α : Type} (key : α → Value) (caseSensitive : Bool) (l : List α) : List α :=
  l.mergeSort fun a b => orderFolded caseSensitive (key a) (key b) != .gt

/-- Groups of a size; the last one may be shorter. -/
def batches (size : Nat) : Nat → List Value → List (List Value)
  | 0, _ => []
  | fuel + 1, l => if l.isEmpty then [] else l.take size :: batches size fuel (l.drop size)

/-- A number of groups that differ by at most one item. -/
def slices (count : Nat) (filler : Option Value) (l : List Value) : List Value :=
  let per := l.length / count
  let extra := l.length % count
  (List.range count).map fun i =>
    let start := i * per + min i extra
    let size := if i < extra then per + 1 else per
    let part := (l.drop start).take size
    match filler with
    | some f => if extra ≤ i then .items (part ++ [f]) else .items part
    | none => .items part

/-- The whole number that a value stands for. -/
def toInt : Value → Except Fault Value
  | .undefined | .none => .ok (.int 0)
  | .bool b => .ok (.int (if b then 1 else 0))
  | .int n => .ok (.int n)
  | .float x => .ok (.int (clamp x))
  | .str s _ =>
    match Decimal.readInt? s.toList with
    | some n =>
      .ok (.int (max (-intLimit) (min (intLimit - 1) n)))
    | none =>
      match Decimal.readFloat? s.toList with
      | some x => .ok (.int (clamp x))
      | none => .error .invalidOperation
  | _ => .error .invalidOperation
where
  /-- The part before the point, within 128 bits. -/
  clamp (x : Float) : Int :=
    if x.isNaN then 0
    else if x ≥ 1.7014118346046923e38 then intLimit - 1
    else if x ≤ -1.7014118346046923e38 then -intLimit
    else Decimal.toIntTruncated x

/-- The double that a value stands for. -/
def toFloat : Value → Except Fault Value
  | .undefined | .none => .ok (.float 0.0)
  | .str s _ =>
    match Decimal.readFloat? s.toList with
    | some x => .ok (.float x)
    | none => .error .invalidOperation
  | v => (given v.asFloat?).map .float

/-- A number without its sign. -/
def absolute : Value → Except Fault Value
  | .int n => Value.checkedInt n.natAbs
  | .float x => .ok (.float x.abs)
  | _ => .error .invalidOperation

/-- A double rounded to a number of places; a half goes away from zero. -/
def round (v : Value) (places : Int) : Except Fault Value :=
  match v with
  | .int n => .ok (.int n)
  | .float x =>
    let scale : Float :=
      if 0 ≤ places then Decimal.nearest 1 places else 1.0 / Decimal.nearest 1 (-places)
    .ok (.float ((x * scale).round / scale))
  | _ => .error .invalidOperation

/-- The items of a list or a text, or the keys of a map, from the last to the first. -/
def reverse : Value → Except Fault Value
  | .undefined => .ok .undefined
  | .none => .ok .none
  | .str s _ => .ok (.text (String.ofList s.toList.reverse))
  | v => (Args.asItems v).map fun l => .list l.reverse true

/-- Joins what the items print. Nothing comes before the first text that is not empty. -/
def join (l : List Value) (joiner : String) : String :=
  l.foldl (fun acc v => (if acc.isEmpty then acc else acc ++ joiner) ++ v.display) ""

/-- The least or greatest item in an order. -/
def extreme (prefers : Value → Value → Bool) (l : List Value) : Value :=
  match l with
  | [] => .undefined
  | v :: rest => rest.foldl (fun best w => if prefers w best then w else best) v

/-- The first of the items that share a key, for every key. -/
def distinct (key : Value → Value) (l : List Value) : List Value :=
  (l.foldl (fun (acc : List Value × List Value) v =>
    let k := key v
    if acc.2.any (fun j => j.order k == .eq) then acc else (v :: acc.1, k :: acc.2))
    ([], [])).1.reverse

/-- Groups neighbours with a common key. -/
def groupNeighbours (key : Value → Value) (caseSensitive : Bool) (l : List Value) : List Value :=
  let groups := l.foldl (fun (acc : List (Value × List Value)) v =>
    let k := key v
    match acc with
    | (j, members) :: rest =>
      if orderFolded caseSensitive j k == .eq then (j, v :: members) :: rest
      else (k, [v]) :: acc
    | [] => [(k, [v])]) []
  groups.reverse.map fun g => .group g.1 g.2.reverse

/-- Items side by side, as long as every list has one. -/
def zipAll : Nat → List (List Value) → List Value
  | 0, _ => []
  | fuel + 1, ls =>
    if ls.isEmpty || ls.any List.isEmpty then []
    else .items (ls.filterMap List.head?) :: zipAll fuel (ls.map (List.drop 1))

/-- The filters that do not name other filters or tests. -/
def basic? : String → Option Action
  | "safe" => some fun v args => do
    let _ ← args.atMost 0
    return .str (← Args.asText v) true
  | "escape" | "e" => some fun v args => do
    let _ ← args.atMost 0
    match v with
    | .str s true => return .str s true
    | v => return .str v.displayEscaped true
  | "lower" => some (ofText Text.lower)
  | "upper" => some (ofText Text.upper)
  | "title" => some (ofText fun s => String.ofList (titleFrom true s.toList))
  | "capitalize" => some (ofText capitalize)
  | "replace" => some fun v args => do
    let l ← args.atMost 2
    let s := (← Args.asText v).toList
    let pattern := (← Args.asText (← Args.required l 0)).toList
    let replacement := (← Args.asText (← Args.required l 1)).toList
    return .text (String.ofList (replaceAll pattern replacement (s.length + 1) s))
  | "trim" => some fun v args => do
    let l ← args.atMost 1
    let s := (← Args.asText v).toList
    match ← Args.option Args.asText (Args.optional l 0) with
    | some cs =>
      let isOne (c : Char) : Bool := cs.toList.contains c
      return .text (String.ofList ((s.dropWhile isOne).reverse.dropWhile isOne).reverse)
    | none => return .text (String.ofList (Text.trim s))
  | "length" | "count" => some (ofValue fun v => (given v.length?).map fun n => .int n)
  | "dictsort" => some fun v args => do
    let _ ← Args.atMost 0 ⟨args.plain, []⟩
    let .map entries := v | throw .invalidOperation
    let byValue ← match ← Args.option Args.asStrictText (args.keyword? "by") with
      | none | some "key" => pure false
      | some "value" => pure true
      | some _ => throw .invalidOperation
    let caseSensitive ← args.flag "case_sensitive"
    let sorted := sortBy (fun p => if byValue then p.2 else p.1) caseSensitive entries
    let sorted := if ← args.flag "reverse" then sorted.reverse else sorted
    args.onlyNames ["by", "case_sensitive", "reverse"]
    return .items (sorted.map fun p => .items [p.1, p.2])
  | "items" => some (ofValue fun
    | .map entries => .ok (.items (entries.map fun p => .items [p.1, p.2]))
    | _ => .error .invalidOperation)
  | "reverse" => some (ofValue reverse)
  | "join" => some fun v args => do
    let l ← args.atMost 1
    let joiner := (← Args.option Args.asText (Args.optional l 0)).getD ""
    return .text (join (← Args.asItems v) joiner)
  | "split" => some fun v args => do
    let l ← args.atMost 2
    let s := (← Args.asText v).toList
    let separator ← Args.option Args.asText (Args.optional l 0)
    let limit ← Args.option (Args.asWhole (-sizeLimit) sizeLimit) (Args.optional l 1)
    let limit := limit.bind fun n => if 0 ≤ n then some n.toNat else none
    let parts := match separator, limit with
      | none, none => words s
      | none, some n => splitBlank n s
      | some sep, n =>
        if sep.isEmpty then splitEverywhere (n.getD (s.length + 2)) s
        else splitAt sep.toList (n.getD (s.length + 1)) s
    return .list (parts.map fun p => .text (String.ofList p)) true
  | "lines" => some fun v args => do
    let _ ← args.atMost 0
    return .items ((lines (← Args.asText v)).map .text)
  | "default" | "d" => some fun v args => do
    let l ← args.atMost 2
    let lax := (← Args.option Args.asFlag (Args.optional l 1)).getD false
    let other := (Args.optional l 0).getD (.text "")
    return if v.isUndefined || (lax && !v.isTrue) then other else v
  | "round" => some fun v args => do
    let l ← args.atMost 1
    let places ← Args.option (Args.asWhole (-placesLimit) placesLimit) (Args.optional l 0)
    round v (places.getD 0)
  | "abs" => some (ofValue absolute)
  | "int" => some (ofValue toInt)
  | "float" => some (ofValue toFloat)
  | "attr" => some fun v args => do
    let l ← args.atMost 1
    v.lookup (← Args.required l 0)
  | "first" => some (ofValue fun
    | .str s _ => .ok ((s.toList.head?.map fun c => .text (String.singleton c)).getD .undefined)
    | .undefined | .none => .error .invalidOperation
    | v => (Args.asItems v).map fun l => l.head?.getD .undefined)
  | "last" => some (ofValue fun
    | .str s _ => .ok ((s.toList.getLast?.map fun c => .text (String.singleton c)).getD .undefined)
    | .list l _ => .ok (l.getLast?.getD .undefined)
    | .group _ l => .ok (.list l true)
    | _ => .error .invalidOperation)
  | "min" => some (ofValue fun v => do
    return extreme (fun w best => w.order best == .lt) (← Args.asItems v))
  | "max" => some (ofValue fun v => do
    return extreme (fun w best => w.order best != .lt) (← Args.asItems v))
  | "sort" => some fun v args => do
    let _ ← Args.atMost 0 ⟨args.plain, []⟩
    let l ← Args.asItems v
    let caseSensitive ← args.flag "case_sensitive"
    let sorted ← match ← Args.option Args.asStrictText (args.keyword? "attribute") with
      | some path =>
        pure (sortBy (fun v => ((v.lookupPath path).toOption).getD .undefined) caseSensitive l)
      | none => pure (sortBy id caseSensitive l)
    let sorted := if ← args.flag "reverse" then sorted.reverse else sorted
    args.onlyNames ["attribute", "case_sensitive", "reverse"]
    return .items sorted
  | "list" => some (ofValue fun v => do return .items (← Args.asItems v))
  | "string" => some (ofValue fun
    | .str s safe => .ok (.str s safe)
    | v => .ok (.text v.display))
  | "bool" => some (ofValue fun v => .ok (.bool v.isTrue))
  | "batch" => some fun v args => do
    let l ← args.atMost 2
    let size ← Args.asCount (← Args.required l 0)
    if size = 0 then throw .invalidOperation
    let all ← Args.asItems v
    let groups := batches size (all.length + 1) all
    let fill (g : List Value) : List Value :=
      match Args.optional l 1 with
      | some f => g ++ List.replicate (size - g.length) f
      | none => g
    return .items (groups.map fun g => .items (fill g))
  | "slice" => some fun v args => do
    let l ← args.atMost 2
    let count ← Args.asCount (← Args.required l 0)
    if count = 0 then throw .invalidOperation
    return .items (slices count (Args.optional l 1) (← Args.asItems v))
  | "sum" => some (ofValue fun v => do (← Args.asItems v).foldlM Value.add (.int 0))
  | "indent" => some fun v args => do
    let l ← args.atMost 3
    let width ← Args.asCount (← Args.required l 0)
    let first := (← Args.option Args.asFlag (Args.optional l 1)).getD false
    let blank := (← Args.option Args.asFlag (Args.optional l 2)).getD false
    return .text (indent (← Args.asText v) width first blank)
  | "groupby" => some fun v args => do
    let _ ← Args.atMost 1 ⟨args.plain, []⟩
    let path? ← Args.option Args.asStrictText
      (match args.plain[0]? with
        | some p => some p
        | none => args.keyword? "attribute")
    let some path := path? | throw .missingArgument
    let fallback := (args.keyword? "default").getD .undefined
    let caseSensitive ← args.flag "case_sensitive"
    args.onlyNames ["attribute", "default", "case_sensitive"]
    let key (v : Value) : Value :=
      match v.lookupPath path with
      | .ok w => if w.isUndefined then fallback else w
      | .error _ => fallback
    let sorted := sortBy key caseSensitive (← Args.asItems v)
    return .items (groupNeighbours key caseSensitive sorted)
  | "unique" => some fun v args => do
    let _ ← Args.atMost 0 ⟨args.plain, []⟩
    let path? ← Args.option Args.asStrictText (args.keyword? "attribute")
    let caseSensitive ← args.flag "case_sensitive"
    args.onlyNames ["attribute", "case_sensitive"]
    let key (v : Value) : Value :=
      let w := match path? with
        | some path => ((v.lookupPath path).toOption).getD .undefined
        | none => v
      match w with
      | .str s _ => if caseSensitive then w else .text (Text.lower s)
      | w => w
    return .items (distinct key (← Args.asItems v))
  | "chain" => some fun v args => do
    let _ ← Args.onlyNames args []
    let all := v :: args.plain
    if all.all fun w => w.kind == .map then
      let entries := all.flatMap fun
        | .map e => e
        | _ => []
      return Value.mapOf entries
    else
      let ls ← all.mapM Args.asItems
      return .list ls.flatten true
  | "zip" => some fun v args => do
    let _ ← Args.onlyNames args []
    let ls ← (v :: args.plain).mapM Args.asItems
    return .list (zipAll (ls.foldl (fun n l => max n l.length) 0) ls) true
  | "pprint" => some (ofValue fun v => .ok (.text (v.outline 0)))
  | "format" => some fun v args => do
    let _ ← Args.onlyNames args []
    let s := (← Args.asText v).toList
    return .text (← fillPattern (s.length + 1) s args.plain)
  | _ => none

/-- Keeps the items that pass a test, or those that do not. -/
def select (keep byAttr : Bool) (v : Value) (args : Args) : Except Fault Value := do
  let l := args.all
  let (path?, l) ←
    if byAttr then do pure (some (← Args.asText (← Args.required l 0)), l.drop 1)
    else pure (none, l)
  let test? ← Args.option Args.asText (Args.optional l 0)
  let rest : Args := ⟨l.drop 1, []⟩
  let decide : Value → Except Fault Bool ← match test? with
    | none => pure fun w => .ok w.isTrue
    | some name =>
      match Predicate.find? name with
      | some p => pure fun w => p w rest
      | none => throw .unknownTest
  let kept ← (← Args.asItems v).filterM fun w => do
    let w ← match path? with
      | some path => w.lookupPath path
      | none => pure w
    return (← decide w) == keep
  return .items kept

/-- Applies a filter by its name; `fuel` bounds how often `map` names a further filter. -/
def apply : Nat → String → Action
  | 0, _ => fun _ _ => .error .unknownFilter
  | fuel + 1, name => fun v args =>
    match name with
    | "select" => select true false v args
    | "reject" => select false false v args
    | "selectattr" => select true true v args
    | "rejectattr" => select false true v args
    | "map" =>
      match args.keyword? "attribute" with
      | some field => do
        if !args.plain.isEmpty then throw .tooManyArguments
        args.onlyNames ["attribute", "default"]
        let fallback := (args.keyword? "default").getD .undefined
        let pick (w : Value) : Except Fault Value :=
          let found := match field with
            | .str path _ => w.lookupPath path
            | key => w.lookup key
          match found with
          | .ok u => .ok (if u.isUndefined then fallback else u)
          | .error f => if fallback.isUndefined then .error f else .ok fallback
        return .items (← (← Args.asItems v).mapM pick)
      | none => do
        match args.plain with
        | [] => throw .invalidOperation
        | inner :: rest =>
          let inner ← Args.asStrictText inner
          if !(Predicate.filterNames.contains inner) then throw .unknownFilter
          let inputs ← Args.asItems v
          return .items (← inputs.mapM fun w => apply fuel inner w ⟨rest, args.named⟩)
    | name =>
      match basic? name with
      | some action => action v args
      | none => .error .unknownFilter

end Filter

end Scaffold.Stencil
