import Scaffold.Disk.Listing
import Scaffold.Repository.Settings

/-!
# Disks as texts

A disk is written down as settings: a heading for each path, with what stands there. The
variables of the environment and the keys that are typed, in the order of their names, are
written in the same way, so that one text says all that a run of the program depends on.
-/

namespace Scaffold

/-- All that a run of the program depends on, apart from its arguments. -/
structure Image where
  disk : Disk := {}
  env : Entries String := []
  keys : List String := []
deriving Inhabited

namespace Image

/-- The value of a character as a digit to the base sixteen. -/
def digit (c : Char) : Nat := if c.isDigit then c.toNat - 48 else c.toNat - 87

/-- The bytes of digits. -/
def bytesOf : List Char → List UInt8
  | a :: b :: rest => (16 * digit a + digit b).toUInt8 :: bytesOf rest
  | _ => []

/-- The digits of bytes. -/
def digitsOf (bytes : List UInt8) : List Char :=
  bytes.flatMap fun n => [Nat.digitChar (n.toNat / 16), Nat.digitChar (n.toNat % 16)]

/-- What stands before the first dot of a name, between it and the last one, and after that. -/
def nameParts (name : String) : String × String × String :=
  let chars := name.toList
  let key := (chars.reverse.takeWhile (· ≠ '.')).reverse
  let kind := chars.takeWhile (· ≠ '.')
  let inner := (chars.drop (kind.length + 1)).take (chars.length - kind.length - key.length - 2)
  (String.ofList kind, String.ofList inner, String.ofList key)

/-- Makes an item of a disk. -/
def plant (i : Image) (path : String) (item : Disk.Item) : Image :=
  { i with disk := ((Disk.Action.plantItem ⟨"/"⟩ path item).perform i.disk).2 }

/-- Takes one setting into account. -/
def addSetting (i : Image) (name value : String) : Image :=
  match nameParts name with
  | ("text", path, _) => i.plant path (.file value.toUTF8 false)
  | ("script", path, _) => i.plant path (.file value.toUTF8 true)
  | ("bytes", path, _) => i.plant path (.file ⟨(bytesOf value.toList).toArray⟩ false)
  | ("directory", path, _) => i.plant path .dir
  | ("link", path, _) => i.plant path (.link value)
  | ("variable", inner, _) => { i with env := Entries.insert inner value i.env }
  | ("key", _, _) => { i with keys := i.keys ++ [value] }
  | ("here", path, _) =>
    let disk := (i.plant path .dir).disk
    let here := ((disk.stat ⟨"/" ++ path⟩).toOption.map (·.1)).getD []
    { i with disk := { disk with here } }
  | _ => i

/-- The image that settings say. -/
def ofSettings (settings : Entries String) : Image :=
  settings.foldl (fun i e => i.addSetting e.1 e.2) {}

/-- The image that a text says. -/
def ofText (text : String) : Option Image := (Settings.ofText text).map ofSettings

/-- One heading with a value below it. -/
def entry (kind name value : String) : String :=
  let inQuotes (t : String) := String.ofList (Settings.quoted t.toList)
  s!"[{kind} " ++ inQuotes name ++ "]\n\tis = " ++ inQuotes value ++ "\n"

/-- The text for an item of a disk. -/
def itemText (names : List String) (item : Disk.Item) : String :=
  let path := "/".intercalate names
  match item with
  | .dir => entry "directory" path ""
  | .link target => entry "link" path target
  | .file bytes executable =>
    match String.fromUTF8? bytes with
    | some text => entry (if executable then "script" else "text") path text
    | none => entry "bytes" path (String.ofList (digitsOf bytes.toList))

/-- The text for a disk. -/
def diskText (d : Disk) : String :=
  String.join (d.top.listing.map fun e => itemText e.1 e.2)

end Image

end Scaffold
