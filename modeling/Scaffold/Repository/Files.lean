import Scaffold.Repository
import Scaffold.Repository.Settings
import Scaffold.Repository.WorkingTree
import Scaffold.Disk.Listing

/-!
# Files of repositories

A repository keeps its state in a directory: a file for the head, one for the settings, one for
each branch and each commit, and one for what is tracked. A directory is a repository if it has
the head and the places for commits and branches.

`ofDir` reads that directory and `save` writes what changed, so that a file that somebody else
changed stays as it is.
-/

namespace Scaffold

namespace Repository

open Disk

/-- The text that a commit goes by. -/
def commitText (id : CommitId) : String :=
  let digits := Nat.toDigits 16 id
  String.ofList ("c0de".toList ++ List.replicate (36 - digits.length) '0' ++ digits)

/-- The commit that goes by a text. -/
def commitOfText? (h : History) (text : String) : Option CommitId :=
  (List.range h.commits.length).find? fun id => commitText id == text

/-- A text without the end of its line. -/
def firstLine (text : String) : String := String.ofList (text.toList.takeWhile (· ≠ '\n'))

/-- What stands before the name of a branch. -/
def branchLead : String := "refs/heads/"

/-- What stands before the name of something else that the head is on. -/
def linkLead : String := "ref: "

/-- A text without what it starts with. -/
def without? (lead text : String) : Option String :=
  if lead.toList.isPrefixOf text.toList then
    some (String.ofList (text.toList.drop lead.toList.length))
  else none

/-- The text of the file of the head. -/
def headText : Head → String
  | .branch name => linkLead ++ branchLead ++ name ++ "\n"
  | .detached id => commitText id ++ "\n"

/-- The head that a text says. -/
def headOfText? (h : History) (text : String) : Option Head :=
  let line := firstLine text
  match without? linkLead line with
  | some target => (without? branchLead target).map .branch
  | none => (commitOfText? h line).map .detached

/-- The name of the setting for the address that is fetched from. -/
def originKey : String := "remote.origin.url"

/-- The text of the file of the settings. -/
def settingsText (origin : Option String) : String :=
  "[core]\n\tbare = false\n" ++
    origin.elim "" fun url =>
      let value := String.ofList (Settings.quoted url.toList)
      "[remote \"origin\"]\n\turl = " ++ value ++ "\n"

/-! ## Places of files -/

def headFile : Location := ["HEAD"]
def settingsFile : Location := ["config"]
def trackedFile : Location := ["index"]
def commitsDir : Location := ["objects"]
def refsDir : Location := ["refs"]
def branchesDir : Location := ["refs", "heads"]

/-- Where the repositories of submodules are. -/
def submodulesDir : Location := ["modules"]

/-- What stands beside a file while somebody writes it, and keeps others from writing it. -/
def lockOf (file : Location) : Location := file.dropLast ++ [file.getLastD "" ++ ".lock"]

/-- The text of the file at a location. -/
def textAt? (n : Node) (location : Location) : Option String :=
  match n.at? location with
  | some (.file bytes _) => String.fromUTF8? bytes
  | _ => none

/-- A file with a text. -/
def textFile (text : String) : Node := .file text.toUTF8 false

/-- Whether a directory has what a repository needs. -/
def isRepository (dir : Node) : Bool :=
  (dir.at? headFile).any (·.isFile) && (dir.at? commitsDir).any (·.isDir) &&
    (dir.at? refsDir).any (·.isDir)

/-- The branches that stand for a commit. -/
def branchesOf (h : History) (dir : Node) : Entries CommitId :=
  let files := ((dir.at? branchesDir).elim [] Node.listing).filterMap fun (names, item) =>
    match item with
    | .file bytes _ =>
      ((String.fromUTF8? bytes).bind fun t => commitOfText? h (firstLine t)).map
        fun id => (Snapshot.pathOf names, id)
    | _ => none
  Entries.ofPairs files

/-- The commits that a directory holds. -/
def commitsOf (h : History) (dir : Node) : List CommitId :=
  ((dir.at? commitsDir).elim [] (·.entries)).filterMap fun e => commitOfText? h e.1

/-- The settings of a repository; a missing file has none. -/
def settingsOf (dir : Node) : Except Fault (Entries String) :=
  match dir.at? settingsFile with
  | none => .ok []
  | some _ =>
    match (textAt? dir settingsFile).bind Settings.ofText with
    | some settings => .ok settings
    | none => .error .badSettings

/-- Reads the repository that a directory holds. -/
def ofDir (h : History) (dir : Node) : Except Fault Repository := do
  if !isRepository dir then throw .notRepository
  let settings ← settingsOf dir
  return {
    head := (textAt? dir headFile).bind (headOfText? h)
    branches := branchesOf h dir
    commits := commitsOf h dir
    origin := Entries.get? originKey settings
    tracked := (textAt? dir trackedFile).bind fun t => commitOfText? h (firstLine t) }

/-- The directory of a repository without anything. -/
def emptyDir : Node :=
  (Node.force (.dir []) branchesDir (Node.force (.dir []) commitsDir (.dir [])))

/-- Writes a text if it is not the text for the older value. -/
def saveText {α : Type} [BEq α] (text : α → Option String) (old new : α) (location : Location)
    (dir : Node) : Node :=
  if old == new then dir
  else
    match text new with
    | some t => Node.force (textFile t) location dir
    | none => dir.put none location

/-- Writes what changed about the branches. -/
def saveBranches (old new : Entries CommitId) (dir : Node) : Node :=
  let names := (old ++ new).map (·.1)
  names.foldl (fun dir name =>
    saveText (·.map fun id => commitText id ++ "\n") (Entries.get? name old)
      (Entries.get? name new) (branchesDir ++ Snapshot.locationOf name) dir) dir

/-- Writes the commits that were not there. -/
def saveCommits (old new : List CommitId) (dir : Node) : Node :=
  new.foldl (fun dir id =>
    if old.contains id then dir
    else Node.force (textFile "") (commitsDir ++ [commitText id]) dir) dir

/-- Writes what changed about a repository into its directory. -/
def save (old new : Repository) (dir : Node) : Node :=
  saveText (·.map headText) old.head new.head headFile <|
    saveText (fun o => some (settingsText o)) old.origin new.origin settingsFile <|
      saveText (·.map fun id => commitText id ++ "\n") old.tracked new.tracked trackedFile <|
        saveBranches old.branches new.branches <| saveCommits old.commits new.commits dir

/-- The directory of a repository that is new. -/
def create (r : Repository) : Node :=
  let dir := Node.force (textFile (settingsText r.origin)) settingsFile emptyDir
  save { head := none, origin := r.origin } r dir

end Repository

end Scaffold
