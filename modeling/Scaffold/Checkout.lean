import Scaffold.Disk.Action
import Scaffold.Failure
import Scaffold.Repository.Submodule
import Scaffold.Text.Digest

/-!
# Checkouts

A template that is not local is kept in a cache, in a directory named by the digest of its
address. The first fetch clones it there, with its submodules; a later one pulls. A pull that
fails is no failure of the fetch, as the checkout can be used as it is.
-/

namespace Scaffold

/-- What a fetch tells of. -/
inductive FetchNote where
  | cloning
  | cloneFailed
  | submodulesFailed
  | upToDate
  | fastForwarded
  | diverged
  | pullFailed
deriving DecidableEq, Repr

/-- The words of a note. -/
def FetchNote.message : FetchNote → String
  | cloning => "cloning template"
  | cloneFailed => "failed to clone template"
  | submodulesFailed => "failed to update template submodules"
  | upToDate => "template checkout already up to date"
  | fastForwarded => "template checkout fast-forwarded"
  | diverged => "template checkout diverged from origin, using local copy"
  | pullFailed => "failed to pull template, using cached copy"

/-- A template in the cache. -/
structure Checkout where
  path : Path
  /-- Whether it is known to be up to date. -/
  fetched : Bool
deriving DecidableEq, Repr

/-- What came of a fetch, with what it told of. -/
structure FetchResult where
  result : Except Failure Checkout
  notes : List FetchNote := []

/-- Where checkouts are kept. -/
structure CheckoutCache where
  root : Path
deriving DecidableEq, Repr

namespace CheckoutCache

/-- The name of the checkout of an address. -/
def key (url : String) : String := Text.digest url.toUTF8.toList

/-- Where the checkout of an address is, or will be. -/
def path (c : CheckoutCache) (url : String) : Path := c.root.join (key url)

/-- Whether there is a checkout of an address. -/
def isCached (c : CheckoutCache) (url : String) (d : Disk) : Bool := d.exists? (c.path url)

/-- Clones a template and brings in its submodules. What fails is told of and nothing else. -/
def clone (url : String) (p : Path) (d : Depot) : List FetchNote × Depot :=
  match (Depot.clone url p).perform d with
  | (.error _, d) => ([.cloning, .cloneFailed], d)
  | (.ok site, d) =>
    match (Submodule.bringInAll site).perform d with
    | (.error _, d) => ([.cloning, .submodulesFailed], d)
    | (.ok _, d) => ([.cloning], d)

/-- What a pull is told of as, and whether the checkout is up to date after it. -/
def pulled : Except Repository.Fault Pull.Outcome → FetchNote × Bool
  | .ok .upToDate => (.upToDate, true)
  | .ok .fastForwarded => (.fastForwarded, true)
  | .ok .diverged => (.diverged, false)
  | .error _ => (.pullFailed, false)

/-- Pulls the checkout at a path, where some steps are refused. -/
def refresh (refuses : Pull.Step → Bool) (url : String) (p : Path) (d : Depot) :
    FetchResult × Depot :=
  match d.siteOf p >>= fun site => (d.read site).map fun _ => site with
  | .error _ => ({ result := .error (.fetch "open" url) }, d)
  | .ok site =>
    let (outcome, d) := (Depot.pull refuses site).perform d
    let (note, fetched) := pulled outcome
    ({ result := .ok { path := p, fetched }, notes := [note] }, d)

/-- Makes sure that there is a checkout of an address, as new as can be. -/
def fetch (c : CheckoutCache) (url : String) (d : Depot)
    (refuses : Pull.Step → Bool := fun _ => false) : FetchResult × Depot :=
  let p := c.path url
  if d.disk.exists? p then refresh refuses url p d
  else
    match (Disk.Action.makeDirs c.root).perform d.disk with
    | (.error f, disk) => ({ result := .error (.io f) }, { d with disk })
    | (.ok _, disk) =>
      let (notes, d) := clone url p { d with disk }
      ({ result := .ok { path := p, fetched := true }, notes }, d)

end CheckoutCache

/-- Whether something can be fetched from an address. -/
def Depot.canFetch (d : Depot) (url : String) : Bool := (d.look url).toOption.isSome

end Scaffold
