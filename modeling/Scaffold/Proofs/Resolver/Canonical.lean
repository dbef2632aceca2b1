import Mathlib.Data.List.Basic
import Scaffold.Checkout
import Scaffold.Proofs.Path.Parts
import Scaffold.Resolver

/-!
# Identifiers and their addresses

An address is its own address, since it has two slashes at least (`Resolver.resolve_resolve`). A
short identifier, one without slashes or with one, stands for a repository of the host, and its
address says which : two of them have one address just if they stand for the same repository
(`Resolver.resolve_eq_iff_repository_eq`). They are equal then, or one of them is the name of a core
template and the other one spells out its owner and repository (`Resolver.IsAlias`).

The name of a checkout is a digest, which is a name in the sense of paths whatever the address is
(`CheckoutCache.isName_key`). So two checkouts are in one place just if the digests are equal, and
what short identifiers stand for is kept apart up to that (`Resolver.resolve_canonical`).
-/

namespace Scaffold

open Scaffold.Path

/-! ## The names of checkouts -/

namespace Text

/-- A digit of base sixteen is neither a dot nor a slash. -/
theorem digitChar_not_mem {n : Nat} (h : n < 16) : Nat.digitChar n ∉ ['.', '/'] := by
  revert n
  decide

theorem not_mem_hexByte (b : UInt8) : ∀ c ∈ hexByte b, c ∉ ['.', '/'] := by
  have hb : b.toNat < 256 := b.toNat_lt
  intro c hc
  rcases List.mem_pair.mp hc with rfl | rfl
  · exact digitChar_not_mem (by omega)
  · exact digitChar_not_mem (by omega)

theorem not_mem_digest (bytes : List UInt8) : ∀ c ∈ (digest bytes).toList, c ∉ ['.', '/'] := by
  intro c hc
  rw [digest, String.toList_ofList] at hc
  obtain ⟨b, -, hb⟩ := List.mem_flatMap.mp hc
  exact not_mem_hexByte b c hb

theorem digest_ne_empty (bytes : List UInt8) : digest bytes ≠ "" := by
  intro h
  have hlist := congrArg String.toList h
  rw [digest, String.toList_ofList] at hlist
  simp [lowBytes, hexByte] at hlist

end Text

namespace CheckoutCache

/-- The name of a checkout is the name of one directory. -/
theorem isName_key (url : String) : IsName (key url) := by
  have hchars := Text.not_mem_digest url.toUTF8.toList
  refine ⟨Text.digest_ne_empty _, fun h => ?_, fun h => ?_, fun h => ?_⟩
  · exact hchars '.' (by rw [show Text.digest _ = "." from h]; decide) (by decide)
  · exact hchars '.' (by rw [show Text.digest _ = ".." from h]; decide) (by decide)
  · exact hchars '/' h (by decide)

/-- Checkouts are in one place just if their addresses have one digest. -/
theorem parts_path_eq_iff (c : CheckoutCache) (url url' : String) :
    (c.path url).parts = (c.path url').parts ↔ key url = key url' := by
  have hparts (url : String) : (c.path url).parts = c.root.parts ++ [.name (key url)] :=
    parts_join c.root (c := .name (key url)) (isName_key url)
  rw [hparts, hparts, List.append_right_inj, List.singleton_inj, Part.name.injEq]

end CheckoutCache

/-! ## Kinds of identifiers -/

/-- Whether an identifier has at most one slash. -/
def IdentifierKind.IsShort (identifier : String) : Prop := identifier.toList.count '/' ≤ 1

namespace IdentifierKind

theorem of_eq_core_iff {x : String} : of x = core ↔ x.toList.count '/' = 0 := by
  unfold of
  split <;> simp_all

theorem of_eq_shorthand_iff {x : String} : of x = shorthand ↔ x.toList.count '/' = 1 := by
  unfold of
  split <;> simp_all

theorem of_eq_explicit_iff {x : String} : of x = explicit ↔ 2 ≤ x.toList.count '/' := by
  unfold of
  split
  · simp_all
  · simp_all
  · rename_i h0 h1
    exact iff_of_true rfl ((Nat.two_le_iff _).mpr ⟨h0, h1⟩)

/-- A short identifier is the name of a core template or a shorthand. -/
theorem IsShort.cases {x : String} (h : IsShort x) : of x = core ∨ of x = shorthand := by
  rw [of_eq_core_iff, of_eq_shorthand_iff]
  unfold IsShort at h
  omega

end IdentifierKind

namespace Resolver

open IdentifierKind

variable {r : Resolver} {x y : String}

/-- The owner and repository that a short identifier stands for. -/
def repository (r : Resolver) (x : String) : String :=
  match IdentifierKind.of x with
  | .core => r.org ++ "/" ++ r.lead ++ x
  | _ => x

/-- Whether a shorthand spells out the owner and repository of a core template. -/
structure IsAlias (r : Resolver) (name spelling : String) : Prop where
  core : IdentifierKind.of name = .core
  shorthand : IdentifierKind.of spelling = .shorthand
  eq : spelling = r.org ++ "/" ++ r.lead ++ name

/-! ## Addresses -/

theorem resolve_of_explicit (h : IdentifierKind.of x = .explicit) : r.resolve x = x := by
  rw [resolve, h]

/-- The address of a short identifier is made of the host and the repository. -/
theorem resolve_of_isShort (h : IsShort x) :
    r.resolve x = "https://" ++ r.host ++ "/" ++ r.repository x ++ ".git" := by
  rcases h.cases with hx | hx
  · rw [resolve, repository, hx]
    simp [toString, String.append_assoc]
  · rw [resolve, repository, hx]
    simp [toString, String.append_assoc]

/-- An address has two slashes at least. -/
theorem of_resolve (r : Resolver) (x : String) : IdentifierKind.of (r.resolve x) = .explicit := by
  by_cases h : IsShort x
  · rw [resolve_of_isShort h, of_eq_explicit_iff]
    have hscheme : "https://".toList.count '/' = 2 := by decide +kernel
    simp only [String.toList_append, List.count_append, hscheme]
    omega
  · have hx : IdentifierKind.of x = .explicit := by
      rw [of_eq_explicit_iff]
      unfold IsShort at h
      omega
    rw [resolve_of_explicit hx, hx]

theorem resolve_resolve (r : Resolver) (x : String) : r.resolve (r.resolve x) = r.resolve x :=
  resolve_of_explicit (r.of_resolve x)

/-- Short identifiers have one address just if they stand for one repository. -/
theorem resolve_eq_iff_repository_eq (hx : IsShort x) (hy : IsShort y) :
    r.resolve x = r.resolve y ↔ r.repository x = r.repository y := by
  rw [resolve_of_isShort hx, resolve_of_isShort hy, String.append_left_inj,
    String.append_right_inj]

/-- A core template is the same repository as a shorthand that spells it out, and as no other. -/
theorem repository_eq_iff_isAlias (hx : IdentifierKind.of x = .core)
    (hy : IdentifierKind.of y = .shorthand) :
    r.repository x = r.repository y ↔ r.IsAlias x y := by
  rw [repository, repository, hx, hy]
  exact ⟨fun h => ⟨hx, hy, h.symm⟩, fun h => h.eq.symm⟩

/-- Which short identifiers stand for one repository. -/
theorem repository_eq_iff (hx : IsShort x) (hy : IsShort y) :
    r.repository x = r.repository y ↔ x = y ∨ r.IsAlias x y ∨ r.IsAlias y x := by
  have hcore {a b : String} (hb : IdentifierKind.of b = .core) : ¬r.IsAlias a b := fun h => by
    have hshorthand := h.shorthand
    rw [hb] at hshorthand
    cases hshorthand
  have hshorthand {a b : String} (ha : IdentifierKind.of a = .shorthand) : ¬r.IsAlias a b :=
    fun h => by
      have hcore := h.core
      rw [ha] at hcore
      cases hcore
  have hdiffer (hkind : IdentifierKind.of x ≠ IdentifierKind.of y) : x ≠ y := fun h => hkind (h ▸ rfl)
  rcases hx.cases with hx | hx <;> rcases hy.cases with hy | hy
  · rw [or_iff_left (not_or.mpr ⟨hcore hy, hcore hx⟩), repository, repository, hx, hy]
    exact String.append_right_inj _
  · rw [repository_eq_iff_isAlias hx hy, or_iff_left (hcore hx),
      or_iff_right (hdiffer (by rw [hx, hy]; exact nofun))]
  · rw [eq_comm, repository_eq_iff_isAlias hy hx, or_iff_right (hcore hy),
      or_iff_right (hdiffer (by rw [hx, hy]; exact nofun))]
  · rw [or_iff_left (not_or.mpr ⟨hshorthand hx, hshorthand hy⟩), repository, repository, hx, hy]

/-- An address is its own address. Short identifiers have one address just if they are equal or one
is a core template that the other one spells out, and identifiers that are addresses have it just if
they are equal. So the checkouts of short identifiers are in one place for these reasons alone, or
since two addresses have one digest. -/
theorem resolve_canonical (r : Resolver) (cache : CheckoutCache) :
    (∀ x, r.resolve (r.resolve x) = r.resolve x ∧
      IdentifierKind.of (r.resolve x) = .explicit) ∧
    (∀ x y, IsShort x → IsShort y →
      (r.resolve x = r.resolve y ↔ x = y ∨ r.IsAlias x y ∨ r.IsAlias y x)) ∧
    (∀ x y, IdentifierKind.of x = .explicit → IdentifierKind.of y = .explicit →
      r.resolve x = r.resolve y → x = y) ∧
    ∀ x y, IsShort x → IsShort y →
      (cache.path (r.resolve x)).parts = (cache.path (r.resolve y)).parts →
        (x = y ∨ r.IsAlias x y ∨ r.IsAlias y x) ∨
          r.resolve x ≠ r.resolve y ∧
            Text.digest (r.resolve x).toUTF8.toList = Text.digest (r.resolve y).toUTF8.toList := by
  have hshort {x y : String} (hx : IsShort x) (hy : IsShort y) :
      r.resolve x = r.resolve y ↔ x = y ∨ r.IsAlias x y ∨ r.IsAlias y x :=
    (resolve_eq_iff_repository_eq hx hy).trans (repository_eq_iff hx hy)
  refine ⟨fun x => ⟨r.resolve_resolve x, r.of_resolve x⟩, fun x y hx hy => hshort hx hy,
    fun x y hx hy h => ?_, fun x y hx hy h => ?_⟩
  · rwa [resolve_of_explicit hx, resolve_of_explicit hy] at h
  · by_cases heq : r.resolve x = r.resolve y
    · exact Or.inl ((hshort hx hy).mp heq)
    · exact Or.inr ⟨heq, (cache.parts_path_eq_iff _ _).mp h⟩

/-- A core template and the shorthand that spells it out have one address, and another shorthand has
another one. -/
theorem resolve_canonical_web :
    let r : Resolver := { host := "github.com", org := "quarryhq", lead := "cli-project-template-" }
    (∀ x ∈ ["web", "quarryhq/cli-project-template-web", "quarryhq/web"], IsShort x) ∧
      (∀ x ∈ ["./a/b", "./a/b/"], IdentifierKind.of x = .explicit) ∧
      r.resolve "web" = r.resolve "quarryhq/cli-project-template-web" ∧
      r.resolve "web" ≠ r.resolve "quarryhq/web" ∧
      r.resolve "./a/b" ≠ r.resolve "./a/b/" := by
  intro r
  have hshort : ∀ x ∈ ["web", "quarryhq/cli-project-template-web", "quarryhq/web"], IsShort x := by
    unfold IsShort
    decide +kernel
  have hexplicit : ∀ x ∈ ["./a/b", "./a/b/"], IdentifierKind.of x = .explicit := by decide +kernel
  obtain ⟨-, hiff, hinj, -⟩ := r.resolve_canonical ⟨⟨"cache"⟩⟩
  have halias : r.IsAlias "web" "quarryhq/cli-project-template-web" :=
    ⟨by decide +kernel, by decide +kernel, by decide +kernel⟩
  refine ⟨hshort, hexplicit, ?_, fun h => ?_, fun h => ?_⟩
  · exact (hiff _ _ (hshort _ (by simp)) (hshort _ (by simp))).mpr (Or.inr (Or.inl halias))
  · rcases (hiff _ _ (hshort _ (by simp)) (hshort _ (by simp))).mp h with heq | heq | heq
    · exact absurd heq (by decide)
    · exact absurd heq.eq (by decide +kernel)
    · exact absurd heq.shorthand (by decide +kernel)
  · exact absurd (hinj _ _ (hexplicit _ (by simp)) (hexplicit _ (by simp)) h) (by decide)

end Resolver

end Scaffold
