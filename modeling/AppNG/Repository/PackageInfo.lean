import AppNG.Lib.JavaString
import AppNG.Lib.Utf16
import Mathlib.Data.List.Infix

/-!
# Repository.PackageInfo

What a package says of itself, and the order of its versions: `RepositoryUtils` and
`PackageVersion.compareTo`.

Two versions are compared as semantic versions if both are valid, and as strings if one of them is
not or if the semantic versions are equal. The date decides between equal versions.

* `compareVersions` is antisymmetric, and only equal strings compare equal.
* `cycle_straddles`: three versions that go round in a circle are two valid ones and an invalid one
  that the string order puts between them, the wrong way round.
-/

namespace AppNG
namespace Repository

/-! ## Packages -/

structure PackageInfo where
  name : String
  displayName : String
  longDescription : String
  version : String
  timestamp : String
  deriving DecidableEq, Repr

def isSnapshot (name : String) : Bool := decide ("-SNAPSHOT".toList <:+: name.toList)

theorem isSnapshot_append {s t : String} (h : isSnapshot s = true) :
    isSnapshot (s ++ t) = true := by
  have hs : "-SNAPSHOT".toList <:+: s.toList := of_decide_eq_true h
  have hst : s.toList <:+: (s ++ t).toList := by
    rw [String.toList_append]
    exact (List.prefix_append s.toList t.toList).isInfix
  exact decide_eq_true (hs.trans hst)

/-- The third-party parsers. `parseVersion` is `Version.parseVersion`, with a result if
`Version.isValidVersion`; `parseDate` is `FastDateFormat.parse`, with none for a
`ParseException`. -/
structure Parsers (V : Type) where
  parseVersion : String → Option V
  parseDate : String → Option Int

variable {V : Type} [Ord V] (P : Parsers V)

def getDate (p : PackageInfo) : Int := (P.parseDate p.timestamp).getD 0

def compareSemantic (x y : String) : Ordering :=
  match P.parseVersion x, P.parseVersion y with
  | some v, some w => compare v w
  | _, _ => .eq

/-- The first two steps of the comparator. -/
def compareVersions (x y : String) : Ordering :=
  (compareSemantic P x y).then (Java.compareTo x y)

/-- `RepositoryUtils.getVersionComparator`: in descending order. -/
def versionComparator (p₁ p₂ : PackageInfo) : Ordering :=
  ((compareVersions P p₁.version p₂.version).then
    (compare (getDate P p₁) (getDate P p₂))).swap

def isNewer (packageA : PackageInfo) (packageB : Option PackageInfo) : Bool :=
  match packageB with
  | none => true
  | some packageB => versionComparator P packageA packageB == .lt

/-- `PackageVersion.compareTo`: in ascending order. -/
def compareTo (p o : PackageInfo) : Ordering := versionComparator P o p

variable {P} {x y z : String} {p q r : PackageInfo}

theorem isNewer_iff :
    isNewer P p (some q) = true ↔ versionComparator P p q = .lt := by
  simp [isNewer]

/-! ## The comparison of versions -/

theorem compareVersions_of_valid {v w : V} (hx : P.parseVersion x = some v)
    (hy : P.parseVersion y = some w) :
    compareVersions P x y = (compare v w).then (Java.compareTo x y) := by
  simp [compareVersions, compareSemantic, hx, hy]

theorem compareVersions_of_invalid_left (hx : P.parseVersion x = none) :
    compareVersions P x y = Java.compareTo x y := by
  simp [compareVersions, compareSemantic, hx]

theorem compareVersions_of_invalid_right (hy : P.parseVersion y = none) :
    compareVersions P x y = Java.compareTo x y := by
  cases hx : P.parseVersion x <;> simp [compareVersions, compareSemantic, hx, hy]

variable [Std.TransOrd V]

theorem compareSemantic_swap : compareSemantic P x y = (compareSemantic P y x).swap := by
  cases hx : P.parseVersion x with
  | none => cases hy : P.parseVersion y <;> simp [compareSemantic, hx, hy]
  | some v =>
    cases hy : P.parseVersion y with
    | none => simp [compareSemantic, hx, hy]
    | some w =>
      simp only [compareSemantic, hx, hy]
      exact Std.OrientedOrd.eq_swap

instance : Std.OrientedCmp (compareVersions P) where
  eq_swap {x y} := by
    rw [compareVersions, compareVersions, Ordering.swap_then, compareSemantic_swap,
      @Std.OrientedCmp.eq_swap _ Java.compareTo]

instance : Std.LawfulEqCmp (compareVersions P) where
  compare_self := Std.ReflCmp.compare_self
  eq_of_compare {x y} h := by
    have hboth := Ordering.then_eq_eq.mp h
    exact Std.LawfulEqCmp.eq_of_compare hboth.2

/-! ## Circles -/

omit [Ord V] [Std.TransOrd V] in
theorem acyclic {α : Type} {cmp : α → α → Ordering} [Std.TransCmp cmp] {a b c : α}
    (hab : cmp a b = .lt) (hbc : cmp b c = .lt) (hca : cmp c a = .lt) : False := by
  have hac : cmp a c = .lt := Std.TransCmp.lt_trans hab hbc
  have hcc : cmp c c = .lt := Std.TransCmp.lt_trans hca hac
  have hrefl : cmp c c = .eq := Std.ReflCmp.compare_self
  rw [hrefl] at hcc
  cases hcc

/-- `x` is a lower version than `y`, but `z`, which is not valid, is between them the other way
round. -/
def Straddles (P : Parsers V) (x y z : String) : Prop :=
  (∃ v w, P.parseVersion x = some v ∧ P.parseVersion y = some w ∧ compare v w = .lt) ∧
    P.parseVersion z = none ∧ Java.compareTo y z = .lt ∧ Java.compareTo z x = .lt

omit [Std.TransOrd V] in
theorem Straddles.cycle (h : Straddles P x y z) :
    compareVersions P x y = .lt ∧ compareVersions P y z = .lt ∧ compareVersions P z x = .lt := by
  obtain ⟨⟨v, w, hx, hy, hvw⟩, hz, hyz, hzx⟩ := h
  refine ⟨?_, ?_, ?_⟩
  · rw [compareVersions_of_valid hx hy, hvw]
    rfl
  · rw [compareVersions_of_invalid_right hz]
    exact hyz
  · rw [compareVersions_of_invalid_left hz]
    exact hzx

omit [Std.TransOrd V] in
theorem straddles_of_invalid {v w : V} (hx : P.parseVersion x = some v)
    (hy : P.parseVersion y = some w) (hz : P.parseVersion z = none)
    (hxy : compareVersions P x y = .lt) (hyz : compareVersions P y z = .lt)
    (hzx : compareVersions P z x = .lt) : Straddles P x y z := by
  rw [compareVersions_of_invalid_right hz] at hyz
  rw [compareVersions_of_invalid_left hz] at hzx
  rw [compareVersions_of_valid hx hy, Ordering.then_eq_lt] at hxy
  refine ⟨⟨v, w, hx, hy, ?_⟩, hz, hyz, hzx⟩
  rcases hxy with hvw | ⟨-, hxy⟩
  · exact hvw
  · exact absurd hzx fun hzx => acyclic hxy hyz hzx

/-- The order of valid versions with their strings. -/
def compareValid (v w : V × String) : Ordering := (compare v.1 w.1).then (Java.compareTo v.2 w.2)

omit [Ord V] [Std.TransOrd V] in
theorem transCmp_comap {α β : Type} {cmp : β → β → Ordering} [Std.TransCmp cmp] (f : α → β) :
    Std.TransCmp fun a b => cmp (f a) (f b) where
  eq_swap := Std.OrientedCmp.eq_swap
  isLE_trans := Std.TransCmp.isLE_trans

instance : Std.TransCmp (compareValid (V := V)) :=
  have : Std.TransCmp fun v w : V × String => compare v.1 w.1 := transCmp_comap Prod.fst
  have : Std.TransCmp fun v w : V × String => Java.compareTo v.2 w.2 := transCmp_comap Prod.snd
  inferInstanceAs (Std.TransCmp (compareLex _ _))

theorem valid_acyclic {u v w : V} (hx : P.parseVersion x = some u) (hy : P.parseVersion y = some v)
    (hz : P.parseVersion z = some w) (hxy : compareVersions P x y = .lt)
    (hyz : compareVersions P y z = .lt) (hzx : compareVersions P z x = .lt) : False := by
  rw [compareVersions_of_valid hx hy] at hxy
  rw [compareVersions_of_valid hy hz] at hyz
  rw [compareVersions_of_valid hz hx] at hzx
  have hxy : compareValid (u, x) (v, y) = .lt := hxy
  have hyz : compareValid (v, y) (w, z) = .lt := hyz
  exact acyclic hxy hyz hzx

/-- Three versions that go round in a circle are two valid ones and an invalid one. -/
theorem cycle_straddles (hxy : compareVersions P x y = .lt) (hyz : compareVersions P y z = .lt)
    (hzx : compareVersions P z x = .lt) :
    Straddles P x y z ∨ Straddles P y z x ∨ Straddles P z x y := by
  cases hx : P.parseVersion x with
  | none =>
    cases hy : P.parseVersion y with
    | none =>
      rw [compareVersions_of_invalid_left hx] at hxy
      rw [compareVersions_of_invalid_left hy] at hyz
      rw [compareVersions_of_invalid_right hx] at hzx
      exact absurd hzx (acyclic hxy hyz)
    | some v =>
      cases hz : P.parseVersion z with
      | none =>
        rw [compareVersions_of_invalid_left hx] at hxy
        rw [compareVersions_of_invalid_right hz] at hyz
        rw [compareVersions_of_invalid_left hz] at hzx
        exact absurd hzx (acyclic hxy hyz)
      | some w => exact .inr (.inl (straddles_of_invalid hy hz hx hyz hzx hxy))
  | some u =>
    cases hy : P.parseVersion y with
    | none =>
      cases hz : P.parseVersion z with
      | none =>
        rw [compareVersions_of_invalid_right hy] at hxy
        rw [compareVersions_of_invalid_left hy] at hyz
        rw [compareVersions_of_invalid_left hz] at hzx
        exact absurd hzx (acyclic hxy hyz)
      | some w => exact .inr (.inr (straddles_of_invalid hz hx hy hzx hxy hyz))
    | some v =>
      cases hz : P.parseVersion z with
      | none => exact .inl (straddles_of_invalid hx hy hz hxy hyz hzx)
      | some w => exact (valid_acyclic hx hy hz hxy hyz hzx).elim

/-! ## The comparison of packages -/

/-- The order is the ascending one with its arguments exchanged. -/
theorem versionComparator_eq : versionComparator P p q =
    (compareVersions P q.version p.version).then (compare (getDate P q) (getDate P p)) := by
  rw [versionComparator, Ordering.swap_then, ← @Std.OrientedCmp.eq_swap _ (compareVersions P),
    ← Std.OrientedOrd.eq_swap]

instance : Std.OrientedCmp (versionComparator P) where
  eq_swap {p q} := by
    rw [versionComparator_eq, versionComparator, Ordering.swap_swap]

theorem versionComparator_eq_eq :
    versionComparator P p q = .eq ↔ p.version = q.version ∧ getDate P p = getDate P q := by
  rw [versionComparator, Ordering.swap_eq_eq, Ordering.then_eq_eq,
    Std.LawfulEqCmp.compare_eq_iff_eq, Std.LawfulEqOrd.compare_eq_iff_eq]

/-- Packages that compare equal are newer than the same packages. -/
theorem versionComparator_congr (h : versionComparator P p q = .eq) :
    versionComparator P r p = versionComparator P r q := by
  obtain ⟨hversion, hdate⟩ := versionComparator_eq_eq.mp h
  rw [versionComparator, versionComparator, hversion, hdate]

/-- Packages of one version are compared by their date. -/
theorem versionComparator_of_version_eq (h : p.version = q.version) :
    versionComparator P p q = compare (getDate P q) (getDate P p) := by
  have hself : compareVersions P q.version q.version = .eq := Std.ReflCmp.compare_self
  rw [versionComparator_eq, h, hself, Ordering.eq_then]

end Repository
end AppNG
