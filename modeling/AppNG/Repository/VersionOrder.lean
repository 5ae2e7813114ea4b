import AppNG.Repository.PackageWrapper
import Mathlib.Data.Set.Basic

/-!
# Repository.VersionOrder

Whether the comparison of packages is an order, and whether `PackageWrapper.findLatest` finds its
greatest element.

`isVersionOrder_iff`: it is a total preorder on a set of packages, and the latest release and
snapshot do not depend on the order of the loop, if and only if no version that is not valid stands
between two valid ones the wrong way round, and equal versions with equal dates have equal
timestamps.
-/

namespace AppNG
namespace Repository

open Champion PackageWrapper

variable {V : Type} [Ord V] {P : Parsers V} {S : Set PackageInfo}

/-- A total preorder on `S` whose only ties are packages of one version and timestamp, by which
`findLatest` picks the same greatest elements whatever the order of its loop is. -/
structure IsVersionOrder (P : Parsers V) (S : Set PackageInfo) : Prop where
  total : ∀ p ∈ S, ∀ q ∈ S, (versionComparator P p q).isLE ∨ (versionComparator P q p).isLE
  trans : ∀ p ∈ S, ∀ q ∈ S, ∀ r ∈ S, (versionComparator P p q).isLE →
    (versionComparator P q r).isLE → (versionComparator P p r).isLE
  antisymm : ∀ p ∈ S, ∀ q ∈ S, (versionComparator P p q).isLE → (versionComparator P q p).isLE →
    p.version = q.version ∧ p.timestamp = q.timestamp
  release_newest : ∀ w : PackageWrapper, (∀ p ∈ w.versions.values, p ∈ S) →
    ∀ entries, entries.Perm w.versions.values → ∀ q ∈ w.versions.values,
      isSnapshot q.version = false → ∃ p ∈ w.versions.values, isSnapshot p.version = false ∧
        (findLatest P entries w).latestRelease = some p ∧ (versionComparator P p q).isLE
  snapshot_newest : ∀ w : PackageWrapper, (∀ p ∈ w.versions.values, p ∈ S) →
    ∀ entries, entries.Perm w.versions.values → ∀ q ∈ w.versions.values,
      isSnapshot q.version = true → ∃ p ∈ w.versions.values, isSnapshot p.version = true ∧
        (findLatest P entries w).latestSnapshot = some p ∧ (versionComparator P p q).isLE
  order_irrelevant : ∀ w : PackageWrapper, (∀ p ∈ w.versions.values, p ∈ S) →
    ∀ entries entries', entries.Perm w.versions.values → entries'.Perm w.versions.values →
      (findLatest P entries w).latestRelease = (findLatest P entries' w).latestRelease ∧
        (findLatest P entries w).latestSnapshot = (findLatest P entries' w).latestSnapshot

/-- What the versions have to be like. -/
structure Consistent (P : Parsers V) (S : Set PackageInfo) : Prop where
  not_straddled : ∀ p ∈ S, ∀ q ∈ S, ∀ r ∈ S, ¬ Straddles P p.version q.version r.version
  dates : ∀ p ∈ S, ∀ q ∈ S, p.version = q.version → getDate P p = getDate P q →
    p.timestamp = q.timestamp

variable [Std.TransOrd V] {p q r : PackageInfo}

/-! ## From consistent versions to the order -/

theorem Consistent.compareVersions_lt (h : Consistent P S) (hp : p ∈ S) (hq : q ∈ S) (hr : r ∈ S)
    (hpq : compareVersions P p.version q.version = .lt)
    (hqr : compareVersions P q.version r.version = .lt) :
    compareVersions P p.version r.version = .lt := by
  cases hpr : compareVersions P p.version r.version with
  | lt => rfl
  | eq =>
    have heq : p.version = r.version := Std.LawfulEqCmp.eq_of_compare hpr
    rw [heq, Std.OrientedCmp.gt_iff_lt.symm] at hpq
    rw [hpq] at hqr
    cases hqr
  | gt =>
    have hrp : compareVersions P r.version p.version = .lt := Std.OrientedCmp.gt_iff_lt.mp hpr
    rcases cycle_straddles hpq hqr hrp with hs | hs | hs
    · exact absurd hs (h.not_straddled p hp q hq r hr)
    · exact absurd hs (h.not_straddled q hq r hr p hp)
    · exact absurd hs (h.not_straddled r hr p hp q hq)

theorem Consistent.transCmp_versions (h : Consistent P S) :
    Std.TransCmp fun p q : S => compareVersions P p.1.version q.1.version where
  eq_swap := Std.OrientedCmp.eq_swap
  isLE_trans {p q r} hpq hqr := by
    rw [Ordering.isLE_iff_eq_lt_or_eq_eq] at hpq hqr
    rcases hpq with hpq | hpq
    · rcases hqr with hqr | hqr
      · rw [h.compareVersions_lt p.2 q.2 r.2 hpq hqr]
        rfl
      · rw [← Std.LawfulEqCmp.eq_of_compare hqr, hpq]
        rfl
    · rw [Std.LawfulEqCmp.eq_of_compare hpq]
      exact Ordering.isLE_iff_eq_lt_or_eq_eq.mpr hqr

theorem Consistent.transCmp (h : Consistent P S) :
    Std.TransCmp fun p q : S => versionComparator P p.1 q.1 := by
  have hversions := h.transCmp_versions
  have hdates : Std.TransCmp fun p q : S => compare (getDate P p.1) (getDate P q.1) :=
    transCmp_comap fun p : S => getDate P p.1
  have hboth : Std.TransCmp fun p q : S => (compareVersions P p.1.version q.1.version).then
      (compare (getDate P p.1) (getDate P q.1)) :=
    inferInstanceAs (Std.TransCmp (compareLex _ _))
  have hswap : Std.TransCmp fun p q : S => (compareVersions P q.1.version p.1.version).then
      (compare (getDate P q.1) (getDate P p.1)) := Std.TransCmp.opposite
  have heq : (fun p q : S => versionComparator P p.1 q.1) = fun p q : S =>
      (compareVersions P q.1.version p.1.version).then
        (compare (getDate P q.1) (getDate P p.1)) :=
    funext fun p => funext fun q => versionComparator_eq
  rw [heq]
  exact hswap

theorem Consistent.trans (h : Consistent P S) (hp : p ∈ S) (hq : q ∈ S) (hr : r ∈ S)
    (hpq : (versionComparator P p q).isLE) (hqr : (versionComparator P q r).isLE) :
    (versionComparator P p r).isLE :=
  h.transCmp.isLE_trans (a := ⟨p, hp⟩) (b := ⟨q, hq⟩) (c := ⟨r, hr⟩) hpq hqr

theorem Consistent.antisymm (h : Consistent P S) (hp : p ∈ S) (hq : q ∈ S)
    (hpq : (versionComparator P p q).isLE) (hqp : (versionComparator P q p).isLE) :
    p.version = q.version ∧ p.timestamp = q.timestamp := by
  have heq : versionComparator P p q = .eq := Std.OrientedCmp.isLE_antisymm hpq hqp
  obtain ⟨hversion, hdate⟩ := versionComparator_eq_eq.mp heq
  exact ⟨hversion, h.dates p hp q hq hversion hdate⟩

section Loop

variable {m : Versions} {entries : List PackageInfo} {b : Bool}

/-- The loop over the releases, or over the snapshots, finds a greatest one of them. -/
theorem Consistent.champion_greatest (h : Consistent P S) (hm : ∀ p ∈ m.values, p ∈ S)
    (hentries : entries.Perm m.values) (hq : q ∈ m.values) (hkind : isSnapshot q.version = b) :
    ∃ p ∈ m.values, isSnapshot p.version = b ∧
      champion (newer P) none (entries.filter fun p => isSnapshot p.version = b) = some p ∧
      ∀ r ∈ m.values, isSnapshot r.version = b → (versionComparator P p r).isLE := by
  have hmem : ∀ p, p ∈ entries.filter (fun p => isSnapshot p.version = b) ↔
      p ∈ m.values ∧ isSnapshot p.version = b := by
    intro p
    rw [List.mem_filter, hentries.mem_iff, decide_eq_true_iff]
  have hS : ∀ p ∈ entries.filter (fun p => isSnapshot p.version = b), p ∈ S :=
    fun p hp => hm p ((hmem p).mp hp).1
  obtain ⟨best, hbest, hnewest⟩ := exists_newest (List.ne_nil_of_mem ((hmem q).mpr ⟨hq, hkind⟩))
    fun x hx y hy z hz => h.trans (hS x hx) (hS y hy) (hS z hz)
  obtain ⟨p, hp, ⟨hpm, hpb⟩, hund⟩ := champion_newest hmem (P := P)
    ⟨(hmem best).mp hbest, fun r hr => newer_eq_false.mpr (hnewest r ((hmem r).mpr hr))⟩
  exact ⟨p, hpm, hpb, hp, fun r hr hrb => newer_eq_false.mp (hund r ⟨hr, hrb⟩)⟩

theorem Consistent.champion_perm (h : Consistent P S) (hm : ∀ p ∈ m.values, p ∈ S)
    {entries' : List PackageInfo} (hentries : entries.Perm m.values)
    (hentries' : entries'.Perm m.values) :
    champion (newer P) none (entries.filter fun p => isSnapshot p.version = b) =
      champion (newer P) none (entries'.filter fun p => isSnapshot p.version = b) := by
  have hperm := (hentries.trans hentries'.symm).filter fun p => isSnapshot p.version = b
  by_cases hnil : entries.filter (fun p => isSnapshot p.version = b) = []
  · rw [hnil] at hperm
    rw [hnil, hperm.symm.eq_nil]
  · obtain ⟨q, hq⟩ := List.exists_mem_of_ne_nil _ hnil
    rw [List.mem_filter, hentries.mem_iff, decide_eq_true_iff] at hq
    obtain ⟨p, hp, hpb, heq, hle⟩ := h.champion_greatest hm hentries hq.1 hq.2
    obtain ⟨p', hp', hpb', heq', hle'⟩ := h.champion_greatest hm hentries' hq.1 hq.2
    obtain ⟨hversion, htimestamp⟩ :=
      h.antisymm (hm p hp) (hm p' hp') (hle p' hp' hpb') (hle' p hp hpb)
    have hkey : p.key = p'.key := by rw [PackageInfo.key, PackageInfo.key, hversion, htimestamp]
    rw [heq, heq', Keyed.eq_of_key_eq hp hp' hkey]

end Loop

theorem Consistent.isVersionOrder (h : Consistent P S) : IsVersionOrder P S where
  total _ _ _ _ := versionComparator_total
  trans _ hp _ hq _ hr := h.trans hp hq hr
  antisymm _ hp _ hq := h.antisymm hp hq
  release_newest w hw entries hentries q hq hkind := by
    obtain ⟨p, hp, hpb, heq, hle⟩ := h.champion_greatest hw hentries hq hkind
    exact ⟨p, hp, hpb, findLatest_latestRelease.trans heq, hle q hq hkind⟩
  snapshot_newest w hw entries hentries q hq hkind := by
    obtain ⟨p, hp, hpb, heq, hle⟩ := h.champion_greatest hw hentries hq hkind
    exact ⟨p, hp, hpb, findLatest_latestSnapshot.trans heq, hle q hq hkind⟩
  order_irrelevant w hw entries entries' hentries hentries' := by
    rw [findLatest_latestRelease, findLatest_latestRelease, findLatest_latestSnapshot,
      findLatest_latestSnapshot]
    exact ⟨h.champion_perm hw hentries hentries', h.champion_perm hw hentries hentries'⟩

/-! ## From the order to consistent versions -/

theorem versionComparator_of_lt (h : compareVersions P p.version q.version = .lt) :
    versionComparator P q p = .lt := by
  rw [versionComparator_eq, h]
  rfl

theorem IsVersionOrder.not_straddled (h : IsVersionOrder P S) (hp : p ∈ S) (hq : q ∈ S)
    (hr : r ∈ S) : ¬ Straddles P p.version q.version r.version := by
  intro hs
  obtain ⟨hpq, hqr, hrp⟩ := hs.cycle
  have hrq : (versionComparator P r q).isLE := by rw [versionComparator_of_lt hqr]; rfl
  have hqp : (versionComparator P q p).isLE := by rw [versionComparator_of_lt hpq]; rfl
  have hpr : versionComparator P p r = .lt := versionComparator_of_lt hrp
  have hrp : (versionComparator P r p).isLE := h.trans r hr q hq p hp hrq hqp
  rw [Std.OrientedCmp.gt_iff_lt.mpr hpr] at hrp
  cases hrp

theorem IsVersionOrder.dates (h : IsVersionOrder P S) (hp : p ∈ S) (hq : q ∈ S)
    (hversion : p.version = q.version) (hdate : getDate P p = getDate P q) :
    p.timestamp = q.timestamp := by
  have hpq : versionComparator P p q = .eq := versionComparator_eq_eq.mpr ⟨hversion, hdate⟩
  have hqp : versionComparator P q p = .eq :=
    versionComparator_eq_eq.mpr ⟨hversion.symm, hdate.symm⟩
  exact (h.antisymm p hp q hq (by rw [hpq]; rfl) (by rw [hqp]; rfl)).2

theorem isVersionOrder_iff : IsVersionOrder P S ↔ Consistent P S where
  mp h := ⟨fun _ hp _ hq _ hr => h.not_straddled hp hq hr, fun _ hp _ hq => h.dates hp hq⟩
  mpr h := h.isVersionOrder

section Example

def release (version : String) : PackageInfo := ⟨"demo", "Demo", "", version, "20240101-0000"⟩

/-- The parsers on `1.9.0`, `1.10.0` and `1.5`, which is not a semantic version. -/
def releaseParsers : Parsers (List Nat) where
  parseVersion version :=
    if version = "1.9.0" then some [1, 9, 0]
    else if version = "1.10.0" then some [1, 10, 0]
    else none
  parseDate _ := some 1704067200

theorem isVersionOrder_valid :
    IsVersionOrder releaseParsers {release "1.9.0", release "1.10.0"} := by
  refine isVersionOrder_iff.mpr ⟨fun p _ q _ r hr hs => ?_, fun p hp q hq _ _ => ?_⟩
  · have hinvalid : releaseParsers.parseVersion r.version = none := hs.2.1
    rcases hr with rfl | rfl <;> exact absurd hinvalid (by decide)
  · rcases hp with rfl | rfl <;> rcases hq with rfl | rfl <;> rfl

/-- `1.10.0` is newer than `1.9.0`, which is newer than `1.5`, which is newer than `1.10.0`. -/
theorem not_isVersionOrder_circle :
    ¬ IsVersionOrder releaseParsers {release "1.9.0", release "1.10.0", release "1.5"} := by
  intro h
  have hstraddles : Straddles releaseParsers "1.9.0" "1.10.0" "1.5" :=
    ⟨⟨[1, 9, 0], [1, 10, 0], by decide, by decide, by decide⟩, by decide, by decide +kernel,
      by decide +kernel⟩
  exact h.not_straddled (p := release "1.9.0") (q := release "1.10.0") (r := release "1.5")
    (.inl rfl) (.inr (.inl rfl)) (.inr (.inr rfl)) hstraddles

end Example

end Repository
end AppNG
