import AppNG.Lib.Keyed
import AppNG.Lib.Champion
import AppNG.Repository.PackageInfo

/-!
# Repository.PackageWrapper

`PackageWrapper`: the versions of one package, and what is derived from them.

The derived fields are filled by one loop over the versions, in the order in which their hash map
gives them. `findLatest_latestRelease`, `findLatest_latestSnapshot` and
`findLatest_getSnapshot` say what this loop leaves in each of them.
-/

namespace AppNG
namespace Repository

open Champion

inductive Failure where
  | businessException (message : String)
  | fileNotFoundException (message : String)
  | illegalArgumentException (message : String)
  | nullPointerException
  | noSuchElementException
  | classCastException
  deriving DecidableEq, Repr

/-- `String.valueOf`, as string concatenation applies it. -/
def valueOf (s : Option String) : String := s.getD "null"

/-- `getVersionKey` of a version that is not `null`. -/
def versionKey (version : String) (timestamp : Option String) : String :=
  if Java.isBlank timestamp then version
  else if isSnapshot version then version ++ "-" ++ valueOf timestamp
  else version

def getVersionKey (version timestamp : Option String) : Except Failure (Option String) :=
  match version with
  | some version => .ok (some (versionKey version timestamp))
  | none => if Java.isBlank timestamp then .ok none else .error .nullPointerException

def PackageInfo.key (p : PackageInfo) : String := versionKey p.version (some p.timestamp)

/-- A key is one of a snapshot if the version is. -/
theorem isSnapshot_versionKey (version : String) (timestamp : Option String) :
    isSnapshot (versionKey version timestamp) = isSnapshot version := by
  unfold versionKey
  split
  · rfl
  · split
    · rename_i h
      rw [h, String.append_assoc]
      exact isSnapshot_append h
    · rfl

@[simp] theorem PackageInfo.isSnapshot_key (p : PackageInfo) :
    isSnapshot p.key = isSnapshot p.version := isSnapshot_versionKey _ _

inductive PackageType where
  | application
  | template
  deriving DecidableEq, Repr

/-- `org.appng.core.xml.repository.Package`. -/
structure Package where
  name : Option String
  displayName : Option String
  longDescription : Option String
  latestRelease : Option String
  latestSnapshot : Option String
  type : Option PackageType
  deriving DecidableEq, Repr

abbrev Versions := Keyed PackageInfo.key

structure PackageWrapper where
  versions : Versions
  latestSnapshotForVersion : Keyed PackageInfo.version
  publishedPackage : Package
  latestRelease : Option PackageInfo
  latestSnapshot : Option PackageInfo

/-- The order in which a hash map gives its entries. -/
structure IterationOrder where
  entries : Versions → List PackageInfo
  perm : ∀ m, (entries m).Perm m.values

def IterationOrder.asListed : IterationOrder := ⟨fun m => m.values, fun m => List.Perm.refl m.values⟩

namespace PackageWrapper

/-- The wrapper of a new `Package` of this type. -/
def create (type : Option PackageType) : PackageWrapper where
  versions := .empty
  latestSnapshotForVersion := .empty
  publishedPackage := ⟨none, none, none, none, none, type⟩
  latestRelease := none
  latestSnapshot := none

def addPackage (w : PackageWrapper) (packageInfo : PackageInfo) : PackageWrapper :=
  { w with versions := w.versions.put packageInfo }

def getVersion (w : PackageWrapper) (version : String) (timestamp : Option String) :
    Option PackageInfo :=
  w.versions.get (versionKey version timestamp)

def getSnapshot (w : PackageWrapper) (version : String) : Option PackageInfo :=
  w.latestSnapshotForVersion.get version

def removePackageVersion (w : PackageWrapper) (version timestamp : Option String) :
    Except Failure PackageWrapper :=
  let missing := Failure.businessException
    ("Package version not found: " ++ valueOf version ++ ", timestamp: " ++ valueOf timestamp)
  match getVersionKey version timestamp with
  | .error e => .error e
  | .ok none => .error missing
  | .ok (some versionKey) =>
    if (w.versions.get versionKey).isSome then
      .ok { w with versions := w.versions.erase versionKey }
    else .error missing

section Latest

variable {V : Type} [Ord V] (P : Parsers V)

def findLatestSnapshotForVersion (w : PackageWrapper) (current : PackageInfo) : PackageWrapper :=
  if isNewer P current (w.latestSnapshotForVersion.get current.version) then
    { w with latestSnapshotForVersion := w.latestSnapshotForVersion.put current }
  else w

/-- The body of the loop of `findLatest`. -/
def visit (w : PackageWrapper) (currentPackage : PackageInfo) : PackageWrapper :=
  if isSnapshot currentPackage.key then
    findLatestSnapshotForVersion P
      (if isNewer P currentPackage w.latestSnapshot then
        { w with latestSnapshot := some currentPackage }
      else w) currentPackage
  else if isNewer P currentPackage w.latestRelease then
    { w with latestRelease := some currentPackage }
  else w

def findLatest (entries : List PackageInfo) (w : PackageWrapper) : PackageWrapper :=
  entries.foldl (visit P) { w with latestRelease := none, latestSnapshot := none }

/-- What `init` writes to the published package. -/
def publish (w : PackageWrapper) : Except Failure Package :=
  match w.latestRelease.or w.latestSnapshot with
  | none => .error .nullPointerException
  | some latest => .ok
    { w.publishedPackage with
      latestSnapshot := (w.latestSnapshot.map (·.version)).or w.publishedPackage.latestSnapshot
      latestRelease := (w.latestRelease.map (·.version)).or w.publishedPackage.latestRelease
      name := some latest.name
      displayName := some latest.displayName
      longDescription := some latest.longDescription }

def init (o : IterationOrder) (w : PackageWrapper) : Except Failure PackageWrapper :=
  let w := findLatest P (o.entries w.versions) w
  match publish w with
  | .error e => .error e
  | .ok publishedPackage => .ok { w with publishedPackage }

/-! ## The loop -/

/-- What the loop of `findLatest` asks of two packages. -/
def newer (p q : PackageInfo) : Bool := isNewer P p (some q)

variable {P} {w : PackageWrapper} {p : PackageInfo} {entries : List PackageInfo}

theorem keep_eq {current : Option PackageInfo} :
    keep (newer P) current p = if isNewer P p current then some p else current := by
  cases current with
  | none => simp [keep, isNewer]
  | some q => rfl

@[simp] theorem visit_versions : (visit P w p).versions = w.versions := by
  unfold visit findLatestSnapshotForVersion
  split <;> split <;> (try split) <;> rfl

@[simp] theorem visit_publishedPackage : (visit P w p).publishedPackage = w.publishedPackage := by
  unfold visit findLatestSnapshotForVersion
  split <;> split <;> (try split) <;> rfl

theorem visit_latestRelease :
    (visit P w p).latestRelease =
      if isSnapshot p.version = false then keep (newer P) w.latestRelease p
      else w.latestRelease := by
  rw [keep_eq]
  unfold visit findLatestSnapshotForVersion
  rw [PackageInfo.isSnapshot_key]
  cases isSnapshot p.version with
  | true => simp only [if_true]; split <;> split <;> rfl
  | false => simp only [Bool.false_eq_true, if_false, if_true]; split <;> rfl

theorem visit_latestSnapshot :
    (visit P w p).latestSnapshot =
      if isSnapshot p.version = true then keep (newer P) w.latestSnapshot p
      else w.latestSnapshot := by
  rw [keep_eq]
  unfold visit findLatestSnapshotForVersion
  rw [PackageInfo.isSnapshot_key]
  cases isSnapshot p.version with
  | true => simp only [if_true]; split <;> split <;> rfl
  | false => simp only [Bool.false_eq_true, if_false]; split <;> rfl

theorem findLatestSnapshotForVersion_getSnapshot (version : String) :
    (findLatestSnapshotForVersion P w p).getSnapshot version =
      if p.version = version then keep (newer P) (w.getSnapshot version) p
      else w.getSnapshot version := by
  rw [keep_eq]
  unfold findLatestSnapshotForVersion getSnapshot
  split
  · rw [Keyed.get_put]
    split
    · rename_i hnewer hversion
      rw [← hversion, if_pos hnewer]
    · rfl
  · split
    · rename_i hnewer hversion
      rw [← hversion, if_neg hnewer]
    · rfl

theorem visit_getSnapshot (version : String) :
    (visit P w p).getSnapshot version =
      if isSnapshot p.version = true ∧ p.version = version then
        keep (newer P) (w.getSnapshot version) p
      else w.getSnapshot version := by
  unfold visit
  rw [PackageInfo.isSnapshot_key]
  cases isSnapshot p.version with
  | true =>
    rw [if_pos rfl, findLatestSnapshotForVersion_getSnapshot]
    have hsame : (if isNewer P p w.latestSnapshot then { w with latestSnapshot := some p }
        else w).getSnapshot version = w.getSnapshot version := by
      split <;> rfl
    simp only [true_and, hsame]
  | false =>
    simp only [Bool.false_eq_true, false_and, if_false]
    split <;> rfl

/-- The loop leaves in a field what keeping the newest of the packages that concern it does. -/
theorem foldl_visit (field : PackageWrapper → Option PackageInfo) (q : PackageInfo → Prop)
    [DecidablePred q] (hvisit : ∀ w p, field (visit P w p) =
      if q p then keep (newer P) (field w) p else field w) :
    ∀ w, field (entries.foldl (visit P) w) =
      champion (newer P) (field w) (entries.filter fun p => q p) := by
  induction entries with
  | nil => intro w; rfl
  | cons p entries ih =>
    intro w
    rw [List.foldl_cons, ih, hvisit]
    by_cases hq : q p
    · rw [if_pos hq, List.filter_cons_of_pos (by simpa using hq), champion_cons]
    · rw [if_neg hq, List.filter_cons_of_neg (by simpa using hq)]

theorem foldl_visit_frame {β : Type} (field : PackageWrapper → β)
    (hvisit : ∀ w p, field (visit P w p) = field w) :
    ∀ w, field (entries.foldl (visit P) w) = field w := by
  induction entries with
  | nil => intro w; rfl
  | cons p entries ih => intro w; rw [List.foldl_cons, ih, hvisit]

@[simp] theorem findLatest_versions : (findLatest P entries w).versions = w.versions :=
  foldl_visit_frame versions (fun _ _ => visit_versions) _

@[simp] theorem findLatest_publishedPackage :
    (findLatest P entries w).publishedPackage = w.publishedPackage :=
  foldl_visit_frame publishedPackage (fun _ _ => visit_publishedPackage) _

theorem findLatest_latestRelease :
    (findLatest P entries w).latestRelease =
      champion (newer P) none (entries.filter fun p => isSnapshot p.version = false) :=
  foldl_visit latestRelease _ (fun _ _ => visit_latestRelease) _

theorem findLatest_latestSnapshot :
    (findLatest P entries w).latestSnapshot =
      champion (newer P) none (entries.filter fun p => isSnapshot p.version = true) :=
  foldl_visit latestSnapshot _ (fun _ _ => visit_latestSnapshot) _

/-- The latest snapshot of a version starts from the one that is recorded. -/
theorem findLatest_getSnapshot (version : String) :
    (findLatest P entries w).getSnapshot version =
      champion (newer P) (w.getSnapshot version)
        (entries.filter fun p => isSnapshot p.version = true ∧ p.version = version) :=
  foldl_visit (getSnapshot · version) _ (fun _ _ => visit_getSnapshot version) _

/-! ## `init` -/

variable {o : IterationOrder} {w' : PackageWrapper}

theorem init_ok (hne : w.versions.values ≠ []) : ∃ w', init P o w = .ok w' := by
  obtain ⟨p, hp⟩ := List.exists_mem_of_ne_nil _ hne
  have hmem : p ∈ o.entries w.versions := (o.perm w.versions).mem_iff.mpr hp
  have hsome : ((findLatest P (o.entries w.versions) w).latestRelease.or
      (findLatest P (o.entries w.versions) w).latestSnapshot).isSome := by
    rw [findLatest_latestRelease, findLatest_latestSnapshot, Option.isSome_or, Bool.or_eq_true]
    cases hkind : isSnapshot p.version with
    | false => exact .inl (champion_isSome_of_mem (List.mem_filter.mpr ⟨hmem, by simp [hkind]⟩))
    | true => exact .inr (champion_isSome_of_mem (List.mem_filter.mpr ⟨hmem, by simp [hkind]⟩))
  obtain ⟨latest, hlatest⟩ := Option.isSome_iff_exists.mp hsome
  exact ⟨_, by simp only [init, publish, hlatest]; rfl⟩

/-- Everything that is derived, after `init`. -/
theorem init_spec (h : init P o w = .ok w') :
    w'.versions = w.versions ∧
      w'.latestRelease = champion (newer P) none
        ((o.entries w.versions).filter fun p => isSnapshot p.version = false) ∧
      w'.latestSnapshot = champion (newer P) none
        ((o.entries w.versions).filter fun p => isSnapshot p.version = true) ∧
      (∀ version, w'.getSnapshot version = champion (newer P) (w.getSnapshot version)
        ((o.entries w.versions).filter fun p =>
          isSnapshot p.version = true ∧ p.version = version)) ∧
      w'.publishedPackage.latestRelease =
        (w'.latestRelease.map (·.version)).or w.publishedPackage.latestRelease ∧
      w'.publishedPackage.latestSnapshot =
        (w'.latestSnapshot.map (·.version)).or w.publishedPackage.latestSnapshot := by
  unfold init publish at h
  cases hlatest : (findLatest P (o.entries w.versions) w).latestRelease.or
      (findLatest P (o.entries w.versions) w).latestSnapshot with
  | none =>
    simp only [hlatest] at h
    cases h
  | some latest =>
    simp only [hlatest] at h
    cases h
    refine ⟨findLatest_versions, findLatest_latestRelease, findLatest_latestSnapshot,
      fun version => findLatest_getSnapshot version, ?_, ?_⟩
    · simp only [findLatest_publishedPackage]
    · simp only [findLatest_publishedPackage]

end Latest

/-! ## The newest package -/

section Newest

variable {V : Type} [Ord V] {P : Parsers V} {K : PackageInfo → Prop} {p q : PackageInfo}

/-- A package of a kind that no package of this kind is newer than. -/
def Newest (P : Parsers V) (K : PackageInfo → Prop) (p : PackageInfo) : Prop :=
  K p ∧ Undominated (newer P) K p

variable [Std.TransOrd V]

theorem newer_eq_false : newer P q p = false ↔ (versionComparator P p q).isLE := by
  have hswap : versionComparator P p q = (versionComparator P q p).swap := Std.OrientedCmp.eq_swap
  rw [hswap, newer, isNewer]
  cases versionComparator P q p <;> decide

theorem versionComparator_total :
    (versionComparator P p q).isLE ∨ (versionComparator P q p).isLE := by
  have hswap : versionComparator P q p = (versionComparator P p q).swap := Std.OrientedCmp.eq_swap
  rw [hswap]
  cases versionComparator P p q <;> decide

/-- What the newest package is not newer than is a newest package, too. -/
theorem undominated_or_older (hp : Undominated (newer P) K p) (hq : K q) :
    Undominated (newer P) K q ∨ newer P p q = true := by
  cases hnewer : newer P p q with
  | true => exact .inr rfl
  | false =>
    left
    have hqp : (versionComparator P q p).isLE := newer_eq_false.mp hnewer
    have hpq : (versionComparator P p q).isLE := newer_eq_false.mp (hp q hq)
    have heq : versionComparator P p q = .eq := Std.OrientedCmp.isLE_antisymm hpq hqp
    intro r hr
    have hrp : newer P r p = false := hp r hr
    rw [newer, isNewer, versionComparator_congr heq] at hrp
    exact hrp

theorem champion_newest {entries : List PackageInfo} (hentries : ∀ q, q ∈ entries ↔ K q)
    (hp : Newest P K p) : ∃ q, champion (newer P) none entries = some q ∧ Newest P K q := by
  have hcurrent : ∀ q, (none : Option PackageInfo) = some q → K q := nofun
  obtain ⟨q, hq, hund⟩ := champion_undominated hp.2 (fun q hq => undominated_or_older hp.2 hq)
    (fun q hq => (hentries q).mp hq) hcurrent ((hentries p).mpr hp.1)
  rcases champion_mem hq with hmem | hnone
  · exact ⟨q, hq, (hentries q).mp hmem, hund⟩
  · cases hnone

/-- Where the comparison is transitive, a list of packages has a newest one. -/
theorem exists_newest : ∀ {entries : List PackageInfo}, entries ≠ [] →
    (∀ p ∈ entries, ∀ q ∈ entries, ∀ r ∈ entries, (versionComparator P p q).isLE →
      (versionComparator P q r).isLE → (versionComparator P p r).isLE) →
    ∃ p ∈ entries, ∀ q ∈ entries, (versionComparator P p q).isLE := by
  intro entries
  induction entries with
  | nil => intro hne; exact absurd rfl hne
  | cons p entries ih =>
    intro _ htrans
    have hp : (versionComparator P p p).isLE := Std.ReflCmp.isLE_rfl
    cases hentries : entries with
    | nil => exact ⟨p, List.mem_cons_self, by simpa using hp⟩
    | cons _ _ =>
      rw [← hentries]
      have hne : entries ≠ [] := by simp [hentries]
      obtain ⟨b, hb, hbest⟩ := ih hne fun x hx y hy z hz =>
        htrans x (.tail p hx) y (.tail p hy) z (.tail p hz)
      by_cases hbp : (versionComparator P b p).isLE
      · refine ⟨b, .tail p hb, fun q hq => ?_⟩
        rcases List.mem_cons.mp hq with rfl | hq
        · exact hbp
        · exact hbest q hq
      · have hpb : (versionComparator P p b).isLE := versionComparator_total.resolve_right hbp
        refine ⟨p, List.mem_cons_self, fun q hq => ?_⟩
        rcases List.mem_cons.mp hq with rfl | hq
        · exact hp
        · exact htrans p List.mem_cons_self b (.tail p hb) q (.tail p hq) hpb (hbest q hq)

end Newest

end PackageWrapper
end Repository
end AppNG
