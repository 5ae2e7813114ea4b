import AppNG.Lib.Loop
import AppNG.Lib.Machine
import AppNG.Repository.PackageWrapper

/-!
# Repository.WrapperRuns

A `PackageWrapper` to which packages are added, and from which versions are removed, in any order;
`init` follows each of these as long as a version is left.

`latestRight_iff`: in every state of a run the latest release, the latest snapshot, the latest
snapshot of each version and the two published versions are right, if and only if every call of the
run is one that `Keeps` them right. `init` forgets neither the snapshot it has recorded for a version
nor what it has published, so a call must not take away the recorded snapshot of a version or the
last release.
-/

namespace AppNG
namespace Repository

open Champion Machine PackageWrapper

variable {V : Type} [Ord V]

/-! ## Calls -/

inductive Op where
  | add (packageInfo : PackageInfo)
  | remove (version timestamp : Option String)

/-- A call, and the order in which the hash map gives its entries then. -/
structure Call where
  op : Op
  order : IterationOrder

def perform (P : Parsers V) (c : Call) (w : PackageWrapper) : Except Failure PackageWrapper :=
  match c.op with
  | .add packageInfo => init P c.order (w.addPackage packageInfo)
  | .remove version timestamp =>
    match w.removePackageVersion version timestamp with
    | .error e => .error e
    | .ok w => if w.versions.values.isEmpty then .ok w else init P c.order w

/-- An exception leaves the wrapper as it is. -/
def next (P : Parsers V) (w : PackageWrapper) (c : Call) : PackageWrapper :=
  match perform P c w with
  | .ok w' => w'
  | .error _ => w

def Step (P : Parsers V) (w : PackageWrapper) (c : Call) (w' : PackageWrapper) : Prop :=
  w' = next P w c

theorem step_next (P : Parsers V) (w : PackageWrapper) (c : Call) :
    ∃ w', Step P w c w' := ⟨next P w c, rfl⟩

theorem run_foldl (P : Parsers V) (w : PackageWrapper) (calls : List Call) :
    Run (Step P) w calls (calls.foldl (next P) w) := by
  induction calls using List.reverseRecOn with
  | nil => exact .nil
  | append_singleton calls c ih =>
    rw [List.foldl_append]
    exact .snoc ih rfl

theorem run_eq_foldl {P : Parsers V} {w w' : PackageWrapper} {calls : List Call} (h : Run (Step P) w calls w') :
    w' = calls.foldl (next P) w := by
  induction h with
  | nil => rfl
  | snoc _ hstep ih =>
    rw [List.foldl_append, ← ih]
    exact hstep

/-! ## What is to hold -/

section Kinds

def Releases (m : Versions) (p : PackageInfo) : Prop :=
  p ∈ m.values ∧ isSnapshot p.version = false

def Snapshots (m : Versions) (p : PackageInfo) : Prop :=
  p ∈ m.values ∧ isSnapshot p.version = true

def SnapshotsOf (m : Versions) (version : String) (p : PackageInfo) : Prop :=
  p ∈ m.values ∧ isSnapshot p.version = true ∧ p.version = version

end Kinds

/-- The newest package of a kind, or `null` if there is none. -/
def IsLatest (P : Parsers V) (K : PackageInfo → Prop) : Option PackageInfo → Prop
  | none => ∀ p, ¬ K p
  | some p => Newest P K p

structure LatestRight (P : Parsers V) (w : PackageWrapper) : Prop where
  release : IsLatest P (Releases w.versions) w.latestRelease
  snapshot : IsLatest P (Snapshots w.versions) w.latestSnapshot
  snapshotForVersion : ∀ version, IsLatest P (SnapshotsOf w.versions version) (w.getSnapshot version)
  publishedRelease : w.publishedPackage.latestRelease = w.latestRelease.map (·.version)
  publishedSnapshot : w.publishedPackage.latestSnapshot = w.latestSnapshot.map (·.version)

/-- If there are packages of this kind, then one of them is the newest. -/
def HasNewest (P : Parsers V) (K : PackageInfo → Prop) : Prop :=
  (∃ p, K p) → ∃ p, Newest P K p

/-- The package that `removePackageVersion` removes. -/
def removed (w : PackageWrapper) (version timestamp : Option String) : Option PackageInfo :=
  version.bind fun version => w.getVersion version timestamp

/-- A call that keeps what is derived right. -/
def Keeps (P : Parsers V) (w : PackageWrapper) : Op → Prop
  | .add p =>
    HasNewest P (Releases (w.versions.put p)) ∧ HasNewest P (Snapshots (w.versions.put p)) ∧
      ∀ old, w.versions.get p.key = some old → w.getSnapshot old.version = some old →
        old = p ∨ p.version = old.version ∧ newer P p old = true
  | .remove version timestamp =>
    ∀ old, removed w version timestamp = some old →
      HasNewest P (Releases (w.versions.erase old.key)) ∧
        HasNewest P (Snapshots (w.versions.erase old.key)) ∧
        (isSnapshot old.version = false → ∃ p, Releases (w.versions.erase old.key) p) ∧
        (isSnapshot old.version = true → w.getSnapshot old.version ≠ some old)

variable [Std.TransOrd V] {P : Parsers V} {w w' : PackageWrapper} {o : IterationOrder}
  {K : PackageInfo → Prop} {p q : PackageInfo}

/-! ## What the loop finds -/

theorem isLatest_champion {entries : List PackageInfo} (hentries : ∀ p, p ∈ entries ↔ K p) :
    IsLatest P K (champion (newer P) none entries) ↔ HasNewest P K := by
  constructor
  · intro h hsome
    cases hc : champion (newer P) none entries with
    | none =>
      rw [hc] at h
      obtain ⟨p, hp⟩ := hsome
      exact absurd hp (h p)
    | some p =>
      rw [hc] at h
      exact ⟨p, h⟩
  · intro h
    by_cases hsome : ∃ p, K p
    · obtain ⟨p, hp⟩ := h hsome
      obtain ⟨q, hq, hnewest⟩ := champion_newest hentries hp
      rw [hq]
      exact hnewest
    · have hnone : champion (newer P) none entries = none := by
        rw [champion_eq_none, List.eq_nil_iff_forall_not_mem]
        exact fun p hp => hsome ⟨p, (hentries p).mp hp⟩
      rw [hnone]
      exact fun p hp => hsome ⟨p, hp⟩

section OneVersion

variable {version : String} {entries : List PackageInfo}

/-- Packages of one version are in the order of their dates. -/
theorem trans_of_version (hK : ∀ p, K p → p.version = version) :
    ∀ p, K p → ∀ q, K q → ∀ r, K r → (versionComparator P p q).isLE →
      (versionComparator P q r).isLE → (versionComparator P p r).isLE := by
  intro p hp q hq r hr hpq hqr
  have hp := hK p hp
  have hq := hK q hq
  have hr := hK r hr
  rw [versionComparator_of_version_eq (hp.trans hq.symm)] at hpq
  rw [versionComparator_of_version_eq (hq.trans hr.symm)] at hqr
  rw [versionComparator_of_version_eq (hp.trans hr.symm)]
  exact Std.TransOrd.isLE_trans hqr hpq

theorem hasNewest_of_version (hentries : ∀ p, p ∈ entries ↔ K p)
    (hK : ∀ p, K p → p.version = version) : HasNewest P K := by
  rintro ⟨p, hp⟩
  have hne : entries ≠ [] := List.ne_nil_of_mem ((hentries p).mpr hp)
  obtain ⟨b, hb, hbest⟩ := exists_newest hne fun x hx y hy z hz =>
    trans_of_version (P := P) hK x ((hentries x).mp hx) y ((hentries y).mp hy) z
      ((hentries z).mp hz)
  exact ⟨b, (hentries b).mp hb, fun q hq => newer_eq_false.mpr (hbest q ((hentries q).mpr hq))⟩

/-- If the loop meets a newer snapshot than the recorded one, it comes to the newest. -/
theorem isLatest_champion_of_newer (hentries : ∀ p, p ∈ entries ↔ K p)
    (hK : ∀ p, K p → p.version = version) {c : PackageInfo} (hc : c.version = version)
    (hq : K q) (hqc : newer P q c = true) : IsLatest P K (champion (newer P) (some c) entries) := by
  have hnewest : HasNewest P K := hasNewest_of_version hentries hK
  obtain ⟨best, hbest, hund⟩ := hnewest ⟨q, hq⟩
  have hS : ∀ p, K p ∨ p = c → p.version = version := by
    rintro p (hp | rfl)
    · exact hK p hp
    · exact hc
  have hundS : Undominated (newer P) (fun p => K p ∨ p = c) best := by
    rintro p (hp | rfl)
    · exact hund p hp
    · have hbq : (versionComparator P best q).isLE := newer_eq_false.mp (hund q hq)
      have hqp : (versionComparator P q p).isLE := by rw [isNewer_iff.mp hqc]; rfl
      exact newer_eq_false.mpr
        (trans_of_version hS best (.inl hbest) q (.inl hq) p (.inr rfl) hbq hqp)
  have hentriesS : ∀ p ∈ entries, K p ∨ p = c := fun p hp => .inl ((hentries p).mp hp)
  have hcS : ∀ p, some c = some p → K p ∨ p = c := fun p hp => .inr (Option.some.inj hp).symm
  obtain ⟨d, hd, hdS⟩ := champion_undominated hundS (fun p => undominated_or_older hundS)
    hentriesS hcS ((hentries best).mpr hbest)
  rw [hd]
  have hdK : K d := by
    rcases champion_mem hd with hmem | hdc
    · exact (hentries d).mp hmem
    · obtain rfl := Option.some.inj hdc
      rw [hdS q (.inl hq)] at hqc
      cases hqc
  exact ⟨hdK, fun p hp => hdS p (.inl hp)⟩

/-- The loop replaces the recorded snapshot of a version only by a newer one. -/
theorem isLatest_champion_recorded (hentries : ∀ p, p ∈ entries ↔ K p)
    (hK : ∀ p, K p → p.version = version) {current : Option PackageInfo}
    (hcurrent : ∀ p, current = some p → p.version = version) :
    IsLatest P K (champion (newer P) current entries) ↔
      ∀ p, current = some p → K p ∨ ∃ q, K q ∧ newer P q p = true := by
  cases current with
  | none =>
    rw [isLatest_champion hentries]
    exact ⟨fun _ => nofun, fun _ => hasNewest_of_version hentries hK⟩
  | some c =>
    by_cases hnewer : ∃ q, K q ∧ newer P q c = true
    · obtain ⟨q, hq, hqc⟩ := id hnewer
      exact ⟨fun _ p hp => .inr (Option.some.inj hp ▸ hnewer),
        fun _ => isLatest_champion_of_newer hentries hK (hcurrent c rfl) hq hqc⟩
    · have hund : Undominated (newer P) K c := by
        intro q hq
        cases hqc : newer P q c with
        | true => exact absurd ⟨q, hq, hqc⟩ hnewer
        | false => rfl
      rw [champion_of_undominated fun p hp => hund p ((hentries p).mp hp)]
      constructor
      · rintro ⟨hc, -⟩ p hp
        exact .inl (Option.some.inj hp ▸ hc)
      · intro h
        exact ⟨(h c rfl).resolve_right hnewer, hund⟩

end OneVersion

/-! ## What `init` leaves behind -/

/-- What `init` needs so that all it derives is right afterwards. -/
structure Refreshable (P : Parsers V) (w : PackageWrapper) : Prop where
  release : HasNewest P (Releases w.versions)
  snapshot : HasNewest P (Snapshots w.versions)
  recorded : ∀ version p, w.getSnapshot version = some p →
    SnapshotsOf w.versions version p ∨ ∃ q, SnapshotsOf w.versions version q ∧ newer P q p = true
  publishedRelease : (∀ p, ¬ Releases w.versions p) → w.publishedPackage.latestRelease = none
  publishedSnapshot : (∀ p, ¬ Snapshots w.versions p) → w.publishedPackage.latestSnapshot = none

omit [Std.TransOrd V] in
/-- What is published is right if nothing was published for a kind that has no package now. -/
theorem published_eq_iff {latest : Option PackageInfo} (hlatest : IsLatest P K latest)
    {old : Option String} :
    (latest.map (·.version)).or old = latest.map (·.version) ↔ ((∀ p, ¬ K p) → old = none) := by
  cases latest with
  | none => exact ⟨fun h _ => h, fun h => h hlatest⟩
  | some p => exact ⟨fun _ hnone => absurd hlatest.1 (hnone p), fun _ => rfl⟩

theorem latestRight_init (h : init P o w = .ok w') : LatestRight P w' ↔ Refreshable P w := by
  obtain ⟨hversions, hrelease, hsnapshot, hrecorded, hpubRelease, hpubSnapshot⟩ := init_spec h
  have hmem : ∀ p, p ∈ o.entries w.versions ↔ p ∈ w.versions.values :=
    fun p => (o.perm w.versions).mem_iff
  have hreleaseIff : IsLatest P (Releases w'.versions) w'.latestRelease ↔
      HasNewest P (Releases w.versions) := by
    rw [hrelease, hversions]
    exact isLatest_champion fun p => by simp [Releases, hmem]
  have hsnapshotIff : IsLatest P (Snapshots w'.versions) w'.latestSnapshot ↔
      HasNewest P (Snapshots w.versions) := by
    rw [hsnapshot, hversions]
    exact isLatest_champion fun p => by simp [Snapshots, hmem]
  have hrecordedIff : ∀ version, IsLatest P (SnapshotsOf w'.versions version)
      (w'.getSnapshot version) ↔ ∀ p, w.getSnapshot version = some p →
        SnapshotsOf w.versions version p ∨
          ∃ q, SnapshotsOf w.versions version q ∧ newer P q p = true := by
    intro version
    have hcurrent : ∀ p, w.getSnapshot version = some p → p.version = version :=
      fun p hp => (Keyed.get_eq_some.mp hp).2
    rw [hrecorded, hversions]
    exact isLatest_champion_recorded (fun p => by simp [SnapshotsOf, hmem])
      (fun p hp => hp.2.2) hcurrent
  constructor
  · intro h
    have hpub := (published_eq_iff h.release).mp (hpubRelease ▸ h.publishedRelease)
    have hpub' := (published_eq_iff h.snapshot).mp (hpubSnapshot ▸ h.publishedSnapshot)
    rw [hversions] at hpub hpub'
    exact ⟨hreleaseIff.mp h.release, hsnapshotIff.mp h.snapshot,
      fun version => (hrecordedIff version).mp (h.snapshotForVersion version), hpub, hpub'⟩
  · intro h
    have hlatest := hreleaseIff.mpr h.release
    have hlatest' := hsnapshotIff.mpr h.snapshot
    refine ⟨hlatest, hlatest', fun version => (hrecordedIff version).mpr (h.recorded version),
      ?_, ?_⟩
    · rw [hpubRelease, published_eq_iff hlatest, hversions]
      exact h.publishedRelease
    · rw [hpubSnapshot, published_eq_iff hlatest', hversions]
      exact h.publishedSnapshot

/-! ## One call -/

omit [Std.TransOrd V] in
theorem IsLatest.of_mem {latest : Option PackageInfo} (h : IsLatest P K latest) (hp : K p) :
    ∃ q, latest = some q ∧ Newest P K q := by
  cases latest with
  | none => exact absurd hp (h p)
  | some q => exact ⟨q, rfl, h⟩

omit [Std.TransOrd V] in
theorem IsLatest.none_of_empty {latest : Option PackageInfo} (h : IsLatest P K latest)
    (hempty : ∀ p, ¬ K p) : latest = none := by
  cases latest with
  | none => rfl
  | some q => exact absurd h.1 (hempty q)

omit [Std.TransOrd V] in
theorem LatestRight.recorded (h : LatestRight P w) {version : String}
    (hp : w.getSnapshot version = some p) : Newest P (SnapshotsOf w.versions version) p := by
  have hlatest := h.snapshotForVersion version
  rw [hp] at hlatest
  exact hlatest

omit [Std.TransOrd V] in
theorem refreshable_add (h : LatestRight P w) :
    Refreshable P (w.addPackage p) ↔ Keeps P w (.add p) := by
  constructor
  · intro hr
    refine ⟨hr.release, hr.snapshot, fun old hold hrec => ?_⟩
    rcases hr.recorded old.version old hrec with ⟨hmem, -, -⟩ | ⟨q, ⟨hmem, hkind, hversion⟩, hq⟩
    · rcases Keyed.mem_put.mp hmem with heq | ⟨-, hkey⟩
      · exact .inl heq
      · exact absurd (Keyed.get_eq_some.mp hold).2 hkey
    · rcases Keyed.mem_put.mp hmem with rfl | ⟨hmem, -⟩
      · exact .inr ⟨hversion, hq⟩
      · have hund := (h.recorded hrec).2 q ⟨hmem, hkind, hversion⟩
        rw [hq] at hund
        cases hund
  · rintro ⟨hrelease, hsnapshot, hreplaced⟩
    have hkept : ∀ q ∈ w.versions.values, ∃ r ∈ (w.versions.put p).values,
        isSnapshot r.version = isSnapshot q.version := by
      intro q hq
      by_cases hkey : q.key = p.key
      · refine ⟨p, Keyed.mem_put.mpr (.inl rfl), ?_⟩
        rw [← PackageInfo.isSnapshot_key, ← hkey, PackageInfo.isSnapshot_key]
      · exact ⟨q, Keyed.mem_put.mpr (.inr ⟨hq, hkey⟩), rfl⟩
    refine ⟨hrelease, hsnapshot, fun version q hq => ?_, fun hnone => ?_, fun hnone => ?_⟩
    · obtain ⟨⟨hmem, hkind, rfl⟩, -⟩ := h.recorded hq
      by_cases hkey : q.key = p.key
      · have hget : w.versions.get p.key = some q := Keyed.get_eq_some.mpr ⟨hmem, hkey⟩
        rcases hreplaced q hget hq with rfl | ⟨hversion, hnewer⟩
        · exact .inl ⟨Keyed.mem_put.mpr (.inl rfl), hkind, rfl⟩
        · exact .inr ⟨p, ⟨Keyed.mem_put.mpr (.inl rfl), hversion ▸ hkind, hversion⟩, hnewer⟩
      · exact .inl ⟨Keyed.mem_put.mpr (.inr ⟨hmem, hkey⟩), hkind, rfl⟩
    · have hempty : ∀ q, ¬ Releases w.versions q := by
        rintro q ⟨hq, hkind⟩
        obtain ⟨r, hr, hrq⟩ := hkept q hq
        exact hnone r ⟨hr, hrq.trans hkind⟩
      have hpub := h.publishedRelease
      rw [h.release.none_of_empty hempty] at hpub
      exact hpub
    · have hempty : ∀ q, ¬ Snapshots w.versions q := by
        rintro q ⟨hq, hkind⟩
        obtain ⟨r, hr, hrq⟩ := hkept q hq
        exact hnone r ⟨hr, hrq.trans hkind⟩
      have hpub := h.publishedSnapshot
      rw [h.snapshot.none_of_empty hempty] at hpub
      exact hpub

section Remove

variable {old : PackageInfo} (hold : old ∈ w.versions.values)
include hold

omit [Ord V] [Std.TransOrd V] in
theorem mem_erase_of_ne (hp : p ∈ w.versions.values) (hne : p ≠ old) :
    p ∈ (w.versions.erase old.key).values :=
  Keyed.mem_erase.mpr ⟨hp, fun hkey => hne (Keyed.eq_of_key_eq hp hold hkey)⟩

omit [Std.TransOrd V] in
theorem refreshable_erase (h : LatestRight P w) :
    Refreshable P { w with versions := w.versions.erase old.key } ↔
      HasNewest P (Releases (w.versions.erase old.key)) ∧
        HasNewest P (Snapshots (w.versions.erase old.key)) ∧
        (isSnapshot old.version = false → ∃ p, Releases (w.versions.erase old.key) p) ∧
        (isSnapshot old.version = true → w.getSnapshot old.version ≠ some old) := by
  constructor
  · intro hr
    refine ⟨hr.release, hr.snapshot, fun hkind => ?_, fun _ hrec => ?_⟩
    · by_contra hnone
      have hpub : w.publishedPackage.latestRelease = none :=
        hr.publishedRelease fun p hp => hnone ⟨p, hp⟩
      obtain ⟨q, hq, -⟩ := h.release.of_mem ⟨hold, hkind⟩
      rw [h.publishedRelease, hq] at hpub
      cases hpub
    · rcases hr.recorded old.version old hrec with ⟨hmem, -⟩ | ⟨q, ⟨hmem, hq⟩, hnewer⟩
      · exact (Keyed.mem_erase.mp hmem).2 rfl
      · have hund := (h.recorded hrec).2 q ⟨(Keyed.mem_erase.mp hmem).1, hq⟩
        rw [hnewer] at hund
        cases hund
  · rintro ⟨hrelease, hsnapshot, hlast, hrecorded⟩
    refine ⟨hrelease, hsnapshot, fun version q hq => ?_, fun hnone => ?_, fun hnone => ?_⟩
    · obtain ⟨⟨hmem, hkind, rfl⟩, -⟩ := h.recorded hq
      have hne : q ≠ old := by
        rintro rfl
        exact hrecorded hkind hq
      exact .inl ⟨mem_erase_of_ne hold hmem hne, hkind, rfl⟩
    · have hempty : ∀ q, ¬ Releases w.versions q := by
        rintro q ⟨hq, hkind⟩
        by_cases heq : q = old
        · obtain ⟨r, hr⟩ := hlast (heq ▸ hkind)
          exact hnone r hr
        · exact hnone q ⟨mem_erase_of_ne hold hq heq, hkind⟩
      have hpub := h.publishedRelease
      rw [h.release.none_of_empty hempty] at hpub
      exact hpub
    · have hempty : ∀ q, ¬ Snapshots w.versions q := by
        rintro q ⟨hq, hkind⟩
        obtain ⟨r, hr, ⟨hmem, hkindr, -⟩, -⟩ :=
          (h.snapshotForVersion q.version).of_mem ⟨hq, hkind, rfl⟩
        by_cases heq : r = old
        · by_cases hqold : q = old
          · exact hrecorded (hqold ▸ hkind) (by rw [← hqold, hr, heq, hqold])
          · exact hnone q ⟨mem_erase_of_ne hold hq hqold, hkind⟩
        · exact hnone r ⟨mem_erase_of_ne hold hmem heq, hkindr⟩
      have hpub := h.publishedSnapshot
      rw [h.snapshot.none_of_empty hempty] at hpub
      exact hpub

/-! Without `init` the last package stays the latest after it is removed. -/

variable (hempty : (w.versions.erase old.key).values = [])
include hempty

omit [Std.TransOrd V] in
theorem not_latestRight_emptied (h : LatestRight P w) :
    ¬ LatestRight P { w with versions := w.versions.erase old.key } := by
  intro hr
  cases hkind : isSnapshot old.version with
  | false =>
    obtain ⟨q, hq, -⟩ := h.release.of_mem ⟨hold, hkind⟩
    have hlatest : IsLatest P (Releases (w.versions.erase old.key)) w.latestRelease := hr.release
    rw [hq] at hlatest
    exact List.ne_nil_of_mem hlatest.1.1 hempty
  | true =>
    obtain ⟨q, hq, -⟩ := h.snapshot.of_mem ⟨hold, hkind⟩
    have hlatest : IsLatest P (Snapshots (w.versions.erase old.key)) w.latestSnapshot :=
      hr.snapshot
    rw [hq] at hlatest
    exact List.ne_nil_of_mem hlatest.1.1 hempty

omit [Std.TransOrd V] in
theorem not_refreshable_emptied (h : LatestRight P w) :
    ¬ Refreshable P { w with versions := w.versions.erase old.key } := by
  rw [refreshable_erase hold h]
  rintro ⟨-, -, hlast, hrecorded⟩
  cases hkind : isSnapshot old.version with
  | false =>
    obtain ⟨p, hp, -⟩ := hlast hkind
    exact List.ne_nil_of_mem hp hempty
  | true =>
    obtain ⟨q, hq, ⟨hmem, -⟩, -⟩ :=
      (h.snapshotForVersion old.version).of_mem ⟨hold, hkind, rfl⟩
    by_cases heq : q = old
    · exact hrecorded hkind (heq ▸ hq)
    · exact List.ne_nil_of_mem (mem_erase_of_ne hold hmem heq) hempty

end Remove

section Removed

variable {version timestamp : Option String} {old : PackageInfo}

omit [Ord V] [Std.TransOrd V] in
theorem removePackageVersion_of_some (h : removed w version timestamp = some old) :
    old ∈ w.versions.values ∧ w.removePackageVersion version timestamp =
      .ok { w with versions := w.versions.erase old.key } := by
  obtain ⟨version, rfl, hget⟩ := Option.bind_eq_some_iff.mp h
  obtain ⟨hmem, hkey⟩ := Keyed.get_eq_some.mp hget
  refine ⟨hmem, ?_⟩
  have hsome : (w.versions.get (versionKey version timestamp)).isSome := by
    rw [← hkey, Keyed.get_key hmem]
    rfl
  simp only [removePackageVersion, getVersionKey, if_pos hsome, hkey]

omit [Ord V] [Std.TransOrd V] in
theorem removePackageVersion_of_none (h : removed w version timestamp = none) :
    ∃ e, w.removePackageVersion version timestamp = .error e := by
  cases version with
  | none =>
    cases hblank : Java.isBlank timestamp with
    | true => exact ⟨_, by simp only [removePackageVersion, getVersionKey, hblank, if_true]; rfl⟩
    | false =>
      refine ⟨.nullPointerException, ?_⟩
      simp only [removePackageVersion, getVersionKey, hblank, Bool.false_eq_true, if_false]
  | some version =>
    have hget : w.versions.get (versionKey version timestamp) = none := h
    simp only [removePackageVersion, getVersionKey, hget, Option.isSome_none, Bool.false_eq_true, if_false]
    exact ⟨_, rfl⟩

end Removed

/-- A call to a wrapper that is right leaves it right if and only if it is one that keeps it so. -/
theorem step_iff {c : Call} (h : LatestRight P w) (hstep : Step P w c w') :
    LatestRight P w' ↔ Keeps P w c.op := by
  unfold Step next perform at hstep
  cases hop : c.op with
  | add p =>
    have hne : (w.addPackage p).versions.values ≠ [] :=
      List.ne_nil_of_mem (Keyed.mem_put.mpr (.inl rfl))
    obtain ⟨u, hu⟩ := init_ok hne (P := P) (o := c.order)
    simp only [hop, hu] at hstep
    subst hstep
    rw [latestRight_init hu, refreshable_add h]
  | remove version timestamp =>
    cases hremoved : removed w version timestamp with
    | none =>
      obtain ⟨e, he⟩ := removePackageVersion_of_none hremoved
      simp only [hop, he] at hstep
      subst hstep
      simp only [Keeps, hremoved]
      exact ⟨fun _ => nofun, fun _ => h⟩
    | some old =>
      obtain ⟨hold, hremove⟩ := removePackageVersion_of_some hremoved
      have hkeeps : Keeps P w (.remove version timestamp) ↔
          Refreshable P { w with versions := w.versions.erase old.key } := by
        rw [refreshable_erase hold h]
        simp only [Keeps, hremoved, Option.some.injEq, forall_eq']
      rw [hkeeps]
      simp only [hop, hremove] at hstep
      by_cases hempty : (w.versions.erase old.key).values = []
      · simp only [hempty, List.isEmpty_nil, if_true] at hstep
        subst hstep
        exact ⟨fun hr => absurd hr (not_latestRight_emptied hold hempty h),
          fun hr => absurd hr (not_refreshable_emptied hold hempty h)⟩
      · obtain ⟨u, hu⟩ := init_ok (w := { w with versions := w.versions.erase old.key }) hempty
          (P := P) (o := c.order)
        have hfalse : (w.versions.erase old.key).values.isEmpty = false := by simpa using hempty
        simp only [hfalse, Bool.false_eq_true, if_false, hu] at hstep
        subst hstep
        exact latestRight_init hu

omit [Std.TransOrd V] in
theorem latestRight_create (type : Option PackageType) : LatestRight P (create type) where
  release := fun _ hp => Keyed.not_mem_empty hp.1
  snapshot := fun _ hp => Keyed.not_mem_empty hp.1
  snapshotForVersion := fun _ _ hp => Keyed.not_mem_empty hp.1
  publishedRelease := rfl
  publishedSnapshot := rfl

theorem latestRight_iff (P : Parsers V) (type : Option PackageType) (calls : List Call) :
    (∀ pre post w, calls = pre ++ post → Run (Step P) (create type) pre w → LatestRight P w) ↔
      ∀ pre c post w, calls = pre ++ c :: post → Run (Step P) (create type) pre w →
        Keeps P w c.op :=
  Run.inv_iff (latestRight_create type) (step_next P)
    (fun _ c _ (h : LatestRight P _) hstep => step_iff (c := c) h hstep) calls

theorem hasNewest_of_versions {m : Versions} {version : String} (hm : ∀ p ∈ m.values, p.version = version) :
    HasNewest P (Releases m) ∧ HasNewest P (Snapshots m) := by
  have hreleases : ∀ p, p ∈ m.values.filter (fun p => !isSnapshot p.version) ↔ Releases m p := by
    simp [Releases]
  have hsnapshots : ∀ p, p ∈ m.values.filter (fun p => isSnapshot p.version) ↔ Snapshots m p := by
    simp [Snapshots]
  exact ⟨hasNewest_of_version hreleases fun p hp => hm p hp.1,
    hasNewest_of_version hsnapshots fun p hp => hm p hp.1⟩

section Example

/-- Versions that are not semantic versions, and dates of 2024. -/
def snapshotParsers : Parsers Int where
  parseVersion _ := none
  parseDate timestamp :=
    if timestamp = "20240101-0000" then some 1704067200
    else if timestamp = "20240102-0000" then some 1704153600
    else none

def snapshot (timestamp : String) : PackageInfo := ⟨"demo", "Demo", "", "1.0-SNAPSHOT", timestamp⟩

def call (op : Op) : Call := ⟨op, .asListed⟩

def addOlder : Call := call (.add (snapshot "20240101-0000"))

def addNewer : Call := call (.add (snapshot "20240102-0000"))

/-- The older one of two snapshots is removed again. -/
def snapshotCalls : List Call :=
  [addOlder, addNewer, call (.remove (some "1.0-SNAPSHOT") (some "20240101-0000"))]

theorem snapshotCalls_keep : ∀ pre c post, snapshotCalls = pre ++ c :: post →
    Keeps snapshotParsers (pre.foldl (next snapshotParsers) (create none)) c.op := by
  have hnewest : ∀ {m : Versions}, (∀ p ∈ m.values, p.version = "1.0-SNAPSHOT") →
      HasNewest snapshotParsers (Releases m) ∧ HasNewest snapshotParsers (Snapshots m) := hasNewest_of_versions
  simp only [snapshotCalls, Loop.forall_split_cons]
  refine ⟨?_, ?_, ?_, by simp⟩
  · obtain ⟨hrelease, hsnapshot⟩ := hnewest (m := (create none).versions.put (snapshot "20240101-0000")) (by decide)
    exact ⟨hrelease, hsnapshot, by decide⟩
  · obtain ⟨hrelease, hsnapshot⟩ := hnewest (m := ([addOlder].foldl (next snapshotParsers)
      (create none)).versions.put (snapshot "20240102-0000")) (by decide +kernel)
    refine ⟨hrelease, hsnapshot, fun old hold => ?_⟩
    have hnone : ([addOlder].foldl (next snapshotParsers) (create none)).versions.get
        (snapshot "20240102-0000").key = none := by decide +kernel
    cases hnone.symm.trans hold
  · intro old hold
    have hfirst : removed ([addOlder, addNewer].foldl (next snapshotParsers) (create none)) (some "1.0-SNAPSHOT")
        (some "20240101-0000") = some (snapshot "20240101-0000") := by decide +kernel
    obtain rfl := Option.some.inj (hfirst.symm.trans hold)
    obtain ⟨hrelease, hsnapshot⟩ := hnewest (m := ([addOlder, addNewer].foldl (next snapshotParsers)
      (create none)).versions.erase (snapshot "20240101-0000").key) (by decide +kernel)
    exact ⟨hrelease, hsnapshot, fun hnot => absurd hnot (by decide +kernel), fun _ => by decide +kernel⟩

theorem latestRight_calls : let w := snapshotCalls.foldl (next snapshotParsers) (create none)
    LatestRight snapshotParsers w ∧ w.versions.values = [snapshot "20240102-0000"] ∧
      w.latestSnapshot = some (snapshot "20240102-0000") := by
  refine ⟨?_, by decide +kernel, by decide +kernel⟩
  refine (latestRight_iff snapshotParsers none snapshotCalls).mpr (fun pre c post w hcalls hrun => ?_)
    snapshotCalls [] _ (List.append_nil _).symm (run_foldl snapshotParsers (create none) snapshotCalls)
  rw [run_eq_foldl hrun]
  exact snapshotCalls_keep pre c post hcalls

def afterRemoval : PackageWrapper :=
  [addOlder, addNewer, call (.remove (some "1.0-SNAPSHOT") (some "20240102-0000"))].foldl (next snapshotParsers)
    (create none)

/-- The latest snapshot is removed: it stays the latest snapshot of its version. -/
theorem not_latestRight_removed : ¬ ∀ w, Run (Step snapshotParsers) (create none)
    [addOlder, addNewer, call (.remove (some "1.0-SNAPSHOT") (some "20240102-0000"))] w →
    LatestRight snapshotParsers w := by
  intro h
  have hget : afterRemoval.getSnapshot "1.0-SNAPSHOT" = some (snapshot "20240102-0000") := by
    decide +kernel
  have hmem : snapshot "20240102-0000" ∉ afterRemoval.versions.values := by decide +kernel
  have hright : LatestRight snapshotParsers afterRemoval :=
    h afterRemoval (run_foldl snapshotParsers (create none) _)
  exact hmem (hright.recorded hget).1.1

end Example

end Repository
end AppNG
