import AppNG.Repository.CacheFilesystem

/-!
# Repository.Deletion

Whether `deletePackageVersion` deletes all of a version or nothing.

`deletePackageVersion_atomic_iff`: it does so if and only if it fails before it deletes, with a
`BusinessException`, or the request has the key of the package that it resolves to, the wrapper holds
a version under this key, and the file is not one of `activeFileMap`. The file is gone before the
version is removed by the key of the request, and nothing is ever removed from `activeFileMap`.
-/

namespace AppNG
namespace Repository
namespace Cache

variable {V : Type} [Ord V] {B : Type}

/-! ## What is to hold -/

/-- The file is deleted, and the version of the package with it, from everything. -/
structure Deleted (directory : Directory B) (s : Cache) (packageName : String) (p : PackageInfo)
    (file : String) (directory' : Directory B) (s' : Cache) : Prop where
  directory_eq : directory' = directory.erase file
  was_held : ∃ q, s.Held packageName q ∧ q.key = p.key
  held_iff : ∀ name q, s'.Held name q ↔ s.Held name q ∧ ¬ (name = packageName ∧ q.key = p.key)
  active : ∀ f, s'.activeFileMap.get f = if f = file then none else s.activeFileMap.get f

/-- Nothing is changed and a `BusinessException` is thrown, or exactly the version that the request
resolves to is deleted. -/
def Atomic (repository : RepositoryImpl) (directory : Directory B) (s : Cache)
    (packageName : String) (packageVersion packageTimestamp : Option String) :
    (Directory B × Cache) × Option Failure → Prop
  | ((directory', s'), result) =>
    ((∃ message, result = some (.businessException message)) ∧ directory' = directory ∧
      ∀ name q, s'.Held name q ↔ s.Held name q) ∨
    (result = none ∧ ∃ p file,
      findPackage s packageName packageVersion packageTimestamp = .ok (some p) ∧
        getFile repository directory p = .ok file ∧
        Deleted directory s packageName p file directory' s')

/-- A version that is asked for as a release. -/
def AsksForRelease (packageVersion : Option String) : Prop :=
  ∃ version, packageVersion = some version ∧ Java.isBlank packageVersion = false ∧
    isSnapshot version = false

/-- The requests that are carried out as a whole or not at all. -/
def DeletesAtomically (repository : RepositoryImpl) (directory : Directory B) (deletes : Bool)
    (s : Cache) (packageName : String) (packageVersion packageTimestamp : Option String) : Prop :=
  match findPackage s packageName packageVersion packageTimestamp with
  | .error _ => AsksForRelease packageVersion
  | .ok none => True
  | .ok (some p) =>
    ∀ file, getFile repository directory p = .ok file → deletes = true →
      getVersionKey packageVersion packageTimestamp = .ok (some p.key) ∧
        (∃ q, s.Held packageName q ∧ q.key = p.key) ∧ s.activeFileMap.get file = none

variable {P : Parsers V} {o : IterationOrder} {s : Cache} {repository : RepositoryImpl}
  {directory : Directory B} {packageName : String} {packageVersion packageTimestamp : Option String}
  {p : PackageInfo} {file : String} {w w' : PackageWrapper}

/-! ## Removing from the cache -/

theorem removePackageVersion_ok {version timestamp : Option String}
    (h : w.removePackageVersion version timestamp = .ok w') :
    ∃ key, getVersionKey version timestamp = .ok (some key) ∧ (w.versions.get key).isSome ∧
      w' = { w with versions := w.versions.erase key } := by
  unfold PackageWrapper.removePackageVersion at h
  split at h
  · cases h
  · cases h
  · rename_i key hkey
    split at h
    · rename_i hsome
      exact ⟨key, hkey, hsome, (Except.ok.inj h).symm⟩
    · cases h

/-- A version that the wrapper lets go of is removed from the cache, and nothing else is. -/
theorem removePackage_ok (hw : s.applicationWrapperMap packageName = some w)
    (hremove : w.removePackageVersion packageVersion packageTimestamp = .ok w') (init : Bool) :
    ∃ s', removePackage P o s packageName packageVersion packageTimestamp init = (s', none) ∧
      s'.activeFileMap = s.activeFileMap ∧ ∀ name q, s'.Held name q ↔
        name = packageName ∧ q ∈ w'.versions.values ∨ name ≠ packageName ∧ s.Held name q := by
  unfold removePackage
  simp only [hw, hremove]
  by_cases hempty : w'.versions.values = []
  · simp only [hempty, List.isEmpty_nil, if_true]
    refine ⟨_, rfl, rfl, fun name q => ?_⟩
    rw [held_setWrapper]
    simp
  · have hfalse : w'.versions.values.isEmpty = false := by simpa using hempty
    simp only [hfalse, Bool.false_eq_true, if_false]
    cases init with
    | false =>
      refine ⟨_, rfl, rfl, fun name q => ?_⟩
      rw [held_setWrapper]
      simp
    | true =>
      obtain ⟨u, hu⟩ := PackageWrapper.init_ok hempty (P := P) (o := o)
      have hversions : u.versions = w'.versions := (PackageWrapper.init_spec hu).1
      simp only [initializeWrapper, setWrapper_map, Function.update_self, hu, if_true]
      refine ⟨_, rfl, rfl, fun name q => ?_⟩
      rw [held_setWrapper, held_setWrapper]
      simp only [Option.some.injEq, exists_eq_left', hversions]
      tauto

/-! ## Finding the file -/

section Find

theorem findPackage_of_none (hw : s.applicationWrapperMap packageName = none)
    (packageVersion packageTimestamp : Option String) :
    ∃ e, findPackage s packageName packageVersion packageTimestamp = .error e ∧
      (∀ message, e ≠ .fileNotFoundException message) ∧
      ((∃ message, e = .businessException message) ↔ AsksForRelease packageVersion) := by
  have hpublished : s.getPublishedApplication packageName =
      .error (.illegalArgumentException ("application not found: " ++ packageName)) := by
    simp only [getPublishedApplication, hw]
  cases packageVersion with
  | none => exact ⟨_, by simp only [findPackage, hpublished]; rfl, by simp, by simp [AsksForRelease]⟩
  | some version =>
    simp only [findPackage, hpublished]
    split
    · rename_i hblank
      exact ⟨_, rfl, by simp, by simp [AsksForRelease, hblank]⟩
    · rename_i hblank
      split
      · rename_i hsnapshot
        split
        · exact ⟨_, rfl, by simp, by simp [AsksForRelease, hsnapshot]⟩
        · exact ⟨_, rfl, by simp, by simp [AsksForRelease, hsnapshot]⟩
      · rename_i hsnapshot
        have hasks : AsksForRelease (some version) :=
          ⟨version, rfl, by simpa using hblank, by simpa using hsnapshot⟩
        exact ⟨_, by simp only [getRelease, hw]; rfl, by simp, by simp [hasks]⟩

theorem findPackage_of_some (hw : s.applicationWrapperMap packageName = some w)
    (packageVersion packageTimestamp : Option String) :
    ∃ found, findPackage s packageName packageVersion packageTimestamp = .ok found := by
  have hpublished : s.getPublishedApplication packageName = .ok w := by
    simp only [getPublishedApplication, hw]
  cases packageVersion with
  | none => exact ⟨_, by simp only [findPackage, hpublished]; rfl⟩
  | some version =>
    simp only [findPackage, hpublished]
    split
    · exact ⟨_, rfl⟩
    · split
      · split
        · exact ⟨_, rfl⟩
        · exact ⟨_, rfl⟩
      · exact ⟨_, by simp only [getRelease, hw]; rfl⟩

theorem getFile_error {e : Failure} (h : getFile repository directory p = .error e) :
    ∃ message, e = .fileNotFoundException message := by
  unfold getFile at h
  simp only at h
  split at h
  · cases h
  · split at h
    · exact ⟨_, (Except.error.inj h).symm⟩
    · split at h
      · cases h
      · exact ⟨_, (Except.error.inj h).symm⟩

theorem getFile_ok (h : getFile repository directory p = .ok file) :
    (directory.get file).isSome := by
  unfold getFile at h
  simp only at h
  split at h
  · rename_i hlong
    exact Except.ok.inj h ▸ hlong
  · split at h
    · cases h
    · split at h
      · rename_i hshort
        exact Except.ok.inj h ▸ hshort
      · cases h

end Find

/-! ## Exactly the requests that are atomic -/

theorem erase_ne (h : (directory.get file).isSome) : directory.erase file ≠ directory := by
  intro heq
  obtain ⟨f, hf⟩ := Option.isSome_iff_exists.mp h
  obtain ⟨hmem, hname⟩ := Keyed.get_eq_some.mp hf
  rw [← heq] at hmem
  exact (Keyed.mem_erase.mp hmem).2 hname

/-- Once the file is deleted, only the deletion of the version is left. -/
theorem atomic_erase (hfound : findPackage s packageName packageVersion packageTimestamp = .ok (some p))
    (hfile : getFile repository directory p = .ok file) {s' : Cache} {result : Option Failure} :
    Atomic repository directory s packageName packageVersion packageTimestamp
        ((directory.erase file, s'), result) ↔
      result = none ∧ Deleted directory s packageName p file (directory.erase file) s' := by
  constructor
  · rintro (⟨-, hdirectory, -⟩ | ⟨hresult, p', file', hfound', hfile', hdeleted⟩)
    · exact absurd hdirectory (erase_ne (getFile_ok hfile))
    · cases hfound.symm.trans hfound'
      cases hfile.symm.trans hfile'
      exact ⟨hresult, hdeleted⟩
  · rintro ⟨hresult, hdeleted⟩
    exact .inr ⟨hresult, p, file, hfound, hfile, hdeleted⟩

/-- A held version with the key that is asked for is removed. -/
theorem removePackageVersion_held (hw : s.applicationWrapperMap packageName = some w)
    (hkey : getVersionKey packageVersion packageTimestamp = .ok (some p.key))
    (hheld : ∃ q, s.Held packageName q ∧ q.key = p.key) :
    ∃ w', w.removePackageVersion packageVersion packageTimestamp = .ok w' := by
  obtain ⟨q, ⟨w', hw', hq⟩, hqkey⟩ := hheld
  cases hw.symm.trans hw'
  have hsome : (w.versions.get p.key).isSome := by
    rw [← hqkey, Keyed.get_key hq]
    rfl
  refine ⟨{ w with versions := w.versions.erase p.key }, ?_⟩
  simp only [PackageWrapper.removePackageVersion, hkey, hsome, if_true]

/-- Where exactly the versions with one key are gone, this is the version of the file if and only if
it has this key and was held. -/
theorem deleted_erase {s' : Cache} {key : String} (hactive : s'.activeFileMap = s.activeFileMap)
    (hheld : ∀ name q, s'.Held name q ↔ s.Held name q ∧ ¬ (name = packageName ∧ q.key = key)) :
    Deleted directory s packageName p file (directory.erase file) s' ↔
      key = p.key ∧ (∃ q, s.Held packageName q ∧ q.key = p.key) ∧
        s.activeFileMap.get file = none := by
  constructor
  · intro hdeleted
    obtain ⟨q, hq, hqkey⟩ := hdeleted.was_held
    have heq : q.key = key := by
      by_contra hne
      have hstill : s'.Held packageName q :=
        (hheld packageName q).mpr ⟨hq, fun hboth => hne hboth.2⟩
      exact ((hdeleted.held_iff packageName q).mp hstill).2 ⟨rfl, hqkey⟩
    have hfileGone := hdeleted.active file
    rw [if_pos rfl, hactive] at hfileGone
    exact ⟨heq.symm.trans hqkey, ⟨q, hq, hqkey⟩, hfileGone⟩
  · rintro ⟨rfl, hq, hinactive⟩
    refine ⟨rfl, hq, hheld, fun f => ?_⟩
    rw [hactive]
    split
    · rename_i hf
      rw [hf, hinactive]
    · rfl

/-- Whether what happens after the file is deleted is a deletion of the version. -/
theorem deleted_iff (hw : s.applicationWrapperMap packageName = some w)
    (hfound : findPackage s packageName packageVersion packageTimestamp = .ok (some p))
    (hfile : getFile repository directory p = .ok file) :
    Atomic repository directory s packageName packageVersion packageTimestamp
      ((directory.erase file,
        (removePackage P o s packageName packageVersion packageTimestamp true).1),
        (removePackage P o s packageName packageVersion packageTimestamp true).2) ↔
      getVersionKey packageVersion packageTimestamp = .ok (some p.key) ∧
        (∃ q, s.Held packageName q ∧ q.key = p.key) ∧ s.activeFileMap.get file = none := by
  rw [atomic_erase hfound hfile]
  cases hremove : w.removePackageVersion packageVersion packageTimestamp with
  | error e =>
    have hremoved : removePackage P o s packageName packageVersion packageTimestamp true =
        (s, some e) := by simp only [removePackage, hw, hremove]
    rw [hremoved]
    constructor
    · rintro ⟨hresult, -⟩
      cases hresult
    · rintro ⟨hkey, hheld, -⟩
      obtain ⟨w', hw'⟩ := removePackageVersion_held hw hkey hheld
      cases hremove.symm.trans hw'
  | ok w' =>
    obtain ⟨key, hkey, hsome, rfl⟩ := removePackageVersion_ok hremove
    obtain ⟨s', hremoved, hactive, hheld⟩ := removePackage_ok hw hremove true (P := P) (o := o)
    have hheld : ∀ name q, s'.Held name q ↔
        s.Held name q ∧ ¬ (name = packageName ∧ q.key = key) := by
      intro name q
      rw [hheld, Keyed.mem_erase]
      by_cases hname : name = packageName
      · subst hname
        simp [Held, hw]
      · simp [hname]
    rw [hremoved, deleted_erase hactive hheld, hkey]
    simp

/-- A request that fails before the file is deleted is carried out as a whole or not at all if it
fails with a `BusinessException`. -/
theorem atomic_error {e : Failure} : Atomic repository directory s packageName packageVersion
    packageTimestamp ((directory, s), some e) ↔ ∃ message, e = .businessException message := by
  constructor
  · rintro (⟨⟨message, he⟩, -⟩ | ⟨hresult, -⟩)
    · exact ⟨message, Option.some.inj he⟩
    · cases hresult
  · rintro ⟨message, rfl⟩
    exact .inl ⟨⟨message, rfl⟩, rfl, fun _ _ => Iff.rfl⟩

theorem Atomic.unchanged_or_done {result : (Directory B × Cache) × Option Failure}
    (h : Atomic repository directory s packageName packageVersion packageTimestamp result) :
    result.1.1 = directory ∨ result.2 = none := by
  obtain ⟨⟨directory', s'⟩, outcome⟩ := result
  rcases h with ⟨-, hdirectory, -⟩ | ⟨hnone, -⟩
  · exact .inl hdirectory
  · exact .inr hnone

theorem deletePackageVersion_atomic_iff (P : Parsers V) (o : IterationOrder)
    (repository : RepositoryImpl) (directory : Directory B) (deletes : Bool) (s : Cache)
    (packageName : String) (packageVersion packageTimestamp : Option String) :
    Atomic repository directory s packageName packageVersion packageTimestamp
      (deletePackageVersion repository directory P o deletes s packageName packageVersion
        packageTimestamp) ↔
      DeletesAtomically repository directory deletes s packageName packageVersion
        packageTimestamp := by
  unfold deletePackageVersion getPackageFile DeletesAtomically
  cases hw : s.applicationWrapperMap packageName with
  | none =>
    obtain ⟨e, hfound, hno, hbusiness⟩ := findPackage_of_none hw packageVersion packageTimestamp
    rw [hfound, ← hbusiness, ← atomic_error]
    cases e with
    | fileNotFoundException message => exact absurd rfl (hno message)
    | _ => exact Iff.rfl
  | some w =>
    obtain ⟨found, hfound⟩ := findPackage_of_some hw packageVersion packageTimestamp
    cases found with
    | none =>
      rw [hfound]
      exact iff_of_true (atomic_error.mpr ⟨_, rfl⟩) trivial
    | some p =>
      cases hfile : getFile repository directory p with
      | error e =>
        obtain ⟨message, rfl⟩ := getFile_error hfile
        simp only [hfound, hfile]
        exact iff_of_true (atomic_error.mpr ⟨_, rfl⟩) (fun _ h => by cases h)
      | ok file =>
        have hdeleted := deleted_iff hw hfound hfile (P := P) (o := o)
        simp only [hfound, hfile]
        cases deletes with
        | false => exact iff_of_true (atomic_error.mpr ⟨_, rfl⟩) (fun _ _ h => by cases h)
        | true =>
          simp only [if_true]
          rw [hdeleted]
          simp

section Example

def nightly : PackageInfo := ⟨"demo", "Demo", "", "1.0-SNAPSHOT", "20240101-0000"⟩

def nightlyMarshallers : Marshallers Unit where
  application _ := some (.applicationInfo nightly)
  isPlatform _ := false

def nightlyParsers : Parsers Int := ⟨fun _ => none, fun _ => some 1704067200⟩

def nightlies : RepositoryImpl := ⟨.snapshot, true, fun file => "/repository/" ++ file⟩

def nightlyFile : File Unit :=
  ⟨"demo-1.0-SNAPSHOT-20240101-0000.zip",
    .zip ⟨[⟨"application.xml", some ()⟩], [⟨"application.xml", some ()⟩], .refl _⟩⟩

def nightlyDirectory : Directory Unit := Keyed.empty.put nightlyFile

/-- The cache after the first scan. -/
def scanned : Cache :=
  (update nightlyMarshallers nightlies nightlyParsers .asListed nightlyDirectory 0 0 .empty).1

/-- The latest snapshot of a version is asked for: its file is deleted, then the version is not
found. -/
theorem not_atomic_latestSnapshot :
    ¬ Atomic nightlies nightlyDirectory scanned "demo" (some "1.0-SNAPSHOT") (some "")
      (deletePackageVersion nightlies nightlyDirectory nightlyParsers .asListed true scanned "demo"
        (some "1.0-SNAPSHOT") (some "")) := by
  have hthrown : (deletePackageVersion nightlies nightlyDirectory nightlyParsers .asListed true
      scanned "demo" (some "1.0-SNAPSHOT") (some "")).2.isSome := by decide +kernel
  have hgone : (deletePackageVersion nightlies nightlyDirectory nightlyParsers .asListed true
      scanned "demo" (some "1.0-SNAPSHOT") (some "")).1.1.values.length = 0 := by decide +kernel
  intro h
  rcases h.unchanged_or_done with hdirectory | hnone
  · rw [hdirectory] at hgone
    cases hgone
  · rw [hnone] at hthrown
    cases hthrown

end Example

end Cache
end Repository
end AppNG
