import AppNG.Lib.Machine
import AppNG.Repository.Deletion

/-!
# Repository.Scans

Whether the cache is in sync with the directory after each scan.

A scan puts the package infos of the valid files that it has not known as active, one after another,
over the versions of the cache: `update_ok`. It takes nothing away, since the set of old files is
always empty (`oldFiles_eq_nil`).

`scans_right_iff`: every scan of a history leaves the cache in sync with its directory if and only if
each starts `InStep` with it. A version whose file is gone, an active file that is not valid any more
and a valid one that has been invalid before are out of step.
-/

namespace AppNG
namespace Repository
namespace Cache

open Loop Machine

variable {V : Type} [Ord V] {B : Type}

/-! ## What is to hold -/

section Sync

variable (m : Marshallers B) (repository : RepositoryImpl)

/-- The package info of a file that holds a valid archive. -/
def validInfo (file : File B) : Option PackageInfo :=
  match PackageArchive.create m file repository.strict with
  | .ok archive => if archive.isValid then archive.packageInfo else none
  | .error _ => none

/-- A file of the directory that holds a valid archive and matches the mode of the repository. -/
structure IsCurrent (directory : Directory B) (file : File B) (p : PackageInfo) : Prop where
  mem : file ∈ directory.values
  zip : isZip file.name = true
  mode : matchesMode repository file.name = true
  info : validInfo m repository file = some p

/-- The cache holds the versions of the current files, and its files are the current ones. -/
structure Synced (directory : Directory B) (s : Cache) : Prop where
  held : ∀ name p, s.Held name p → p.name = name ∧ ∃ file, IsCurrent m repository directory file p
  listed : ∀ file p, IsCurrent m repository directory file p →
    ∃ q, s.Held p.name q ∧ q.key = p.key
  wrapper : ∀ name, (s.applicationWrapperMap name).isSome ↔
    ∃ file p, IsCurrent m repository directory file p ∧ p.name = name
  active : ∀ name, (s.activeFileMap.get name).isSome ↔
    ∃ file p, IsCurrent m repository directory file p ∧ file.name = name

/-! ## What a scan asks of the cache and the directory -/

/-- The files whose archives a scan opens. -/
def listing (s : Cache) (directory : Directory B) : List (File B) :=
  directory.values.filter fun file =>
    isZip file.name && matchesMode repository file.name && s.isValidFile file.name

/-- A regular file whose archive the constructor returns. -/
def Opens (file : File B) : Prop :=
  file.content ≠ .directory ∧ ∃ archive, PackageArchive.create m file repository.strict = .ok archive

/-- A current file that the scan takes for a new one. -/
structure IsNew (directory : Directory B) (s : Cache) (file : File B) (p : PackageInfo) : Prop where
  current : IsCurrent m repository directory file p
  valid : s.isValidFile file.name = true
  inactive : s.activeFileMap.get file.name = none

/-- The cache before a scan fits the directory. -/
structure InStep (directory : Directory B) (s : Cache) : Prop where
  opens : ∀ file ∈ listing repository s directory, Opens m repository file
  not_invalid : ∀ file p, IsCurrent m repository directory file p → s.isValidFile file.name = true
  still_valid : ∀ file ∈ listing repository s directory, (s.activeFileMap.get file.name).isSome →
    (validInfo m repository file).isSome
  held_current : ∀ name q, s.Held name q → (∃ file, IsCurrent m repository directory file q) ∨
    ∃ file p, IsNew m repository directory s file p ∧ p.name = name ∧ p.key = q.key
  active_held : ∀ file p, IsCurrent m repository directory file p →
    (s.activeFileMap.get file.name).isSome → (∃ q, s.Held p.name q ∧ q.key = p.key) ∨
      ∃ file' p', IsNew m repository directory s file' p' ∧ p'.name = p.name ∧ p'.key = p.key

/-! ## Histories -/

/-- A call of `update` on the directory as it then is. -/
structure UpdateCall (B : Type) where
  directory : Directory B
  order : IterationOrder
  currentTime : Int
  finished : Int

variable (P : Parsers V)

def Step (s : Cache) (c : UpdateCall B) (s' : Cache) : Prop :=
  s' = (update m repository P c.order c.directory c.currentTime c.finished s).1

/-- The scan ends, with a cache in sync. -/
def ScanRight (s : Cache) (c : UpdateCall B) : Prop :=
  (update m repository P c.order c.directory c.currentTime c.finished s).2 = none ∧
    Synced m repository c.directory
      (update m repository P c.order c.directory c.currentTime c.finished s).1

end Sync

variable {m : Marshallers B} {repository : RepositoryImpl} {P : Parsers V} {o : IterationOrder}
  {s s' : Cache} {name : String} {p q : PackageInfo} {file : File B} {directory : Directory B}

/-! ## The versions of a cache -/

/-- A version by the name and the key that it has. -/
def version (s : Cache) (id : String × String) : Option PackageInfo :=
  (s.applicationWrapperMap id.1).bind fun w => w.versions.get id.2

def idOf (p : PackageInfo) : String × String := (p.name, p.key)

theorem held_iff : s.Held name q ↔ s.version (name, q.key) = some q := by
  constructor
  · rintro ⟨w, hw, hq⟩
    simp only [version, hw, Option.bind_some, Keyed.get_key hq]
  · intro h
    obtain ⟨w, hw, hget⟩ := Option.bind_eq_some_iff.mp h
    exact ⟨w, hw, (Keyed.get_eq_some.mp hget).1⟩

theorem key_held_iff {key : String} :
    (∃ q, s.Held name q ∧ q.key = key) ↔ (s.version (name, key)).isSome := by
  constructor
  · rintro ⟨q, hq, rfl⟩
    rw [held_iff.mp hq]
    rfl
  · intro h
    obtain ⟨q, hq⟩ := Option.isSome_iff_exists.mp h
    obtain ⟨w, hw, hget⟩ := Option.bind_eq_some_iff.mp hq
    obtain ⟨hmem, hkey⟩ := Keyed.get_eq_some.mp hget
    exact ⟨q, ⟨w, hw, hmem⟩, hkey⟩

theorem version_addPackage (s : Cache) (p : PackageInfo) (type : Option PackageType) :
    (s.addPackage p type).version = Keyed.overlay idOf s.version [p] := by
  funext ⟨n, key⟩
  simp only [Keyed.overlay, List.foldl_cons, List.foldl_nil, Function.update_apply, idOf,
    Prod.mk.injEq]
  rw [addPackage_eq]
  by_cases hn : n = p.name
  · subst hn
    simp only [version, setWrapper_map, Function.update_self, Option.bind_some,
      PackageWrapper.addPackage, Keyed.get_put, true_and]
    by_cases hkey : key = p.key
    · simp [hkey]
    · rw [if_neg (Ne.symm hkey), if_neg hkey]
      cases s.applicationWrapperMap p.name with
      | none => rfl
      | some w => rfl
  · simp [version, hn]

theorem version_addPackage_twice (s : Cache) (p : PackageInfo) (type : Option PackageType) :
    ((s.addPackage p type).addPackage p type).version = Keyed.overlay idOf s.version [p] := by
  rw [version_addPackage, version_addPackage]
  simp [Keyed.overlay]

theorem version_initializeWrapper (s : Cache) (packageName : String) :
    (s.initializeWrapper P o packageName).1.version = s.version := by
  unfold initializeWrapper
  cases hw : s.applicationWrapperMap packageName with
  | none => rfl
  | some w =>
    cases hinit : w.init P o with
    | error e => simp only [hinit]
    | ok w' =>
      funext ⟨n, key⟩
      simp only [hinit, version, setWrapper_map, Function.update_apply]
      split
      · rename_i hn
        rw [hn, hw, Option.bind_some, Option.bind_some, (PackageWrapper.init_spec hinit).1]
      · rfl

/-! ## What every cache keeps -/

/-- No wrapper is empty, and each holds versions of its own package. -/
structure WellFormed (s : Cache) : Prop where
  noneEmpty : s.NoneEmpty
  named : ∀ name p, s.Held name p → p.name = name

theorem wellFormed_empty : (empty : Cache).WellFormed where
  noneEmpty _ _ hw := by cases hw
  named _ _ hq := by
    obtain ⟨w, hw, -⟩ := hq
    cases hw

theorem WellFormed.addPackage (h : s.WellFormed) (p : PackageInfo) (type : Option PackageType) :
    (s.addPackage p type).WellFormed := by
  refine ⟨h.noneEmpty.addPackage p type, fun name q hq => ?_⟩
  rw [held_iff, version_addPackage] at hq
  by_cases hid : idOf p = (name, q.key)
  · obtain ⟨r, hr, -, heq⟩ := Keyed.overlay_of_present (m := s.version)
      ⟨p, List.mem_singleton_self p, hid⟩
    obtain rfl := List.mem_singleton.mp hr
    obtain rfl := Option.some.inj (heq.symm.trans hq)
    exact (Prod.mk.inj hid).1
  · rw [Keyed.overlay_of_absent (by simpa using hid)] at hq
    exact h.named name q (held_iff.mpr hq)

theorem WellFormed.initializeWrapper (h : s.WellFormed) (packageName : String) :
    (s.initializeWrapper P o packageName).1.WellFormed := by
  have hnamed : ∀ name q, (s.initializeWrapper P o packageName).1.Held name q → q.name = name := by
    intro name q hq
    rw [held_iff, version_initializeWrapper] at hq
    exact h.named name q (held_iff.mpr hq)
  refine ⟨?_, hnamed⟩
  unfold Cache.initializeWrapper
  cases hw : s.applicationWrapperMap packageName with
  | none => exact h.noneEmpty
  | some w =>
    cases hinit : w.init P o with
    | error e =>
      simp only [hinit]
      exact h.noneEmpty
    | ok w' =>
      intro name u hu
      simp only [hinit, setWrapper_map, Function.update_apply] at hu
      split at hu
      · obtain rfl := Option.some.inj hu
        rw [(PackageWrapper.init_spec hinit).1]
        exact h.noneEmpty packageName w hw
      · exact h.noneEmpty name u hu

/-- Only the wrappers count. -/
theorem WellFormed.of_wrappers (h : s.WellFormed)
    (hmap : s'.applicationWrapperMap = s.applicationWrapperMap) : s'.WellFormed := by
  refine ⟨fun name w hw => ?_, fun name q hq => ?_⟩
  · rw [hmap] at hw
    exact h.noneEmpty name w hw
  · obtain ⟨w, hw, hq⟩ := hq
    rw [hmap] at hw
    exact h.named name q ⟨w, hw, hq⟩

/-! ## The archives of the files -/

section Archives

variable {α : Type} {z : ZipFile B} {a b : PackageArchive B} {content : Content B}

theorem validationProcessor_file : (validationProcessor m name a z).1.file = a.file := by
  unfold validationProcessor
  repeat' split
  all_goals rfl

theorem processZipFile_file (content : Content B)
    (process : PackageArchive B → ZipFile B → PackageArchive B × Outcome α)
    (h : ∀ z, (process a z).1.file = a.file) : (processZipFile content process a).1.file = a.file := by
  unfold processZipFile
  cases content with
  | zip z => exact h z
  | directory => rfl
  | unreadable => rfl

theorem init_file (h : PackageArchive.init m content name a = .ok b) : b.file = a.file := by
  have happlication := processZipFile_file content (validationProcessor m name)
    (fun z => validationProcessor_file (a := a) (z := z))
  unfold PackageArchive.init at h
  split at h
  · cases h
  · rename_i heq
    rw [heq] at happlication
    exact Except.ok.inj h ▸ happlication
  · rename_i heq
    rw [heq] at happlication
    exact Except.ok.inj h ▸ happlication
  · rename_i a' heq
    rw [heq] at happlication
    have htemplate := processZipFile_file (a := a') content
      (fun a zipFile => (a, getTemplateInfo m zipFile)) fun _ => rfl
    split at h
    · cases h
    · rename_i heq'
      rw [heq'] at htemplate
      exact Except.ok.inj h ▸ htemplate.trans happlication
    · rename_i heq'
      rw [heq'] at htemplate
      split at h
      · exact Except.ok.inj h ▸ htemplate.trans happlication
      · exact Except.ok.inj h ▸ htemplate.trans happlication

/-- A file that is not a regular one is not kept. -/
theorem create_directory {strict : Bool} (hdirectory : file.content = .directory)
    (h : PackageArchive.create m file strict = .ok a) : a.file = none := by
  simp only [PackageArchive.create, hdirectory] at h
  rw [← Except.ok.inj h]
  rfl

theorem create_file {strict : Bool} (hregular : file.content ≠ .directory)
    (h : PackageArchive.create m file strict = .ok a) : a.file = some file := by
  unfold PackageArchive.create at h
  split at h
  · rename_i hdirectory
    exact absurd hdirectory hregular
  · rw [init_file h]

end Archives

/-! ## The loop over the archives -/

variable {scan scan' scan'' : Scan} {archive : PackageArchive B} {files : List (File B)}
  {archives : List (PackageArchive B)}

section Loop

variable (m : Marshallers B) (repository : RepositoryImpl)

/-- The package info that a scan takes from a file. -/
def newInfo (activeFileMap : FileMap) (file : File B) : Option PackageInfo :=
  if (activeFileMap.get file.name).isSome then none else validInfo m repository file

/-- A scan goes on from `scan` to `scan'` when it visits the files. -/
structure Visited (files : List (File B)) (scan scan' : Scan) : Prop where
  active : scan'.cache.activeFileMap = scan.cache.activeFileMap
  version : scan'.cache.version = Keyed.overlay idOf scan.cache.version
    (files.filterMap (newInfo m repository scan.cache.activeFileMap))
  newFiles : ∀ name, (scan'.newFileMap.get name).isSome ↔ (scan.newFileMap.get name).isSome ∨
    ∃ file ∈ files, file.name = name ∧
      ((scan.cache.activeFileMap.get name).isSome ∨ (validInfo m repository file).isSome)

end Loop

theorem Visited.nil : Visited m repository [] scan scan := ⟨rfl, rfl, by simp⟩

theorem Visited.cons (h : Visited m repository [file] scan scan')
    (hs : Visited m repository files scan' scan'') :
    Visited m repository (file :: files) scan scan'' := by
  refine ⟨hs.active.trans h.active, ?_, fun name => ?_⟩
  · rw [hs.version, h.active, h.version, ← Keyed.overlay_append, ← List.filterMap_append]
    rfl
  · rw [hs.newFiles, h.newFiles, h.active]
    simp [or_assoc]

theorem isSome_get_put {fileMap : FileMap} {v : String × PackageInfo} :
    ((fileMap.put v).get name).isSome ↔ (fileMap.get name).isSome ∨ v.1 = name := by
  rw [Keyed.get_put]
  split
  · rename_i hv
    simp [hv]
  · rename_i hv
    simp [hv]

theorem storeArchive_valid {fileMap : FileMap} (hvalid : archive.isValid = true)
    (hinfo : archive.packageInfo = some p) (hnew : fileMap.get file.name = none) :
    storeArchive s fileMap file archive =
      ((s.addPackage p archive.type, fileMap.put (file.name, p)), true) := by
  simp [storeArchive, hvalid, hinfo, hnew]

theorem storeArchive_invalid {fileMap : FileMap}
    (h : (if archive.isValid then archive.packageInfo else none) = none) :
    storeArchive s fileMap file archive =
      (({ s with invalidFileMap := s.invalidFileMap.insert file.name }, fileMap.erase file.name),
        false) := by
  unfold storeArchive
  split
  · rename_i hvalid hinfo
    simp [hvalid, hinfo] at h
  · rfl

section Visit

variable (hcreate : PackageArchive.create m file repository.strict = .ok archive)
  (hregular : file.content ≠ .directory)

include hcreate hregular

/-- A file that is active already. -/
theorem visitArchive_active {entry : String × PackageInfo}
    (hactive : scan.cache.activeFileMap.get file.name = some entry) :
    ∃ scan', visitArchive P o scan archive = (scan', none) ∧
      Visited m repository [file] scan scan' := by
  have hfile : archive.file = some file := create_file hregular hcreate
  unfold visitArchive
  simp only [hfile, hactive]
  refine ⟨_, rfl, rfl, ?_, fun n => ?_⟩
  · simp [newInfo, hactive]
  · rw [isSome_get_put]
    by_cases hn : file.name = n
    · subst hn
      simp [hactive]
    · simp [hn]

theorem visitArchive_invalid (hactive : scan.cache.activeFileMap.get file.name = none)
    (hnew : scan.newFileMap.get file.name = none) (hinfo : validInfo m repository file = none) :
    ∃ scan', visitArchive P o scan archive = (scan', none) ∧
      Visited m repository [file] scan scan' := by
  have hfile : archive.file = some file := create_file hregular hcreate
  have hinvalid : (if archive.isValid then archive.packageInfo else none) = none := by
    simpa only [validInfo, hcreate] using hinfo
  unfold visitArchive
  simp only [hfile, hactive, addArchive, storeArchive_invalid hinvalid]
  refine ⟨_, rfl, rfl, ?_, fun n => ?_⟩
  · simp only [newInfo, hinfo, hactive, List.filterMap_cons, List.filterMap_nil,
      Option.isSome_none, Bool.false_eq_true, if_false, Keyed.overlay_nil]
    rfl
  · rw [Keyed.get_erase]
    by_cases hn : n = file.name
    · subst hn
      simp [hnew, hactive, hinfo]
    · simp [hn, Ne.symm hn]

theorem visitArchive_valid (hactive : scan.cache.activeFileMap.get file.name = none)
    (hnew : scan.newFileMap.get file.name = none) (hinfo : validInfo m repository file = some p) :
    ∃ scan', visitArchive P o scan archive = (scan', none) ∧
      Visited m repository [file] scan scan' := by
  have hfile : archive.file = some file := create_file hregular hcreate
  obtain ⟨hvalid, hp⟩ : archive.isValid = true ∧ archive.packageInfo = some p := by
    simp only [validInfo, hcreate] at hinfo
    split at hinfo
    · rename_i hvalid
      exact ⟨hvalid, hinfo⟩
    · cases hinfo
  unfold visitArchive
  simp only [hfile, hactive, addArchive, storeArchive_valid hvalid hp hnew, hp]
  refine ⟨_, rfl, ?_, ?_, fun n => ?_⟩
  · simp [addPackage_eq]
  · simp only [version_addPackage_twice]
    simp [newInfo, hactive, hinfo]
  · rw [isSome_get_put]
    by_cases hn : file.name = n
    · subst hn
      simp [hinfo]
    · simp [hn]

theorem visitArchive_visited (hnew : scan.newFileMap.get file.name = none) :
    ∃ scan', visitArchive P o scan archive = (scan', none) ∧
      Visited m repository [file] scan scan' := by
  cases hactive : scan.cache.activeFileMap.get file.name with
  | some entry => exact visitArchive_active hcreate hregular hactive
  | none =>
    cases hinfo : validInfo m repository file with
    | none => exact visitArchive_invalid hcreate hregular hactive hnew hinfo
    | some p => exact visitArchive_valid hcreate hregular hactive hnew hinfo

end Visit

theorem createAll_cons (h : createAll m repository (file :: files) = .ok archives) :
    ∃ archive rest, archives = archive :: rest ∧
      PackageArchive.create m file repository.strict = .ok archive ∧
      createAll m repository files = .ok rest := by
  unfold createAll at h
  split at h
  · cases h
  · rename_i archive harchive
    split at h
    · cases h
    · rename_i rest hrest
      exact ⟨archive, rest, (Except.ok.inj h).symm, harchive, hrest⟩

theorem createAll_ok (h : ∀ file ∈ files, Opens m repository file) :
    ∃ archives, createAll m repository files = .ok archives := by
  induction files with
  | nil => exact ⟨[], rfl⟩
  | cons file files ih =>
    obtain ⟨-, archive, harchive⟩ := h file List.mem_cons_self
    obtain ⟨rest, hrest⟩ := ih fun f hf => h f (List.mem_cons_of_mem file hf)
    exact ⟨archive :: rest, by simp only [createAll, harchive, hrest]⟩

theorem createAll_mem (h : createAll m repository files = .ok archives) (hfile : file ∈ files) :
    ∃ archive ∈ archives, PackageArchive.create m file repository.strict = .ok archive := by
  induction files generalizing archives with
  | nil => cases hfile
  | cons f files ih =>
    obtain ⟨archive, rest, rfl, harchive, hrest⟩ := createAll_cons h
    rcases List.mem_cons.mp hfile with rfl | hfile
    · exact ⟨archive, List.mem_cons_self, harchive⟩
    · obtain ⟨archive', hmem, harchive'⟩ := ih hrest hfile
      exact ⟨archive', List.mem_cons_of_mem archive hmem, harchive'⟩

/-- The loop visits all the files, since no two of them have the same name. -/
theorem visitAll (hcreate : createAll m repository files = .ok archives)
    (hopens : ∀ file ∈ files, Opens m repository file) (hnodup : (files.map File.name).Nodup)
    (scan : Scan) (hnew : ∀ file ∈ files, scan.newFileMap.get file.name = none) :
    ∃ scan', foldUntil (visitArchive P o) scan archives = (scan', none) ∧
      Visited m repository files scan scan' := by
  induction files generalizing archives scan with
  | nil =>
    obtain rfl := Except.ok.inj hcreate
    exact ⟨scan, rfl, .nil⟩
  | cons file files ih =>
    obtain ⟨archive, rest, rfl, harchive, hrest⟩ := createAll_cons hcreate
    obtain ⟨hnotMem, hnodup⟩ := List.nodup_cons.mp hnodup
    obtain ⟨scan₁, hvisit, hvisited⟩ := visitArchive_visited harchive
      (hopens file List.mem_cons_self).1 (hnew file List.mem_cons_self) (P := P) (o := o)
    have hnew₁ : ∀ f ∈ files, scan₁.newFileMap.get f.name = none := by
      intro f hf
      have hname : file.name ≠ f.name := fun heq => hnotMem (heq ▸ List.mem_map_of_mem hf)
      have hnone := hnew f (List.mem_cons_of_mem file hf)
      rw [← Option.not_isSome_iff_eq_none, hvisited.newFiles]
      simp [hnone, hname]
    obtain ⟨scan₂, hloop, hvisited₂⟩ := ih hrest
      (fun f hf => hopens f (List.mem_cons_of_mem file hf)) hnodup scan₁ hnew₁
    exact ⟨scan₂, by rw [foldUntil_cons_ok hvisit, hloop], hvisited.cons hvisited₂⟩

theorem WellFormed.storeArchive (h : s.WellFormed) (fileMap : FileMap) (file : File B)
    (archive : PackageArchive B) : (storeArchive s fileMap file archive).1.1.WellFormed := by
  unfold Cache.storeArchive
  split
  · split
    · exact h
    · exact h.addPackage _ _
  · exact h.of_wrappers rfl

theorem WellFormed.visitArchive (h : scan.cache.WellFormed) (archive : PackageArchive B) :
    (visitArchive P o scan archive).1.cache.WellFormed := by
  unfold Cache.visitArchive
  cases hfile : archive.file with
  | none => exact h
  | some file =>
    simp only
    split
    · exact h
    · simp only [addArchive, hfile]
      have hstore := h.storeArchive scan.newFileMap file archive
      rcases hr : Cache.storeArchive scan.cache scan.newFileMap file archive with
        ⟨⟨cache, newFileMap⟩, added⟩
      rw [hr] at hstore
      cases added with
      | false => exact hstore
      | true =>
        cases archive.packageInfo with
        | none => exact hstore
        | some p => exact hstore.addPackage p archive.type

theorem WellFormed.visitAll (h : scan.cache.WellFormed) (archives : List (PackageArchive B)) :
    (foldUntil (Cache.visitArchive P o) scan archives).1.cache.WellFormed :=
  foldUntil_inv (P := fun scan : Scan => scan.cache.WellFormed)
    (fun _ archive _ h => h.visitArchive archive) h

/-! ## A scan -/

theorem oldFiles_eq_nil (activeFileMap : FileMap) : oldFiles activeFileMap = [] := by
  simp [oldFiles, List.filter_eq_nil_iff]

theorem initializeAll (h : s.WellFormed) (packageNames : List String) :
    ∃ s', foldUntil (initializeWrapper P o) s packageNames = (s', none) ∧ s'.WellFormed ∧
      s'.version = s.version := by
  induction packageNames generalizing s with
  | nil => exact ⟨s, rfl, h, rfl⟩
  | cons n packageNames ih =>
    have hok : s.initializeWrapper P o n = ((s.initializeWrapper P o n).1, none) := by
      rw [← h.noneEmpty.initializeWrapper P o n]
    obtain ⟨s', hloop, hs', hversion⟩ := ih (h.initializeWrapper n (P := P) (o := o))
    refine ⟨s', ?_, hs', hversion.trans (version_initializeWrapper s n)⟩
    rw [foldUntil_cons_ok hok, hloop]

variable {currentTime : Int}

theorem mem_listing : file ∈ listing repository s directory ↔ file ∈ directory.values ∧
    isZip file.name = true ∧ matchesMode repository file.name = true ∧
      s.isValidFile file.name = true := by
  simp [listing, and_assoc]

/-- What a scan that ends does: the versions of the new files are there, the others are as they were,
and the files that it has listed are active, if they were before or are valid. -/
structure Scanned (m : Marshallers B) (repository : RepositoryImpl) (directory : Directory B)
    (s s' : Cache) : Prop where
  present : ∀ {id}, (∃ file p, IsNew m repository directory s file p ∧ idOf p = id) →
    ∃ file p, IsNew m repository directory s file p ∧ idOf p = id ∧ s'.version id = some p
  absent : ∀ {id}, (¬ ∃ file p, IsNew m repository directory s file p ∧ idOf p = id) →
    s'.version id = s.version id
  active : ∀ name, (s'.activeFileMap.get name).isSome ↔
    ∃ file ∈ listing repository s directory, file.name = name ∧
      ((s.activeFileMap.get name).isSome ∨ (validInfo m repository file).isSome)

theorem mem_filterMap_newInfo :
    p ∈ (listing repository s directory).filterMap (newInfo m repository s.activeFileMap) ↔
      ∃ file, IsNew m repository directory s file p := by
  rw [List.mem_filterMap]
  constructor
  · rintro ⟨file, hfile, hinfo⟩
    obtain ⟨hmem, hzip, hmode, hvalid⟩ := mem_listing.mp hfile
    unfold newInfo at hinfo
    split at hinfo
    · cases hinfo
    · rename_i hactive
      exact ⟨file, ⟨hmem, hzip, hmode, hinfo⟩, hvalid, by simpa using hactive⟩
  · rintro ⟨file, hcurrent, hvalid, hinactive⟩
    refine ⟨file, mem_listing.mpr ⟨hcurrent.mem, hcurrent.zip, hcurrent.mode, hvalid⟩, ?_⟩
    simp [newInfo, hinactive, hcurrent.info]

theorem scanned_of_visited {scan : Scan} (hversion : s'.version = scan.cache.version)
    (hactive : s'.activeFileMap = scan.newFileMap)
    (h : Visited m repository (listing repository s directory) ⟨s, .empty, []⟩ scan) :
    Scanned m repository directory s s' where
  present := by
    rintro id ⟨file, p, hnew, hid⟩
    obtain ⟨q, hq, hqid, heq⟩ := Keyed.overlay_of_present (m := s.version)
      ⟨p, mem_filterMap_newInfo.mpr ⟨file, hnew⟩, hid⟩
    obtain ⟨file', hnew'⟩ := mem_filterMap_newInfo.mp hq
    exact ⟨file', q, hnew', hqid, by rw [hversion, h.version, heq]⟩
  absent := by
    intro id hnone
    rw [hversion, h.version]
    refine Keyed.overlay_of_absent fun q hq hqid => ?_
    obtain ⟨file, hnew⟩ := mem_filterMap_newInfo.mp hq
    exact hnone ⟨file, q, hnew, hqid⟩
  active := by
    intro name
    rw [hactive, h.newFiles]
    simp [Keyed.get, Keyed.empty]

/-- A scan of files that all open. -/
theorem update_ok (finished : Int) (hdue : s.isDue currentTime = true) (hs : s.WellFormed)
    (hopens : ∀ file ∈ listing repository s directory, Opens m repository file) :
    ∃ s', update m repository P o directory currentTime finished s = (s', none) ∧
      s'.WellFormed ∧ Scanned m repository directory s s' := by
  obtain ⟨archives, harchives⟩ := createAll_ok hopens
  have hnodup : ((listing repository s directory).map File.name).Nodup :=
    directory.nodup.sublist (List.filter_sublist.map File.name)
  obtain ⟨scan, hloop, hvisited⟩ := visitAll harchives hopens hnodup ⟨s, .empty, []⟩
    (fun _ _ => rfl) (P := P) (o := o)
  have hscan : scan.cache.WellFormed := by
    have hinv : (foldUntil (visitArchive P o) ⟨s, .empty, []⟩ archives).1.cache.WellFormed :=
      WellFormed.visitAll hs archives
    rwa [hloop] at hinv
  obtain ⟨s', hinit, hs', hversion⟩ := initializeAll hscan scan.updatedPackages (P := P) (o := o)
  refine ⟨{ s' with activeFileMap := scan.newFileMap, lastScan := some finished }, ?_,
    hs'.of_wrappers rfl, scanned_of_visited hversion rfl hvisited⟩
  have hget : getArchives m repository s directory = .ok archives := harchives
  simp only [update, hdue, if_true, hget, hloop, oldFiles_eq_nil, removeFiles, List.foldl_nil,
    hinit]

theorem update_threw (finished : Int) (hdue : s.isDue currentTime = true)
    (hfile : file ∈ listing repository s directory) (hopens : ¬ Opens m repository file) :
    (update m repository P o directory currentTime finished s).2 ≠ none := by
  intro h
  unfold update at h
  simp only [hdue, if_true] at h
  split at h
  · cases h
  · rename_i archives harchives
    obtain ⟨archive, hmem, harchive⟩ := createAll_mem harchives hfile
    have hdirectory : file.content = .directory := by
      by_contra hregular
      exact hopens ⟨hregular, archive, harchive⟩
    split at h
    · cases h
    · rename_i scan hloop
      obtain ⟨scan₁, scan₂, hvisit⟩ := foldUntil_ok hloop archive hmem
      simp [visitArchive, create_directory hdirectory harchive] at hvisit

/-- Every scan keeps the cache well-formed, also one that throws. -/
theorem WellFormed.update (hs : s.WellFormed) (finished : Int) :
    (update m repository P o directory currentTime finished s).1.WellFormed := by
  by_cases hdue : s.isDue currentTime = true
  · unfold Cache.update
    simp only [hdue, if_true]
    split
    · exact hs
    · rename_i archives _
      have hinv : (foldUntil (Cache.visitArchive P o) ⟨s, .empty, []⟩ archives).1.cache.WellFormed :=
        WellFormed.visitAll hs archives
      split
      · rename_i hloop
        rw [hloop] at hinv
        exact hinv
      · rename_i scan hloop
        rw [hloop] at hinv
        obtain ⟨s', hinit, hs', -⟩ := initializeAll hinv scan.updatedPackages (P := P) (o := o)
        simp only [oldFiles_eq_nil, removeFiles, List.foldl_nil, hinit]
        exact hs'.of_wrappers rfl
  · simp only [Cache.update, hdue]
    exact hs

/-! ## Exactly the scans that are right -/

theorem IsCurrent.unique {f : File B} (h : IsCurrent m repository directory file p)
    (hf : f ∈ directory.values) (hname : f.name = file.name) : f = file :=
  Keyed.eq_of_key_eq hf h.mem hname

theorem inStep_of_synced (hopens : ∀ file ∈ listing repository s directory, Opens m repository file)
    (hscanned : Scanned m repository directory s s') (h : Synced m repository directory s') :
    InStep m repository directory s := by
  refine ⟨hopens, ?_, ?_, ?_, ?_⟩
  · intro file p hcurrent
    obtain ⟨f, hf, hname, -⟩ := (hscanned.active file.name).mp
      ((h.active file.name).mpr ⟨file, p, hcurrent, rfl⟩)
    obtain ⟨-, -, -, hvalid⟩ := mem_listing.mp hf
    exact hname ▸ hvalid
  · intro file hfile hsome
    obtain ⟨f, p, hcurrent, hname⟩ := (h.active file.name).mp
      ((hscanned.active file.name).mpr ⟨file, hfile, rfl, .inl hsome⟩)
    obtain rfl := hcurrent.unique (mem_listing.mp hfile).1 hname.symm
    rw [hcurrent.info]
    rfl
  · intro name q hq
    by_cases hnew : ∃ file p, IsNew m repository directory s file p ∧ idOf p = (name, q.key)
    · obtain ⟨file, p, hnew, hid⟩ := hnew
      exact .inr ⟨file, p, hnew, (Prod.mk.inj hid).1, (Prod.mk.inj hid).2⟩
    · have hheld : s'.Held name q := by rw [held_iff, hscanned.absent hnew, held_iff.mp hq]
      exact .inl (h.held name q hheld).2
  · intro file p hcurrent _
    by_cases hnew : ∃ file' p', IsNew m repository directory s file' p' ∧
        idOf p' = (p.name, p.key)
    · obtain ⟨file', p', hnew, hid⟩ := hnew
      exact .inr ⟨file', p', hnew, (Prod.mk.inj hid).1, (Prod.mk.inj hid).2⟩
    · have hheld : (s'.version (p.name, p.key)).isSome := key_held_iff.mp (h.listed file p hcurrent)
      rw [hscanned.absent hnew] at hheld
      exact .inl (key_held_iff.mpr hheld)

section InStep

variable (hscanned : Scanned m repository directory s s') (h : InStep m repository directory s)

include hscanned h

/-- What is held after the scan is that of a new file, or was held before. -/
theorem current_of_held (hs : s.WellFormed) (hp : s'.Held name p) :
    p.name = name ∧ ∃ file, IsCurrent m repository directory file p := by
  rw [held_iff] at hp
  by_cases hnew : ∃ file q, IsNew m repository directory s file q ∧ idOf q = (name, p.key)
  · obtain ⟨file, q, hisNew, hid, hq⟩ := hscanned.present hnew
    obtain rfl := Option.some.inj (hq.symm.trans hp)
    exact ⟨(Prod.mk.inj hid).1, file, hisNew.current⟩
  · rw [hscanned.absent hnew, ← held_iff] at hp
    refine ⟨hs.named name p hp, ?_⟩
    rcases h.held_current name p hp with hcurrent | ⟨file, q, hq, hname, hkey⟩
    · exact hcurrent
    · exact absurd ⟨file, q, hq, Prod.ext hname hkey⟩ hnew

theorem held_of_current (hcurrent : IsCurrent m repository directory file p) :
    ∃ q, s'.Held p.name q ∧ q.key = p.key := by
  rw [key_held_iff]
  by_cases hnew : ∃ file' q, IsNew m repository directory s file' q ∧ idOf q = (p.name, p.key)
  · obtain ⟨-, q, -, -, hq⟩ := hscanned.present hnew
    rw [hq]
    rfl
  · rw [hscanned.absent hnew]
    have hold : (s.activeFileMap.get file.name).isSome := by
      by_contra hinactive
      have hisNew : IsNew m repository directory s file p :=
        ⟨hcurrent, h.not_invalid file p hcurrent, by simpa using hinactive⟩
      exact hnew ⟨file, p, hisNew, rfl⟩
    rcases h.active_held file p hcurrent hold with hq | ⟨file', q, hq, hname, hkey⟩
    · exact key_held_iff.mp hq
    · exact absurd ⟨file', q, hq, Prod.ext hname hkey⟩ hnew

theorem active_iff_current : (s'.activeFileMap.get name).isSome ↔
    ∃ file p, IsCurrent m repository directory file p ∧ file.name = name := by
  rw [hscanned.active]
  constructor
  · rintro ⟨file, hfile, rfl, hkind⟩
    have hinfo : (validInfo m repository file).isSome := by
      rcases hkind with hsome | hinfo
      · exact h.still_valid file hfile hsome
      · exact hinfo
    obtain ⟨p, hp⟩ := Option.isSome_iff_exists.mp hinfo
    obtain ⟨hmem, hzip, hmode, -⟩ := mem_listing.mp hfile
    exact ⟨file, p, ⟨hmem, hzip, hmode, hp⟩, rfl⟩
  · rintro ⟨file, p, hcurrent, rfl⟩
    have hfile : file ∈ listing repository s directory := mem_listing.mpr
      ⟨hcurrent.mem, hcurrent.zip, hcurrent.mode, h.not_invalid file p hcurrent⟩
    exact ⟨file, hfile, rfl, .inr (by rw [hcurrent.info]; rfl)⟩

theorem synced_of_inStep (hs : s.WellFormed) (hs' : s'.WellFormed) :
    Synced m repository directory s' := by
  refine ⟨fun name p hp => current_of_held hscanned h hs hp,
    fun file p hcurrent => held_of_current hscanned h hcurrent, fun name => ?_,
    fun name => active_iff_current hscanned h⟩
  constructor
  · intro hsome
    obtain ⟨w, hw⟩ := Option.isSome_iff_exists.mp hsome
    obtain ⟨p, hp⟩ := List.exists_mem_of_ne_nil _ (hs'.noneEmpty name w hw)
    obtain ⟨hname, file, hcurrent⟩ := current_of_held hscanned h hs ⟨w, hw, hp⟩
    exact ⟨file, p, hcurrent, hname⟩
  · rintro ⟨file, p, hcurrent, rfl⟩
    obtain ⟨q, ⟨w, hw, -⟩, -⟩ := held_of_current hscanned h hcurrent
    rw [hw]
    rfl

end InStep

/-- One scan of a well-formed cache. -/
theorem scanRight_iff (hs : s.WellFormed) {c : UpdateCall B} (hdue : s.isDue c.currentTime = true) :
    ScanRight m repository P s c ↔ InStep m repository c.directory s := by
  by_cases hopens : ∀ file ∈ listing repository s c.directory, Opens m repository file
  · obtain ⟨s', hupdate, hs', hscanned⟩ := update_ok c.finished hdue hs hopens
      (P := P) (o := c.order)
    unfold ScanRight
    rw [hupdate]
    constructor
    · rintro ⟨-, hsynced⟩
      exact inStep_of_synced hopens hscanned hsynced
    · intro hinStep
      exact ⟨rfl, synced_of_inStep hscanned hinStep hs hs'⟩
  · constructor
    · rintro ⟨hnone, -⟩
      push Not at hopens
      obtain ⟨file, hfile, hthrows⟩ := hopens
      exact absurd hnone (update_threw c.finished hdue hfile hthrows)
    · intro hinStep
      exact absurd hinStep.opens hopens

/-- Over all histories of a directory. -/
theorem scans_right_iff (m : Marshallers B) (repository : RepositoryImpl) (P : Parsers V)
    (calls : List (UpdateCall B)) :
    (∀ pre c post s, calls = pre ++ c :: post → Run (Step m repository P) empty pre s →
      s.isDue c.currentTime = true → ScanRight m repository P s c) ↔
    ∀ pre c post s, calls = pre ++ c :: post → Run (Step m repository P) empty pre s →
      s.isDue c.currentTime = true → InStep m repository c.directory s := by
  have hwellFormed : ∀ {pre s}, Run (Step m repository P) empty pre s → s.WellFormed := by
    intro pre s hrun
    refine Run.inv (P := fun _ s => s.WellFormed) wellFormed_empty ?_ hrun
    rintro - t c - ht rfl
    exact ht.update c.finished
  constructor
  · intro h pre c post s hcalls hrun hdue
    exact (scanRight_iff (hwellFormed hrun) hdue).mp (h pre c post s hcalls hrun hdue)
  · intro h pre c post s hcalls hrun hdue
    exact (scanRight_iff (hwellFormed hrun) hdue).mpr (h pre c post s hcalls hrun hdue)

section Example

/-- The only file of the directory is removed after the first scan. -/
def vanishing : List (UpdateCall Unit) :=
  [⟨nightlyDirectory, .asListed, 0, 0⟩, ⟨.empty, .asListed, 20000, 20000⟩]

theorem not_scansRight_vanishing : ¬ ∀ pre c post s, vanishing = pre ++ c :: post →
    Run (Step nightlyMarshallers nightlies nightlyParsers) empty pre s →
      s.isDue c.currentTime = true → ScanRight nightlyMarshallers nightlies nightlyParsers s c := by
  intro h
  obtain ⟨-, hsynced⟩ := h [⟨nightlyDirectory, .asListed, 0, 0⟩] ⟨.empty, .asListed, 20000, 20000⟩ []
    scanned rfl (Run.single rfl) (by decide +kernel)
  have hversion : (update nightlyMarshallers nightlies nightlyParsers .asListed .empty 20000 20000
      scanned).1.version ("demo", nightly.key) = some nightly := by decide +kernel
  obtain ⟨-, file, hcurrent⟩ := hsynced.held "demo" nightly (held_iff.mpr hversion)
  exact Keyed.not_mem_empty hcurrent.mem

end Example

end Cache
end Repository
end AppNG
