import AppNG.Packages.Install
import Mathlib.Logic.Function.Basic

/-!
# Packages.Update

An installed application is replaced by a new archive of it: `CoreService.provideApplication`.

The old resources are deleted before the archive is read. A database transaction gives the records
back when something fails later on, but not the files.

* `provideApplication_iff`: when a failed update leaves the old resources, and when a successful one
  leaves exactly those of the archive.
-/

namespace AppNG
namespace Packages
namespace Update

open FilePath Loop

variable {B : Type}

/-! ## Reading and writing -/

/-- How the writing of a file ends. -/
inductive Written (B : Type) where
  | done
  | notCreated
  /-- the file has other contents than it should -/
  | torn (bytes : B)

/-- What succeeds of the things that can fail; entries and resources are counted from zero. -/
structure Environment (B : Type) where
  opens : Bool
  reads : Nat → Bool
  writes : Nat → Written B
  saves : Nat → Bool

structure Application where
  fileBased : Bool
  /-- the folder below which the files of the application are -/
  folder : List String

structure PackageArchive (B : Type) where
  isValid : Bool
  entries : List (ZipArchiveEntry B)

/-- The files, and the resources that are stored for the application. -/
structure State (B : Type) where
  files : List String → Option B
  records : List (Resource B)

/-- `ApplicationArchiveProcessor.process`, from the `n`-th entry on. -/
def processFrom (windows : Platform) (reads : Nat → Bool) :
    Nat → List (ZipArchiveEntry B) → Option (List (Resource B))
  | _, [] => some []
  | n, entry :: entries =>
    if entry.isDirectory then processFrom windows reads (n + 1) entries
    else
      match add windows entry with
      | none => none
      | some none => processFrom windows reads (n + 1) entries
      | some (some resource) =>
        if reads n then (processFrom windows reads (n + 1) entries).map (resource :: ·) else none

def processZipFile (windows : Platform) (env : Environment B) (archive : PackageArchive B) :
    Option (List (Resource B)) :=
  if env.opens then processFrom windows env.reads 0 archive.entries else none

def file (windows : Platform) (outputDir : List String) (resource : Resource B) : List String :=
  resolve outputDir (resource.outputPath windows)

def writeFile (windows : Platform) (env : Environment B) (outputDir : List String)
    (files : List String → Option B) (resource : Resource B × Nat) :
    (List String → Option B) × Option Unit :=
  let outputFile := file windows outputDir resource.1
  match env.writes resource.2 with
  | .done => (Function.update files outputFile (some resource.1.bytes), none)
  | .notCreated => (files, some ())
  | .torn bytes => (Function.update files outputFile (some bytes), some ())

def save (env : Environment B) (records : List (Resource B)) (resource : Resource B × Nat) :
    List (Resource B) × Option Unit :=
  if env.saves resource.2 then (records ++ [resource.1], none) else (records, some ())

def writeApplicationResources (windows : Platform) (env : Environment B) (application : Application)
    (resources : List (Resource B)) (s : State B) : State B × Option Unit :=
  if application.fileBased then
    let (files, threw) :=
      foldUntil (writeFile windows env application.folder) s.files resources.zipIdx
    ({ s with files }, threw)
  else
    let (records, threw) := foldUntil (save env) s.records resources.zipIdx
    ({ s with records }, threw)

def deleteApplicationResources (application : Application) (s : State B) : State B :=
  if application.fileBased then
    { s with files := fun path => if application.folder <+: path then none else s.files path }
  else { s with records := [] }

def updateApplicationFromArchive (windows : Platform) (env : Environment B)
    (application : Application) (archive : PackageArchive B) (s : State B) :
    State B × Option Unit :=
  if archive.isValid then
    let deleted := deleteApplicationResources application s
    match processZipFile windows env archive with
    | none => (deleted, some ())
    | some resources => writeApplicationResources windows env application resources deleted
  else (s, some ())

/-- An exception rolls the database back. -/
def provideApplication (windows : Platform) (env : Environment B) (application : Application)
    (archive : PackageArchive B) (s : State B) : State B × Option Unit :=
  match updateApplicationFromArchive windows env application archive s with
  | (updated, none) => (updated, none)
  | (updated, some ()) => ({ updated with records := s.records }, some ())

/-! ## What is promised -/

/-- A failed update leaves the files of the application and its records. -/
def KeepsOnFailure (windows : Platform) (application : Application) (archive : PackageArchive B)
    (s : State B) : Prop :=
  ∀ env updated, provideApplication windows env application archive s = (updated, some ()) →
    updated.records = s.records ∧
      ∀ path, application.folder <+: path → updated.files path = s.files path

/-- The resources of the application are these. -/
def Holds (windows : Platform) (application : Application) (resources : List (Resource B))
    (s : State B) : Prop :=
  if application.fileBased then
    ∀ path bytes, application.folder <+: path ∧ s.files path = some bytes ↔
      ∃ resource ∈ resources, file windows application.folder resource = path ∧
        resource.bytes = bytes
  else s.records = resources

/-- A successful update leaves the resources of the archive and no others. -/
def ExactOnSuccess (windows : Platform) (application : Application) (archive : PackageArchive B)
    (s : State B) : Prop :=
  ∀ env updated, provideApplication windows env application archive s = (updated, none) →
    ∃ resources, process windows archive.entries = some resources ∧
      Holds windows application resources updated

/-- Neither is there a file to lose nor one to be left behind. -/
def NothingToLose (windows : Platform) (application : Application) (archive : PackageArchive B)
    (s : State B) : Prop :=
  (∀ path, application.folder <+: path → s.files path = none) ∧
    ∀ resources, process windows archive.entries = some resources → ∀ resource ∈ resources,
      ¬ application.folder <+: file windows application.folder resource

/-- Every resource has a file of its own in the folder. -/
def OwnFiles (windows : Platform) (application : Application) (archive : PackageArchive B) : Prop :=
  ∀ resources, process windows archive.entries = some resources →
    (∀ resource ∈ resources, application.folder <+: file windows application.folder resource) ∧
      ∀ a ∈ resources, ∀ b ∈ resources,
        file windows application.folder a = file windows application.folder b → a.bytes = b.bytes

/-! ## Reading -/

variable {windows : Platform} {env : Environment B} {application : Application}
  {archive : PackageArchive B} {s updated : State B} {resources : List (Resource B)}

/-- What is read is what the archive holds. -/
theorem process_of_processFrom {reads : Nat → Bool} :
    ∀ {entries : List (ZipArchiveEntry B)} {n : Nat} {resources : List (Resource B)},
      processFrom windows reads n entries = some resources →
        process windows entries = some resources := by
  intro entries
  induction entries with
  | nil => exact fun h => h
  | cons entry entries ih =>
    intro n resources h
    rw [processFrom] at h
    rw [process]
    cases hdir : entry.isDirectory with
    | true =>
      rw [hdir, if_pos rfl] at h
      exact ih h
    | false =>
      rw [hdir, if_neg (by simp)] at h
      rw [if_neg (by simp)]
      cases hadd : add windows entry with
      | none => rw [hadd] at h; cases h
      | some added =>
        rw [hadd] at h
        cases added with
        | none => simp [ih h]
        | some resource =>
          simp only [Option.ite_none_right_eq_some, Option.map_eq_some_iff] at h
          obtain ⟨-, rest, hrest, rfl⟩ := h
          simp [ih hrest]

theorem process_of_processZipFile (h : processZipFile windows env archive = some resources) :
    process windows archive.entries = some resources := by
  unfold processZipFile at h
  split at h
  · exact process_of_processFrom h
  · cases h

theorem processFrom_of_process :
    ∀ {entries : List (ZipArchiveEntry B)} {n : Nat} {resources : List (Resource B)},
      process windows entries = some resources →
        processFrom windows (fun _ => true) n entries = some resources := by
  intro entries
  induction entries with
  | nil => exact fun h => h
  | cons entry entries ih =>
    intro n resources h
    rw [process] at h
    rw [processFrom]
    cases hdir : entry.isDirectory with
    | true =>
      rw [hdir, if_pos rfl] at h
      exact ih h
    | false =>
      rw [hdir, if_neg (by simp)] at h
      rw [if_neg (by simp)]
      cases hadd : add windows entry with
      | none => rw [hadd] at h; cases h
      | some added =>
        rw [hadd] at h
        simp only [Option.map_eq_some_iff] at h
        obtain ⟨rest, hrest, rfl⟩ := h
        cases added with
        | none => simp [ih hrest]
        | some resource => simp [ih hrest]

/-! ## Writing -/

section Files

variable {outputDir path : List String} {files : List String → Option B} {resource : Resource B}

/-- The files, when all resources were written. -/
def written (windows : Platform) (outputDir : List String) (files : List String → Option B)
    (resources : List (Resource B)) : List String → Option B :=
  resources.foldl (fun files resource =>
    Function.update files (file windows outputDir resource) (some resource.bytes)) files

theorem written_append : written windows outputDir files (resources ++ [resource]) =
    Function.update (written windows outputDir files resources) (file windows outputDir resource)
      (some resource.bytes) := by
  simp [written]

theorem written_absent
    (h : ∀ resource ∈ resources, file windows outputDir resource ≠ path) :
    written windows outputDir files resources path = files path := by
  induction resources using List.reverseRecOn with
  | nil => rfl
  | append_singleton resources last ih =>
    have hlast : path ≠ file windows outputDir last := (h last (by simp)).symm
    rw [written_append, Function.update_of_ne hlast]
    exact ih fun resource hmem => h resource (List.mem_append_left _ hmem)

theorem written_present (files : List String → Option B)
    (h : ∃ resource ∈ resources, file windows outputDir resource = path) :
    ∃ resource ∈ resources, file windows outputDir resource = path ∧
      written windows outputDir files resources path = some resource.bytes := by
  induction resources using List.reverseRecOn with
  | nil => simp at h
  | append_singleton resources last ih =>
    rw [written_append]
    by_cases hlast : file windows outputDir last = path
    · exact ⟨last, by simp, hlast, by rw [← hlast, Function.update_self]⟩
    · obtain ⟨resource, hmem, hpath⟩ := h
      have hearlier : resource ∈ resources := by
        rcases List.mem_append.mp hmem with hmem | hmem
        · exact hmem
        · exact absurd (List.mem_singleton.mp hmem ▸ hpath) hlast
      obtain ⟨other, hother, hfile, hbytes⟩ := ih ⟨resource, hearlier, hpath⟩
      refine ⟨other, List.mem_append_left _ hother, hfile, ?_⟩
      rw [Function.update_of_ne (Ne.symm hlast), hbytes]

theorem writeFiles_ok {xs : List (Resource B × Nat)} {files' : List String → Option B} :
    foldUntil (writeFile windows env outputDir) files xs = (files', none) →
      files' = written windows outputDir files (xs.map Prod.fst) := by
  induction xs generalizing files with
  | nil => intro h; cases h; rfl
  | cons x xs ih =>
    intro h
    cases hwrite : env.writes x.2 with
    | done =>
      rw [foldUntil_cons_ok (by rw [writeFile, hwrite])] at h
      exact ih h
    | notCreated => rw [foldUntil_cons_threw (by rw [writeFile, hwrite])] at h; cases h
    | torn bytes => rw [foldUntil_cons_threw (by rw [writeFile, hwrite])] at h; cases h

theorem writeFiles_done {xs : List (Resource B × Nat)} (h : ∀ x ∈ xs, env.writes x.2 = .done) :
    foldUntil (writeFile windows env outputDir) files xs =
      (written windows outputDir files (xs.map Prod.fst), none) := by
  induction xs generalizing files with
  | nil => rfl
  | cons x xs ih =>
    obtain ⟨hx, hxs⟩ := List.forall_mem_cons.mp h
    rw [foldUntil_cons_ok (by rw [writeFile, hx]), ih hxs]
    rfl

/-- Other files stay as they are, however the writing ends. -/
theorem writeFiles_other {xs : List (Resource B × Nat)}
    (h : ∀ x ∈ xs, file windows outputDir x.1 ≠ path) :
    (foldUntil (writeFile windows env outputDir) files xs).1 path = files path := by
  refine foldUntil_inv (P := fun files' : List String → Option B => files' path = files path) ?_ rfl
  intro files' x hx hsame
  have hne : path ≠ file windows outputDir x.1 := (h x hx).symm
  unfold writeFile
  cases env.writes x.2 with
  | done => exact (Function.update_of_ne hne _ _).trans hsame
  | notCreated => exact hsame
  | torn bytes => exact (Function.update_of_ne hne _ _).trans hsame

theorem save_ok {xs : List (Resource B × Nat)} {records records' : List (Resource B)}
    (h : foldUntil (save env) records xs = (records', none)) :
    records' = records ++ xs.map Prod.fst := by
  have hstep : ∀ records records' (x : Resource B × Nat), save env records x = (records', none) →
      records' = records ++ [x.1] := by
    intro records records' x hsave
    unfold save at hsave
    split at hsave
    · exact (Prod.mk.inj hsave).1.symm
    · cases hsave
  rw [foldUntil_collect (m := fun records => records) hstep h, List.map_eq_flatMap]

end Files

/-- The files of resources hold them, and no others do, if each has one of its own. -/
theorem written_iff {folder : List String} {files : List String → Option B}
    (h : ∀ path, folder <+: path → files path = none) :
    (∀ path bytes, folder <+: path ∧ written windows folder files resources path = some bytes ↔
        ∃ resource ∈ resources, file windows folder resource = path ∧ resource.bytes = bytes) ↔
      (∀ resource ∈ resources, folder <+: file windows folder resource) ∧
        ∀ a ∈ resources, ∀ b ∈ resources,
          file windows folder a = file windows folder b → a.bytes = b.bytes := by
  constructor
  · intro hexact
    have hfile : ∀ resource ∈ resources, folder <+: file windows folder resource ∧
        written windows folder files resources (file windows folder resource) =
          some resource.bytes :=
      fun resource hmem => (hexact _ _).mpr ⟨resource, hmem, rfl, rfl⟩
    refine ⟨fun resource hmem => (hfile resource hmem).1, fun a ha b hb heq => ?_⟩
    have hbytes := (hfile a ha).2
    rw [heq, (hfile b hb).2] at hbytes
    exact (Option.some.inj hbytes).symm
  · rintro ⟨hbelow, hown⟩ path bytes
    constructor
    · rintro ⟨hpath, hbytes⟩
      by_cases hmem : ∃ resource ∈ resources, file windows folder resource = path
      · obtain ⟨resource, hresource, hfile, hwritten⟩ := written_present files hmem
        exact ⟨resource, hresource, hfile, Option.some.inj (hwritten.symm.trans hbytes)⟩
      · rw [written_absent fun resource hresource hfile => hmem ⟨resource, hresource, hfile⟩,
          h path hpath] at hbytes
        cases hbytes
    · rintro ⟨resource, hresource, rfl, rfl⟩
      obtain ⟨other, hother, hfile, hwritten⟩ :=
        written_present files ⟨resource, hresource, rfl⟩
      rw [hwritten, hown other hother resource hresource hfile]
      exact ⟨hbelow resource hresource, rfl⟩

/-! ## Updates -/

/-- Nothing fails. -/
def smooth : Environment B := ⟨true, fun _ => true, fun _ => .done, fun _ => true⟩

theorem provideApplication_updated :
    provideApplication windows env application archive s = (updated, none) ↔
      archive.isValid = true ∧ ∃ resources, processZipFile windows env archive = some resources ∧
        writeApplicationResources windows env application resources
          (deleteApplicationResources application s) = (updated, none) := by
  unfold provideApplication updateApplicationFromArchive
  cases archive.isValid with
  | false => simp
  | true =>
    cases hread : processZipFile windows env archive with
    | none => simp
    | some resources =>
      simp only [if_true, true_and, Option.some.injEq, exists_eq_left']
      cases hwrite : writeApplicationResources windows env application resources
          (deleteApplicationResources application s) with
      | mk t threw => cases threw <;> simp

theorem provideApplication_records
    (h : provideApplication windows env application archive s = (updated, some ())) :
    updated.records = s.records := by
  unfold provideApplication at h
  split at h <;> cases h
  rfl

theorem deleted_files (h : application.fileBased = true) {path : List String}
    (hpath : application.folder <+: path) :
    (deleteApplicationResources application s).files path = none := by
  simp [deleteApplicationResources, h, hpath]

theorem provideApplication_fst_files :
    (provideApplication windows env application archive s).1.files =
      (updateApplicationFromArchive windows env application archive s).1.files := by
  unfold provideApplication
  split <;> simp_all

/-- A database-based application has no files to lose. -/
theorem provideApplication_files (h : application.fileBased = false) :
    (provideApplication windows env application archive s).1.files = s.files := by
  have hdeleted : (deleteApplicationResources application s).files = s.files := by
    simp [deleteApplicationResources, h]
  rw [provideApplication_fst_files, updateApplicationFromArchive]
  cases archive.isValid with
  | false => rfl
  | true =>
    cases hread : processZipFile windows env archive with
    | none => exact hdeleted
    | some resources => simpa [writeApplicationResources, h] using hdeleted

/-- What a file-based application has for files when its update fails. -/
theorem provideApplication_failed (h : application.fileBased = true)
    (hvalid : archive.isValid = true) {path : List String} (hpath : application.folder <+: path)
    (hnone : ∀ resources, process windows archive.entries = some resources →
      ∀ resource ∈ resources, file windows application.folder resource ≠ path) :
    (provideApplication windows env application archive s).1.files path = none := by
  rw [provideApplication_fst_files, updateApplicationFromArchive, if_pos hvalid]
  cases hread : processZipFile windows env archive with
  | none => exact deleted_files h hpath
  | some resources =>
    have hprocess := process_of_processZipFile hread
    simp only [writeApplicationResources, h, if_true]
    rw [writeFiles_other fun x hx => hnone resources hprocess x.1 ?_]
    · exact deleted_files h hpath
    · exact List.fst_mem_of_mem_zipIdx hx

/-- The archive can not be opened, and the old files are deleted by then. -/
theorem provideApplication_unopened (h : application.fileBased = true)
    (hvalid : archive.isValid = true) {path : List String} (hpath : application.folder <+: path) :
    ∃ env updated, provideApplication windows env application archive s = (updated, some ()) ∧
      updated.files path = none := by
  refine ⟨{ smooth with opens := false },
    { deleteApplicationResources application s with records := s.records }, ?_, deleted_files h hpath⟩
  simp [provideApplication, updateApplicationFromArchive, hvalid, processZipFile]

theorem smooth_processZipFile (h : process windows archive.entries = some resources)
    (hopens : env.opens = true) (hreads : env.reads = fun _ => true) :
    processZipFile windows env archive = some resources := by
  rw [processZipFile, if_pos hopens, hreads]
  exact processFrom_of_process h

/-- A file is left with the contents of a resource whose writing fails at the end. -/
theorem provideApplication_torn (h : application.fileBased = true)
    (hvalid : archive.isValid = true) {resource : Resource B} (hmem : resource ∈ resources)
    (hprocess : process windows archive.entries = some resources) :
    ∃ env updated, provideApplication windows env application archive s = (updated, some ()) ∧
      updated.files (file windows application.folder resource) = some resource.bytes := by
  obtain ⟨before, after, rfl⟩ := List.append_of_mem hmem
  let env : Environment B :=
    { (smooth : Environment B) with
      writes := fun n => if n < before.length then .done else .torn resource.bytes }
  let deleted := deleteApplicationResources application s
  let files := Function.update (written windows application.folder deleted.files before)
    (file windows application.folder resource) (some resource.bytes)
  have hbefore : ∀ x ∈ before.zipIdx, env.writes x.2 = .done := by
    intro x hx
    exact if_pos (List.snd_lt_of_mem_zipIdx hx)
  have hwrite : foldUntil (writeFile windows env application.folder) deleted.files
      (before ++ resource :: after).zipIdx = (files, some ()) := by
    rw [List.zipIdx_append, List.zipIdx_cons, foldUntil_append_ok (writeFiles_done hbefore),
      List.zipIdx_map_fst]
    refine foldUntil_cons_threw ?_
    simp [writeFile, env, files]
  refine ⟨env, { deleted with files, records := s.records }, ?_, ?_⟩
  · have hread : processZipFile windows env archive = some (before ++ resource :: after) :=
      smooth_processZipFile hprocess rfl rfl
    simp only [provideApplication, updateApplicationFromArchive, if_pos hvalid, hread,
      writeApplicationResources, if_pos h]
    rw [hwrite]
  · exact Function.update_self ..

theorem keepsOnFailure_iff :
    KeepsOnFailure windows application archive s ↔ archive.isValid = false ∨
      application.fileBased = false ∨ NothingToLose windows application archive s := by
  constructor
  · intro hkeeps
    by_contra hcontra
    simp only [not_or, Bool.not_eq_false] at hcontra
    obtain ⟨hvalid, hfiles, hlose⟩ := hcontra
    have hempty : ∀ path, application.folder <+: path → s.files path = none := by
      intro path hpath
      obtain ⟨env, updated, hfailed, hnone⟩ :=
        provideApplication_unopened (s := s) hfiles hvalid hpath
      rw [← (hkeeps env updated hfailed).2 path hpath, hnone]
    refine hlose ⟨hempty, fun resources hprocess resource hmem hpath => ?_⟩
    obtain ⟨env, updated, hfailed, hsome⟩ :=
      provideApplication_torn (s := s) hfiles hvalid hmem hprocess
    rw [(hkeeps env updated hfailed).2 _ hpath, hempty _ hpath] at hsome
    cases hsome
  · intro hcondition env updated hfailed
    refine ⟨provideApplication_records hfailed, fun path hpath => ?_⟩
    have hupdated : (provideApplication windows env application archive s).1 = updated :=
      congrArg Prod.fst hfailed
    rw [← hupdated]
    cases hvalid : archive.isValid with
    | false => simp [provideApplication_fst_files, updateApplicationFromArchive, hvalid]
    | true =>
      cases hfiles : application.fileBased with
      | false => rw [provideApplication_files hfiles]
      | true =>
        obtain ⟨hempty, hbelow⟩ : NothingToLose windows application archive s := by
          simpa [hvalid, hfiles] using hcondition
        rw [hempty path hpath]
        refine provideApplication_failed hfiles hvalid hpath ?_
        rintro resources hprocess resource hmem rfl
        exact hbelow resources hprocess resource hmem hpath

theorem exactOnSuccess_iff :
    ExactOnSuccess windows application archive s ↔ archive.isValid = false ∨
      application.fileBased = false ∨ OwnFiles windows application archive := by
  have hdeleted : application.fileBased = true → ∀ path, application.folder <+: path →
      (deleteApplicationResources application s).files path = none :=
    fun hfiles path hpath => deleted_files hfiles hpath
  constructor
  · intro hexact
    by_contra hcontra
    simp only [not_or, Bool.not_eq_false] at hcontra
    obtain ⟨hvalid, hfiles, hown⟩ := hcontra
    refine hown fun resources hprocess => ?_
    let deleted := deleteApplicationResources application s
    let updated : State B :=
      { deleted with files := written windows application.folder deleted.files resources }
    have hupdated : provideApplication windows smooth application archive s = (updated, none) := by
      refine provideApplication_updated.mpr
        ⟨hvalid, resources, smooth_processZipFile hprocess rfl rfl, ?_⟩
      rw [writeApplicationResources, if_pos hfiles, writeFiles_done fun _ _ => rfl,
        List.zipIdx_map_fst]
    obtain ⟨resources', hprocess', hholds⟩ := hexact smooth updated hupdated
    obtain rfl := Option.some.inj (hprocess.symm.trans hprocess')
    rw [Holds, if_pos hfiles] at hholds
    exact (written_iff (hdeleted hfiles)).mp hholds
  · intro hcondition env updated hupdated
    obtain ⟨hvalid, resources, hread, hwrite⟩ := provideApplication_updated.mp hupdated
    have hprocess := process_of_processZipFile hread
    refine ⟨resources, hprocess, ?_⟩
    unfold writeApplicationResources at hwrite
    unfold Holds
    cases hfiles : application.fileBased with
    | false =>
      rw [hfiles] at hwrite
      simp only [Bool.false_eq_true, if_false, Prod.mk.injEq] at hwrite ⊢
      obtain ⟨rfl, hnone⟩ := hwrite
      have hrecords := save_ok (Prod.ext rfl hnone)
      rw [List.zipIdx_map_fst] at hrecords
      simpa [deleteApplicationResources, hfiles] using hrecords
    | true =>
      rw [hfiles] at hwrite
      simp only [if_true, Prod.mk.injEq] at hwrite ⊢
      obtain ⟨rfl, hnone⟩ := hwrite
      have hwritten := writeFiles_ok (Prod.ext rfl hnone)
      rw [List.zipIdx_map_fst] at hwritten
      have hown : OwnFiles windows application archive := by
        simpa [hvalid, hfiles] using hcondition
      simp only [hwritten]
      exact (written_iff (hdeleted hfiles)).mpr (hown resources hprocess)

/-- When an update keeps the resources it can not replace, and has those it can. -/
theorem provideApplication_iff (windows : Platform) (application : Application)
    (archive : PackageArchive B) (s : State B) :
    (KeepsOnFailure windows application archive s ↔ archive.isValid = false ∨
      application.fileBased = false ∨ NothingToLose windows application archive s) ∧
    (ExactOnSuccess windows application archive s ↔ archive.isValid = false ∨
      application.fileBased = false ∨ OwnFiles windows application archive) :=
  ⟨keepsOnFailure_iff, exactOnSuccess_iff⟩

section Example

def demo : Application := ⟨true, ["applications", "demo"]⟩

/-- A page of the application, which is in the old version and in the new one. -/
def demoArchive : PackageArchive String :=
  ⟨true, [⟨"application.xml", "<application/>"⟩, ⟨"conf/page.xml", "new"⟩]⟩

def installed : State String where
  files path := if path = ["applications", "demo", "conf", "page.xml"] then some "old" else none
  records := []

/-- The new archive can not be opened; the old page is gone. -/
theorem page_lost : ¬ KeepsOnFailure false demo demoArchive installed := by
  intro h
  obtain ⟨-, hfiles⟩ := h { (smooth : Environment String) with opens := false } _ rfl
  have hpage := hfiles ["applications", "demo", "conf", "page.xml"] (by decide +kernel)
  exact absurd hpage (by decide +kernel)

end Example

end Update
end Packages
end AppNG
