import AppNG.Packages.Install

/-!
# Packages.Confinement

Where the files of an archive end up.

A path with `..` in it leads out of the directory it is written for only if the directories it passes
are there. Those outside may be. Those inside were deleted with everything else, so one of the files
up to this one has to be put in them or below.

* `Reached.step`, `written_confined`: what is on the disk after files of an application were written
  tells that they could be written one after the other (`AllWritable`).
* `application_writes`: files of which this is true are written where the directories outside are
  there.
* `materialized_confined`, `template_writes`: the same for a template, where only the last of the
  files has to be writable (`LastWritable`).
* `applicationConfined_of_names`, `templateConfined_of_names`: names that go up nowhere from where they
  start are safe.
* `install_confined_iff`: the files of an archive stay in the directory they are written for, whatever
  is on the disk, if and only if no path that leads out of it can be written.
-/

namespace AppNG
namespace Packages

open FilePath Loop Disk

/-! ## Paths -/

abbrev Path := List (Segment String)

def place (path : Path) : List String := resolve [] path

def folder (path : Path) : List String := resolve [] path.dropLast

/-- The directories that have to be there when the file is opened. -/
def passes (windows : Platform) (path : Path) : List (List String) :=
  passed [] (systemPath windows path).dropLast

/-- The directories that are passed, and those that are made for the file. -/
def needs (windows : Platform) (path : Path) : List (List String) :=
  passes windows path ++ (folder path).inits

/-- The directory is the folder of one of the paths, or above one. -/
def MadeFor (paths : List Path) (d : List String) : Prop := ∃ path ∈ paths, d <+: folder path

/-- All of the files can be written one after the other, where there is nothing in `outputDir`. -/
structure AllWritable (windows : Platform) (outputDir : List String) (paths : List Path) : Prop where
  /-- the path ends in the name of the file -/
  names : ∀ path ∈ paths, endsInName (systemPath windows path) = true
  /-- no file is where one of them needs a directory -/
  free : ∀ path ∈ paths, ∀ other ∈ paths, place path ∉ needs windows other
  /-- a directory inside that is passed was made before -/
  made : ∀ before path after, paths = before ++ path :: after →
    ∀ d ∈ passes windows path, outputDir <+: d → MadeFor (before ++ [path]) d

/-- The last one of the files can be written, whether or not those before are. -/
structure LastWritable (windows : Platform) (outputDir : List String) (before : List Path)
    (path : Path) : Prop where
  name : endsInName (systemPath windows path) = true
  free : place path ∉ passes windows path
  made : ∀ d ∈ passes windows path, outputDir <+: d → MadeFor (before ++ [path]) d

/-- The resources that the entries of an archive become. -/
def takenOver (windows : Platform) (archive : List (ZipArchiveEntry B)) : List (Resource B) :=
  (fileEntries archive).filterMap fun entry => (add windows entry).join

/-- A path that leads out can not be written, or one before it can not; or the whole archive is given
up. -/
def ApplicationConfined (windows : Platform) (outputDir : List String)
    (archive : List (ZipArchiveEntry B)) : Prop :=
  (∃ entry ∈ fileEntries archive, add windows entry = none) ∨
    ∀ before path after,
      (takenOver windows archive).map (·.outputFile windows outputDir) = before ++ path :: after →
        AllWritable windows outputDir (before ++ [path]) → outputDir <+: place path

def TemplateConfined (windows : Platform) (unmarshall : B → Option T)
    (templateTargetDir : List String) (archive : List (ZipArchiveEntry B)) : Prop :=
  ¬ HasDescriptor unmarshall archive ∨
    ∀ before path after,
      (fileEntries archive).map (fun entry => newFile windows templateTargetDir (afterSlash entry.name)) =
        before ++ path :: after →
          LastWritable windows templateTargetDir before path → templateTargetDir <+: place path

variable {B T : Type} {windows : Platform} {permissions : Permissions String}
  {outputDir d e : List String} {path other : Path} {paths done rest : List Path}
  {output output' : Output}

theorem mem_needs : d ∈ needs windows path ↔ d ∈ passes windows path ∨ d <+: folder path := by
  simp [needs]

theorem MadeFor.mono (h : MadeFor done d) : MadeFor (done ++ paths) d := by
  obtain ⟨path, hpath, hd⟩ := h
  exact ⟨path, List.mem_append_left _ hpath, hd⟩

theorem madeFor_concat : MadeFor (done ++ [path]) d ↔ MadeFor done d ∨ d <+: folder path := by
  simp [MadeFor, or_and_right, exists_or]

theorem needs_of_prefix (hd : d ∈ needs windows path) (he : e <+: d) : e ∈ needs windows path := by
  rw [mem_needs] at hd ⊢
  exact hd.imp (fun hd => passed_below hd he) he.trans

/-! ## One file -/

structure Opens (windows : Platform) (permissions : Permissions String) (disk : Disk String)
    (path : Path) : Prop where
  name : endsInName (systemPath windows path) = true
  passed : ∀ d ∈ passes windows path, d ∈ disk.directories
  write : permissions.write (place path) = true
  free : place path ∉ disk.directories

theorem opens_iff : Opens windows permissions output.disk path ↔
    (output.disk.createFile permissions (systemPath windows path)).isSome = true := by
  have hplace : resolve [] (systemPath windows path) = place path := resolve_systemPath windows
  unfold Disk.createFile
  split
  · rename_i h
    rw [hplace] at h
    exact iff_of_true ⟨h.1.1, isDirectory_iff.mp h.1.2.1, h.1.2.2, h.2⟩ rfl
  · rename_i h
    rw [hplace] at h
    exact iff_of_false
      (fun hopen => h ⟨⟨hopen.name, isDirectory_iff.mpr hopen.passed, hopen.write⟩, hopen.free⟩) Bool.false_ne_true

theorem copy_of_opens (h : Opens windows permissions output.disk path) :
    ∃ disk : Disk String, output.copy windows permissions path =
        ({ disk, written := output.written ++ [place path] }, none) ∧
      disk.directories = output.disk.directories ∧ disk.files = place path :: output.disk.files := by
  obtain ⟨disk, hdisk⟩ := Option.isSome_iff_exists.mp (opens_iff.mp h)
  obtain ⟨-, -, -, -, hdirs, hfiles⟩ := createFile_eq_some.mp hdisk
  rw [resolve_systemPath] at hfiles
  refine ⟨disk, ?_, hdirs, hfiles⟩
  rw [Output.copy, hdisk]
  rfl

theorem copy_of_not_opens (h : ¬ Opens windows permissions output.disk path) :
    output.copy windows permissions path = (output, some ()) := by
  have hnone : output.disk.createFile permissions (systemPath windows path) = none := by
    rw [← Option.not_isSome_iff_eq_none]
    exact fun hsome => h (opens_iff.mpr hsome)
  rw [Output.copy, hnone]

/-- The disk after the folder of a file was made. -/
def Output.foldered (windows : Platform) (permissions : Permissions String) (output : Output)
    (path : Path) : Output :=
  { output with disk := (output.disk.mkdirs permissions (systemPath windows path.dropLast)).1 }

theorem writeResource_eq : writeResource windows permissions output path =
    if (output.disk.forceMkdir permissions (systemPath windows path.dropLast)).2 then
      (output.foldered windows permissions path).copy windows permissions path
    else (output.foldered windows permissions path, some ()) := rfl

theorem materializeFile_eq : materializeFile windows permissions output path =
    ((output.foldered windows permissions path).copy windows permissions path).1 := rfl

@[simp] theorem foldered_written :
    (output.foldered windows permissions path).written = output.written := rfl

@[simp] theorem foldered_files :
    (output.foldered windows permissions path).disk.files = output.disk.files := mkdirs_files

theorem foldered_keeps (h : d ∈ output.disk.directories) :
    d ∈ (output.foldered windows permissions path).disk.directories := mkdirs_keeps h

theorem foldered_dirs (h : d ∈ (output.foldered windows permissions path).disk.directories) :
    d ∈ output.disk.directories ∨ d <+: folder path := by
  refine (mem_mkdirs h).imp_right fun hpre => ?_
  rwa [resolve_systemPath] at hpre

/-! ## Applications -/

/-- What is on the disk after the files of an application that are written so far. -/
structure Reached (windows : Platform) (outputDir : List String) (done : List Path)
    (disk : Disk String) : Prop where
  writable : AllWritable windows outputDir done
  dirs : ∀ d ∈ disk.directories, outputDir <+: d → MadeFor done d
  needed : ∀ path ∈ done, ∀ d ∈ needs windows path, d ∈ disk.directories
  places : ∀ path ∈ done, place path ∈ disk.files

theorem writeResource_ok (h : writeResource windows permissions output path = (output', none)) :
    let disk := (output.foldered windows permissions path).disk
    folder path ∈ disk.directories ∧ Opens windows permissions disk path ∧
      output'.disk.directories = disk.directories ∧
      output'.disk.files = place path :: output.disk.files ∧
      output'.written = output.written ++ [place path] := by
  intro disk
  rw [writeResource_eq] at h
  split at h
  · rename_i hmade
    have hfolder := mem_of_forceMkdir hmade
    rw [resolve_systemPath] at hfolder
    by_cases hopen : Opens windows permissions disk path
    · obtain ⟨disk', hcopy, hdirs, hfiles⟩ := copy_of_opens hopen
      rw [hcopy] at h
      cases h
      exact ⟨hfolder, hopen, hdirs, hfiles.trans (by rw [foldered_files]), rfl⟩
    · rw [copy_of_not_opens hopen] at h
      cases h
  · cases h

theorem writeResource_threw {e : Unit} (h : writeResource windows permissions output path = (output', some e)) :
    output'.written = output.written := by
  rw [writeResource_eq] at h
  split at h
  · by_cases hopen : Opens windows permissions (output.foldered windows permissions path).disk path
    · obtain ⟨disk, hcopy, -, -⟩ := copy_of_opens hopen
      rw [hcopy] at h
      cases h
    · rw [copy_of_not_opens hopen] at h
      cases h
      rfl
  · cases h
    rfl

/-- The step lemma. -/
theorem Reached.step (hr : Reached windows outputDir done output.disk)
    (h : writeResource windows permissions output path = (output', none)) :
    Reached windows outputDir (done ++ [path]) output'.disk := by
  obtain ⟨hfolder, hopen, hdirs, hfiles, -⟩ := writeResource_ok h
  have hkeep : ∀ d ∈ output.disk.directories, d ∈ output'.disk.directories := by
    intro d hd
    rw [hdirs]
    exact foldered_keeps hd
  have hneeds : ∀ d ∈ needs windows path, d ∈ output'.disk.directories := by
    intro d hd
    rw [hdirs]
    rcases mem_needs.mp hd with hd | hd
    · exact hopen.passed d hd
    · exact Disk.closed_prefix _ hfolder hd
  have hneeded : ∀ p ∈ done ++ [path], ∀ d ∈ needs windows p, d ∈ output'.disk.directories := by
    intro p hp d hd
    rcases List.mem_append.mp hp with hp | hp
    · exact hkeep d (hr.needed p hp d hd)
    · exact hneeds d (List.mem_singleton.mp hp ▸ hd)
  have hplaces : ∀ p ∈ done ++ [path], place p ∈ output'.disk.files := by
    intro p hp
    rw [hfiles]
    rcases List.mem_append.mp hp with hp | hp
    · exact List.mem_cons_of_mem _ (hr.places p hp)
    · exact List.mem_singleton.mp hp ▸ List.mem_cons_self
  have hinside : ∀ d ∈ output'.disk.directories, outputDir <+: d → MadeFor (done ++ [path]) d := by
    intro d hd hin
    rw [hdirs] at hd
    rw [madeFor_concat]
    exact (foldered_dirs hd).imp_left fun hd => hr.dirs d hd hin
  refine ⟨⟨?_, fun p hp other hother hmem => ?_, ?_⟩, hinside, hneeded, hplaces⟩
  · intro p hp
    rcases List.mem_append.mp hp with hp | hp
    · exact hr.writable.names p hp
    · exact List.mem_singleton.mp hp ▸ hopen.name
  · exact output'.disk.apart _ (hplaces p hp) (hneeded other hother _ hmem)
  · intro before p after heq d hd hin
    rcases List.eq_nil_or_concat after with rfl | ⟨init, last, rfl⟩
    · obtain ⟨rfl, hlast⟩ := List.append_inj' heq rfl
      cases hlast
      exact hinside d (hneeds d (mem_needs.mpr (.inl hd))) hin
    · rw [List.concat_eq_append, ← List.cons_append, ← List.append_assoc] at heq
      obtain ⟨rfl, -⟩ := List.append_inj' heq rfl
      exact hr.writable.made before p init rfl d hd hin

/-- What is written one after the other stays inside, if what can be written does. -/
theorem written_confined
    (hconfined : ∀ before path after, done ++ rest = before ++ path :: after →
      AllWritable windows outputDir (before ++ [path]) → outputDir <+: place path)
    (hr : Reached windows outputDir done output.disk)
    (hwritten : ∀ file ∈ output.written, outputDir <+: file) :
    ∀ file ∈ (foldUntil (writeResource windows permissions) output rest).1.written,
      outputDir <+: file := by
  induction rest generalizing done output with
  | nil => exact hwritten
  | cons path rest ih =>
    cases hstep : writeResource windows permissions output path with
    | mk output' threw =>
      cases threw with
      | some e =>
        rw [foldUntil_cons_threw hstep, writeResource_threw hstep]
        exact hwritten
      | none =>
        rw [foldUntil_cons_ok hstep]
        have hnext : Reached windows outputDir (done ++ [path]) output'.disk := hr.step hstep
        refine ih ?_ hnext ?_
        · intro before p after heq
          refine hconfined before p after ?_
          rw [← heq, List.append_assoc]
          rfl
        · intro file hfile
          rw [(writeResource_ok hstep).2.2.2.2] at hfile
          rcases List.mem_append.mp hfile with hfile | hfile
          · exact hwritten file hfile
          · rw [List.mem_singleton.mp hfile]
            exact hconfined done path rest rfl hnext.writable

def allPermitted : Permissions String where
  mkdir _ := true
  write _ := true

/-- Before the next of the files: the directories outside are there, and those that were made. -/
structure Ready (windows : Platform) (outputDir : List String) (paths done : List Path)
    (disk : Disk String) : Prop where
  outside : ∀ path ∈ paths, ∀ d ∈ needs windows path, ¬ outputDir <+: d → d ∈ disk.directories
  folders : ∀ d, MadeFor done d → d ∈ disk.directories
  dirs : ∀ d ∈ disk.directories, ∃ path ∈ paths, d ∈ needs windows path
  files : ∀ f ∈ disk.files, ∃ path ∈ paths, f = place path

theorem Ready.step (hall : AllWritable windows outputDir paths) (heq : paths = done ++ path :: rest)
    (hready : Ready windows outputDir paths done output.disk) :
    ∃ output', writeResource windows allPermitted output path = (output', none) ∧
      Ready windows outputDir paths (done ++ [path]) output'.disk := by
  have hpath : path ∈ paths := by simp [heq]
  have hfiles : ∀ d ∈ needs windows path, d ∉ output.disk.files := by
    intro d hd hfile
    obtain ⟨other, hother, rfl⟩ := hready.files d hfile
    exact hall.free other hother path hpath hd
  have hfolder : ∀ d, d <+: folder path → d ∉ output.disk.files := fun d hd =>
    hfiles d (mem_needs.mpr (.inr hd))
  -- a directory inside was made for one of the files before, or is made now
  have hneeded : ∀ d ∈ needs windows path, d ∈ output.disk.directories ∨ d <+: folder path := by
    intro d hd
    by_cases hin : outputDir <+: d
    · rcases mem_needs.mp hd with hpassed | hmade
      · exact (madeFor_concat.mp (hall.made done path rest heq d hpassed hin)).imp_left
          (hready.folders d)
      · exact .inr hmade
    · exact .inl (hready.outside path hpath d hd hin)
  have hmade : ∀ d, d <+: folder path →
      d ∈ (output.foldered windows allPermitted path).disk.directories := by
    intro d hd
    refine mkdirs_makes ?_ (fun c hc => hfolder c (hc.trans hd)) fun _ => rfl
    rwa [resolve_systemPath]
  have hforce : (output.disk.forceMkdir allPermitted (systemPath windows path.dropLast)).2 = true := by
    refine forceMkdir_succeeds ?_ (fun _ => rfl) ?_
    · rwa [resolve_systemPath]
    · intro d hd
      rw [resolve_systemPath]
      exact hneeded d (mem_needs.mpr (passed_parent hd))
  have hopen : Opens windows allPermitted (output.foldered windows allPermitted path).disk path := by
    refine ⟨hall.names path hpath, fun d hd => ?_, rfl, fun hmem => ?_⟩
    · rcases hneeded d (mem_needs.mpr (.inl hd)) with hd | hd
      · exact foldered_keeps hd
      · exact hmade d hd
    · rcases foldered_dirs hmem with hmem | hmem
      · obtain ⟨other, hother, hneeds⟩ := hready.dirs _ hmem
        exact hall.free path hpath other hother hneeds
      · exact hall.free path hpath path hpath (mem_needs.mpr (.inr hmem))
  obtain ⟨disk, hcopy, hdirs, hwritten⟩ := copy_of_opens hopen
  refine ⟨_, by rw [writeResource_eq, if_pos hforce, hcopy], ?_, ?_, ?_, ?_⟩
  · intro other hother d hd hout
    rw [hdirs]
    exact foldered_keeps (hready.outside other hother d hd hout)
  · intro d hd
    rw [hdirs]
    rcases madeFor_concat.mp hd with hd | hd
    · exact foldered_keeps (hready.folders d hd)
    · exact hmade d hd
  · intro d hd
    rw [hdirs] at hd
    rcases foldered_dirs hd with hd | hd
    · exact hready.dirs d hd
    · exact ⟨path, hpath, mem_needs.mpr (.inr hd)⟩
  · intro f hf
    rw [hwritten, foldered_files] at hf
    rcases List.mem_cons.mp hf with rfl | hf
    · exact ⟨path, hpath, rfl⟩
    · exact hready.files f hf

theorem written_keeps {file : List String} (paths : List Path) :
    ∀ {output : Output}, file ∈ output.written →
      file ∈ (foldUntil (writeResource windows permissions) output paths).1.written := by
  apply foldUntil_inv
  intro output path _ hfile
  cases hstep : writeResource windows permissions output path with
  | mk output' threw =>
    cases threw with
    | some e => exact (writeResource_threw hstep).symm ▸ hfile
    | none =>
      rw [(writeResource_ok hstep).2.2.2.2]
      exact List.mem_append_left _ hfile

/-- Files that can be written are written, where the directories outside are there. -/
theorem application_writes {after : List Path} (hall : AllWritable windows outputDir paths)
    (heq : paths = done ++ rest) (hready : Ready windows outputDir paths done output.disk) :
    ∀ p ∈ rest, place p ∈
      (foldUntil (writeResource windows allPermitted) output (rest ++ after)).1.written := by
  induction rest generalizing done output with
  | nil => simp
  | cons path rest ih =>
    intro p hp
    obtain ⟨next, hstep, hnext⟩ := hready.step hall heq
    rw [List.cons_append, foldUntil_cons_ok hstep]
    rcases List.mem_cons.mp hp with rfl | hp
    · refine written_keeps _ ?_
      rw [(writeResource_ok hstep).2.2.2.2]
      exact List.mem_append_right _ (List.mem_singleton.mpr rfl)
    · exact ih (by simp [heq]) hnext p hp

/-! ## Templates -/

theorem materializeFile_cases (windows : Platform) (permissions : Permissions String) (output : Output)
    (path : Path) :
    let disk := (output.foldered windows permissions path).disk
    (Opens windows permissions disk path ∧
      (materializeFile windows permissions output path).disk.directories = disk.directories ∧
      (materializeFile windows permissions output path).disk.files = place path :: output.disk.files ∧
      (materializeFile windows permissions output path).written = output.written ++ [place path]) ∨
    (¬ Opens windows permissions disk path ∧
      materializeFile windows permissions output path =
        output.foldered windows permissions path) := by
  intro disk
  rw [materializeFile_eq]
  by_cases hopen : Opens windows permissions disk path
  · obtain ⟨disk', hcopy, hdirs, hfiles⟩ := copy_of_opens hopen
    rw [hcopy]
    exact .inl ⟨hopen, hdirs, hfiles.trans (by rw [foldered_files]), rfl⟩
  · rw [copy_of_not_opens hopen]
    exact .inr ⟨hopen, rfl⟩

theorem materializeFile_dirs :
    (materializeFile windows permissions output path).disk.directories =
      (output.foldered windows permissions path).disk.directories := by
  rcases materializeFile_cases windows permissions output path with
    ⟨-, hdirs, -⟩ | ⟨-, heq⟩
  · exact hdirs
  · rw [heq]

/-- The step lemma: a directory inside was made for one of the files. -/
theorem materializeFile_made (windows : Platform) (permissions : Permissions String) (path : Path)
    (h : ∀ d ∈ output.disk.directories, outputDir <+: d → MadeFor done d) :
    ∀ d ∈ (materializeFile windows permissions output path).disk.directories, outputDir <+: d →
      MadeFor (done ++ [path]) d := by
  intro d hd hin
  rw [materializeFile_dirs] at hd
  exact madeFor_concat.mpr ((foldered_dirs hd).imp_left fun hd => h d hd hin)

theorem materialized_confined
    (hconfined : ∀ before path after, done ++ rest = before ++ path :: after →
      LastWritable windows outputDir before path → outputDir <+: place path)
    (hdirs : ∀ d ∈ output.disk.directories, outputDir <+: d → MadeFor done d)
    (hwritten : ∀ file ∈ output.written, outputDir <+: file) :
    ∀ file ∈ (rest.foldl (materializeFile windows permissions) output).written,
      outputDir <+: file := by
  induction rest generalizing done output with
  | nil => exact hwritten
  | cons path rest ih =>
    refine ih ?_ (materializeFile_made windows permissions path hdirs) ?_
    · intro before p after heq
      refine hconfined before p after ?_
      rw [← heq, List.append_assoc]
      rfl
    · rcases materializeFile_cases windows permissions output path with
        ⟨hopen, -, -, hnew⟩ | ⟨-, heq⟩
      · intro file hfile
        rw [hnew] at hfile
        rcases List.mem_append.mp hfile with hfile | hfile
        · exact hwritten file hfile
        · rw [List.mem_singleton.mp hfile]
          refine hconfined done path rest rfl ⟨hopen.name, ?_, ?_⟩
          · exact fun hmem => hopen.free (hopen.passed _ hmem)
          · intro d hd hin
            have hmade := materializeFile_made windows permissions path hdirs d
            rw [materializeFile_dirs] at hmade
            exact hmade (hopen.passed d hd) hin
      · rw [heq]
        exact hwritten

/-- Only the file in question can be written. -/
def onlyWrite (place : List String) : Permissions String where
  mkdir _ := true
  write f := f = place

/-- Before the file in question is written again: the directories outside that it passes are there,
and those inside that were made. -/
structure Awaits (windows : Platform) (outputDir : List String) (path : Path) (done : List Path)
    (disk : Disk String) : Prop where
  outside : ∀ d ∈ passes windows path, ¬ outputDir <+: d → d ∈ disk.directories
  folders : ∀ d ∈ passes windows path, MadeFor done d → d ∈ disk.directories
  there : place path ∈ disk.files
  files : ∀ f ∈ disk.files, f = place path

theorem Awaits.step (hfree : place path ∉ passes windows path)
    (h : Awaits windows outputDir path done output.disk) (other : Path) :
    Awaits windows outputDir path (done ++ [other])
      (materializeFile windows (onlyWrite (place path)) output other).disk := by
  refine ⟨fun d hd hout => ?_, fun d hd hmade => ?_, ?_, ?_⟩
  · rw [materializeFile_dirs]
    exact foldered_keeps (h.outside d hd hout)
  · rw [materializeFile_dirs]
    rcases madeFor_concat.mp hmade with hmade | hmade
    · exact foldered_keeps (h.folders d hd hmade)
    · refine mkdirs_makes ?_ (fun c hc hfile => ?_) fun _ => rfl
      · rwa [resolve_systemPath]
      · rw [h.files c hfile] at hc
        exact hfree (passed_below hd hc)
  · rcases materializeFile_cases windows (onlyWrite (place path)) output other with
      ⟨-, -, hfiles, -⟩ | ⟨-, heq⟩
    · rw [hfiles]
      exact List.mem_cons_of_mem _ h.there
    · rw [heq, foldered_files]
      exact h.there
  · rcases materializeFile_cases windows (onlyWrite (place path)) output other with
      ⟨hopen, -, hfiles, -⟩ | ⟨-, heq⟩
    · rw [hfiles]
      intro f hf
      rcases List.mem_cons.mp hf with rfl | hf
      · exact of_decide_eq_true hopen.write
      · exact h.files f hf
    · rw [heq, foldered_files]
      exact h.files

theorem materialized_keeps {file : List String} (h : file ∈ output.written) :
    file ∈ (rest.foldl (materializeFile windows permissions) output).written := by
  induction rest generalizing output with
  | nil => exact h
  | cons path rest ih =>
    refine ih ?_
    rcases materializeFile_cases windows permissions output path with
      ⟨-, -, -, hnew⟩ | ⟨-, heq⟩
    · rw [hnew]
      exact List.mem_append_left _ h
    · rw [heq]
      exact h

theorem template_writes {before after : List Path}
    (hlast : LastWritable windows outputDir (done ++ before) path)
    (h : Awaits windows outputDir path done output.disk) :
    place path ∈ ((before ++ path :: after).foldl
      (materializeFile windows (onlyWrite (place path))) output).written := by
  induction before generalizing done output with
  | nil =>
    rw [List.append_nil] at hlast
    have hnext := h.step hlast.free path
    rw [List.nil_append, List.foldl_cons]
    refine materialized_keeps ?_
    rcases materializeFile_cases windows (onlyWrite (place path)) output path with
      ⟨-, -, -, hnew⟩ | ⟨hnot, -⟩
    · rw [hnew]
      exact List.mem_append_right _ (List.mem_singleton.mpr rfl)
    · refine absurd ⟨hlast.name, fun d hd => ?_, decide_eq_true rfl, fun hmem => ?_⟩ hnot
      · rw [← materializeFile_dirs]
        by_cases hin : outputDir <+: d
        · exact hnext.folders d hd (hlast.made d hd hin)
        · exact hnext.outside d hd hin
      · rw [← materializeFile_dirs] at hmem
        exact Disk.apart _ _ hnext.there hmem
  | cons other before ih =>
    refine ih ?_ (h.step hlast.free other)
    rwa [List.append_assoc]

/-! ## Archives -/

section Archives

variable {archive : List (ZipArchiveEntry B)} {unmarshall : B → Option T}

theorem process_eq_takenOver {resources : List (Resource B)}
    (h : process windows archive = some resources) : resources = takenOver windows archive := by
  unfold takenOver
  induction archive generalizing resources with
  | nil =>
    cases h
    rfl
  | cons entry archive ih =>
    rw [process] at h
    split at h
    · rename_i hdir
      rw [fileEntries_cons_dir hdir]
      exact ih h
    · rename_i hfile
      rw [fileEntries_cons_file hfile]
      cases hadd : add windows entry with
      | none => rw [hadd] at h; cases h
      | some found =>
        rw [hadd] at h
        obtain ⟨rest, hrest, rfl⟩ := Option.map_eq_some_iff.mp h
        rw [ih hrest]
        cases found with
        | none => rw [List.filterMap_cons_none (by rw [hadd]; rfl)]; rfl
        | some resource =>
          rw [List.filterMap_cons_some (b := resource) (by rw [hadd]; rfl)]
          rfl

theorem inside_deleted {disk : Disk String} (hdir : outputDir ≠ [])
    (hd : d ∈ (disk.delete outputDir).directories) : ¬ outputDir <+: d := by
  obtain ⟨-, rfl | hout⟩ := mem_delete_directories.mp hd
  · exact fun hpre => hdir (List.prefix_nil.mp hpre)
  · exact hout

theorem installApplication_confined (h : ApplicationConfined windows outputDir archive)
    (disk : Disk String) : ∀ file ∈
      (installApplication windows permissions disk outputDir archive).written, outputDir <+: file := by
  rcases eq_or_ne outputDir [] with rfl | hdir
  · exact fun file _ => List.nil_prefix
  unfold installApplication
  cases hprocess : process windows archive with
  | none => simp
  | some resources =>
    have hpaths := h.resolve_left fun hnone => by
      rw [process_eq_none.mpr hnone] at hprocess
      cases hprocess
    rw [← process_eq_takenOver hprocess] at hpaths
    have hreached : Reached windows outputDir [] (disk.delete outputDir) :=
      ⟨⟨by simp, by simp, by simp⟩, fun d hd hin => absurd hin (inside_deleted hdir hd), by simp, by simp⟩
    exact written_confined hpaths hreached (by simp)

theorem installTemplate_confined (h : TemplateConfined windows unmarshall outputDir archive)
    (disk : Disk String) : ∀ file ∈
      (installTemplate windows permissions unmarshall disk outputDir archive).written,
        outputDir <+: file := by
  rcases eq_or_ne outputDir [] with rfl | hdir
  · exact fun file _ => List.nil_prefix
  unfold installTemplate
  by_cases hdescriptor : HasDescriptor unmarshall archive
  · obtain ⟨templateXml, htemplate⟩ := getTemplateExtractor_some hdescriptor
    have hpaths := h.resolve_left (not_not_intro hdescriptor)
    rw [htemplate]
    have hdirs : ∀ d ∈ (disk.delete outputDir).directories, outputDir <+: d → MadeFor [] d :=
      fun d hd hin => absurd hin (inside_deleted hdir hd)
    refine materialized_confined ?_ hdirs (by simp)
    rw [List.map_map]
    exact hpaths
  · rw [getTemplateExtractor_none hdescriptor]
    simp

/-- The root and the directories outside, of those given, and the files. -/
def outsideDisk (outputDir : List String) (directories files : List (List String))
    (hclosed : ∀ d ∈ directories, d.dropLast ∈ directories)
    (hapart : ∀ f ∈ files, f ≠ [] ∧ f ∉ directories) : Disk String where
  directories := [] :: directories.filter fun d => ¬ outputDir <+: d
  files
  root := List.mem_cons_self
  closed d hd := by
    rcases List.mem_cons.mp hd with rfl | hd
    · exact List.mem_cons_self
    · obtain ⟨hmem, hout⟩ := List.mem_filter.mp hd
      refine List.mem_cons_of_mem _ (List.mem_filter.mpr ⟨hclosed d hmem, decide_eq_true ?_⟩)
      exact fun hin => of_decide_eq_true hout (hin.trans (List.dropLast_prefix d))
  apart f hf hmem := by
    rcases List.mem_cons.mp hmem with rfl | hmem
    · exact (hapart [] hf).1 rfl
    · exact (hapart f hf).2 (List.mem_filter.mp hmem).1

theorem mem_outsideDisk {directories files : List (List String)} {hclosed hapart} :
    d ∈ ((outsideDisk outputDir directories files hclosed hapart).delete outputDir).directories ↔
      d = [] ∨ d ∈ directories ∧ ¬ outputDir <+: d := by
  rw [mem_delete_directories]
  by_cases hd : d = []
  · simp [outsideDisk, hd]
  · simp [outsideDisk, hd]

theorem nil_mem_needs : [] ∈ needs windows path := mem_needs.mpr (.inr List.nil_prefix)

/-- A path out of the directory that can be written is written on some disk. -/
theorem applicationConfined_of_run
    (h : ∀ permissions disk, ∀ file ∈
      (installApplication windows permissions disk outputDir archive).written, outputDir <+: file) :
    ApplicationConfined windows outputDir archive := by
  by_cases hnone : ∃ entry ∈ fileEntries archive, add windows entry = none
  · exact .inl hnone
  refine .inr fun before path after heq hall => ?_
  cases hprocess : process windows archive with
  | none => exact absurd (process_eq_none.mp hprocess) hnone
  | some resources =>
    have hclosed : ∀ d ∈ (before ++ [path]).flatMap (needs windows),
        d.dropLast ∈ (before ++ [path]).flatMap (needs windows) := by
      intro d hd
      obtain ⟨p, hp, hd⟩ := List.mem_flatMap.mp hd
      exact List.mem_flatMap.mpr ⟨p, hp, needs_of_prefix hd (List.dropLast_prefix d)⟩
    refine h allPermitted (outsideDisk outputDir _ [] hclosed (by simp)) (place path) ?_
    rw [installApplication, hprocess]
    simp only [writeFileBasedApplicationResources]
    have hsplit : before ++ path :: after = before ++ [path] ++ after := by simp
    rw [process_eq_takenOver hprocess, heq, hsplit]
    have hready : Ready windows outputDir (before ++ [path]) []
        ((outsideDisk outputDir _ [] hclosed (by simp)).delete outputDir) := by
      refine ⟨?_, ?_, ?_, ?_⟩
      · intro p hp d hd hout
        exact mem_outsideDisk.mpr (.inr ⟨List.mem_flatMap.mpr ⟨p, hp, hd⟩, hout⟩)
      · rintro d ⟨p, hp, -⟩
        cases hp
      · intro d hd
        rcases mem_outsideDisk.mp hd with rfl | ⟨hd, -⟩
        · exact ⟨path, by simp, nil_mem_needs⟩
        · exact List.mem_flatMap.mp hd
      · intro f hf
        cases (mem_delete_files.mp hf).1
    exact application_writes hall (List.nil_append _).symm hready path (by simp)

theorem templateConfined_of_run
    (h : ∀ permissions disk, ∀ file ∈
      (installTemplate windows permissions unmarshall disk outputDir archive).written,
        outputDir <+: file) : TemplateConfined windows unmarshall outputDir archive := by
  by_cases hdescriptor : HasDescriptor unmarshall archive
  · refine .inr fun before path after heq hlast => ?_
    by_contra hout
    obtain ⟨templateXml, htemplate⟩ := getTemplateExtractor_some hdescriptor
    have hclosed : ∀ d ∈ passes windows path, d.dropLast ∈ passes windows path := fun d hd =>
      passed_below hd (List.dropLast_prefix d)
    have hapart : ∀ f ∈ [place path], f ≠ [] ∧ f ∉ passes windows path := by
      intro f hf
      rw [List.mem_singleton.mp hf]
      refine ⟨fun hnil => hlast.free ?_, hlast.free⟩
      rw [hnil]
      exact mem_passed_self
    refine hout (h (onlyWrite (place path)) (outsideDisk outputDir _ [place path] hclosed hapart) _ ?_)
    rw [installTemplate, htemplate]
    simp only [materializeTemplate, List.map_map]
    have hpaths : (fileEntries archive).map ((fun resource : TemplateResource B =>
        resource.targetFile windows outputDir) ∘ fun entry => ⟨afterSlash entry.name, entry.bytes⟩) =
          before ++ path :: after := heq
    rw [hpaths]
    have hawaits : Awaits windows outputDir path []
        ((outsideDisk outputDir _ [place path] hclosed hapart).delete outputDir) := by
      refine ⟨?_, ?_, ?_, ?_⟩
      · intro d hd hnot
        exact mem_outsideDisk.mpr (.inr ⟨hd, hnot⟩)
      · rintro d - ⟨p, hp, -⟩
        cases hp
      · exact mem_delete_files.mpr ⟨List.mem_singleton.mpr rfl, hout⟩
      · intro f hf
        exact List.mem_singleton.mp (mem_delete_files.mp hf).1
    exact template_writes hlast hawaits
  · exact .inl hdescriptor

/-- An archive is confined, whatever is on the disk, exactly if no path out of the directory can be
written. -/
theorem install_confined_iff (windows : Platform) (unmarshall : B → Option T)
    (outputDir : List String) (archive : List (ZipArchiveEntry B)) :
    ((∀ permissions disk, ∀ file ∈
        (installApplication windows permissions disk outputDir archive).written,
          outputDir <+: file) ↔ ApplicationConfined windows outputDir archive) ∧
    ((∀ permissions disk, ∀ file ∈
        (installTemplate windows permissions unmarshall disk outputDir archive).written,
          outputDir <+: file) ↔ TemplateConfined windows unmarshall outputDir archive) :=
  ⟨⟨applicationConfined_of_run, fun h _ disk => installApplication_confined h disk⟩,
    templateConfined_of_run, fun h _ disk => installTemplate_confined h disk⟩

/-- A name that goes up nowhere from where it starts is safe. -/
theorem prefix_place {child : String} (h : climbs 0 (childSegments windows child) = false) :
    outputDir <+: place (newFile windows outputDir child) := by
  have hplace : place (newFile windows outputDir child) =
      resolve outputDir (childSegments windows child) := by
    rw [place, newFile, resolve_append, resolve_map_name, List.nil_append]
  have hbelow : outputDir <+: resolve (outputDir ++ []) (childSegments windows child) := prefix_resolve h
  rwa [List.append_nil, ← hplace] at hbelow

theorem applicationConfined_of_names (h : ∀ resource ∈ takenOver windows archive,
    climbs 0 (childSegments windows
      (resource.type.folder ++ windows.separator ++ resource.name)) = false) :
    ApplicationConfined windows outputDir archive := by
  refine .inr fun before path after heq _ => ?_
  have hpath : path ∈ (takenOver windows archive).map (·.outputFile windows outputDir) := by
    simp [heq]
  obtain ⟨resource, hresource, rfl⟩ := List.mem_map.mp hpath
  exact prefix_place (h resource hresource)

theorem templateConfined_of_names (h : ∀ entry ∈ fileEntries archive,
    climbs 0 (childSegments windows (afterSlash entry.name)) = false) :
    TemplateConfined windows unmarshall outputDir archive := by
  refine .inr fun before path after heq _ => ?_
  have hpath : path ∈ (fileEntries archive).map fun entry =>
      newFile windows outputDir (afterSlash entry.name) := by
    simp [heq]
  obtain ⟨entry, hentry, rfl⟩ := List.mem_map.mp hpath
  exact prefix_place (h entry hentry)

end Archives

/-! ## An archive that leaves its directory -/

def applicationsDisk : Disk String where
  directories := [[], ["applications"], ["applications", "platform"]]
  files := []
  root := by simp
  closed := by decide
  apart := by simp

/-- The first entry makes the folder that the path of the second one leaves again. -/
def climbingArchive : List (ZipArchiveEntry Unit) :=
  [⟨"resources/a.txt", ()⟩, ⟨"resources/../../platform/evil.jsp", ()⟩]

theorem climbingArchive_leaves :
    ["applications", "platform", "evil.jsp"] ∈
        (installApplication false allPermitted applicationsDisk ["applications", "demo"]
          climbingArchive).written ∧
      ¬ ["applications", "demo"] <+: ["applications", "platform", "evil.jsp"] := by
  decide +kernel

end Packages
end AppNG
