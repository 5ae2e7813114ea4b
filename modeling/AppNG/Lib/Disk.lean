import AppNG.Lib.FilePath

/-!
# Lib.Disk

The directories and files of a file system, and what becomes of them when paths are used as they are
written.

A path is followed segment by segment, and every directory it passes has to be there, also one that
`..` leaves again. Windows works out a path by its text before it looks at the disk. There are no
links.

* `passed`: the directories on a path, the last one included. With a directory it passes all those
  above (`passed_below`).
* `mkdirs`: directories are made along the way the path leads to in the end, whatever it passes.
* `mem_makeAll`, `makeAll_makes`: what is there afterwards.
* `createFile_eq_some`: when a file can be written.
-/

namespace AppNG

open FilePath

variable {α : Type}

/-! ## Paths -/

namespace FilePath

/-- The directories from one on along a path. -/
def passed : List α → List (Segment α) → List (List α)
  | dir, [] => [dir]
  | dir, .here :: path => dir :: passed dir path
  | dir, .up :: path => dir :: passed dir.dropLast path
  | dir, .name a :: path => dir :: passed (dir ++ [a]) path

/-- The path as the system follows it. -/
def systemPath (windows : Platform) (path : List (Segment α)) : List (Segment α) :=
  if windows then (resolve [] path).map .name else path

def endsInName (path : List (Segment α)) : Bool :=
  match path.getLast? with
  | some (.name _) => true
  | _ => false

variable {path : List (Segment α)} {dir d e : List α}

theorem mem_passed_self : dir ∈ passed dir path := by
  cases path with
  | nil => exact List.mem_singleton.mpr rfl
  | cons segment path => cases segment <;> exact List.mem_cons_self

theorem resolve_mem_passed : resolve dir path ∈ passed dir path := by
  induction path generalizing dir with
  | nil => exact List.mem_singleton.mpr rfl
  | cons segment path ih => cases segment <;> exact List.mem_cons_of_mem _ ih

theorem passed_below' (hd : d ∈ passed dir path) (he : e <+: d) :
    e <+: dir ∨ e ∈ passed dir path := by
  induction path generalizing dir with
  | nil => exact .inl (List.mem_singleton.mp hd ▸ he)
  | cons segment path ih =>
    cases segment with
    | here =>
      rcases List.mem_cons.mp hd with rfl | hd
      · exact .inl he
      · exact (ih hd).imp_right (List.mem_cons_of_mem _)
    | up =>
      rcases List.mem_cons.mp hd with rfl | hd
      · exact .inl he
      · rcases ih hd with h | h
        · exact .inl (h.trans (List.dropLast_prefix dir))
        · exact .inr (List.mem_cons_of_mem _ h)
    | name a =>
      rcases List.mem_cons.mp hd with rfl | hd
      · exact .inl he
      · rcases ih hd with h | h
        · rcases List.prefix_concat_iff.mp h with rfl | h
          · exact .inr (List.mem_cons_of_mem _ mem_passed_self)
          · exact .inl h
        · exact .inr (List.mem_cons_of_mem _ h)

/-- A path from the root passes every directory above one that it passes. -/
theorem passed_below (hd : d ∈ passed [] path) (he : e <+: d) : e ∈ passed [] path := by
  rcases passed_below' hd he with h | h
  · rw [List.prefix_nil.mp h]
    exact mem_passed_self
  · exact h

theorem resolve_map_name {names : List α} : resolve dir (names.map .name) = dir ++ names := by
  rw [resolve_of_no_up (by simp), names_map_name]

theorem passed_map_name {names : List α} (h : d ∈ passed dir (names.map .name)) :
    d <+: dir ++ names := by
  induction names generalizing dir with
  | nil => rw [List.mem_singleton.mp h, List.append_nil]
  | cons a names ih =>
    rcases List.mem_cons.mp h with rfl | h
    · exact List.prefix_append d (a :: names)
    · have hpre : d <+: dir ++ [a] ++ names := ih h
      rwa [List.append_assoc] at hpre

theorem resolve_systemPath (windows : Platform) :
    resolve [] (systemPath windows path) = resolve [] path := by
  unfold systemPath
  split
  · exact resolve_map_name
  · rfl

/-- The directory that a file is put in is on the way to the file, or made for it. -/
theorem passed_parent {windows : Platform} (h : d ∈ passed [] (systemPath windows path.dropLast)) :
    d ∈ passed [] (systemPath windows path).dropLast ∨ d <+: resolve [] path.dropLast := by
  unfold systemPath at h ⊢
  cases windows with
  | true => exact .inr (passed_map_name h)
  | false => exact .inl h

/-- The place of a path that ends in a name is in the directory of what comes before. -/
theorem resolve_dropLast (h : endsInName path = true) :
    (resolve dir path).dropLast = resolve dir path.dropLast := by
  rcases List.eq_nil_or_concat path with rfl | ⟨init, last, rfl⟩
  · cases h
  · rw [List.concat_eq_append] at h ⊢
    rw [List.dropLast_concat, resolve_append]
    unfold endsInName at h
    rw [List.getLast?_concat] at h
    cases last with
    | here => cases h
    | up => cases h
    | name a => exact List.dropLast_concat

end FilePath

/-! ## The disk -/

structure Disk (α : Type) where
  directories : List (List α)
  files : List (List α)
  root : [] ∈ directories
  closed : ∀ d ∈ directories, d.dropLast ∈ directories
  apart : ∀ f ∈ files, f ∉ directories

/-- Where the system lets directories be made and files be written. -/
structure Permissions (α : Type) where
  mkdir : List α → Bool
  write : List α → Bool

namespace Disk

variable [DecidableEq α] {permissions : Permissions α} {disk disk' : Disk α} {d e f : List α}
  {path : List (Segment α)}

def isDirectory (disk : Disk α) (path : List (Segment α)) : Bool :=
  (passed [] path).all fun d => d ∈ disk.directories

def isFile (disk : Disk α) (path : List (Segment α)) : Bool :=
  endsInName path && disk.isDirectory path.dropLast && resolve [] path ∈ disk.files

omit [DecidableEq α] in
theorem closed_prefix (disk : Disk α) (hd : d ∈ disk.directories) (he : e <+: d) :
    e ∈ disk.directories := by
  induction d using List.reverseRecOn with
  | nil => exact List.prefix_nil.mp he ▸ hd
  | append_singleton init last ih =>
    rcases List.prefix_concat_iff.mp he with rfl | he
    · exact hd
    · refine ih ?_ he
      have hinit := disk.closed _ hd
      rwa [List.dropLast_concat] at hinit

theorem isDirectory_iff :
    disk.isDirectory path = true ↔ ∀ d ∈ passed [] path, d ∈ disk.directories := by
  simp [isDirectory]

theorem mem_of_isDirectory (h : disk.isDirectory path = true) :
    resolve [] path ∈ disk.directories :=
  isDirectory_iff.mp h _ resolve_mem_passed

/-- One directory, in one that is there. -/
def makeDirectory (permissions : Permissions α) (disk : Disk α) (d : List α) : Disk α :=
  if h : d.dropLast ∈ disk.directories ∧ d ∉ disk.files ∧ permissions.mkdir d = true then
    { directories := d :: disk.directories
      files := disk.files
      root := List.mem_cons_of_mem _ disk.root
      closed := by
        intro e he
        rcases List.mem_cons.mp he with rfl | he
        · exact List.mem_cons_of_mem _ h.1
        · exact List.mem_cons_of_mem _ (disk.closed e he)
      apart := by
        intro f hf hmem
        rcases List.mem_cons.mp hmem with rfl | hmem
        · exact h.2.1 hf
        · exact disk.apart f hf hmem }
  else disk

/-- The directory and those above that are missing, as far as they can be made. -/
def makeAll (permissions : Permissions α) (disk : Disk α) (d : List α) : Disk α :=
  d.inits.foldl (makeDirectory permissions) disk

/-- `File.mkdirs`: what is made is the canonical directory; the result says whether it was. -/
def mkdirs (permissions : Permissions α) (disk : Disk α) (path : List (Segment α)) :
    Disk α × Bool :=
  if disk.isDirectory path || disk.isFile path then (disk, false)
  else
    let canonical := resolve [] path
    let disk' := disk.makeAll permissions canonical
    (disk', canonical ∉ disk.directories && canonical ∈ disk'.directories)

/-- `FileUtils.forceMkdir`, which throws if the result is false. -/
def forceMkdir (permissions : Permissions α) (disk : Disk α) (path : List (Segment α)) :
    Disk α × Bool :=
  let (disk', made) := disk.mkdirs permissions path
  (disk', made || disk'.isDirectory path)

/-- `FileOutputStream`. A file that is there is overwritten. -/
def createFile (permissions : Permissions α) (disk : Disk α) (path : List (Segment α)) :
    Option (Disk α) :=
  if h : (endsInName path = true ∧ disk.isDirectory path.dropLast = true ∧
      permissions.write (resolve [] path) = true) ∧ resolve [] path ∉ disk.directories then
    some { disk with
      files := resolve [] path :: disk.files
      apart := by
        intro g hg
        rcases List.mem_cons.mp hg with rfl | hg
        · exact h.2
        · exact disk.apart g hg }
  else none

/-- `FileUtils.deleteQuietly`, where nothing is in its way. -/
def delete (disk : Disk α) (d : List α) : Disk α where
  directories := disk.directories.filter fun e => e = [] ∨ ¬ d <+: e
  files := disk.files.filter fun f => ¬ d <+: f
  root := List.mem_filter.mpr ⟨disk.root, by simp⟩
  closed e he := by
    obtain ⟨hmem, hkept⟩ := List.mem_filter.mp he
    refine List.mem_filter.mpr ⟨disk.closed e hmem, decide_eq_true ?_⟩
    rcases of_decide_eq_true hkept with rfl | hout
    · exact .inl rfl
    · exact .inr fun hin => hout (hin.trans (List.dropLast_prefix e))
  apart f hf hmem := disk.apart f (List.mem_filter.mp hf).1 (List.mem_filter.mp hmem).1

/-! ## What is made -/

theorem mem_makeDirectory :
    e ∈ (disk.makeDirectory permissions d).directories ↔ e ∈ disk.directories ∨
      (e = d ∧ d.dropLast ∈ disk.directories ∧ d ∉ disk.files ∧ permissions.mkdir d = true) := by
  unfold makeDirectory
  split
  · rename_i h
    simp [h, or_comm]
  · rename_i h
    simp [h]

@[simp] theorem makeDirectory_files :
    (disk.makeDirectory permissions d).files = disk.files := by
  unfold makeDirectory
  split <;> rfl

theorem makeAll_concat (init : List α) (last : α) :
    disk.makeAll permissions (init ++ [last]) =
      (disk.makeAll permissions init).makeDirectory permissions (init ++ [last]) := by
  have hinits : (init ++ [last]).inits = init.inits ++ [init ++ [last]] := by
    simp [List.inits_append]
  unfold makeAll
  rw [hinits, List.foldl_append]
  rfl

@[simp] theorem makeAll_files : (disk.makeAll permissions d).files = disk.files := by
  induction d using List.reverseRecOn with
  | nil => exact makeDirectory_files
  | append_singleton init last ih => rw [makeAll_concat, makeDirectory_files, ih]

theorem makeAll_keeps (h : e ∈ disk.directories) :
    e ∈ (disk.makeAll permissions d).directories := by
  induction d using List.reverseRecOn with
  | nil => exact mem_makeDirectory.mpr (.inl h)
  | append_singleton init last ih =>
    rw [makeAll_concat]
    exact mem_makeDirectory.mpr (.inl ih)

/-- Nothing is made but the directory and what is above it. -/
theorem mem_makeAll (h : e ∈ (disk.makeAll permissions d).directories) :
    e ∈ disk.directories ∨ e <+: d := by
  induction d using List.reverseRecOn with
  | nil =>
    rcases mem_makeDirectory.mp h with h | ⟨rfl, -⟩
    · exact .inl h
    · exact .inr (List.prefix_refl [])
  | append_singleton init last ih =>
    rw [makeAll_concat] at h
    rcases mem_makeDirectory.mp h with h | ⟨rfl, -⟩
    · exact (ih h).imp_right fun hpre => hpre.trans (List.prefix_append init [last])
    · exact .inr (List.prefix_refl _)

/-- A directory above is made, unless a file or the system is in the way. -/
theorem makeAll_makes (hpre : e <+: d) (hfile : ∀ c, c <+: e → c ∉ disk.files)
    (hmkdir : ∀ c, permissions.mkdir c = true) :
    e ∈ (disk.makeAll permissions d).directories := by
  induction d using List.reverseRecOn generalizing e with
  | nil =>
    rw [List.prefix_nil.mp hpre]
    exact makeAll_keeps disk.root
  | append_singleton init last ih =>
    rw [makeAll_concat, mem_makeDirectory]
    rcases List.prefix_concat_iff.mp hpre with rfl | hpre
    · refine .inr ⟨rfl, ?_, ?_, hmkdir _⟩
      · rw [List.dropLast_concat]
        exact ih (List.prefix_refl init) fun c hc => hfile c (hc.trans (List.prefix_append init [last]))
      · rw [makeAll_files]
        exact hfile _ (List.prefix_refl _)
    · exact .inl (ih hpre hfile)

@[simp] theorem mkdirs_files : (disk.mkdirs permissions path).1.files = disk.files := by
  unfold mkdirs
  split
  · rfl
  · exact makeAll_files

theorem mkdirs_keeps (h : e ∈ disk.directories) :
    e ∈ (disk.mkdirs permissions path).1.directories := by
  unfold mkdirs
  split
  · exact h
  · exact makeAll_keeps h

theorem mem_mkdirs (h : e ∈ (disk.mkdirs permissions path).1.directories) :
    e ∈ disk.directories ∨ e <+: resolve [] path := by
  unfold mkdirs at h
  split at h
  · exact .inl h
  · exact mem_makeAll h

theorem mem_of_isFile (h : disk.isFile path = true) :
    resolve [] path ∈ disk.files ∧ (resolve [] path).dropLast ∈ disk.directories := by
  unfold isFile at h
  simp only [Bool.and_eq_true, decide_eq_true_eq] at h
  obtain ⟨⟨hname, hparent⟩, hfile⟩ := h
  refine ⟨hfile, ?_⟩
  rw [resolve_dropLast hname]
  exact mem_of_isDirectory hparent

theorem mkdirs_makes (hpre : e <+: resolve [] path) (hfile : ∀ c, c <+: e → c ∉ disk.files)
    (hmkdir : ∀ c, permissions.mkdir c = true) :
    e ∈ (disk.mkdirs permissions path).1.directories := by
  unfold mkdirs
  split
  · rename_i hexists
    rcases Bool.or_eq_true_iff.mp hexists with hdir | hisFile
    · exact disk.closed_prefix (mem_of_isDirectory hdir) hpre
    · obtain ⟨hmem, hparent⟩ := mem_of_isFile hisFile
      rcases List.eq_nil_or_concat (resolve [] path) with hnil | ⟨init, last, hlast⟩
      · rw [hnil] at hpre
        exact List.prefix_nil.mp hpre ▸ disk.root
      · rw [hlast, List.concat_eq_append] at hpre hmem hparent
        rw [List.dropLast_concat] at hparent
        rcases List.prefix_concat_iff.mp hpre with rfl | hpre
        · exact absurd hmem (hfile _ (List.prefix_refl _))
        · exact disk.closed_prefix hparent hpre
  · exact makeAll_makes hpre hfile hmkdir

theorem mem_of_forceMkdir (h : (disk.forceMkdir permissions path).2 = true) :
    resolve [] path ∈ (disk.mkdirs permissions path).1.directories := by
  have hcases : (disk.mkdirs permissions path).2 = true ∨
      (disk.mkdirs permissions path).1.isDirectory path = true := Bool.or_eq_true_iff.mp h
  rcases hcases with hmade | hdir
  · unfold mkdirs at hmade ⊢
    split at hmade
    · cases hmade
    · rename_i hexists
      rw [if_neg hexists]
      exact of_decide_eq_true (Bool.and_eq_true _ _ ▸ hmade).2
  · exact mem_of_isDirectory hdir

/-- The directories on the way are there, or are those that are made. -/
theorem forceMkdir_succeeds (hfile : ∀ c, c <+: resolve [] path → c ∉ disk.files)
    (hmkdir : ∀ c, permissions.mkdir c = true)
    (hpassed : ∀ d ∈ passed [] path, d ∈ disk.directories ∨ d <+: resolve [] path) :
    (disk.forceMkdir permissions path).2 = true := by
  have hmade : ∀ d ∈ passed [] path, d ∈ (disk.mkdirs permissions path).1.directories := by
    intro d hd
    rcases hpassed d hd with hd | hd
    · exact mkdirs_keeps hd
    · exact mkdirs_makes hd (fun c hc => hfile c (hc.trans hd)) hmkdir
  exact Bool.or_eq_true_iff.mpr (.inr (isDirectory_iff.mpr hmade))

/-! ## What is written -/

theorem createFile_eq_some :
    disk.createFile permissions path = some disk' ↔
      endsInName path = true ∧ disk.isDirectory path.dropLast = true ∧
        permissions.write (resolve [] path) = true ∧ resolve [] path ∉ disk.directories ∧
        disk'.directories = disk.directories ∧ disk'.files = resolve [] path :: disk.files := by
  unfold createFile
  split
  · rename_i h
    simp only [Option.some.injEq, h.1.1, h.1.2.1, h.1.2.2, h.2, not_false_eq_true, true_and]
    constructor
    · rintro rfl
      exact ⟨rfl, rfl⟩
    · intro hsame
      obtain ⟨directories, files, _, _, _⟩ := disk'
      obtain ⟨rfl, rfl⟩ := hsame
      rfl
  · rename_i h
    constructor
    · intro hnone
      cases hnone
    · intro hall
      exact absurd ⟨⟨hall.1, hall.2.1, hall.2.2.1⟩, hall.2.2.2.1⟩ h

/-! ## What is deleted -/

theorem mem_delete_directories :
    e ∈ (disk.delete d).directories ↔ e ∈ disk.directories ∧ (e = [] ∨ ¬ d <+: e) := by
  simp [delete]

theorem mem_delete_files : f ∈ (disk.delete d).files ↔ f ∈ disk.files ∧ ¬ d <+: f := by
  simp [delete]

end Disk
end AppNG
