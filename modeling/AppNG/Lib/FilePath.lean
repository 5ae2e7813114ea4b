import AppNG.Lib.JavaString
import Mathlib.Data.List.Infix

/-!
# Lib.FilePath

Paths of a file system, as lists of segments, and where they lead.

A directory is the list of the names on the way to it from the root. `resolve dir path` is where
`path` leads from `dir`; the parent of the root is the root. `climbs depth path` says that `path`
goes up from the directory it has come down `depth` names from.

* `prefix_resolve`: a path that does not climb stays below where it starts.
* `segments` reads a path; on Windows a backslash separates segments as well.
* `parts_join`, `Plain.join_parts`: names are joined to a path and read from it again.
-/

namespace AppNG
namespace FilePath

/-- `.` or nothing, `..`, or a name. -/
inductive Segment (α : Type) where
  | here
  | up
  | name (a : α)
  deriving DecidableEq, Repr

variable {α : Type}

def resolve : List α → List (Segment α) → List α
  | dir, [] => dir
  | dir, .here :: path => resolve dir path
  | dir, .up :: path => resolve dir.dropLast path
  | dir, .name a :: path => resolve (dir ++ [a]) path

def climbs : Nat → List (Segment α) → Bool
  | _, [] => false
  | depth, .here :: path => climbs depth path
  | 0, .up :: _ => true
  | depth + 1, .up :: path => climbs depth path
  | depth, .name _ :: path => climbs (depth + 1) path

/-- The names that are left of a path that goes up nowhere. -/
def names : List (Segment α) → List α
  | [] => []
  | .here :: path | .up :: path => names path
  | .name a :: path => a :: names path

theorem resolve_append {path path' : List (Segment α)} :
    ∀ {dir : List α}, resolve dir (path ++ path') = resolve (resolve dir path) path' := by
  induction path with
  | nil => intro dir; rfl
  | cons segment path ih =>
    intro dir
    cases segment <;> exact ih

theorem resolve_mem {path : List (Segment α)} {b : α} :
    ∀ {dir : List α}, b ∈ resolve dir path → b ∈ dir ∨ b ∈ names path := by
  induction path with
  | nil => intro dir h; exact .inl h
  | cons segment path ih =>
    intro dir h
    cases segment with
    | here => exact ih h
    | up =>
      rcases ih h with hdir | hpath
      · exact .inl (List.mem_of_mem_dropLast hdir)
      · exact .inr hpath
    | name a =>
      rcases ih h with hdir | hpath
      · rcases List.mem_append.mp hdir with hdir | ha
        · exact .inl hdir
        · exact .inr (List.mem_singleton.mp ha ▸ List.mem_cons_self)
      · exact .inr (List.mem_cons_of_mem _ hpath)

/-- What does not climb stays below. -/
theorem prefix_resolve {path : List (Segment α)} {base : List α} :
    ∀ {inner : List α}, climbs inner.length path = false → base <+: resolve (base ++ inner) path := by
  induction path with
  | nil => intro inner _; exact List.prefix_append base inner
  | cons segment path ih =>
    intro inner h
    cases segment with
    | here => exact ih h
    | up =>
      rcases List.eq_nil_or_concat inner with rfl | ⟨init, last, rfl⟩
      · cases h
      · rw [List.concat_eq_append, List.length_append, List.length_singleton] at h
        have hdrop : (base ++ (init.concat last)).dropLast = base ++ init := by
          rw [List.concat_eq_append, ← List.append_assoc, List.dropLast_concat]
        rw [resolve, hdrop]
        exact ih h
    | name a =>
      rw [resolve, List.append_assoc]
      apply ih
      rw [List.length_append, List.length_singleton]
      cases hinner : inner.length <;> rw [hinner] at h <;> exact h

/-- A path that goes up nowhere. -/
theorem prefix_resolve_of_no_up {path : List (Segment α)} :
    ∀ {dir : List α}, .up ∉ path → dir <+: resolve dir path := by
  induction path with
  | nil => intro dir _; exact List.prefix_refl dir
  | cons segment path ih =>
    intro dir h
    rw [List.mem_cons, not_or] at h
    cases segment with
    | here => exact ih h.2
    | up => exact absurd rfl h.1
    | name a => exact (List.prefix_append dir [a]).trans (ih h.2)

/-- A path that goes up nowhere leads down its names. -/
theorem resolve_of_no_up {path : List (Segment α)} :
    ∀ {dir : List α}, .up ∉ path → resolve dir path = dir ++ names path := by
  induction path with
  | nil => intro dir _; exact (List.append_nil dir).symm
  | cons segment path ih =>
    intro dir h
    rw [List.mem_cons, not_or] at h
    cases segment with
    | here => exact ih h.2
    | up => exact absurd rfl h.1
    | name a =>
      have hdown : resolve (dir ++ [a]) path = dir ++ [a] ++ names path := ih h.2
      rwa [List.append_assoc] at hdown

@[simp] theorem names_map_name {as : List α} : names (as.map .name) = as := by
  induction as with
  | nil => rfl
  | cons a as ih => exact congrArg (a :: ·) ih

/-! ## Paths as text -/

/-- Whether the platform is Windows. -/
abbrev Platform := Bool

def Platform.separator (windows : Platform) : String := if windows then "\\" else "/"

def Platform.isSeparator (windows : Platform) (c : Char) : Bool := c == '/' || (windows && c == '\\')

def readSegment (cs : List Char) : Segment String :=
  if cs = [] ∨ cs = ['.'] then .here
  else if cs = ['.', '.'] then .up
  else .name (String.ofList cs)

def segments (windows : Platform) (path : String) : List (Segment String) :=
  (path.toList.splitOnP windows.isSeparator).map readSegment

/-- A slash between two paths. -/
theorem segments_append (windows : Platform) (path path' : String) :
    segments windows (path ++ "/" ++ path') = segments windows path ++ segments windows path' := by
  have hslash : windows.isSeparator '/' = true := by
    unfold Platform.isSeparator
    simp
  have hlist : (path ++ "/" ++ path').toList = path.toList ++ '/' :: path'.toList := by simp
  rw [segments, hlist, List.splitOnP_append_cons _ _ hslash, List.map_append]
  rfl

theorem segments_posix (path : String) :
    segments false path = (path.toList.splitOn '/').map readSegment := by
  have hsep : Platform.isSeparator false = (· == '/') := by
    funext c
    simp [Platform.isSeparator]
  rw [segments, hsep, List.splitOn_eq_splitOnP]

theorem readSegment_name {name : String} (h : name ≠ "" ∧ name ≠ "." ∧ name ≠ "..") :
    readSegment name.toList = .name name := by
  obtain ⟨hempty, hdot, hdots⟩ := h
  have h₁ : name.toList ≠ [] := fun heq => hempty (String.toList_eq_nil_iff.mp heq)
  have h₂ : name.toList ≠ ['.'] := fun heq => hdot (String.toList_inj.mp heq)
  have h₃ : name.toList ≠ ['.', '.'] := fun heq => hdots (String.toList_inj.mp heq)
  rw [readSegment, if_neg (by simp [h₁, h₂]), if_neg h₃, String.ofList_toList]

/-- One name is one segment. -/
theorem segments_name {name : String} (h : name ≠ "" ∧ name ≠ "." ∧ name ≠ "..")
    (hslash : '/' ∉ name.toList) : segments false name = [.name name] := by
  rw [segments_posix, List.splitOn_eq_singleton hslash, List.map_singleton, readSegment_name h]

/-! ## Paths that are read as they are written -/

/-- The name of a file or a directory. -/
def IsName (name : String) : Prop :=
  (name ≠ "" ∧ name ≠ "." ∧ name ≠ "..") ∧ '/' ∉ name.toList

def join (names : List String) : String :=
  String.ofList (['/'].intercalate (names.map String.toList))

/-- Every segment of a path is a name. -/
def Plain (path : String) : Prop := ∀ segment ∈ segments false path, ∃ a, segment = .name a

def parts (path : String) : List String := names (segments false path)

theorem segments_join {as : List String} (hne : as ≠ []) (h : ∀ a ∈ as, IsName a) :
    segments false (join as) = as.map .name := by
  have hfree : ∀ cs ∈ as.map String.toList, '/' ∉ cs := by
    intro cs hcs
    obtain ⟨a, ha, rfl⟩ := List.mem_map.mp hcs
    exact (h a ha).2
  rw [segments_posix, join, String.toList_ofList, List.splitOn_intercalate '/' hfree (by simpa using hne),
    List.map_map]
  exact List.map_congr_left fun a ha => readSegment_name (h a ha).1

theorem parts_join {as : List String} (hne : as ≠ []) (h : ∀ a ∈ as, IsName a) :
    parts (join as) = as := by
  rw [parts, segments_join hne h, names_map_name]

theorem plain_join {as : List String} (hne : as ≠ []) (h : ∀ a ∈ as, IsName a) :
    Plain (join as) := by
  intro segment hmem
  rw [segments_join hne h] at hmem
  obtain ⟨a, -, rfl⟩ := List.mem_map.mp hmem
  exact ⟨a, rfl⟩

theorem Plain.segments_eq {path : String} (h : Plain path) :
    segments false path = (parts path).map .name := by
  unfold parts
  unfold Plain at h
  generalize segments false path = read at h
  induction read with
  | nil => rfl
  | cons segment read ih =>
    obtain ⟨⟨a, rfl⟩, hrest⟩ := List.forall_mem_cons.mp h
    exact congrArg (.name a :: ·) (ih hrest)

theorem Plain.no_up {path : String} (h : Plain path) : .up ∉ segments false path := by
  intro hmem
  obtain ⟨a, ha⟩ := h _ hmem
  cases ha

theorem mem_names {path : List (Segment α)} {a : α} : a ∈ names path ↔ .name a ∈ path := by
  induction path with
  | nil => simp [names]
  | cons segment path ih => cases segment <;> simp [names, ih]

theorem readSegment_eq_name {cs : List Char} {a : String} (h : readSegment cs = .name a) :
    a.toList = cs ∧ cs ≠ [] ∧ cs ≠ ['.'] ∧ cs ≠ ['.', '.'] := by
  unfold readSegment at h
  split at h
  · cases h
  · rename_i hhere
    split at h
    · cases h
    · rename_i hup
      cases h
      exact ⟨String.toList_ofList, fun heq => hhere (.inl heq), fun heq => hhere (.inr heq), hup⟩

theorem Plain.join_parts {path : String} (h : Plain path) : join (parts path) = path := by
  have hparts : (parts path).map String.toList = path.toList.splitOn '/' := by
    unfold parts
    unfold Plain at h
    rw [segments_posix] at h ⊢
    generalize path.toList.splitOn '/' = texts at h
    induction texts with
    | nil => rfl
    | cons text texts ih =>
      obtain ⟨⟨a, ha⟩, hrest⟩ := List.forall_mem_cons.mp h
      rw [List.map_cons, ha, names, List.map_cons, ih hrest, (readSegment_eq_name ha).1]
  rw [join, hparts, List.intercalate_splitOn, String.ofList_toList]

theorem isName_of_mem_parts {path name : String} (h : name ∈ parts path) : IsName name := by
  rw [parts, mem_names, segments_posix] at h
  obtain ⟨cs, hcs, hread⟩ := List.mem_map.mp h
  obtain ⟨rfl, hempty, hdot, hdots⟩ := readSegment_eq_name hread
  refine ⟨⟨?_, ?_, ?_⟩, Java.not_mem_of_mem_splitOn _ hcs⟩
  · rintro rfl
    exact hempty rfl
  · rintro rfl
    exact hdot rfl
  · rintro rfl
    exact hdots rfl

/-- The characters of a path that is made of the parts of another one. -/
theorem mem_join_parts {path : String} {c : Char} (h : c ∈ (join (parts path)).toList) :
    c = '/' ∨ c ∈ path.toList := by
  rw [join, String.toList_ofList] at h
  rcases Java.mem_intercalate h with rfl | ⟨part, hpart, hc⟩
  · exact .inl rfl
  · obtain ⟨a, ha, rfl⟩ := List.mem_map.mp hpart
    rw [parts, mem_names, segments_posix] at ha
    obtain ⟨cs, hcs, hread⟩ := List.mem_map.mp ha
    rw [(readSegment_eq_name hread).1] at hc
    exact .inr (Java.mem_of_mem_splitOn cs hcs hc)

theorem Plain.parts_ne_nil {path : String} (h : Plain path) : parts path ≠ [] := by
  intro hnil
  have hread := h.segments_eq
  rw [hnil, segments_posix] at hread
  simp at hread

end FilePath
end AppNG
