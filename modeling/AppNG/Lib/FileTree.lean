import AppNG.Lib.Keyed

/-!
# Lib.FileTree

The files of a file system, by the names on the way to them: a file is no directory, so none is on
the way to another.

`delete` is a directory with everything below it, or a file. `write` puts a file in the place of what
is there, and fails where a file stands in the place of a directory that is needed.

* `FileTree.mem_write`, `FileTree.write_eq_none`: what is there afterwards, and when it fails.
-/

namespace AppNG

structure PathFile (α B : Type) where
  path : List α
  bytes : B
  deriving DecidableEq, Repr

structure FileTree (α B : Type) where
  files : Keyed (PathFile.path (α := α) (B := B))
  /-- a file is no directory -/
  leaf : ∀ a ∈ files.values, ∀ b ∈ files.values, a.path <+: b.path → a = b

namespace FileTree

variable {α B : Type} {tree written : FileTree α B} {file other : PathFile α B} {path : List α}

instance : Membership (PathFile α B) (FileTree α B) := ⟨fun tree file => file ∈ tree.files.values⟩

theorem mem_iff : file ∈ tree ↔ file ∈ tree.files.values := Iff.rfl

variable [DecidableEq α]

def delete (tree : FileTree α B) (path : List α) : FileTree α B where
  files := tree.files.filter fun file => ¬ path <+: file.path
  leaf a ha b hb := tree.leaf a (Keyed.mem_filter.mp ha).1 b (Keyed.mem_filter.mp hb).1

@[simp] theorem mem_delete : file ∈ tree.delete path ↔ file ∈ tree ∧ ¬ path <+: file.path := by
  rw [mem_iff, mem_iff, delete, Keyed.mem_filter, decide_eq_true_eq]

/-- A file is where a directory is needed. -/
def Blocked (tree : FileTree α B) (path : List α) : Prop :=
  ∃ file ∈ tree.files.values, file.path <+: path ∧ file.path ≠ path

instance : Decidable (Blocked tree path) := by unfold Blocked; infer_instance

theorem leaf_put (h : ¬ Blocked tree file.path) :
    ∀ a ∈ ((tree.delete file.path).files.put file).values,
      ∀ b ∈ ((tree.delete file.path).files.put file).values, a.path <+: b.path → a = b := by
  intro a ha b hb hpre
  rcases Keyed.mem_put.mp ha with rfl | ⟨ha, hne⟩ <;> rcases Keyed.mem_put.mp hb with rfl | ⟨hb, -⟩
  · rfl
  · exact absurd hpre (mem_delete.mp hb).2
  · exact absurd ⟨a, (mem_delete.mp ha).1, hpre, hne⟩ h
  · exact (tree.delete file.path).leaf a ha b hb hpre

/-- What is in the place of the file is deleted. -/
def write (tree : FileTree α B) (file : PathFile α B) : Option (FileTree α B) :=
  if h : Blocked tree file.path then none
  else some ⟨(tree.delete file.path).files.put file, leaf_put h⟩

theorem write_eq_none : tree.write file = none ↔ Blocked tree file.path := by
  simp [write]

theorem mem_write (h : tree.write file = some written) :
    other ∈ written ↔ other = file ∨ other ∈ tree ∧ ¬ file.path <+: other.path := by
  unfold write at h
  split at h
  · cases h
  · cases h
    rw [mem_iff, Keyed.mem_put]
    constructor
    · rintro (rfl | ⟨hmem, -⟩)
      · exact .inl rfl
      · exact .inr (mem_delete.mp hmem)
    · rintro (rfl | hmem)
      · exact .inl rfl
      · exact .inr ⟨mem_delete.mpr hmem, fun heq => hmem.2 (heq ▸ List.prefix_refl _)⟩

end FileTree
end AppNG
