/-!
# Lib.ChildNodes

The children of a node, which are told apart by numbers, and what is inserted in front of one of them.

* `insertBefore_split`: where a new child goes.
* `filter_number`: children that are removed one by one.
-/

namespace AppNG
namespace ChildNodes

variable {α : Type}

/-- Children with their numbers. -/
abbrev Nodes (α : Type) := List (Nat × α)

/-- Without a reference the child is added at the end. None: the reference is no child. -/
def insertBefore (node : Nat × α) : Option Nat → Nodes α → Option (Nodes α)
  | none, nodes => some (nodes ++ [node])
  | some _, [] => none
  | some reference, first :: nodes =>
    if first.1 = reference then some (node :: first :: nodes)
    else (insertBefore node (some reference) nodes).map (first :: ·)

def removeChild (nodes : Nodes α) (id : Nat) : Nodes α := nodes.filter fun node => node.1 != id

/-- The numbers from `n` on are not used. -/
def Below (n : Nat) (nodes : Nodes α) : Prop := ∀ node ∈ nodes, node.1 < n

theorem Below.mono {m n : Nat} {nodes : Nodes α} (h : Below m nodes) (hle : m ≤ n) : Below n nodes :=
  fun node hnode => Nat.lt_of_lt_of_le (h node hnode) hle

theorem below_append {n : Nat} {nodes others : Nodes α} :
    Below n (nodes ++ others) ↔ Below n nodes ∧ Below n others := List.forall_mem_append

theorem insertBefore_split (node : Nat × α) {before : Nodes α} {reference : Nat × α}
    (hnot : ∀ other ∈ before, other.1 ≠ reference.1) (behind : Nodes α) :
    insertBefore node (some reference.1) (before ++ reference :: behind) =
      some (before ++ node :: reference :: behind) := by
  induction before with
  | nil => exact if_pos rfl
  | cons first before ih =>
    obtain ⟨hfirst, hrest⟩ := List.forall_mem_cons.mp hnot
    rw [List.cons_append, insertBefore, if_neg hfirst, ih hrest]
    rfl

theorem removeChild_filter (nodes : Nodes α) (ids : List Nat) :
    ids.foldl removeChild nodes = nodes.filter fun node => !ids.contains node.1 := by
  induction ids generalizing nodes with
  | nil => exact (List.filter_eq_self.mpr fun _ _ => rfl).symm
  | cons id ids ih =>
    rw [List.foldl_cons, ih, removeChild, List.filter_filter]
    refine List.filter_congr fun node _ => ?_
    by_cases hid : node.1 = id
    · simp [hid]
    · simp [hid]

/-! ## Numbers -/

def number : Nat → List α → Nodes α
  | _, [] => []
  | n, a :: as => (n, a) :: number (n + 1) as

@[simp] theorem map_snd_number (n : Nat) (as : List α) : (number n as).map Prod.snd = as := by
  induction as generalizing n with
  | nil => rfl
  | cons a as ih => rw [number, List.map_cons, ih]

theorem number_append_singleton (n : Nat) (as : List α) (a : α) :
    number n (as ++ [a]) = number n as ++ [(n + as.length, a)] := by
  induction as generalizing n with
  | nil => rfl
  | cons b as ih =>
    rw [List.cons_append, number, ih, number, List.length_cons, Nat.succ_add_eq_add_succ]
    rfl

theorem filter_snd_number (n : Nat) (as : List α) (p : α → Bool) :
    ((number n as).filter fun node => p node.2).map Prod.snd = as.filter p := by
  have hfilter := List.filter_map (p := p) (f := Prod.snd) (l := number n as)
  rw [map_snd_number] at hfilter
  exact hfilter.symm

theorem number_range {n : Nat} {as : List α} : ∀ node ∈ number n as, n ≤ node.1 ∧ node.1 < n + as.length := by
  induction as generalizing n with
  | nil => exact nofun
  | cons a as ih =>
    rw [number, List.forall_mem_cons, List.length_cons]
    refine ⟨⟨Nat.le_refl n, by omega⟩, fun node hnode => ?_⟩
    have hrange := ih node hnode
    omega

theorem number_pairwise (n : Nat) (as : List α) : (number n as).Pairwise fun node other => node.1 < other.1 := by
  induction as generalizing n with
  | nil => exact .nil
  | cons a as ih =>
    rw [number, List.pairwise_cons]
    exact ⟨fun node hnode => (number_range node hnode).1, ih (n + 1)⟩

theorem number_inj {n : Nat} {as : List α} {node other : Nat × α} (hnode : node ∈ number n as)
    (hother : other ∈ number n as) (h : node.1 = other.1) : node = other := by
  induction as generalizing n with
  | nil => cases hnode
  | cons a as ih =>
    rw [number, List.mem_cons] at hnode hother
    rcases hnode with rfl | hnode
    · rcases hother with rfl | hother
      · rfl
      · exact absurd (number_range other hother).1 (by omega)
    · rcases hother with rfl | hother
      · exact absurd (number_range node hnode).1 (by omega)
      · exact ih hnode hother

/-- Children that are removed by their numbers. -/
theorem filter_number {n : Nat} {as : List α} (p : Nat × α → Bool) :
    ((number n as).filter p |>.map Prod.fst).foldl removeChild (number n as) =
      (number n as).filter fun node => !p node := by
  rw [removeChild_filter]
  refine List.filter_congr fun node hnode => ?_
  rw [Bool.not_inj_iff, Bool.eq_iff_iff, List.contains_iff_mem, List.mem_map]
  constructor
  · rintro ⟨other, hother, hfst⟩
    obtain ⟨hmem, hp⟩ := List.mem_filter.mp hother
    rwa [← number_inj hmem hnode hfst]
  · exact fun hp => ⟨node, List.mem_filter.mpr ⟨hnode, hp⟩, rfl⟩

end ChildNodes
end AppNG
