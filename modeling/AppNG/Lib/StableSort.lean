import Mathlib.Data.List.Sort

/-!
# Lib.StableSort

Stable sorting with comparators that are chained: the first one that tells two elements apart decides.

* `lex_trans`: a chain of lawful comparators is lawful.
* `lex_eq`: what a chain says is what its first comparator says that tells the elements apart.
* `sort_congr`: a sort only compares an element with one that comes later.
* `sort_eq_iff`: two lawful comparators sort a list alike if and only if they agree on every element
  and a later one.
-/

namespace AppNG
namespace StableSort

open Std

variable {α β : Type}

/-- Elements that are not told apart stay in their order. -/
def sort (cmp : α → α → Ordering) (l : List α) : List α :=
  l.insertionSort fun a b => (cmp a b).isLE = true

/-- The first comparator that tells the elements apart decides. -/
def lex : List (α → α → Ordering) → α → α → Ordering
  | [] => fun _ _ => .eq
  | cmp :: cmps => compareLex cmp (lex cmps)

/-- The comparator for values that may be missing: `none` comes first. -/
def nullsFirst (cmp : β → β → Ordering) : Option β → Option β → Ordering
  | none, none => .eq
  | none, some _ => .lt
  | some _, none => .gt
  | some a, some b => cmp a b

/-! ## Comparators -/

variable {cmp cmp' : α → α → Ordering} {cmps : List (α → α → Ordering)} {l : List α}

theorem nullsFirst_trans {cmp : β → β → Ordering} (h : TransCmp cmp) : TransCmp (nullsFirst cmp) := by
  let ord : Ord β := ⟨cmp⟩
  have htrans : TransOrd β := h
  have heq : nullsFirst cmp = (compare : Option β → Option β → Ordering) := by
    funext a b
    cases a <;> cases b <;> rfl
  rw [heq]
  infer_instance

theorem comap_trans {cmp : β → β → Ordering} (h : TransCmp cmp) (f : α → β) :
    TransCmp fun a b => cmp (f a) (f b) where
  eq_swap := h.eq_swap
  isLE_trans := h.isLE_trans

theorem lex_trans (h : ∀ cmp ∈ cmps, TransCmp cmp) : TransCmp (lex cmps) := by
  induction cmps with
  | nil => exact { eq_swap := rfl, isLE_trans := fun _ _ => rfl }
  | cons cmp cmps ih =>
    have hhead : TransCmp cmp := h cmp List.mem_cons_self
    have htail : TransCmp (lex cmps) := ih fun c hc => h c (List.mem_cons_of_mem cmp hc)
    exact inferInstanceAs (TransCmp (compareLex cmp (lex cmps)))

theorem lex_eq (cmps : List (α → α → Ordering)) (a b : α) :
    lex cmps a b = ((cmps.find? fun cmp => cmp a b != .eq).map fun cmp => cmp a b).getD .eq := by
  induction cmps with
  | nil => rfl
  | cons cmp cmps ih =>
    rw [lex, compareLex, List.find?_cons]
    cases h : cmp a b with
    | eq =>
      rw [ih]
      rfl
    | lt => exact h.symm
    | gt => exact h.symm

/-! ## Sorting -/

theorem pair_sublist_cons {a b : α} (h : b ∈ l) : [a, b].Sublist (a :: l) :=
  (List.singleton_sublist.mpr h).cons_cons a

theorem pair_sublist_of_ne {a b : α} (ha : a ∈ l) (hb : b ∈ l) (hne : a ≠ b) :
    [a, b].Sublist l ∨ [b, a].Sublist l := by
  induction l with
  | nil => cases ha
  | cons c l ih =>
    rcases List.mem_cons.mp ha with rfl | ha'
    · have hb' : b ∈ l := (List.mem_cons.mp hb).resolve_left fun heq => hne heq.symm
      exact Or.inl (pair_sublist_cons hb')
    · rcases List.mem_cons.mp hb with rfl | hb'
      · exact Or.inr (pair_sublist_cons ha')
      · exact (ih ha' hb').imp (·.cons c) (·.cons c)

theorem orderedInsert_congr {r s : α → α → Prop} [DecidableRel r] [DecidableRel s] {a : α}
    (h : ∀ b ∈ l, (r a b ↔ s a b)) : l.orderedInsert r a = l.orderedInsert s a := by
  induction l with
  | nil => rfl
  | cons b l ih =>
    have hb : r a b ↔ s a b := h b List.mem_cons_self
    rw [List.orderedInsert_cons, List.orderedInsert_cons,
      ih fun c hc => h c (List.mem_cons_of_mem b hc)]
    exact if_congr hb rfl rfl

theorem sort_congr (h : ∀ a b, [a, b].Sublist l → (cmp a b).isLE = (cmp' a b).isLE) :
    sort cmp l = sort cmp' l := by
  unfold sort
  induction l with
  | nil => rfl
  | cons a l ih =>
    rw [List.insertionSort_cons, List.insertionSort_cons, ih fun b c hbc => h b c (hbc.cons a)]
    refine orderedInsert_congr fun b hb => ?_
    rw [h a b (pair_sublist_cons (List.mem_insertionSort _ |>.mp hb))]

theorem pairwise_sort (h : TransCmp cmp) (l : List α) :
    (sort cmp l).Pairwise fun a b => (cmp a b).isLE = true := by
  have htotal : Std.Total fun a b : α => (cmp a b).isLE = true := by
    refine ⟨fun a b => ?_⟩
    rw [h.eq_swap (a := b)]
    cases cmp a b <;> simp
  have htrans : IsTrans α fun a b => (cmp a b).isLE = true := ⟨fun a b c => h.isLE_trans⟩
  exact List.pairwise_insertionSort _ l

/-- What is in order stays in order. -/
theorem isLE_of_sort_eq (h' : TransCmp cmp') (heq : sort cmp l = sort cmp' l) {a b : α}
    (hab : [a, b].Sublist l) (hle : (cmp a b).isLE = true) : (cmp' a b).isLE = true := by
  have hsub : [a, b].Sublist (sort cmp l) := List.pair_sublist_insertionSort hle hab
  rw [heq] at hsub
  have hpair := (pairwise_sort h' l).sublist hsub
  exact (List.pairwise_cons.mp hpair).1 b List.mem_cons_self

theorem sort_eq_iff (h : TransCmp cmp) (h' : TransCmp cmp') :
    sort cmp l = sort cmp' l ↔ ∀ a b, [a, b].Sublist l → (cmp a b).isLE = (cmp' a b).isLE := by
  constructor
  · intro heq a b hab
    rw [Bool.eq_iff_iff]
    exact ⟨isLE_of_sort_eq h' heq hab, isLE_of_sort_eq h heq.symm hab⟩
  · exact sort_congr

end StableSort
end AppNG
