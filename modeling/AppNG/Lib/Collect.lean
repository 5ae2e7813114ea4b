/-!
# Lib.Collect

Parts of a computation that collect lists, and may have no result.

`whilePresent element body` goes through the elements that there are, from an index on, and stops at the
first one that is missing.

* `whilePresent_eq_some`: the elements that it goes through, and what it collects.
* `append_eq_iff`, `flatMap_range_eq_iff`: where no part collects more than it should, all of them together
  collect what they should if and only if each one does.
* `exists_enough`: some number of iterations is enough for all of finitely many parts.
-/

namespace AppNG
namespace Collect

variable {α β : Type}

/-- What two parts collect, one after the other. -/
def andThen : Option (List β) → Option (List β) → Option (List β)
  | none, _ => none
  | some u, y => y.map (u ++ ·)

theorem andThen_eq_some {x y : Option (List β)} {t : List β} :
    andThen x y = some t ↔ ∃ u v, x = some u ∧ y = some v ∧ t = u ++ v := by
  cases x with
  | none => simp [andThen]
  | some u => simp [andThen, eq_comm]

theorem append_eq_iff {u v a b : List β} (hu : u.length ≤ a.length) (hv : v.length ≤ b.length) :
    u ++ v = a ++ b ↔ u = a ∧ v = b := by
  constructor
  · intro h
    have hlength := congrArg List.length h
    simp only [List.length_append] at hlength
    exact List.append_inj h (by omega)
  · rintro ⟨rfl, rfl⟩
    rfl

section

variable {ι : Type} {t a : ι → List β}

theorem length_flatMap_le {is : List ι} (hle : ∀ i ∈ is, (t i).length ≤ (a i).length) :
    (is.flatMap t).length ≤ (is.flatMap a).length := by
  induction is with
  | nil => simp
  | cons i is ih =>
    rw [List.forall_mem_cons] at hle
    have hlater := ih hle.2
    simp only [List.flatMap_cons, List.length_append]
    omega

theorem flatMap_eq_iff {is : List ι} (hle : ∀ i ∈ is, (t i).length ≤ (a i).length) :
    is.flatMap t = is.flatMap a ↔ ∀ i ∈ is, t i = a i := by
  induction is with
  | nil => simp
  | cons i is ih =>
    rw [List.forall_mem_cons] at hle
    rw [List.flatMap_cons, List.flatMap_cons, append_eq_iff hle.1 (length_flatMap_le hle.2), ih hle.2,
      List.forall_mem_cons]

end

theorem flatMap_filter (p : α → Bool) (f : α → List β) (as : List α) :
    (as.filter p).flatMap f = as.flatMap fun a => if p a then f a else [] := by
  induction as with
  | nil => rfl
  | cons a as ih =>
    rw [List.filter_cons, List.flatMap_cons, ← ih]
    split <;> rfl

theorem range_split {n m : Nat} (hnm : n ≤ m) : List.range m = List.range n ++ List.range' n (m - n) := by
  have happend := List.range'_append_1 (s := 0) (m := n) (n := m - n)
  rw [Nat.zero_add, Nat.add_sub_cancel' hnm] at happend
  rw [List.range_eq_range', List.range_eq_range', happend]

theorem length_flatMap_range_le {t a : Nat → List β} {n m : Nat}
    (hle : ∀ i < n, (t i).length ≤ (a i).length) (hnm : n ≤ m) :
    ((List.range n).flatMap t).length ≤ ((List.range m).flatMap a).length := by
  rw [range_split hnm, List.flatMap_append, List.length_append]
  exact Nat.le_add_right_of_le (length_flatMap_le fun i hi => hle i (List.mem_range.mp hi))

theorem flatMap_range_eq_iff {t a : Nat → List β} {n m : Nat}
    (hle : ∀ i < n, (t i).length ≤ (a i).length) (hnm : n ≤ m) :
    (List.range n).flatMap t = (List.range m).flatMap a ↔
      (∀ i < n, t i = a i) ∧ ∀ i, n ≤ i → i < m → a i = [] := by
  have hmem : ∀ i ∈ List.range n, (t i).length ≤ (a i).length := fun i hi => hle i (List.mem_range.mp hi)
  calc (List.range n).flatMap t = (List.range m).flatMap a
    _ ↔ (List.range n).flatMap t ++ [] =
        (List.range n).flatMap a ++ (List.range' n (m - n)).flatMap a := by
      rw [range_split hnm, List.flatMap_append, List.append_nil]
    _ ↔ (List.range n).flatMap t = (List.range n).flatMap a ∧
        [] = (List.range' n (m - n)).flatMap a :=
      append_eq_iff (length_flatMap_le hmem) (Nat.zero_le _)
    _ ↔ (∀ i < n, t i = a i) ∧ ∀ i, n ≤ i → i < m → a i = [] := by
      rw [flatMap_eq_iff hmem, eq_comm, List.flatMap_eq_nil_iff]
      simp only [List.mem_range, List.mem_range'_1, Nat.add_sub_cancel' hnm, and_imp]

/-! ## Elements until one is missing -/

/-- For a number of elements at most; none: a body has no result, or there are more elements. -/
def whilePresent (element : Nat → Option α) (body : Nat → α → Option (List β)) :
    Nat → Nat → Option (List β)
  | 0, i => if (element i).isSome then none else some []
  | iterations + 1, i =>
    match element i with
    | none => some []
    | some a => andThen (body i a) (whilePresent element body iterations (i + 1))

/-- What is collected of an index. -/
def part (element : Nat → Option α) (body : Nat → α → Option (List β)) (i : Nat) : List β :=
  match element i with
  | none => []
  | some a => (body i a).getD []

theorem part_eq {element : Nat → Option α} {body : Nat → α → Option (List β)} {i : Nat} {a : α}
    {t : List β} (ha : element i = some a) (ht : body i a = some t) : part element body i = t := by
  simp only [part, ha, ht, Option.getD_some]

theorem flatMap_range_succ_left {f : Nat → List β} {n : Nat} :
    (List.range (n + 1)).flatMap f = f 0 ++ (List.range n).flatMap fun j => f (j + 1) := by
  rw [List.range_succ_eq_map, List.flatMap_cons, List.flatMap_map]

theorem whilePresent_eq_some {element : Nat → Option α} {body : Nat → α → Option (List β)}
    {k i : Nat} {t : List β} :
    whilePresent element body k i = some t ↔ ∃ n ≤ k, element (i + n) = none ∧
      (∀ j < n, ∃ a u, element (i + j) = some a ∧ body (i + j) a = some u) ∧
      t = (List.range n).flatMap fun j => part element body (i + j) := by
  induction k generalizing i t with
  | zero =>
    simp only [whilePresent, Nat.le_zero, exists_eq_left, Nat.add_zero, Nat.not_lt_zero, false_implies,
      implies_true, true_and, List.range_zero, List.flatMap_nil]
    cases element i with
    | none => simp [eq_comm]
    | some a => simp
  | succ k ih =>
    rw [whilePresent]
    cases hi : element i with
    | none =>
      constructor
      · rintro ⟨⟩
        exact ⟨0, Nat.zero_le _, hi, by simp, rfl⟩
      · rintro ⟨n, _, _, hbefore, rfl⟩
        cases n with
        | zero => rfl
        | succ n =>
          obtain ⟨a, _, ha, _⟩ := hbefore 0 (Nat.succ_pos n)
          rw [Nat.add_zero, hi] at ha
          cases ha
    | some a =>
      simp only [andThen_eq_some, ih]
      constructor
      · rintro ⟨u, v, hu, ⟨n, hn, hmissing, hbefore, rfl⟩, rfl⟩
        refine ⟨n + 1, Nat.succ_le_succ hn, ?_, ?_, ?_⟩
        · rw [← hmissing]
          congr 1
          omega
        · intro j hj
          cases j with
          | zero => exact ⟨a, u, hi, hu⟩
          | succ j =>
            have hshift : i + (j + 1) = i + 1 + j := by omega
            rw [hshift]
            exact hbefore j (Nat.lt_of_succ_lt_succ hj)
        · rw [flatMap_range_succ_left]
          simp only [Nat.add_zero, part_eq hi hu, Nat.add_assoc, Nat.add_comm 1]
      · rintro ⟨n, hn, hmissing, hbefore, rfl⟩
        cases n with
        | zero =>
          rw [Nat.add_zero, hi] at hmissing
          cases hmissing
        | succ n =>
          obtain ⟨a', u, ha', hu⟩ := hbefore 0 (Nat.succ_pos n)
          rw [Nat.add_zero] at ha' hu
          obtain rfl : a = a' := Option.some.inj (hi.symm.trans ha')
          refine ⟨u, _, hu, ⟨n, Nat.le_of_succ_le_succ hn, ?_, ?_, rfl⟩, ?_⟩
          · rw [← hmissing]
            congr 1
            omega
          · intro j hj
            have hshift : i + 1 + j = i + (j + 1) := by omega
            rw [hshift]
            exact hbefore (j + 1) (Nat.succ_lt_succ hj)
          · rw [flatMap_range_succ_left]
            simp only [Nat.add_zero, part_eq hi hu, Nat.add_assoc, Nat.add_comm 1]

/-- A number that is enough for each one of finitely many is below some that is enough for all. -/
theorem exists_enough {P : Nat → Nat → Prop} {n : Nat}
    (hmono : ∀ i k l, P i k → k ≤ l → P i l) (h : ∀ i < n, ∃ k, P i k) :
    ∃ k, n ≤ k ∧ ∀ i < n, P i k := by
  induction n with
  | zero => exact ⟨0, Nat.le_refl 0, fun i hi => absurd hi (Nat.not_lt_zero i)⟩
  | succ n ih =>
    obtain ⟨k, hk, hall⟩ := ih fun i hi => h i (Nat.lt_succ_of_lt hi)
    obtain ⟨l, hl⟩ := h n (Nat.lt_succ_self n)
    refine ⟨k + l + 1, by omega, fun i hi => ?_⟩
    rcases Nat.lt_succ_iff_lt_or_eq.mp hi with hi | rfl
    · exact hmono i k _ (hall i hi) (by omega)
    · exact hmono i l _ hl (by omega)

end Collect
end AppNG
