import Mathlib.Data.List.Chain

/-!
# Lib.LiveList

A loop over the indices of a list, which takes elements out of that same list while it goes on.

* `takeOut_eq`: the loop ends, and what it has taken out.
* `out_eq_filter_iff`: it is all that should be taken out if and only if nothing of that kind directly follows another.
-/

namespace AppNG
namespace LiveList

variable {α : Type} (p : α → Bool)

/-- At index `j`, with what is taken out so far. What follows an element that is taken out moves to its index.
None: out of fuel. -/
def takeOut : Nat → Nat → List α → List α → Option (List α × List α)
  | 0, _, _, _ => none
  | fuel + 1, j, list, taken =>
    match list[j]? with
    | none => some (list, taken)
    | some a =>
      if p a then takeOut fuel (j + 1) (list.eraseIdx j) (taken ++ [a])
      else takeOut fuel (j + 1) list taken

/-- What is taken out of a list: the element behind one that is taken out is not looked at. -/
def out : List α → List α
  | [] => []
  | [a] => if p a then [a] else []
  | a :: b :: as => if p a then a :: out as else out (b :: as)

theorem takeOut_end {fuel j : Nat} {front : List α} (taken : List α) (hj : front.length ≤ j) :
    takeOut p (fuel + 1) j front taken = some (front, taken) := by
  rw [takeOut, List.getElem?_eq_none hj]

theorem takeOut_keep {fuel : Nat} (front : List α) {a : α} (as taken : List α) (ha : p a = false) :
    takeOut p (fuel + 1) front.length (front ++ a :: as) taken =
      takeOut p fuel (front ++ [a]).length ((front ++ [a]) ++ as) taken := by
  rw [takeOut, List.getElem?_append_right (Nat.le_refl _), Nat.sub_self]
  simp [ha]

theorem takeOut_take {fuel : Nat} (front : List α) {a : α} (as taken : List α) (ha : p a = true) :
    takeOut p (fuel + 1) front.length (front ++ a :: as) taken =
      takeOut p fuel (front.length + 1) (front ++ as) (taken ++ [a]) := by
  rw [takeOut, List.getElem?_append_right (Nat.le_refl _), Nat.sub_self]
  simp [ha, List.eraseIdx_append_of_length_le]

theorem takeOut_eq (as : List α) : ∀ {fuel : Nat} (front taken : List α), as.length < fuel →
    ∃ left, takeOut p fuel front.length (front ++ as) taken = some (left, taken ++ out p as) := by
  induction as using out.induct (p := p) with
  | case1 =>
    intro fuel front taken hfuel
    obtain ⟨fuel, rfl⟩ := Nat.exists_eq_add_one_of_ne_zero (Nat.ne_of_gt hfuel)
    rw [List.append_nil, takeOut_end p taken (Nat.le_refl _)]
    exact ⟨front, by rw [out, List.append_nil]⟩
  | case2 a ha =>
    intro fuel front taken hfuel
    obtain ⟨fuel, rfl⟩ : ∃ n, fuel = n + 1 + 1 := ⟨fuel - 2, by simp at hfuel; omega⟩
    rw [takeOut_take p front [] taken ha, List.append_nil, takeOut_end p _ (Nat.le_succ _)]
    exact ⟨front, by rw [out, if_pos ha]⟩
  | case3 a ha =>
    intro fuel front taken hfuel
    obtain ⟨fuel, rfl⟩ : ∃ n, fuel = n + 1 + 1 := ⟨fuel - 2, by simp at hfuel; omega⟩
    rw [takeOut_keep p front [] taken (Bool.eq_false_iff.mpr ha), List.append_nil, takeOut_end p _ (Nat.le_refl _)]
    exact ⟨front ++ [a], by rw [out, if_neg ha, List.append_nil]⟩
  | case4 a b as ha ih =>
    intro fuel front taken hfuel
    obtain ⟨fuel, rfl⟩ := Nat.exists_eq_add_one_of_ne_zero (Nat.ne_of_gt (Nat.lt_of_le_of_lt (Nat.zero_le _) hfuel))
    -- the next element is now in front of the index
    have hsplit : front ++ b :: as = (front ++ [b]) ++ as := by simp
    have hlength : front.length + 1 = (front ++ [b]).length := by simp
    rw [takeOut_take p front (b :: as) taken ha, hsplit, hlength]
    have hless : as.length < fuel := by simp only [List.length_cons] at hfuel; omega
    obtain ⟨left, hleft⟩ := ih (front ++ [b]) (taken ++ [a]) hless
    refine ⟨left, hleft.trans ?_⟩
    rw [out, if_pos ha, List.append_assoc, List.singleton_append]
  | case5 a b as ha ih =>
    intro fuel front taken hfuel
    obtain ⟨fuel, rfl⟩ := Nat.exists_eq_add_one_of_ne_zero (Nat.ne_of_gt (Nat.lt_of_le_of_lt (Nat.zero_le _) hfuel))
    rw [takeOut_keep p front (b :: as) taken (Bool.eq_false_iff.mpr ha), out, if_neg ha]
    exact ih (front ++ [a]) taken (Nat.lt_of_succ_lt_succ hfuel)

theorem out_sublist (as : List α) : (out p as).Sublist (as.filter p) := by
  induction as using out.induct (p := p) with
  | case1 => exact .slnil
  | case2 a ha => simp [out, ha]
  | case3 a ha => simp [out, ha]
  | case4 a b as ha ih =>
    rw [out, if_pos ha, List.filter_cons_of_pos ha]
    exact (ih.trans ((List.sublist_cons_self b as).filter p)).cons_cons a
  | case5 a b as ha ih => rwa [out, if_neg ha, List.filter_cons_of_neg ha]

theorem out_eq_filter_iff (as : List α) :
    out p as = as.filter p ↔ as.IsChain fun a b => p a = true → p b = false := by
  induction as using out.induct (p := p) with
  | case1 => simp [out]
  | case2 a ha => simp [out, ha]
  | case3 a ha => simp [out, ha]
  | case4 a b as ha ih =>
    rw [out, if_pos ha, List.filter_cons_of_pos ha, List.isChain_cons_cons, List.cons_inj_right]
    cases hb : p b with
    | true =>
      -- the one behind is a member of the list, but is not taken out
      refine iff_of_false (fun heq => ?_) fun ⟨h, _⟩ => Bool.noConfusion (h ha)
      have hle := (out_sublist p as).length_le
      rw [heq, List.filter_cons_of_pos hb, List.length_cons] at hle
      omega
    | false =>
      rw [List.filter_cons_of_neg (Bool.eq_false_iff.mp hb), ih, List.isChain_cons]
      simp [hb]
  | case5 a b as ha ih =>
    rw [out, if_neg ha, List.filter_cons_of_neg ha, ih, List.isChain_cons_cons]
    simp [ha]

end LiveList
end AppNG
