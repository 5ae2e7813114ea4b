import Mathlib.Data.List.Count
import Mathlib.Data.List.Nodup

/-!
# Lib.KeyedMerge

Lists whose elements have keys, and such a list merged into another.

`KeyedMerge key own inherited result` says that every key occurs once, with the own element if there
is one, and that the other inherited elements keep their order.

* `Overrides.replace`, `Overrides.insert`: an element takes the place of the one with its key, or is
  put anywhere.
* `MergeSteps.keyedMerge`: elements that override what has their keys, one after another, are merged.
-/

namespace AppNG

variable {α κ : Type} [DecidableEq κ]

structure KeyedMerge (key : α → κ) (own inherited result : List α) : Prop where
  once : ∀ k, k ∈ own.map key ∨ k ∈ inherited.map key → (result.map key).count k = 1
  wins : ∀ a ∈ result, a ∈ own ∨ a ∈ inherited ∧ key a ∉ own.map key
  order : (inherited.filter fun a => key a ∉ own.map key).Sublist result

/-- `a` is the only element of `bs` with its key, and the others are those of `as`. -/
structure Overrides (key : α → κ) (a : α) (as bs : List α) : Prop where
  others : (bs.filter fun b => key b ≠ key a) = as.filter fun b => key b ≠ key a
  single : (bs.filter fun b => key b = key a) = [a]

/-- The elements of a list override what has their keys, one after another. -/
inductive MergeSteps (key : α → κ) : List α → List α → List α → Prop where
  | nil {as : List α} : MergeSteps key [] as as
  | cons {a : α} {own as bs cs : List α} : Overrides key a as bs → MergeSteps key own bs cs →
    MergeSteps key (a :: own) as cs

variable {key : α → κ} {a b : α} {as bs own inherited result : List α}

theorem count_map_key (k : κ) (as : List α) :
    (as.map key).count k = (as.filter fun a => key a = k).length := by
  rw [List.count, List.countP_map, List.countP_eq_length_filter]
  rfl

theorem filter_key_eq_nil (h : key a ∉ as.map key) : (as.filter fun b => key b = key a) = [] := by
  rw [List.filter_eq_nil_iff]
  intro b hb hkey
  exact h (List.mem_map.mpr ⟨b, hb, of_decide_eq_true hkey⟩)

theorem Overrides.insert {l r : List α} (h : key a ∉ (l ++ r).map key) :
    Overrides key a (l ++ r) (l ++ a :: r) where
  others := by simp
  single := by
    rw [List.map_append, List.mem_append, not_or] at h
    simp [filter_key_eq_nil h.1, filter_key_eq_nil h.2]

theorem Overrides.replace {l r : List α} (h : ((l ++ b :: r).map key).Nodup) (hkey : key b = key a) :
    Overrides key a (l ++ b :: r) (l ++ a :: r) where
  others := by simp [hkey]
  single := by
    rw [List.map_append, List.map_cons, List.nodup_append, List.nodup_cons, hkey] at h
    obtain ⟨-, ⟨hr, -⟩, hl⟩ := h
    have hl : key a ∉ l.map key := fun hmem => hl _ hmem _ List.mem_cons_self rfl
    simp [filter_key_eq_nil hl, filter_key_eq_nil hr]

/-- A filter behind a weaker one. -/
theorem filter_filter_of_imp {p q : α → Bool} (h : ∀ a, q a = true → p a = true) (l : List α) :
    (l.filter p).filter q = l.filter q := by
  rw [List.filter_filter]
  refine List.filter_congr fun a _ => ?_
  cases hq : q a with
  | false => rfl
  | true => rw [h a hq]; rfl

theorem Overrides.nodup (h : Overrides key a as bs) (hnodup : (as.map key).Nodup) :
    (bs.map key).Nodup := by
  rw [List.nodup_iff_count_le_one] at hnodup ⊢
  intro k
  rw [count_map_key]
  by_cases hk : k = key a
  · rw [hk, h.single]
    exact Nat.le_refl 1
  · have himp : ∀ b, decide (key b = k) = true → decide (key b ≠ key a) = true := by
      intro b hb
      simpa [of_decide_eq_true hb] using hk
    rw [← filter_filter_of_imp himp, h.others, filter_filter_of_imp himp, ← count_map_key]
    exact hnodup k

/-- What a list of steps leaves of the inherited elements, and what it puts. -/
theorem MergeSteps.filter (h : MergeSteps key own inherited result) (hnodup : (own.map key).Nodup) :
    (result.filter fun b => key b ∉ own.map key) = (inherited.filter fun b => key b ∉ own.map key) ∧
      ∀ a ∈ own, (result.filter fun b => key b = key a) = [a] := by
  induction h with
  | nil => simp
  | @cons a own as bs cs hover _ ih =>
    rw [List.map_cons, List.nodup_cons] at hnodup
    obtain ⟨hothers, hsingle⟩ := ih hnodup.2
    have hrest : ∀ b, decide (key b ∉ (a :: own).map key) = true →
        decide (key b ∉ own.map key) = true := by
      intro b hb
      simp only [List.map_cons, List.mem_cons, not_or, decide_eq_true_eq] at hb ⊢
      exact hb.2
    have hhead : ∀ b, decide (key b ∉ (a :: own).map key) = true →
        decide (key b ≠ key a) = true := by
      intro b hb
      simp only [List.map_cons, List.mem_cons, not_or, decide_eq_true_eq] at hb ⊢
      exact hb.1
    have hown : ∀ b, decide (key b = key a) = true → decide (key b ∉ own.map key) = true := by
      intro b hb
      rw [of_decide_eq_true hb]
      exact decide_eq_true hnodup.1
    refine ⟨?_, List.forall_mem_cons.mpr ⟨?_, hsingle⟩⟩
    · rw [← filter_filter_of_imp hrest, hothers, filter_filter_of_imp hrest,
        ← filter_filter_of_imp hhead, hover.others, filter_filter_of_imp hhead]
    · rw [← filter_filter_of_imp hown, hothers, filter_filter_of_imp hown, hover.single]

theorem MergeSteps.keyedMerge (h : MergeSteps key own inherited result)
    (hown : (own.map key).Nodup) (hinherited : (inherited.map key).Nodup) :
    KeyedMerge key own inherited result := by
  obtain ⟨hothers, hsingle⟩ := h.filter hown
  have hkept : ∀ k, k ∉ own.map key → (result.filter fun b => key b = k) =
      inherited.filter fun b => key b = k := by
    intro k hk
    have himp : ∀ b, decide (key b = k) = true → decide (key b ∉ own.map key) = true := by
      intro b hb
      rw [of_decide_eq_true hb]
      exact decide_eq_true hk
    rw [← filter_filter_of_imp himp, hothers, filter_filter_of_imp himp]
  refine ⟨fun k hk => ?_, fun b hb => ?_, ?_⟩
  · by_cases hmem : k ∈ own.map key
    · obtain ⟨a, ha, rfl⟩ := List.mem_map.mp hmem
      rw [count_map_key, hsingle a ha]
      rfl
    · rw [count_map_key, hkept k hmem, ← count_map_key]
      exact List.count_eq_one_of_mem hinherited (hk.resolve_left hmem)
  · by_cases hmem : key b ∈ own.map key
    · obtain ⟨a, ha, hkey⟩ := List.mem_map.mp hmem
      have hfilter : b ∈ result.filter fun c => key c = key a :=
        List.mem_filter.mpr ⟨hb, decide_eq_true hkey.symm⟩
      rw [hsingle a ha, List.mem_singleton] at hfilter
      exact .inl (hfilter ▸ ha)
    · have hfilter : b ∈ inherited.filter fun c => key c = key b :=
        hkept _ hmem ▸ List.mem_filter.mpr ⟨hb, decide_eq_true rfl⟩
      exact .inr ⟨(List.mem_filter.mp hfilter).1, hmem⟩
  · rw [← hothers]
    exact List.filter_sublist

theorem KeyedMerge.of_injective {ι : Type} [DecidableEq ι] {f : κ → ι} (hf : Function.Injective f)
    (h : KeyedMerge (fun a => f (key a)) own inherited result) : KeyedMerge key own inherited result := by
  have hmap : ∀ l : List α, (l.map fun a => f (key a)) = (l.map key).map f := by simp
  have hmem : ∀ (k : κ) (l : List α), f k ∈ (l.map fun a => f (key a)) ↔ k ∈ l.map key := by
    intro k l
    rw [hmap, List.mem_map_of_injective hf]
  refine ⟨fun k hk => ?_, fun a ha => ?_, ?_⟩
  · have honce := h.once (f k) (by rwa [hmem, hmem])
    rwa [hmap, List.count_map_of_injective _ f hf] at honce
  · have hwins := h.wins a ha
    rwa [hmem] at hwins
  · have horder := h.order
    simp only [hmem] at horder
    exact horder

end AppNG
