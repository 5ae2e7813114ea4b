import Mathlib.Logic.Basic

/-!
# Lib.Champion

The loop that goes through a list and keeps an element until it meets one that beats it.

`Beats` need not be transitive: the rules say what the loop finds all the same.

* `champion_undominated`: if the list has an element that nothing beats and that itself beats every
  element but such ones, then nothing beats the element found.
-/

namespace AppNG
namespace Champion

variable {α : Type} {beats : α → α → Bool}

def keep (beats : α → α → Bool) (current : Option α) (a : α) : Option α :=
  match current with
  | none => some a
  | some b => if beats a b then some a else some b

def champion (beats : α → α → Bool) (current : Option α) (as : List α) : Option α :=
  as.foldl (keep beats) current

@[simp] theorem champion_nil (current : Option α) : champion beats current [] = current := rfl

@[simp] theorem champion_cons (current : Option α) (a : α) (as : List α) :
    champion beats current (a :: as) = champion beats (keep beats current a) as := rfl

theorem keep_mem {current : Option α} {a c : α} (h : keep beats current a = some c) :
    c = a ∨ current = some c := by
  unfold keep at h
  split at h
  · exact .inl (Option.some.inj h).symm
  · split at h
    · exact .inl (Option.some.inj h).symm
    · exact .inr h

theorem keep_isSome (current : Option α) (a : α) : (keep beats current a).isSome := by
  unfold keep
  split
  · rfl
  · split <;> rfl

theorem champion_mem {c : α} : ∀ {as : List α} {current : Option α},
    champion beats current as = some c → c ∈ as ∨ current = some c := by
  intro as
  induction as with
  | nil => intro current h; exact .inr h
  | cons a as ih =>
    intro current h
    rcases ih h with hc | hc
    · exact .inl (List.mem_cons_of_mem a hc)
    · rcases keep_mem hc with rfl | hc
      · exact .inl List.mem_cons_self
      · exact .inr hc

theorem champion_isSome : ∀ {as : List α} {current : Option α},
    current.isSome → (champion beats current as).isSome := by
  intro as
  induction as with
  | nil => intro current h; exact h
  | cons a as ih => intro current _; exact ih (keep_isSome current a)

theorem champion_eq_none {as : List α} : champion beats none as = none ↔ as = [] := by
  cases as with
  | nil => simp
  | cons a as =>
    have hsome : (champion beats (some a) as).isSome := champion_isSome rfl
    constructor
    · intro h
      have hnone : champion beats (some a) as = none := h
      rw [hnone] at hsome
      cases hsome
    · intro h
      cases h

theorem champion_isSome_of_mem {a : α} {as : List α} (h : a ∈ as) :
    (champion beats none as).isSome := by
  rw [Option.isSome_iff_ne_none, ne_eq, champion_eq_none]
  exact List.ne_nil_of_mem h

/-- An element that nothing in the list beats is kept. -/
theorem champion_of_undominated {c : α} : ∀ {as : List α},
    (∀ a ∈ as, beats a c = false) → champion beats (some c) as = some c := by
  intro as
  induction as with
  | nil => intro _; rfl
  | cons a as ih =>
    intro h
    have ha : keep beats (some c) a = some c := by simp [keep, h a List.mem_cons_self]
    rw [champion_cons, ha]
    exact ih fun b hb => h b (List.mem_cons_of_mem a hb)

/-- No element of `S` beats `c`. -/
def Undominated (beats : α → α → Bool) (S : α → Prop) (c : α) : Prop :=
  ∀ a, S a → beats a c = false

/-- Once the loop meets `best`, it holds an undominated element, and keeps it. -/
theorem champion_undominated {S : α → Prop} {best : α} (hbest : Undominated beats S best)
    (hwin : ∀ c, S c → Undominated beats S c ∨ beats best c = true) :
    ∀ {as : List α} {current : Option α}, (∀ a ∈ as, S a) → (∀ c, current = some c → S c) →
      best ∈ as → ∃ c, champion beats current as = some c ∧ Undominated beats S c := by
  intro as
  induction as with
  | nil => intro current _ _ hmem; cases hmem
  | cons a as ih =>
    intro current has hcurrent hmem
    have hrest : ∀ b ∈ as, S b := fun b hb => has b (List.mem_cons_of_mem a hb)
    have kept : ∀ c, Undominated beats S c → keep beats current a = some c →
        ∃ d, champion beats current (a :: as) = some d ∧ Undominated beats S d := by
      intro c hc hkeep
      refine ⟨c, ?_, hc⟩
      rw [champion_cons, hkeep]
      exact champion_of_undominated fun b hb => hc b (hrest b hb)
    rcases List.mem_cons.mp hmem with rfl | hmem
    · cases current with
      | none => exact kept best hbest rfl
      | some b =>
        by_cases hb : beats best b = true
        · exact kept best hbest (by simp [keep, hb])
        · have hund : Undominated beats S b := (hwin b (hcurrent b rfl)).resolve_right hb
          exact kept b hund (by simp [keep, hb])
    · refine ih hrest (fun c hc => ?_) hmem
      rcases keep_mem hc with rfl | hc
      · exact has c List.mem_cons_self
      · exact hcurrent c hc

end Champion
end AppNG
