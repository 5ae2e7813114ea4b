/-!
# Lib.While

Loops with a condition in front, counted by their iterations.

`Ends cond body s n` says that the loop, started in `s`, ends after `n` iterations. A body without a
result throws, and with it the loop ends.

* `Ends.unique`: there is one such number.
* `ends_le_iff`: where no body throws, the loop ends within some number of iterations if and only if the
  condition fails by then, in one of the states that the body goes through.
* `not_ends`: it does not end where the condition holds in all of them.
-/

namespace AppNG
namespace While

variable {σ : Type} {cond : σ → Bool} {body : σ → Option σ}

inductive Ends (cond : σ → Bool) (body : σ → Option σ) : σ → Nat → Prop where
  | stopped {s : σ} : cond s = false → Ends cond body s 0
  | threw {s : σ} : cond s = true → body s = none → Ends cond body s 1
  | next {s t : σ} {n : Nat} :
      cond s = true → body s = some t → Ends cond body t n → Ends cond body s (n + 1)

theorem Ends.unique {s : σ} {n m : Nat} (h : Ends cond body s n) (h' : Ends cond body s m) :
    n = m := by
  induction h generalizing m with
  | stopped hcond =>
    cases h' with
    | stopped _ => rfl
    | threw hcond' _ => rw [hcond] at hcond'; cases hcond'
    | next hcond' _ _ => rw [hcond] at hcond'; cases hcond'
  | threw hcond hbody =>
    cases h' with
    | stopped hcond' => rw [hcond] at hcond'; cases hcond'
    | threw _ _ => rfl
    | next _ hbody' _ => rw [hbody] at hbody'; cases hbody'
  | next hcond hbody _ ih =>
    cases h' with
    | stopped hcond' => rw [hcond] at hcond'; cases hcond'
    | threw _ hbody' => rw [hbody] at hbody'; cases hbody'
    | next _ hbody' h' =>
      rw [hbody] at hbody'
      cases hbody'
      rw [ih h']

section States

variable {states : Nat → σ} (hbody : ∀ k, body (states k) = some (states (k + 1)))
include hbody

theorem exists_of_ends {n j : Nat} (h : Ends cond body (states j) n) :
    cond (states (j + n)) = false := by
  generalize hs : states j = s at h
  induction h generalizing j with
  | stopped hcond => rw [← hs] at hcond; exact hcond
  | threw _ hnone =>
    rw [← hs, hbody] at hnone
    cases hnone
  | @next s t n _ hsome _ ih =>
    rw [← hs, hbody] at hsome
    have hlater := ih (Option.some.inj hsome)
    rw [← hlater]
    congr 2
    omega

theorem ends_of_exists {k : Nat} : ∀ {j : Nat}, cond (states (j + k)) = false →
    ∃ n, n ≤ k ∧ Ends cond body (states j) n := by
  induction k with
  | zero => intro j h; exact ⟨0, Nat.le.refl, .stopped h⟩
  | succ k ih =>
    intro j h
    cases hcond : cond (states j) with
    | false => exact ⟨0, Nat.zero_le _, .stopped hcond⟩
    | true =>
      have hlater : cond (states (j + 1 + k)) = false := by
        rw [← h]
        congr 2
        omega
      obtain ⟨n, hn, hends⟩ := ih hlater
      exact ⟨n + 1, Nat.succ_le_succ hn, .next hcond (hbody j) hends⟩

theorem ends_le_iff {limit : Nat} : (∃ n, n ≤ limit ∧ Ends cond body (states 0) n) ↔
    ∃ k, k ≤ limit ∧ cond (states k) = false := by
  constructor
  · rintro ⟨n, hn, hends⟩
    have hcond := exists_of_ends hbody hends
    rw [Nat.zero_add] at hcond
    exact ⟨n, hn, hcond⟩
  · rintro ⟨k, hk, hcond⟩
    rw [← Nat.zero_add k] at hcond
    obtain ⟨n, hn, hends⟩ := ends_of_exists hbody hcond
    exact ⟨n, Nat.le_trans hn hk, hends⟩

theorem not_ends (hcond : ∀ k, cond (states k) = true) (n : Nat) :
    ¬ Ends cond body (states 0) n := by
  intro h
  have hstop := exists_of_ends hbody h
  rw [hcond] at hstop
  cases hstop

end States

end While
end AppNG
