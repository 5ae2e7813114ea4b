/-!
# Lib.Steady

Computations that write a state and may fail, but read only that part of the state that nothing writes.

`Gives I m c a` says that from every state in `I` the computation `m` gives `a` and keeps `I` if `c` holds, and
that it fails otherwise.

* `Gives.bind`, `Gives.mapM`, `Gives.foldlM`: such computations one after another.
* `Gives.bind_lift_iff`: what a run from one of the states ends with.
-/

namespace AppNG
namespace Steady

variable {σ α β : Type}

def Gives (I : σ → Prop) (m : StateT σ Option α) (c : Prop) (a : α) : Prop :=
  ∀ s, I s → (c → ∃ t, m s = some (a, t) ∧ I t) ∧ (¬ c → m s = none)

namespace Gives

variable {I : σ → Prop} {m : StateT σ Option α} {c c' : Prop} {a : α} {b : β}

theorem pure (a : α) : Gives I (Pure.pure a) True a :=
  fun s hs => ⟨fun _ => ⟨s, rfl, hs⟩, fun h => absurd trivial h⟩

theorem failure (a : α) : Gives I (Alternative.failure : StateT σ Option α) False a :=
  fun _ _ => ⟨False.elim, fun _ => rfl⟩

theorem lift {r : Option α} (hsome : c → r = some a) (hnone : ¬ c → r = none) : Gives I (StateT.lift r) c a := by
  intro s hs
  constructor
  · intro hc
    rw [hsome hc]
    exact ⟨s, rfl, hs⟩
  · intro hc
    rw [hnone hc]
    rfl

theorem congr (h : Gives I m c a) (hc : c ↔ c') : Gives I m c' a := by
  intro s hs
  rw [← hc]
  exact h s hs

theorem bind {f : α → StateT σ Option β} (hm : Gives I m c a) (hf : c → Gives I (f a) c' b) :
    Gives I (m >>= f) (c ∧ c') b := by
  intro s hs
  have hbind : (m >>= f) s = m s >>= fun p => f p.1 p.2 := rfl
  rw [hbind]
  by_cases hc : c
  · obtain ⟨t, hrun, ht⟩ := (hm s hs).1 hc
    rw [hrun]
    refine ⟨fun h => (hf hc t ht).1 h.2, ?_⟩
    intro h
    exact (hf hc t ht).2 fun hc' => h ⟨hc, hc'⟩
  · rw [(hm s hs).2 hc]
    exact ⟨fun h => absurd h.1 hc, fun _ => rfl⟩

theorem map (hm : Gives I m c a) (f : α → β) : Gives I (m >>= fun a => Pure.pure (f a)) c (f a) := by
  have h : Gives I (m >>= fun a => Pure.pure (f a)) (c ∧ True) (f a) := hm.bind fun _ => pure (f a)
  exact h.congr (by simp)

theorem mapM {l : List α} {f : α → StateT σ Option β} {g : α → β} {c : α → Prop}
    (hf : ∀ a ∈ l, Gives I (f a) (c a) (g a)) : Gives I (l.mapM f) (∀ a ∈ l, c a) (l.map g) := by
  induction l with
  | nil => exact (pure []).congr (by simp)
  | cons a l ih =>
    rw [List.mapM_cons]
    refine congr ?_ List.forall_mem_cons.symm
    refine (hf a List.mem_cons_self).bind fun _ => ?_
    exact (ih fun d hd => hf d (List.mem_cons_of_mem a hd)).map (g a :: ·)

/-- The condition of a step does not depend on what the steps before have made. -/
theorem foldlM {l : List α} {f : β → α → StateT σ Option β} {g : β → α → β} {c : α → Prop}
    (hf : ∀ b, ∀ a ∈ l, Gives I (f b a) (c a) (g b a)) (b : β) :
    Gives I (l.foldlM f b) (∀ a ∈ l, c a) (l.foldl g b) := by
  induction l generalizing b with
  | nil => exact (pure b).congr (by simp)
  | cons a l ih =>
    rw [List.foldlM_cons]
    refine congr ?_ List.forall_mem_cons.symm
    refine (hf b a List.mem_cons_self).bind fun _ => ?_
    exact ih (fun d a' ha' => hf d a' (List.mem_cons_of_mem a ha')) (g b a)

/-- What a run from one of the states ends with, if a computation that does not look at the state follows. -/
theorem bind_lift_iff (h : Gives I m c a) {s : σ} (hs : I s) (r : α → Option β) (b : β) :
    (∃ t, (m >>= fun x => StateT.lift (r x)) s = some (b, t)) ↔ c ∧ r a = some b := by
  have hbind : (m >>= fun x => StateT.lift (r x)) s = (m s).bind fun p => (r p.1).bind fun b => some (b, p.2) := rfl
  rw [hbind]
  by_cases hc : c
  · obtain ⟨t, hrun, -⟩ := (h s hs).1 hc
    rw [hrun, Option.bind_some]
    cases r a with
    | none => simp
    | some d => simp [hc]
  · rw [(h s hs).2 hc]
    simp [hc]

end Gives
end Steady
end AppNG
