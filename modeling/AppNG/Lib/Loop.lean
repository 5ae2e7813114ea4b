/-!
# Lib.Loop

Loops that stop at the first exception.

`foldUntil f s as` runs the body `f` over `as`, threading the state; a body that throws ends the
loop with the state it leaves behind. `Reaches f s as t a` says that the loop, started in `s`,
comes to `a` with state `t`.

* `foldUntil_append_ok`: a loop that ends normally goes on with what follows.
* `foldUntil_threw`: an exception of the loop is the exception of one element it reaches.
* `foldUntil_inv`: what every body preserves holds at the end, thrown or not.
* `foldUntil_ok`: the bodies of a loop that ends normally do not throw.
* `foldUntil_collect`: what every body appends to a list is what the loop appends to it.
* `mapM_error`, `mapM_ok_mem`: what a map that may throw comes from.
* `bind_eq_ok`, `foldlM_inv`: what comes before the result of a computation that may throw, and what every
  body of such a loop preserves.
* `forall_split_cons`: a statement on every element and its neighbours, along a list.
* `foldUntil_exact_iff`: where a body does what it should for the elements with a property, the loop
  does so up to every element if and only if all of them have it.
-/

namespace AppNG
namespace Loop

variable {σ α ε : Type}

def foldUntil (f : σ → α → σ × Option ε) : σ → List α → σ × Option ε
  | s, [] => (s, none)
  | s, a :: as =>
    match f s a with
    | (s', some e) => (s', some e)
    | (s', none) => foldUntil f s' as

inductive Reaches (f : σ → α → σ × Option ε) : σ → List α → σ → α → Prop where
  | here {s : σ} {a : α} {as : List α} : Reaches f s (a :: as) s a
  | there {s s' t : σ} {a b : α} {as : List α} :
      f s a = (s', none) → Reaches f s' as t b → Reaches f s (a :: as) t b

variable {f : σ → α → σ × Option ε}

theorem foldUntil_cons_ok {s s' : σ} {a : α} {as : List α} (h : f s a = (s', none)) :
    foldUntil f s (a :: as) = foldUntil f s' as := by
  rw [foldUntil, h]

theorem foldUntil_cons_threw {s s' : σ} {e : ε} {a : α} {as : List α}
    (h : f s a = (s', some e)) : foldUntil f s (a :: as) = (s', some e) := by
  rw [foldUntil, h]

theorem foldUntil_append_ok {t : σ} {bs : List α} :
    ∀ {as : List α} {s : σ}, foldUntil f s as = (t, none) →
      foldUntil f s (as ++ bs) = foldUntil f t bs := by
  intro as
  induction as with
  | nil => intro s h; cases h; rfl
  | cons a as ih =>
    intro s h
    cases hf : f s a with
    | mk s' o =>
      cases o with
      | some e => rw [foldUntil_cons_threw hf] at h; cases h
      | none =>
        rw [foldUntil_cons_ok hf] at h
        rw [List.cons_append, foldUntil_cons_ok hf, ih h]

theorem foldUntil_threw {e : ε} {t : σ} :
    ∀ {as : List α} {s : σ}, foldUntil f s as = (t, some e) →
      ∃ u a, Reaches f s as u a ∧ f u a = (t, some e) := by
  intro as
  induction as with
  | nil => intro s h; cases h
  | cons a as ih =>
    intro s h
    cases hf : f s a with
    | mk s' o =>
      cases o with
      | some e' =>
        rw [foldUntil_cons_threw hf] at h
        exact ⟨s, a, .here, hf.trans h⟩
      | none =>
        rw [foldUntil_cons_ok hf] at h
        obtain ⟨u, b, hr, hb⟩ := ih h
        exact ⟨u, b, .there hf hr, hb⟩

theorem Reaches.mem {s t : σ} {as : List α} {a : α} (h : Reaches f s as t a) : a ∈ as := by
  induction h with
  | here => exact List.mem_cons_self
  | there _ _ ih => exact List.mem_cons_of_mem _ ih

/-- The exception of a loop is the exception of one of its bodies. -/
theorem foldUntil_threw_mem {e : ε} {s : σ} {as : List α} (h : (foldUntil f s as).2 = some e) :
    ∃ u a, a ∈ as ∧ (f u a).2 = some e := by
  obtain ⟨u, a, hreaches, hthrew⟩ := foldUntil_threw (t := (foldUntil f s as).1) (Prod.ext rfl h)
  exact ⟨u, a, hreaches.mem, congrArg Prod.snd hthrew⟩

theorem foldUntil_ok {t : σ} :
    ∀ {as : List α} {s : σ}, foldUntil f s as = (t, none) → ∀ a ∈ as, ∃ u v, f u a = (v, none) := by
  intro as
  induction as with
  | nil => intro s _ a ha; cases ha
  | cons b as ih =>
    intro s h a ha
    cases hf : f s b with
    | mk s' o =>
      cases o with
      | some e => rw [foldUntil_cons_threw hf] at h; cases h
      | none =>
        rw [foldUntil_cons_ok hf] at h
        rcases List.mem_cons.mp ha with rfl | ha
        · exact ⟨s, s', hf⟩
        · exact ih h a ha

/-- The invariant rule. The body may use that its element is one of the list. -/
theorem foldUntil_inv {P : σ → Prop} {as : List α}
    (step : ∀ s a, a ∈ as → P s → P (f s a).1) :
    ∀ {s : σ}, P s → P (foldUntil f s as).1 := by
  induction as with
  | nil => intro s hs; exact hs
  | cons a as ih =>
    intro s hs
    have ha : P (f s a).1 := step s a List.mem_cons_self hs
    cases hf : f s a with
    | mk s' o =>
      rw [hf] at ha
      cases o with
      | some e => rw [foldUntil_cons_threw hf]; exact ha
      | none =>
        rw [foldUntil_cons_ok hf]
        exact ih (fun t b hb => step t b (List.mem_cons_of_mem _ hb)) ha

/-- A loop that ends normally appends to `m` what its bodies append, in order. -/
theorem foldUntil_collect {β : Type} {m : σ → List β} {g : α → List β}
    (step : ∀ s s' a, f s a = (s', none) → m s' = m s ++ g a) {t : σ} :
    ∀ {as : List α} {s : σ}, foldUntil f s as = (t, none) → m t = m s ++ as.flatMap g := by
  intro as
  induction as with
  | nil => intro s h; cases h; simp
  | cons a as ih =>
    intro s h
    cases hf : f s a with
    | mk s' o =>
      cases o with
      | some e => rw [foldUntil_cons_threw hf] at h; cases h
      | none =>
        rw [foldUntil_cons_ok hf] at h
        rw [ih h, step s s' a hf, List.flatMap_cons, List.append_assoc]

theorem foldUntil_append_singleton {s t : σ} {as : List α} {a : α} (h : foldUntil f s as = (t, none)) :
    foldUntil f s (as ++ [a]) = f t a := by
  rw [foldUntil_append_ok h]
  cases hf : f t a with
  | mk u o =>
    cases o with
    | none => rw [foldUntil_cons_ok hf, foldUntil]
    | some e => rw [foldUntil_cons_threw hf]

/-- After every element the loop goes on and has appended what it should. -/
theorem foldUntil_exact_iff {β : Type} {f : List β → α → List β × Option ε} {g : α → List β}
    {P : α → Prop} (step : ∀ s a, f s a = (s ++ g a, none) ↔ P a) (s : List β) (as : List α) :
    (∀ pre post, as = pre ++ post → foldUntil f s pre = (s ++ pre.flatMap g, none)) ↔
      ∀ a ∈ as, P a := by
  constructor
  · intro h a ha
    obtain ⟨pre, post, rfl⟩ := List.append_of_mem ha
    have hbefore : foldUntil f s pre = (s ++ pre.flatMap g, none) := h pre (a :: post) rfl
    have hafter := h (pre ++ [a]) post (by simp)
    rw [foldUntil_append_singleton hbefore] at hafter
    refine (step (s ++ pre.flatMap g) a).mp ?_
    rw [hafter]
    simp
  · rintro h pre post rfl
    have hpre : ∀ a ∈ pre, P a := fun a ha => h a (List.mem_append_left post ha)
    clear h
    induction pre generalizing s with
    | nil => simp [foldUntil]
    | cons a pre ih =>
      have ha : f s a = (s ++ g a, none) := (step s a).mpr (hpre a List.mem_cons_self)
      rw [foldUntil_cons_ok ha, ih (s ++ g a) fun b hb => hpre b (List.mem_cons_of_mem a hb),
        List.flatMap_cons, List.append_assoc]

/-- What is said of every element with what is before and after it, for the first one and the others. -/
theorem forall_split_cons {P : List α → α → List α → Prop} {a : α} {as : List α} :
    (∀ pre b post, a :: as = pre ++ b :: post → P pre b post) ↔
      P [] a as ∧ ∀ pre b post, as = pre ++ b :: post → P (a :: pre) b post := by
  constructor
  · intro h
    refine ⟨h [] a as rfl, fun pre b post heq => h (a :: pre) b post ?_⟩
    rw [heq, List.cons_append]
  · rintro ⟨hhead, htail⟩ pre b post heq
    cases pre with
    | nil =>
      obtain ⟨rfl, rfl⟩ := List.cons.inj heq
      exact hhead
    | cons c pre =>
      obtain ⟨rfl, hsplit⟩ := List.cons.inj heq
      exact htail pre b post hsplit

/-! ## Maps that throw -/

variable {β : Type} {g : α → Except ε β} {as : List α}

theorem mapM_error {e : ε} (h : as.mapM g = .error e) : ∃ a ∈ as, g a = .error e := by
  induction as with
  | nil => cases h
  | cons a as ih =>
    rw [List.mapM_cons] at h
    cases ha : g a with
    | error e' =>
      rw [ha] at h
      cases h
      exact ⟨a, List.mem_cons_self, ha⟩
    | ok b =>
      rw [ha] at h
      cases hrest : as.mapM g with
      | error e' =>
        obtain ⟨a', hmem, hthrew⟩ := ih (by rw [hrest] at h ⊢; exact h)
        exact ⟨a', List.mem_cons_of_mem a hmem, hthrew⟩
      | ok bs =>
        rw [hrest] at h
        cases h

theorem mapM_ok_mem {bs : List β} (h : as.mapM g = .ok bs) {b : β} (hb : b ∈ bs) :
    ∃ a ∈ as, g a = .ok b := by
  induction as generalizing bs with
  | nil =>
    cases h
    cases hb
  | cons a as ih =>
    rw [List.mapM_cons] at h
    cases ha : g a with
    | error e =>
      rw [ha] at h
      cases h
    | ok b' =>
      rw [ha] at h
      cases hrest : as.mapM g with
      | error e =>
        rw [hrest] at h
        cases h
      | ok bs' =>
        rw [hrest] at h
        cases h
        rcases List.mem_cons.mp hb with rfl | hb
        · exact ⟨a, List.mem_cons_self, ha⟩
        · obtain ⟨a', hmem, hok⟩ := ih hrest hb
          exact ⟨a', List.mem_cons_of_mem a hmem, hok⟩

/-! ## Computations that throw -/

variable {α₁ β₁ : Type}

theorem bind_eq_ok {m : Except ε α₁} {f : α₁ → Except ε β₁} {b : β₁} :
    (m >>= f) = .ok b ↔ ∃ a, m = .ok a ∧ f a = .ok b := by
  cases m with
  | error e => exact iff_of_false nofun (by rintro ⟨a, ha, -⟩; cases ha)
  | ok a => exact ⟨fun h => ⟨a, rfl, h⟩, by rintro ⟨a', ha, h⟩; cases ha; exact h⟩

theorem foldlM_inv {f : σ → α → Except ε σ} {P : σ → Prop} {as : List α}
    (hstep : ∀ s a t, a ∈ as → P s → f s a = .ok t → P t) {s t : σ} (h₀ : P s)
    (h : as.foldlM f s = .ok t) : P t := by
  induction as generalizing s with
  | nil =>
    cases h
    exact h₀
  | cons a as ih =>
    rw [List.foldlM_cons, bind_eq_ok] at h
    obtain ⟨s', hs', hrest⟩ := h
    exact ih (fun u b v hb => hstep u b v (List.mem_cons_of_mem a hb))
      (hstep s a s' List.mem_cons_self h₀ hs') hrest

end Loop
end AppNG
