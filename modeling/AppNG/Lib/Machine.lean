/-!
# Lib.Machine

Runs of a machine that takes labelled steps.

`Run step s es t` says that the machine gets from `s` to `t` with the events `es`.

* `Run.foldl`, `Run.foldlM`: the run of a machine whose steps are a function, or a partial one.
* `Run.inv`: what every step preserves holds in every state reached. The invariant may speak of
  the events so far.
* `Run.stepped`: every event of a run is the label of a step from a state that is reached before.
* `Run.broughtAbout`: what holds at the end of a run, and did not at its beginning, was brought about by
  one of its events, and holds ever since.
* `Run.inv_iff`: where a step from a good state leads to a good one if and only if its label is
  allowed there, all states of a run are good if and only if all its labels are allowed.
* `Run.inv_iff_of_inv`: the same with an invariant that only has to be kept between good states.
* `foldl_inv_iff`: `Run.inv_iff` for a machine whose steps are a function.
* `foldl_inv_of_allowed`: an invariant that allowed steps keep, along a run of such steps.
-/

namespace AppNG
namespace Machine

variable {σ ε : Type}

inductive Run (step : σ → ε → σ → Prop) (s : σ) : List ε → σ → Prop where
  | nil : Run step s [] s
  | snoc {es : List ε} {t u : σ} {e : ε} : Run step s es t → step t e u → Run step s (es ++ [e]) u

variable {step : σ → ε → σ → Prop} {s t u : σ} {es : List ε} {e : ε}

theorem Run.single (h : step s e t) : Run step s [e] t := .snoc .nil h

theorem Run.append {fs : List ε} (h₁ : Run step s es t) (h₂ : Run step t fs u) :
    Run step s (es ++ fs) u := by
  induction h₂ with
  | nil => rw [List.append_nil]; exact h₁
  | snoc _ hstep ih =>
    rw [← List.append_assoc]
    exact .snoc ih hstep

/-- The run of a machine whose steps are a function. -/
theorem Run.foldl (f : σ → ε → σ) (s : σ) (es : List ε) :
    Run (fun t e u => f t e = u) s es (es.foldl f s) := by
  induction es generalizing s with
  | nil => exact .nil
  | cons e es ih => exact (Run.single rfl).append (ih (f s e))

/-- The run of a machine whose steps are a partial function. -/
theorem Run.foldlM {f : σ → ε → Option σ} (h : es.foldlM f s = some t) :
    Run (fun t e u => f t e = some u) s es t := by
  induction es generalizing s with
  | nil =>
    cases h
    exact .nil
  | cons e es ih =>
    rw [List.foldlM_cons] at h
    obtain ⟨u, hu, hrest⟩ := Option.bind_eq_some_iff.mp h
    exact (Run.single hu).append (ih hrest)

/-- The invariant rule, with the events so far. -/
theorem Run.inv {P : List ε → σ → Prop} (hinit : P [] s)
    (hstep : ∀ es t e u, P es t → step t e u → P (es ++ [e]) u) (h : Run step s es t) :
    P es t := by
  induction h with
  | nil => exact hinit
  | snoc _ hs ih => exact hstep _ _ _ _ ih hs

theorem Run.stepped (h : Run step s es t) :
    ∀ e ∈ es, ∃ pre v w post, es = pre ++ e :: post ∧ Run step s pre v ∧ step v e w := by
  induction h with
  | nil => intro e he; cases he
  | @snoc es t u f hr hstep ih =>
    intro e he
    rcases List.mem_append.mp he with he | he
    · obtain ⟨pre, v, w, post, rfl, hpre, hv⟩ := ih e he
      exact ⟨pre, v, w, post ++ [f], by simp, hpre, hv⟩
    · obtain rfl := List.mem_singleton.mp he
      exact ⟨es, t, u, [], rfl, hr, hstep⟩

/-- An event of the run has brought `F` about, in the way that `G` says, and `F` holds ever since. -/
def BroughtAbout (step : σ → ε → σ → Prop) (s : σ) (es : List ε) (t : σ) (F : σ → Prop)
    (G : σ → ε → σ → Prop) : Prop :=
  ∃ pre e post v w, es = pre ++ e :: post ∧ Run step s pre v ∧ step v e w ∧ G v e w ∧ F w ∧
    Run (fun t e u => step t e u ∧ F u) w post t

theorem Run.broughtAbout {F : σ → Prop} {G : σ → ε → σ → Prop} (hinit : ¬ F s)
    (hstep : ∀ es t e u, Run step s es t → step t e u → F u → F t ∨ G t e u) (h : Run step s es t)
    (hF : F t) : BroughtAbout step s es t F G := by
  induction h with
  | nil => exact absurd hF hinit
  | @snoc es t u e hrun hs ih =>
    rcases hstep es t e u hrun hs hF with hbefore | hcause
    · obtain ⟨pre, f, post, v, w, rfl, hpre, hv, hG, hw, hsince⟩ := ih hbefore
      exact ⟨pre, f, post ++ [e], v, w, by simp, hpre, hv, hG, hw, .snoc hsince ⟨hs, hF⟩⟩
    · exact ⟨es, e, [], t, u, rfl, hrun, hs, hcause, hF, .nil⟩

theorem Run.inv_iff {Good : σ → Prop} {Allowed : σ → ε → Prop} (hinit : Good s)
    (htotal : ∀ t e, ∃ u, step t e u)
    (hstep : ∀ t e u, Good t → step t e u → (Good u ↔ Allowed t e)) (es : List ε) :
    (∀ pre post t, es = pre ++ post → Run step s pre t → Good t) ↔
      ∀ pre e post t, es = pre ++ e :: post → Run step s pre t → Allowed t e := by
  constructor
  · intro h pre e post t hes hrun
    obtain ⟨u, hu⟩ := htotal t e
    have hgood : Good t := h pre (e :: post) t hes hrun
    exact (hstep t e u hgood hu).mp (h (pre ++ [e]) post u (by simp [hes]) (.snoc hrun hu))
  · intro h pre post t hes hrun
    induction hrun generalizing post with
    | nil => exact hinit
    | @snoc pre t u e hrun hu ih =>
      have hes : es = pre ++ e :: post := by simp [hes]
      exact (hstep t e u (ih (e :: post) hes) hu).mpr (h pre e post t hes hrun)

/-- An invariant that steps between good states keep, along a run through such states. -/
theorem Run.inv_of_good {Inv Good : σ → Prop} (hinit : Inv s)
    (hinv : ∀ t e u, Inv t → Good t → step t e u → Inv u) {es : List ε}
    (hgood : ∀ pre post t, es = pre ++ post → Run step s pre t → Good t) :
    ∀ pre post t, es = pre ++ post → Run step s pre t → Inv t := by
  intro pre post t hes hrun
  induction hrun generalizing post with
  | nil => exact hinit
  | @snoc pre t u e hrun hu ih =>
    have hes : es = pre ++ e :: post := by simp [hes]
    exact hinv t e u (ih (e :: post) hes) (hgood pre (e :: post) t hes hrun) hu

/-- `Run.inv_iff` for goodness that is decided with the help of an invariant. -/
theorem Run.inv_iff_of_inv {Inv Good : σ → Prop} {Allowed : σ → ε → Prop} (hinit : Inv s)
    (hgood : Good s) (htotal : ∀ t e, ∃ u, step t e u)
    (hinv : ∀ t e u, Inv t → Good t → step t e u → Inv u)
    (hstep : ∀ t e u, Inv t → Good t → step t e u → (Good u ↔ Allowed t e)) (es : List ε) :
    (∀ pre post t, es = pre ++ post → Run step s pre t → Good t) ↔
      ∀ pre e post t, es = pre ++ e :: post → Run step s pre t → Allowed t e := by
  have hboth : ∀ t e u, Inv t ∧ Good t → step t e u → (Inv u ∧ Good u ↔ Allowed t e) := by
    rintro t e u ⟨hi, hg⟩ hu
    rw [and_iff_right (hinv t e u hi hg hu)]
    exact hstep t e u hi hg hu
  refine Iff.trans ?_ (Run.inv_iff ⟨hinit, hgood⟩ htotal hboth es)
  constructor
  · intro h pre post t hes hrun
    exact ⟨Run.inv_of_good hinit hinv h pre post t hes hrun, h pre post t hes hrun⟩
  · intro h pre post t hes hrun
    exact (h pre post t hes hrun).2

theorem Run.eq_foldl {f : σ → ε → σ} (h : Run (fun t e u => f t e = u) s es t) :
    t = es.foldl f s := by
  induction h with
  | nil => rfl
  | snoc _ hstep ih => rw [List.foldl_append, ← ih, ← hstep, List.foldl_cons, List.foldl_nil]

/-- `Run.inv_iff` for a machine whose steps are a function. -/
theorem foldl_inv_iff {f : σ → ε → σ} {Good : σ → Prop} {Allowed : σ → ε → Prop} (hinit : Good s)
    (hstep : ∀ t e, Good t → (Good (f t e) ↔ Allowed t e)) (es : List ε) :
    (∀ pre post, es = pre ++ post → Good (pre.foldl f s)) ↔
      ∀ pre e post, es = pre ++ e :: post → Allowed (pre.foldl f s) e := by
  have hstep' : ∀ t e u, Good t → f t e = u → (Good u ↔ Allowed t e) := by
    rintro t e u hgood rfl
    exact hstep t e hgood
  refine Iff.trans ?_ (Iff.trans (Run.inv_iff hinit (fun t e => ⟨f t e, rfl⟩) hstep' es) ?_)
  · constructor
    · intro h pre post t hes hrun
      exact hrun.eq_foldl ▸ h pre post hes
    · intro h pre post hes
      exact h pre post _ hes (Run.foldl f s pre)
  · constructor
    · intro h pre e post hes
      exact h pre e post _ hes (Run.foldl f s pre)
    · intro h pre e post t hes hrun
      exact hrun.eq_foldl ▸ h pre e post hes

/-- The invariant rule for a run whose steps all are allowed. -/
theorem foldl_inv_of_allowed {f : σ → ε → σ} {Inv : σ → Prop} {Allowed : σ → ε → Prop} (hinit : Inv s)
    (hstep : ∀ t e, Inv t → Allowed t e → Inv (f t e)) {es : List ε}
    (h : ∀ pre e post, es = pre ++ e :: post → Allowed (pre.foldl f s) e) :
    ∀ pre post, es = pre ++ post → Inv (pre.foldl f s) := by
  induction es generalizing s with
  | nil =>
    intro pre post hes
    obtain ⟨rfl, _⟩ := List.append_eq_nil_iff.mp hes.symm
    exact hinit
  | cons e es ih =>
    intro pre post hes
    cases pre with
    | nil => exact hinit
    | cons first pre =>
      obtain ⟨rfl, hrest⟩ := List.cons.inj hes
      have hfirst : Inv (f s e) := hstep s e hinit (h [] e es rfl)
      refine ih hfirst (fun pre' e' post' hes' => ?_) pre post hrest
      exact h (e :: pre') e' post' (by rw [hes', List.cons_append])

end Machine
end AppNG
