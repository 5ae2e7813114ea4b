import Mathlib.Data.Fintype.Card
import Mathlib.Data.Set.Finite.List
import Mathlib.Logic.Relation

/-!
# Lib.Descent

Depth first search for a goal, without a record of the places it has been to.

`branches a` lists what there is at a place, in the order it is tried: a goal, where the search ends,
another place to search first, or nothing. `none` is the search that goes deeper than `d` allows.

* `search_finds`: a search that returns says whether a goal can be reached.
* `search_none_iff`: the search enters just the places in front of which it has found nothing, and goes too deep
  if and only if it does from one of those.
* `halts_iff`: so over finitely many places it returns if and only if it never comes to a place that it
  enters again from there.
-/

namespace AppNG
namespace Descent

inductive Branch (α : Type) where
  | nothing
  | goal
  | place (a : α)
  deriving DecidableEq, Repr

section

variable {α : Type} (branches : α → List (Branch α))

def tryAll (recur : α → Option Bool) : List (Branch α) → Option Bool
  | [] => some false
  | .nothing :: rest => tryAll recur rest
  | .goal :: _ => some true
  | .place a :: rest =>
    match recur a with
    | none => none
    | some true => some true
    | some false => tryAll recur rest

def search : Nat → α → Option Bool
  | 0, _ => none
  | d + 1, a => tryAll (search d) (branches a)

def Child (a b : α) : Prop := .place b ∈ branches a

/-- A goal can be reached. -/
def Finds (a : α) : Prop := ∃ b, Relation.ReflTransGen (Child branches) a b ∧ .goal ∈ branches b

/-- What ends the search where it is tried. -/
def Hits : Branch α → Prop
  | .nothing => False
  | .goal => True
  | .place a => Finds branches a

/-- A place that is tried: no goal is found in front of it. -/
def Tried (es : List (Branch α)) (b : α) : Prop :=
  ∃ pre post, es = pre ++ .place b :: post ∧ ∀ e ∈ pre, ¬ Hits branches e

def Enters (a b : α) : Prop := Tried branches (branches a) b

def Halts (a : α) : Prop := ∃ d, search branches d a ≠ none

end

section

variable {α : Type} {branches : α → List (Branch α)} {recur : α → Option Bool}

theorem finds_iff {a : α} : Finds branches a ↔ ∃ e ∈ branches a, Hits branches e := by
  constructor
  · rintro ⟨b, hpath, hgoal⟩
    rcases Relation.ReflTransGen.cases_head hpath with rfl | ⟨c, hchild, hrest⟩
    · exact ⟨.goal, hgoal, trivial⟩
    · exact ⟨.place c, hchild, b, hrest, hgoal⟩
  · rintro ⟨e, he, hhits⟩
    cases e with
    | nothing => exact hhits.elim
    | goal => exact ⟨a, .refl, he⟩
    | place c =>
      obtain ⟨b, hpath, hgoal⟩ := hhits
      exact ⟨b, .head he hpath, hgoal⟩

theorem enters_child {a b : α} (h : Enters branches a b) : Child branches a b := by
  obtain ⟨pre, post, hsplit, _⟩ := h
  rw [Child, hsplit]
  exact List.mem_append_right _ List.mem_cons_self

@[simp] theorem tried_nil {b : α} : ¬ Tried branches [] b := by
  rintro ⟨pre, post, hsplit, _⟩
  simp at hsplit

theorem tried_cons {e : Branch α} {es : List (Branch α)} {b : α} :
    Tried branches (e :: es) b ↔ e = .place b ∨ (¬ Hits branches e ∧ Tried branches es b) := by
  constructor
  · rintro ⟨pre, post, hsplit, hpre⟩
    cases pre with
    | nil => exact .inl (List.cons.inj hsplit).1
    | cons e' pre =>
      obtain ⟨rfl, hrest⟩ := List.cons.inj hsplit
      obtain ⟨hnot, hpre⟩ := List.forall_mem_cons.mp hpre
      exact .inr ⟨hnot, pre, post, hrest, hpre⟩
  · rintro (rfl | ⟨hnot, pre, post, rfl, hpre⟩)
    · exact ⟨[], es, rfl, by simp⟩
    · exact ⟨e :: pre, post, rfl, List.forall_mem_cons.mpr ⟨hnot, hpre⟩⟩

/-- What the trials of a list return, as long as the calls are right. -/
theorem tryAll_hits {es : List (Branch α)}
    (hrecur : ∀ b, .place b ∈ es → ∀ found, recur b = some found →
      (found = true ↔ Finds branches b)) :
    ∀ found, tryAll recur es = some found → (found = true ↔ ∃ e ∈ es, Hits branches e) := by
  induction es with
  | nil =>
    intro found h
    cases h
    simp
  | cons e rest ih =>
    intro found h
    have ih := ih fun b hb => hrecur b (List.mem_cons_of_mem _ hb)
    cases e with
    | nothing =>
      rw [ih found h]
      simp [Hits]
    | goal =>
      cases h
      simp [Hits]
    | place a =>
      have ha := hrecur a List.mem_cons_self
      simp only [tryAll] at h
      split at h
      · cases h
      · rename_i hfound
        cases h
        simpa [Hits] using Or.inl ((ha true hfound).mp rfl)
      · rename_i hnot
        have hfinds : ¬ Finds branches a := fun hf => by cases (ha false hnot).mpr hf
        rw [ih found h]
        simp [Hits, hfinds]

theorem search_finds {d : Nat} : ∀ {a : α} {found : Bool},
    search branches d a = some found → (found = true ↔ Finds branches a) := by
  induction d with
  | zero => intro a found h; cases h
  | succ d ih =>
    intro a found h
    rw [finds_iff]
    exact tryAll_hits (fun b _ found hb => ih hb) found h

/-- The trials break off if and only if a call does before a goal is found. -/
theorem tryAll_none_iff {es : List (Branch α)}
    (hrecur : ∀ b found, recur b = some found → (found = true ↔ Finds branches b)) :
    tryAll recur es = none ↔ ∃ b, Tried branches es b ∧ recur b = none := by
  induction es with
  | nil => simp [tryAll]
  | cons e rest ih =>
    cases e with
    | nothing => simp [tryAll, ih, tried_cons, Hits]
    | goal => simp [tryAll, tried_cons, Hits]
    | place a =>
      cases ha : recur a with
      | none =>
        simp only [tryAll, ha, true_iff]
        exact ⟨a, tried_cons.mpr (.inl rfl), ha⟩
      | some found =>
        have hfinds := hrecur a found ha
        have hother {b : α} (hb : recur b = none) : (Branch.place a = .place b) = False := by
          simp only [eq_iff_iff, iff_false, Branch.place.injEq]
          rintro rfl
          rw [ha] at hb
          cases hb
        cases found with
        | true =>
          have hhits : Hits branches (.place a) := hfinds.mp rfl
          simp only [tryAll, ha]
          refine ⟨fun h => (by cases h), ?_⟩
          rintro ⟨b, htried, hb⟩
          rw [tried_cons, hother hb] at htried
          simp [hhits] at htried
        | false =>
          have hnot : ¬ Hits branches (.place a) := fun hf => (by cases hfinds.mpr hf)
          simp only [tryAll, ha]
          rw [ih]
          refine exists_congr fun b => and_congr_left fun hb => ?_
          rw [tried_cons, hother hb]
          simp [hnot]

theorem search_none_iff {d : Nat} {a : α} :
    search branches (d + 1) a = none ↔ ∃ b, Enters branches a b ∧ search branches d b = none := by
  rw [search, tryAll_none_iff fun b found => search_finds]
  rfl

theorem search_mono {d : Nat} : ∀ {a : α}, search branches d a ≠ none →
    search branches (d + 1) a ≠ none := by
  induction d with
  | zero => intro a h; exact absurd rfl h
  | succ d ih =>
    intro a h hnone
    obtain ⟨b, henters, hb⟩ := search_none_iff.mp hnone
    exact h (search_none_iff.mpr ⟨b, henters, not_not.mp fun hd => ih hd hb⟩)

theorem search_le {d e : Nat} (hle : d ≤ e) {a : α} (h : search branches d a ≠ none) :
    search branches e a ≠ none := by
  induction hle with
  | refl => exact h
  | step _ ih => exact search_mono ih

/-! ## How deep the search goes -/

/-- One depth is enough for the finitely many branches of a place. -/
theorem exists_depth {a : α} {es : List (Branch α)}
    (h : ∀ b, Enters branches a b → Halts branches b) :
    ∃ d, ∀ b, .place b ∈ es → Enters branches a b → search branches d b ≠ none := by
  induction es with
  | nil => exact ⟨0, by simp⟩
  | cons e rest ih =>
    obtain ⟨d, hd⟩ := ih
    by_cases hb : ∃ b, e = .place b ∧ Enters branches a b
    · obtain ⟨b, rfl, henters⟩ := hb
      obtain ⟨d', hd'⟩ := h b henters
      refine ⟨max d d', fun c hc hac => ?_⟩
      rcases List.mem_cons.mp hc with heq | hc
      · cases heq
        exact search_le (Nat.le_max_right d d') hd'
      · exact search_le (Nat.le_max_left d d') (hd c hc hac)
    · refine ⟨d, fun c hc hac => ?_⟩
      rcases List.mem_cons.mp hc with heq | hc
      · exact absurd ⟨c, heq.symm, hac⟩ hb
      · exact hd c hc hac

theorem halts_step {a : α} : Halts branches a ↔ ∀ b, Enters branches a b → Halts branches b := by
  constructor
  · rintro ⟨d, hd⟩ b henters
    cases d with
    | zero => exact absurd rfl hd
    | succ d => exact ⟨d, fun hb => hd (search_none_iff.mpr ⟨b, henters, hb⟩)⟩
  · intro h
    obtain ⟨d, hd⟩ : ∃ d, ∀ b, .place b ∈ branches a → Enters branches a b →
        search branches d b ≠ none := exists_depth h
    refine ⟨d + 1, fun hnone => ?_⟩
    obtain ⟨b, henters, hb⟩ := search_none_iff.mp hnone
    exact hd b (enters_child henters) henters hb

theorem halts_iff_acc {a : α} : Halts branches a ↔ Acc (fun b a => Enters branches a b) a := by
  constructor
  · rintro ⟨d, hd⟩
    induction d generalizing a with
    | zero => exact absurd rfl hd
    | succ d ih =>
      exact ⟨a, fun b henters => ih fun hb => hd (search_none_iff.mpr ⟨b, henters, hb⟩)⟩
  · intro hacc
    induction hacc with
    | intro a _ ih => exact halts_step.mpr ih

end

/-! ## Finitely many places -/

section

variable {α : Type} {r : α → α → Prop} {a : α}

theorem acc_of_path {b : α} (h : Acc (fun b a => r a b) a) (hpath : Relation.ReflTransGen r a b) :
    Acc (fun b a => r a b) b := by
  induction hpath with
  | refl => exact h
  | tail _ hstep ih => exact ih.inv hstep

theorem not_cycle_of_acc (h : Acc (fun b a => r a b) a) : ¬ Relation.TransGen r a a := by
  have hacc := h.transGen
  induction hacc with
  | intro a _ ih =>
    intro hcycle
    have hself : Relation.TransGen (fun b a => r a b) a a := Relation.transGen_swap.mpr hcycle
    exact ih a hself h hcycle

theorem finite_reachable {places : List α} (hplaces : ∀ b c, r b c → c ∈ places) :
    Finite {b // Relation.ReflTransGen r a b} := by
  refine Set.Finite.subset (s := {b | b ∈ a :: places}) (List.finite_toSet _) ?_
  intro b hpath
  rcases Relation.ReflTransGen.cases_tail hpath with rfl | ⟨c, _, hstep⟩
  · exact List.mem_cons_self
  · exact List.mem_cons_of_mem _ (hplaces c b hstep)

/-- Among finitely many places a way without end goes through one of them twice. -/
theorem acc_iff_no_cycle {places : List α} (hplaces : ∀ b c, r b c → c ∈ places) :
    Acc (fun b a => r a b) a ↔
      ∀ b, Relation.ReflTransGen r a b → ¬ Relation.TransGen r b b := by
  constructor
  · intro h b hpath
    exact not_cycle_of_acc (acc_of_path h hpath)
  · intro h
    let Later (b c : {b // Relation.ReflTransGen r a b}) : Prop := Relation.TransGen r c.1 b.1
    have hfinite : Finite {b // Relation.ReflTransGen r a b} := finite_reachable hplaces
    have htrans : IsTrans _ Later := ⟨fun _ _ _ hbc hcd => Relation.TransGen.trans hcd hbc⟩
    have hirrefl : Std.Irrefl Later := ⟨fun b hcycle => h b.1 b.2 hcycle⟩
    have hwf : WellFounded Later := Finite.wellFounded_of_trans_of_irrefl Later
    have hall (b : {b // Relation.ReflTransGen r a b}) : Acc (fun b a => r a b) b.1 := by
      induction b using hwf.induction with
      | h b ih =>
        refine ⟨b.1, fun c hstep => ?_⟩
        exact ih ⟨c, b.2.tail hstep⟩ (.single hstep)
    exact hall ⟨a, .refl⟩

end

theorem halts_iff {α : Type} {branches : α → List (Branch α)} {places : List α}
    (hplaces : ∀ a b, Child branches a b → b ∈ places) {a : α} :
    Halts branches a ↔ ∀ b, Relation.ReflTransGen (Enters branches) a b →
      ¬ Relation.TransGen (Enters branches) b b :=
  halts_iff_acc.trans (acc_iff_no_cycle fun b c h => hplaces b c (enters_child h))

end Descent
end AppNG
