/-!
# Lib.Report

The report of a check: what was found wrong, and the exception that cut the check short, if any.
Checks are put one behind the other; nothing is found behind an exception.

* `clean_andThen`, `clean_each`: a report is clean when its parts are.
* `clean_looking`: a lookup that throws leaves no clean report.
-/

namespace AppNG

structure Report (ε χ : Type) where
  found : List ε
  threw : Option χ
  deriving DecidableEq, Repr

namespace Report

variable {ε χ α : Type}

def ok : Report ε χ := ⟨[], none⟩

def error (e : ε) : Report ε χ := ⟨[e], none⟩

def raise (x : χ) : Report ε χ := ⟨[], some x⟩

def andThen (r s : Report ε χ) : Report ε χ :=
  match r.threw with
  | some x => ⟨r.found, some x⟩
  | none => ⟨r.found ++ s.found, s.threw⟩

def each (as : List α) (check : α → Report ε χ) : Report ε χ :=
  as.foldr (fun a r => (check a).andThen r) ok

/-- The checks that follow a lookup, which may throw. -/
def looking (x : Except χ α) (check : α → Report ε χ) : Report ε χ :=
  match x with
  | .error x => raise x
  | .ok a => check a

@[simp] theorem each_nil (check : α → Report ε χ) : each [] check = ok := rfl

@[simp] theorem each_cons (a : α) (as : List α) (check : α → Report ε χ) :
    each (a :: as) check = (check a).andThen (each as check) := rfl

/-! ## Clean reports -/

/-- Nothing was found, and nothing was thrown. -/
def Clean (r : Report ε χ) : Prop := r.found = [] ∧ r.threw = none

@[simp] theorem clean_ok : (ok : Report ε χ).Clean := ⟨rfl, rfl⟩

@[simp] theorem not_clean_error (e : ε) : ¬ (error e : Report ε χ).Clean := by
  intro h
  cases h.1

@[simp] theorem not_clean_raise (x : χ) : ¬ (raise x : Report ε χ).Clean := by
  intro h
  cases h.2

@[simp] theorem clean_andThen (r s : Report ε χ) : (r.andThen s).Clean ↔ r.Clean ∧ s.Clean := by
  unfold andThen Clean
  cases h : r.threw with
  | none =>
    rw [List.append_eq_nil_iff]
    simp only [and_true]
    exact and_assoc
  | some x => simp

@[simp] theorem clean_each (as : List α) (check : α → Report ε χ) :
    (each as check).Clean ↔ ∀ a ∈ as, (check a).Clean := by
  induction as with
  | nil => simp
  | cons a as ih => rw [each_cons, clean_andThen, ih, List.forall_mem_cons]

@[simp] theorem clean_looking (x : Except χ α) (check : α → Report ε χ) :
    (looking x check).Clean ↔ ∃ a, x = .ok a ∧ (check a).Clean := by
  cases x with
  | error x => exact iff_of_false (not_clean_raise x) (by simp)
  | ok a => simp [looking]

end Report
end AppNG
