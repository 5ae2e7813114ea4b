import AppNG.Rest.Operations
import Std.Data.String.ToNat

/-!
# Rest.PathParameters

The path variables of a REST call, and the parameters they are bound to.

The mappings of `RestActionBase` and `RestDataSourceBase` admit up to five variables, `pathVar1` to
`pathVar5`. `applyPathParameters` calls `addParameter` with those of them that it binds.

* `pathParametersFrom_bound`: the loop keeps to the positions as long as it meets no blank variable, and
  not the fifth parameter.
* `path_variables_bound_iff`: which calls bind every variable.
* `fifth_variable_dropped`: five variables for five parameters are one too many.
-/

namespace AppNG
namespace Rest

open Pages

/-- What one of the mappings has matched. -/
structure PathVariables where
  values : List String
  admitted : values.length ≤ 5
  nonempty : ∀ value ∈ values, value ≠ ""

/-- The map that `@PathVariable` injects. -/
def PathVariables.get (vars : PathVariables) (name : String) : Option String :=
  (vars.values.zipIdx.find? fun v => name = "pathVar" ++ toString (v.2 + 1)).map Prod.fst

/-- `bound` is what is added, in order. -/
structure VariablesBound (vars : PathVariables) (paramNames : List String) (bound : Params) :
    Prop where
  both : ∀ (i : Nat) (name value : String), paramNames[i]? = some name →
    vars.values[i]? = some value → bound[i]? = some (name, value)
  only : ∀ p ∈ bound, ∃ i : Nat, paramNames[i]? = some p.1 ∧ vars.values[i]? = some p.2
  kept : ∀ (i : Nat) (value : String), vars.values[i]? = some value →
    ∃ name, paramNames[i]? = some name ∧ bound[i]? = some (name, value)

section

variable {vars : PathVariables}

theorem find?_zipIdx (values : List String) (k i : Nat) :
    ((values.zipIdx k).find? fun v =>
      "pathVar" ++ toString (k + i + 1) = "pathVar" ++ toString (v.2 + 1)).map Prod.fst =
      values[i]? := by
  have hsame (n m : Nat) :
      decide ("pathVar" ++ toString (n + 1) = "pathVar" ++ toString (m + 1)) = decide (n = m) := by
    simp [Nat.toString_eq_repr, Nat.repr_inj]
  simp only [hsame]
  induction values generalizing k i with
  | nil => rfl
  | cons value values ih =>
    cases i with
    | zero => simp [List.zipIdx_cons]
    | succ i =>
      have hne : decide (k + (i + 1) = k) = false := by simp
      simp only [List.zipIdx_cons, List.find?_cons, hne, List.getElem?_cons_succ]
      rw [← ih (k + 1) i]
      congr 2
      funext v
      congr 2
      omega

@[simp] theorem get_pathVar (i : Nat) :
    vars.get ("pathVar" ++ toString (i + 1)) = vars.values[i]? := by
  have h := find?_zipIdx vars.values 0 i
  rwa [Nat.zero_add] at h

/-- Nothing is added but variables at the position of their parameter, and none that is blank. -/
theorem pathParametersFrom_mem {paramNames : List String} {k : Nat} {p : String × String}
    (h : p ∈ pathParametersFrom vars.get (k + 1) paramNames) :
    ∃ i : Nat, paramNames[i]? = some p.1 ∧ vars.values[k + i]? = some p.2 ∧
      Java.isBlank (some p.2) = false := by
  induction paramNames generalizing k with
  | nil => cases h
  | cons name names ih =>
    have later (h : p ∈ pathParametersFrom vars.get (k + 1 + 1) names) :
        ∃ i : Nat, (name :: names)[i]? = some p.1 ∧ vars.values[k + i]? = some p.2 ∧
          Java.isBlank (some p.2) = false := by
      obtain ⟨i, hname, hvalue, hblank⟩ := ih h
      refine ⟨i + 1, hname, ?_, hblank⟩
      rw [← hvalue]
      congr 1
      omega
    simp only [pathParametersFrom, get_pathVar] at h
    split at h
    · split at h
      · exact later h
      · rename_i hblank
        cases hvalue : vars.values[k]? with
        | none => simp [hvalue, Java.isBlank] at hblank
        | some value =>
          rw [hvalue] at h hblank
          rcases List.mem_cons.mp h with rfl | h
          · exact ⟨0, rfl, hvalue, Bool.eq_false_iff.mpr hblank⟩
          · exact later h
    · cases h

theorem pathParametersFrom_length {paramNames : List String} {k : Nat} :
    (pathParametersFrom vars.get (k + 1) paramNames).length ≤ maxParams - (k + 1) := by
  induction paramNames generalizing k with
  | nil => exact Nat.zero_le _
  | cons name names ih =>
    have hlater := ih (k := k + 1)
    simp only [pathParametersFrom]
    split
    · split
      · omega
      · rw [List.length_cons]
        omega
    · exact Nat.zero_le _

/-- Up to the fourth parameter the loop pairs them off, if it meets no blank variable. -/
theorem pathParametersFrom_bound {paramNames : List String} {k : Nat}
    (hfew : vars.values.length < maxParams)
    (hblank : ∀ value ∈ vars.values, Java.isBlank (some value) = false) :
    pathParametersFrom vars.get (k + 1) paramNames =
      paramNames.zip (vars.values.drop k) := by
  induction paramNames generalizing k with
  | nil => rfl
  | cons name names ih =>
    simp only [pathParametersFrom, get_pathVar, ih]
    by_cases hk : k < vars.values.length
    · have hvalue : vars.values[k]? = some vars.values[k] := List.getElem?_eq_getElem hk
      have hin : k + 1 < maxParams := by omega
      rw [if_pos hin, hvalue, hblank _ (List.getElem_mem hk), List.drop_eq_getElem_cons hk]
      rfl
    · have hdrop (j : Nat) (hj : k ≤ j) : vars.values.drop j = [] :=
        List.drop_eq_nil_of_le (by omega)
      have hvalue : vars.values[k]? = none := List.getElem?_eq_none (by omega)
      simp [hvalue, hdrop, Java.isBlank]

end

/-- Every variable is bound to the parameter at its position, if and only if there are at most four
of them, none blank, and a parameter is declared for each. -/
theorem path_variables_bound_iff (vars : PathVariables) (paramNames : List String) :
    VariablesBound vars paramNames (pathParametersFrom vars.get 1 paramNames) ↔
      vars.values.length < 5 ∧ vars.values.length ≤ paramNames.length ∧
        ∀ value ∈ vars.values, Java.isBlank (some value) = false := by
  constructor
  · intro h
    have hbound (i : Nat) (hi : i < vars.values.length) :=
      h.kept i vars.values[i] (List.getElem?_eq_getElem hi)
    refine ⟨?_, ?_, ?_⟩
    · by_contra hmany
      obtain ⟨name, _, hfifth⟩ := hbound 4 (by omega)
      have hin : 4 < (pathParametersFrom vars.get 1 paramNames).length :=
        (List.getElem?_eq_some_iff.mp hfifth).1
      have hlength : (pathParametersFrom vars.get 1 paramNames).length ≤ maxParams - 1 :=
        pathParametersFrom_length (k := 0)
      simp only [maxParams] at hlength
      omega
    · by_contra hmore
      obtain ⟨name, hname, _⟩ := hbound paramNames.length (by omega)
      rw [List.getElem?_eq_none (Nat.le_refl _)] at hname
      cases hname
    · intro value hvalue
      obtain ⟨i, hi, rfl⟩ := List.mem_iff_getElem.mp hvalue
      obtain ⟨name, _, hadded⟩ := hbound i hi
      obtain ⟨_, _, _, hblank⟩ := pathParametersFrom_mem (k := 0) (List.mem_of_getElem? hadded)
      exact hblank
  · rintro ⟨hfew, hdeclared, hblank⟩
    have hzip : pathParametersFrom vars.get 1 paramNames =
        paramNames.zip vars.values := pathParametersFrom_bound (k := 0) hfew hblank
    rw [hzip]
    refine ⟨fun i name value hname hvalue => ?_, fun p hp => ?_, fun i value hvalue => ?_⟩
    · exact List.getElem?_zip_eq_some.mpr ⟨hname, hvalue⟩
    · obtain ⟨i, hi⟩ := List.mem_iff_getElem?.mp hp
      exact ⟨i, List.getElem?_zip_eq_some.mp hi⟩
    · have hi : i < paramNames.length :=
        Nat.lt_of_lt_of_le (List.getElem?_eq_some_iff.mp hvalue).1 hdeclared
      exact ⟨paramNames[i], List.getElem?_eq_getElem hi,
        List.getElem?_zip_eq_some.mpr ⟨List.getElem?_eq_getElem hi, hvalue⟩⟩

def fiveVariables : PathVariables where
  values := ["a", "b", "c", "d", "e"]
  admitted := by decide
  nonempty := by decide

/-- `/datasource/{id}/a/b/c/d/e`, with five parameters declared: the last one remains without a
value. -/
theorem fifth_variable_dropped :
    ¬ VariablesBound fiveVariables ["p", "q", "r", "s", "t"]
      (pathParametersFrom fiveVariables.get 1 ["p", "q", "r", "s", "t"]) := by
  intro h
  have hfifth := h.both 4 "t" "e" rfl rfl
  have hnone : (pathParametersFrom fiveVariables.get 1 ["p", "q", "r", "s", "t"])[4]? = none := by
    apply List.getElem?_eq_none
    exact pathParametersFrom_length (k := 0)
  rw [hnone] at hfifth
  cases hfifth

end Rest
end AppNG
