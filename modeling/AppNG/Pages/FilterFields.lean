import AppNG.Pages.Definitions
import AppNG.Lib.JavaString
import Mathlib.Data.List.Infix

/-!
# Pages.FilterFields

`ElementHelper.getFilteredMetaData`: the fields of a datasource or an action that are left for a user.

The loop sets labels and formats in the fields it is given, and adds fields to a new list. For the
fields inside of a field it is run as well, but the list it makes of them is dropped.

* `outlines_touched`: the loop leaves the tree of the fields as it is.
* `filtered_iff`: the fields are those that the user may see, at any depth, if and only if none is
  to be dropped inside of a field that stays.
-/

namespace AppNG
namespace Pages

/-- The data of a field, without the fields inside. -/
structure FieldData where
  name : String
  permissions : List Permission
  condition : Option Condition
  label : Option Label
  tooltip : Option Label
  format : Option String
  deriving DecidableEq, Repr

inductive FieldDef where
  | mk (data : FieldData) (fields : List FieldDef)

structure MetaData where
  binding : Option String
  resultSelector : Option String
  bindClass : Option String
  validation : Option String
  fields : List FieldDef

/-- The permission processor, the labels and the expressions of a request. -/
structure FieldSupport where
  hasReadPermission : FieldDef → Bool
  hasWritePermission : FieldDef → Bool
  setLabel : Option Label → Option Label
  evaluate : String → Bool
  evaluateString : String → String

def FieldDef.data : FieldDef → FieldData
  | mk data _ => data

def FieldDef.fields : FieldDef → List FieldDef
  | mk _ fields => fields

/-! ## The code -/

section Code

variable (request : FieldSupport)

def expressionMatchesOrContainsCurrent (condition : Option Condition) : Bool :=
  match condition.bind (·.expression) with
  | some expression =>
    if !Java.isBlank (some expression) && !decide ("current".toList <:+: expression.toList) then
      request.evaluate expression
    else true
  | none => true

def hasPermission (write : Bool) (fieldDef : FieldDef) : Bool :=
  if write then request.hasWritePermission fieldDef else request.hasReadPermission fieldDef

def setLabels (write : Bool) (data : FieldData) : FieldData :=
  if write then data
  else { data with label := request.setLabel data.label, tooltip := request.setLabel data.tooltip }

def setFormat (data : FieldData) : FieldData :=
  { data with format := data.format.map request.evaluateString }

mutual

/-- One round of the loop: the field afterwards, and whether it is added to the result. -/
def filterField (write : Bool) : FieldDef → FieldDef × Bool
  | .mk data fields =>
    if hasPermission request write (.mk data fields) then
      let data := setLabels request write data
      if expressionMatchesOrContainsCurrent request data.condition then
        (.mk (setFormat request data) (touched write fields), true)
      else (.mk data fields, false)
    else (.mk data fields, false)

/-- The fields that were given, after the loop. -/
def touched (write : Bool) : List FieldDef → List FieldDef
  | [] => []
  | fieldDef :: fieldDefinitions =>
    (filterField write fieldDef).1 :: touched write fieldDefinitions

end

/-- The result of the loop. -/
def filterFieldDefinitions (write : Bool) (fieldDefinitions : List FieldDef) : List FieldDef :=
  ((fieldDefinitions.map (filterField request write)).filter Prod.snd).map Prod.fst

def getFilteredMetaData (metaData : Option MetaData) (write : Bool) : MetaData :=
  match metaData with
  | none => ⟨none, none, none, none, []⟩
  | some metaData => { metaData with fields := filterFieldDefinitions request write metaData.fields }

/-! ## What should be left -/

/-- Whether a user may see a field. -/
def admitted (write : Bool) (fieldDef : FieldDef) : Bool :=
  hasPermission request write fieldDef &&
    expressionMatchesOrContainsCurrent request fieldDef.data.condition

mutual

/-- The fields that a user may see, inside of such fields only. -/
def prune (write : Bool) : List FieldDef → List FieldDef
  | [] => []
  | fieldDef :: fields => (pruneField write fieldDef).toList ++ prune write fields

def pruneField (write : Bool) : FieldDef → Option FieldDef
  | .mk data fields =>
    if admitted request write (.mk data fields) then
      some (.mk (setFormat request (setLabels request write data)) (prune write fields))
    else none

end

mutual

/-- Every field, at any depth. -/
def allAdmitted (write : Bool) : List FieldDef → Bool
  | [] => true
  | fieldDef :: fields => deepAdmitted write fieldDef && allAdmitted write fields

def deepAdmitted (write : Bool) : FieldDef → Bool
  | .mk data fields => admitted request write (.mk data fields) && allAdmitted write fields

end

/-- Inside of the fields that stay, none is to be dropped. -/
def Uniform (write : Bool) (metaData : MetaData) : Prop :=
  ∀ fieldDef ∈ metaData.fields, admitted request write fieldDef = true →
    allAdmitted request write fieldDef.fields = true

end Code

/-- A field as it was defined: without labels and format. -/
inductive Outline where
  | mk (name : String) (permissions : List Permission) (condition : Option Condition)
    (fields : List Outline)

mutual

def outline : FieldDef → Outline
  | .mk data fields => .mk data.name data.permissions data.condition (outlines fields)

def outlines : List FieldDef → List Outline
  | [] => []
  | fieldDef :: fields => outline fieldDef :: outlines fields

end

mutual

/-- How many fields there are, at any depth. -/
def Outline.size : Outline → Nat
  | .mk _ _ _ fields => sizes fields + 1

def sizes : List Outline → Nat
  | [] => 0
  | o :: os => o.size + sizes os

end

/-- What the user may see is left, at any depth and in order, and nothing else. -/
def Filters (request : FieldSupport) (write : Bool) (metaData : Option MetaData) : Prop :=
  outlines (getFilteredMetaData request metaData write).fields =
    outlines (prune request write ((metaData.map MetaData.fields).getD []))

/-! ## The tree of the fields -/

section Proofs

variable {request : FieldSupport} {write : Bool}

theorem setLabels_outline (data : FieldData) (fields : List FieldDef) :
    outline (.mk (setLabels request write data) fields) = outline (.mk data fields) := by
  unfold setLabels
  cases write <;> rfl

theorem setLabels_condition (data : FieldData) :
    (setLabels request write data).condition = data.condition := by
  unfold setLabels
  cases write <;> rfl

mutual

theorem outline_filterField :
    ∀ fieldDef, outline (filterField request write fieldDef).1 = outline fieldDef
  | .mk data fields => by
    have hshape : outline (.mk (setLabels request write data) fields) = outline (.mk data fields) :=
      setLabels_outline data fields
    simp only [filterField]
    split
    · split
      · rw [← hshape]
        simp only [outline, outlines_touched fields]
        rfl
      · exact hshape
    · rfl

theorem outlines_touched :
    ∀ fields, outlines (touched request write fields) = outlines fields
  | [] => rfl
  | fieldDef :: fields => by
    simp only [touched, outlines]
    rw [outline_filterField fieldDef, outlines_touched fields]

end

theorem filterField_admitted (fieldDef : FieldDef) :
    (filterField request write fieldDef).2 = admitted request write fieldDef := by
  obtain ⟨data, fields⟩ := fieldDef
  simp only [filterField, admitted, FieldDef.data, setLabels_condition]
  cases hasPermission request write (.mk data fields) with
  | false => rfl
  | true => cases expressionMatchesOrContainsCurrent request data.condition <;> rfl

/-- A field that is added has all the fields that it had. -/
theorem filterField_of_admitted {data : FieldData} {fields : List FieldDef}
    (h : admitted request write (.mk data fields) = true) :
    (filterField request write (.mk data fields)).1 =
      .mk (setFormat request (setLabels request write data)) (touched request write fields) := by
  simp only [admitted, FieldDef.data, Bool.and_eq_true] at h
  simp only [filterField, setLabels_condition, h.1, h.2, if_true]

/-! ## Dropped fields -/

theorem sizes_append (fields fields' : List FieldDef) :
    sizes (outlines (fields ++ fields')) = sizes (outlines fields) + sizes (outlines fields') := by
  induction fields with
  | nil => simp [outlines, sizes]
  | cons fieldDef fields ih => simp only [List.cons_append, outlines, sizes, ih, Nat.add_assoc]

mutual

theorem size_pruneField : ∀ fieldDef,
    sizes (outlines (pruneField request write fieldDef).toList) ≤ (outline fieldDef).size ∧
      (sizes (outlines (pruneField request write fieldDef).toList) = (outline fieldDef).size →
        deepAdmitted request write fieldDef = true)
  | .mk data fields => by
    obtain ⟨hle, heq⟩ := size_prune fields
    simp only [pruneField, deepAdmitted, Bool.and_eq_true]
    split
    · rename_i hadmitted
      simp only [Option.toList_some, outlines, outline, sizes, Outline.size]
      exact ⟨by omega, fun h => ⟨hadmitted, heq (by omega)⟩⟩
    · simp only [Option.toList_none, outlines, outline, sizes, Outline.size]
      exact ⟨by omega, fun h => by omega⟩

theorem size_prune : ∀ fields,
    sizes (outlines (prune request write fields)) ≤ sizes (outlines fields) ∧
      (sizes (outlines (prune request write fields)) = sizes (outlines fields) →
        allAdmitted request write fields = true)
  | [] => ⟨Nat.le_refl 0, fun _ => rfl⟩
  | fieldDef :: fields => by
    obtain ⟨hle, heq⟩ := size_pruneField fieldDef
    obtain ⟨hle', heq'⟩ := size_prune fields
    simp only [prune, allAdmitted, Bool.and_eq_true, sizes_append, outlines, sizes]
    exact ⟨by omega, fun h => ⟨heq (by omega), heq' (by omega)⟩⟩

end

mutual

theorem pruneField_of_deepAdmitted : ∀ {fieldDef}, deepAdmitted request write fieldDef = true →
    pruneField request write fieldDef = some (filterField request write fieldDef).1
  | .mk data fields, h => by
    simp only [deepAdmitted, Bool.and_eq_true] at h
    rw [filterField_of_admitted h.1, pruneField, if_pos h.1, prune_of_allAdmitted h.2]

theorem prune_of_allAdmitted : ∀ {fields}, allAdmitted request write fields = true →
    prune request write fields = touched request write fields
  | [], _ => rfl
  | fieldDef :: fields, h => by
    simp only [allAdmitted, Bool.and_eq_true] at h
    rw [prune, touched, pruneField_of_deepAdmitted h.1, prune_of_allAdmitted h.2]
    rfl

end

/-! ## The result -/

/-- Inside of a field that stays, the loop drops nothing. -/
theorem outlines_touched_iff (fields : List FieldDef) :
    outlines (touched request write fields) = outlines (prune request write fields) ↔
      allAdmitted request write fields = true := by
  constructor
  · intro h
    rw [outlines_touched] at h
    exact (size_prune fields).2 (by rw [h])
  · intro h
    rw [prune_of_allAdmitted h]

theorem outlines_filterFieldDefinitions_iff (fields : List FieldDef) :
    outlines (filterFieldDefinitions request write fields) = outlines (prune request write fields) ↔
      ∀ fieldDef ∈ fields, admitted request write fieldDef = true →
        allAdmitted request write fieldDef.fields = true := by
  induction fields with
  | nil => simp [filterFieldDefinitions, prune]
  | cons fieldDef fields ih =>
    obtain ⟨data, inner⟩ := fieldDef
    rw [List.forall_mem_cons, ← ih]
    cases hadmitted : admitted request write (.mk data inner) with
    | false =>
      have hfilter : filterFieldDefinitions request write (.mk data inner :: fields) =
          filterFieldDefinitions request write fields := by
        simp [filterFieldDefinitions, filterField_admitted, hadmitted]
      have hprune : prune request write (.mk data inner :: fields) = prune request write fields := by
        simp [prune, pruneField, hadmitted]
      rw [hfilter, hprune]
      simp
    | true =>
      have hfilter : filterFieldDefinitions request write (.mk data inner :: fields) =
          .mk (setFormat request (setLabels request write data)) (touched request write inner) ::
            filterFieldDefinitions request write fields := by
        simp [filterFieldDefinitions, filterField_admitted, hadmitted,
          filterField_of_admitted hadmitted]
      have hprune : prune request write (.mk data inner :: fields) =
          .mk (setFormat request (setLabels request write data)) (prune request write inner) ::
            prune request write fields := by
        simp [prune, pruneField, hadmitted]
      rw [hfilter, hprune]
      simp only [outlines, outline, List.cons.injEq, Outline.mk.injEq, true_and,
        outlines_touched_iff, FieldDef.fields, forall_const]

theorem filtered_iff (request : FieldSupport) (write : Bool) (metaData : Option MetaData) :
    Filters request write metaData ↔ ∀ m ∈ metaData, Uniform request write m := by
  cases metaData with
  | none => simp [Filters, getFilteredMetaData, prune]
  | some metaData =>
    simp only [Filters, getFilteredMetaData, Option.map_some, Option.getD_some, Option.mem_def,
      Option.some.injEq, forall_eq', Uniform]
    exact outlines_filterFieldDefinitions_iff metaData.fields

end Proofs

section Example

/-- Nobody may read the salary. -/
def noSalary : FieldSupport where
  hasReadPermission fieldDef := fieldDef.data.name != "salary"
  hasWritePermission _ := true
  setLabel label := label
  evaluate _ := true
  evaluateString s := s

/-- An employee, with the salary inside. -/
def employee : MetaData :=
  ⟨none, none, none, none, [.mk ⟨"employee", [], none, none, none, none⟩
    [.mk ⟨"salary", [], none, none, none, none⟩ []]]⟩

theorem salary_shown :
    (getFilteredMetaData noSalary (some employee) false).fields.flatMap FieldDef.fields =
        [.mk ⟨"salary", [], none, none, none, none⟩ []] ∧
      ¬ Filters noSalary false (some employee) := by
  refine ⟨rfl, fun h => ?_⟩
  have hsizes := congrArg sizes h
  exact absurd hsizes (by decide)

end Example

end Pages
end AppNG
