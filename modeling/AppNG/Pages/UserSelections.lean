import AppNG.Config.Datasource
import AppNG.Lib.Forest
import Mathlib.Data.List.Induction
import Mathlib.Logic.Function.Basic

/-!
# Pages.UserSelections

What `CallableAction` does with a form that is displayed again: `addUserdata` notes what was entered
into its fields, and `handleSelections` selects the options accordingly.

The first is given the fields that the user may write to, and goes through those inside of other fields
as well; the second goes through all fields on top.

* `handleSelections_eq`: each selection is left as the last field on top makes it that has its name
  and was filled in.
* `selections_match_iff`: when every selection matches what was entered.
* `nested_selection_stale`: the country of an address remains what it was.
-/

namespace AppNG
namespace Pages
namespace UserSelections

open Config (FieldType)

/-! ## The code -/

structure FieldDef where
  name : String
  binding : String
  type : FieldType
  readonly : Option String
  deriving DecidableEq, Repr

structure SelectOption where
  value : String
  selected : Option Bool
  deriving DecidableEq, Repr

structure OptionGroup where
  options : List SelectOption
  deriving DecidableEq, Repr

structure Selection where
  id : Option String
  options : List SelectOption
  optionGroups : List OptionGroup
  deriving DecidableEq, Repr

structure UserInputField where
  name : String
  content : String
  deriving DecidableEq, Repr

def FieldDef.isWriteable (field : FieldDef) : Bool :=
  !(field.readonly.any fun readonly => Java.toLowerCase readonly == "true".toList)

variable (parameterList : String → List String)

def addFieldsToUserdata : Forest FieldDef → List UserInputField
  | .nil => []
  | .cons fieldDef childFields fields =>
    (if fieldDef.isWriteable then
      (if fieldDef.type = .password then []
        else (parameterList fieldDef.binding).map fun value => ⟨fieldDef.binding, value⟩) ++
        addFieldsToUserdata childFields
    else []) ++ addFieldsToUserdata fields

/-- None: null. -/
def userInputs (userdata : List UserInputField) (binding : String) : Option (List String) :=
  let inputs := (userdata.filter fun f => f.name = binding).map UserInputField.content
  if inputs.isEmpty then none else some inputs

def deselectOptions (options : List SelectOption) : List SelectOption :=
  options.map fun option => { option with selected := some false }

def selectOptions (value : String) (options : List SelectOption) : List SelectOption :=
  options.map fun option => if option.value = value then { option with selected := some true } else option

/-- Every list of options of a selection, through the same change. -/
def Selection.mapOptions (f : List SelectOption → List SelectOption) (selection : Selection) :
    Selection :=
  { selection with
    options := f selection.options
    optionGroups := selection.optionGroups.map fun group => ⟨f group.options⟩ }

def reselect (inputs : List String) (selection : Selection) : Selection :=
  inputs.foldl (fun selection value => selection.mapOptions (selectOptions value))
    (selection.mapOptions deselectOptions)

/-- `selectionMap` holds the last selection with an id. -/
def changeSelection (name : String) (f : Selection → Selection) : List Selection → List Selection
  | [] => []
  | selection :: selections =>
    if selections.any fun s => s.id == some name then
      selection :: changeSelection name f selections
    else if selection.id = some name then f selection :: selections
    else selection :: selections

def handleField (userdata : List UserInputField) (selections : List Selection)
    (fieldDef : FieldDef) : List Selection :=
  match userInputs userdata fieldDef.binding with
  | none => selections
  | some inputs => changeSelection fieldDef.name (reselect inputs) selections

def handleSelections (userdata : List UserInputField) (fields : Forest FieldDef)
    (selections : List Selection) : List Selection :=
  fields.tops.foldl (handleField userdata) selections

/-- The selections of a form, after both. `execute` notes what was entered into the fields of
`getFilteredMetaData`, those that may be written to; all others are in the configuration only. -/
def redisplayed (writeableFields fields : Forest FieldDef) (selections : List Selection) :
    List Selection :=
  handleSelections (addFieldsToUserdata parameterList writeableFields) fields selections

/-! ## What was entered -/

/-- The fields that accept what is entered: none of them, and no field around them, is readonly. -/
def enterable : Forest FieldDef → List FieldDef
  | .nil => []
  | .cons fieldDef childFields fields =>
    (if fieldDef.isWriteable then
      (if fieldDef.type = .password then [] else [fieldDef]) ++ enterable childFields
    else []) ++ enterable fields

/-- A field that may be written to, with submitted values. -/
def Submitted (writeableFields : Forest FieldDef) (fieldDef : FieldDef) : Prop :=
  fieldDef ∈ enterable writeableFields ∧ parameterList fieldDef.binding ≠ []

def Selection.allOptions (selection : Selection) : List SelectOption :=
  selection.options ++ selection.optionGroups.flatMap OptionGroup.options

/-- An option is selected exactly when its value is among the values. -/
def Selection.Selects (selection : Selection) (values : List String) : Prop :=
  ∀ option ∈ selection.allOptions, option.selected = some true ↔ option.value ∈ values

/-- What is to become of the selection with an id. -/
def Matched (writeableFields : Forest FieldDef) (selection selection' : Selection) : Prop :=
  (∀ fieldDef, Submitted parameterList writeableFields fieldDef → selection.id = some fieldDef.name →
    selection'.Selects (parameterList fieldDef.binding)) ∧
  ((∀ fieldDef, Submitted parameterList writeableFields fieldDef →
      selection.id ≠ some fieldDef.name) → selection' = selection)

/-- Selection by selection. One with the id of a later one is that of no field. -/
def Each (P : Selection → Selection → Prop) : List Selection → List Selection → Prop
  | [], [] => True
  | s :: ss, s' :: ss' =>
    (if ss.any fun later => later.id == s.id then s' = s else P s s') ∧ Each P ss ss'
  | _, _ => False

/-! ## What becomes of one selection -/

/-- The selection with exactly the options of these values selected. -/
def Selection.picking (values : List String) (selection : Selection) : Selection :=
  selection.mapOptions fun options =>
    options.map fun option => { option with selected := some (decide (option.value ∈ values)) }

@[simp] theorem id_mapOptions (f : List SelectOption → List SelectOption) (s : Selection) :
    (s.mapOptions f).id = s.id := rfl

@[simp] theorem id_picking (values : List String) (s : Selection) : (s.picking values).id = s.id :=
  rfl

@[simp] theorem mapOptions_mapOptions (f g : List SelectOption → List SelectOption) (s : Selection) :
    (s.mapOptions f).mapOptions g = s.mapOptions fun options => g (f options) := by
  simp [Selection.mapOptions]

@[simp] theorem picking_picking (values values' : List String) (s : Selection) :
    (s.picking values).picking values' = s.picking values' := by
  simp [Selection.picking, Function.comp_def]

theorem reselect_eq (inputs : List String) (s : Selection) : reselect inputs s = s.picking inputs := by
  induction inputs using List.reverseRecOn with
  | nil =>
    simp only [reselect, List.foldl_nil, Selection.picking, List.not_mem_nil, decide_false]
    rfl
  | append_singleton inputs value ih =>
    have hstep : reselect (inputs ++ [value]) s =
        (reselect inputs s).mapOptions (selectOptions value) := by
      rw [reselect, List.foldl_append]
      rfl
    rw [hstep, ih, Selection.picking, mapOptions_mapOptions, Selection.picking]
    congr 1
    funext options
    rw [selectOptions, List.map_map]
    refine List.map_congr_left fun option _ => ?_
    by_cases h : option.value = value
    · simp [h]
    · simp [h]

theorem picking_congr {values values' : List String} (h : ∀ v, v ∈ values ↔ v ∈ values')
    (s : Selection) : s.picking values = s.picking values' := by
  simp only [Selection.picking, h]

/-! ## The loop over the fields on top -/

/-- What the loop leaves: each selection with the values that are known for its id, unless a later
one has the same id. -/
def selected (known : Option String → Option (List String)) : List Selection → List Selection
  | [] => []
  | s :: ss =>
    (if ss.any fun later => later.id == s.id then s
      else match known s.id with
        | none => s
        | some values => s.picking values) :: selected known ss

theorem any_id_selected {known : Option String → Option (List String)} {id : Option String}
    {ss : List Selection} :
    ((selected known ss).any fun s => s.id == id) = ss.any fun s => s.id == id := by
  induction ss with
  | nil => rfl
  | cons s ss ih =>
    rw [selected, List.any_cons, List.any_cons, ih]
    split
    · rfl
    · split <;> rfl

theorem selected_congr {known known' : Option String → Option (List String)} {ss : List Selection}
    (h : ∀ s ∈ ss, known s.id = known' s.id) : selected known ss = selected known' ss := by
  induction ss with
  | nil => rfl
  | cons s ss ih =>
    obtain ⟨hs, hss⟩ := List.forall_mem_cons.mp h
    rw [selected, selected, hs, ih hss]

theorem changeSelection_selected {known : Option String → Option (List String)} {name : String}
    {inputs : List String} {ss : List Selection} :
    changeSelection name (reselect inputs) (selected known ss) =
      selected (Function.update known (some name) (some inputs)) ss := by
  induction ss with
  | nil => rfl
  | cons s ss ih =>
    have hid : (if ss.any fun later => later.id == s.id then s
        else match known s.id with
          | none => s
          | some values => s.picking values).id = s.id := by
      split
      · rfl
      · split <;> rfl
    rw [selected, changeSelection, any_id_selected, hid, ih]
    by_cases hlater : (ss.any fun later => later.id == some name) = true
    · rw [if_pos hlater, selected]
      by_cases hs : s.id = some name
      · rw [hs, if_pos hlater, if_pos hlater]
      · rw [Function.update_of_ne hs]
    · have hsame : selected known ss =
          selected (Function.update known (some name) (some inputs)) ss := by
        refine selected_congr fun t ht => (Function.update_of_ne (fun heq => hlater ?_) _ _).symm
        exact List.any_eq_true.mpr ⟨t, ht, by simp [heq]⟩
      rw [if_neg hlater, selected, ← hsame]
      by_cases hs : s.id = some name
      · rw [if_pos hs, hs, if_neg hlater, if_neg hlater, Function.update_self, reselect_eq]
        cases known (some name) with
        | none => rfl
        | some values => simp only [picking_picking]
      · rw [if_neg hs, Function.update_of_ne hs]

/-- The inputs of the last of the fields that has the name and was filled in. -/
def lastInputs (userdata : List UserInputField) (fields : List FieldDef) (id : Option String) :
    Option (List String) :=
  (fields.filterMap fun f =>
    if id = some f.name then userInputs userdata f.binding else none).getLast?

theorem foldl_handleField (userdata : List UserInputField) (fields : List FieldDef)
    (ss : List Selection) :
    fields.foldl (handleField userdata) ss = selected (lastInputs userdata fields) ss := by
  induction fields using List.reverseRecOn with
  | nil =>
    have hnone : selected (lastInputs userdata []) ss = ss := by
      induction ss with
      | nil => rfl
      | cons s ss ih => rw [selected, ih]; simp [lastInputs]
    exact hnone.symm
  | append_singleton fields f ih =>
    rw [List.foldl_append, ih, List.foldl_cons, List.foldl_nil, handleField]
    cases hinputs : userInputs userdata f.binding with
    | none =>
      refine selected_congr fun s _ => ?_
      simp [lastInputs, hinputs]
    | some inputs =>
      simp only [changeSelection_selected]
      refine selected_congr fun s _ => ?_
      by_cases hs : s.id = some f.name
      · simp [lastInputs, hinputs, hs]
      · rw [Function.update_of_ne hs]
        simp [lastInputs, hs]

/-! ## What was noted of the fields -/

/-- Values were noted for this binding. -/
def noted (writeableFields : Forest FieldDef) (binding : String) : Bool :=
  (enterable writeableFields).any fun f => f.binding == binding && !(parameterList binding).isEmpty

variable {parameterList} {writeableFields fields : Forest FieldDef}

theorem addFieldsToUserdata_eq :
    addFieldsToUserdata parameterList writeableFields = (enterable writeableFields).flatMap fun f =>
      (parameterList f.binding).map fun value => ⟨f.binding, value⟩ := by
  induction writeableFields with
  | nil => rfl
  | cons f childFields fields ihChild ih =>
    rw [addFieldsToUserdata, enterable, List.flatMap_append, ih, ihChild]
    split
    · split
      · rw [List.flatMap_append]
        rfl
      · rw [List.flatMap_append, List.flatMap_singleton]
    · rfl

theorem mem_inputs {binding value : String} :
    value ∈ ((addFieldsToUserdata parameterList writeableFields).filter fun f => f.name = binding).map
        UserInputField.content ↔
      (∃ f ∈ enterable writeableFields, f.binding = binding) ∧ value ∈ parameterList binding := by
  simp only [addFieldsToUserdata_eq, List.mem_map, List.mem_filter, List.mem_flatMap,
    decide_eq_true_eq]
  constructor
  · rintro ⟨_, ⟨⟨f, hf, value', hvalue, rfl⟩, rfl⟩, rfl⟩
    exact ⟨⟨f, hf, rfl⟩, hvalue⟩
  · rintro ⟨⟨f, hf, rfl⟩, hvalue⟩
    exact ⟨⟨f.binding, value⟩, ⟨⟨f, hf, value, hvalue, rfl⟩, rfl⟩, rfl⟩

theorem noted_iff {binding : String} : noted parameterList writeableFields binding = true ↔
    (∃ f ∈ enterable writeableFields, f.binding = binding) ∧ parameterList binding ≠ [] := by
  simp only [noted, List.any_eq_true, Bool.and_eq_true, beq_iff_eq, Bool.not_eq_true',
    List.isEmpty_eq_false_iff]
  constructor
  · rintro ⟨f, hf, hbinding, hne⟩
    exact ⟨⟨f, hf, hbinding⟩, hne⟩
  · rintro ⟨⟨f, hf, hbinding⟩, hne⟩
    exact ⟨f, hf, hbinding, hne⟩

theorem userInputs_eq_none {binding : String} (h : noted parameterList writeableFields binding = false) :
    userInputs (addFieldsToUserdata parameterList writeableFields) binding = none := by
  have hempty : ((addFieldsToUserdata parameterList writeableFields).filter fun f => f.name = binding).map
      UserInputField.content = [] := by
    refine List.eq_nil_iff_forall_not_mem.mpr fun value hvalue => ?_
    obtain ⟨hfield, hvalue⟩ := mem_inputs.mp hvalue
    rw [noted_iff.mpr ⟨hfield, List.ne_nil_of_mem hvalue⟩] at h
    cases h
  simp only [userInputs, hempty, List.isEmpty_nil, if_true]

theorem userInputs_eq_some {binding : String} (h : noted parameterList writeableFields binding = true) :
    ∃ inputs, userInputs (addFieldsToUserdata parameterList writeableFields) binding = some inputs ∧
      ∀ value, value ∈ inputs ↔ value ∈ parameterList binding := by
  obtain ⟨hfield, hne⟩ := noted_iff.mp h
  obtain ⟨value, hvalue⟩ := List.exists_mem_of_ne_nil _ hne
  have hinputs := mem_inputs.mpr ⟨hfield, hvalue⟩
  refine ⟨_, if_neg ?_, fun value => mem_inputs.trans (and_iff_right hfield)⟩
  simpa using List.ne_nil_of_mem hinputs

/-- The last field on top that has the name, and a binding that values were noted for. -/
def lastNoted (parameterList : String → List String) (writeableFields fields : Forest FieldDef)
    (id : Option String) : Option FieldDef :=
  (fields.tops.filter fun f =>
    decide (id = some f.name) && noted parameterList writeableFields f.binding).getLast?

theorem lastInputs_picking (id : Option String) (s : Selection) :
    (match lastInputs (addFieldsToUserdata parameterList writeableFields) fields.tops id with
      | none => s
      | some inputs => s.picking inputs) =
    match lastNoted parameterList writeableFields fields id with
      | none => s
      | some f => s.picking (parameterList f.binding) := by
  unfold lastInputs lastNoted
  induction fields.tops using List.reverseRecOn with
  | nil => rfl
  | append_singleton tops f ih =>
    rw [List.filterMap_append, List.filter_append]
    by_cases hid : id = some f.name
    · cases hnoted : noted parameterList writeableFields f.binding with
      | false => simpa [hid, hnoted, userInputs_eq_none hnoted] using ih
      | true =>
        obtain ⟨inputs, hinputs, hmem⟩ := userInputs_eq_some hnoted
        simp [hid, hnoted, hinputs, picking_congr hmem]
    · simpa [hid] using ih

theorem handleSelections_eq (ss : List Selection) :
    redisplayed parameterList writeableFields fields ss = selected (fun id =>
      (lastNoted parameterList writeableFields fields id).map fun f => parameterList f.binding) ss := by
  rw [redisplayed, handleSelections, foldl_handleField]
  induction ss with
  | nil => rfl
  | cons s ss ih =>
    rw [selected, selected, ih, lastInputs_picking]
    cases lastNoted parameterList writeableFields fields s.id <;> rfl

/-! ## When the selections match -/

theorem allOptions_picking (values : List String) (s : Selection) :
    (s.picking values).allOptions = s.allOptions.map fun option =>
      { option with selected := some (decide (option.value ∈ values)) } := by
  simp [Selection.allOptions, Selection.picking, Selection.mapOptions, List.flatMap_map,
    List.map_flatMap]

theorem picking_selects_iff {values values' : List String} {s : Selection} :
    (s.picking values).Selects values' ↔
      ∀ option ∈ s.allOptions, option.value ∈ values' ↔ option.value ∈ values := by
  simp [Selection.Selects, allOptions_picking, iff_comm]

theorem map_eq_self_iff {α : Type} {f : α → α} {as : List α} :
    as.map f = as ↔ ∀ a ∈ as, f a = a := by
  have h : as.map f = as.map id ↔ ∀ a ∈ as, f a = id a := List.map_inj_left
  rwa [List.map_id] at h

theorem picking_eq_self_iff {values : List String} {s : Selection} :
    s.picking values = s ↔
      ∀ option ∈ s.allOptions, option.selected = some (decide (option.value ∈ values)) := by
  obtain ⟨id, options, groups⟩ := s
  have hoption (option : SelectOption) :
      { option with selected := some (decide (option.value ∈ values)) } = option ↔
        option.selected = some (decide (option.value ∈ values)) := by
    obtain ⟨value, selected⟩ := option
    simp [eq_comm]
  have hgroup (group : OptionGroup) (options : List SelectOption) :
      OptionGroup.mk options = group ↔ options = group.options := by
    obtain ⟨options'⟩ := group
    simp
  simp only [Selection.picking, Selection.mapOptions, Selection.allOptions, Selection.mk.injEq,
    true_and, map_eq_self_iff, hgroup, hoption, List.forall_mem_append, List.forall_mem_flatMap]

/-- The selections that fields are looked up in: no later one has the id. -/
def selectionMap : List Selection → List Selection
  | [] => []
  | s :: ss =>
    if ss.any fun later => later.id == s.id then selectionMap ss else s :: selectionMap ss

/-- For a selection of the form: the field on top that has its name and was noted last picks the
same options as any other field of that name; if there is no such field, then what is selected is right
already. -/
def Settled (parameterList : String → List String) (writeableFields fields : Forest FieldDef)
    (s : Selection) : Prop :=
  match lastNoted parameterList writeableFields fields s.id with
  | some last =>
    (∀ f, Submitted parameterList writeableFields f → s.id = some f.name →
      ∀ option ∈ s.allOptions, option.value ∈ parameterList f.binding ↔
        option.value ∈ parameterList last.binding) ∧
    ((∀ f, Submitted parameterList writeableFields f → s.id ≠ some f.name) →
      ∀ option ∈ s.allOptions, option.selected =
        some (decide (option.value ∈ parameterList last.binding)))
  | none => ∀ f, Submitted parameterList writeableFields f → s.id = some f.name →
      s.Selects (parameterList f.binding)

theorem each_selected_iff {known : Option String → Option (List String)}
    {P : Selection → Selection → Prop} {ss : List Selection} :
    Each P ss (selected known ss) ↔ ∀ s ∈ selectionMap ss,
      P s (match known s.id with
        | none => s
        | some values => s.picking values) := by
  induction ss with
  | nil => simp [Each, selected, selectionMap]
  | cons s ss ih =>
    rw [selected, Each, ih, selectionMap]
    split
    · simp
    · rw [List.forall_mem_cons]

/-- Every selection matches what was submitted for its fields, and those of other fields are left
as they were, if and only if each of them is settled. -/
theorem selections_match_iff (parameterList : String → List String)
    (writeableFields fields : Forest FieldDef) (selections : List Selection) :
    Each (Matched parameterList writeableFields) selections
        (redisplayed parameterList writeableFields fields selections) ↔
      ∀ s ∈ selectionMap selections, Settled parameterList writeableFields fields s := by
  rw [handleSelections_eq, each_selected_iff]
  refine forall₂_congr fun s _ => ?_
  unfold Settled Matched
  cases lastNoted parameterList writeableFields fields s.id with
  | none => simp
  | some last =>
    simp only [Option.map_some, picking_selects_iff, picking_eq_self_iff]

/-! ## An address with a country -/

def country : FieldDef := ⟨"country", "address.country", .listSelect, none⟩

def addressForm : Forest FieldDef :=
  .cons ⟨"address", "address", .object, none⟩ (.cons country .nil .nil) .nil

def countries : Selection where
  id := some "country"
  options := [⟨"de", some true⟩, ⟨"fr", none⟩]
  optionGroups := []

def franceEntered (binding : String) : List String :=
  if binding = country.binding then ["fr"] else []

/-- The form still shows the country that was selected before. -/
theorem nested_selection_stale :
    ¬ Each (Matched franceEntered addressForm) [countries]
      (redisplayed franceEntered addressForm addressForm [countries]) := by
  intro h
  rw [handleSelections_eq, each_selected_iff] at h
  have hnone : lastNoted franceEntered addressForm addressForm countries.id = none := by decide
  have hmatched := (h countries (List.mem_singleton_self _)).1 country ⟨by decide, by decide⟩ rfl
  rw [hnone] at hmatched
  have hfrance := (hmatched ⟨"fr", none⟩ (by decide)).mpr (by decide)
  cases hfrance

end UserSelections
end Pages
end AppNG
