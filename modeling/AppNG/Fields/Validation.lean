import AppNG.Config.Datasource
import AppNG.Fields.Messages
import AppNG.Lib.Forest
import AppNG.Lib.Indexed
import AppNG.Lib.Scan
import AppNG.Lib.StableSort
import AppNG.Lib.Utf16

/-!
# Fields.Validation

`DefaultValidationProvider.validateBean`, with and without bindings that are excluded.

What validates a property, and reads one, is a parameter. Messages of the same reference and code
stay in the order that the violations came in, which is that of a set.

* `step_spec`, `validateField_spec`: the messages that each of the two adds to a field.
* `alike_iff`: when they add the same to a field on top, and `silent_iff`: when the first one adds
  nothing to a field inside of another one.
* `overloads_agree_iff`: when both leave the same messages on all fields.
* `nested_violation_missed`: an empty street in an address is reported by one of them.
-/

namespace AppNG
namespace Fields
namespace Validation

open Config (FieldType)
open Indexed (indexed)

/-! ## The code -/

structure Message where
  ref : String
  clazz : MessageType
  content : String
  code : String
  deriving DecidableEq, Repr

structure Messages where
  ref : String
  messageList : List Message
  deriving DecidableEq, Repr

structure FieldDef where
  name : String
  binding : String
  type : FieldType
  readonly : Option String
  messages : Option Messages
  deriving DecidableEq, Repr

structure ConstraintViolation where
  propertyPath : String
  messageTemplate : String
  message : String
  /-- The name of the class of the annotation. -/
  annotation : String
  deriving DecidableEq, Repr

/-- For the groups that are asked for. -/
structure Validator (O : Type) where
  /-- None: an `IllegalArgumentException`. -/
  validateProperty : O → String → Option (List ConstraintViolation)
  /-- None: it throws, or there is no value. -/
  getPropertyValue : O → String → Option O
  /-- None: it is not a collection. -/
  size : O → Option Nat

/-- The text in front of the first `[]`. -/
def beforeIndexed : List Char → Option (List Char)
  | '[' :: ']' :: _ => some []
  | c :: cs => (beforeIndexed cs).map (c :: ·)
  | [] => none

def arrayProperty (binding : String) : Option String :=
  (beforeIndexed binding.toList).map String.ofList

/-- The pattern `\[\d*\]`. -/
def readIndex : List Char → Option (List Char × Nat)
  | '[' :: cs =>
    match cs.dropWhile Char.isDigit with
    | ']' :: _ => some ("[]".toList, (cs.takeWhile Char.isDigit).length + 1)
    | _ => none
  | _ => none

/-- `replaceAll(INDEX_PATTERN, INDEXED)` -/
def expectedBinding (constraintPath : String) : String :=
  String.ofList (Scan.render id (Scan.scan readIndex 0 constraintPath.toList))

namespace FieldDef

def messageList (field : FieldDef) : List Message := (field.messages.map Messages.messageList).getD []

def addMessage (field : FieldDef) (reference : String) (cv : ConstraintViolation) : FieldDef :=
  let messages := field.messages.getD ⟨field.binding, []⟩
  { field with messages := some { messages with
      messageList := messages.messageList ++
        [⟨reference, .error, cv.message, cv.messageTemplate⟩] } }

def sortMessages (field : FieldDef) : FieldDef :=
  let sorter := StableSort.lex
    [fun m n => Java.compareTo m.ref n.ref, fun m n => Java.compareTo m.code n.code]
  { field with messages := field.messages.map fun messages =>
      { messages with messageList := StableSort.sort sorter messages.messageList } }

/-- Anything but an object or a list of objects, unless it is readonly. -/
def isValidated (field : FieldDef) : Bool :=
  field.type != .object && field.type != .listObject &&
    !(field.readonly.any fun readonly => Java.toLowerCase readonly == "true".toList)

end FieldDef

def getSortedViolations (violations : List ConstraintViolation) : List ConstraintViolation :=
  StableSort.sort (fun cv cv' => Java.compareTo cv.annotation cv'.annotation) violations

def Matches (constraintPath relativePropertyPath : String) : Prop :=
  constraintPath = relativePropertyPath ∨ expectedBinding constraintPath = relativePropertyPath

instance (constraintPath relativePropertyPath : String) :
    Decidable (Matches constraintPath relativePropertyPath) := by
  unfold Matches
  infer_instance

def absolutePropertyPath (propertyRoot : Option String) (constraintPath : String) : String :=
  match propertyRoot with
  | none => constraintPath
  | some propertyRoot => propertyRoot ++ "." ++ constraintPath

def addFieldMessage (violations : List ConstraintViolation) (propertyRoot : Option String)
    (relativePropertyPath : String) (field : FieldDef) : FieldDef :=
  ((getSortedViolations violations).foldl (fun field cv =>
    if Matches cv.propertyPath relativePropertyPath then
      field.addMessage (absolutePropertyPath propertyRoot cv.propertyPath) cv
    else field) field).sortMessages

variable {O : Type} (v : Validator O)

def sizeOf (bean : O) (property : String) : Option Nat :=
  (v.getPropertyValue bean property).bind v.size

/-- The items from the `i`-th on, `n` of them. -/
def validateItems (bean : O) (property name : String) : Nat → Nat → FieldDef → Option FieldDef
  | 0, _, field => some field
  | n + 1, i, field =>
    let root := indexed property i
    match (v.getPropertyValue bean root).bind fun item => v.validateProperty item name with
    | none => none
    | some violations =>
      validateItems bean property name n (i + 1) (addFieldMessage violations (some root) name field)

/-- What the loop of `validateFields` does with one field. -/
def step (bean : O) (field : FieldDef) : Option FieldDef :=
  if field.isValidated then
    match arrayProperty field.binding with
    | some property =>
      match sizeOf v bean property with
      | none => none
      | some size => validateItems v bean property field.name size 0 field
    | none =>
      match v.validateProperty bean field.binding with
      | none => some field
      | some violations => some (addFieldMessage violations none field.binding field)
  else some field

def validateFields (bean : O) (fields : Forest FieldDef) : Option (Forest FieldDef) :=
  fields.mapM (step v bean)

/-- `validateBean(bean, fp, groups)`. None: it throws. -/
def validateBean (bean : Option O) (fields : Forest FieldDef) : Option (Forest FieldDef) :=
  match bean with
  | none => some fields
  | some bean => validateFields v bean fields

def validateField (bean : Option O) (field : FieldDef) : Option FieldDef :=
  match bean.bind fun bean => v.validateProperty bean field.binding with
  | none => none
  | some violations =>
    some (violations.foldl (fun field' cv => field'.addMessage field.binding cv) field).sortMessages

/-- `validateBean(bean, fp, excludeBindings, groups)` -/
def validateBeanExcluding (bean : Option O) (fields : Forest FieldDef)
    (excludeBindings : List String) : Option (Forest FieldDef) :=
  fields.mapTopsM fun field =>
    if excludeBindings.contains field.binding then some field else validateField v bean field

/-! ## When both do the same -/

def SameMessages (field field' : FieldDef) : Prop := field.messageList.Perm field'.messageList

/-- The items are there, and none has a violation that belongs to the field. -/
def ItemsSilent (bean : O) (property : String) (field : FieldDef) : Prop :=
  ∃ size, sizeOf v bean property = some size ∧ ∀ i < size, ∃ item violations,
    v.getPropertyValue bean (indexed property i) = some item ∧
    v.validateProperty item field.name = some violations ∧
    ∀ cv ∈ violations, ¬ Matches cv.propertyPath field.name

/-- No violation that `validateFields` finds belongs to the field. -/
def Silent (bean : O) (field : FieldDef) : Prop :=
  field.isValidated = true →
    match arrayProperty field.binding with
    | some property => ItemsSilent v bean property field
    | none => ∀ violations, v.validateProperty bean field.binding = some violations →
        ∀ cv ∈ violations, ¬ Matches cv.propertyPath field.binding

/-- The property can be validated, and all violations are about itself. There are none if the
field is readonly, one of objects, or one of items that have none themselves. -/
def Alike (bean : O) (field : FieldDef) : Prop :=
  ∃ violations, v.validateProperty bean field.binding = some violations ∧
    if field.isValidated then
      match arrayProperty field.binding with
      | some property => violations = [] ∧ ItemsSilent v bean property field
      | none => ∀ cv ∈ violations, cv.propertyPath = field.binding
    else violations = []

/-! ## The messages that are added -/

def messageOf (reference : String) (cv : ConstraintViolation) : Message :=
  ⟨reference, .error, cv.message, cv.messageTemplate⟩

/-- The messages of a field of this root and path. -/
def matching (violations : List ConstraintViolation) (propertyRoot : Option String)
    (relativePropertyPath : String) : List Message :=
  (violations.filter fun cv => Matches cv.propertyPath relativePropertyPath).map fun cv =>
    messageOf (absolutePropertyPath propertyRoot cv.propertyPath) cv

@[simp] theorem messageList_addMessage (field : FieldDef) (reference : String)
    (cv : ConstraintViolation) :
    (field.addMessage reference cv).messageList =
      field.messageList ++ [messageOf reference cv] := by
  cases h : field.messages <;> simp [FieldDef.addMessage, FieldDef.messageList, messageOf, h]

theorem messageList_sortMessages (field : FieldDef) :
    field.sortMessages.messageList.Perm field.messageList := by
  cases h : field.messages with
  | none => simp [FieldDef.sortMessages, FieldDef.messageList, h]
  | some messages =>
    simp only [FieldDef.sortMessages, FieldDef.messageList, h, Option.map_some, Option.getD_some]
    exact List.perm_insertionSort _ _

theorem addFieldMessage_perm (violations : List ConstraintViolation) (propertyRoot : Option String)
    (relativePropertyPath : String) (field : FieldDef) :
    (addFieldMessage violations propertyRoot relativePropertyPath field).messageList.Perm
      (field.messageList ++ matching violations propertyRoot relativePropertyPath) := by
  have hfold (cvs : List ConstraintViolation) (field : FieldDef) :
      (cvs.foldl (fun field cv =>
        if Matches cv.propertyPath relativePropertyPath then
          field.addMessage (absolutePropertyPath propertyRoot cv.propertyPath) cv
        else field) field).messageList =
      field.messageList ++ matching cvs propertyRoot relativePropertyPath := by
    induction cvs generalizing field with
    | nil => simp [matching]
    | cons cv cvs ih =>
      rw [List.foldl_cons, ih]
      by_cases h : Matches cv.propertyPath relativePropertyPath
      · simp [matching, h]
      · simp [matching, h]
  have hsorted : (getSortedViolations violations).Perm violations := List.perm_insertionSort _ _
  refine (messageList_sortMessages _).trans ?_
  rw [hfold]
  exact ((hsorted.filter _).map _).append_left _

/-- What a field becomes to which these messages are added. None: it throws. -/
def Adds (field : FieldDef) : Option (List Message) → Option FieldDef → Prop
  | none, result => result = none
  | some messages, result =>
    ∃ field', result = some field' ∧ field'.messageList.Perm (field.messageList ++ messages)

theorem validateField_spec (bean : O) (field : FieldDef) :
    Adds field ((v.validateProperty bean field.binding).map fun violations =>
      violations.map (messageOf field.binding)) (validateField v (some bean) field) := by
  have hfold (violations : List ConstraintViolation) (field' : FieldDef) :
      (violations.foldl (fun field' cv => field'.addMessage field.binding cv)
        field').messageList = field'.messageList ++ violations.map (messageOf field.binding) := by
    induction violations generalizing field' with
    | nil => simp
    | cons cv cvs ih => rw [List.foldl_cons, ih]; simp
  unfold validateField
  rw [Option.bind_some]
  cases v.validateProperty bean field.binding with
  | none => rfl
  | some violations =>
    refine ⟨_, rfl, (messageList_sortMessages _).trans ?_⟩
    rw [hfold]

/-- What the items from the `i`-th on add. -/
def itemMessages (bean : O) (property name : String) : Nat → Nat → Option (List Message)
  | 0, _ => some []
  | n + 1, i =>
    let root := indexed property i
    match (v.getPropertyValue bean root).bind fun item => v.validateProperty item name with
    | none => none
    | some violations =>
      (itemMessages bean property name n (i + 1)).map (matching violations (some root) name ++ ·)

/-- What `validateFields` adds to a field. -/
def found (bean : O) (field : FieldDef) : Option (List Message) :=
  if field.isValidated then
    match arrayProperty field.binding with
    | some property =>
      match sizeOf v bean property with
      | none => none
      | some size => itemMessages v bean property field.name size 0
    | none =>
      match v.validateProperty bean field.binding with
      | none => some []
      | some violations => some (matching violations none field.binding)
  else some []

variable {v} {bean : O}

theorem validateItems_spec {property name : String} {n i : Nat} (field : FieldDef) :
    Adds field (itemMessages v bean property name n i)
      (validateItems v bean property name n i field) := by
  induction n generalizing i field with
  | zero => exact ⟨field, rfl, by simp⟩
  | succ n ih =>
    simp only [itemMessages, validateItems]
    cases (v.getPropertyValue bean (indexed property i)).bind fun item =>
        v.validateProperty item name with
    | none => rfl
    | some violations =>
      have hitem := addFieldMessage_perm violations (some (indexed property i)) name field
      have hlater := ih (i := i + 1)
        (addFieldMessage violations (some (indexed property i)) name field)
      cases hmessages : itemMessages v bean property name n (i + 1) with
      | none =>
        rw [hmessages] at hlater
        exact hlater
      | some messages =>
        rw [hmessages] at hlater
        obtain ⟨field', hfield', hperm⟩ := hlater
        refine ⟨field', hfield', hperm.trans ?_⟩
        rw [← List.append_assoc]
        exact hitem.append_right messages

theorem step_spec (field : FieldDef) : Adds field (found v bean field) (step v bean field) := by
  unfold found step
  by_cases hvalidated : field.isValidated = true
  · rw [if_pos hvalidated, if_pos hvalidated]
    cases arrayProperty field.binding with
    | some property =>
      cases hsize : sizeOf v bean property with
      | none => simp only [Adds, hsize]
      | some size =>
        simp only [hsize]
        exact validateItems_spec field
    | none =>
      cases v.validateProperty bean field.binding with
      | none => exact ⟨field, rfl, by simp⟩
      | some violations => exact ⟨_, rfl, addFieldMessage_perm _ _ _ field⟩
  · rw [if_neg hvalidated, if_neg hvalidated]
    exact ⟨field, rfl, by simp⟩

/-! ## Field by field -/

theorem matching_eq_nil_iff {violations : List ConstraintViolation} {root : Option String}
    {path : String} :
    matching violations root path = [] ↔ ∀ cv ∈ violations, ¬ Matches cv.propertyPath path := by
  simp [matching, List.filter_eq_nil_iff]

theorem itemMessages_nil_iff {property name : String} {n i : Nat} :
    itemMessages v bean property name n i = some [] ↔
      ∀ j, i ≤ j → j < i + n → ∃ item violations,
        v.getPropertyValue bean (indexed property j) = some item ∧
        v.validateProperty item name = some violations ∧
        ∀ cv ∈ violations, ¬ Matches cv.propertyPath name := by
  induction n generalizing i with
  | zero =>
    simp only [itemMessages, true_iff]
    intro j hij hj
    omega
  | succ n ih =>
    have hfirst : itemMessages v bean property name (n + 1) i = some [] ↔
        (∃ item violations,
          v.getPropertyValue bean (indexed property i) = some item ∧
          v.validateProperty item name = some violations ∧
          ∀ cv ∈ violations, ¬ Matches cv.propertyPath name) ∧
        itemMessages v bean property name n (i + 1) = some [] := by
      simp only [itemMessages]
      cases hvalue : v.getPropertyValue bean (indexed property i) with
      | none => simp
      | some item =>
        cases hviolations : v.validateProperty item name with
        | none => simp [hviolations]
        | some violations =>
          simp [hviolations, matching_eq_nil_iff, and_comm]
    rw [hfirst, ih]
    constructor
    · rintro ⟨hi, hlater⟩ j hij hj
      by_cases hji : j = i
      · rw [hji]
        exact hi
      · exact hlater j (by omega) (by omega)
    · intro h
      exact ⟨h i (by omega) (by omega), fun j hij hj => h j (by omega) (by omega)⟩

theorem found_nil_iff {field : FieldDef} : found v bean field = some [] ↔ Silent v bean field := by
  unfold found Silent
  by_cases hvalidated : field.isValidated = true
  · simp only [hvalidated, if_true, true_imp_iff]
    cases arrayProperty field.binding with
    | some property =>
      cases hsize : sizeOf v bean property with
      | none => simp [ItemsSilent, hsize]
      | some size => simp [ItemsSilent, hsize, itemMessages_nil_iff]
    | none =>
      cases v.validateProperty bean field.binding with
      | none => simp
      | some violations => simp [matching_eq_nil_iff]
  · simp [hvalidated]

theorem silent_iff {field : FieldDef} :
    (∃ field', step v bean field = some field' ∧ SameMessages field' field) ↔
      Silent v bean field := by
  rw [← found_nil_iff]
  have hspec : Adds field (found v bean field) (step v bean field) := step_spec field
  constructor
  · rintro ⟨field', hstep, hsame⟩
    cases hfound : found v bean field with
    | none =>
      rw [hfound, hstep] at hspec
      cases hspec
    | some messages =>
      rw [hfound, hstep] at hspec
      obtain ⟨_, heq, hperm⟩ := hspec
      cases heq
      have hlength := (hperm.symm.trans hsame).length_eq
      rw [List.length_append] at hlength
      rw [List.eq_nil_of_length_eq_zero (by omega : messages.length = 0)]
  · intro hfound
    rw [hfound] at hspec
    obtain ⟨field', hstep, hperm⟩ := hspec
    rw [List.append_nil] at hperm
    exact ⟨field', hstep, hperm⟩

theorem added_iff {field : FieldDef} :
    (∃ field' field'', step v bean field = some field' ∧
        validateField v (some bean) field = some field'' ∧ SameMessages field' field'') ↔
      ∃ messages violations, found v bean field = some messages ∧
        v.validateProperty bean field.binding = some violations ∧
        messages.Perm (violations.map (messageOf field.binding)) := by
  have hspec : Adds field (found v bean field) (step v bean field) := step_spec field
  have hspec' := validateField_spec (v := v) bean field
  constructor
  · rintro ⟨field', field'', hstep, hvalidate, hsame⟩
    rw [hstep] at hspec
    rw [hvalidate] at hspec'
    cases hfound : found v bean field with
    | none =>
      rw [hfound] at hspec
      cases hspec
    | some messages =>
      cases hviolations : v.validateProperty bean field.binding with
      | none =>
        rw [hviolations] at hspec'
        cases hspec'
      | some violations =>
        rw [hfound] at hspec
        rw [hviolations] at hspec'
        obtain ⟨_, heq, hperm⟩ := hspec
        obtain ⟨_, heq', hperm'⟩ := hspec'
        cases heq
        cases heq'
        exact ⟨messages, violations, rfl, rfl,
          (List.perm_append_left_iff _).mp (hperm.symm.trans (hsame.trans hperm'))⟩
  · rintro ⟨messages, violations, hfound, hviolations, hsame⟩
    rw [hfound] at hspec
    rw [hviolations] at hspec'
    obtain ⟨field', hstep, hperm⟩ := hspec
    obtain ⟨field'', hvalidate, hperm'⟩ := hspec'
    exact ⟨field', field'', hstep, hvalidate,
      hperm.trans ((hsame.append_left field.messageList).trans hperm'.symm)⟩

theorem of_beforeIndexed {cs pre : List Char} (h : beforeIndexed cs = some pre) :
    ∃ post, cs = pre ++ '[' :: ']' :: post := by
  induction cs generalizing pre with
  | nil => cases h
  | cons c cs ih =>
    by_cases hhere : c = '[' ∧ ∃ post, cs = ']' :: post
    · obtain ⟨rfl, post, rfl⟩ := hhere
      cases h
      exact ⟨post, rfl⟩
    · have hlater : beforeIndexed (c :: cs) = (beforeIndexed cs).map (c :: ·) := by
        rw [beforeIndexed.eq_def]
        split
        · rename_i heq
          cases heq
          exact absurd ⟨rfl, _, rfl⟩ hhere
        · rename_i heq
          cases heq
          rfl
        · rename_i heq
          cases heq
      rw [hlater, Option.map_eq_some_iff] at h
      obtain ⟨pre', hpre', rfl⟩ := h
      obtain ⟨post, rfl⟩ := ih hpre'
      exact ⟨post, rfl⟩

/-- The reference of an item's message has an index where the binding has none. -/
theorem reference_ne_binding {binding property : String} (h : arrayProperty binding = some property)
    (i : Nat) (path : String) :
    absolutePropertyPath (some (indexed property i)) path ≠ binding := by
  intro heq
  obtain ⟨pre, hpre, rfl⟩ := Option.map_eq_some_iff.mp h
  obtain ⟨post, hpost⟩ := of_beforeIndexed hpre
  have hchars := congrArg String.toList heq
  rw [hpost] at hchars
  simp only [absolutePropertyPath, String.toList_append, Indexed.toList_indexed,
    String.toList_ofList, List.append_assoc, List.append_cancel_left_eq, List.cons_append,
    List.cons.injEq, true_and, List.nil_append] at hchars
  -- the binding has no digits in front of the bracket
  have hdigits := (Indexed.digits_append_inj (fun _ => Indexed.isDigit_of_mem) (fun _ h => absurd h List.not_mem_nil)
    (hchars.trans (List.nil_append _).symm)).1
  exact Nat.toDigits_ne_nil hdigits

theorem mem_itemMessages {property name : String} {m : Message} {n i : Nat} {messages : List Message}
    (h : itemMessages v bean property name n i = some messages) (hm : m ∈ messages) :
    ∃ j path, m.ref = absolutePropertyPath (some (indexed property j)) path := by
  induction n generalizing i messages with
  | zero =>
    cases h
    cases hm
  | succ n ih =>
    simp only [itemMessages] at h
    split at h
    · cases h
    · obtain ⟨later, hlater, rfl⟩ := Option.map_eq_some_iff.mp h
      rcases List.mem_append.mp hm with hm | hm
      · simp only [matching, List.mem_map] at hm
        obtain ⟨cv, _, rfl⟩ := hm
        exact ⟨i, cv.propertyPath, rfl⟩
      · exact ih hlater hm

/-- Items that have violations are reported under their index, so nothing agrees with a violation
of the property itself. -/
theorem items_alike_iff {field : FieldDef} {property : String} {violations : List ConstraintViolation}
    (hvalidated : field.isValidated = true) (hproperty : arrayProperty field.binding = some property) :
    (∃ messages, found v bean field = some messages ∧
        messages.Perm (violations.map (messageOf field.binding))) ↔
      violations = [] ∧ ItemsSilent v bean property field := by
  have hsilent : found v bean field = some [] ↔ ItemsSilent v bean property field := by
    rw [found_nil_iff]
    simp only [Silent, hvalidated, hproperty, true_imp_iff]
  rw [← hsilent]
  constructor
  · rintro ⟨messages, hfound, hperm⟩
    have hnone : violations = [] := by
      by_contra hne
      obtain ⟨cv, hcv⟩ := List.exists_mem_of_ne_nil _ hne
      have hmem : messageOf field.binding cv ∈ messages :=
        hperm.mem_iff.mpr (List.mem_map_of_mem hcv)
      simp only [found, hvalidated, if_true, hproperty] at hfound
      split at hfound
      · cases hfound
      · obtain ⟨j, path, href⟩ := mem_itemMessages hfound hmem
        exact reference_ne_binding hproperty j path href.symm
    subst hnone
    rw [List.map_nil, List.perm_nil] at hperm
    exact ⟨rfl, hperm ▸ hfound⟩
  · rintro ⟨rfl, hfound⟩
    exact ⟨[], hfound, .refl _⟩

theorem matching_perm_iff {violations : List ConstraintViolation} {binding : String} :
    (matching violations none binding).Perm (violations.map (messageOf binding)) ↔
      ∀ cv ∈ violations, cv.propertyPath = binding := by
  constructor
  · intro hperm cv hcv
    have hlength := hperm.length_eq
    rw [matching, List.length_map, List.length_map, List.length_filter_eq_length_iff] at hlength
    have hmem : messageOf cv.propertyPath cv ∈ matching violations none binding :=
      List.mem_map.mpr ⟨cv, List.mem_filter.mpr ⟨hcv, hlength cv hcv⟩, rfl⟩
    obtain ⟨cv', _, heq⟩ := List.mem_map.mp (hperm.mem_iff.mp hmem)
    exact (congrArg Message.ref heq).symm
  · intro h
    have hall : violations.filter (fun cv => decide (Matches cv.propertyPath binding)) = violations :=
      List.filter_eq_self.mpr fun cv hcv => decide_eq_true (.inl (h cv hcv))
    rw [matching, hall]
    refine List.Perm.of_eq (List.map_congr_left fun cv hcv => ?_)
    rw [absolutePropertyPath, h cv hcv]

theorem alike_iff {field : FieldDef} :
    (∃ field' field'', step v bean field = some field' ∧
        validateField v (some bean) field = some field'' ∧ SameMessages field' field'') ↔
      Alike v bean field := by
  rw [added_iff, exists_comm]
  refine exists_congr fun violations => ?_
  rw [show (∃ messages, found v bean field = some messages ∧
        v.validateProperty bean field.binding = some violations ∧
        messages.Perm (violations.map (messageOf field.binding))) ↔
      v.validateProperty bean field.binding = some violations ∧
        ∃ messages, found v bean field = some messages ∧
          messages.Perm (violations.map (messageOf field.binding)) by tauto]
  refine and_congr_right fun hviolations => ?_
  by_cases hvalidated : field.isValidated = true
  · rw [if_pos hvalidated]
    cases hproperty : arrayProperty field.binding with
    | some property => exact items_alike_iff hvalidated hproperty
    | none => simp [found, hvalidated, hproperty, hviolations, matching_perm_iff]
  · simp [found, hvalidated]

/-! ## Form by form -/

theorem fields_agree_iff {fields : Forest FieldDef} :
    (∃ fields' fields'', validateBean v (some bean) fields = some fields' ∧
        validateBeanExcluding v (some bean) fields [] = some fields'' ∧
        Forest.Rel SameMessages fields' fields'') ↔
      (∀ field ∈ fields.tops, Alike v bean field) ∧ ∀ field ∈ fields.nested, Silent v bean field := by
  have hexcluded : validateBeanExcluding v (some bean) fields [] =
      fields.mapTopsM (validateField v (some bean)) := by
    simp [validateBeanExcluding]
  rw [hexcluded]
  simp only [validateBean, validateFields, Forest.passes_agree_iff, alike_iff, silent_iff]

theorem no_bean_agree_iff {fields : Forest FieldDef} :
    (∃ fields' fields'', validateBean v none fields = some fields' ∧
        validateBeanExcluding v none fields [] = some fields'' ∧
        Forest.Rel SameMessages fields' fields'') ↔ fields = .nil := by
  cases fields with
  | nil => simp [validateBean, validateBeanExcluding, Forest.mapTopsM, Forest.Rel]
  | cons field below beside =>
    simp [validateBean, validateBeanExcluding, Forest.mapTopsM, validateField]

/-- Both overloads return, and leave the same messages on every field, if and only if they do the
same with each field on top, and no field inside of another one has a violation that is its own.
Without a bean that is so for a form without fields. -/
theorem overloads_agree_iff {O : Type} (v : Validator O) (bean : Option O)
    (fields : Forest FieldDef) :
    (∃ fields' fields'', validateBean v bean fields = some fields' ∧
        validateBeanExcluding v bean fields [] = some fields'' ∧
        Forest.Rel SameMessages fields' fields'') ↔
      match bean with
      | none => fields = .nil
      | some bean => (∀ field ∈ fields.tops, Alike v bean field) ∧
          ∀ field ∈ fields.nested, Silent v bean field := by
  cases bean with
  | none => exact no_bean_agree_iff
  | some bean => exact fields_agree_iff

/-! ## A form with an address -/

def addressForm : Forest FieldDef :=
  .cons ⟨"address", "address", .object, none, none⟩
    (.cons ⟨"street", "address.street", .text, none, none⟩ .nil .nil) .nil

def notNull : ConstraintViolation where
  propertyPath := "address.street"
  messageTemplate := "\x7bjakarta.validation.constraints.NotNull.message\x7d"
  message := "must not be null"
  annotation := "NotNull"

/-- The street must not be null, and is. -/
def streetMissing : Validator Unit where
  validateProperty _ property := some (if property = notNull.propertyPath then [notNull] else [])
  getPropertyValue _ _ := none
  size _ := none

/-- The overload for exclusions leaves the form without a message. -/
theorem nested_violation_missed :
    ¬ ∃ fields fields', validateBean streetMissing (some ()) addressForm = some fields ∧
      validateBeanExcluding streetMissing (some ()) addressForm [] = some fields' ∧
      Forest.Rel SameMessages fields fields' := by
  intro h
  have hsilent := (fields_agree_iff.mp h).2 _ List.mem_cons_self rfl
  have hplain : arrayProperty "address.street" = none := by decide
  simp only [hplain] at hsilent
  exact hsilent [notNull] (congrArg some (if_pos rfl)) notNull List.mem_cons_self (.inl rfl)

end Validation
end Fields
end AppNG
