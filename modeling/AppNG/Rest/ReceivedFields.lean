import AppNG.Config.Datasource
import AppNG.Lib.Collect
import AppNG.Lib.Forest
import AppNG.Lib.Indexed
import Mathlib.Data.Set.Finite.Lattice

/-!
# Rest.ReceivedFields

`RestActionBase.extractRequestParameters`: the parameters of the request that performs an action, from the
definition of the action and the action that was received.

The definition and the received fields are gone through side by side, with the path of an object handed down
to the fields inside. Some of the branches take a binding in place of the path, and most of them rely on the
field being there.

* `field_iff`: when a field adds what it should, from the same for the fields inside.
* `extract_iff`: when all fields do.
* `parameters_extracted_iff`: when the request gets the parameters of the writable fields that were
  received, each under its path.
* `missing_field_throws`: a text that is not received is a null pointer.
-/

namespace AppNG
namespace Rest
namespace ReceivedFields

open Collect
open Config (FieldType)

/-! ## The code -/

structure FieldDef where
  name : String
  binding : String
  type : FieldType
  readonly : Option String
  /-- The expression of the condition, if there is one. -/
  condition : Option (Option String)
  deriving DecidableEq, Repr

structure ActionDef where
  /-- The names of the parameters. -/
  params : Option (List String)
  metaData : Option (Forest FieldDef)

structure GroupOption where
  value : Option String
  selected : Option Bool

structure SelectOption extends GroupOption where
  options : Option (List (Option GroupOption))

structure Options where
  entries : Option (List (Option SelectOption))

/-- `V` is what JSON values are. -/
structure ActionField (V : Type) where
  name : Option String
  value : Option V
  fieldType : Option FieldType
  format : Option String
  options : Option Options

structure Parameter where
  name : Option String
  value : Option String

variable {V : Type}

/-- A list of fields is null, or empty. Its elements may be null. -/
abbrev Fields (V : Type) := Forest (Option (ActionField V))

structure ReceivedAction (V : Type) where
  parameters : Option (List (Option Parameter))
  fields : Fields V

structure Formats (V : Type) where
  toString : V → String
  /-- By a `DecimalFormat` of the pattern; none: it throws, also without a pattern. -/
  format : Option String → V → Option String

/-- The parameters that are added to the request, in order. -/
abbrev Added := List (String × Option String)

/-- `equalsIgnoreCase` -/
def isTrue (text : Option String) : Bool := text.any fun text => Java.toLowerCase text == "true".toList

namespace FieldDef

def isActive (field : FieldDef) : Bool :=
  !isTrue field.readonly &&
    match field.condition with
    | none => true
    | some expression => isTrue expression

inductive Kind where
  | objectList | array | object | selection | value

/-- The branch that is taken for a field. -/
def kind (field : FieldDef) : Kind :=
  if field.type = .listObject then .objectList
  else if field.type = .object then
    if "[]".toList.isSuffixOf field.binding.toList then .array else .object
  else if field.type = .listCheckbox ∨ field.type = .listRadio ∨ field.type = .listSelect then .selection
  else .value

end FieldDef

/-- `replace("[]", "[" + i + "]")` -/
def replaceIndexed (i : Nat) : List Char → List Char
  | '[' :: ']' :: cs => '[' :: (Nat.toDigits 10 i ++ ']' :: replaceIndexed i cs)
  | c :: cs => c :: replaceIndexed i cs
  | [] => []

def elementName (name : String) (i : Nat) : String := String.ofList (replaceIndexed i name.toList)

/-- In the map of the fields: the last one of the name. -/
def find (name : String) : Fields V → Option (ActionField V × Fields V)
  | .nil => none
  | .cons field nested fields =>
    match find name fields with
    | some found => some found
    | none => field.bind fun field => if field.name = some name then some (field, nested) else none

/-- None: a `NullPointerException`. -/
def getActionFieldMap (receivedData : Fields V) : Option (String → Option (ActionField V × Fields V)) :=
  if receivedData.tops.all Option.isSome then some fun name => find name receivedData else none

def getStringValue (formats : Formats V) (actionField : ActionField V) : Option (Option String) :=
  match actionField.value with
  | none => some none
  | some value =>
    if actionField.fieldType = some .decimal ∨ actionField.fieldType = some .long ∨
        actionField.fieldType = some .int then
      (formats.format actionField.format value).map some
    else some (some (formats.toString value))

/-- None: one of the options is null. -/
def selectedValues (options : List (Option GroupOption)) : Option (List (Option String)) :=
  if options.all Option.isSome then
    some ((options.filterMap id).filterMap fun o =>
      if o.selected = some true then some o.value else none)
  else none

/-- Those of the options that are groups. -/
def valuesFromGroups : List (Option SelectOption) → Option (List (Option String))
  | [] => some []
  | o :: options =>
    match o.bind SelectOption.options with
    | none => valuesFromGroups options
    | some groups => andThen (selectedValues groups) (valuesFromGroups options)

def extractSelectionValue (actionField : ActionField V) : Option (List (Option String)) :=
  match actionField.options.bind Options.entries with
  | none => none
  | some options =>
    andThen (selectedValues (options.map (Option.map SelectOption.toGroupOption)))
      (valuesFromGroups options)

/-- For a field that is neither readonly nor has a condition that is not true. The loop over the elements of
an array is left after a number of iterations. -/
def extractField (formats : Formats V) (iterations : Nat) (pathPrefix : String) (field : FieldDef)
    (hasChildren : Bool) (extractChildren : String → Fields V → Option Added)
    (actionFields : String → Option (ActionField V × Fields V)) : Option Added :=
  match field.kind with
  | .objectList =>
    match actionFields field.name with
    | none => if hasChildren then none else some []
    | some (_, nested) => extractChildren pathPrefix nested
  | .array =>
    whilePresent (fun i => actionFields (elementName field.name i))
      (fun i found => extractChildren (pathPrefix ++ elementName field.name i ++ ".") found.2) iterations 0
  | .object =>
    match actionFields field.name with
    | none => if hasChildren then none else some []
    | some (_, nested) => extractChildren (field.binding ++ ".") nested
  | .selection =>
    match actionFields field.name with
    | none => none
    | some (actionField, _) =>
      (extractSelectionValue actionField).map (List.map fun value => (field.binding, value))
  | .value =>
    match actionFields field.name with
    | none => none
    | some (actionField, _) =>
      (getStringValue formats actionField).map fun stringValue =>
        match stringValue with
        | none => []
        | some stringValue => [(pathPrefix ++ field.name, some stringValue)]

def extractRequestParameter (formats : Formats V) (iterations : Nat) :
    String → Forest FieldDef → Fields V → Option Added
  | _, .nil, _ => some []
  | pathPrefix, .cons field children fields, receivedData =>
    match getActionFieldMap receivedData with
    | none => none
    | some actionFields =>
      andThen
        (if field.isActive then
          extractField formats iterations pathPrefix field (children ≠ .nil)
            (fun pathPrefix nested => extractRequestParameter formats iterations pathPrefix children nested)
            actionFields
        else some [])
        (extractRequestParameter formats iterations pathPrefix fields receivedData)

/-- `filter(p -> p.getName().equals(name)).findFirst()` -/
def findParameter (name : String) : List (Option Parameter) → Option (Option Parameter)
  | [] => some none
  | p :: parameters =>
    match p.bind Parameter.name with
    | none => none
    | some found => if found = name then some p else findParameter name parameters

def extractParams (parameters : Option (List (Option Parameter))) : List String → Option Added
  | [] => some []
  | name :: params =>
    match parameters.bind (findParameter name) with
    | none => none
    | some parameter =>
      andThen (some ((parameter.bind Parameter.value).toList.map fun value => (name, some value)))
        (extractParams parameters params)

def extractRequestParameters (formats : Formats V) (iterations : Nat) (original : ActionDef)
    (receivedData : ReceivedAction V) : Option Added :=
  andThen (extractParams receivedData.parameters (original.params.getD []))
    (match original.metaData, getActionFieldMap receivedData.fields with
    | some fields, some _ => extractRequestParameter formats iterations "" fields receivedData.fields
    | _, _ => none)

/-! ## What should be added -/

/-- The parameters of a field: their name, and their values. -/
abbrev Entry := String × List (Option String)

def addedOf (entries : List Entry) : Added := entries.flatMap fun e => e.2.map fun value => (e.1, value)

/-- No parameter without a value. -/
def entry (path : String) (values : List (Option String)) : List Entry :=
  if values = [] then [] else [(path, values)]

open Classical in
/-- A number beyond all those with a property. -/
noncomputable def limit (P : Nat → Prop) : Nat :=
  if h : ∃ n, ∀ i, P i → i < n then h.choose else 0

/-- The elements of an array, at all indexes that were received. -/
def HasElement (field : FieldDef) (received : Fields V) (i : Nat) : Prop :=
  (find (elementName field.name i) received).isSome = true

/-- What is written into a field is what it should get, under a path; the others only hand it down. -/
noncomputable def expectedField (formats : Formats V) (path : String) (field : FieldDef)
    (expectedChildren : String → Fields V → List Entry) (received : Fields V) : List Entry :=
  match field.kind with
  | .objectList => ((find field.name received).map fun found => expectedChildren path found.2).getD []
  | .array =>
    (List.range (limit (HasElement field received))).flatMap fun i =>
      ((find (elementName field.name i) received).map fun found =>
        expectedChildren (path ++ elementName field.name i ++ ".") found.2).getD []
  | .object =>
    ((find field.name received).map fun found =>
      expectedChildren (path ++ field.name ++ ".") found.2).getD []
  | .selection =>
    entry (path ++ field.name)
      (((find field.name received).bind fun found => extractSelectionValue found.1).getD [])
  | .value =>
    entry (path ++ field.name) (((find field.name received).bind fun found =>
      (getStringValue formats found.1).map fun text => (text.map some).toList).getD [])

/-- One entry for each writable field that was received with a value, in the order of the definition. -/
noncomputable def expected (formats : Formats V) :
    String → Forest FieldDef → Fields V → List Entry
  | _, .nil, _ => []
  | path, .cons field children fields, received =>
    (if field.isActive then
      expectedField formats path field (fun path nested => expected formats path children nested) received
    else []) ++ expected formats path fields received

/-! ## The condition -/

def NoNulls (received : Fields V) : Prop := received.tops.all Option.isSome = true

/-- A field that is not a value or a selection may be missing if there is nothing inside, and the elements
of an array behind a gap have no values. A value is received with a format, a selection with its options.
What is added to the request has the full path for its name: the binding of a selection is its path, and so is
that of the innermost object around a value (`rooted`). -/
def RegularField (formats : Formats V) (rooted : Prop) (path : String) (field : FieldDef)
    (hasChildren : Bool) (RegularChildren : Prop → String → Fields V → Prop)
    (expectedChildren : String → Fields V → List Entry) (received : Fields V) : Prop :=
  match field.kind with
  | .objectList =>
    match find field.name received with
    | none => hasChildren = false
    | some (_, nested) => RegularChildren rooted path nested
  | .array => ∃ n, find (elementName field.name n) received = none ∧
      (∀ i < n, ∃ found, find (elementName field.name i) received = some found ∧
        RegularChildren rooted (path ++ elementName field.name i ++ ".") found.2) ∧
      ∀ i found, n < i → find (elementName field.name i) received = some found →
        expectedChildren (path ++ elementName field.name i ++ ".") found.2 = []
  | .object =>
    match find field.name received with
    | none => hasChildren = false
    | some (_, nested) =>
      RegularChildren (field.binding = path ++ field.name) (path ++ field.name ++ ".") nested
  | .selection => ∃ found values, find field.name received = some found ∧
      extractSelectionValue found.1 = some values ∧
      (values ≠ [] → field.binding = path ++ field.name)
  | .value => ∃ found text, find field.name received = some found ∧
      getStringValue formats found.1 = some text ∧ (text ≠ none → rooted)

/-- For every field that is neither readonly nor has a condition that is not true. -/
def Regular (formats : Formats V) (rooted : Prop) (path : String) :
    Forest FieldDef → Fields V → Prop
  | .nil, _ => True
  | .cons field children fields, received =>
    NoNulls received ∧
      (field.isActive = true → RegularField formats rooted path field (children ≠ .nil)
        (fun rooted path nested => Regular formats rooted path children nested)
        (fun path nested => expected formats path children nested) received) ∧
      Regular formats rooted path fields received

/-! ## Entries -/

@[simp] theorem addedOf_nil : addedOf [] = [] := rfl

@[simp] theorem addedOf_append (es fs : List Entry) : addedOf (es ++ fs) = addedOf es ++ addedOf fs :=
  List.flatMap_append

@[simp] theorem addedOf_entry (path : String) (values : List (Option String)) :
    addedOf (entry path values) = values.map fun value => (path, value) := by
  unfold entry addedOf
  split
  · simp_all
  · simp

theorem addedOf_flatMap {α : Type} (as : List α) (f : α → List Entry) :
    addedOf (as.flatMap f) = as.flatMap fun a => addedOf (f a) :=
  List.flatMap_assoc

theorem addedOf_eq_nil {es : List Entry} (hvalues : ∀ e ∈ es, e.2 ≠ []) :
    addedOf es = [] ↔ es = [] := by
  constructor
  · intro h
    cases es with
    | nil => rfl
    | cons e es =>
      have he : e.2.map (fun value => (e.1, value)) = [] := (List.append_eq_nil_iff.mp h).1
      exact absurd (List.map_eq_nil_iff.mp he) (hvalues e List.mem_cons_self)
  · rintro rfl
    rfl

theorem entry_values {path : String} {values : List (Option String)} {e : Entry}
    (h : e ∈ entry path values) : e.2 ≠ [] := by
  unfold entry at h
  split at h
  · cases h
  · rw [List.mem_singleton.mp h]
    assumption

theorem expectedField_values {formats : Formats V} {path : String} {field : FieldDef}
    {expectedChildren : String → Fields V → List Entry} {received : Fields V} {e : Entry}
    (hchildren : ∀ path nested, ∀ e ∈ expectedChildren path nested, e.2 ≠ [])
    (h : e ∈ expectedField formats path field expectedChildren received) : e.2 ≠ [] := by
  unfold expectedField at h
  cases hkind : field.kind with
  | objectList =>
    simp only [hkind] at h
    cases hfound : find field.name received with
    | none => simp [hfound] at h
    | some found => exact hchildren _ _ e (by simpa [hfound] using h)
  | array =>
    simp only [hkind] at h
    obtain ⟨i, _, hi⟩ := List.mem_flatMap.mp h
    cases hfound : find (elementName field.name i) received with
    | none => simp [hfound] at hi
    | some found => exact hchildren _ _ e (by simpa [hfound] using hi)
  | object =>
    simp only [hkind] at h
    cases hfound : find field.name received with
    | none => simp [hfound] at h
    | some found => exact hchildren _ _ e (by simpa [hfound] using h)
  | selection =>
    simp only [hkind] at h
    exact entry_values h
  | value =>
    simp only [hkind] at h
    exact entry_values h

theorem expected_values {formats : Formats V} {defs : Forest FieldDef} {path : String}
    {received : Fields V} : ∀ e ∈ expected formats path defs received, e.2 ≠ [] := by
  induction defs generalizing path received with
  | nil =>
    intro e he
    cases he
  | cons field children fields ihChildren ihFields =>
    intro e he
    rw [expected, List.mem_append] at he
    rcases he with he | he
    · split at he
      · exact expectedField_values (fun _ _ => ihChildren) he
      · cases he
    · exact ihFields e he

/-! ## The elements of an array -/

/-- The index is in the name, or there is no place for it. -/
theorem replaceIndexed_inj (cs : List Char) :
    (∀ i j, replaceIndexed i cs = replaceIndexed j cs → i = j) ∨
      ∀ i j, replaceIndexed i cs = replaceIndexed j cs := by
  induction cs using replaceIndexed.induct with
  | case1 cs _ =>
    refine .inl fun i j h => ?_
    simp only [replaceIndexed, List.cons.injEq, true_and] at h
    exact Indexed.toDigits_inj (Indexed.digits_append_inj (fun _ => Indexed.isDigit_of_mem)
      (fun _ => Indexed.isDigit_of_mem) h).1
  | case2 c cs hne ih =>
    have hcons : ∀ i, replaceIndexed i (c :: cs) = c :: replaceIndexed i cs := by
      intro i
      rw [replaceIndexed]
      exact hne
    simp only [hcons, List.cons.injEq, true_and]
    exact ih
  | case3 => exact .inr fun _ _ => rfl

theorem elementName_inj (name : String) :
    Function.Injective (elementName name) ∨ ∀ i j, elementName name i = elementName name j := by
  have htext : ∀ i j, elementName name i = elementName name j ↔
      replaceIndexed i name.toList = replaceIndexed j name.toList := by
    intro i j
    simp only [elementName, String.ofList_inj]
  rcases replaceIndexed_inj name.toList with hinj | hsame
  · exact .inl fun i j h => hinj i j ((htext i j).mp h)
  · exact .inr fun i j => (htext i j).mpr (hsame i j)

def names (received : Fields V) : List String := received.tops.filterMap fun field => field.bind ActionField.name

theorem mem_names_of_find {name : String} {received : Fields V}
    (h : (find name received).isSome = true) : name ∈ names received := by
  induction received with
  | nil => cases h
  | cons field nested fields _ ih =>
    simp only [find] at h
    simp only [names, Forest.tops_cons, List.filterMap_cons]
    cases hlater : find name fields with
    | some found =>
      have hmem : name ∈ names fields := ih (by rw [hlater]; rfl)
      cases field.bind ActionField.name with
      | none => exact hmem
      | some other => exact List.mem_cons_of_mem other hmem
    | none =>
      rw [hlater] at h
      cases field with
      | none => cases h
      | some field =>
        simp only [Option.bind_some] at h ⊢
        by_cases hname : field.name = some name
        · rw [hname]
          exact List.mem_cons_self
        · rw [if_neg hname] at h
          cases h

/-- There are finitely many elements if one is missing. -/
theorem lt_limit {field : FieldDef} {received : Fields V} {n i : Nat}
    (hmissing : find (elementName field.name n) received = none)
    (hi : HasElement field received i) : i < limit (HasElement field received) := by
  have hbound : ∃ m, ∀ i, HasElement field received i → i < m := by
    rcases elementName_inj field.name with hinj | hsame
    · have hfinite : (Set.preimage (elementName field.name) {name | name ∈ names received}).Finite :=
        (names received).finite_toSet.preimage hinj.injOn
      obtain ⟨m, hm⟩ := hfinite.bddAbove
      exact ⟨m + 1, fun i hi => Nat.lt_succ_of_le (hm (mem_names_of_find hi))⟩
    · refine ⟨0, fun i hi => ?_⟩
      rw [HasElement, hsame i n, hmissing] at hi
      cases hi
  rw [limit, dif_pos hbound]
  exact hbound.choose_spec i hi

theorem le_limit {field : FieldDef} {received : Fields V} {n : Nat}
    (hmissing : find (elementName field.name n) received = none) (hbefore : ∀ i < n, HasElement field received i) :
    n ≤ limit (HasElement field received) := by
  cases n with
  | zero => exact Nat.zero_le _
  | succ n => exact lt_limit hmissing (hbefore n (Nat.lt_succ_self n))

/-! ## One field -/

section Field

variable {formats : Formats V} {field : FieldDef} {hasChildren : Bool} {received : Fields V}
  {expectedChildren : String → Fields V → List Entry}

/-- What a field adds is no more than what it should. -/
theorem field_length {k : Nat} {actual path : String} {extractChildren : String → Fields V → Option Added}
    (hchildren : ∀ actual path nested t, extractChildren actual nested = some t →
      t.length ≤ (addedOf (expectedChildren path nested)).length) {t : Added}
    (h : extractField formats k actual field hasChildren extractChildren (fun name => find name received) =
      some t) :
    t.length ≤ (addedOf (expectedField formats path field expectedChildren received)).length := by
  unfold extractField at h
  unfold expectedField
  cases hkind : field.kind with
  | objectList =>
    simp only [hkind] at h ⊢
    cases hfound : find field.name received with
    | none =>
      simp only [hfound] at h
      split at h <;> cases h
      exact Nat.zero_le _
    | some found =>
      simp only [hfound] at h
      exact hchildren _ _ _ _ h
  | array =>
    simp only [hkind] at h ⊢
    obtain ⟨n, _, hmissing, hbefore, rfl⟩ := whilePresent_eq_some.mp h
    simp only [Nat.zero_add] at hmissing hbefore ⊢
    rw [addedOf_flatMap]
    refine length_flatMap_range_le (fun i hi => ?_) ?_
    · obtain ⟨found, u, hfound, hu⟩ := hbefore i hi
      rw [part_eq hfound hu, hfound]
      exact hchildren _ _ _ _ hu
    · refine le_limit hmissing fun i hi => ?_
      obtain ⟨found, _, hfound, _⟩ := hbefore i hi
      rw [HasElement, hfound]
      rfl
  | object =>
    simp only [hkind] at h ⊢
    cases hfound : find field.name received with
    | none =>
      simp only [hfound] at h
      split at h <;> cases h
      exact Nat.zero_le _
    | some found =>
      simp only [hfound] at h
      exact hchildren _ _ _ _ h
  | selection =>
    simp only [hkind] at h ⊢
    cases hfound : find field.name received with
    | none => simp [hfound] at h
    | some found =>
      simp only [hfound, Option.map_eq_some_iff] at h
      obtain ⟨values, hvalues, rfl⟩ := h
      simp [hvalues]
  | value =>
    simp only [hkind] at h ⊢
    cases hfound : find field.name received with
    | none => simp [hfound] at h
    | some found =>
      simp only [hfound, Option.map_eq_some_iff] at h
      obtain ⟨text, htext, rfl⟩ := h
      cases text <;> simp [htext]

/-- More iterations do not change a result. -/
theorem field_mono {k l : Nat} (hkl : k ≤ l) {actual : String}
    {extractChildren extractChildren' : String → Fields V → Option Added}
    (hchildren : ∀ actual nested t, extractChildren actual nested = some t →
      extractChildren' actual nested = some t)
    {actionFields : String → Option (ActionField V × Fields V)} {t : Added}
    (h : extractField formats k actual field hasChildren extractChildren actionFields = some t) :
    extractField formats l actual field hasChildren extractChildren' actionFields = some t := by
  unfold extractField at h ⊢
  cases hkind : field.kind with
  | objectList =>
    simp only [hkind] at h ⊢
    cases hfound : actionFields field.name with
    | none => simpa only [hfound] using h
    | some found =>
      simp only [hfound] at h ⊢
      exact hchildren _ _ _ h
  | array =>
    simp only [hkind] at h ⊢
    obtain ⟨n, hn, hmissing, hbefore, rfl⟩ := whilePresent_eq_some.mp h
    simp only [Nat.zero_add] at hmissing hbefore ⊢
    refine whilePresent_eq_some.mpr ⟨n, Nat.le_trans hn hkl, ?_, ?_, ?_⟩
    · rw [Nat.zero_add]
      exact hmissing
    · intro j hj
      obtain ⟨found, u, hfound, hu⟩ := hbefore j hj
      rw [Nat.zero_add]
      exact ⟨found, u, hfound, hchildren _ _ _ hu⟩
    · refine (flatMap_range_eq_iff (fun i hi => ?_) (Nat.le_refl n)).mpr
        ⟨fun i hi => ?_, fun i hle hlt => absurd hlt (Nat.not_lt.mpr hle)⟩
      all_goals
        obtain ⟨found, u, hfound, hu⟩ := hbefore i hi
        rw [Nat.zero_add, part_eq hfound hu, part_eq hfound (hchildren _ _ _ hu)]
  | object =>
    simp only [hkind] at h ⊢
    cases hfound : actionFields field.name with
    | none => simpa only [hfound] using h
    | some found =>
      simp only [hfound] at h ⊢
      exact hchildren _ _ _ h
  | selection => simpa only [hkind] using h
  | value => simpa only [hkind] using h

theorem append_point_eq {a b : String} : (a ++ "." = b ++ ".") = (a = b) := by
  rw [← String.toList_inj, ← String.toList_inj, String.toList_append, String.toList_append,
    List.append_cancel_right_eq]

theorem elementPath_eq {actual path name : String} :
    (actual ++ name ++ "." = path ++ name ++ ".") = (actual = path) := by
  rw [append_point_eq, ← String.toList_inj, String.toList_append, String.toList_append, List.append_cancel_right_eq,
    String.toList_inj]

section

variable {extractChildren : Nat → String → Fields V → Option Added}
  {RegularChildren : Prop → String → Fields V → Prop}
  (hlength : ∀ k actual path nested t, extractChildren k actual nested = some t →
    t.length ≤ (addedOf (expectedChildren path nested)).length)
  (hmono : ∀ k l actual nested t, k ≤ l → extractChildren k actual nested = some t →
    extractChildren l actual nested = some t)
  (hvalues : ∀ path nested, ∀ e ∈ expectedChildren path nested, e.2 ≠ [])
  (hchildren : ∀ actual path nested,
    (∃ k, extractChildren k actual nested = some (addedOf (expectedChildren path nested))) ↔
      RegularChildren (actual = path) path nested)
include hlength hmono hvalues hchildren

/-- The elements up to the first that is missing. -/
theorem array_iff {actual path : String} :
    (∃ k, whilePresent (fun i => find (elementName field.name i) received)
        (fun i found => extractChildren k (actual ++ elementName field.name i ++ ".") found.2) k 0 =
          some (addedOf ((List.range (limit (HasElement field received))).flatMap fun i =>
            ((find (elementName field.name i) received).map fun found =>
              expectedChildren (path ++ elementName field.name i ++ ".") found.2).getD []))) ↔
      ∃ n, find (elementName field.name n) received = none ∧
        (∀ i < n, ∃ found, find (elementName field.name i) received = some found ∧
          RegularChildren (actual = path) (path ++ elementName field.name i ++ ".") found.2) ∧
        ∀ i found, n < i → find (elementName field.name i) received = some found →
          expectedChildren (path ++ elementName field.name i ++ ".") found.2 = [] := by
  have hnested : ∀ i (found : ActionField V × Fields V),
      (∃ k, extractChildren k (actual ++ elementName field.name i ++ ".") found.2 =
        some (addedOf (expectedChildren (path ++ elementName field.name i ++ ".") found.2))) ↔
      RegularChildren (actual = path) (path ++ elementName field.name i ++ ".") found.2 := by
    intro i found
    rw [hchildren, elementPath_eq]
  rw [addedOf_flatMap]
  constructor
  · rintro ⟨k, h⟩
    obtain ⟨n, _, hmissing, hbefore, heq⟩ := whilePresent_eq_some.mp h
    simp only [Nat.zero_add] at hmissing hbefore heq
    have hle := le_limit hmissing fun i hi => by
      obtain ⟨found, _, hfound, _⟩ := hbefore i hi
      rw [HasElement, hfound]
      rfl
    obtain ⟨hsame, hbehind⟩ := (flatMap_range_eq_iff (fun i hi => by
      obtain ⟨found, u, hfound, hu⟩ := hbefore i hi
      rw [part_eq hfound hu, hfound]
      exact hlength _ _ _ _ _ hu) hle).mp heq.symm
    refine ⟨n, hmissing, fun i hi => ?_, fun i found hi hfound => ?_⟩
    · obtain ⟨found, u, hfound, hu⟩ := hbefore i hi
      refine ⟨found, hfound, (hnested i found).mp ⟨k, ?_⟩⟩
      have hi' := hsame i hi
      rw [part_eq hfound hu, hfound, Option.map_some, Option.getD_some] at hi'
      rw [hu, hi']
    · have hi' := hbehind i (Nat.le_of_lt hi) (lt_limit hmissing (by rw [HasElement, hfound]; rfl))
      rw [hfound, Option.map_some, Option.getD_some] at hi'
      exact (addedOf_eq_nil (hvalues _ _)).mp hi'
  · rintro ⟨n, hmissing, hbefore, hbehind⟩
    obtain ⟨k, hnk, hall⟩ := exists_enough (n := n)
      (P := fun i k => ∃ found, find (elementName field.name i) received = some found ∧
        extractChildren k (actual ++ elementName field.name i ++ ".") found.2 =
          some (addedOf (expectedChildren (path ++ elementName field.name i ++ ".") found.2)))
      (fun i k l h hkl => by
        obtain ⟨found, hfound, hu⟩ := h
        exact ⟨found, hfound, hmono _ _ _ _ _ hkl hu⟩)
      (fun i hi => by
        obtain ⟨found, hfound, hregular⟩ := hbefore i hi
        obtain ⟨k, hk⟩ := (hnested i found).mpr hregular
        exact ⟨k, found, hfound, hk⟩)
    refine ⟨k, whilePresent_eq_some.mpr ⟨n, hnk, by rw [Nat.zero_add]; exact hmissing, ?_, ?_⟩⟩
    · intro i hi
      obtain ⟨found, hfound, hu⟩ := hall i hi
      rw [Nat.zero_add]
      exact ⟨found, _, hfound, hu⟩
    · have hle := le_limit hmissing fun i hi => by
        obtain ⟨found, hfound, _⟩ := hall i hi
        rw [HasElement, hfound]
        rfl
      have hpart : ∀ i < n, part (fun i => find (elementName field.name i) received)
          (fun i found => extractChildren k (actual ++ elementName field.name i ++ ".") found.2) (0 + i) =
          addedOf (((find (elementName field.name i) received).map fun found =>
            expectedChildren (path ++ elementName field.name i ++ ".") found.2).getD []) := by
        intro i hi
        obtain ⟨found, hfound, hu⟩ := hall i hi
        rw [Nat.zero_add, part_eq hfound hu, hfound, Option.map_some, Option.getD_some]
      refine ((flatMap_range_eq_iff (fun i hi => ?_) hle).mpr ⟨hpart, fun i hni _ => ?_⟩).symm
      · rw [hpart i hi]
      · cases hfound : find (elementName field.name i) received with
        | none => rfl
        | some found =>
          have hne : n ≠ i := fun heq => by
            rw [heq, hfound] at hmissing
            cases hmissing
          rw [Option.map_some, Option.getD_some, hbehind i found (by omega) hfound]
          rfl

theorem field_iff {actual path : String} :
    (∃ k, extractField formats k actual field hasChildren (extractChildren k)
        (fun name => find name received) =
          some (addedOf (expectedField formats path field expectedChildren received))) ↔
      RegularField formats (actual = path) path field hasChildren RegularChildren expectedChildren
        received := by
  unfold extractField expectedField RegularField
  cases hkind : field.kind with
  | objectList =>
    dsimp only
    cases hfound : find field.name received with
    | none => cases hasChildren <;> simp
    | some found => exact hchildren actual path found.2
  | array => exact array_iff hlength hmono hvalues hchildren
  | object =>
    dsimp only
    cases hfound : find field.name received with
    | none => cases hasChildren <;> simp
    | some found =>
      have hnested := hchildren (field.binding ++ ".") (path ++ field.name ++ ".") found.2
      rw [append_point_eq] at hnested
      exact hnested
  | selection =>
    dsimp only
    cases hfound : find field.name received with
    | none => simp
    | some found =>
      cases hvalues' : extractSelectionValue found.1 with
      | none => simp [hvalues']
      | some values =>
        cases values with
        | nil => simp [hvalues']
        | cons value values => simpa [hvalues'] using fun heq _ _ => heq
  | value =>
    dsimp only
    cases hfound : find field.name received with
    | none => simp
    | some found =>
      cases htext : getStringValue formats found.1 with
      | none => simp [htext]
      | some text =>
        cases text with
        | none => simp [htext]
        | some text => simp [htext]

end

end Field

/-! ## All fields -/

theorem getActionFieldMap_eq_some {received : Fields V}
    {actionFields : String → Option (ActionField V × Fields V)} :
    getActionFieldMap received = some actionFields ↔
      NoNulls received ∧ actionFields = fun name => find name received := by
  unfold getActionFieldMap NoNulls
  split
  · rename_i hnulls
    rw [Option.some.injEq, eq_comm]
    exact ⟨fun heq => ⟨hnulls, heq⟩, And.right⟩
  · rename_i hnulls
    exact ⟨nofun, fun h => absurd h.1 hnulls⟩

/-- What is done for a field, readonly or not. -/
theorem extract_cons_eq_some {formats : Formats V} {k : Nat} {actual : String} {field : FieldDef}
    {children fields : Forest FieldDef} {received : Fields V} {t : Added} :
    extractRequestParameter formats k actual (.cons field children fields) received = some t ↔
      NoNulls received ∧ ∃ u v, (if field.isActive then
          extractField formats k actual field (children ≠ .nil)
            (fun actual nested => extractRequestParameter formats k actual children nested)
            (fun name => find name received)
        else some []) = some u ∧
        extractRequestParameter formats k actual fields received = some v ∧ t = u ++ v := by
  rw [extractRequestParameter]
  cases hmap : getActionFieldMap received with
  | none =>
    have hnulls : ¬ NoNulls received := fun h => by
      rw [getActionFieldMap_eq_some.mpr ⟨h, rfl⟩] at hmap
      cases hmap
    simp [hnulls]
  | some actionFields =>
    obtain ⟨hnulls, rfl⟩ := getActionFieldMap_eq_some.mp hmap
    simp only [andThen_eq_some, hnulls, true_and]

variable {formats : Formats V} {defs : Forest FieldDef} {received : Fields V}

theorem extract_length {k : Nat} {actual path : String} {t : Added}
    (h : extractRequestParameter formats k actual defs received = some t) :
    t.length ≤ (addedOf (expected formats path defs received)).length := by
  induction defs generalizing actual path received t with
  | nil =>
    cases h
    exact Nat.zero_le _
  | cons field children fields ihChildren ihFields =>
    obtain ⟨_, u, v, hu, hv, rfl⟩ := extract_cons_eq_some.mp h
    have hfields : v.length ≤ (addedOf (expected formats path fields received)).length := ihFields hv
    rw [expected, addedOf_append, List.length_append, List.length_append]
    refine Nat.add_le_add ?_ hfields
    split at hu
    · rename_i hactive
      rw [if_pos hactive]
      have hbelow : ∀ actual path nested t,
          extractRequestParameter formats k actual children nested = some t →
            t.length ≤ (addedOf (expected formats path children nested)).length :=
        fun _ _ _ _ h => ihChildren h
      exact field_length hbelow hu
    · cases hu
      exact Nat.zero_le _

theorem extract_mono {k l : Nat} (hkl : k ≤ l) {actual : String} {t : Added}
    (h : extractRequestParameter formats k actual defs received = some t) :
    extractRequestParameter formats l actual defs received = some t := by
  induction defs generalizing actual received t with
  | nil => exact h
  | cons field children fields ihChildren ihFields =>
    obtain ⟨hnulls, u, v, hu, hv, rfl⟩ := extract_cons_eq_some.mp h
    refine extract_cons_eq_some.mpr ⟨hnulls, u, v, ?_, ihFields hv, rfl⟩
    split at hu
    · rename_i hactive
      rw [if_pos hactive]
      exact field_mono hkl (fun _ _ _ h => ihChildren h) hu
    · rename_i hactive
      rw [if_neg hactive]
      exact hu

/-- All fields add what they should if and only if each of them is regular. -/
theorem extract_iff {actual path : String} :
    (∃ k, extractRequestParameter formats k actual defs received =
      some (addedOf (expected formats path defs received))) ↔
      Regular formats (actual = path) path defs received := by
  induction defs generalizing actual path received with
  | nil => simp [extractRequestParameter, expected, Regular]
  | cons field children fields ihChildren ihFields =>
    have hlength : ∀ k actual path nested t,
        extractRequestParameter formats k actual children nested = some t →
          t.length ≤ (addedOf (expected formats path children nested)).length :=
      fun _ _ _ _ _ h => extract_length h
    have hmono : ∀ k l actual nested t, k ≤ l →
        extractRequestParameter formats k actual children nested = some t →
          extractRequestParameter formats l actual children nested = some t :=
      fun _ _ _ _ _ hkl h => extract_mono hkl h
    have hvalues : ∀ path nested, ∀ e ∈ expected formats path children nested, e.2 ≠ [] :=
      fun _ _ => expected_values
    have hchildren : ∀ actual path nested, (∃ k, extractRequestParameter formats k actual children nested =
        some (addedOf (expected formats path children nested))) ↔
          (fun rooted path nested => Regular formats rooted path children nested)
            (actual = path) path nested :=
      fun _ _ _ => ihChildren
    have hfield : (∃ k, extractField formats k actual field (children ≠ .nil)
        (fun actual nested => extractRequestParameter formats k actual children nested)
        (fun name => find name received) = some (addedOf (expectedField formats path field
          (fun path nested => expected formats path children nested) received))) ↔
        RegularField formats (actual = path) path field (children ≠ .nil)
          (fun rooted path nested => Regular formats rooted path children nested)
          (fun path nested => expected formats path children nested) received :=
      field_iff hlength hmono hvalues hchildren
    rw [Regular, expected, addedOf_append, ← ihFields]
    constructor
    · rintro ⟨k, h⟩
      obtain ⟨hnulls, u, v, hu, hv, heq⟩ := extract_cons_eq_some.mp h
      have hlater : v.length ≤ (addedOf (expected formats path fields received)).length :=
        extract_length hv
      cases hactive : field.isActive with
      | true =>
        simp only [hactive, if_true] at hu heq
        have hhere : u.length ≤ (addedOf (expectedField formats path field
            (fun path nested => expected formats path children nested) received)).length :=
          field_length (hlength k) hu
        obtain ⟨rfl, rfl⟩ := (append_eq_iff hhere hlater).mp heq.symm
        exact ⟨hnulls, fun _ => hfield.mp ⟨k, hu⟩, k, hv⟩
      | false =>
        simp only [hactive, Bool.false_eq_true, if_false, Option.some.injEq] at hu heq
        subst hu
        rw [addedOf_nil, List.nil_append, List.nil_append] at heq
        rw [← heq] at hv
        exact ⟨hnulls, fun h => (by cases h), k, hv⟩
    · rintro ⟨hnulls, hregular, l, hv⟩
      cases hactive : field.isActive with
      | true =>
        obtain ⟨k, hu⟩ := hfield.mpr (hregular hactive)
        refine ⟨k + l, extract_cons_eq_some.mpr ⟨hnulls, _, _, ?_,
          extract_mono (Nat.le_add_left l k) hv, rfl⟩⟩
        simp only [hactive, if_true]
        exact field_mono (Nat.le_add_right k l)
          (fun _ _ _ h => extract_mono (Nat.le_add_right k l) h) hu
      | false =>
        refine ⟨l, extract_cons_eq_some.mpr ⟨hnulls, [], _, ?_, hv, ?_⟩⟩
        · simp [hactive]
        · simp

/-! ## The request -/

/-- For the parameters that are defined: the first that was received with the name. -/
def expectedParams (parameters : Option (List (Option Parameter))) (params : List String) : List Entry :=
  params.flatMap fun name => entry name
    ((((parameters.bind (findParameter name)).bind id).bind Parameter.value).toList.map some)

noncomputable def expectedEntries (formats : Formats V) (original : ActionDef)
    (receivedData : ReceivedAction V) : List Entry :=
  expectedParams receivedData.parameters (original.params.getD []) ++
    (original.metaData.map fun fields => expected formats "" fields receivedData.fields).getD []

/-- The values of each entry are added under its name, and no name is used by two of them. -/
structure Extracted (entries : List Entry) (added : Added) : Prop where
  lists : added = addedOf entries
  once : (entries.map Prod.fst).Nodup

/-- A request has a list of values for each name, which new values are appended to. -/
def parameterList (added : Added) (name : String) : List (Option String) :=
  (added.filter fun p => p.1 = name).map Prod.snd

theorem parameterList_append (added added' : Added) (name : String) :
    parameterList (added ++ added') name = parameterList added name ++ parameterList added' name := by
  simp [parameterList]

theorem parameterList_other {entries : List Entry} {name : String}
    (h : name ∉ entries.map Prod.fst) : parameterList (addedOf entries) name = [] := by
  simp only [parameterList, List.map_eq_nil_iff, List.filter_eq_nil_iff, addedOf, List.mem_flatMap]
  rintro p ⟨e, he, hp⟩ hname
  obtain ⟨value, _, rfl⟩ := List.mem_map.mp hp
  exact h (List.mem_map.mpr ⟨e, he, of_decide_eq_true hname⟩)

/-- Then the parameters of an entry are its values. -/
theorem parameterList_extracted {entries : List Entry} {added : Added} (h : Extracted entries added)
    {e : Entry} (he : e ∈ entries) : parameterList added e.1 = e.2 := by
  obtain ⟨rfl, honce⟩ := h
  induction entries with
  | nil => cases he
  | cons first entries ih =>
    rw [List.map_cons, List.nodup_cons] at honce
    have hfirst : addedOf (first :: entries) =
        (first.2.map fun value => (first.1, value)) ++ addedOf entries := rfl
    rw [hfirst, parameterList_append]
    rcases List.mem_cons.mp he with rfl | he
    · rw [parameterList_other honce.1, List.append_nil]
      simp [parameterList, List.filter_map, Function.comp_def]
    · have hne : first.1 ≠ e.1 := fun heq => honce.1 (heq ▸ List.mem_map_of_mem he)
      rw [ih he honce.2]
      simp [parameterList, List.filter_map, Function.comp_def, hne]

/-- The list of parameters has no nulls up to those that are defined, none of the lists of fields that are
looked into has one, all fields are regular, and no two parameters and fields with a value have one path. -/
structure RegularAction (formats : Formats V) (original : ActionDef) (receivedData : ReceivedAction V) :
    Prop where
  parameters : ∀ name ∈ original.params.getD [],
    (receivedData.parameters.bind (findParameter name)).isSome = true
  fields : NoNulls receivedData.fields ∧
    ∃ fields, original.metaData = some fields ∧ Regular formats True "" fields receivedData.fields
  distinct : ((expectedEntries formats original receivedData).map Prod.fst).Nodup

theorem extractParams_eq_some {parameters : Option (List (Option Parameter))} {params : List String}
    {added : Added} : extractParams parameters params = some added ↔
      (∀ name ∈ params, (parameters.bind (findParameter name)).isSome = true) ∧
        added = addedOf (expectedParams parameters params) := by
  induction params generalizing added with
  | nil =>
    simp only [extractParams, Option.some.injEq, List.not_mem_nil, false_implies, implies_true, true_and]
    exact eq_comm
  | cons name params ih =>
    have hcons : expectedParams parameters (name :: params) = entry name
        ((((parameters.bind (findParameter name)).bind id).bind Parameter.value).toList.map some) ++
          expectedParams parameters params := rfl
    rw [extractParams, hcons, addedOf_append, addedOf_entry, List.forall_mem_cons]
    cases parameters.bind (findParameter name) with
    | none => simp
    | some parameter =>
      simp only [andThen_eq_some, ih, Option.some.injEq, Option.isSome_some, true_and, Option.bind_some,
        id_eq, List.map_map, Function.comp_def]
      constructor
      · rintro ⟨_, _, rfl, ⟨hparams, rfl⟩, rfl⟩
        exact ⟨hparams, rfl⟩
      · rintro ⟨hparams, rfl⟩
        exact ⟨_, _, rfl, ⟨hparams, rfl⟩, rfl⟩

/-- Each writable field that was received gets its parameters, under its path, and nothing is thrown, if and
only if the action is regular. -/
theorem parameters_extracted_iff (formats : Formats V) (original : ActionDef)
    (receivedData : ReceivedAction V) :
    (∃ iterations added,
      extractRequestParameters formats iterations original receivedData = some added ∧
        Extracted (expectedEntries formats original receivedData) added) ↔
      RegularAction formats original receivedData := by
  have htrue : (("" : String) = "") = True := eq_self _
  constructor
  · rintro ⟨k, added, h, hadded⟩
    rw [extractRequestParameters, andThen_eq_some] at h
    obtain ⟨u, v, hu, hv, rfl⟩ := h
    obtain ⟨hparams, rfl⟩ := extractParams_eq_some.mp hu
    have hlists := hadded.lists
    split at hv
    · rename_i fields actionFields hmeta hmap
      rw [expectedEntries, addedOf_append, List.append_cancel_left_eq, hmeta, Option.map_some,
        Option.getD_some] at hlists
      have hregular := extract_iff.mp ⟨k, hlists ▸ hv⟩
      rw [htrue] at hregular
      exact ⟨hparams, ⟨(getActionFieldMap_eq_some.mp hmap).1, fields, hmeta, hregular⟩, hadded.once⟩
    · cases hv
  · rintro ⟨hparams, ⟨hnulls, fields, hmeta, hregular⟩, hdistinct⟩
    rw [← htrue] at hregular
    obtain ⟨k, hk⟩ := extract_iff.mpr hregular
    refine ⟨k, _, ?_, rfl, hdistinct⟩
    rw [extractRequestParameters, andThen_eq_some, hmeta, getActionFieldMap_eq_some.mpr ⟨hnulls, rfl⟩]
    refine ⟨_, _, extractParams_eq_some.mpr ⟨hparams, rfl⟩, hk, ?_⟩
    rw [expectedEntries, addedOf_append, hmeta, Option.map_some, Option.getD_some]

/-! ## A form with a name -/

def nameForm : ActionDef where
  params := none
  metaData := some (.cons ⟨"name", "name", .text, none, none⟩ .nil .nil)

/-- Nothing but an empty list of fields. -/
def emptyAction : ReceivedAction Bool where
  parameters := none
  fields := .nil

def booleanFormats : Formats Bool where
  toString value := if value then "true" else "false"
  format _ _ := none

theorem missing_field_throws :
    ¬ ∃ iterations added,
      extractRequestParameters booleanFormats iterations nameForm emptyAction = some added ∧
        Extracted (expectedEntries booleanFormats nameForm emptyAction) added := by
  rintro ⟨k, added, h, _⟩
  have hnone : extractRequestParameters booleanFormats k nameForm emptyAction = none := rfl
  rw [hnone] at h
  cases h

end ReceivedFields
end Rest
end AppNG
