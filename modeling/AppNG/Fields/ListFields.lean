import AppNG.Config.Datasource
import AppNG.Lib.Forest
import AppNG.Lib.Indexed
import AppNG.Lib.JavaInt
import Mathlib.Data.List.Nodup

/-!
# Fields.ListFields

`ListFieldConverter.setObject` for a list of objects: the fields that it nests into the field of the list
for the indexes in the parameters' names, and what reading these makes of the list.

* `addNestedFields_element`: for an index, one field is added, with what is below the first definition.
* `addIndexed_eq`: what the loop over the indexes leaves, and `addIndexed_maxInt`: that it does not end
  where the counter cannot exceed the index.
* `list_filled_iff`: when the nested fields and the list are those of the indexes that were sent.
* `index_too_large`: an index with ten nines is no number.
-/

namespace AppNG
namespace Fields
namespace ListFields

open Config (FieldType)
open Indexed (indexed)

/-! ## The code -/

structure FieldDef where
  name : String
  binding : String
  type : FieldType
  readonly : Option String
  hidden : Option String
  format : Option String
  displayLength : Option Int
  /-- Of the condition. -/
  expression : Option String
  label : Option Config.Label
  deriving DecidableEq, Repr

def copyField (fieldDef : FieldDef) (name binding : String) : FieldDef :=
  { fieldDef with name := name, binding := binding }

@[simp] theorem copyField_binding (fieldDef : FieldDef) (name binding : String) :
    (copyField fieldDef name binding).binding = binding := rfl

@[simp] theorem copyField_type (fieldDef : FieldDef) (name binding : String) :
    (copyField fieldDef name binding).type = fieldDef.type := rfl

def NOT_INDEXED : Int := -1

/-- The children that there are, and those for the definitions. -/
def addNestedFields (parent : FieldDef) (index : Int) : Forest FieldDef → Forest FieldDef → Forest FieldDef
  | .nil, children => children
  | .cons fieldDef fields childDefinitions, children =>
    let isIndexed := decide (NOT_INDEXED < index)
    let binding := if isIndexed then indexed parent.binding index.toNat
      else parent.binding ++ "." ++ fieldDef.name
    let name := if isIndexed then indexed parent.name index.toNat else fieldDef.name
    let child := copyField fieldDef name binding
    let nested := addNestedFields child NOT_INDEXED fields .nil
    let anyChild := children.tops.any fun b => b.binding == binding
    let addField := !(anyChild && child.type == .object)
    addNestedFields parent index childDefinitions
      (if addField then children.append (.cons child nested .nil) else children)

def isLineTerminator (c : Char) : Bool :=
  c == '\n' || c == '\r' || c == '\u0085' || c == '\u2028' || c == '\u2029'

/-- The group of the pattern `^\Qbinding\E\[(\d+)\]\..+$`. -/
def group (binding paramName : String) : Option (List Char) :=
  match Indexed.readIndex binding paramName.toList with
  | some (digits, '.' :: c :: rest) =>
    if (c :: rest).any isLineTerminator then none else some digits
  | _ => none

/-- None: a `NumberFormatException`. -/
def parseInt (digits : List Char) : Option Int :=
  if (Indexed.value digits : Int) ≤ Java.maxInt then some (Indexed.value digits) else none

def getMaxIndex (binding : String) : List String → Int → Option Int
  | [], maxIndex => some maxIndex
  | paramName :: paramNames, maxIndex =>
    match group binding paramName with
    | none => getMaxIndex binding paramNames maxIndex
    | some digits =>
      match parseInt digits with
      | none => none
      | some index => getMaxIndex binding paramNames (max maxIndex index)

/-- The loop from an index on, for a number of iterations at most. -/
def addIndexed (field : FieldDef) (innerFields : Forest FieldDef) (maxIndex : Int) :
    Nat → Int → Forest FieldDef → Option (Forest FieldDef)
  | 0, i, fields => if i ≤ maxIndex then none else some fields
  | iterations + 1, i, fields =>
    if i ≤ maxIndex then
      addIndexed field innerFields maxIndex iterations (Java.wrap (i + 1))
        (addNestedFields field i innerFields fields)
    else some fields

/-- With `autoGrowNestedPaths`. -/
structure BeanWrapper where
  isReadableProperty : String → Bool
  /-- The size of the list at a binding after another binding was read, from that before. -/
  sizeAfter : String → String → Nat → Nat
  /-- An element beyond the end is appended, with those in front of it. -/
  grows : ∀ binding i size, sizeAfter binding (indexed binding i) size = max size (i + 1)

/-- A list of objects: its first definition with the ones below it, and the other definitions. -/
structure ListField (wrapper : BeanWrapper) where
  def_ : FieldDef
  type : def_.type = .listObject
  readable : wrapper.isReadableProperty def_.binding = true
  first : FieldDef
  nested : Forest FieldDef
  others : Forest FieldDef
  objects : first.type = .object ∧ ∀ d ∈ others.tops, d.type = .object

structure Result where
  fields : Forest FieldDef
  /-- Of the list. -/
  size : Nat

variable {wrapper : BeanWrapper}

namespace ListField

def binding (field : ListField wrapper) : String := field.def_.binding

def innerFields (field : ListField wrapper) : Forest FieldDef :=
  .cons field.first field.nested field.others

end ListField

/-- `FieldConversionFactory.setObject` goes on with the nested fields, whose objects are read. -/
def getObjects (wrapper : BeanWrapper) (binding : String) (fields : List FieldDef) (size : Nat) : Nat :=
  fields.foldl (fun size child => wrapper.sizeAfter binding child.binding size) size

/-- None: it throws, or needs more iterations. -/
def setObject (field : ListField wrapper) (paramNames : List String) (size iterations : Nat) :
    Option Result :=
  if wrapper.isReadableProperty field.binding then
    match getMaxIndex field.binding paramNames 0 with
    | none => none
    | some maxIndex =>
      (addIndexed field.def_ field.innerFields maxIndex iterations 0 .nil).map fun fields =>
        ⟨fields, getObjects wrapper field.binding fields.tops size⟩
  else some ⟨field.innerFields, size⟩

/-! ## The nested fields -/

/-- Copies of fields, below a binding. -/
def nestedFields (binding : String) : Forest FieldDef → Forest FieldDef
  | .nil => .nil
  | .cons fieldDef fields beside =>
    .cons (copyField fieldDef fieldDef.name (binding ++ "." ++ fieldDef.name))
      (nestedFields (binding ++ "." ++ fieldDef.name) fields) (nestedFields binding beside)

/-- Of two fields with one name in the same place, the second one is dropped where it is an object. -/
def withoutRepeated (names : List String) : Forest FieldDef → Forest FieldDef
  | .nil => .nil
  | .cons fieldDef fields beside =>
    if fieldDef.name ∈ names ∧ fieldDef.type = .object then withoutRepeated names beside
    else .cons fieldDef (withoutRepeated [] fields) (withoutRepeated (fieldDef.name :: names) beside)

/-- The names on the way to each field. -/
def paths : Forest FieldDef → List String
  | .nil => []
  | .cons fieldDef fields beside =>
    fieldDef.name :: ((paths fields).map fun path => fieldDef.name ++ "." ++ path) ++ paths beside

theorem bindings_nestedFields (binding : String) (fields : Forest FieldDef) :
    (nestedFields binding fields).nodes.map FieldDef.binding =
      (paths fields).map fun path => binding ++ "." ++ path := by
  induction fields generalizing binding with
  | nil => rfl
  | cons fieldDef below beside ihBelow ihBeside =>
    simp only [nestedFields, Forest.nodes_cons, List.map_cons, List.map_append, ihBelow, ihBeside,
      paths, List.cons_append, List.map_map, copyField, Function.comp_def, String.append_assoc]

theorem path_inj (binding : String) : Function.Injective fun path => binding ++ "." ++ path := by
  intro path path' h
  have hchars := congrArg String.toList h
  simp only [String.toList_append, List.append_assoc, List.append_cancel_left_eq] at hchars
  exact String.toList_inj.mp hchars

theorem addNestedFields_nested {parent : FieldDef} {defs children : Forest FieldDef} {names : List String}
    (hnames : ∀ name, parent.binding ++ "." ++ name ∈ children.tops.map FieldDef.binding ↔
      name ∈ names) :
    addNestedFields parent NOT_INDEXED defs children =
      children.append (nestedFields parent.binding (withoutRepeated names defs)) := by
  induction defs generalizing parent children names with
  | nil => simp [addNestedFields, withoutRepeated, nestedFields]
  | cons fieldDef fields beside ihFields ihBeside =>
    have hindexed : decide (NOT_INDEXED < NOT_INDEXED) = false := rfl
    have hbelow := @ihFields (copyField fieldDef fieldDef.name (parent.binding ++ "." ++ fieldDef.name))
      .nil [] (by simp)
    have hany : (children.tops.any fun b => b.binding == parent.binding ++ "." ++ fieldDef.name) =
        decide (fieldDef.name ∈ names) := by
      rw [Bool.eq_iff_iff, decide_eq_true_iff, ← hnames, List.any_eq_true, List.mem_map]
      simp
    simp only [addNestedFields, hindexed, Bool.false_eq_true, if_false, hbelow, hany,
      Forest.nil_append]
    by_cases hdropped : fieldDef.name ∈ names ∧ fieldDef.type = .object
    · have hadd : (!(decide (fieldDef.name ∈ names) && fieldDef.type == .object)) = false := by
        simp [hdropped]
      simp only [copyField_type, hadd, Bool.false_eq_true, if_false]
      rw [ihBeside hnames, withoutRepeated, if_pos hdropped]
    · have hadd : (!(decide (fieldDef.name ∈ names) && fieldDef.type == .object)) = true := by
        simpa [Decidable.not_and_iff_or_not] using not_and_or.mp hdropped
      have hlater : ∀ name, parent.binding ++ "." ++ name ∈ (children.append (.cons
          (copyField fieldDef fieldDef.name (parent.binding ++ "." ++ fieldDef.name))
          (nestedFields (parent.binding ++ "." ++ fieldDef.name) (withoutRepeated [] fields))
          .nil)).tops.map FieldDef.binding ↔ name ∈ fieldDef.name :: names := by
        intro name
        rw [Forest.tops_append, List.map_append, List.mem_append, hnames, List.mem_cons]
        simp only [Forest.tops_cons, Forest.tops_nil, List.map_cons, List.map_nil, copyField_binding,
          List.mem_singleton, (path_inj parent.binding).eq_iff]
        exact or_comm
      simp only [copyField_binding, copyField_type, hadd, if_true]
      rw [ihBeside hlater, withoutRepeated, if_neg hdropped]
      simp [nestedFields, Forest.append]

/-! ## An index -/

/-- The field of an index, with those below it. -/
def element (field : ListField wrapper) (i : Nat) : Forest FieldDef :=
  .cons (copyField field.first (indexed field.def_.name i) (indexed field.binding i))
    (nestedFields (indexed field.binding i) (withoutRepeated [] field.nested)) .nil

def elements (field : ListField wrapper) : Nat → Forest FieldDef
  | 0 => .nil
  | n + 1 => (elements field n).append (element field n)

theorem mem_elements (field : ListField wrapper) {n : Nat} {b : String} :
    b ∈ (elements field n).tops.map FieldDef.binding ↔ ∃ i < n, b = indexed field.binding i := by
  induction n with
  | zero => simp [elements]
  | succ n ih =>
    rw [elements, Forest.tops_append, List.map_append, List.mem_append, ih]
    simp only [element, Forest.tops_cons, Forest.tops_nil, List.map_cons, List.map_nil,
      List.mem_singleton, copyField_binding]
    constructor
    · rintro (⟨i, hi, hb⟩ | hb)
      · exact ⟨i, Nat.lt_succ_of_lt hi, hb⟩
      · exact ⟨n, Nat.lt_succ_self n, hb⟩
    · rintro ⟨i, hi, hb⟩
      rcases Nat.lt_succ_iff_lt_or_eq.mp hi with hi | rfl
      · exact .inl ⟨i, hi, hb⟩
      · exact .inr hb

theorem indexed_of_nat (i : Nat) : NOT_INDEXED < (i : Int) := by
  unfold NOT_INDEXED
  omega

/-- An object is not added to one with the same binding. -/
theorem addNestedFields_present {parent : FieldDef} {i : Nat} {defs children : Forest FieldDef}
    (hobjects : ∀ d ∈ defs.tops, d.type = .object)
    (hpresent : indexed parent.binding i ∈ children.tops.map FieldDef.binding) :
    addNestedFields parent i defs children = children := by
  have hindexed : decide (NOT_INDEXED < (i : Int)) = true := decide_eq_true (indexed_of_nat i)
  have hany : (children.tops.any fun b => b.binding == indexed parent.binding i) = true := by
    rw [List.any_eq_true]
    obtain ⟨b, hb, heq⟩ := List.mem_map.mp hpresent
    exact ⟨b, hb, beq_iff_eq.mpr heq⟩
  induction defs with
  | nil => rfl
  | cons fieldDef fields beside _ ih =>
    rw [Forest.tops_cons, List.forall_mem_cons] at hobjects
    rw [addNestedFields]
    simp only [hindexed, if_true, Int.toNat_natCast, hany, copyField_type, hobjects.1]
    exact ih hobjects.2

theorem addNestedFields_element (field : ListField wrapper) (n : Nat) :
    addNestedFields field.def_ n field.innerFields (elements field n) = elements field (n + 1) := by
  have hindexed : decide (NOT_INDEXED < (n : Int)) = true := decide_eq_true (indexed_of_nat n)
  have hany : ((elements field n).tops.any fun b => b.binding == indexed field.def_.binding n) =
      false := by
    rw [List.any_eq_false]
    intro b hb heq
    obtain ⟨i, hi, hbi⟩ := (mem_elements field).mp (List.mem_map_of_mem hb)
    have hsame : indexed field.binding n = indexed field.binding i := by
      rw [← hbi]
      exact (beq_iff_eq.mp heq).symm
    exact absurd (Indexed.indexed_inj hsame) (Nat.ne_of_gt hi)
  have hbelow : ∀ parent : FieldDef, addNestedFields parent NOT_INDEXED field.nested .nil =
      nestedFields parent.binding (withoutRepeated [] field.nested) := by
    intro parent
    have hnone : ∀ name, parent.binding ++ "." ++ name ∈
        (Forest.nil : Forest FieldDef).tops.map FieldDef.binding ↔ name ∈ ([] : List String) := by
      simp
    rw [addNestedFields_nested hnone, Forest.nil_append]
  rw [ListField.innerFields, addNestedFields]
  simp only [hindexed, if_true, Int.toNat_natCast, hany, hbelow, Bool.false_and, Bool.not_false]
  rw [elements]
  exact addNestedFields_present field.objects.2 (by simp [copyField])

/-! ## The loops -/

/-- The counter comes to the index behind the greatest one, where it is left. -/
theorem addIndexed_eq (field : ListField wrapper) {m : Nat} (hm : (m : Int) < Java.maxInt)
    {k i : Nat} (hi : i ≤ m + 1) :
    addIndexed field.def_ field.innerFields m k i (elements field i) =
      if m + 1 ≤ i + k then some (elements field (m + 1)) else none := by
  induction k generalizing i with
  | zero =>
    rw [addIndexed]
    by_cases him : i ≤ m
    · rw [if_pos (by omega), if_neg (by omega)]
    · have hlast : i = m + 1 := by omega
      rw [if_neg (by omega), if_pos (by omega), hlast]
  | succ k ih =>
    rw [addIndexed]
    by_cases him : i ≤ m
    · have hwrap : Java.wrap ((i : Int) + 1) = ((i + 1 : Nat) : Int) :=
        (Java.wrap_of_range (by omega) (by omega)).trans (Int.natCast_succ i).symm
      rw [if_pos (by omega), hwrap, addNestedFields_element, ih (by omega), Nat.add_assoc,
        Nat.add_comm 1 k]
    · have hlast : i = m + 1 := by omega
      rw [if_neg (by omega), if_pos (by omega), hlast]

theorem addIndexed_zero (field : ListField wrapper) {m : Nat} (hm : (m : Int) < Java.maxInt)
    (iterations : Nat) : addIndexed field.def_ field.innerFields m iterations 0 .nil =
      if m + 1 ≤ iterations then some (elements field (m + 1)) else none := by
  have hloop := addIndexed_eq field hm (Nat.zero_le (m + 1)) (k := iterations)
  rw [Nat.zero_add] at hloop
  exact hloop

theorem addIndexed_maxInt (field : FieldDef) (innerFields : Forest FieldDef) {iterations : Nat} {i : Int}
    (hi : i ≤ Java.maxInt) (fields : Forest FieldDef) :
    addIndexed field innerFields Java.maxInt iterations i fields = none := by
  induction iterations generalizing i fields with
  | zero => rw [addIndexed, if_pos hi]
  | succ iterations ih =>
    rw [addIndexed, if_pos hi]
    refine ih ?_ _
    unfold Java.wrap Java.maxInt
    omega

theorem getObjects_elements (field : ListField wrapper) (n size : Nat) :
    getObjects wrapper field.binding (elements field n).tops size = max size n := by
  induction n with
  | zero => simp [elements, getObjects]
  | succ n ih =>
    rw [getObjects] at ih ⊢
    rw [elements, Forest.tops_append, List.foldl_append, ih]
    simp only [element, Forest.tops_cons, Forest.tops_nil, List.foldl_cons, List.foldl_nil, copyField_binding,
      wrapper.grows]
    omega

theorem parseInt_eq_some {digits : List Char} {index : Int} : parseInt digits = some index ↔
    (Indexed.value digits : Int) ≤ Java.maxInt ∧ (Indexed.value digits : Int) = index := by
  simp [parseInt]

/-- An index that one of the names has for the pattern. -/
def Matched (binding : String) (paramNames : List String) (index : Nat) : Prop :=
  ∃ name ∈ paramNames, ∃ digits, group binding name = some digits ∧ Indexed.value digits = index

theorem matched_cons {binding name : String} {names : List String} {index : Nat} :
    Matched binding (name :: names) index ↔
      (∃ digits, group binding name = some digits ∧ Indexed.value digits = index) ∨
        Matched binding names index := by
  simp only [Matched, List.exists_mem_cons_iff]

/-- The greatest index is at least the first one, and is one of a name otherwise. -/
theorem getMaxIndex_eq_some {binding : String} {names : List String} {first : Int} {m : Int}
    (hfirst : first ≤ Java.maxInt) :
    getMaxIndex binding names first = some m ↔
      (m = first ∨ ∃ index : Nat, Matched binding names index ∧ m = index) ∧ first ≤ m ∧
        m ≤ Java.maxInt ∧ ∀ index, Matched binding names index → (index : Int) ≤ m := by
  induction names generalizing first with
  | nil =>
    simp only [getMaxIndex, Option.some.injEq, Matched, List.not_mem_nil, false_and, exists_false,
      or_false, false_implies, forall_const, and_true]
    constructor
    · rintro rfl
      exact ⟨rfl, Int.le_refl _, hfirst⟩
    · rintro ⟨rfl, _⟩
      rfl
  | cons name names ih =>
    simp only [getMaxIndex, matched_cons]
    cases hgroup : group binding name with
    | none => simpa [hgroup] using ih hfirst
    | some digits =>
      simp only [Option.some.injEq, exists_eq_left']
      cases hparse : parseInt digits with
      | none =>
        simp only [reduceCtorEq, false_iff]
        rintro ⟨_, _, hm, hmax⟩
        have hdigits : (Indexed.value digits : Int) ≤ m := hmax _ (.inl rfl)
        rw [parseInt, if_pos (by omega)] at hparse
        cases hparse
      | some index =>
        obtain ⟨hindex, rfl⟩ := parseInt_eq_some.mp hparse
        have hgreater : max first (Indexed.value digits : Int) ≤ Java.maxInt := by omega
        simp only [ih hgreater]
        constructor
        · rintro ⟨hm, hle, hmax, hall⟩
          refine ⟨?_, by omega, hmax, ?_⟩
          · rcases hm with hm | ⟨i, hi, rfl⟩
            · rcases Int.le_total first (Indexed.value digits) with hless | hless
              · exact .inr ⟨_, .inl rfl, by omega⟩
              · exact .inl (by omega)
            · exact .inr ⟨i, .inr hi, rfl⟩
          · rintro i (rfl | hi)
            · omega
            · exact hall i hi
        · rintro ⟨hm, hle, hmax, hall⟩
          have hhere : (Indexed.value digits : Int) ≤ m := hall _ (.inl rfl)
          refine ⟨?_, by omega, hmax, fun i hi => hall i (.inr hi)⟩
          rcases hm with rfl | ⟨i, rfl | hi, rfl⟩
          · exact .inl (by omega)
          · exact .inl (by omega)
          · exact .inr ⟨i, hi, rfl⟩

/-- The elements up to the greatest index, unless the counter cannot exceed it. -/
theorem setObject_eq_some (field : ListField wrapper) {names : List String} {size : Nat}
    {result : Result} :
    (∃ iterations, setObject field names size iterations = some result) ↔
      ∃ m : Nat, getMaxIndex field.binding names 0 = some (m : Int) ∧ (m : Int) < Java.maxInt ∧
        result = ⟨elements field (m + 1), max size (m + 1)⟩ := by
  have hreadable : wrapper.isReadableProperty field.binding = true := field.readable
  constructor
  · rintro ⟨iterations, h⟩
    rw [setObject, if_pos hreadable] at h
    split at h
    · cases h
    · rename_i maxIndex hmaxIndex
      obtain ⟨_, hnonneg, hle, _⟩ :=
        (getMaxIndex_eq_some (by decide : (0 : Int) ≤ Java.maxInt)).mp hmaxIndex
      obtain ⟨m, rfl⟩ := Int.eq_ofNat_of_zero_le hnonneg
      obtain ⟨fields, hfields, rfl⟩ := Option.map_eq_some_iff.mp h
      rcases Int.lt_or_eq_of_le hle with hlt | hlast
      · rw [addIndexed_zero field hlt] at hfields
        split at hfields
        · cases hfields
          exact ⟨m, hmaxIndex, hlt, by rw [getObjects_elements]⟩
        · cases hfields
      · rw [hlast, addIndexed_maxInt _ _ (by decide)] at hfields
        cases hfields
  · rintro ⟨m, hmaxIndex, hlt, rfl⟩
    refine ⟨m + 1, ?_⟩
    simp only [setObject, hreadable, if_true, hmaxIndex, addIndexed_zero field hlt, Nat.le_refl,
      Option.map_some, getObjects_elements]

/-! ## What was sent, and what is created -/

/-- A parameter `binding[i].path`, with any digits that stand for the index. -/
def IsParameter (binding name : String) (i : Nat) (path : String) : Prop :=
  path ≠ "" ∧ ∃ digits, digits ≠ [] ∧ (∀ c ∈ digits, c.isDigit = true) ∧ Indexed.value digits = i ∧
    name.toList = binding.toList ++ '[' :: (digits ++ ']' :: '.' :: path.toList)

def Sent (binding : String) (names : List String) (i : Nat) : Prop :=
  ∃ name ∈ names, ∃ path, IsParameter binding name i path

/-- The paths that the definitions have in an element. -/
def declared : Forest FieldDef → List String
  | .nil => []
  | .cons _ fields beside => paths fields ++ declared beside

/-- The paths below the first definition, less the repeated objects. -/
def created (field : ListField wrapper) : List String := paths (withoutRepeated [] field.nested)

/-- What is below a field refers to it. -/
def BelowOwn : Forest FieldDef → Prop
  | .nil => True
  | .cons a below beside =>
    (∀ d ∈ below.nodes, ∃ path, d.binding = a.binding ++ "." ++ path) ∧ BelowOwn beside

theorem sent_of_matched {binding : String} {names : List String} {i : Nat}
    (h : Matched binding names i) : Sent binding names i := by
  obtain ⟨name, hname, digits, hgroup, hvalue⟩ := h
  unfold group at hgroup
  split at hgroup
  · rename_i digits' c rest hread
    split at hgroup
    · cases hgroup
    · cases hgroup
      obtain ⟨hchars, hne, hdigits⟩ := Indexed.readIndex_eq_some.mp hread
      refine ⟨name, hname, String.ofList (c :: rest), fun hempty => ?_, digits, hne, hdigits, hvalue, ?_⟩
      · have hnil := congrArg String.toList hempty
        rw [String.toList_ofList] at hnil
        cases hnil
      · rw [hchars, String.toList_ofList]
  · cases hgroup

theorem belowOwn_append {ts us : Forest FieldDef} (hts : BelowOwn ts) (hus : BelowOwn us) :
    BelowOwn (ts.append us) := by
  induction ts with
  | nil => exact hus
  | cons a below beside _ ih => exact ⟨hts.1, ih hts.2⟩

theorem belowOwn_elements (field : ListField wrapper) (n : Nat) : BelowOwn (elements field n) := by
  induction n with
  | zero => trivial
  | succ n ih =>
    refine belowOwn_append ih ⟨fun d hd => ?_, trivial⟩
    have hbinding := List.mem_map_of_mem (f := FieldDef.binding) hd
    rw [bindings_nestedFields, List.mem_map] at hbinding
    obtain ⟨path, _, hpath⟩ := hbinding
    exact ⟨path, hpath.symm⟩

theorem bindings_element (field : ListField wrapper) (i : Nat) :
    (element field i).nodes.map FieldDef.binding = indexed field.binding i ::
      (created field).map fun path => indexed field.binding i ++ "." ++ path := by
  simp only [element, Forest.nodes_cons, Forest.nodes_nil, List.append_nil, List.map_cons,
    bindings_nestedFields, copyField_binding, created]

theorem begins_of_mem_element {field : ListField wrapper} {i : Nat} {b : String}
    (h : b ∈ (element field i).nodes.map FieldDef.binding) :
    ∃ us, b.toList = (indexed field.binding i).toList ++ us := by
  rw [bindings_element, List.mem_cons, List.mem_map] at h
  rcases h with rfl | ⟨path, _, rfl⟩
  · exact ⟨[], (List.append_nil _).symm⟩
  · exact ⟨'.' :: path.toList, by simp⟩

theorem mem_bindings_elements {field : ListField wrapper} {n : Nat} {b : String} :
    b ∈ (elements field n).nodes.map FieldDef.binding ↔
      ∃ i < n, b ∈ (element field i).nodes.map FieldDef.binding := by
  induction n with
  | zero => simp [elements]
  | succ n ih =>
    rw [elements, Forest.nodes_append, List.map_append, List.mem_append, ih]
    simp only [Nat.lt_succ_iff_lt_or_eq, or_and_right, exists_or, exists_eq_left]

theorem nodup_element (field : ListField wrapper) (i : Nat) :
    ((element field i).nodes.map FieldDef.binding).Nodup ↔ (created field).Nodup := by
  rw [bindings_element, List.nodup_cons, List.nodup_map_iff (path_inj (indexed field.binding i))]
  refine and_iff_right fun hmem => ?_
  obtain ⟨path, _, hpath⟩ := List.mem_map.mp hmem
  have hlength := congrArg (fun text => text.toList.length) hpath
  simp only [String.toList_append, List.length_append] at hlength
  have hpoint : ".".toList.length = 1 := rfl
  omega

theorem nodup_elements (field : ListField wrapper) (n : Nat) :
    ((elements field (n + 1)).nodes.map FieldDef.binding).Nodup ↔ (created field).Nodup := by
  constructor
  · intro h
    rw [elements, Forest.nodes_append, List.map_append] at h
    exact (nodup_element field n).mp (List.nodup_append.mp h).2.1
  · intro h
    have hall : ∀ k, ((elements field k).nodes.map FieldDef.binding).Nodup := by
      intro k
      induction k with
      | zero => simp [elements]
      | succ k ih =>
        rw [elements, Forest.nodes_append, List.map_append, List.nodup_append]
        refine ⟨ih, (nodup_element field k).mpr h, fun b hb c hc heq => ?_⟩
        obtain ⟨i, hi, hbi⟩ := mem_bindings_elements.mp hb
        obtain ⟨us, hus⟩ := begins_of_mem_element hbi
        obtain ⟨vs, hvs⟩ := begins_of_mem_element hc
        rw [heq, hvs] at hus
        exact absurd (Indexed.indexed_append_inj hus).1 (Nat.ne_of_gt hi)
    exact hall (n + 1)

/-- A parameter that one of the created fields has for its binding. -/
theorem mem_bindings_iff {field : ListField wrapper} {n i : Nat} {name path : String}
    (h : IsParameter field.binding name i path) :
    name ∈ (elements field n).nodes.map FieldDef.binding ↔
      i < n ∧ name = indexed field.binding i ++ "." ++ path ∧ path ∈ created field := by
  obtain ⟨hne, digits, _, hdigits, hvalue, hchars⟩ := h
  rw [mem_bindings_elements]
  constructor
  · rintro ⟨k, hk, hmem⟩
    rw [bindings_element, List.mem_cons, List.mem_map] at hmem
    rcases hmem with rfl | ⟨path', hpath', rfl⟩
    · -- a field without a path
      rw [Indexed.toList_indexed, List.append_cancel_left_eq, List.cons.injEq] at hchars
      have hrest := (Indexed.digits_append_inj (fun _ => Indexed.isDigit_of_mem) hdigits hchars.2).2
      cases hrest
    · simp only [String.toList_append, Indexed.toList_indexed, List.append_assoc, List.cons_append,
        List.nil_append, List.append_cancel_left_eq, List.cons.injEq, true_and] at hchars
      obtain ⟨rfl, hrest⟩ :=
        Indexed.digits_append_inj (fun _ => Indexed.isDigit_of_mem) hdigits hchars
      rw [Indexed.value_toDigits] at hvalue
      subst hvalue
      have hpath : path' = path := String.toList_inj.mp (List.cons.inj hrest).2
      rw [hpath] at hpath' ⊢
      exact ⟨hk, rfl, hpath'⟩
  · rintro ⟨hi, rfl, hpath⟩
    refine ⟨i, hi, ?_⟩
    rw [bindings_element]
    exact List.mem_cons_of_mem _ (List.mem_map_of_mem hpath)

/-- The nested fields and the list are those of the indexes up to the greatest one that was sent, and
what was sent for a field of an element is under its binding. -/
structure Filled (field : ListField wrapper) (names : List String) (result : Result) : Prop where
  indexes : ∀ b, b ∈ result.fields.tops.map FieldDef.binding ↔
    ∃ i j, Sent field.binding names j ∧ i ≤ j ∧ b = indexed field.binding i
  once : (result.fields.nodes.map FieldDef.binding).Nodup
  own : BelowOwn result.fields
  size : ∀ i, i < result.size ↔ ∃ j, Sent field.binding names j ∧ i ≤ j
  filled : ∀ name ∈ names, ∀ i path, IsParameter field.binding name i path →
    path ∈ declared field.innerFields → name ∈ result.fields.nodes.map FieldDef.binding

structure Regular (field : ListField wrapper) (names : List String) (size : Nat) : Prop where
  numbers : ∀ i, Matched field.binding names i → (i : Int) < Java.maxInt
  greatest : ∃ m, Sent field.binding names m ∧ (m = 0 ∨ Matched field.binding names m) ∧
    (∀ j, Sent field.binding names j → j ≤ m) ∧ size ≤ m + 1
  distinct : (created field).Nodup
  canonical : ∀ name ∈ names, ∀ i path, IsParameter field.binding name i path →
    path ∈ declared field.innerFields →
      name = indexed field.binding i ++ "." ++ path ∧ path ∈ created field

theorem Regular.getMaxIndex {field : ListField wrapper} {names : List String} {size m : Nat}
    (h : Regular field names size) (hsent : Sent field.binding names m)
    (hmatched : m = 0 ∨ Matched field.binding names m)
    (hgreatest : ∀ j, Sent field.binding names j → j ≤ m) :
    getMaxIndex field.binding names 0 = some (m : Int) ∧ (m : Int) < Java.maxInt := by
  have hlt : (m : Int) < Java.maxInt := by
    rcases hmatched with rfl | hmatched
    · decide
    · exact h.numbers m hmatched
  refine ⟨(getMaxIndex_eq_some (by decide)).mpr ⟨?_, by omega, by omega, fun i hi => ?_⟩, hlt⟩
  · rcases hmatched with rfl | hmatched
    · exact .inl rfl
    · exact .inr ⟨m, hmatched, rfl⟩
  · have him := hgreatest i (sent_of_matched hi)
    omega

theorem filled_of_regular {field : ListField wrapper} {names : List String} {size : Nat}
    (h : Regular field names size) : ∃ result,
      (∃ iterations, setObject field names size iterations = some result) ∧
        Filled field names result := by
  obtain ⟨m, hsent, hmatched, hgreatest, hsize⟩ := h.greatest
  obtain ⟨hmax, hlt⟩ := h.getMaxIndex hsent hmatched hgreatest
  have hbelow : ∀ i, i < m + 1 ↔ ∃ j, Sent field.binding names j ∧ i ≤ j := by
    intro i
    constructor
    · intro hi
      exact ⟨m, hsent, Nat.le_of_lt_succ hi⟩
    · rintro ⟨j, hj, hij⟩
      exact Nat.lt_succ_of_le (Nat.le_trans hij (hgreatest j hj))
  refine ⟨_, (setObject_eq_some field).mpr ⟨m, hmax, hlt, rfl⟩, ?_, ?_, ?_, ?_, ?_⟩
  · intro b
    rw [mem_elements]
    simp only [hbelow, ← exists_and_right, and_assoc]
  · exact (nodup_elements field m).mpr h.distinct
  · exact belowOwn_elements field (m + 1)
  · intro i
    rw [← hbelow, Nat.max_eq_right hsize]
  · intro name hname i path hparameter hdeclared
    have hi : i < m + 1 := Nat.lt_succ_of_le (hgreatest i ⟨name, hname, path, hparameter⟩)
    exact (mem_bindings_iff hparameter).mpr ⟨hi, h.canonical name hname i path hparameter hdeclared⟩

theorem regular_of_filled {field : ListField wrapper} {names : List String} {size : Nat}
    {result : Result} (hresult : ∃ iterations, setObject field names size iterations = some result)
    (h : Filled field names result) : Regular field names size := by
  obtain ⟨m, hmax, hlt, rfl⟩ := (setObject_eq_some field).mp hresult
  obtain ⟨hm, _, _, hall⟩ := (getMaxIndex_eq_some (by decide)).mp hmax
  have htop : ∀ i, i < m + 1 ↔ ∃ j, Sent field.binding names j ∧ i ≤ j := by
    intro i
    have hi := h.indexes (indexed field.binding i)
    rw [mem_elements] at hi
    constructor
    · intro him
      obtain ⟨k, j, hj, hk, hik⟩ := hi.mp ⟨i, him, rfl⟩
      rw [Indexed.indexed_inj hik]
      exact ⟨j, hj, hk⟩
    · rintro ⟨j, hj, hij⟩
      obtain ⟨k, hk, hik⟩ := hi.mpr ⟨i, j, hj, hij, rfl⟩
      rw [Indexed.indexed_inj hik]
      exact hk
  have hgreatest : ∀ j, Sent field.binding names j → j ≤ m := fun j hj =>
    Nat.le_of_lt_succ ((htop j).mpr ⟨j, hj, Nat.le_refl j⟩)
  have hsent : Sent field.binding names m := by
    obtain ⟨j, hj, hmj⟩ := (htop m).mp (Nat.lt_succ_self m)
    rw [Nat.le_antisymm hmj (hgreatest j hj)]
    exact hj
  refine ⟨?_, ⟨m, hsent, ?_, hgreatest, ?_⟩, (nodup_elements field m).mp h.once, ?_⟩
  · intro i hi
    have him := hall i hi
    omega
  · rcases hm with hzero | ⟨index, hindex, heq⟩
    · exact .inl (by omega)
    · have hsame : index = m := by omega
      exact .inr (hsame ▸ hindex)
  · -- the last element of the list is one of an index that was sent
    have hsize : ∀ i, i < max size (m + 1) ↔ ∃ j, Sent field.binding names j ∧ i ≤ j := h.size
    obtain ⟨j, hj, hle⟩ := (hsize (max size (m + 1) - 1)).mp (by omega)
    have hjm := hgreatest j hj
    omega
  · intro name hname i path hparameter hdeclared
    exact ((mem_bindings_iff hparameter).mp (h.filled name hname i path hparameter hdeclared)).2

/-- The nested fields and the list are those of the indexes that were sent if and only if there is such an
index, all of them can be counted to, the list had no more elements before, the definitions in an element
have a path each, and the indexes of their parameters have no leading zeros. -/
theorem list_filled_iff (field : ListField wrapper) (names : List String) (size : Nat) :
    (∃ result, (∃ iterations, setObject field names size iterations = some result) ∧
      Filled field names result) ↔ Regular field names size :=
  ⟨fun ⟨_, hresult, hfilled⟩ => regular_of_filled hresult hfilled, filled_of_regular⟩

/-! ## An index that is no number -/

def growingWrapper : BeanWrapper where
  isReadableProperty := fun _ => true
  sizeAfter := fun binding property size =>
    match Indexed.readIndex binding property.toList with
    | some (digits, []) => max size (Indexed.value digits + 1)
    | _ => size
  grows := fun binding i size => by
    have hread : Indexed.readIndex binding (indexed binding i).toList =
        some (Nat.toDigits 10 i, []) :=
      Indexed.readIndex_eq_some.mpr ⟨Indexed.toList_indexed binding i, Nat.toDigits_ne_nil,
        fun _ => Indexed.isDigit_of_mem⟩
    rw [hread]
    simp only [Indexed.value_toDigits]

def textField (name binding : String) (type : FieldType) : FieldDef :=
  ⟨name, binding, type, none, none, none, none, none, none⟩

/-- Items with a name each. -/
def items : ListField growingWrapper where
  def_ := textField "items" "items" .listObject
  type := rfl
  readable := rfl
  first := textField "items[]" "items.items[]" .object
  nested := .cons (textField "name" "items.items[].name" .text) .nil .nil
  others := .nil
  objects := ⟨rfl, fun _ h => absurd h List.not_mem_nil⟩

theorem index_too_large :
    ¬ ∃ result, (∃ iterations, setObject items ["items[9999999999].name"] 0 iterations = some result) ∧
      Filled items ["items[9999999999].name"] result := by
  rintro ⟨result, hresult, _⟩
  obtain ⟨m, hmax, _, _⟩ := (setObject_eq_some items).mp hresult
  have hnone : getMaxIndex items.binding ["items[9999999999].name"] 0 = none := by decide
  rw [hnone] at hmax
  cases hmax

end ListFields
end Fields
end AppNG
