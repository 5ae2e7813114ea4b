import AppNG.Fields.Messages
import AppNG.Lib.JavaString
import Mathlib.Data.Rat.Defs

/-!
# Fields.NumberFields

`NumberFieldConverter.setObject`: a submitted string is bound to a property that is a number.

A format reads the longest part in front that is a number, and what follows is ignored. If there is none, an error is
attached and null is bound all the same.

* `longest_iff`, `reads_all_iff`: what a format reads, and when that is all of the string.
* `right_iff`: the number that the string denotes is bound, or an error attached and nothing changed, if and only if all
  of the string is read and its type holds the number, or the number is out of range, or null is rejected or was bound.
-/

namespace AppNG
namespace Fields
namespace NumberFields

variable {N : Type}

/-! ## The code -/

/-- A `DecimalFormat` for a pattern and a locale: the number that all of a string denotes. -/
abbrev NumberFormat (N : Type) := List Char → Option N

/-- Of the first `n` characters or fewer. -/
def longest (format : NumberFormat N) (chars : List Char) : Nat → Option N
  | 0 => none
  | n + 1 =>
    match format (chars.take (n + 1)) with
    | some number => some number
    | none => longest format chars n

/-- None: a `ParseException`. -/
def NumberFormat.parse (format : NumberFormat N) (value : String) : Option N :=
  longest format value.toList value.toList.length

structure TargetClass (N : Type) where
  isPrimitive : Bool
  /-- The number of the type that it becomes. None: it is out of range. -/
  convert : N → Option N

/-- None: a `PropertyAccessException`. -/
def TargetClass.bind (targetClass : TargetClass N) : Option N → Option (Option N)
  | none => if targetClass.isPrimitive then none else some none
  | some number => (targetClass.convert number).map some

/-- A field and the property it is bound to. -/
structure FieldWrapper (N : Type) where
  name : String
  format : Option String := none
  targetClass : TargetClass N
  object : Option N
  stringValue : Option String := none
  messages : Option (List Message) := none

structure NumberFieldConverter (N : Type) where
  defaultPattern : String
  /-- For the error key, in the locale. -/
  errorMessage : String
  getNumberFormat : Option String → NumberFormat N

namespace NumberFieldConverter

variable (converter : NumberFieldConverter N)

def handleException (field : FieldWrapper N) : FieldWrapper N :=
  { field with messages := some [⟨field.name, .error, converter.errorMessage⟩], stringValue := none }

/-- A blank format is the default. -/
def setFormat (field : FieldWrapper N) : FieldWrapper N :=
  { field with format := if Java.isBlank field.format then some converter.defaultPattern else field.format }

/-- For the format that a field has then. -/
def formatOf (field : FieldWrapper N) : NumberFormat N := converter.getNumberFormat (converter.setFormat field).format

/-- The second `try`. -/
def bindNumber (field : FieldWrapper N) (value : Option String) (number : Option N) : FieldWrapper N :=
  match field.targetClass.bind number with
  | some object => { field with object }
  | none => converter.handleException { field with stringValue := value }

def setObject (field : FieldWrapper N) (value : Option String) : FieldWrapper N :=
  let field := converter.setFormat field
  if Java.isBlank value then converter.bindNumber field value none
  else
    match (converter.getNumberFormat field.format).parse (value.getD "") with
    | some number => converter.bindNumber field value (some number)
    | none => converter.bindNumber (converter.handleException field) value none

end NumberFieldConverter

/-! ## What should happen -/

/-- The value is bound, and the messages are as before. -/
def Binds (before after : FieldWrapper N) (object : Option N) : Prop :=
  after.object = object ∧ after.messages = before.messages

/-- One error, and the property is as before. -/
def Rejects (before after : FieldWrapper N) : Prop :=
  after.object = before.object ∧ ∃ message, after.messages = some [message] ∧ message.clazz = .error

def Right (format : NumberFormat N) (value : Option String) (before after : FieldWrapper N) : Prop :=
  if Java.isBlank value then
    if before.targetClass.isPrimitive then Rejects before after else Binds before after none
  else
    (∃ number, format (Java.trim (value.getD "")) = some number ∧ Binds before after (some number)) ∨
      Rejects before after

/-- What can be done with a string that is not blank. -/
inductive Fits (format : NumberFormat N) (value : String) (targetClass : TargetClass N) (object : Option N) : Prop where
  | unreadable : format.parse value = none → targetClass.isPrimitive = true ∨ object = none →
      Fits format value targetClass object
  | outOfRange {number : N} : format.parse value = some number → targetClass.convert number = none →
      Fits format value targetClass object
  | exact {number bound : N} : format.parse value = some number → targetClass.convert number = some bound →
      format (Java.trim value) = some bound → Fits format value targetClass object

/-! ## What is read -/

theorem longest_iff (format : NumberFormat N) (chars : List Char) {n : Nat} {number : N} :
    longest format chars n = some number ↔ ∃ k, 0 < k ∧ k ≤ n ∧ format (chars.take k) = some number ∧
      ∀ j, k < j → j ≤ n → format (chars.take j) = none := by
  induction n with
  | zero =>
    refine iff_of_false nofun ?_
    rintro ⟨k, hpos, hle, _⟩
    omega
  | succ n ih =>
    rw [longest]
    cases hwhole : format (chars.take (n + 1)) with
    | some whole =>
      constructor
      · intro h
        exact ⟨n + 1, Nat.succ_pos n, Nat.le_refl _, hwhole.trans h, fun j hlt hle => by omega⟩
      · rintro ⟨k, _, hle, hk, hlonger⟩
        rcases Nat.lt_or_eq_of_le hle with hlt | rfl
        · rw [hlonger (n + 1) hlt (Nat.le_refl _)] at hwhole
          cases hwhole
        · exact hwhole.symm.trans hk
    | none =>
      show longest format chars n = some number ↔ _
      rw [ih]
      constructor
      · rintro ⟨k, hpos, hle, hk, hlonger⟩
        refine ⟨k, hpos, Nat.le_succ_of_le hle, hk, fun j hlt hj => ?_⟩
        rcases Nat.lt_or_eq_of_le hj with hj | rfl
        · exact hlonger j hlt (Nat.le_of_lt_succ hj)
        · exact hwhole
      · rintro ⟨k, hpos, hle, hk, hlonger⟩
        rcases Nat.lt_or_eq_of_le hle with hlt | rfl
        · exact ⟨k, hpos, Nat.le_of_lt_succ hlt, hk, fun j hlt hj => hlonger j hlt (Nat.le_succ_of_le hj)⟩
        · rw [hwhole] at hk
          cases hk

/-- Numbers without white space at either end. -/
def Plain (format : NumberFormat N) : Prop :=
  ∀ chars number, format chars = some number → chars ≠ [] ∧ (∀ c ∈ chars.head?, 0x20 < c.toNat) ∧
    ∀ c ∈ chars.getLast?, 0x20 < c.toNat

theorem trim_split {value : String} (h : ∀ c ∈ value.toList.head?, 0x20 < c.toNat) :
    ∃ white, value.toList = Java.trim value ++ white ∧ ∀ c ∈ white, c.toNat ≤ 0x20 := by
  have hsame : value.toList.dropWhile (fun c => decide (c.toNat ≤ 0x20)) = value.toList := by
    cases hchars : value.toList with
    | nil => rfl
    | cons c chars =>
      rw [hchars] at h
      exact List.dropWhile_cons_of_neg (by simpa using h c rfl)
  refine ⟨value.toList.rtakeWhile (fun c => decide (c.toNat ≤ 0x20)), ?_, fun c hc => ?_⟩
  · rw [Java.trim, hsame, List.rdropWhile_append_rtakeWhile]
  · have hdropped := List.mem_rtakeWhile_imp hc
    exact of_decide_eq_true hdropped

/-- White space behind a number is not read. -/
theorem parse_trim {format : NumberFormat N} (hplain : Plain format) {value : String} {number : N}
    (hhead : ∀ c ∈ value.toList.head?, 0x20 < c.toNat) (hdenotes : format (Java.trim value) = some number) :
    format.parse value = some number := by
  obtain ⟨white, hsplit, hwhite⟩ := trim_split hhead
  have hne := (hplain _ _ hdenotes).1
  rw [NumberFormat.parse, hsplit, longest_iff]
  refine ⟨(Java.trim value).length, List.length_pos_iff.mpr hne, by simp, by rwa [List.take_left], fun j hlt hle => ?_⟩
  rw [List.take_append, List.take_of_length_le (Nat.le_of_lt hlt)]
  cases htaken : format (Java.trim value ++ white.take (j - (Java.trim value).length)) with
  | none => rfl
  | some other =>
    have hmore : white.take (j - (Java.trim value).length) ≠ [] := by
      rw [List.length_append] at hle
      rw [ne_eq, ← List.length_eq_zero_iff, List.length_take]
      omega
    have hlast := (hplain _ _ htaken).2.2 ((white.take (j - (Java.trim value).length)).getLast hmore)
      (by rw [List.getLast?_append_of_ne_nil _ hmore, List.getLast?_eq_some_getLast hmore]; rfl)
    have hle := hwhite _ (List.mem_of_mem_take (List.getLast_mem hmore))
    omega

theorem reads_all_iff {format : NumberFormat N} (hplain : Plain format) (value : String) (targetClass : TargetClass N)
    (bound : N) : (∃ number, format.parse value = some number ∧ targetClass.convert number = some bound ∧
      format (Java.trim value) = some bound) ↔ (∀ c ∈ value.toList.head?, 0x20 < c.toNat) ∧
        format (Java.trim value) = some bound ∧ targetClass.convert bound = some bound := by
  constructor
  · rintro ⟨number, hparse, hconvert, hdenotes⟩
    obtain ⟨k, hpos, _, hk, _⟩ := (longest_iff format value.toList).mp hparse
    have hhead : ∀ c ∈ value.toList.head?, 0x20 < c.toNat := by
      have hfirst := (hplain _ _ hk).2.1
      rwa [List.head?_take, if_neg (Nat.ne_of_gt hpos)] at hfirst
    refine ⟨hhead, hdenotes, ?_⟩
    rw [parse_trim hplain hhead hdenotes] at hparse
    obtain rfl := Option.some.inj hparse
    exact hconvert
  · rintro ⟨hhead, hdenotes, hconvert⟩
    exact ⟨bound, parse_trim hplain hhead hdenotes, hconvert, hdenotes⟩

/-! ## What is bound -/

namespace NumberFieldConverter

variable {converter : NumberFieldConverter N}

theorem setObject_blank (field : FieldWrapper N) {value : Option String} (h : Java.isBlank value = true) :
    converter.setObject field value = converter.bindNumber (converter.setFormat field) value none :=
  if_pos h

theorem setObject_read (field : FieldWrapper N) {value : Option String} (h : Java.isBlank value = false) {number : N}
    (hparse : (converter.formatOf field).parse (value.getD "") = some number) :
    converter.setObject field value = converter.bindNumber (converter.setFormat field) value (some number) := by
  rw [setObject, if_neg (Bool.eq_false_iff.mp h)]
  show (match (converter.formatOf field).parse (value.getD "") with | some number => _ | none => _) = _
  rw [hparse]

theorem setObject_unreadable (field : FieldWrapper N) {value : Option String} (h : Java.isBlank value = false)
    (hparse : (converter.formatOf field).parse (value.getD "") = none) :
    converter.setObject field value =
      converter.bindNumber (converter.handleException (converter.setFormat field)) value none := by
  rw [setObject, if_neg (Bool.eq_false_iff.mp h)]
  show (match (converter.formatOf field).parse (value.getD "") with | some number => _ | none => _) = _
  rw [hparse]

theorem bindNumber_binds {field : FieldWrapper N} {value : Option String} {number object : Option N}
    (h : field.targetClass.bind number = some object) :
    converter.bindNumber field value number = { field with object } := by
  rw [bindNumber, h]

theorem bindNumber_rejects {before field : FieldWrapper N} {value : Option String} {number : Option N}
    (hobject : field.object = before.object) (h : field.targetClass.bind number = none) :
    Rejects before (converter.bindNumber field value number) := by
  rw [bindNumber, h]
  exact ⟨hobject, _, rfl, rfl⟩

theorem right_blank (field : FieldWrapper N) {value : Option String} (hblank : Java.isBlank value = true) :
    Right (converter.formatOf field) value field (converter.setObject field value) := by
  rw [Right, if_pos hblank, setObject_blank field hblank]
  cases hprimitive : field.targetClass.isPrimitive with
  | true =>
    have hbind : (converter.setFormat field).targetClass.bind none = none := if_pos hprimitive
    exact bindNumber_rejects rfl hbind
  | false =>
    have hbind : (converter.setFormat field).targetClass.bind none = some none :=
      if_neg (Bool.eq_false_iff.mp hprimitive)
    rw [if_neg Bool.false_ne_true, bindNumber_binds hbind]
    exact ⟨rfl, rfl⟩

theorem right_iff_of_not_blank {format : NumberFormat N} {value : Option String} {before after : FieldWrapper N}
    (hblank : Java.isBlank value = false) : Right format value before after ↔
      (∃ number, format (Java.trim (value.getD "")) = some number ∧ Binds before after (some number)) ∨
        Rejects before after := by
  rw [Right, if_neg (Bool.eq_false_iff.mp hblank)]

/-- The second exception replaces the message of the first one. -/
theorem right_unreadable_iff (field : FieldWrapper N) {value : Option String} (hblank : Java.isBlank value = false)
    (hparse : (converter.formatOf field).parse (value.getD "") = none) :
    Right (converter.formatOf field) value field (converter.setObject field value) ↔
      field.targetClass.isPrimitive = true ∨ field.object = none := by
  rw [right_iff_of_not_blank hblank, setObject_unreadable field hblank hparse]
  cases hprimitive : field.targetClass.isPrimitive with
  | true =>
    have hbind : (converter.handleException (converter.setFormat field)).targetClass.bind none = none :=
      if_pos hprimitive
    exact iff_of_true (.inr (bindNumber_rejects rfl hbind)) (.inl rfl)
  | false =>
    have hbind : (converter.handleException (converter.setFormat field)).targetClass.bind none = some none :=
      if_neg (Bool.eq_false_iff.mp hprimitive)
    rw [bindNumber_binds hbind]
    constructor
    · rintro (⟨number, _, hnumber, _⟩ | ⟨hnull, _⟩)
      · cases hnumber
      · exact .inr hnull.symm
    · rintro (h | h)
      · cases h
      · exact .inr ⟨h.symm, _, rfl, rfl⟩

theorem right_outOfRange (field : FieldWrapper N) {value : Option String} (hblank : Java.isBlank value = false)
    {number : N} (hparse : (converter.formatOf field).parse (value.getD "") = some number)
    (hconvert : field.targetClass.convert number = none) :
    Right (converter.formatOf field) value field (converter.setObject field value) := by
  have hbind : (converter.setFormat field).targetClass.bind (some number) = none :=
    congrArg (Option.map some) hconvert
  rw [right_iff_of_not_blank hblank, setObject_read field hblank hparse]
  exact .inr (bindNumber_rejects rfl hbind)

theorem setObject_bound (field : FieldWrapper N) {value : Option String} (hblank : Java.isBlank value = false)
    {number bound : N} (hparse : (converter.formatOf field).parse (value.getD "") = some number)
    (hconvert : field.targetClass.convert number = some bound) :
    converter.setObject field value = { converter.setFormat field with object := some bound } := by
  have hbind : (converter.setFormat field).targetClass.bind (some number) = some (some bound) :=
    congrArg (Option.map some) hconvert
  rw [setObject_read field hblank hparse, bindNumber_binds hbind]

/-- What is bound is right for every message from before if it is for none. -/
theorem right_bound_iff (field : FieldWrapper N) {value : Option String} (hblank : Java.isBlank value = false)
    {number bound : N} (hparse : (converter.formatOf field).parse (value.getD "") = some number)
    (hconvert : field.targetClass.convert number = some bound) :
    (∀ messages, Right (converter.formatOf field) value { field with messages }
      (converter.setObject { field with messages } value)) ↔
      converter.formatOf field (Java.trim (value.getD "")) = some bound := by
  have hbound : ∀ messages, converter.setObject { field with messages } value =
      { converter.setFormat { field with messages } with object := some bound } :=
    fun messages => setObject_bound { field with messages } hblank hparse hconvert
  constructor
  · intro h
    have hnone := (right_iff_of_not_blank hblank).mp (h none)
    rw [hbound] at hnone
    rcases hnone with ⟨denoted, hdenotes, hobject, _⟩ | ⟨_, message, hmessage, _⟩
    · rwa [Option.some.inj hobject]
    · cases hmessage
  · intro hdenotes messages
    rw [right_iff_of_not_blank hblank, hbound]
    exact .inl ⟨bound, hdenotes, rfl, rfl⟩

end NumberFieldConverter

open NumberFieldConverter

theorem right_iff (converter : NumberFieldConverter N) (field : FieldWrapper N) (value : Option String) :
    (∀ messages, Right (converter.formatOf field) value { field with messages }
      (converter.setObject { field with messages } value)) ↔
      Java.isBlank value = true ∨
        Fits (converter.formatOf field) (value.getD "") field.targetClass field.object := by
  cases hblank : Java.isBlank value with
  | true => exact iff_of_true (fun messages => right_blank { field with messages } hblank) (.inl rfl)
  | false =>
    rw [or_iff_right Bool.false_ne_true]
    cases hparse : (converter.formatOf field).parse (value.getD "") with
    | none =>
      have hright : ∀ messages, Right (converter.formatOf field) value { field with messages }
          (converter.setObject { field with messages } value) ↔
          field.targetClass.isPrimitive = true ∨ field.object = none :=
        fun messages => right_unreadable_iff { field with messages } hblank hparse
      simp only [hright, forall_const]
      refine ⟨.unreadable hparse, ?_⟩
      rintro (⟨_, h⟩ | ⟨h, _⟩ | ⟨h, _⟩)
      · exact h
      · rw [hparse] at h; cases h
      · rw [hparse] at h; cases h
    | some number =>
      cases hconvert : field.targetClass.convert number with
      | none =>
        exact iff_of_true (fun messages => right_outOfRange { field with messages } hblank hparse hconvert)
          (.outOfRange hparse hconvert)
      | some bound =>
        rw [right_bound_iff field hblank hparse hconvert]
        refine ⟨.exact hparse hconvert, ?_⟩
        rintro (⟨h, _⟩ | ⟨h, hnone⟩ | ⟨h, hbound, hdenotes⟩)
        · rw [hparse] at h; cases h
        · cases hparse.symm.trans h
          rw [hconvert] at hnone; cases hnone
        · cases hparse.symm.trans h
          rw [hdenotes, ← hbound, hconvert]

/-- An integral type: what is behind the decimal point is dropped. -/
def integral (isPrimitive : Bool) (minValue maxValue : Int) : TargetClass Rat where
  isPrimitive := isPrimitive
  convert number :=
    let integer := number.num.tdiv number.den
    if minValue ≤ integer ∧ integer ≤ maxValue then some integer else none

def digits : NumberFormat Rat := fun chars =>
  if !chars.isEmpty && chars.all Char.isDigit then
    some (chars.foldl (fun number c => 10 * number + (c.toNat - 48)) 0 : Nat)
  else none

def quantityConverter : NumberFieldConverter Rat where
  defaultPattern := "#"
  errorMessage := "no integer"
  getNumberFormat _ := digits

def quantity : FieldWrapper Rat where
  name := "quantity"
  targetClass := integral false (-2147483648) 2147483647
  object := some 5

/-- A number is bound though more is behind it, and null though an error is shown. -/
theorem binds_null :
    (quantityConverter.setObject quantity (some "12abc")).object = some 12 ∧
      (quantityConverter.setObject quantity (some "12abc")).messages = none ∧
      (quantityConverter.setObject quantity (some "abc")).object = none ∧
      ¬ Right digits (some "12abc") quantity (quantityConverter.setObject quantity (some "12abc")) ∧
      ¬ Right digits (some "abc") quantity (quantityConverter.setObject quantity (some "abc")) := by
  have hbound : (quantityConverter.setObject quantity (some "12abc")).object = some 12 := by decide +kernel
  have hmessages : (quantityConverter.setObject quantity (some "12abc")).messages = none := by decide +kernel
  have hnull : (quantityConverter.setObject quantity (some "abc")).object = none := by decide +kernel
  refine ⟨hbound, hmessages, hnull, ?_, ?_⟩
  · rw [right_iff_of_not_blank (by decide)]
    rintro (⟨number, hdenotes, _⟩ | ⟨_, message, hmessage, _⟩)
    · cases hdenotes
    · rw [hmessages] at hmessage
      cases hmessage
  · rw [right_iff_of_not_blank (by decide)]
    rintro (⟨number, _, hobject, _⟩ | ⟨hobject, _⟩)
    · rw [hnull] at hobject
      cases hobject
    · rw [hnull] at hobject
      cases hobject

end NumberFields
end Fields
end AppNG
