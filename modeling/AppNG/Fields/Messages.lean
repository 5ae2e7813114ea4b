import AppNG.Lib.Machine
import Mathlib.Data.List.Induction

/-!
# Fields.Messages

`FieldProcessorImpl`: messages on a form and on its fields, which can have fields of their own.

Whether there are errors is decided over the whole tree. Clearing goes over the fields on top only.

* `hasErrors_iff`: in every run the answer is right.
* `nestedErrors_perform`: an error inside of a field is there if it was before or is added, for nothing
  takes it away.
* `clears_iff`: the form is clean once it was cleared, if and only if no field inside of another one
  ever had an error.
-/

namespace AppNG
namespace Fields

inductive MessageType where
  | ok
  | error
  | invalid
  | notice
  deriving DecidableEq, Repr

structure Message where
  ref : String
  clazz : MessageType
  content : String
  deriving DecidableEq, Repr

structure Messages where
  ref : String
  messageList : List Message
  deriving DecidableEq, Repr

inductive FieldDef where
  | mk (name binding : String) (messages : Option Messages) (fields : List FieldDef)

namespace FieldDef

def name : FieldDef → String
  | mk name _ _ _ => name

def binding : FieldDef → String
  | mk _ binding _ _ => binding

def messages : FieldDef → Option Messages
  | mk _ _ messages _ => messages

def fields : FieldDef → List FieldDef
  | mk _ _ _ fields => fields

def setMessages (messages : Option Messages) : FieldDef → FieldDef
  | mk name binding _ fields => mk name binding messages fields

def mapFields (f : List FieldDef → List FieldDef) : FieldDef → FieldDef
  | mk name binding messages fields => mk name binding messages (f fields)

end FieldDef

/-- `fields` are those of the metadata, none if there are no metadata. -/
structure FieldProcessor where
  reference : String
  fields : List FieldDef
  noticeMessages : List Message := []
  okMessages : List Message := []
  errorMessages : List Message := []
  invalidMessages : List Message := []

/-! ## The code -/

mutual

/-- One round of the loop. -/
def fieldHasErrors : FieldDef → Bool
  | .mk _ _ messages fields =>
    if hasFieldErrors fields then true
    else
      match messages with
      | none => false
      | some messages => messages.messageList.any fun m => m.clazz == .error

def hasFieldErrors : List FieldDef → Bool
  | [] => false
  | field :: fields => if fieldHasErrors field then true else hasFieldErrors fields

end

def hasErrors (fp : FieldProcessor) : Bool :=
  if fp.errorMessages.isEmpty then hasFieldErrors fp.fields else true

def addFieldMessage (clazz : MessageType) (content : String) (field : FieldDef) : FieldDef :=
  let messages := field.messages.getD ⟨field.name, []⟩
  field.setMessages (some { messages with
    messageList := messages.messageList ++ [⟨field.name, clazz, content⟩] })

/-- A change of the field at the end of a path of positions. -/
def modifyAt (f : FieldDef → FieldDef) : List Nat → List FieldDef → List FieldDef
  | [], fields => fields
  | [i], fields => fields.modify i f
  | i :: path, fields => fields.modify i (FieldDef.mapFields (modifyAt f path))

/-- The four methods without a field. -/
def addMessage (fp : FieldProcessor) (clazz : MessageType) (content : String) : FieldProcessor :=
  let message : Message := ⟨fp.reference, clazz, content⟩
  match clazz with
  | .ok => { fp with okMessages := fp.okMessages ++ [message] }
  | .error => { fp with errorMessages := fp.errorMessages ++ [message] }
  | .invalid => { fp with invalidMessages := fp.invalidMessages ++ [message] }
  | .notice => { fp with noticeMessages := fp.noticeMessages ++ [message] }

def clearMessages (fp : FieldProcessor) : FieldProcessor :=
  { fp with noticeMessages := [], okMessages := [], errorMessages := [], invalidMessages := [] }

def clearField (field : FieldDef) : FieldDef :=
  field.setMessages (field.messages.map fun messages => { messages with messageList := [] })

def clearFieldMessages (fp : FieldProcessor) : FieldProcessor :=
  { fp with fields := fp.fields.map clearField }

/-- `fieldMap` holds the last field with a binding. -/
def clearBinding (binding : String) : List FieldDef → List FieldDef
  | [] => []
  | field :: fields =>
    if fields.any fun f => f.binding == binding then field :: clearBinding binding fields
    else if field.binding = binding then clearField field :: fields
    else field :: fields

/-- What is called. A path that leads to no field is one to a field of some other form. -/
inductive Call where
  | addMessage (clazz : MessageType) (content : String)
  | addFieldMessage (path : List Nat) (clazz : MessageType) (content : String)
  | clearMessages
  | clearFieldMessages
  | clearFieldMessagesOf (bindings : List String)

def perform (fp : FieldProcessor) : Call → FieldProcessor
  | .addMessage clazz content => addMessage fp clazz content
  | .addFieldMessage path clazz content =>
    { fp with fields := modifyAt (addFieldMessage clazz content) path fp.fields }
  | .clearMessages => clearMessages fp
  | .clearFieldMessages => clearFieldMessages fp
  | .clearFieldMessagesOf bindings =>
    { fp with fields := bindings.foldl (fun fields binding => clearBinding binding fields) fp.fields }

/-! ## What is attached -/

/-- The messages of a field, at any depth. -/
inductive Attached : List FieldDef → Message → Prop where
  | here {fields : List FieldDef} {field : FieldDef} {messages : Messages} {m : Message} :
      field ∈ fields → field.messages = some messages → m ∈ messages.messageList →
        Attached fields m
  | nested {fields : List FieldDef} {field : FieldDef} {m : Message} :
      field ∈ fields → Attached field.fields m → Attached fields m

theorem Attached.mono {fields fields' : List FieldDef} {m : Message} (h : Attached fields m)
    (hsubset : fields ⊆ fields') : Attached fields' m := by
  cases h with
  | here hfield hmessages hm => exact .here (hsubset hfield) hmessages hm
  | nested hfield hm => exact .nested (hsubset hfield) hm

def ErrorAttached (fp : FieldProcessor) : Prop :=
  (∃ m ∈ fp.noticeMessages ++ fp.okMessages ++ fp.errorMessages ++ fp.invalidMessages,
    m.clazz = .error) ∨ ∃ m, Attached fp.fields m ∧ m.clazz = .error

/-- An error inside of a field. -/
def NestedError (fields : List FieldDef) : Prop :=
  ∃ field ∈ fields, ∃ m, Attached field.fields m ∧ m.clazz = .error

/-! ## Whether there are errors -/

def ownError (messages : Option Messages) : Bool :=
  messages.any fun messages => messages.messageList.any fun m => m.clazz == .error

theorem fieldHasErrors_eq (field : FieldDef) :
    fieldHasErrors field = (hasFieldErrors field.fields || ownError field.messages) := by
  obtain ⟨name, binding, messages, fields⟩ := field
  cases messages with
  | none => simp [fieldHasErrors, FieldDef.fields, FieldDef.messages, ownError]
  | some messages => simp [fieldHasErrors, FieldDef.fields, FieldDef.messages, ownError]

theorem hasFieldErrors_eq (fields : List FieldDef) :
    hasFieldErrors fields = fields.any fieldHasErrors := by
  induction fields with
  | nil => rfl
  | cons field fields ih =>
    rw [hasFieldErrors, List.any_cons, ih]
    cases fieldHasErrors field <;> rfl

theorem ownError_iff {field : FieldDef} : ownError field.messages = true ↔
    ∃ messages m, field.messages = some messages ∧ m ∈ messages.messageList ∧ m.clazz = .error := by
  simp [ownError, Option.any_eq_true]

mutual

theorem attached_of_fieldHasErrors : ∀ (field : FieldDef), fieldHasErrors field = true →
    ∃ m, Attached [field] m ∧ m.clazz = .error
  | .mk name binding messages fields => by
    intro h
    rw [fieldHasErrors_eq, Bool.or_eq_true] at h
    rcases h with hnested | hown
    · obtain ⟨m, hm, herror⟩ := attached_of_hasFieldErrors fields hnested
      exact ⟨m, .nested List.mem_cons_self hm, herror⟩
    · obtain ⟨messages, m, hmessages, hm, herror⟩ := ownError_iff.mp hown
      exact ⟨m, .here List.mem_cons_self hmessages hm, herror⟩

theorem attached_of_hasFieldErrors : ∀ (fields : List FieldDef), hasFieldErrors fields = true →
    ∃ m, Attached fields m ∧ m.clazz = .error
  | [] => by
    intro h
    cases h
  | field :: fields => by
    intro h
    rw [hasFieldErrors_eq, List.any_cons, Bool.or_eq_true, ← hasFieldErrors_eq] at h
    rcases h with hfield | hfields
    · obtain ⟨m, hm, herror⟩ := attached_of_fieldHasErrors field hfield
      exact ⟨m, hm.mono (by simp), herror⟩
    · obtain ⟨m, hm, herror⟩ := attached_of_hasFieldErrors fields hfields
      exact ⟨m, hm.mono (List.subset_cons_self _ _), herror⟩

end

theorem hasFieldErrors_iff {fields : List FieldDef} :
    hasFieldErrors fields = true ↔ ∃ m, Attached fields m ∧ m.clazz = .error := by
  refine ⟨attached_of_hasFieldErrors fields, ?_⟩
  rintro ⟨m, hm, herror⟩
  induction hm with
  | @here fields field messages m hfield hmessages hmem =>
    rw [hasFieldErrors_eq, List.any_eq_true]
    refine ⟨field, hfield, ?_⟩
    rw [fieldHasErrors_eq, ownError_iff.mpr ⟨messages, m, hmessages, hmem, herror⟩, Bool.or_true]
  | @nested fields field m hfield _ ih =>
    rw [hasFieldErrors_eq, List.any_eq_true]
    exact ⟨field, hfield, by rw [fieldHasErrors_eq, ih herror, Bool.true_or]⟩

def nestedErrors (fields : List FieldDef) : Bool :=
  (fields.map FieldDef.fields).any hasFieldErrors

theorem nestedErrors_iff {fields : List FieldDef} :
    nestedErrors fields = true ↔ NestedError fields := by
  simp [nestedErrors, NestedError, hasFieldErrors_iff]

/-- Every list of the form has its own class of messages. -/
structure Filed (fp : FieldProcessor) : Prop where
  error : ∀ m ∈ fp.errorMessages, m.clazz = .error
  other : ∀ m ∈ fp.noticeMessages ++ fp.okMessages ++ fp.invalidMessages, m.clazz ≠ .error

theorem hasErrors_iff {fp : FieldProcessor} (h : Filed fp) :
    hasErrors fp = true ↔ ErrorAttached fp := by
  unfold hasErrors ErrorAttached
  rw [← hasFieldErrors_iff]
  cases hmessages : fp.errorMessages with
  | nil =>
    have hnone : ¬ ∃ m ∈ fp.noticeMessages ++ fp.okMessages ++ [] ++ fp.invalidMessages,
        m.clazz = .error := by
      rintro ⟨m, hm, herror⟩
      rw [List.append_nil] at hm
      exact h.other m hm herror
    exact (or_iff_right hnone).symm
  | cons m messages =>
    have hm : m ∈ fp.errorMessages := hmessages ▸ List.mem_cons_self
    refine iff_of_true rfl (.inl ⟨m, by simp, h.error m hm⟩)

/-! ## What a call does to the errors -/

section Modify

variable {α : Type} {p c : α → Bool} {f : α → α}

theorem any_modify (h : ∀ a, p (f a) = (p a || c a)) :
    ∀ (l : List α) (i : Nat), (l.modify i f).any p = (l.any p || (l[i]?).any c) := by
  intro l
  induction l with
  | nil => intro i; simp
  | cons a l ih =>
    intro i
    cases i with
    | zero =>
      simp only [List.modify_zero_cons, List.any_cons, h, List.getElem?_cons_zero, Option.any_some]
      cases p a <;> cases c a <;> simp
    | succ i =>
      simp only [List.modify_succ_cons, List.any_cons, ih, List.getElem?_cons_succ, Bool.or_assoc]

end Modify

/-- Whether a path leads to a field. -/
def leadsTo : List Nat → List FieldDef → Bool
  | [], _ => false
  | [i], fields => (fields[i]?).isSome
  | i :: path, fields => (fields[i]?).any fun field => leadsTo path field.fields

variable {clazz : MessageType} {content : String}

theorem fieldHasErrors_addFieldMessage (field : FieldDef) :
    fieldHasErrors (addFieldMessage clazz content field) =
      (fieldHasErrors field || clazz == .error) := by
  obtain ⟨name, binding, messages, fields⟩ := field
  cases messages with
  | none =>
    simp [fieldHasErrors_eq, addFieldMessage, FieldDef.setMessages, FieldDef.messages,
      FieldDef.fields, ownError]
  | some messages =>
    simp [fieldHasErrors_eq, addFieldMessage, FieldDef.setMessages, FieldDef.messages,
      FieldDef.fields, ownError, Bool.or_assoc]

theorem fieldHasErrors_mapFields {f : List FieldDef → List FieldDef} {c : List FieldDef → Bool}
    (h : ∀ fields, hasFieldErrors (f fields) = (hasFieldErrors fields || c fields)) (field : FieldDef) :
    fieldHasErrors (field.mapFields f) = (fieldHasErrors field || c field.fields) := by
  obtain ⟨name, binding, messages, fields⟩ := field
  simp only [fieldHasErrors_eq, FieldDef.mapFields, FieldDef.fields, FieldDef.messages, h]
  cases hasFieldErrors fields <;> cases c fields <;> simp

theorem hasFieldErrors_modifyAt : ∀ (path : List Nat) (fields : List FieldDef),
    hasFieldErrors (modifyAt (addFieldMessage clazz content) path fields) =
      (hasFieldErrors fields || (clazz == .error && leadsTo path fields)) := by
  intro path
  induction path with
  | nil => intro fields; simp [modifyAt, leadsTo]
  | cons i path ih =>
    intro fields
    cases path with
    | nil =>
      rw [modifyAt, hasFieldErrors_eq, any_modify fieldHasErrors_addFieldMessage, leadsTo,
        hasFieldErrors_eq]
      cases fields[i]? <;> simp
    | cons j path =>
      rw [modifyAt, hasFieldErrors_eq, any_modify (fieldHasErrors_mapFields ih), leadsTo,
        hasFieldErrors_eq]
      · cases fields[i]? <;> simp
      · simp
      · simp

/-- What a call that adds an error to a field inside of another one does. -/
def flagsNested (fields : List FieldDef) : Call → Bool
  | .addFieldMessage path clazz _ => clazz == .error && leadsTo path fields && 2 ≤ path.length
  | _ => false

theorem nestedErrors_modifyAt (path : List Nat) (fields : List FieldDef) :
    nestedErrors (modifyAt (addFieldMessage clazz content) path fields) =
      (nestedErrors fields || (clazz == .error && leadsTo path fields && 2 ≤ path.length)) := by
  have hfields : ∀ field, (addFieldMessage clazz content field).fields = field.fields := by
    rintro ⟨name, binding, messages, fields⟩
    rfl
  have hmap : ∀ (f : List FieldDef → List FieldDef) (field : FieldDef),
      (field.mapFields f).fields = f field.fields := by
    rintro f ⟨name, binding, messages, fields⟩
    rfl
  unfold nestedErrors
  simp only [List.any_map]
  match path with
  | [] => simp [modifyAt, leadsTo]
  | [i] =>
    rw [modifyAt, any_modify (c := fun _ => false) (by simp [hfields])]
    cases fields[i]? <;> simp
  | i :: j :: path =>
    rw [modifyAt, any_modify (c := fun field => clazz == .error && leadsTo (j :: path) field.fields)
      (by simp [hmap, hasFieldErrors_modifyAt])]
    · rw [leadsTo]
      · cases fields[i]? <;> simp
      · simp
    · simp

/-! ## What clearing does -/

theorem fields_clearField (field : FieldDef) : (clearField field).fields = field.fields := by
  obtain ⟨name, binding, messages, fields⟩ := field
  rfl

theorem nestedErrors_congr {fields fields' : List FieldDef}
    (h : fields.map FieldDef.fields = fields'.map FieldDef.fields) :
    nestedErrors fields = nestedErrors fields' := by
  rw [nestedErrors, nestedErrors, h]

theorem map_fields_clearBinding (binding : String) (fields : List FieldDef) :
    (clearBinding binding fields).map FieldDef.fields = fields.map FieldDef.fields := by
  induction fields with
  | nil => rfl
  | cons field fields ih =>
    rw [clearBinding]
    split
    · rw [List.map_cons, List.map_cons, ih]
    · split
      · rw [List.map_cons, List.map_cons, fields_clearField]
      · rfl

theorem map_fields_clearBindings (bindings : List String) (fields : List FieldDef) :
    (bindings.foldl (fun fields binding => clearBinding binding fields) fields).map
      FieldDef.fields = fields.map FieldDef.fields := by
  induction bindings generalizing fields with
  | nil => rfl
  | cons binding bindings ih =>
    rw [List.foldl_cons, ih, map_fields_clearBinding]

/-- What is left once everything on top is cleared. -/
theorem hasErrors_clear (fp : FieldProcessor) :
    hasErrors (clearMessages (clearFieldMessages fp)) = nestedErrors fp.fields := by
  have hclear : ∀ field : FieldDef, fieldHasErrors (clearField field) = hasFieldErrors field.fields := by
    rintro ⟨name, binding, messages, fields⟩
    rw [fieldHasErrors_eq]
    cases messages <;>
      simp [clearField, FieldDef.setMessages, FieldDef.messages, FieldDef.fields, ownError]
  have hempty : hasErrors (clearMessages (clearFieldMessages fp)) =
      hasFieldErrors (fp.fields.map clearField) := rfl
  rw [hempty, hasFieldErrors_eq, nestedErrors, List.any_map, List.any_map]
  congr 1
  funext field
  exact hclear field

theorem nestedErrors_perform (fp : FieldProcessor) (call : Call) :
    nestedErrors (perform fp call).fields =
      (nestedErrors fp.fields || flagsNested fp.fields call) := by
  cases call with
  | addMessage clazz content => cases clazz <;> simp [perform, addMessage, flagsNested]
  | addFieldMessage path clazz content => exact nestedErrors_modifyAt path fp.fields
  | clearMessages => simp [perform, clearMessages, flagsNested]
  | clearFieldMessages =>
    have hflags : flagsNested fp.fields .clearFieldMessages = false := rfl
    rw [hflags, Bool.or_false]
    refine nestedErrors_congr ?_
    simp [perform, clearFieldMessages, Function.comp_def, fields_clearField]
  | clearFieldMessagesOf bindings =>
    have hflags : flagsNested fp.fields (.clearFieldMessagesOf bindings) = false := rfl
    rw [hflags, Bool.or_false]
    exact nestedErrors_congr (map_fields_clearBindings bindings fp.fields)

/-! ## Whole runs -/

def create (reference : String) (fields : List FieldDef) : FieldProcessor := { reference, fields }

theorem filed_perform {fp : FieldProcessor} (h : Filed fp) (call : Call) :
    Filed (perform fp call) := by
  have hother := h.other
  simp only [List.mem_append] at hother
  cases call with
  | addMessage clazz content =>
    constructor
    · cases clazz <;> simp only [perform, addMessage, List.mem_append, List.mem_singleton] <;>
        grind [Filed]
    · cases clazz <;> simp only [perform, addMessage, List.mem_append, List.mem_singleton] <;>
        grind
  | addFieldMessage path clazz content => exact ⟨h.error, h.other⟩
  | clearMessages => exact ⟨by simp [perform, clearMessages], by simp [perform, clearMessages]⟩
  | clearFieldMessages => exact ⟨h.error, h.other⟩
  | clearFieldMessagesOf bindings => exact ⟨h.error, h.other⟩

theorem filed_run (reference : String) (fields : List FieldDef) (calls : List Call) :
    Filed (calls.foldl perform (create reference fields)) := by
  have hcreate : Filed (create reference fields) := ⟨by simp [create], by simp [create]⟩
  induction calls using List.reverseRecOn with
  | nil => exact hcreate
  | append_singleton calls call ih =>
    rw [List.foldl_append]
    exact filed_perform ih call

/-- The answer is right, and nothing is left of the errors once the form is cleared. -/
structure Clears (fp : FieldProcessor) : Prop where
  answers : hasErrors fp = true ↔ ErrorAttached fp
  clean : ¬ ErrorAttached (clearMessages (clearFieldMessages fp))

def Unnested (fp : FieldProcessor) : Prop := nestedErrors fp.fields = false

theorem unnested_perform (fp : FieldProcessor) (call : Call) (h : Unnested fp) :
    Unnested (perform fp call) ↔ flagsNested fp.fields call = false := by
  unfold Unnested at h ⊢
  rw [nestedErrors_perform, h, Bool.false_or]

theorem clears_iff_not_nested {fp : FieldProcessor} (h : Filed fp) :
    Clears fp ↔ Unnested fp := by
  have hclear : Filed (clearMessages (clearFieldMessages fp)) :=
    filed_perform (filed_perform h .clearFieldMessages) .clearMessages
  constructor
  · intro hclears
    have hclean := hclears.clean
    rw [← hasErrors_iff hclear, hasErrors_clear] at hclean
    exact Bool.not_eq_true _ |>.mp hclean
  · intro hnested
    refine ⟨hasErrors_iff h, ?_⟩
    rw [← hasErrors_iff hclear, hasErrors_clear]
    exact Bool.not_eq_true _ |>.mpr hnested

/-- In every run: no field inside of another one has an error at first, and no call adds one. -/
theorem clears_iff (reference : String) (fields : List FieldDef) (calls : List Call) :
    (∀ pre post, calls = pre ++ post → Clears (pre.foldl perform (create reference fields))) ↔
      ¬ NestedError fields ∧ ∀ pre call post, calls = pre ++ call :: post →
        flagsNested (pre.foldl perform (create reference fields)).fields call = false := by
  have hall : ∀ pre : List Call, Clears (pre.foldl perform (create reference fields)) ↔
      Unnested (pre.foldl perform (create reference fields)) :=
    fun pre => clears_iff_not_nested (filed_run reference fields pre)
  simp only [hall, ← nestedErrors_iff, Bool.not_eq_true]
  constructor
  · intro h
    have hinit : Unnested (create reference fields) := h [] calls rfl
    exact ⟨hinit, (Machine.foldl_inv_iff hinit unnested_perform calls).mp h⟩
  · rintro ⟨hinit, hcalls⟩
    have hinit : Unnested (create reference fields) := hinit
    exact (Machine.foldl_inv_iff hinit unnested_perform calls).mpr hcalls

def street : FieldDef := .mk "street" "person.address.street" none []

def address : FieldDef := .mk "address" "person.address" none [street]

/-- An error at the street of an address survives both calls, and the form is never clean again. -/
theorem nested_error_survives :
    hasErrors (clearMessages (clearFieldMessages
      ([.addFieldMessage [0, 0] .error "too long"].foldl perform (create "update" [address])))) =
        true := by
  decide +kernel

end Fields
end AppNG
