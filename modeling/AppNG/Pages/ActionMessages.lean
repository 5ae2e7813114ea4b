import AppNG.Fields.Messages
import AppNG.Pages.StructureExact
import Mathlib.Data.List.Count

/-!
# Pages.ActionMessages

`CallableAction.perform` and the messages of the session.

A datasource adds its messages to the session. `retrieveData` finds them again as the difference
of the messages before and after, and moves them to the action. The messages of the action itself
stay in the session, for the page that is shown next; if that is the page of the action,
everything in the session is moved to the action.

* `retrieveData_ok`: of the session, only what the datasource added is moved.
* `perform_messages`: where all the messages are in the end.
* `perform_agrees`: messages aside, this is `CallableAction.perform` of `Pages.Elements`.
-/

namespace AppNG
namespace Pages
namespace ActionMessages

open Fields (Message MessageType FieldProcessor)

/-- `CollectionUtils.disjunction`, which does not promise any order. -/
structure Disjunction (α : Type) [DecidableEq α] where
  disjunction : List α → List α → List α
  count_disjunction : ∀ a b x, (disjunction a b).count x =
    max (a.count x) (b.count x) - min (a.count x) (b.count x)

theorem Disjunction.append {α : Type} [DecidableEq α] (d : Disjunction α) (a b : List α) :
    (d.disjunction a (a ++ b)).Perm b := by
  rw [List.perm_iff_count]
  intro x
  rw [d.count_disjunction, List.count_append]
  omega

/-! ## The session -/

/-- A message that was created. Two of them are never equal, whatever they say. -/
structure SessionMessage where
  id : Nat
  message : Message
  deriving DecidableEq, Repr

/-- The attribute of the session, and how many messages there have been so far. -/
structure Session where
  created : Nat
  stored : Option (List SessionMessage)
  known : ∀ m ∈ stored.getD [], m.id < created

def create (created : Nat) (messages : List Message) : List SessionMessage :=
  (messages.zipIdx created).map fun p => ⟨p.2, p.1⟩

theorem create_message (created : Nat) (messages : List Message) :
    (create created messages).map (·.message) = messages := by
  rw [create, List.map_map]
  exact List.zipIdx_map_fst created messages

theorem mem_create {created : Nat} {messages : List Message} {m : SessionMessage}
    (h : m ∈ create created messages) : created ≤ m.id ∧ m.id < created + messages.length := by
  obtain ⟨p, hp, rfl⟩ := List.mem_map.mp h
  obtain ⟨hle, hlt, _⟩ := List.mem_zipIdx hp
  exact ⟨hle, hlt⟩

namespace Session

def messages (s : Session) : List SessionMessage := s.stored.getD []

/-- `ElementHelper.addMessages` -/
def addMessages (s : Session) (messages : List Message) : Session where
  created := s.created + messages.length
  stored :=
    if messages.isEmpty then s.stored else some (s.messages ++ create s.created messages)
  known := by
    intro m hm
    split at hm
    · exact Nat.lt_add_right _ (s.known m hm)
    · rcases List.mem_append.mp hm with hm | hm
      · exact Nat.lt_add_right _ (s.known m hm)
      · exact (mem_create hm).2

/-- `removeAll` on the list in the session, and no attribute if the list is empty then. -/
def removeAll (s : Session) (moved : List SessionMessage) : Session where
  created := s.created
  stored :=
    let rest := s.messages.filter (· ∉ moved)
    if rest.isEmpty then none else some rest
  known := by
    intro m hm
    simp only at hm
    split at hm
    · cases hm
    · exact s.known m (List.mem_of_mem_filter hm)

def removeMessages (s : Session) : Session where
  created := s.created
  stored := none
  known := by simp

end Session

/-! ## The code -/

/-- What `retrieveData` meets at the datasource of the action. `added` is in the session already
when an exception is thrown. -/
inductive Retrieval where
  | notIncluded
  | raised (f : Failure) (added : List Message)
  | returned (messages : List Message)

inductive Execution where
  | noBean
  | raised (f : Failure) (added : List Message)
  | performed (fp : FieldProcessor)

/-- All that `perform` depends on besides the action. -/
structure Beans where
  disjunction : Disjunction SessionMessage
  retrieve : Moment → Retrieval
  execution : Execution
  outputPrefix : Option String

structure State where
  session : Session
  actionMessages : Option (List SessionMessage)
  executed : Bool := false
  redirects : List String := []

variable (b : Beans)

def retrieveData (moment : Moment) (st : State) : State × Except Failure Bool :=
  match b.retrieve moment with
  | .notIncluded => (st, .ok true)
  | .raised f added => ({ st with session := st.session.addMessages added }, .error f)
  | .returned messages =>
    let before := st.session.messages
    let session := st.session.addMessages messages
    let after := session.messages
    let dataSourceMessages := b.disjunction.disjunction before after
    if dataSourceMessages.isEmpty then ({ st with session }, .ok true)
    else
      ({ st with session := session.removeAll dataSourceMessages
                 actionMessages := some dataSourceMessages },
        .ok (!dataSourceMessages.any fun m => m.message.clazz == .error))

/-- `FieldProcessorImpl.getMessages` -/
def getMessages (fp : FieldProcessor) : List Message :=
  fp.noticeMessages ++ fp.okMessages ++ fp.errorMessages ++ fp.invalidMessages

def execute (st : State) : State × Except Failure Bool :=
  match b.execution with
  | .noBean => (st, .ok false)
  | .raised f added => ({ st with session := st.session.addMessages added }, .error f)
  | .performed fp =>
    ({ st with session := st.session.addMessages (getMessages fp) }, .ok (Fields.hasErrors fp))

def forceForward (ca : CallableAction) : Bool := ca.onSuccess.isSome && ca.ref.forceForward

def redirectTarget (ca : CallableAction) : String :=
  b.outputPrefix.getD "" ++ ca.onSuccess.getD ""

def performExecute (ca : CallableAction) (st : State) : State × Except Failure CallableAction :=
  if ca.doExecute then
    match retrieveData b .beforeExecute st with
    | (st, .error f) => (st, .error f)
    | (st, .ok false) => (st, .ok { ca with doExecute := false })
    | (st, .ok true) =>
      match execute b { st with executed := true } with
      | (st, .error f) => (st, .error f)
      | (st, .ok hasErrors) =>
        let ca := { ca with hasErrors }
        if ca.doForward || forceForward ca then
          ({ st with redirects := st.redirects ++ [redirectTarget b ca] }, .ok ca)
        else (st, .ok ca)
  else (st, .ok ca)

/-- The session's messages go in front of those the action has. -/
def showMessages (st : State) : State :=
  match st.session.stored with
  | none => st
  | some messages =>
    { st with session := st.session.removeMessages
              actionMessages := some (messages ++ st.actionMessages.getD []) }

def perform (isSectionHidden : Bool) (ca : CallableAction) (st : State) :
    State × Except Failure CallableAction :=
  match performExecute b ca st with
  | (st, .error f) => (st, .error f)
  | (st, .ok ca) =>
    if ca.doInclude && !(ca.doExecute && ca.doForward) then
      match retrieveData b .forDisplay st with
      | (st, .error f) => (st, .error f)
      | (st, .ok _) => (if isSectionHidden then st else showMessages st, .ok ca)
    else (st, .ok ca)

/-! ## One retrieval -/

def Retrieval.messages : Retrieval → List Message
  | .notIncluded => []
  | .raised _ added => added
  | .returned messages => messages

/-- Whether the data is ok, if the retrieval gets that far. -/
def Retrieval.dataOk : Retrieval → Except Failure Bool
  | .notIncluded => .ok true
  | .raised f _ => .error f
  | .returned messages => .ok (!messages.any fun m => m.clazz == .error)

namespace Session

@[simp] theorem messages_addMessages (s : Session) (messages : List Message) :
    (s.addMessages messages).messages = s.messages ++ create s.created messages := by
  cases messages with
  | nil => simp [Session.messages, addMessages, create]
  | cons m messages => simp [Session.messages, addMessages]

@[simp] theorem messages_removeAll (s : Session) (moved : List SessionMessage) :
    (s.removeAll moved).messages = s.messages.filter (· ∉ moved) := by
  unfold removeAll
  rw [Session.messages]
  simp only
  split
  · rename_i h
    rw [List.isEmpty_iff.mp h]
    rfl
  · rfl

/-- Messages that are new are taken out again, and none besides. -/
theorem removeAll_created (s : Session) {messages : List Message} {moved : List SessionMessage}
    (h : moved.Perm (create s.created messages)) :
    ((s.addMessages messages).removeAll moved).messages = s.messages := by
  rw [messages_removeAll, messages_addMessages, List.filter_append]
  have hold : s.messages.filter (· ∉ moved) = s.messages := by
    rw [List.filter_eq_self]
    intro m hm
    have hid := s.known m hm
    have hnew : m ∉ moved := fun hmem => by
      have := (mem_create (h.mem_iff.mp hmem)).1
      omega
    simpa using hnew
  have hnew : (create s.created messages).filter (· ∉ moved) = [] := by
    rw [List.filter_eq_nil_iff]
    intro m hm
    simpa using h.mem_iff.mpr hm
  rw [hold, hnew, List.append_nil]

end Session

/-- The session has got these messages in addition, at its end. -/
def Extends (s s' : Session) (messages : List Message) : Prop :=
  ∃ new, s'.messages = s.messages ++ new ∧ new.map (·.message) = messages

theorem Extends.refl (s : Session) : Extends s s [] := ⟨[], by simp, rfl⟩

theorem extends_addMessages (s : Session) (messages : List Message) :
    Extends s (s.addMessages messages) messages :=
  ⟨_, s.messages_addMessages messages, create_message _ _⟩

/-- The action has got these messages in place of its former ones, if there are any. -/
def Moved (messages : List Message) (old new : Option (List SessionMessage)) : Prop :=
  if messages = [] then new = old
  else ∃ moved, new = some moved ∧ (moved.map (·.message)).Perm messages

section Steps

variable {b} {moment : Moment} {st st' : State}

theorem any_created {created : Nat} {messages : List Message} {moved : List SessionMessage}
    (h : moved.Perm (create created messages)) (p : Message → Bool) :
    (moved.any fun m => p m.message) = messages.any p := by
  have hmap : moved.any (fun m => p m.message) = (moved.map (·.message)).any p := by
    rw [List.any_map]; rfl
  have hperm : (moved.map (·.message)).Perm messages := by
    simpa [create_message] using h.map (·.message)
  rw [hmap, Bool.eq_iff_iff, List.any_eq_true, List.any_eq_true]
  simp only [hperm.mem_iff]

/-- A retrieval that returns: the difference is what the datasource added. -/
theorem retrieveData_returned (st : State) {messages : List Message}
    (h : b.retrieve moment = .returned messages) :
    ∃ moved : List SessionMessage, moved.Perm (create st.session.created messages) ∧
      retrieveData b moment st =
        if moved.isEmpty then
          ({ st with session := st.session.addMessages messages }, .ok true)
        else
          ({ st with session := (st.session.addMessages messages).removeAll moved
                     actionMessages := some moved },
            .ok (!messages.any fun m => m.clazz == .error)) := by
  refine ⟨b.disjunction.disjunction st.session.messages
    (st.session.addMessages messages).messages, ?_, ?_⟩
  · rw [Session.messages_addMessages]
    exact b.disjunction.append _ _
  · have hany := any_created (b.disjunction.append st.session.messages
      (create st.session.created messages)) (fun m => m.clazz == .error)
    rw [← Session.messages_addMessages] at hany
    unfold retrieveData
    rw [h]
    simp only [hany]

theorem create_eq_nil {created : Nat} {messages : List Message} :
    create created messages = [] ↔ messages = [] := by
  simp [create]

theorem retrieveData_result (b : Beans) (moment : Moment) (st : State) :
    (retrieveData b moment st).2 = (b.retrieve moment).dataOk := by
  cases h : b.retrieve moment with
  | notIncluded => simp only [retrieveData, h, Retrieval.dataOk]
  | raised f added => simp only [retrieveData, h, Retrieval.dataOk]
  | returned messages =>
    obtain ⟨moved, hmoved, heq⟩ := retrieveData_returned st h
    rw [heq]
    split
    · rename_i hempty
      rw [List.isEmpty_iff.mp hempty] at hmoved
      rw [create_eq_nil.mp hmoved.nil_eq.symm]
      rfl
    · rfl

theorem retrieveData_ok {dataOk : Bool} (h : retrieveData b moment st = (st', .ok dataOk)) :
    st'.session.messages = st.session.messages ∧
      Moved (b.retrieve moment).messages st.actionMessages st'.actionMessages ∧
      st'.executed = st.executed ∧ st'.redirects = st.redirects := by
  cases hretrieve : b.retrieve moment with
  | notIncluded =>
    simp only [retrieveData, hretrieve] at h
    cases h
    exact ⟨rfl, rfl, rfl, rfl⟩
  | raised f added =>
    simp only [retrieveData, hretrieve] at h
    cases h
  | returned messages =>
    obtain ⟨moved, hmoved, heq⟩ := retrieveData_returned st hretrieve
    rw [heq] at h
    split at h
    · rename_i hempty
      cases h
      rw [List.isEmpty_iff.mp hempty] at hmoved
      have hnil : messages = [] := create_eq_nil.mp hmoved.nil_eq.symm
      subst hnil
      exact ⟨rfl, rfl, rfl, rfl⟩
    · rename_i hempty
      cases h
      have hnil : messages ≠ [] := fun hnil => by
        subst hnil
        exact hempty (List.isEmpty_iff.mpr hmoved.eq_nil)
      refine ⟨st.session.removeAll_created hmoved, ?_, rfl, rfl⟩
      show Moved messages st.actionMessages (some moved)
      rw [Moved, if_neg hnil]
      exact ⟨moved, rfl, by simpa [create_message] using hmoved.map (·.message)⟩

theorem retrieveData_error {f : Failure} (h : retrieveData b moment st = (st', .error f)) :
    Extends st.session st'.session (b.retrieve moment).messages ∧
      st'.executed = st.executed ∧ st'.redirects = st.redirects := by
  cases hretrieve : b.retrieve moment with
  | notIncluded =>
    simp only [retrieveData, hretrieve] at h
    cases h
  | raised f added =>
    simp only [retrieveData, hretrieve] at h
    cases h
    exact ⟨extends_addMessages _ _, rfl, rfl⟩
  | returned messages =>
    obtain ⟨moved, _, heq⟩ := retrieveData_returned st hretrieve
    rw [heq] at h
    split at h <;> cases h

end Steps

/-! ## The whole -/

def Execution.messages : Execution → List Message
  | .noBean => []
  | .raised _ added => added
  | .performed fp => getMessages fp

def Execution.result : Execution → Except Failure Bool
  | .noBean => .ok false
  | .raised f _ => .error f
  | .performed fp => .ok (Fields.hasErrors fp)

/-- The action wants to be executed, and its datasource brings no error. -/
def executes (ca : CallableAction) : Bool :=
  ca.doExecute && match (b.retrieve .beforeExecute).dataOk with
    | .ok dataOk => dataOk
    | .error _ => false

/-- The action is executed without errors, and there is a page to go on to. -/
def forwards (ca : CallableAction) : Bool :=
  executes b ca && ca.onSuccess.isSome && match b.execution.result with
    | .ok hasErrors => !hasErrors
    | .error _ => false

/-- The action is executed with errors, and goes on nevertheless. -/
def forced (ca : CallableAction) : Bool :=
  executes b ca && ca.onSuccess.isSome && ca.ref.forceForward && match b.execution.result with
    | .ok hasErrors => hasErrors
    | .error _ => false

/-- What the action leaves in the session. -/
def produced (ca : CallableAction) : List Message :=
  if executes b ca then b.execution.messages else []

section Run

variable {b} {ca ca' : CallableAction} {st st' : State} {r : Except Failure Bool}

/-- What the first half of `perform` did when it returns. -/
structure Executed (b : Beans) (ca : CallableAction) (st st' : State) (ca' : CallableAction) :
    Prop where
  session : Extends st.session st'.session (produced b ca)
  executed : st'.executed = executes b ca
  redirects : st'.redirects = st.redirects ++
    if forwards b ca || forced b ca then [redirectTarget b ca] else []
  moved : Moved (if ca.doExecute then (b.retrieve .beforeExecute).messages else [])
    st.actionMessages st'.actionMessages
  doInclude : ca'.doInclude = ca.doInclude
  doForward : (ca'.doExecute && ca'.doForward) = forwards b ca

theorem execute_result (b : Beans) (st : State) : (execute b st).2 = b.execution.result := by
  unfold execute
  cases b.execution <;> rfl

theorem execute_state (h : execute b st = (st', r)) :
    Extends st.session st'.session b.execution.messages ∧
      st'.actionMessages = st.actionMessages ∧ st'.executed = st.executed ∧
      st'.redirects = st.redirects := by
  unfold execute at h
  cases hexecution : b.execution with
  | noBean =>
    rw [hexecution] at h
    cases h
    exact ⟨.refl _, rfl, rfl, rfl⟩
  | raised f added =>
    rw [hexecution] at h
    cases h
    exact ⟨extends_addMessages _ _, rfl, rfl, rfl⟩
  | performed fp =>
    rw [hexecution] at h
    cases h
    exact ⟨extends_addMessages _ _, rfl, rfl, rfl⟩

/-- Executed, and without an exception: the two ways of going on. -/
theorem redirects_iff {hasErrors : Bool} (hexecutes : executes b ca = true)
    (hresult : b.execution.result = .ok hasErrors) :
    ({ ca with hasErrors }.doForward || forceForward { ca with hasErrors }) =
      (forwards b ca || forced b ca) := by
  simp only [forwards, forced, hexecutes, hresult, CallableAction.doForward, forceForward]
  cases hasErrors <;> cases ca.onSuccess.isSome <;> cases ca.ref.forceForward <;> rfl

/-- All that the first half can do. -/
inductive Half (b : Beans) (ca : CallableAction) (st : State) :
    State → Except Failure CallableAction → Prop where
  | idle : ca.doExecute = false → Half b ca st st (.ok ca)
  | failed {st₁ : State} {f : Failure} : ca.doExecute = true →
      retrieveData b .beforeExecute st = (st₁, .error f) → Half b ca st st₁ (.error f)
  | refused {st₁ : State} : ca.doExecute = true →
      retrieveData b .beforeExecute st = (st₁, .ok false) →
        Half b ca st st₁ (.ok { ca with doExecute := false })
  | raised {st₁ st₂ : State} {f : Failure} : ca.doExecute = true →
      retrieveData b .beforeExecute st = (st₁, .ok true) →
      execute b { st₁ with executed := true } = (st₂, .error f) → Half b ca st st₂ (.error f)
  | performed {st₁ st₂ : State} {hasErrors : Bool} : ca.doExecute = true →
      retrieveData b .beforeExecute st = (st₁, .ok true) →
      execute b { st₁ with executed := true } = (st₂, .ok hasErrors) →
        Half b ca st
          { st₂ with
            redirects := st₂.redirects ++
              (if forwards b ca || forced b ca then [redirectTarget b ca] else []) }
          (.ok { ca with hasErrors })

theorem executes_iff : executes b ca = true ↔
    ca.doExecute = true ∧ (b.retrieve .beforeExecute).dataOk = .ok true := by
  unfold executes
  rw [Bool.and_eq_true]
  refine and_congr_right fun _ => ?_
  cases (b.retrieve .beforeExecute).dataOk with
  | error f => simp
  | ok dataOk => simp

theorem executes_of_ok (hdo : ca.doExecute = true)
    (h : retrieveData b .beforeExecute st = (st', .ok true)) : executes b ca = true := by
  have hresult := retrieveData_result b .beforeExecute st
  rw [h] at hresult
  exact executes_iff.mpr ⟨hdo, hresult.symm⟩

theorem not_executes_of_ne (h : retrieveData b .beforeExecute st = (st', r)) (hr : r ≠ .ok true) :
    executes b ca = false := by
  have hresult := retrieveData_result b .beforeExecute st
  rw [h] at hresult
  rw [← Bool.not_eq_true, executes_iff]
  exact fun hexecutes => hr (hresult.trans hexecutes.2)

theorem result_of_execute (h : execute b st = (st', r)) : b.execution.result = r := by
  rw [← execute_result b st, h]

theorem performExecute_half (b : Beans) (ca : CallableAction) (st : State) :
    Half b ca st (performExecute b ca st).1 (performExecute b ca st).2 := by
  unfold performExecute
  by_cases hdo : ca.doExecute = true
  · rw [if_pos hdo]
    cases hretrieve : retrieveData b .beforeExecute st with
    | mk st₁ r =>
      cases r with
      | error f => exact .failed hdo hretrieve
      | ok dataOk =>
        cases dataOk with
        | false => exact .refused hdo hretrieve
        | true =>
          simp only
          cases hexecute : execute b { st₁ with executed := true } with
          | mk st₂ r =>
            cases r with
            | error f => exact .raised hdo hretrieve hexecute
            | ok hasErrors =>
              have hhalf := Half.performed hdo hretrieve hexecute
              have hgoes := redirects_iff (executes_of_ok hdo hretrieve) (result_of_execute hexecute)
              simp only [hgoes]
              split
              · rename_i hredirects
                rw [if_pos hredirects] at hhalf
                exact hhalf
              · rename_i hstays
                rw [if_neg hstays, List.append_nil] at hhalf
                exact hhalf
  · rw [if_neg hdo]
    exact .idle (by simpa using hdo)

theorem not_executes (h : executes b ca = false) :
    produced b ca = [] ∧ forwards b ca = false ∧ forced b ca = false := by
  simp [produced, forwards, forced, h]

theorem Half.executed (h : Half b ca st st' (.ok ca')) (hst : st.executed = false) :
    Executed b ca st st' ca' := by
  cases h with
  | idle hdo =>
    have hexecutes : executes b ca = false := by simp [executes, hdo]
    obtain ⟨hproduced, hforwards, hforced⟩ := not_executes hexecutes
    exact ⟨by rw [hproduced]; exact .refl _, by rw [hexecutes, hst], by simp [hforwards, hforced],
      by rw [hdo]; rfl, rfl, by simp [hforwards, hdo]⟩
  | refused hdo hretrieve =>
    have hexecutes : executes b ca = false := not_executes_of_ne hretrieve (by simp)
    obtain ⟨hproduced, hforwards, hforced⟩ := not_executes hexecutes
    obtain ⟨hsession, hmoved, hexecuted, hredirects⟩ := retrieveData_ok hretrieve
    exact ⟨⟨[], by simpa using hsession, by rw [hproduced]; rfl⟩,
      by rw [hexecutes, hexecuted, hst], by simp [hforwards, hforced, hredirects],
      by rw [if_pos hdo]; exact hmoved, rfl, by simp [hforwards]⟩
  | @performed st₁ st₂ hasErrors hdo hretrieve hexecute =>
    have hexecutes : executes b ca = true := executes_of_ok hdo hretrieve
    have hresult : b.execution.result = .ok hasErrors := result_of_execute hexecute
    obtain ⟨hsession, hmoved, _, hredirects⟩ := retrieveData_ok hretrieve
    obtain ⟨⟨new, hnew, hcontent⟩, hactions, hexecuted, hredirects'⟩ := execute_state hexecute
    refine ⟨⟨new, ?_, ?_⟩, ?_, ?_, ?_, rfl, ?_⟩
    · rw [hnew, ← hsession]
    · rw [produced, if_pos hexecutes, hcontent]
    · rw [hexecutes]
      exact hexecuted
    · rw [hredirects', hredirects]
    · rw [if_pos hdo, hactions]
      exact hmoved
    · simp only [hdo, forwards, hexecutes, hresult, CallableAction.doForward, Bool.true_and,
        Bool.and_comm]

/-- After an exception the session has what it had before, and perhaps more. -/
theorem Half.thrown {f : Failure} (h : Half b ca st st' (.error f)) (hst : st.executed = false) :
    st.session.messages <+: st'.session.messages ∧ st'.executed = executes b ca ∧
      st'.redirects = st.redirects ∧ forwards b ca = false ∧ forced b ca = false := by
  cases h with
  | failed hdo hretrieve =>
    have hexecutes : executes b ca = false := not_executes_of_ne hretrieve (by simp)
    obtain ⟨⟨new, hnew, _⟩, hexecuted, hredirects⟩ := retrieveData_error hretrieve
    exact ⟨⟨new, hnew.symm⟩, by rw [hexecutes, hexecuted, hst], hredirects,
      (not_executes hexecutes).2⟩
  | raised hdo hretrieve hexecute =>
    have hresult := result_of_execute hexecute
    obtain ⟨hsession, _, _, hredirects⟩ := retrieveData_ok hretrieve
    obtain ⟨⟨new, hnew, _⟩, _, hexecuted, hredirects'⟩ := execute_state hexecute
    exact ⟨⟨new, by rw [hnew, hsession]⟩, by rw [executes_of_ok hdo hretrieve, hexecuted],
      hredirects'.trans hredirects, by simp [forwards, hresult], by simp [forced, hresult]⟩

end Run

/-- The action is shown on the page, which is not left. -/
def displays (ca : CallableAction) : Bool := ca.doInclude && !forwards b ca

/-- The messages of the action's own datasource. It is asked up to two times, and the second time
counts if it brought messages then. -/
def brought (ca : CallableAction) : List Message :=
  let first := if ca.doExecute then (b.retrieve .beforeExecute).messages else []
  let second := if displays b ca then (b.retrieve .forDisplay).messages else []
  if second.isEmpty then first else second

/-- Where the messages are after `perform`. Nothing is said of an action that is shown although
its forward was forced. -/
structure Performed (isSectionHidden : Bool) (ca : CallableAction) (session : Session)
    (actionMessages : Option (List SessionMessage)) (st : State)
    (result : Except Failure CallableAction) : Prop where
  executed : st.executed = executes b ca
  redirects : st.redirects =
    if forwards b ca || forced b ca then [redirectTarget b ca] else []
  thrown : ∀ f, result = .error f → session.messages <+: st.session.messages
  kept : ∀ ca', result = .ok ca' → (displays b ca && !isSectionHidden) = false →
    Extends session st.session (produced b ca) ∧
      Moved (brought b ca) actionMessages st.actionMessages
  shown : ∀ ca', result = .ok ca' → (displays b ca && !isSectionHidden) = true →
    forced b ca = false →
      st.session.messages = [] ∧ ∃ new own, new.map (·.message) = produced b ca ∧
        Moved (brought b ca) actionMessages own ∧
        st.actionMessages.getD [] = session.messages ++ new ++ own.getD []

theorem Moved.trans {first second : List Message} {old mid new : Option (List SessionMessage)}
    (h₁ : Moved first old mid) (h₂ : Moved second mid new) :
    Moved (if second.isEmpty then first else second) old new := by
  by_cases hsecond : second = []
  · subst hsecond
    rw [Moved, if_pos rfl] at h₂
    rw [h₂]
    exact h₁
  · rw [if_neg (by simpa using hsecond)]
    rw [Moved, if_neg hsecond] at h₂ ⊢
    exact h₂

theorem showMessages_state (st : State) : (showMessages st).session.messages = [] ∧
    (showMessages st).actionMessages.getD [] = st.session.messages ++ st.actionMessages.getD [] ∧
    (showMessages st).executed = st.executed ∧ (showMessages st).redirects = st.redirects := by
  unfold showMessages Session.messages
  cases hstored : st.session.stored with
  | none => simp [hstored]
  | some messages => simp [Session.removeMessages]

section SecondHalf

variable {b} {ca ca₁ : CallableAction} {session : Session}
  {actionMessages : Option (List SessionMessage)} {st₁ st₂ : State}

theorem Executed.not_displayed (h : Executed b ca { session, actionMessages } st₁ ca₁)
    (isSectionHidden : Bool) (hdisplays : displays b ca = false) :
    Performed b isSectionHidden ca session actionMessages st₁ (.ok ca₁) := by
  have hbrought : brought b ca =
      if ca.doExecute then (b.retrieve .beforeExecute).messages else [] := by
    simp [brought, hdisplays]
  exact ⟨h.executed, h.redirects, fun _ hr => (nomatch hr),
    fun _ _ _ => ⟨h.session, hbrought ▸ h.moved⟩, fun _ _ hd => by simp [hdisplays] at hd⟩

theorem Executed.not_retrieved {f : Failure}
    (h : Executed b ca { session, actionMessages } st₁ ca₁) (isSectionHidden : Bool)
    (hretrieve : retrieveData b .forDisplay st₁ = (st₂, .error f)) :
    Performed b isSectionHidden ca session actionMessages st₂ (.error f) := by
  obtain ⟨new, hnew, _⟩ := h.session
  obtain ⟨⟨added, hadded, _⟩, hexecuted, hredirects⟩ := retrieveData_error hretrieve
  have hkeeps : session.messages <+: st₂.session.messages :=
    ⟨new ++ added, by rw [hadded, hnew, List.append_assoc]⟩
  exact ⟨hexecuted.trans h.executed, hredirects.trans h.redirects, fun _ _ => hkeeps,
    fun _ hr _ => (nomatch hr), fun _ hr _ _ => (nomatch hr)⟩

theorem Executed.displayed {dataOk : Bool}
    (h : Executed b ca { session, actionMessages } st₁ ca₁) (isSectionHidden : Bool)
    (hdisplays : displays b ca = true)
    (hretrieve : retrieveData b .forDisplay st₁ = (st₂, .ok dataOk)) :
    Performed b isSectionHidden ca session actionMessages
      (if isSectionHidden then st₂ else showMessages st₂) (.ok ca₁) := by
  obtain ⟨new, hnew, hcontent⟩ := h.session
  obtain ⟨hsession, hmoved, hexecuted, hredirects⟩ := retrieveData_ok hretrieve
  have hbrought : Moved (brought b ca) actionMessages st₂.actionMessages := by
    simpa [brought, hdisplays] using h.moved.trans hmoved
  have hsession : st₂.session.messages = session.messages ++ new := hsession.trans hnew
  have hexecuted : st₂.executed = executes b ca := hexecuted.trans h.executed
  have hredirects := hredirects.trans h.redirects
  cases isSectionHidden with
  | true =>
    exact ⟨hexecuted, hredirects, fun _ hr => (nomatch hr),
      fun _ _ _ => ⟨⟨new, hsession, hcontent⟩, hbrought⟩, fun _ _ hd => by simp at hd⟩
  | false =>
    simp only [Bool.false_eq_true, if_false]
    obtain ⟨hempty, hactions, hexecuted', hredirects'⟩ := showMessages_state st₂
    exact ⟨hexecuted'.trans hexecuted, hredirects'.trans hredirects, fun _ hr => (nomatch hr),
      fun _ _ hd => by simp [hdisplays] at hd,
      fun _ _ _ _ => ⟨hempty, new, st₂.actionMessages, hcontent, hbrought,
        by rw [hactions, hsession]⟩⟩

end SecondHalf

theorem perform_messages (isSectionHidden : Bool) (ca : CallableAction) (session : Session)
    (actionMessages : Option (List SessionMessage)) :
    Performed b isSectionHidden ca session actionMessages
      (perform b isSectionHidden ca { session, actionMessages }).1
      (perform b isSectionHidden ca { session, actionMessages }).2 := by
  unfold perform
  have hhalf := performExecute_half b ca { session, actionMessages }
  cases hfirst : performExecute b ca { session, actionMessages } with
  | mk st₁ r =>
    rw [hfirst] at hhalf
    simp only at hhalf
    cases r with
    | error f =>
      obtain ⟨hsession, hexecuted, hredirects, hforwards, hforced⟩ := hhalf.thrown rfl
      exact ⟨hexecuted, by simp [hredirects, hforwards, hforced], fun _ _ => hsession,
        fun _ h _ => (nomatch h), fun _ h _ _ => (nomatch h)⟩
    | ok ca₁ =>
      have hdone : Executed b ca { session, actionMessages } st₁ ca₁ := hhalf.executed rfl
      have hdisplays : (ca₁.doInclude && !(ca₁.doExecute && ca₁.doForward)) = displays b ca := by
        rw [hdone.doInclude, hdone.doForward, displays]
      simp only [hdisplays]
      cases hshown : displays b ca with
      | false => exact hdone.not_displayed isSectionHidden hshown
      | true =>
        simp only [if_true]
        cases hretrieve : retrieveData b .forDisplay st₁ with
        | mk st₂ r =>
          cases r with
          | error f => exact hdone.not_retrieved isSectionHidden hretrieve
          | ok dataOk => exact hdone.displayed isSectionHidden hshown hretrieve

/-! ## Without the messages -/

/-- The beans do for the request what is told here along with the messages. -/
structure Agrees (rq : Request) (ref : ActionRef) (action : Action) : Prop where
  retrieve : ∀ moment, Pages.retrieveData rq moment ref action = (b.retrieve moment).dataOk
  execution : Pages.execute rq action = b.execution.result

section Agreement

variable {b} {rq : Request} {ca : CallableAction} {action : Action}

theorem performExecute_agrees (h : Agrees b rq ca.ref action) (st : State) :
    (performExecute b ca st).2 = (Pages.performExecute rq ca action).2 := by
  have hdata := retrieveData_result b .beforeExecute st
  unfold performExecute Pages.performExecute
  rw [h.retrieve, h.execution, ← hdata]
  split
  · cases retrieveData b .beforeExecute st with
    | mk st₁ r =>
      cases r with
      | error f => rfl
      | ok dataOk =>
        cases dataOk with
        | false => rfl
        | true =>
          have hresult := execute_result b { st₁ with executed := true }
          simp only
          rw [← hresult]
          cases execute b { st₁ with executed := true } with
          | mk st₂ r =>
            cases r with
            | error f => rfl
            | ok hasErrors =>
              simp only
              split <;> rfl
  · rfl

/-- Messages aside, an action is performed as it is for the structure of a page. -/
theorem perform_agrees (haction : ca.action = some action) (h : Agrees b rq ca.ref action)
    (isSectionHidden : Bool) (st : State) :
    (perform b isSectionHidden ca st).2 = (ca.perform rq).2 := by
  have hhalf := performExecute_agrees h st
  unfold perform CallableAction.perform
  rw [haction]
  simp only
  cases hexecute : performExecute b ca st with
  | mk st₁ r =>
    cases hexecute' : Pages.performExecute rq ca action with
    | mk executed r' =>
      rw [hexecute, hexecute'] at hhalf
      simp only at hhalf
      subst hhalf
      cases r with
      | error f => rfl
      | ok ca₁ =>
        have hdata := retrieveData_result b .forDisplay st₁
        rw [← h.retrieve, ← performExecute_ref hexecute'] at hdata
        simp only
        split
        · rw [← hdata]
          cases retrieveData b .forDisplay st₁ with
          | mk st₂ r => cases r <;> rfl
        · rfl

end Agreement

/-! ## Moved away -/

/-- The symmetric difference, in the order of the two lists. -/
def symmetricDifference : Disjunction SessionMessage where
  disjunction a b := a.diff b ++ b.diff a
  count_disjunction a b x := by
    rw [List.count_append, List.count_diff, List.count_diff]
    omega

def notice (content : String) : Message := ⟨"login", .notice, content⟩

/-- A session with two messages that say the same. -/
def greeted : Session where
  created := 2
  stored := some (create 0 [notice "Welcome", notice "Welcome"])
  known := by decide

def idleBeans : Beans where
  disjunction := symmetricDifference
  retrieve _ := .notIncluded
  execution := .noBean
  outputPrefix := none

/-- An action that is shown and not executed. -/
def shownAction : CallableAction where
  ref := { id := "edit", eventId := "user", mode := none, condition := none, permissions := []
           onSuccess := none, forceForward := false }
  doInclude := true

/-- The messages that were there before have left the session, for an action whose datasource
added none. -/
theorem earlier_messages_moved :
    greeted.messages.length = 2 ∧
      (perform idleBeans false shownAction ⟨greeted, none, false, []⟩).1.session.messages = [] ∧
      (perform idleBeans false shownAction ⟨greeted, none, false, []⟩).1.actionMessages =
        some greeted.messages := by
  refine ⟨rfl, rfl, rfl⟩

end ActionMessages
end Pages
end AppNG
