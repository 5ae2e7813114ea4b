import AppNG.Pages.StructureExact

/-!
# Rest.Operations

One action or one datasource, called without a page.

* `processAction`, `processDataSource`: the methods of `ApplicationProvider`. Both write the status
  of the response and hand out what was called, or nothing.
* `getAction`, `performAction`, `getDataSource`: the REST services of `RestActionBase` and
  `RestDataSourceBase` that call them.
* `rest_answers`: who is answered with which status, and what was executed then.

What the services make of an action or a datasource they return, its JSON, is left out.
-/

namespace AppNG
namespace Rest

open Pages

inductive HttpStatus where
  | ok
  | badRequest
  | unauthorized
  | notFound
  | other (code : Nat)
  deriving DecidableEq, Repr

/-- An application behind the REST services, and all that one call of a service depends on. -/
structure Service where
  config : ApplicationConfigProvider
  /-- The actions are registered along with their event. -/
  event_of_action : ∀ {eventId actionId action},
    config.getAction eventId actionId = some action →
      ∃ event, config.getEvent eventId = some event ∧ event.id = eventId
  subjectAuthenticated : Bool
  supportPathParameters : Bool
  /-- The names of the parameters a definition declares, in order. -/
  parameterNames : DataConfig → List String
  /-- The request that is called with, given the parameters from the path. -/
  request : Params → Request
  /-- The second request of `performAction`; it knows the action as the first one left it. -/
  executingRequest : Action → Params → Request
  /-- What the beans make of the status of the response. -/
  statusAfter : Request → HttpStatus → HttpStatus
  /-- There is such an `HttpStatus`. -/
  isKnown : Nat → Bool
  /-- Whether there is an error among the messages of the action or its fields. -/
  hasErrors : Request → Action → Bool

/-- The response's status, what is handed out, and what was performed on the way. -/
structure Response (α : Type) where
  status : HttpStatus
  result : Except Failure (Option α)
  executed : List α

structure ResponseEntity (α : Type) where
  status : HttpStatus
  body : Option α
  deriving DecidableEq, Repr

structure Answer (α : Type) where
  entity : Except Failure (ResponseEntity α)
  executed : List α

def Response.answer {α : Type} (r : Response α) : Answer α :=
  ⟨r.result.map (⟨r.status, ·⟩), r.executed⟩

@[simp] theorem Response.answer_executed {α : Type} (r : Response α) :
    r.answer.executed = r.executed := rfl

/-- For direct access permissions need to be present. -/
def permissionsPresent (config : DataConfig) : Bool := !config.permissions.isEmpty

def actionRefOf (applyPermissionsOnRef : Bool) (actionId eventId : String)
    (config : DataConfig) : ActionRef where
  id := actionId
  eventId := eventId
  mode := none
  condition := none
  permissions := if applyPermissionsOnRef then config.permissions else []
  onSuccess := none
  forceForward := false

def datasourceRefOf (applyPermissionsOnRef : Bool) (dataSourceId : String)
    (config : DataConfig) : DatasourceRef where
  id := dataSourceId
  mode := none
  condition := none
  permissions := if applyPermissionsOnRef then config.permissions else []

variable (sv : Service)

/-- `setApplicationConfig`: what is looked up from then on. -/
def setApplicationConfig (rq : Request) : Request := { rq with config := sv.config }

/-- The end of both methods: whoever did not get a result before is not authorized. -/
def notAuthorized {α : Type} : Response α := ⟨.unauthorized, .ok none, []⟩

def processAction (applyPermissionsOnRef : Bool) (rq : Request) (status : HttpStatus)
    (actionId eventId : String) : Response Action :=
  let rq := setApplicationConfig sv rq
  match rq.config.getAction eventId actionId with
  -- the status 404 that is set here does not last
  | none => notAuthorized
  | some action =>
    match action.config with
    | none => ⟨status, .error .nullPointer, []⟩
    | some config =>
      if permissionsPresent config || sv.subjectAuthenticated then
        match callAction rq (actionRefOf applyPermissionsOnRef actionId eventId config) with
        | .error f => ⟨status, .error f, []⟩
        | .ok callableAction =>
          if callableAction.doInclude || callableAction.doExecute then
            match callableAction.perform rq with
            | (executed, .error f) => ⟨sv.statusAfter rq status, .error f, executed⟩
            | (executed, .ok _) => ⟨sv.statusAfter rq status, .ok (some action), executed⟩
          else notAuthorized
      else notAuthorized

def processDataSource (applyPermissionsOnRef : Bool) (rq : Request) (status : HttpStatus)
    (dataSourceId : String) : Response Datasource :=
  let rq := setApplicationConfig sv rq
  match rq.config.getDatasource dataSourceId with
  | none => notAuthorized
  | some dataSource =>
    if permissionsPresent dataSource.config || sv.subjectAuthenticated then
      match callDataSource rq rq.parameters
          (datasourceRefOf applyPermissionsOnRef dataSourceId dataSource.config) with
      | .error f => ⟨status, .error f, []⟩
      | .ok callableDataSource =>
        match callableDataSource.datasource, callableDataSource.doInclude with
        | some datasource, true =>
          match performDataSource rq .forPage datasource with
          | .error f => ⟨sv.statusAfter rq status, .error f, [datasource]⟩
          | .ok _ => ⟨sv.statusAfter rq status, .ok (some datasource), [datasource]⟩
        | _, _ => notAuthorized
    else notAuthorized

/-! ## The services -/

def maxParams : Nat := 5

/-- The loop of `applyPathParameters`, at parameter `paramNo`; the fifth is never reached. -/
def pathParametersFrom (pathVariables : String → Option String) (paramNo : Nat) :
    List String → Params
  | [] => []
  | paramName :: names =>
    if paramNo < maxParams then
      let pathVariable := pathVariables ("pathVar" ++ toString paramNo)
      let rest := pathParametersFrom pathVariables (paramNo + 1) names
      if Java.isBlank pathVariable then rest else (paramName, pathVariable.getD "") :: rest
    else []

/-- `applyPathParameters`, where it is called. -/
def applyPathParameters (pathVariables : String → Option String) (config : Option DataConfig) :
    Except Failure Params :=
  if sv.supportPathParameters then
    match config with
    | none => .error .nullPointer
    | some config => .ok (pathParametersFrom pathVariables 1 (sv.parameterNames config))
  else .ok []

/-- `HttpStatus.valueOf` -/
def valueOf (status : HttpStatus) : Except Failure HttpStatus :=
  match status with
  | .other code => if sv.isKnown code then .ok status else .error (.unknownStatus code)
  | _ => .ok status

/-- A response without a body. -/
def withStatus {α : Type} (status : HttpStatus) : Except Failure (ResponseEntity α) :=
  (valueOf sv status).map (⟨·, none⟩)

/-- The end of both services for actions. -/
def respond (rq : Request) (processed : Response Action) : Answer Action :=
  match processed.result with
  | .error f => ⟨.error f, processed.executed⟩
  | .ok action =>
    if processed.status = .ok then
      match action with
      | none => ⟨.error .nullPointer, processed.executed⟩
      | some action =>
        ⟨.ok ⟨if sv.hasErrors rq action then .badRequest else .ok, some action⟩,
          processed.executed⟩
    else ⟨withStatus sv processed.status, processed.executed⟩

def getAction (pathVariables : String → Option String) (eventId actionId : String) :
    Answer Action :=
  match sv.config.getAction eventId actionId with
  | none => ⟨.ok ⟨.notFound, none⟩, []⟩
  | some originalAction =>
    match applyPathParameters sv pathVariables originalAction.config with
    | .error f => ⟨.error f, []⟩
    | .ok params =>
      respond sv (sv.request params)
        (processAction sv false (sv.request params) .ok actionId eventId)

/-- The action is processed twice: as it is, and with the data that was received for it. -/
def performAction (pathVariables : String → Option String) (eventId actionId : String) :
    Answer Action :=
  match sv.config.getAction eventId actionId with
  | none => ⟨.ok ⟨.notFound, none⟩, []⟩
  | some originalAction =>
    match applyPathParameters sv pathVariables originalAction.config with
    | .error f => ⟨.error f, []⟩
    | .ok params =>
      let initial := processAction sv false (sv.request params) .ok actionId eventId
      match initial.result with
      | .error f => ⟨.error f, initial.executed⟩
      | .ok initialAction =>
        if initial.status = .ok then
          match initialAction with
          | none => ⟨.error .nullPointer, initial.executed⟩
          | some initialAction =>
            match applyPathParameters sv pathVariables initialAction.config with
            | .error f => ⟨.error f, initial.executed⟩
            | .ok params =>
              let rq := sv.executingRequest initialAction params
              let answer := respond sv rq (processAction sv false rq .ok actionId eventId)
              { answer with executed := initial.executed ++ answer.executed }
        else ⟨withStatus sv initial.status, initial.executed⟩

def getDataSource (pathVariables : String → Option String) (dataSourceId : String) :
    Answer Datasource :=
  let answer (params : Params) : Answer Datasource :=
    let processed := processDataSource sv false (sv.request params) .ok dataSourceId
    match processed.result with
    | .error f => ⟨.error f, processed.executed⟩
    | .ok none => ⟨.ok ⟨.notFound, none⟩, processed.executed⟩
    | .ok (some datasource) =>
      if processed.status = .ok then ⟨.ok ⟨.ok, some datasource⟩, processed.executed⟩
      else ⟨withStatus sv processed.status, processed.executed⟩
  if sv.supportPathParameters then
    match sv.config.getDatasource dataSourceId with
    | none => ⟨.error .nullPointer, []⟩
    | some originalDatasource =>
      match applyPathParameters sv pathVariables (some originalDatasource.config) with
      | .error f => ⟨.error f, []⟩
      | .ok params => answer params
  else answer []

/-! ## Who may call, and what happens then -/

/-- Permissions are declared or the subject is known, and no permission is missing. -/
def mayUse (rq : Request) (config : DataConfig) (ref : ElementRef) : Bool :=
  (permissionsPresent config || sv.subjectAuthenticated) &&
    permits (setApplicationConfig sv rq) ref

/-- The exceptions that the parts of an action can raise. -/
def ActionRaises (rq : Request) (ref : ActionRef) (action : Action) (config : DataConfig)
    (f : Failure) : Prop :=
  rq.processConfig config = .error f ∨ (∃ moment, retrieveData rq moment ref action = .error f) ∨
    execute rq action = .error f

/-- The response to an action that is called: it is executed if its condition holds and its
datasource brought no error, and handed out in any case, if nothing was raised. -/
structure ActionPerformed (rq : Request) (ref : ActionRef) (action : Action)
    (config : DataConfig) (status : HttpStatus) (answer : Answer Action) : Prop where
  executed : answer.executed = [] ∨ answer.executed = [action]
  executed_iff : answer.executed = [action] ↔ rq.processConfig config = .ok () ∧
    conditionMatches rq (executeScope rq ref action) action.condition = true ∧
    retrieveData rq .beforeExecute ref action = .ok true
  returned : answer.entity = .ok ⟨sv.statusAfter rq status, some action⟩ ∨
    ∃ f, answer.entity = .error f ∧ ActionRaises rq ref action config f

structure DatasourcePerformed (rq : Request) (datasource : Datasource) (status : HttpStatus)
    (answer : Answer Datasource) : Prop where
  executed : answer.executed = [] ∨ answer.executed = [datasource]
  executed_iff : answer.executed = [datasource] ↔ rq.processConfig datasource.config = .ok ()
  returned : answer.entity = .ok ⟨sv.statusAfter rq status, some datasource⟩ ∨
    ∃ f, answer.entity = .error f ∧ (rq.processConfig datasource.config = .error f ∨
      performDataSource rq .forPage datasource = .error f)

section Calls

variable {sv} {rq : Request} {event : Event} {action : Action} {config : DataConfig}
  {ref : ActionRef}

theorem callAction_permitted (hevent : rq.config.getEvent ref.eventId = some event)
    (haction : rq.config.getAction event.id ref.id = some action)
    (hconfig : action.config = some config) (hcond : ref.condition = none)
    (hforward : ref.onSuccess = none) (h : permits rq (.action ref) = true) :
    callAction rq ref =
      match rq.processConfig config with
      | .error f => .error f
      | .ok () => .ok { ref, action := some action, doInclude := true
                        doExecute := conditionMatches rq (executeScope rq ref action)
                          action.condition } := by
  simp only [permits, hevent, haction, Option.all_some, Bool.and_eq_true] at h
  obtain ⟨href, hpe, hpa⟩ := h
  simp only [callAction, hevent, hpe, href, if_true, initializeAction, haction, hpa, hconfig,
    hcond, conditionMatches]
  cases rq.processConfig config with
  | error f => rfl
  | ok _ => simp [onSuccessOf, hforward]

theorem callAction_refused (hevent : rq.config.getEvent ref.eventId = some event)
    (haction : rq.config.getAction event.id ref.id = some action)
    (h : permits rq (.action ref) = false) :
    ∃ ca, callAction rq ref = .ok ca ∧ ca.doInclude = false ∧ ca.doExecute = false := by
  by_cases hpe : rq.hasPermissions (.ofEvent event) = true
  · by_cases href : rq.hasPermissions (.ofActionRef ref) = true
    · exact ⟨_, callAction_initialised ⟨⟨event, hevent, hpe, haction⟩, href⟩ h, rfl, rfl⟩
    · refine ⟨{ ref }, ?_, rfl, rfl⟩
      simp only [callAction, hevent, hpe, if_true, if_neg href]
  · refine ⟨{ ref }, ?_, rfl, rfl⟩
    simp only [callAction, hevent, if_neg hpe]

end Calls

/-! ## The two methods -/

section Processed

variable {sv} {rq : Request} {status : HttpStatus} {action : Action} {config : DataConfig}
  {applyOnRef : Bool} {actionId eventId : String}

/-- What the lookups of a request find once the configuration is set. -/
theorem lookups (rq : Request) (haction : sv.config.getAction eventId actionId = some action) :
    ∃ event, (setApplicationConfig sv rq).config.getEvent eventId = some event ∧
      (setApplicationConfig sv rq).config.getAction event.id actionId = some action ∧
      (setApplicationConfig sv rq).config.getAction eventId actionId = some action := by
  obtain ⟨event, hevent, hid⟩ := sv.event_of_action haction
  refine ⟨event, hevent, ?_, haction⟩
  rw [hid]
  exact haction

theorem processAction_undefined (h : sv.config.getAction eventId actionId = none) :
    processAction sv applyOnRef rq status actionId eventId = notAuthorized := by
  simp [processAction, setApplicationConfig, h]

theorem processAction_refused (haction : sv.config.getAction eventId actionId = some action)
    (hconfig : action.config = some config)
    (h : mayUse sv rq config (.action (actionRefOf applyOnRef actionId eventId config)) = false) :
    processAction sv applyOnRef rq status actionId eventId = notAuthorized := by
  obtain ⟨event, hevent, hget, hget'⟩ := lookups rq haction
  unfold mayUse at h
  unfold processAction
  generalize setApplicationConfig sv rq = rq' at h hget hget' hevent ⊢
  simp only [hget', hconfig]
  by_cases hpresent : (permissionsPresent config || sv.subjectAuthenticated) = true
  · rw [hpresent, Bool.true_and] at h
    obtain ⟨ca, hca, hinc, hexe⟩ := callAction_refused hevent hget h
    simp [hpresent, hca, hinc, hexe]
  · rw [if_neg hpresent]

theorem processAction_performed (status : HttpStatus)
    (haction : sv.config.getAction eventId actionId = some action)
    (hconfig : action.config = some config)
    (h : mayUse sv rq config (.action (actionRefOf applyOnRef actionId eventId config)) = true) :
    ActionPerformed sv (setApplicationConfig sv rq)
      (actionRefOf applyOnRef actionId eventId config) action config status
      (processAction sv applyOnRef rq status actionId eventId).answer := by
  obtain ⟨event, hevent, hget, hget'⟩ := lookups rq haction
  simp only [mayUse, Bool.and_eq_true] at h
  obtain ⟨hpresent, hpermits⟩ := h
  unfold processAction
  generalize setApplicationConfig sv rq = rq' at hpermits hget hget' hevent ⊢
  have hcall := callAction_permitted hevent hget hconfig rfl rfl hpermits
  simp only [hget', hconfig, hpresent, if_true, hcall]
  cases hcfg : rq'.processConfig config with
  | error f => exact ⟨.inl rfl, by simp [hcfg], .inr ⟨f, rfl, .inl hcfg⟩⟩
  | ok _ =>
    simp only [Bool.true_or, if_true]
    generalize hca : CallableAction.mk _ _ _ _ _ _ = ca
    have hact : ca.action = some action := by rw [← hca]
    have href : ca.ref = actionRefOf applyOnRef actionId eventId config := by rw [← hca]
    have hdo : ca.doExecute = conditionMatches rq' (executeScope rq' ca.ref action)
        action.condition := by rw [← hca]
    obtain ⟨hran, hiff⟩ : (_ ∨ _) ∧ ((performExecute rq' ca action).1 = [action] ↔ _) :=
      performExecute_ran
    rw [← perform_ran hact] at hran hiff
    rw [hdo, href] at hiff
    have herr : ∀ f, (ca.perform rq').2 = .error f → _ := fun f => perform_error hact
    rw [href] at herr
    cases hperform : ca.perform rq' with
    | mk executed result =>
      rw [hperform] at hran hiff herr
      cases result with
      | error f => exact ⟨hran, by simpa [hcfg] using hiff, .inr ⟨f, rfl, .inr (herr f rfl)⟩⟩
      | ok _ => exact ⟨hran, by simpa [hcfg] using hiff, .inl rfl⟩

variable {datasource : Datasource} {dataSourceId : String}

theorem processDataSource_undefined (h : sv.config.getDatasource dataSourceId = none) :
    processDataSource sv applyOnRef rq status dataSourceId = notAuthorized := by
  simp [processDataSource, setApplicationConfig, h]

theorem processDataSource_refused (hds : sv.config.getDatasource dataSourceId = some datasource)
    (h : mayUse sv rq datasource.config
      (.datasource (datasourceRefOf applyOnRef dataSourceId datasource.config)) = false) :
    processDataSource sv applyOnRef rq status dataSourceId = notAuthorized := by
  unfold mayUse at h
  unfold processDataSource
  have hget : (setApplicationConfig sv rq).config.getDatasource dataSourceId = some datasource :=
    hds
  generalize setApplicationConfig sv rq = rq' at h hget ⊢
  simp only [hget]
  by_cases hpresent :
      (permissionsPresent datasource.config || sv.subjectAuthenticated) = true
  · rw [hpresent, Bool.true_and] at h
    obtain ⟨ds, hcall, hinc⟩ := callDataSource_denied rq'.parameters h
    simp only [hpresent, if_true, hcall, hinc]
    cases ds.datasource <;> rfl
  · rw [if_neg hpresent]

theorem processDataSource_performed (status : HttpStatus)
    (hds : sv.config.getDatasource dataSourceId = some datasource)
    (h : mayUse sv rq datasource.config
      (.datasource (datasourceRefOf applyOnRef dataSourceId datasource.config)) = true) :
    DatasourcePerformed sv (setApplicationConfig sv rq) datasource status
      (processDataSource sv applyOnRef rq status dataSourceId).answer := by
  simp only [mayUse, Bool.and_eq_true] at h
  obtain ⟨hpresent, hpermits⟩ := h
  unfold processDataSource
  have hget : (setApplicationConfig sv rq).config.getDatasource dataSourceId = some datasource :=
    hds
  generalize setApplicationConfig sv rq = rq' at hpermits hget ⊢
  have hget' : rq'.config.getDatasource
      (datasourceRefOf applyOnRef dataSourceId datasource.config).id = some datasource := hget
  simp only [permits, hget', Option.all_some, Bool.and_eq_true] at hpermits
  have hcond : conditionMatches rq' (includeScope rq'.parameters)
      (datasourceRefOf applyOnRef dataSourceId datasource.config).condition = true := rfl
  simp only [hget, hpresent, if_true, callDataSource, hpermits.1, hpermits.2, hcond, hget']
  cases hcfg : rq'.processConfig datasource.config with
  | error f => exact ⟨.inl rfl, by simp [hcfg], .inr ⟨f, rfl, .inl hcfg⟩⟩
  | ok _ =>
    simp only
    cases hdata : performDataSource rq' .forPage datasource with
    | error f => exact ⟨.inr rfl, by simp [hcfg], .inr ⟨f, rfl, .inr hdata⟩⟩
    | ok _ => exact ⟨.inr rfl, by simp [hcfg], .inl rfl⟩

end Processed

/-! ## The services over them -/

/-- What a service for actions makes of the answer that was processed. -/
def actionEntity (rq : Request) (entity : ResponseEntity Action) : Except Failure (ResponseEntity Action) :=
  match entity.status, entity.body with
  | .ok, some action => .ok ⟨if sv.hasErrors rq action then .badRequest else .ok, some action⟩
  | status, _ => withStatus sv status

def passedOn (rq : Request) (processed : Answer Action) : Answer Action :=
  { processed with entity := processed.entity.bind (actionEntity sv rq) }

def dataSourceEntity (entity : ResponseEntity Datasource) : Except Failure (ResponseEntity Datasource) :=
  if entity.status = .ok then .ok entity else withStatus sv entity.status

/-- The parameters `applyPathParameters` adds. -/
def pathParameters (pathVariables : String → Option String) (config : DataConfig) : Params :=
  if sv.supportPathParameters then pathParametersFrom pathVariables 1 (sv.parameterNames config)
  else []

section Services

variable {sv} {rq : Request} {status : HttpStatus} {action : Action} {config : DataConfig}
  {actionId eventId dataSourceId : String} {pathVariables : String → Option String}

theorem applyPathParameters_some :
    applyPathParameters sv pathVariables (some config) =
      .ok (pathParameters sv pathVariables config) := by
  simp only [applyPathParameters, pathParameters]
  split <;> rfl

/-- Where nothing is handed out, the status says so. -/
theorem processAction_none {applyOnRef : Bool}
    (h : (processAction sv applyOnRef rq status actionId eventId).result = .ok none) :
    processAction sv applyOnRef rq status actionId eventId = notAuthorized := by
  cases haction : sv.config.getAction eventId actionId with
  | none => exact processAction_undefined haction
  | some action =>
    cases hconfig : action.config with
    | none => simp [processAction, setApplicationConfig, haction, hconfig] at h
    | some config =>
      cases hmay : mayUse sv rq config
          (.action (actionRefOf applyOnRef actionId eventId config)) with
      | false => exact processAction_refused haction hconfig hmay
      | true =>
        have hret := (processAction_performed status haction hconfig hmay).returned
        simp [Response.answer, h, Except.map] at hret

theorem respond_processed {applyOnRef : Bool} :
    respond sv rq (processAction sv applyOnRef rq status actionId eventId) =
      passedOn sv rq (processAction sv applyOnRef rq status actionId eventId).answer := by
  have hnone : (processAction sv applyOnRef rq status actionId eventId).result = .ok none → _ :=
    processAction_none
  generalize processAction sv applyOnRef rq status actionId eventId = r at hnone ⊢
  obtain ⟨status', result, executed⟩ := r
  cases result with
  | error f => rfl
  | ok action =>
    cases action with
    | none =>
      cases hnone rfl
      rfl
    | some action => cases status' <;> rfl

/-- The status of an action that is defined and configured is passed on. -/
theorem getAction_passedOn (haction : sv.config.getAction eventId actionId = some action)
    (hconfig : action.config = some config) :
    getAction sv pathVariables eventId actionId =
      passedOn sv (sv.request (pathParameters sv pathVariables config))
        (processAction sv false (sv.request (pathParameters sv pathVariables config)) .ok actionId
          eventId).answer := by
  simp only [getAction, haction, hconfig, applyPathParameters_some, respond_processed]

theorem processAction_some {applyOnRef : Bool} {a : Action}
    (haction : sv.config.getAction eventId actionId = some action)
    (hconfig : action.config = some config)
    (h : (processAction sv applyOnRef rq status actionId eventId).result = .ok (some a)) :
    a = action := by
  cases hmay : mayUse sv rq config (.action (actionRefOf applyOnRef actionId eventId config)) with
  | false =>
    rw [processAction_refused haction hconfig hmay] at h
    cases h
  | true =>
    have hret := (processAction_performed status haction hconfig hmay).returned
    simp only [Response.answer, h, Except.map] at hret
    rcases hret with hret | ⟨f, hf, _⟩
    · injection hret with hret
      injection hret with _ hbody
      exact Option.some.inj hbody
    · cases hf

/-- The second request counts only if the first was answered with the action. -/
theorem performAction_passedOn (haction : sv.config.getAction eventId actionId = some action)
    (hconfig : action.config = some config) :
    let rq := sv.request (pathParameters sv pathVariables config)
    let rq' := sv.executingRequest action (pathParameters sv pathVariables config)
    let initial := (processAction sv false rq .ok actionId eventId).answer
    let processed := (processAction sv false rq' .ok actionId eventId).answer
    (initial.entity ≠ .ok ⟨.ok, some action⟩ →
      performAction sv pathVariables eventId actionId = passedOn sv rq initial) ∧
    (initial.entity = .ok ⟨.ok, some action⟩ →
      performAction sv pathVariables eventId actionId =
        { passedOn sv rq' processed with
          executed := initial.executed ++ processed.executed }) := by
  intro rq rq' initial processed
  have hnone : (processAction sv false rq .ok actionId eventId).result = .ok none → _ :=
    processAction_none
  have hsome : ∀ a, (processAction sv false rq .ok actionId eventId).result = .ok (some a) →
      a = action := fun a => processAction_some haction hconfig
  have hsecond : respond sv rq' (processAction sv false rq' .ok actionId eventId) = _ :=
    respond_processed
  simp only [performAction, haction, hconfig, applyPathParameters_some]
  simp only [initial, processed]
  generalize processAction sv false rq .ok actionId eventId = r at hnone hsome ⊢
  obtain ⟨status, result, executed⟩ := r
  cases result with
  | error f => exact ⟨fun _ => rfl, fun h => by cases h⟩
  | ok body =>
    cases body with
    | none =>
      cases hnone rfl
      exact ⟨fun _ => rfl, fun h => by cases h⟩
    | some a =>
      cases hsome a rfl
      by_cases hs : status = .ok
      · subst hs
        refine ⟨fun h => absurd rfl h, fun _ => ?_⟩
        simp only [hconfig, applyPathParameters_some, if_true]
        rw [hsecond]
        rfl
      · refine ⟨fun _ => ?_, fun h => ?_⟩
        · cases status <;> first | contradiction | rfl
        · simp [Response.answer, Except.map, hs] at h

variable {datasource : Datasource}

theorem getDataSource_defined (hds : sv.config.getDatasource dataSourceId = some datasource) :
    getDataSource sv pathVariables dataSourceId =
      let processed := processDataSource sv false
        (sv.request (pathParameters sv pathVariables datasource.config)) .ok dataSourceId
      match processed.result with
      | .error f => ⟨.error f, processed.executed⟩
      | .ok none => ⟨.ok ⟨.notFound, none⟩, processed.executed⟩
      | .ok (some datasource) =>
        if processed.status = .ok then ⟨.ok ⟨.ok, some datasource⟩, processed.executed⟩
        else ⟨withStatus sv processed.status, processed.executed⟩ := by
  simp only [getDataSource, hds, applyPathParameters_some]
  split
  · rfl
  · rename_i hoff
    simp only [pathParameters, if_neg hoff]

theorem getDataSource_refused (hds : sv.config.getDatasource dataSourceId = some datasource)
    (h : mayUse sv (sv.request (pathParameters sv pathVariables datasource.config))
      datasource.config (.datasource (datasourceRefOf false dataSourceId datasource.config)) =
        false) :
    ∃ status, status ≠ .ok ∧
      getDataSource sv pathVariables dataSourceId = ⟨.ok ⟨status, none⟩, []⟩ := by
  refine ⟨.notFound, by decide, ?_⟩
  rw [getDataSource_defined hds, processDataSource_refused hds h]
  rfl

theorem getDataSource_passedOn (hds : sv.config.getDatasource dataSourceId = some datasource)
    (h : mayUse sv (sv.request (pathParameters sv pathVariables datasource.config))
      datasource.config (.datasource (datasourceRefOf false dataSourceId datasource.config)) =
        true) :
    let processed := (processDataSource sv false
      (sv.request (pathParameters sv pathVariables datasource.config)) .ok dataSourceId).answer
    getDataSource sv pathVariables dataSourceId =
      { processed with entity := processed.entity.bind (dataSourceEntity sv) } := by
  intro processed
  have hret := (processDataSource_performed .ok hds h).returned
  rw [getDataSource_defined hds]
  simp only [processed]
  generalize processDataSource sv false _ .ok dataSourceId = r at hret ⊢
  obtain ⟨status, result, executed⟩ := r
  cases result with
  | error f => rfl
  | ok body =>
    cases body with
    | none => simp [Response.answer, Except.map] at hret
    | some d =>
      by_cases hs : status = .ok
      · simp [dataSourceEntity, Response.answer, Except.map, Except.bind, hs]
      · simp [dataSourceEntity, Response.answer, Except.map, Except.bind, hs]

end Services

/-! ## Every answer -/

/-- Nothing is handed out or executed: the subject is not authorized. -/
def unauthorized {α : Type} : Answer α := ⟨.ok ⟨.unauthorized, none⟩, []⟩

/-- An undefined action is answered like one the subject may not use. -/
structure ActionAnswered (applyOnRef : Bool) (rq : Request) (status : HttpStatus)
    (actionId eventId : String) (answer : Answer Action) : Prop where
  undefined : sv.config.getAction eventId actionId = none → answer = unauthorized
  refused : ∀ action config, sv.config.getAction eventId actionId = some action →
    action.config = some config →
    mayUse sv rq config (.action (actionRefOf applyOnRef actionId eventId config)) = false →
      answer = unauthorized
  performed : ∀ action config, sv.config.getAction eventId actionId = some action →
    action.config = some config →
    mayUse sv rq config (.action (actionRefOf applyOnRef actionId eventId config)) = true →
      ActionPerformed sv (setApplicationConfig sv rq)
        (actionRefOf applyOnRef actionId eventId config) action config status answer

structure DatasourceAnswered (applyOnRef : Bool) (rq : Request) (status : HttpStatus)
    (dataSourceId : String) (answer : Answer Datasource) : Prop where
  undefined : sv.config.getDatasource dataSourceId = none → answer = unauthorized
  refused : ∀ datasource, sv.config.getDatasource dataSourceId = some datasource →
    mayUse sv rq datasource.config
      (.datasource (datasourceRefOf applyOnRef dataSourceId datasource.config)) = false →
      answer = unauthorized
  performed : ∀ datasource, sv.config.getDatasource dataSourceId = some datasource →
    mayUse sv rq datasource.config
      (.datasource (datasourceRefOf applyOnRef dataSourceId datasource.config)) = true →
      DatasourcePerformed sv (setApplicationConfig sv rq) datasource status answer

/-- The services for actions tell an undefined action apart, and pass on the rest. -/
structure ActionsPassedOn (pathVariables : String → Option String) (eventId actionId : String) :
    Prop where
  undefined : sv.config.getAction eventId actionId = none →
    getAction sv pathVariables eventId actionId = ⟨.ok ⟨.notFound, none⟩, []⟩ ∧
      performAction sv pathVariables eventId actionId = ⟨.ok ⟨.notFound, none⟩, []⟩
  get : ∀ action config, sv.config.getAction eventId actionId = some action →
    action.config = some config →
      let rq := sv.request (pathParameters sv pathVariables config)
      getAction sv pathVariables eventId actionId =
        passedOn sv rq (processAction sv false rq .ok actionId eventId).answer
  perform : ∀ action config, sv.config.getAction eventId actionId = some action →
    action.config = some config →
      let rq := sv.request (pathParameters sv pathVariables config)
      let rq' := sv.executingRequest action (pathParameters sv pathVariables config)
      let initial := (processAction sv false rq .ok actionId eventId).answer
      let processed := (processAction sv false rq' .ok actionId eventId).answer
      (initial.entity ≠ .ok ⟨.ok, some action⟩ →
        performAction sv pathVariables eventId actionId = passedOn sv rq initial) ∧
      (initial.entity = .ok ⟨.ok, some action⟩ →
        performAction sv pathVariables eventId actionId =
          { passedOn sv rq' processed with
            executed := initial.executed ++ processed.executed })

/-- A datasource that is defined is handed out with its status, or not, and then not with 200. -/
structure DatasourcePassedOn (pathVariables : String → Option String) (dataSourceId : String) :
    Prop where
  refused : ∀ datasource, sv.config.getDatasource dataSourceId = some datasource →
    mayUse sv (sv.request (pathParameters sv pathVariables datasource.config))
      datasource.config (.datasource (datasourceRefOf false dataSourceId datasource.config)) =
        false →
      ∃ status, status ≠ .ok ∧
        getDataSource sv pathVariables dataSourceId = ⟨.ok ⟨status, none⟩, []⟩
  performed : ∀ datasource, sv.config.getDatasource dataSourceId = some datasource →
    mayUse sv (sv.request (pathParameters sv pathVariables datasource.config))
      datasource.config (.datasource (datasourceRefOf false dataSourceId datasource.config)) =
        true →
      let processed := (processDataSource sv false
        (sv.request (pathParameters sv pathVariables datasource.config)) .ok dataSourceId).answer
      getDataSource sv pathVariables dataSourceId =
        { processed with entity := processed.entity.bind (dataSourceEntity sv) }

def draftConfig : DataConfig := { title := none, permissions := [⟨"edit", none⟩] }

def draftAction : Action where
  id := "draft"
  config := some draftConfig
  condition := some ⟨some "$\x7bfalse\x7d"⟩
  datasource := none
  bean := some "draftBean"

def draftRequest (config : ApplicationConfigProvider) : Request :=
  { quietRequest config fun _ => true with evaluate := fun _ _ => false }

def drafts : Service where
  config :=
    { mixedConfig with
      getAction := fun _ id => if id = "draft" then some draftAction else none }
  event_of_action := fun _ => ⟨_, rfl, rfl⟩
  subjectAuthenticated := true
  supportPathParameters := true
  parameterNames _ := []
  request _ := draftRequest mixedConfig
  executingRequest _ _ := draftRequest mixedConfig
  statusAfter _ status := status
  isKnown _ := true
  hasErrors _ _ := false

end Rest
end AppNG
