import AppNG.Lib.JavaString
import AppNG.Pages.Definitions

/-!
# Pages.Elements

`CallableDataSource` and `CallableAction`: what becomes of one reference of a page. Their
constructors check permissions and conditions; `CallableAction.perform` executes the action.

Outside of the classes stand the beans of the application, which provide data or perform actions
and may throw, and the evaluation of expressions. An evaluator is known by the variables bound in
it (`EvalScope`): the values behind `PATH`, `SITE`, `APP` and `SESSION` are those of the request,
but not every evaluator binds them.
-/

namespace AppNG
namespace Pages

abbrev Params := List (String × String)

structure EvalScope where
  parameters : Params
  path : Bool := false
  siteAppSession : Bool := false
  i18n : Bool := false
  deriving DecidableEq, Repr

/-- What ends the processing of a page. All but the first are `ProcessingException`s. -/
inductive Failure where
  | nullPointer
  | noSuchEvent (eventId : String)
  | noSuchAction (actionId : String)
  | noSuchDatasource (id : String)
  | errorPerformingAction (id eventId : String)
  | errorRetrievingDatasource (id : String)
  /-- from the services that call an action or a datasource without a page -/
  | unknownStatus (code : Nat)
  deriving DecidableEq, Repr

def Failure.isProcessingException : Failure → Bool
  | .nullPointer | .unknownStatus _ => false
  | _ => true

inductive Moment where
  | beforeExecute
  | forDisplay
  | forPage
  deriving DecidableEq, Repr

structure Request where
  config : ApplicationConfigProvider
  hasPermissions : PermissionOwner → Bool
  parameters : Params
  evaluate : EvalScope → String → Bool
  evaluateString : EvalScope → String → String
  /-- `ElementHelper.initializeParameters`, for an action and for a datasource. -/
  actionParameters : ActionRef → Action → Params
  /-- `ElementHelper.processConfig`: fields and links of an included definition. -/
  processConfig : DataConfig → Except Failure Unit
  applicationName : String
  replaceParameters : String → String
  /-- A `DataProvider` returns with or without errors, or throws. -/
  getData : Moment → Datasource → Except Failure Bool
  /-- An `ActionProvider` returns with or without errors, or throws. -/
  performBean : Action → Except Failure Bool

def conditionMatches (rq : Request) (scope : EvalScope) (condition : Option Condition) : Bool :=
  match condition with
  | none => true
  | some c =>
    match c.expression with
    | none => true
    | some e => if Java.isBlank (some e) then true else rq.evaluate scope e

/-- `ExpressionEvaluator.isExpression`: a dollar sign and an opening brace, then no line break up
to the closing brace at the end. -/
def isExpression (value : String) : Bool :=
  value.toList.take 2 == ['$', '\x7b'] && value.toList.getLast? == some '\x7d' &&
    2 < value.toList.length && value.toList.all fun c =>
      !([0x0A, 0x0D, 0x85, 0x2028, 0x2029].contains c.toNat)

def getString (rq : Request) (scope : EvalScope) : Option String → Option String
  | none => none
  | some e => if isExpression e then some (rq.evaluateString scope e) else some e

/-- `ApplicationRequest.getExpressionEvaluator`. -/
def Request.pageScope (rq : Request) : EvalScope := { parameters := rq.parameters, i18n := true }

/-! ## Datasources -/

structure CallableDataSource where
  ref : DatasourceRef
  datasource : Option Datasource
  doInclude : Bool
  deriving DecidableEq, Repr

def includeScope (parameters : Params) : EvalScope := { parameters, siteAppSession := true }

/-- The constructor; `parameters` are those of the page or of the surrounding action. -/
def callDataSource (rq : Request) (parameters : Params) (ref : DatasourceRef) :
    Except Failure CallableDataSource :=
  if rq.hasPermissions (.ofDatasourceRef ref) then
    if conditionMatches rq (includeScope parameters) ref.condition then
      match rq.config.getDatasource ref.id with
      | none => .error (.noSuchDatasource ref.id)
      | some datasource =>
        if rq.hasPermissions (.ofDatasource datasource) then
          match rq.processConfig datasource.config with
          | .error f => .error f
          | .ok () => .ok ⟨ref, some datasource, true⟩
        else .ok ⟨ref, some datasource, false⟩
    else .ok ⟨ref, none, false⟩
  else .ok ⟨ref, none, false⟩

/-- `CallableDataSource.perform`; a datasource without a bean is static. -/
def performDataSource (rq : Request) (moment : Moment) (datasource : Datasource) :
    Except Failure Bool :=
  match datasource.bean with
  | none => .ok true
  | some _ => rq.getData moment datasource

/-! ## Actions -/

structure CallableAction where
  ref : ActionRef
  action : Option Action := none
  doInclude : Bool := false
  doExecute : Bool := false
  hasErrors : Bool := false
  onSuccess : Option String := none
  deriving DecidableEq, Repr

def onSuccessOf (rq : Request) (ref : ActionRef) : Option String :=
  match ref.onSuccess with
  | none => none
  | some target =>
    if Java.isBlank (some target) then some target
    else
      let target := if target.toList.head? = some '/' then target else "/" ++ target
      some (rq.applicationName ++ rq.replaceParameters target)

def actionIncludeScope (rq : Request) : EvalScope :=
  { parameters := rq.parameters, path := true, siteAppSession := true }

def executeScope (rq : Request) (ref : ActionRef) (action : Action) : EvalScope :=
  { parameters := rq.actionParameters ref action, siteAppSession := true, i18n := true }

/-- `initializeAction`. The action is known before its permissions are checked. -/
def initializeAction (rq : Request) (ref : ActionRef) (event : Event) :
    Except Failure CallableAction :=
  match rq.config.getAction event.id ref.id with
  | none => .error (.noSuchAction ref.id)
  | some action =>
    if rq.hasPermissions (.ofAction action) then
      match action.config with
      | none => .error .nullPointer
      | some config =>
        let doInclude := conditionMatches rq (actionIncludeScope rq) ref.condition
        match (if doInclude then rq.processConfig config else .ok ()) with
        | .error f => .error f
        | .ok () =>
          let doExecute := conditionMatches rq (executeScope rq ref action) action.condition
          .ok { ref, action := some action, doInclude, doExecute
                onSuccess := if doInclude || doExecute then onSuccessOf rq ref else none }
    else .ok { ref, action := some action }

def callAction (rq : Request) (ref : ActionRef) : Except Failure CallableAction :=
  match rq.config.getEvent ref.eventId with
  | none => .error (.noSuchEvent ref.eventId)
  | some event =>
    if rq.hasPermissions (.ofEvent event) then
      if rq.hasPermissions (.ofActionRef ref) then initializeAction rq ref event
      else .ok { ref }
    else .ok { ref }

def CallableAction.doForward (ca : CallableAction) : Bool := !ca.hasErrors && ca.onSuccess.isSome

/-- `retrieveData`: the datasource of the action, checked and asked for its data. -/
def retrieveData (rq : Request) (moment : Moment) (ref : ActionRef) (action : Action) :
    Except Failure Bool :=
  match action.datasource with
  | none => .ok true
  | some dsRef =>
    match callDataSource rq (rq.actionParameters ref action) dsRef with
    | .error f => .error f
    | .ok ds =>
      match ds.datasource, ds.doInclude with
      | some datasource, true => performDataSource rq moment datasource
      | _, _ => .ok true

def execute (rq : Request) (action : Action) : Except Failure Bool :=
  match action.bean with
  | none => .ok false
  | some _ => rq.performBean action

/-- The first half of `perform`: retrieve the data, then execute if that went well. Besides the
result, the actions that were executed. -/
def performExecute (rq : Request) (ca : CallableAction) (action : Action) :
    List Action × Except Failure CallableAction :=
  if ca.doExecute then
    match retrieveData rq .beforeExecute ca.ref action with
    | .error f => ([], .error f)
    | .ok false => ([], .ok { ca with doExecute := false })
    | .ok true =>
      match execute rq action with
      | .error f => ([action], .error f)
      | .ok hasErrors => ([action], .ok { ca with hasErrors })
  else ([], .ok ca)

/-- `perform`. An action that was not initialised is neither executed nor included. -/
def CallableAction.perform (rq : Request) (ca : CallableAction) :
    List Action × Except Failure CallableAction :=
  match ca.action with
  | none => ([], .ok ca)
  | some action =>
    match performExecute rq ca action with
    | (executed, .error f) => (executed, .error f)
    | (executed, .ok ca) =>
      if ca.doInclude && !(ca.doExecute && ca.doForward) then
        match retrieveData rq .forDisplay ca.ref action with
        | .error f => (executed, .error f)
        | .ok _ => (executed, .ok ca)
      else (executed, .ok ca)

end Pages
end AppNG
