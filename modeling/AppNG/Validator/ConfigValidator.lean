import AppNG.Groups.PermissionProcessor
import AppNG.Lib.Report
import AppNG.Pages.Elements
import AppNG.Pages.PageParameters
import AppNG.Parameters.ReplaceParameters
import AppNG.Validator.Definitions
import Mathlib.Data.List.Dedup

/-!
# Validator.ConfigValidator

`ConfigValidator.validate`: the errors that are found in the configuration of an application, for
a validator that has not validated anything before.

The code collects its errors in a set and goes on; only an exception cuts the validation short.
Outside stand the evaluation of expressions and the creation of an object of the bind class.
-/

namespace AppNG
namespace Validator

open Pages (Permission Condition Param)

abbrev Check := Report String Threw

inductive Variable where
  | parameter (value : Option String)
  | bindObject (bindClass : String)
  deriving DecidableEq, Repr

/-- What comes of an expression. -/
inductive Evaluation where
  | evaluated
  | elException (message : String)
  | threw
  deriving DecidableEq, Repr

/-- The expression language with the variables of an action, a page or a datasource, which its
messages name, and reflection. -/
structure Outside where
  evaluate : String → String → List (String × Variable) → String → Evaluation
  /-- whether there is an object of the class; a `ReflectiveOperationException` is caught, anything else that
  loading or creating it may throw is left out -/
  getBindObject : String → Bool

/-- Java writes a null reference out. -/
def text (name : Option String) : String := name.getD "null"

def listText (names : List String) : String := "[" ++ ", ".intercalate names ++ "]"

variable (outside : Outside) (provider : Provider) (permissionNames : List String)

/-! ## Parameters -/

abbrev ParameterMap := Keyed fun entry : String × String => entry.1

def ParameterMap.keySet (m : ParameterMap) : List String := m.values.map (·.1)

def ParameterMap.putAll (m n : ParameterMap) : ParameterMap := n.values.foldl Keyed.put m

def parameterValue (param : Param) : String :=
  if !Java.isBlank param.value then param.value.getD ""
  else if !Java.isBlank param.default then param.default.getD ""
  else "value"

def getParameterMap (params : Params) : ParameterMap :=
  ((params.getD []).map fun param => (param.name, parameterValue param)).foldl Keyed.put Keyed.empty

def getAllPageParams (page : PageDefinition) : ParameterMap :=
  let urlSchema := page.config.urlSchema
  ((ParameterMap.putAll Keyed.empty (getParameterMap urlSchema.postParams)).putAll
    (getParameterMap urlSchema.getParams)).putAll (getParameterMap urlSchema.urlParams)

def getPageGetParams (page : PageDefinition) : ParameterMap :=
  ParameterMap.putAll Keyed.empty (getParameterMap page.config.urlSchema.getParams)

def getVariables (params : Params) : List (String × Variable) :=
  (params.getD []).map fun param => (param.name, .parameter param.value)

def pageVariables (urlSchema : UrlSchema) : List (String × Variable) :=
  getVariables urlSchema.getParams ++ getVariables urlSchema.postParams ++
    getVariables urlSchema.urlParams

def findParameter (params : Params) (paramName : String) : Bool :=
  (params.getD []).any fun param => param.name == paramName

/-! ## Permissions and expressions -/

def isAnonymous (permName : String) : Bool :=
  Groups.PermissionProcessor.prefixAnonymous.toList.isPrefixOf permName.toList

def checkPermissions (permissions : List Permission) (origin : String) : Check :=
  Report.each permissions fun permission =>
    if !isAnonymous permission.ref && !permissionNames.contains permission.ref then
      .error (origin ++ " references the unknown permission '" ++ permission.ref ++ "'.")
    else .ok

def validateCondition (evaluate : String → Evaluation) (expression : Option String)
    (message : String) : Check :=
  if Java.isBlank expression then .ok
  else
    match evaluate (text expression) with
    | .evaluated => .ok
    | .elException ele => .error (message ++ ele)
    | .threw => .raise .evaluation

/-- From the dollar sign and the opening brace to a closing brace. -/
def isDelimited (expression : String) : Bool :=
  ['$', '\x7b'].isPrefixOf expression.toList && expression.toList.getLast? == some '\x7d'

/-- `validateConditionForAction` and `validateIncludeConditionForPage`. -/
def validateInclude (evaluate : String → Evaluation) (condition : Option Condition)
    (originName : String) : Check :=
  match condition.bind (·.expression) with
  | none => .ok
  | some expression =>
    if Java.isBlank (some expression) then .ok
    else if !isDelimited expression then
      .error (originName ++ " invalid condition '" ++ expression ++ "'")
    else
      validateCondition evaluate (some expression)
        (originName ++ " condition: '" ++ expression ++ "' is invalid: ")

def validateConditionForAction (actionId : String) (params : Params) (condition : Option Condition)
    (originName : String) : Check :=
  validateInclude (outside.evaluate "action" actionId (getVariables params)) condition originName

def validateIncludeConditionForPage (urlSchema : UrlSchema) (condition : Option Condition)
    (pageId : Option String) (originName : String) : Check :=
  validateInclude (outside.evaluate "page" (text pageId) (pageVariables urlSchema)) condition
    originName

def validateExpressionForPage (urlSchema : UrlSchema) (expression pageId : Option String)
    (origin «attribute» : String) : Check :=
  if expression.any fun e => Pages.PageParameterProcessor.isBoolean e.toList then .ok
  else
    validateCondition (outside.evaluate "page" (text pageId) (pageVariables urlSchema)) expression
      (origin ++ " attribute '" ++ «attribute» ++ "': ")

/-! ## References -/

/-- The parameter a value consists of. -/
def referredParameter (value : String) : Option String :=
  if Pages.isExpression value then
    let param := Java.remove "\x7d" (Java.remove "$\x7b" value)
    if Java.isBlank (some param) then none else some param
  else none

def checkReferenceParameters (origin refId : String) (refParams execParams : Params)
    (type resourceName : String) (availableParams : ParameterMap) : Check :=
  let paramsFromRef := getParameterMap refParams
  let execParamNames := (getParameterMap execParams).keySet
  let paramNames := (paramsFromRef.values.filterMap fun entry => referredParameter entry.2).dedup
  (Report.each (paramNames.diff availableParams.keySet) fun missing =>
    .error (origin ++ " the reference to " ++ type ++ " '" ++ refId ++
      "' uses the unknown parameter " ++ missing ++ ". Supported parameters are: " ++
      listText availableParams.keySet)).andThen
  (Report.each (paramsFromRef.keySet.diff execParamNames) fun unsupported =>
    .error (origin ++ " the reference to " ++ type ++ " '" ++ refId ++ "' (from '" ++ resourceName ++
      "') uses the parameter " ++ unsupported ++ " which is unknown in the " ++ type ++ " '" ++
      refId ++ "'! Supported parameters are: " ++ listText execParamNames))

/-- The names in the placeholders of a value. -/
def getParameters (value : String) : List String :=
  ((Parameters.dollar false fun _ => none).getParameters value.toList).map String.ofList

def validateBeanOptions (origin : String) (params : Params) (bean : Bean) : Check :=
  Report.each bean.options fun option =>
    Report.each option.otherAttributes fun otherAttribute =>
      Report.each (getParameters otherAttribute.2) fun paramName =>
        if findParameter params paramName then .ok
        else
          .error (origin ++ ", option '" ++ option.name ++ "' references the unknown parameter '" ++
            paramName ++ "'. Valid parameters are: " ++ listText (getParameterMap params).keySet)

def validateDataSourceParameters (origin : String) (datasourceRef : DatasourceRef)
    (availableParams : ParameterMap) : Check :=
  let dsId := datasourceRef.id
  .looking (provider.getDatasource dsId) fun
    | none => .raise .nullPointer
    | some datasource =>
      let dataSourceParams := datasource.config.params
      let dsResource := text (provider.resourceNameForDataSource dsId)
      (checkReferenceParameters origin dsId datasourceRef.params dataSourceParams "dataSource"
        dsResource availableParams).andThen <|
      match datasource.bean with
      | none => .ok
      | some bean =>
        validateBeanOptions (dsResource ++ ": datasource '" ++ dsId ++ "'") dataSourceParams bean

def getPagePrefix (pageId : Option String) : String :=
  text (provider.resourceNameForPage pageId) ++ ": page '" ++ text pageId ++ "'"

def validateActionParameters (page : PageDefinition) (actionRef : ActionRef) : Check :=
  let resourceName := text (provider.resourceNameForEvent actionRef.eventId)
  .looking (provider.getAction actionRef.eventId actionRef.id) fun
    | none => .raise .nullPointer
    | some action =>
      match action.config with
      | none => .raise .nullPointer
      | some config =>
        (checkReferenceParameters (getPagePrefix provider page.id) actionRef.id actionRef.params
          config.params "action" resourceName (getAllPageParams page)).andThen <|
        match action.bean with
        | none => .ok
        | some bean =>
          validateBeanOptions (resourceName ++ ": action '" ++ actionRef.id ++ "'") config.params bean

/-! ## Link panels -/

/-- The page of a target that starts with a slash. A question mark in front of everything else is
kept. -/
def pageName (target : String) : String :=
  let name := target.toList.tail.takeWhile (· ≠ '/')
  String.ofList (if name.head? = some '?' then name else name.takeWhile (· ≠ '?'))

/-- `pair.substring(0, pair.indexOf("="))`. -/
def queryParameter (pair : String) : Except Threw String :=
  if pair.toList.contains '=' then .ok (String.ofList (pair.toList.takeWhile (· ≠ '=')))
  else .error .outOfBounds

def queryParameters (target : String) : Except Threw (List String) :=
  match target.toList.dropWhile (· ≠ '?') with
  | [] => .ok []
  | _ :: query => (Java.split '&' (String.ofList query)).mapM queryParameter

def validateTarget (linkOrigin target : String) : Check :=
  if Java.isBlank (some target) then .ok
  else if Java.startsWith target '/' then
    if Java.startsWith (pageName target) '$' then .ok
    else
      match provider.getPage (some (pageName target)) with
      | none => .error (linkOrigin ++ " points to the unknown page '" ++ pageName target ++ "'")
      | some page =>
        .looking (queryParameters target) fun queryParameters =>
          let getParamNames := (getPageGetParams page).keySet
          let unknownGetParams := queryParameters.diff getParamNames
          if unknownGetParams.isEmpty then .ok
          else
            .error (linkOrigin ++ " points to page '" ++ pageName target ++
              "' and uses the unknown get-paramter(s) " ++ listText unknownGetParams ++
              ". Valid get-parameters are: " ++ listText getParamNames)
  else if Java.startsWith target '?' || Java.startsWith target '$' then .ok
  else
    .error (linkOrigin ++
      " points to an invalid target, must start with '/', '$\x7b<param>\x7d' or '?'!")

/-- Only a `Link` is looked at. -/
def validateLinkable (panelOrigin : String) : Linkable → Check
  | .openapiAction _ => .ok
  | .link target mode permissions =>
    let linkOrigin := panelOrigin ++ " link '" ++ target ++ "'"
    (if mode = .intern then validateTarget provider linkOrigin target else .ok).andThen <|
      checkPermissions permissionNames permissions linkOrigin

def validateLinkPanel (linkpanel : Linkpanel) (origin : String) : Check :=
  let panelOrigin := origin ++ " linkpanel '" ++ linkpanel.id ++ "'"
  (checkPermissions permissionNames linkpanel.permissions panelOrigin).andThen <|
    Report.each linkpanel.links (validateLinkable provider permissionNames panelOrigin)

/-! ## application.xml -/

/-- What is reported for the elements that a set already holds, which starts with `known`. -/
def duplicates (message : String → String) (known : List String) : List String → Check
  | [] => .ok
  | name :: names =>
    if known.contains name then (Report.error (message name)).andThen (duplicates message known names)
    else duplicates message (name :: known) names

def readPermissions : Check :=
  duplicates (fun id => "application.xml: Duplicate permission '" ++ id ++ "'.") []
    ((provider.applicationInfo.bind (·.permissions)).getD [])

/-- The names that `readPermissions` leaves in the set of the validator. -/
def declaredPermissions : List String :=
  (provider.applicationInfo.bind (·.permissions)).getD []

def checkApplicationProperties : Check :=
  match provider.applicationInfo with
  | none => .ok
  | some info =>
    match info.properties with
    | none => .raise .nullPointer
    | some properties =>
      duplicates (fun id => "application.xml: Duplicate property '" ++ id ++ "'.") [] properties

/-- `rolePermissions` holds the permissions of the role that were read. -/
def checkRole (name : String) (rolePermissions : List String) : List String → Check
  | [] => .ok
  | permissionId :: permissionIds =>
    if !permissionNames.contains permissionId then
      (Report.error ("application.xml: The role '" ++ name ++ "' references the unknown permission '" ++
        permissionId ++ "'.")).andThen (checkRole name rolePermissions permissionIds)
    else if rolePermissions.contains permissionId then
      (Report.error ("application.xml: The role '" ++ name ++ "' references the permission '" ++
        permissionId ++ "' more than once!")).andThen (checkRole name rolePermissions permissionIds)
    else checkRole name (permissionId :: rolePermissions) permissionIds

/-- The names of the roles are checked along with their permissions. -/
def checkRoles (rolesNames : List String) : List Role → Check
  | [] => .ok
  | role :: roles =>
    (if rolesNames.contains role.name then
      Report.error ("application.xml: Duplicate role: " ++ role.name) else .ok).andThen <|
    (checkRole permissionNames role.name [] role.permission).andThen <|
      checkRoles (role.name :: rolesNames) roles

/-- `provider.getApplicationInfo().getRoles()`. -/
def validateApplicationInfo : Check :=
  (checkApplicationProperties provider).andThen <|
    match provider.applicationInfo with
    | none => .raise .nullPointer
    | some info => checkRoles permissionNames [] (info.roles.getD [])

/-! ## The application -/

def validateApplicationRootConfig : Check :=
  match provider.applicationRootConfig with
  | none =>
    if provider.pages.values.isEmpty then .ok
    else .error "No <applicationRootConfig> found, application will not work!"
  | some none => .ok
  | some (some navigation) =>
    validateLinkPanel provider permissionNames navigation "application-info.xml:"

/-- The condition of a field, and what its attributes `hidden` and `readonly` say. -/
def validateField (evaluate : String → Evaluation) (messagePrefix : String) (fieldDef : FieldDef) :
    Check :=
  let message := fun what expression =>
    messagePrefix ++ " field: " ++ fieldDef.name ++ ", " ++ what ++ ": '" ++ text expression ++
      "' is invalid: "
  let expression := fieldDef.condition.bind (·.expression)
  (validateCondition evaluate expression (message "condition" expression)).andThen <|
  (validateCondition evaluate fieldDef.hidden (message "hidden" fieldDef.hidden)).andThen <|
  validateCondition evaluate fieldDef.readonly (message "readOnly" fieldDef.readonly)

def bindVariable (bindClass : String) : List (String × Variable) :=
  if outside.getBindObject bindClass then [("current", .bindObject bindClass)] else []

def validateFields (id messagePrefix : String) (params : Params) (metaData : MetaData) : Check :=
  if Java.isBlank metaData.bindClass then .error (messagePrefix ++ " no bindclass given!")
  else
    let evaluate := outside.evaluate "datasource" id
      (getVariables params ++ bindVariable outside (text metaData.bindClass))
    Report.each metaData.fields (validateField evaluate messagePrefix)

def validateDataSource (id : String) : Check :=
  let messagePrefix := text (provider.resourceNameForDataSource id) ++ ": datasource '" ++ id ++ "':"
  .looking (provider.getDatasource id) fun datasource =>
    match datasource.map (·.config) with
    | none => .raise .nullPointer
    | some config =>
      (checkPermissions permissionNames config.permissions messagePrefix).andThen <|
      (Report.each config.linkpanel fun linkpanel =>
        validateLinkPanel provider permissionNames linkpanel messagePrefix).andThen <|
      match config.metaData with
      | none => .raise .nullPointer
      | some metaData => validateFields outside id messagePrefix config.params metaData

def validateDataSources : Check :=
  Report.each (provider.datasources.values.map (·.id)) (validateDataSource outside provider permissionNames)

def validateActionDatasource (action : Action) (params : Params) (actionOrigin : String)
    (datasourceRef : DatasourceRef) : Check :=
  let dsId := datasourceRef.id
  (validateConditionForAction outside action.id params datasourceRef.condition
    (actionOrigin ++ ", datasource '" ++ dsId ++ "'")).andThen <|
  .looking (provider.getDatasource dsId) fun
    | none => .error (actionOrigin ++ "  references the unknown datasource '" ++ dsId ++ "'.")
    | some _ => validateDataSourceParameters provider actionOrigin datasourceRef (getParameterMap params)

def validateAction (eventId : String) (action : Action) : Check :=
  let actionOrigin := text (provider.resourceNameForEvent eventId) ++ ": action '" ++ action.id ++ "':"
  match action.config with
  | none => .raise .nullPointer
  | some config =>
    (validateConditionForAction outside action.id config.params action.condition actionOrigin).andThen <|
    (checkPermissions permissionNames config.permissions actionOrigin).andThen <|
    match action.datasource with
    | none => .ok
    | some datasourceRef => validateActionDatasource outside provider action config.params actionOrigin datasourceRef

def validateEvent (eventId : String) : Check :=
  match provider.getEvent eventId with
  | none => .raise .nullPointer
  | some event =>
    (checkPermissions permissionNames event.permissions
      (text (provider.resourceNameForEvent eventId) ++ ": event '" ++ eventId ++ "'")).andThen <|
    Report.each event.actions (validateAction outside provider permissionNames eventId)

def validateActions : Check :=
  Report.each (provider.events.values.map (·.id)) (validateEvent outside provider permissionNames)

/-! ## Pages -/

def validateActionRef (page : PageDefinition) (actionRef : ActionRef) : Check :=
  let origin := getPagePrefix provider page.id
  let actionOrigin := origin ++ ", action '" ++ actionRef.id ++ "'"
  let eventId := actionRef.eventId
  (validateIncludeConditionForPage outside page.config.urlSchema actionRef.condition page.id
    actionOrigin).andThen <|
  (checkPermissions permissionNames actionRef.permissions actionOrigin).andThen <|
  match provider.getEvent eventId with
  | none => .error (origin ++ " references the unknown event '" ++ eventId ++ "'.")
  | some _ =>
    match (provider.getActions eventId).bind fun actions => actions actionRef.id with
    | none =>
      .error (origin ++ " references the unknown action '" ++ actionRef.id ++ "' (from event '" ++
        eventId ++ "').")
    | some _ => validateActionParameters provider page actionRef

def validateDatasourceRef (page : PageDefinition) (datasourceRef : DatasourceRef) : Check :=
  let origin := getPagePrefix provider page.id
  let dsOrigin := origin ++ ", datasource '" ++ datasourceRef.id ++ "'"
  (validateIncludeConditionForPage outside page.config.urlSchema datasourceRef.condition page.id
    dsOrigin).andThen <|
  (checkPermissions permissionNames datasourceRef.permissions dsOrigin).andThen <|
  .looking (provider.getDatasource datasourceRef.id) fun
    | none => .error (origin ++ " references the unknown datasource '" ++ datasourceRef.id ++ "'.")
    | some _ => validateDataSourceParameters provider origin datasourceRef (getAllPageParams page)

/-- The element with number `j` of the section with number `i`. -/
def validateElement (page : PageDefinition) (i : Nat) (numbered : SectionelementDef × Nat) : Check :=
  let element := numbered.1
  let elementOrigin := getPagePrefix provider page.id ++ " section[" ++ toString i ++ "]/element[" ++
    toString numbered.2 ++ "]"
  let urlSchema := page.config.urlSchema
  (validateExpressionForPage outside urlSchema element.folded page.id elementOrigin "folded").andThen <|
  (validateExpressionForPage outside urlSchema element.passive page.id elementOrigin "passive").andThen <|
  match element.ref with
  | .action actionRef => validateActionRef outside provider permissionNames page actionRef
  | .datasource datasourceRef => validateDatasourceRef outside provider permissionNames page datasourceRef

def validateSection (page : PageDefinition) (numbered : SectionDef × Nat) : Check :=
  let sectionOrigin := getPagePrefix provider page.id ++ " section[" ++ toString numbered.2 ++ "]"
  (validateExpressionForPage outside page.config.urlSchema numbered.1.hidden page.id sectionOrigin
    "hidden").andThen <|
  Report.each (numbered.1.element.zipIdx 1)
    (validateElement outside provider permissionNames page numbered.2)

def validatePage (pageId : Option String) : Check :=
  match provider.getPage pageId with
  | none => .raise .nullPointer
  | some page =>
    (checkPermissions permissionNames page.config.permissions (getPagePrefix provider pageId)).andThen <|
    Report.each (page.structureDef.zipIdx 1) (validateSection outside provider permissionNames page)

def validateApplication : Check :=
  (validateApplicationRootConfig provider permissionNames).andThen <|
  (validateDataSources outside provider permissionNames).andThen <|
  (validateActions outside provider permissionNames).andThen <|
  Report.each (provider.pages.values.map (·.id)) (validatePage outside provider permissionNames)

/-- `validate`: the errors that were added, and the exception that ended it, before they are
processed. -/
def validate : Check :=
  (readPermissions provider).andThen <|
  (validateApplicationInfo provider (declaredPermissions provider)).andThen <|
  validateApplication outside provider (declaredPermissions provider)

end Validator
end AppNG
