import AppNG.Lib.Loop
import AppNG.Pages.Elements

/-!
# Pages.Provider

`ApplicationProvider`: from a requested page id to the structure of a page.

* `checkConditionsAndPermissions` removes elements from the page definition and gives sections
  without an id one.
* `buildStructure` calls every element that is left, section by section; the first exception ends
  it (`Loop.foldUntil`).
* `process` and `processPage` choose the page, check its permissions and build its structure.
-/

namespace AppNG
namespace Pages

open Loop

/-! ## The pre-filter -/

def filterScope (rq : Request) : EvalScope := { parameters := rq.parameters, path := true }

/-- Whether an element stays in the page definition. Without a condition it always does. -/
def accessible (rq : Request) (element : SectionelementDef) : Bool :=
  match element.ref with
  | .action ref =>
    ref.condition.isNone ||
      (conditionMatches rq (filterScope rq) ref.condition && rq.hasPermissions (.ofActionRef ref))
  | .datasource ref =>
    ref.condition.isNone ||
      (conditionMatches rq (filterScope rq) ref.condition &&
        rq.hasPermissions (.ofDatasourceRef ref))

def ElementRef.id : ElementRef → String
  | .datasource ref => ref.id
  | .action ref => ref.id

/-- The id of a section without one: that of its title, of the title of its configuration, or of
the first element that is not passive. A configuration without a title is a null pointer. -/
def sectionId (rq : Request) (sectionDef : SectionDef) (elements : List SectionelementDef) :
    Except Failure (Option String) :=
  match sectionDef.id with
  | some id => .ok (some id)
  | none =>
    match sectionDef.title.bind (·.id) with
    | some id => .ok (some id)
    | none =>
      let fromElements := (elements.find? fun e =>
        Java.isBlank e.passive || !rq.evaluate (filterScope rq) (e.passive.getD "")).map (·.ref.id)
      match sectionDef.config with
      | none => .ok fromElements
      | some config =>
        match config.title with
        | none => .error .nullPointer
        | some title =>
          match title.id with
          | some id => .ok (some id)
          | none => .ok fromElements

def filterSection (rq : Request) (sectionDef : SectionDef) : Except Failure SectionDef :=
  let element := sectionDef.element.filter (accessible rq)
  match sectionId rq sectionDef element with
  | .error f => .error f
  | .ok id => .ok { sectionDef with id, element }

def checkConditionsAndPermissions (rq : Request) (page : PageDefinition) :
    Except Failure (List SectionDef) :=
  page.structureDef.mapM (filterSection rq)

/-! ## The structure -/

/-- An element of the structure, and the definition it was made from. -/
structure Sectionelement where
  source : SectionelementDef
  title : Option Label
  folded : Option String
  passive : Option String
  mode : Option String
  deriving DecidableEq, Repr

structure Section where
  id : Option String
  title : Option Label
  hidden : Option String
  element : List Sectionelement
  deriving DecidableEq, Repr

abbrev Structure := List Section

/-- A datasource of the page, and whether its data is asked for at the end. -/
structure DataSourceWrapper where
  datasource : Datasource
  mustPerform : Bool
  deriving DecidableEq, Repr

/-- What `buildStructure` has built so far; `executed` records the actions that ran. -/
structure Build where
  sections : Structure := []
  dataSourceWrappers : List DataSourceWrapper := []
  executed : List (ActionRef × Action) := []
  hasRedirect : Bool := false
  deriving DecidableEq, Repr

/-- The state of `addElements`: the section under construction besides the rest. -/
structure Adding where
  build : Build
  title : Option Label
  element : List Sectionelement
  deriving DecidableEq, Repr

def mustSetTitle (rq : Request) (st : Adding) (element : SectionelementDef) : Bool :=
  !Java.booleanValue (getString rq rq.pageScope element.passive) && st.title.isNone

def makeElement (rq : Request) (element : SectionelementDef) (title : Option Label) :
    Sectionelement where
  source := element
  title := title
  folded := getString rq rq.pageScope element.folded
  passive := getString rq rq.pageScope element.passive
  mode := element.mode

def addDatasource (rq : Request) (mustPerform : Bool) (st : Adding) (element : SectionelementDef)
    (ref : DatasourceRef) : Adding × Option Failure :=
  match callDataSource rq rq.parameters ref with
  | .error f => (st, some f)
  | .ok ds =>
    match ds.datasource, ds.doInclude with
    | some datasource, true =>
      let title := datasource.config.title
      if mustSetTitle rq st element && title.isNone then (st, some .nullPointer)
      else
        ({ build := { st.build with
             dataSourceWrappers := st.build.dataSourceWrappers ++ [⟨datasource, mustPerform⟩] }
           title := if mustSetTitle rq st element then title else st.title
           element := st.element ++ [makeElement rq element title] }, none)
    | _, _ => (st, none)

/-- The branch of `addElements` for an action, with `getActionSectionElement`. The configuration
is read from the action also when there is none, because its event or its reference is not
permitted. -/
def addAction (rq : Request) (st : Adding) (element : SectionelementDef) (ref : ActionRef) :
    Adding × Option Failure :=
  match callAction rq ref with
  | .error f => (st, some f)
  | .ok ca =>
    let ran := ca.perform rq
    let build := { st.build with executed := st.build.executed ++ ran.1.map (ref, ·) }
    match ran.2 with
    | .error f => ({ st with build }, some f)
    | .ok ca =>
      match ca.action with
      | none => ({ st with build }, some .nullPointer)
      | some action =>
        let title := action.config.bind (·.title)
        if mustSetTitle rq st element && title.isNone then
          ({ st with build }, some .nullPointer)
        else
          let redirects := ca.doExecute && ca.onSuccess.isSome &&
            (!ca.hasErrors || ref.forceForward)
          ({ build := { build with hasRedirect := build.hasRedirect || redirects }
             title := if mustSetTitle rq st element then title else st.title
             element :=
               if ca.doInclude then st.element ++ [makeElement rq element title]
               else st.element }, none)

def addElement (rq : Request) (mustPerform : Bool) (st : Adding) (element : SectionelementDef) :
    Adding × Option Failure :=
  match element.ref with
  | .datasource ref => addDatasource rq mustPerform st element ref
  | .action ref => addAction rq st element ref

/-- Which datasources `buildStructure` performs: all, or those of the first section, or those of
the sections asked for. -/
structure Included where
  includeElements : Bool
  sectionIds : List String
  deriving DecidableEq, Repr

def Included.includes (inc : Included) (idx : Nat) (id : Option String) : Bool :=
  inc.includeElements || (idx == 0 && inc.sectionIds.isEmpty) ||
    (match id with | some id => inc.sectionIds.contains id | none => false)

/-- One pass of the loop over the sections. An empty section is not added. -/
def addSection (rq : Request) (inc : Included) (build : Build) (numbered : Nat × SectionDef) :
    Build × Option Failure :=
  let sectionDef := numbered.2
  let start : Adding := { build, title := sectionDef.title, element := [] }
  match foldUntil (addElement rq (inc.includes numbered.1 sectionDef.id)) start
      sectionDef.element with
  | (st, some f) => (st.build, some f)
  | (st, none) =>
    if st.element.isEmpty then (st.build, none)
    else
      ({ st.build with sections := st.build.sections ++
          [⟨sectionDef.id, st.title, getString rq rq.pageScope sectionDef.hidden, st.element⟩] },
        none)

def performWrapper (rq : Request) (wrapper : DataSourceWrapper) : Except Failure Bool :=
  if wrapper.mustPerform then performDataSource rq .forPage wrapper.datasource else .ok true

def performWrappers (rq : Request) : List DataSourceWrapper → Option Failure
  | [] => none
  | wrapper :: rest =>
    match performWrapper rq wrapper with
    | .error f => some f
    | .ok _ => performWrappers rq rest

/-- `buildStructure`: what was built and executed, and the exception if one ended it. -/
def buildStructure (rq : Request) (page : PageDefinition) (inc : Included) :
    Build × Option Failure :=
  match checkConditionsAndPermissions rq page with
  | .error f => ({}, some f)
  | .ok sectionDefs =>
    match foldUntil (addSection rq inc) {} (sectionDefs.zipIdx.map fun s => (s.2, s.1)) with
    | (build, some f) => (build, some f)
    | (build, none) =>
      if build.hasRedirect then (build, none)
      else (build, performWrappers rq build.dataSourceWrappers)

/-! ## Pages -/

structure PageReference where
  id : Option String := none
  type : Option String := none
  config : Option PageConfig := none
  sections : Option Structure := none
  deriving DecidableEq, Repr

/-- What a request for a page leads to: the reference that is returned, the URL schema the
parameters were read with, the page a structure was built from, and a redirect. -/
structure Processed where
  pageReference : Option PageReference
  urlSchema : Option UrlSchema := none
  builtFrom : Option PageDefinition := none
  redirectTarget : Option String := none
  deriving DecidableEq, Repr

/-- `PageParameterProcessor.processPageParams` on the URL parameters of the request: whether a
parameter was added from the session, and the schema with its values. -/
structure PageParams where
  urlParamsAdded : UrlSchema → Bool
  urlSchema : UrlSchema → UrlSchema

/-- The requested page, or the default page in place of an unknown one, and whether the default
page was taken. -/
def selectPage (config : ApplicationConfigProvider) (pageId : Option String) :
    Option PageDefinition × Option String × Bool :=
  match pageId with
  | none => (config.getPage config.getDefaultPage, config.getDefaultPage, true)
  | some id =>
    match config.getPage (some id) with
    | some page => (some page, some id, false)
    | none => (config.getPage config.getDefaultPage, config.getDefaultPage, true)

def redirectParams : List Param → String
  | [] => ""
  | param :: rest =>
    match param.value with
    | none => ""
    | some value => if Java.isBlank (some value) then "" else "/" ++ value ++ redirectParams rest

def getRedirectPath (rq : Request) (pageId : Option String) (urlSchema : UrlSchema) : String :=
  rq.applicationName ++ "/" ++ pageId.getD "null" ++ redirectParams urlSchema.urlParams

/-- The handlers around `buildStructure`. A `ProcessingException` leaves an empty structure,
any other exception leaves none. -/
def structureOrNone (outcome : Build × Option Failure) : Option Structure :=
  match outcome with
  | (build, none) => some build.sections
  | (_, some f) => if f.isProcessingException then some [] else none

/-- From the page whose permissions were checked to the structure. Reading the configuration of
no page is a null pointer. -/
def finishPage (rq : Request) (inc : Included) (pageReference : PageReference)
    (urlSchema : UrlSchema) (page : Option PageDefinition) : Except Failure Processed :=
  match page with
  | none => .error .nullPointer
  | some page =>
    .ok { pageReference := some { pageReference with
            sections := structureOrNone (buildStructure rq page inc) }
          urlSchema := some urlSchema
          builtFrom := some page }

def referenceTo (page : PageDefinition) : PageReference :=
  { id := page.id, type := page.type, config := some page.config }

/-- The page that is built: the default page in place of one that is not permitted. -/
def permittedOrDefault (rq : Request) (page : PageDefinition) : Option PageDefinition :=
  if rq.hasPermissions (.ofPage page) then some page
  else rq.config.getPage rq.config.getDefaultPage

def process (rq : Request) (params : PageParams) (pageId : Option String) :
    Except Failure Processed :=
  match selectPage rq.config pageId with
  | (none, _, _) => .ok { pageReference := some {} }
  | (some page, pageId, isDefault) =>
    let urlSchema := page.config.urlSchema
    if params.urlParamsAdded urlSchema || isDefault then
      .ok { pageReference := some (referenceTo page)
            urlSchema := some urlSchema
            redirectTarget := some (getRedirectPath rq pageId (params.urlSchema urlSchema)) }
    else finishPage rq ⟨true, []⟩ (referenceTo page) urlSchema (permittedOrDefault rq page)

def processPage (rq : Request) (pageId : Option String) (sectionIds : List String) :
    Except Failure Processed :=
  match selectPage rq.config pageId with
  | (none, _, _) => .ok { pageReference := none }
  | (some page, _, _) =>
    finishPage rq ⟨false, sectionIds⟩ (referenceTo page) page.config.urlSchema
      (permittedOrDefault rq page)

end Pages
end AppNG
