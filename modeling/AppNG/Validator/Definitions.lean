import AppNG.Config.Provider
import AppNG.Lib.Keyed
import AppNG.Pages.Definitions

/-!
# Validator.Definitions

The configuration of an application as `ConfigValidator` reads it: the definitions that pages are
built from, with their parameters, link panels, metadata and the options of their beans besides,
and the roles, permissions and properties of `application.xml`.

* `Provider`: the maps of an `ApplicationConfigProvider`; an event brings its actions along.
* `Provider.toPages`: what the page processing looks up in them.
-/

namespace AppNG
namespace Validator

open Pages (Permission Condition Param Label)

abbrev Params := Option (List Param)

inductive Linkmode where
  | intern
  | external
  | webservice
  | rest
  deriving DecidableEq, Repr

/-- A `Link`, or another `Linkable`. -/
inductive Linkable where
  | link (target : String) (mode : Linkmode) (permissions : List Permission)
  | openapiAction (permissions : List Permission)
  deriving DecidableEq, Repr

structure Linkpanel where
  id : String
  permissions : List Permission
  links : List Linkable
  deriving DecidableEq, Repr

structure FieldDef where
  name : String
  condition : Option Condition
  hidden : Option String
  readonly : Option String
  deriving DecidableEq, Repr

structure MetaData where
  bindClass : Option String
  fields : List FieldDef
  deriving DecidableEq, Repr

structure DataConfig extends Pages.DataConfig where
  params : Params
  metaData : Option MetaData
  linkpanel : List Linkpanel
  deriving DecidableEq, Repr

structure BeanOption where
  name : String
  otherAttributes : List (String × String)
  deriving DecidableEq, Repr

structure Bean where
  id : String
  options : List BeanOption
  deriving DecidableEq, Repr

structure DatasourceRef extends Pages.DatasourceRef where
  params : Params
  deriving DecidableEq, Repr

structure ActionRef extends Pages.ActionRef where
  params : Params
  deriving DecidableEq, Repr

structure Datasource where
  id : String
  config : DataConfig
  bean : Option Bean
  deriving DecidableEq, Repr

structure Action where
  id : String
  config : Option DataConfig
  condition : Option Condition
  datasource : Option DatasourceRef
  bean : Option Bean
  deriving DecidableEq, Repr

structure Event where
  id : String
  permissions : List Permission
  actions : List Action
  deriving DecidableEq, Repr

inductive ElementRef where
  | datasource (ref : DatasourceRef)
  | action (ref : ActionRef)
  deriving DecidableEq, Repr

structure SectionelementDef where
  ref : ElementRef
  folded : Option String
  passive : Option String
  mode : Option String
  deriving DecidableEq, Repr

structure SectionDef where
  id : Option String
  title : Option Label
  config : Option Pages.SectionConfig
  hidden : Option String
  element : List SectionelementDef
  deriving DecidableEq, Repr

structure UrlSchema where
  getParams : Params
  postParams : Params
  urlParams : Params
  deriving DecidableEq, Repr

structure PageConfig where
  permissions : List Permission
  urlSchema : UrlSchema
  deriving DecidableEq, Repr

structure PageDefinition where
  id : Option String
  type : Option String
  config : PageConfig
  structureDef : List SectionDef
  deriving DecidableEq, Repr

/-! ## application.xml -/

structure Role where
  name : String
  permission : List String
  deriving DecidableEq, Repr

structure ApplicationInfo where
  roles : Option (List Role)
  permissions : Option (List String)
  /-- none: there is no element `properties` -/
  properties : Option (List String)
  deriving DecidableEq, Repr

/-! ## The provider -/

/-- The exceptions that a lookup or a check may throw. -/
inductive Threw where
  | nullPointer
  | outOfBounds
  | evaluation
  deriving DecidableEq, Repr

structure Provider where
  applicationInfo : Option ApplicationInfo
  /-- The navigation of the root configuration, if there is one. -/
  applicationRootConfig : Option (Option Linkpanel)
  defaultPage : Option String
  pages : Keyed PageDefinition.id
  events : Keyed Event.id
  datasources : Keyed Datasource.id
  resourceNameForPage : Option String → Option String
  resourceNameForEvent : String → Option String
  resourceNameForDataSource : String → Option String

namespace Provider

variable (provider : Provider)

def getPage (id : Option String) : Option PageDefinition := provider.pages.get id

def getEvent (id : String) : Option Event := provider.events.get id

/-- `addEvent`: the last action of the event with an id is registered under it. -/
def getActions (eventId : String) : Option (String → Option Action) :=
  (provider.getEvent eventId).map fun event actionId =>
    event.actions.reverse.find? fun action => action.id = actionId

/-- `substring` throws where nothing is left of the id. -/
def getAction (eventId actionId : String) : Except Threw (Option Action) :=
  match Config.realId eventId actionId with
  | none => .error .outOfBounds
  | some realId => .ok ((provider.getActions eventId).bind fun actions => actions realId)

/-- `initMetaData` reads the metadata of the datasource. -/
def getDatasource (id : String) : Except Threw (Option Datasource) :=
  match provider.datasources.get id with
  | none => .ok none
  | some datasource =>
    if datasource.config.metaData.isNone then .error .nullPointer else .ok (some datasource)

end Provider

/-! ## What a page is built from -/

def Datasource.toPages (datasource : Datasource) : Pages.Datasource :=
  ⟨datasource.id, datasource.config.toDataConfig, datasource.bean.map (·.id)⟩

def Action.toPages (action : Action) : Pages.Action where
  id := action.id
  config := action.config.map (·.toDataConfig)
  condition := action.condition
  datasource := action.datasource.map (·.toDatasourceRef)
  bean := action.bean.map (·.id)

def Event.toPages (event : Event) : Pages.Event := ⟨event.id, event.permissions⟩

def ElementRef.toPages : ElementRef → Pages.ElementRef
  | .datasource ref => .datasource ref.toDatasourceRef
  | .action ref => .action ref.toActionRef

def SectionelementDef.toPages (element : SectionelementDef) : Pages.SectionelementDef :=
  ⟨element.ref.toPages, element.folded, element.passive, element.mode⟩

def SectionDef.toPages (sectionDef : SectionDef) : Pages.SectionDef where
  id := sectionDef.id
  title := sectionDef.title
  config := sectionDef.config
  hidden := sectionDef.hidden
  element := sectionDef.element.map SectionelementDef.toPages

def PageConfig.toPages (config : PageConfig) : Pages.PageConfig :=
  ⟨config.permissions, ⟨config.urlSchema.urlParams.getD []⟩⟩

def PageDefinition.toPages (page : PageDefinition) : Pages.PageDefinition where
  id := page.id
  type := page.type
  config := page.config.toPages
  structureDef := page.structureDef.map SectionDef.toPages

/-- What a lookup gives; an exception gives nothing. -/
def found {α : Type} : Except Threw (Option α) → Option α
  | .ok o => o
  | .error _ => none

def Provider.toPages (provider : Provider) : Pages.ApplicationConfigProvider where
  getDefaultPage := provider.defaultPage
  getPage := fun id => (provider.getPage id).map PageDefinition.toPages
  getEvent := fun id => (provider.getEvent id).map Event.toPages
  getAction := fun eventId actionId => (found (provider.getAction eventId actionId)).map Action.toPages
  getDatasource := fun id => (found (provider.getDatasource id)).map Datasource.toPages
  page_id := by
    intro id page h
    obtain ⟨page', hpage, rfl⟩ := Option.map_eq_some_iff.mp h
    exact (Keyed.get_eq_some.mp hpage).2

end Validator
end AppNG
