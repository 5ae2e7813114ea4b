/-!
# Pages.Definitions

The source definitions of an application: pages with their sections and elements, events with
their actions, datasources, and the provider that looks them up.

A reference names a definition. Reference, event and definition carry permissions of their own,
and a reference may carry an include condition.
-/

namespace AppNG
namespace Pages

structure Permission where
  ref : String
  mode : Option String
  deriving DecidableEq, Repr

/-- A set of permissions together with the name of what they protect. -/
structure PermissionOwner where
  name : String
  permissions : List Permission
  deriving DecidableEq, Repr

structure Label where
  id : Option String
  value : Option String
  deriving DecidableEq, Repr

structure Condition where
  expression : Option String
  deriving DecidableEq, Repr

structure Param where
  name : String
  value : Option String
  default : Option String
  deriving DecidableEq, Repr

structure UrlSchema where
  urlParams : List Param
  deriving DecidableEq, Repr

structure DataConfig where
  title : Option Label
  permissions : List Permission
  deriving DecidableEq, Repr

structure DatasourceRef where
  id : String
  mode : Option String
  condition : Option Condition
  permissions : List Permission
  deriving DecidableEq, Repr

structure ActionRef where
  id : String
  eventId : String
  mode : Option String
  condition : Option Condition
  permissions : List Permission
  onSuccess : Option String
  forceForward : Bool
  deriving DecidableEq, Repr

structure Datasource where
  id : String
  config : DataConfig
  /-- The id of the bean that provides the data, `none` for a static datasource. -/
  bean : Option String
  deriving DecidableEq, Repr

structure Action where
  id : String
  config : Option DataConfig
  condition : Option Condition
  datasource : Option DatasourceRef
  bean : Option String
  deriving DecidableEq, Repr

structure Event where
  id : String
  permissions : List Permission
  deriving DecidableEq, Repr

/-- The schema admits exactly one of the two in an element. -/
inductive ElementRef where
  | datasource (ref : DatasourceRef)
  | action (ref : ActionRef)
  deriving DecidableEq, Repr

structure SectionelementDef where
  ref : ElementRef
  folded : Option String
  passive : Option String
  mode : Option String
  deriving DecidableEq, Repr

structure SectionConfig where
  title : Option Label
  deriving DecidableEq, Repr

structure SectionDef where
  id : Option String
  title : Option Label
  config : Option SectionConfig
  hidden : Option String
  element : List SectionelementDef
  deriving DecidableEq, Repr

structure PageConfig where
  permissions : List Permission
  urlSchema : UrlSchema
  deriving DecidableEq, Repr

structure PageDefinition where
  id : Option String
  type : Option String
  config : PageConfig
  structureDef : List SectionDef
  deriving DecidableEq, Repr

namespace PermissionOwner

def ofPage (page : PageDefinition) : PermissionOwner :=
  ⟨"page:" ++ page.id.getD "null", page.config.permissions⟩

def ofEvent (event : Event) : PermissionOwner := ⟨"event:" ++ event.id, event.permissions⟩

/-- An action without a configuration owns no permissions. -/
def ofAction (action : Action) : PermissionOwner :=
  ⟨"action:" ++ action.id, (action.config.map (·.permissions)).getD []⟩

def ofActionRef (ref : ActionRef) : PermissionOwner :=
  ⟨"action-reference:" ++ ref.id, ref.permissions⟩

def ofDatasource (datasource : Datasource) : PermissionOwner :=
  ⟨"datasource:" ++ datasource.id, datasource.config.permissions⟩

def ofDatasourceRef (ref : DatasourceRef) : PermissionOwner :=
  ⟨"datasource-reference:" ++ ref.id, ref.permissions⟩

end PermissionOwner

/-- The lookups of a loaded configuration. A page is registered under its own id. -/
structure ApplicationConfigProvider where
  getDefaultPage : Option String
  getPage : Option String → Option PageDefinition
  getEvent : String → Option Event
  getAction : String → String → Option Action
  getDatasource : String → Option Datasource
  page_id : ∀ {id page}, getPage id = some page → page.id = id

end Pages
end AppNG
