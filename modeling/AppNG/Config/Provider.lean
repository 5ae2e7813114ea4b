import AppNG.Config.Datasource
import AppNG.Lib.Loop
import Mathlib.Logic.Function.Basic

/-!
# Config.Provider

`ApplicationConfigProviderImpl`: the files of an application that are read, the datasources that
inherit from others, and the lookups.

A map is a function from its keys. A file that cannot be unmarshalled is skipped by the code and
does not occur here.

* `processInheritance`: the loop over the datasources whose ancestor was not found yet.
* `view_lookup`: no lookup changes what a provider shows, bindings aside that every lookup sets.
* `answers_of_view`: providers that show the same answer all lookups alike.
-/

namespace AppNG
namespace Config

structure Action (C : Type) where
  id : String
  content : C

structure Event (C : Type) where
  id : String
  actions : List (Action C)
  content : C

structure PageDefinition (C : Type) where
  id : String
  type : Option String
  content : C

structure ApplicationRootConfig (C : Type) where
  /-- none: there is no session configuration -/
  sessionParam : Option (List String)
  pages : Option (List (PageDefinition C))
  content : C

/-- What a file holds. -/
inductive ConfigObject (C : Type) where
  | applicationRootConfig (config : ApplicationRootConfig C)
  | pages (pageList : List (PageDefinition C))
  | pageDefinition (page : PageDefinition C)
  | datasource (ds : Datasource C)
  | datasources (datasourceList : List (Datasource C))
  | event (ev : Event C)
  | events (eventList : List (Event C))
  | platform
  | unsupported

/-- Why the loading is given up. -/
inductive Failure where
  | secondRootConfig
  | nullPointer
  deriving DecidableEq, Repr

/-- What is built while the files are read; `clear` leaves no map null. -/
structure LoadState (C : Type) where
  pageMap : String → Option (PageDefinition C)
  actionMap : String → Option (String → Option (Action C))
  datasourceMap : String → Option (Datasource C)
  eventMap : String → Option (Event C)
  rootConfig : Option (ApplicationRootConfig C)
  defaultPage : Option String
  sessionParams : String → Bool
  descendantDatasources : List (Datasource C)

variable {C : Type}

def clear : LoadState C where
  pageMap := fun _ => none
  actionMap := fun _ => none
  datasourceMap := fun _ => none
  eventMap := fun _ => none
  rootConfig := none
  defaultPage := none
  sessionParams := fun _ => false
  descendantDatasources := []

/-! ## Reading -/

def addPage (config : LoadState C) (p : PageDefinition C) : LoadState C :=
  { config with
    pageMap := Function.update config.pageMap p.id (some p)
    defaultPage := if p.type = some "index" then some p.id else config.defaultPage }

def addEvent (config : LoadState C) (e : Event C) : LoadState C :=
  let actions : String → Option (Action C) := e.actions.foldl (fun actions action =>
    Function.update actions action.id (some action)) fun _ => none
  { config with
    eventMap := Function.update config.eventMap e.id (some e)
    actionMap := Function.update config.actionMap e.id (some actions) }

def addDataSource (config : LoadState C) (ds : Datasource C) : LoadState C :=
  { config with datasourceMap := Function.update config.datasourceMap ds.id (some ds) }

def readConfig (config : LoadState C) : ConfigObject C → LoadState C × Option Failure
  | .applicationRootConfig rootConfig =>
    if config.rootConfig.isSome then (config, some .secondRootConfig)
    else
      let config := { config with rootConfig := some rootConfig }
      match rootConfig.sessionParam with
      | none => (config, some .nullPointer)
      | some sessionParam =>
        let sessionParams := sessionParam.foldl (fun sessionParams param =>
          Function.update sessionParams param true) config.sessionParams
        ((rootConfig.pages.getD []).foldl addPage { config with sessionParams }, none)
  | .pages pageList => (pageList.foldl addPage config, none)
  | .pageDefinition page => (addPage config page, none)
  | .datasource ds => (addDataSource config ds, none)
  | .datasources datasourceList =>
    (datasourceList.foldl (fun config ds =>
      if isInheriting ds.id then
        { config with descendantDatasources := config.descendantDatasources ++ [ds] }
      else addDataSource config ds) config, none)
  | .event ev => (addEvent config ev, none)
  | .events eventList => (eventList.foldl addEvent config, none)
  | .platform => (config, none)
  | .unsupported => (config, none)

/-! ## Inheritance -/

/-- One round of the inner loop, on the map and the datasources left over. The bindings are set in
the ancestor that is registered. -/
def processDescendant (state : (String → Option (Datasource C)) × List (Datasource C))
    (ds : Datasource C) :
    ((String → Option (Datasource C)) × List (Datasource C)) × Option Failure :=
  let (datasourceMap, descendantsWithoutAncestor) := state
  match datasourceMap (getAncestorId ds.id) with
  | none => ((datasourceMap, descendantsWithoutAncestor ++ [ds]), none)
  | some ancestor =>
    match initMetaData ancestor with
    | none => (state, some .nullPointer)
    | some ancestor =>
      let datasourceMap := Function.update datasourceMap (getAncestorId ds.id) (some ancestor)
      match inherit ds ancestor with
      | none => ((datasourceMap, descendantsWithoutAncestor), some .nullPointer)
      | some descendant =>
        ((Function.update datasourceMap descendant.id (some descendant),
          descendantsWithoutAncestor), none)

/-- The map, and the datasources that are reported. -/
def processInheritance (datasourceMap : String → Option (Datasource C))
    (descendantDatasources : List (Datasource C)) :
    ((String → Option (Datasource C)) × List (Datasource C)) × Option Failure :=
  match descendantDatasources with
  | [] => ((datasourceMap, []), none)
  | ds :: dss =>
    match Loop.foldUntil processDescendant (datasourceMap, []) (ds :: dss) with
    | (state, some failure) => ((state.1, []), some failure)
    | (state, none) =>
      if _ : (ds :: dss).length ≤ state.2.length then (state, none)
      else processInheritance state.1 state.2
termination_by descendantDatasources.length
decreasing_by
  rename_i h
  exact Nat.lt_of_not_le h

@[simp] theorem processInheritance_nil (datasourceMap : String → Option (Datasource C)) :
    processInheritance datasourceMap [] = ((datasourceMap, []), none) := by
  rw [processInheritance]

/-! ## The provider -/

/-- The objects of a stream. -/
inductive StreamObject (C : Type) where
  | pageMap (o : String → Option (PageDefinition C))
  | actionMap (o : String → Option (String → Option (Action C)))
  | datasourceMap (o : String → Option (Datasource C))
  | eventMap (o : String → Option (Event C))
  | rootConfig (o : ApplicationRootConfig C)
  | string (o : String)
  | set (o : String → Bool)
  | null

/-- Every field may be null, with none for it. -/
structure Provider (C : Type) where
  pageMap : Option (String → Option (PageDefinition C))
  actionMap : Option (String → Option (String → Option (Action C)))
  datasourceMap : Option (String → Option (Datasource C))
  eventMap : Option (String → Option (Event C))
  rootConfig : Option (ApplicationRootConfig C)
  defaultPage : Option String
  sessionParams : Option (String → Bool)
  xmlFiles : Option (List (ConfigObject C))
  devMode : Bool
  data : Option (List (StreamObject C))

def writeData (config : LoadState C) : List (StreamObject C) :=
  [.pageMap config.pageMap, .actionMap config.actionMap, .datasourceMap config.datasourceMap,
    .eventMap config.eventMap, (config.rootConfig.map .rootConfig).getD .null] ++
    (config.defaultPage.map .string).toList ++ [.set config.sessionParams]

/-- The files are read, and the inheritance is processed. -/
def readResources (xmlFiles : List (ConfigObject C)) : LoadState C × Option Failure :=
  match Loop.foldUntil readConfig clear xmlFiles with
  | (config, some failure) => (config, some failure)
  | (config, none) =>
    let (state, failure) := processInheritance config.datasourceMap config.descendantDatasources
    ({ config with datasourceMap := state.1 }, failure)

/-- A failure is logged; then no data is written. -/
def loadConfig (devMode : Bool) (xmlFiles : List (ConfigObject C)) : Provider C :=
  let (config, failure) := readResources xmlFiles
  { pageMap := some config.pageMap
    actionMap := some config.actionMap
    datasourceMap := some config.datasourceMap
    eventMap := some config.eventMap
    rootConfig := config.rootConfig
    defaultPage := config.defaultPage
    sessionParams := some config.sessionParams
    xmlFiles := some xmlFiles
    devMode := devMode
    data := if failure = none then some (writeData config) else none }

/-! ## Lookups -/

inductive Lookup where
  | page (id : String)
  | event (id : String)
  | action (eventId actionId : String)
  | datasource (id : String)
  | applicationRootConfig
  | defaultPage
  | sessionParams

inductive Answer (C : Type) where
  | page (o : Option (PageDefinition C))
  | event (o : Option (Event C))
  | action (o : Option (Action C))
  | datasource (o : Option (Datasource C))
  | applicationRootConfig (o : Option (ApplicationRootConfig C))
  | string (o : Option String)
  | set (o : Option (String → Bool))
  | threw

/-- The id within its event. None: `substring` throws. -/
def realId (eventId actionId : String) : Option String :=
  if (eventId ++ ":").toList <+: actionId.toList then
    if actionId.length < (eventId ++ ":").length + 1 then none
    else some (String.ofList (actionId.toList.drop ((eventId ++ ":").length + 1)))
  else some actionId

def getAction (provider : Provider C) (eventId actionId : String) : Answer C :=
  match realId eventId actionId, provider.actionMap with
  | some realId, some actionMap => .action ((actionMap eventId).bind fun actions => actions realId)
  | _, _ => .threw

/-- The bindings are set in the datasource that is registered. -/
def getDatasource (provider : Provider C) (id : String) : Answer C × Provider C :=
  match provider.datasourceMap with
  | none => (.threw, provider)
  | some datasourceMap =>
    match datasourceMap id with
    | none => (.datasource none, provider)
    | some ds =>
      match initMetaData ds with
      | none => (.threw, provider)
      | some ds => (.datasource (some ds),
        { provider with datasourceMap := some (Function.update datasourceMap id (some ds)) })

def lookup (provider : Provider C) : Lookup → Answer C × Provider C
  | .page id => (match provider.pageMap with
    | some pageMap => .page (pageMap id)
    | none => .threw, provider)
  | .event id => (match provider.eventMap with
    | some eventMap => .event (eventMap id)
    | none => .threw, provider)
  | .action eventId actionId => (getAction provider eventId actionId, provider)
  | .datasource id => getDatasource provider id
  | .applicationRootConfig => (.applicationRootConfig provider.rootConfig, provider)
  | .defaultPage => (.string provider.defaultPage, provider)
  | .sessionParams => (.set provider.sessionParams, provider)

/-- The provider after some lookups. -/
def afterLookups (provider : Provider C) (lookups : List Lookup) : Provider C :=
  lookups.foldl (fun provider l => (lookup provider l).2) provider

def answers (provider : Provider C) : List Lookup → List (Answer C)
  | [] => []
  | l :: ls => (lookup provider l).1 :: answers (lookup provider l).2 ls

/-! ## Bindings that a lookup sets anyway -/

/-- With its bindings set, if it has metadata. -/
def settled (ds : Datasource C) : Datasource C := (initMetaData ds).getD ds

theorem initMetaData_settled (ds : Datasource C) : initMetaData (settled ds) = initMetaData ds := by
  unfold settled
  cases h : initMetaData ds with
  | none => exact h
  | some ds' => exact initMetaData_idem h

theorem settled_of_initMetaData {ds ds' : Datasource C} (h : initMetaData ds = some ds') :
    settled ds = ds' := by
  rw [settled, h]
  rfl

theorem settled_idem (ds : Datasource C) : settled (settled ds) = settled ds := by
  cases h : initMetaData ds with
  | none =>
    have hds : settled ds = ds := by rw [settled, h]; rfl
    rw [hds, hds]
  | some ds' =>
    rw [settled_of_initMetaData h, settled_of_initMetaData (initMetaData_idem h)]

/-- What the lookups make of a map of datasources. -/
def settledMap (m : String → Option (Datasource C)) (id : String) : Option (Datasource C) :=
  (m id).map settled

/-- Setting the bindings of a datasource in place. -/
theorem settledMap_update {m : String → Option (Datasource C)} {id : String} {ds ds' : Datasource C}
    (h : m id = some ds) (hinit : initMetaData ds = some ds') :
    settledMap (Function.update m id (some ds')) = settledMap m := by
  funext k
  unfold settledMap
  by_cases hk : k = id
  · subst hk
    rw [Function.update_self, h, Option.map_some, Option.map_some, settled_of_initMetaData hinit,
      settled_of_initMetaData (initMetaData_idem hinit)]
  · rw [Function.update_of_ne hk]

/-- What a provider shows. -/
structure View (C : Type) where
  pageMap : Option (String → Option (PageDefinition C))
  actionMap : Option (String → Option (String → Option (Action C)))
  datasourceMap : Option (String → Option (Datasource C))
  eventMap : Option (String → Option (Event C))
  rootConfig : Option (ApplicationRootConfig C)
  defaultPage : Option String
  sessionParams : Option (String → Bool)

def view (provider : Provider C) : View C where
  pageMap := provider.pageMap
  actionMap := provider.actionMap
  datasourceMap := provider.datasourceMap.map settledMap
  eventMap := provider.eventMap
  rootConfig := provider.rootConfig
  defaultPage := provider.defaultPage
  sessionParams := provider.sessionParams

/-- No lookup changes it. -/
theorem view_lookup (provider : Provider C) (l : Lookup) :
    view (lookup provider l).2 = view provider := by
  cases l with
  | datasource id =>
    simp only [lookup, getDatasource]
    cases hmap : provider.datasourceMap with
    | none => rfl
    | some m =>
      cases hds : m id with
      | none => simp only [hds]
      | some ds =>
        cases hinit : initMetaData ds with
        | none => simp only [hds, hinit]
        | some ds' => simp [view, hmap, hds, hinit, settledMap_update hds hinit]
  | page id => rfl
  | event id => rfl
  | action eventId actionId => rfl
  | applicationRootConfig => rfl
  | defaultPage => rfl
  | sessionParams => rfl

theorem view_afterLookups (provider : Provider C) (ls : List Lookup) :
    view (afterLookups provider ls) = view provider := by
  unfold afterLookups
  induction ls generalizing provider with
  | nil => rfl
  | cons l ls ih => rw [List.foldl_cons, ih, view_lookup]

/-- The answer for a datasource. -/
theorem getDatasource_answer (provider : Provider C) (id : String) :
    (getDatasource provider id).1 =
      match provider.datasourceMap.map settledMap with
      | none => .threw
      | some m =>
        match m id with
        | none => .datasource none
        | some ds =>
          match initMetaData ds with
          | none => .threw
          | some ds => .datasource (some ds) := by
  unfold getDatasource
  cases provider.datasourceMap with
  | none => rfl
  | some m =>
    simp only [Option.map_some, settledMap]
    cases m id with
    | none => rfl
    | some ds =>
      simp only [Option.map_some, initMetaData_settled]
      cases initMetaData ds <;> rfl

/-- The answers depend on nothing else. -/
theorem lookup_of_view {p q : Provider C} (h : view p = view q) (l : Lookup) :
    (lookup p l).1 = (lookup q l).1 := by
  simp only [view, View.mk.injEq] at h
  obtain ⟨hpage, haction, hdatasource, hevent, hroot, hdefault, hsession⟩ := h
  cases l with
  | page id => simp only [lookup, hpage]
  | event id => simp only [lookup, hevent]
  | action eventId actionId => simp only [lookup, getAction, haction]
  | datasource id => simp only [lookup, getDatasource_answer, hdatasource]
  | applicationRootConfig => simp only [lookup, hroot]
  | defaultPage => simp only [lookup, hdefault]
  | sessionParams => simp only [lookup, hsession]

theorem answers_of_view (ls : List Lookup) :
    ∀ {p q : Provider C}, view p = view q → answers p ls = answers q ls := by
  induction ls with
  | nil => intro p q _; rfl
  | cons l ls ih =>
    intro p q h
    have hnext : view (lookup p l).2 = view (lookup q l).2 := by
      rw [view_lookup, view_lookup, h]
    rw [answers, answers, lookup_of_view h l, ih hnext]

end Config
end AppNG
