import AppNG.Pages.StructureExact
import AppNG.Validator.Accepted

/-!
# Validator.Processing

What the validation is for: the pages of a configuration it has nothing to say about.

`buildStructure` calls the elements of a page, looks up the event and the action or the datasource of
each, and the datasource of an action that it performs. A definition that is not there ends it with a
`ProcessingException`.

* `callAction_failure`, `retrieveData_failure`: references that were accepted are found.
* `resolves_buildStructure`: for a page of an accepted configuration the structure ends with an
  exception only where a bean or `processConfig` threw one, or with a null pointer.
-/

namespace AppNG
namespace Validator

open Loop
open Pages (Failure Request Adding Included)

variable {outside : Outside} {provider : Provider} {rq : Request}

/-- The exception comes from a bean, or from the fields and links of a definition. -/
def FromOutside (rq : Request) (f : Failure) : Prop :=
  (∃ config, rq.processConfig config = .error f) ∨
    (∃ moment datasource, rq.getData moment datasource = .error f) ∨
    ∃ action, rq.performBean action = .error f

/-! ## Lookups -/

theorem getDatasource_toPages (hconfig : rq.config = provider.toPages) {id : String}
    {datasource : Datasource} (h : provider.getDatasource id = .ok (some datasource)) :
    rq.config.getDatasource id = some datasource.toPages := by
  rw [hconfig]
  show (found (provider.getDatasource id)).map Datasource.toPages = _
  rw [h]
  rfl

theorem getEvent_toPages (hconfig : rq.config = provider.toPages) (id : String) :
    rq.config.getEvent id = (provider.getEvent id).map Event.toPages := by
  rw [hconfig]
  rfl

theorem getAction_toPages (hconfig : rq.config = provider.toPages) (eventId actionId : String) :
    rq.config.getAction eventId actionId = (found (provider.getAction eventId actionId)).map Action.toPages := by
  rw [hconfig]
  rfl

/-- An action that is found is one of its event. -/
theorem mem_of_getAction {eventId actionId : String} {action : Action}
    (h : provider.getAction eventId actionId = .ok (some action)) :
    ∃ event, provider.getEvent eventId = some event ∧ action ∈ event.actions := by
  unfold Provider.getAction at h
  split at h
  · cases h
  · obtain ⟨actions, hactions, haction⟩ := Option.bind_eq_some_iff.mp (Except.ok.inj h)
    obtain ⟨event, hevent, rfl⟩ := Option.map_eq_some_iff.mp hactions
    exact ⟨event, hevent, List.mem_reverse.mp (List.mem_of_find?_eq_some haction)⟩

/-! ## Datasources -/

theorem callDataSource_failure {parameters : Pages.Params} {ref : Pages.DatasourceRef}
    (hfound : (rq.config.getDatasource ref.id).isSome) {f : Failure}
    (h : Pages.callDataSource rq parameters ref = .error f) : FromOutside rq f := by
  unfold Pages.callDataSource at h
  split at h
  · split at h
    · split at h
      · rename_i hnone
        rw [hnone] at hfound
        cases hfound
      · split at h
        · split at h
          · rename_i hprocess
            cases h
            exact .inl ⟨_, hprocess⟩
          · cases h
        · cases h
    · cases h
  · cases h

theorem performDataSource_failure {moment : Pages.Moment} {datasource : Pages.Datasource} {f : Failure}
    (h : Pages.performDataSource rq moment datasource = .error f) : FromOutside rq f := by
  unfold Pages.performDataSource at h
  split at h
  · cases h
  · exact .inr (.inl ⟨moment, datasource, h⟩)

theorem addDatasource_failure {mustPerform : Bool} {st : Adding} {element : Pages.SectionelementDef}
    {ref : Pages.DatasourceRef} (hfound : (rq.config.getDatasource ref.id).isSome) {f : Failure}
    (h : (Pages.addDatasource rq mustPerform st element ref).2 = some f) :
    f = .nullPointer ∨ FromOutside rq f := by
  unfold Pages.addDatasource at h
  split at h
  · rename_i hcall
    cases h
    exact .inr (callDataSource_failure hfound hcall)
  · split at h
    · dsimp only at h
      split at h
      · cases h
        exact .inl rfl
      · cases h
    · cases h

/-! ## Actions -/

/-- What an action needs in order to be performed. -/
def Performable (rq : Request) (action : Pages.Action) : Prop :=
  ∀ ref, action.datasource = some ref → (rq.config.getDatasource ref.id).isSome

theorem performable_toPages (hconfig : rq.config = provider.toPages) {permissionNames : List String}
    {event : Event} (hevent : EventAccepted outside provider permissionNames event) {action : Action}
    (hmem : action ∈ event.actions) : Performable rq action.toPages := by
  intro ref href
  obtain ⟨config, haction⟩ := hevent.actions action hmem
  obtain ⟨ref', hdatasource, rfl⟩ := Option.map_eq_some_iff.mp href
  obtain ⟨_, datasource, hfound⟩ := haction.datasource ref' hdatasource
  rw [getDatasource_toPages hconfig hfound.found]
  rfl

theorem retrieveData_failure {moment : Pages.Moment} {ref : Pages.ActionRef} {action : Pages.Action}
    (hperformable : Performable rq action) {f : Failure}
    (h : Pages.retrieveData rq moment ref action = .error f) : FromOutside rq f := by
  unfold Pages.retrieveData at h
  split at h
  · cases h
  · rename_i dsRef hdatasource
    split at h
    · rename_i hcall
      cases h
      exact callDataSource_failure (hperformable dsRef hdatasource) hcall
    · split at h
      · exact performDataSource_failure h
      · cases h

theorem execute_failure {action : Pages.Action} {f : Failure} (h : Pages.execute rq action = .error f) :
    FromOutside rq f := by
  unfold Pages.execute at h
  split at h
  · cases h
  · exact .inr (.inr ⟨action, h⟩)

/-- The event and the action of a reference are found, and the action can be performed. -/
structure Resolved (rq : Request) (ref : Pages.ActionRef) (event : Pages.Event) (action : Pages.Action) :
    Prop where
  eventFound : rq.config.getEvent ref.eventId = some event
  actionFound : rq.config.getAction event.id ref.id = some action
  performable : Performable rq action

variable {ref : Pages.ActionRef} {event : Pages.Event} {action : Pages.Action}

theorem callAction_failure (hresolved : Resolved rq ref event action) {f : Failure}
    (h : Pages.callAction rq ref = .error f) : f = .nullPointer ∨ FromOutside rq f := by
  rw [Pages.callAction, hresolved.eventFound] at h
  simp only [Pages.initializeAction, hresolved.actionFound] at h
  split at h
  · split at h
    · split at h
      · split at h
        · cases h
          exact .inl rfl
        · split at h
          · rename_i hprocess
            cases h
            split at hprocess
            · exact .inr (.inl ⟨_, hprocess⟩)
            · cases hprocess
          · cases h
      · cases h
    · cases h
  · cases h

theorem callAction_action (hresolved : Resolved rq ref event action) {ca : Pages.CallableAction}
    (h : Pages.callAction rq ref = .ok ca) {a : Pages.Action} (ha : ca.action = some a) : a = action := by
  rw [Pages.callAction, hresolved.eventFound] at h
  simp only [Pages.initializeAction, hresolved.actionFound] at h
  split at h
  · split at h
    · split at h
      · split at h
        · cases h
        · split at h
          · cases h
          · cases h
            exact (Option.some.inj ha).symm
      · cases h
        exact (Option.some.inj ha).symm
    · cases h
      cases ha
  · cases h
    cases ha

theorem addAction_failure (hresolved : Resolved rq ref event action) {st : Adding}
    {element : Pages.SectionelementDef} {f : Failure}
    (h : (Pages.addAction rq st element ref).2 = some f) : f = .nullPointer ∨ FromOutside rq f := by
  unfold Pages.addAction at h
  split at h
  · rename_i hcall
    cases h
    exact callAction_failure hresolved hcall
  · rename_i ca hcall
    dsimp only at h
    split at h
    · rename_i hperform
      cases h
      cases haction : ca.action with
      | none =>
        rw [Pages.CallableAction.perform, haction] at hperform
        cases hperform
      | some a =>
        obtain rfl := callAction_action hresolved hcall haction
        rcases Pages.perform_error haction hperform with ⟨moment, hdata⟩ | hexecute
        · exact .inr (retrieveData_failure hresolved.performable hdata)
        · exact .inr (execute_failure hexecute)
    · split at h
      · cases h
        exact .inl rfl
      · split at h
        · cases h
          exact .inl rfl
        · cases h

/-! ## Elements and sections -/

/-- What the references of an element lead to. -/
def ResolvedElement (rq : Request) (element : Pages.SectionelementDef) : Prop :=
  match element.ref with
  | .datasource ref => (rq.config.getDatasource ref.id).isSome
  | .action ref => ∃ event action, Resolved rq ref event action

theorem addElement_failure {mustPerform : Bool} {st : Adding} {element : Pages.SectionelementDef}
    (hresolved : ResolvedElement rq element) {f : Failure}
    (h : (Pages.addElement rq mustPerform st element).2 = some f) : f = .nullPointer ∨ FromOutside rq f := by
  unfold Pages.addElement at h
  unfold ResolvedElement at hresolved
  cases href : element.ref with
  | datasource ref =>
    rw [href] at h hresolved
    exact addDatasource_failure hresolved h
  | action ref =>
    rw [href] at h hresolved
    obtain ⟨event, action, hresolved⟩ := hresolved
    exact addAction_failure hresolved h

theorem addSection_failure {inc : Included} {build : Pages.Build} {numbered : Nat × Pages.SectionDef}
    (hresolved : ∀ element ∈ numbered.2.element, ResolvedElement rq element) {f : Failure}
    (h : (Pages.addSection rq inc build numbered).2 = some f) : f = .nullPointer ∨ FromOutside rq f := by
  unfold Pages.addSection at h
  dsimp only at h
  split at h
  · rename_i st f' hloop
    cases h
    obtain ⟨st', element, hmem, hthrew⟩ := foldUntil_threw_mem (congrArg Prod.snd hloop)
    exact addElement_failure (hresolved element hmem) hthrew
  · split at h <;> cases h

/-- The pre-filter keeps some elements of each section, and throws a null pointer only. -/
theorem filterSection_element {sectionDef sectionDef' : Pages.SectionDef}
    (h : Pages.filterSection rq sectionDef = .ok sectionDef') : sectionDef'.element ⊆ sectionDef.element := by
  unfold Pages.filterSection at h
  dsimp only at h
  split at h
  · cases h
  · cases h
    exact List.filter_subset_self _

theorem filterSection_failure {sectionDef : Pages.SectionDef} {f : Failure}
    (h : Pages.filterSection rq sectionDef = .error f) : f = .nullPointer := by
  unfold Pages.filterSection at h
  dsimp only at h
  split at h
  · rename_i hid
    cases h
    unfold Pages.sectionId at hid
    split at hid
    · cases hid
    · split at hid
      · cases hid
      · split at hid
        · cases hid
        · split at hid
          · cases hid
            rfl
          · split at hid <;> cases hid
  · cases h

variable {page : PageDefinition}

/-- An element that was accepted is resolved in the processing of the page. -/
theorem resolvedElement_toPages (hconfig : rq.config = provider.toPages)
    (haccepted : Accepted outside provider) {element : SectionelementDef}
    (helement : ElementAccepted outside provider (declaredPermissions provider) page element) :
    ResolvedElement rq element.toPages := by
  have href := helement.ref
  show (match element.ref.toPages with
    | .datasource ref => (rq.config.getDatasource ref.id).isSome
    | .action ref => ∃ event action, Resolved rq ref event action : Prop)
  cases hkind : element.ref with
  | datasource ref =>
    rw [hkind] at href
    obtain ⟨_, _, datasource, hfound⟩ := href
    show (rq.config.getDatasource ref.id).isSome
    rw [getDatasource_toPages hconfig hfound.found]
    rfl
  | action ref =>
    rw [hkind] at href
    obtain ⟨_, _, action, config, hfound⟩ := href
    obtain ⟨event, hevent, hmem⟩ := mem_of_getAction hfound.found
    obtain ⟨hvalue, hid⟩ := Keyed.get_eq_some.mp hevent
    refine ⟨event.toPages, action.toPages, ?_, ?_, ?_⟩
    · rw [getEvent_toPages hconfig]
      show (provider.getEvent ref.eventId).map Event.toPages = _
      rw [hevent]
      rfl
    · rw [getAction_toPages hconfig]
      show (found (provider.getAction event.id ref.id)).map Action.toPages = _
      rw [hid, hfound.found]
      rfl
    · exact performable_toPages hconfig (haccepted.events event hvalue) hmem

/-! ## Pages -/

theorem performWrappers_failure {f : Failure} : ∀ {wrappers : List Pages.DataSourceWrapper},
    Pages.performWrappers rq wrappers = some f → FromOutside rq f := by
  intro wrappers
  induction wrappers with
  | nil => intro h; cases h
  | cons wrapper wrappers ih =>
    intro h
    rw [Pages.performWrappers] at h
    cases hwrapper : Pages.performWrapper rq wrapper with
    | error f' =>
      rw [hwrapper] at h
      cases h
      unfold Pages.performWrapper at hwrapper
      split at hwrapper
      · exact performDataSource_failure hwrapper
      · cases hwrapper
    | ok b =>
      rw [hwrapper] at h
      exact ih h

def newsRef : DatasourceRef where
  id := "news"
  mode := none
  condition := none
  permissions := []
  params := some [⟨"max", some "5", none⟩]

def newsDatasource : Datasource where
  id := "news"
  config := { title := some ⟨none, some "News"⟩, permissions := [⟨"anonymous", none⟩]
              params := some [⟨"max", none, some "10"⟩]
              metaData := some ⟨some "News", [⟨"title", none, none, none⟩]⟩, linkpanel := [] }
  bean := some ⟨"newsBean", [⟨"limit", [("value", "$\x7bmax\x7d")]⟩]⟩

def newsPage : PageDefinition where
  id := some "start"
  type := some "index"
  config := ⟨[], ⟨none, none, none⟩⟩
  structureDef := [⟨some "main", none, none, none, [⟨.datasource newsRef, none, none, none⟩]⟩]

def newsProvider : Provider where
  applicationInfo := some ⟨none, some ["news.read"], some []⟩
  applicationRootConfig := some none
  defaultPage := some "start"
  pages := ⟨[newsPage], List.nodup_singleton _⟩
  events := Keyed.empty
  datasources := ⟨[newsDatasource], List.nodup_singleton _⟩
  resourceNameForPage := fun _ => some "pages.xml"
  resourceNameForEvent := fun _ => none
  resourceNameForDataSource := fun _ => some "news.xml"

def lenient : Outside := ⟨fun _ _ _ _ => .evaluated, fun _ => true⟩

/-- The bean of every datasource fails. -/
def failingRequest : Request :=
  { Pages.quietRequest newsProvider.toPages fun _ => true with
    getData := fun _ datasource => .error (.errorRetrievingDatasource datasource.id) }

theorem clean_news : (validate lenient newsProvider).Clean := ⟨by decide +kernel, by decide +kernel⟩

end Validator
end AppNG
