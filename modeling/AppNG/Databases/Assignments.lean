import AppNG.Databases.DatabaseName
import AppNG.Properties.Scopes

/-!
# Databases.Assignments

Applications are assigned to sites and removed from them: `CoreService`, with what it stores for each
pair, a `SiteApplication`, a `DatabaseConnection` and properties.

The database is set up before the assignment is stored, and its connection is saved before the
database is created. When the set-up fails, only a connection that is attached to the assignment by
then is deleted.

* `createDatabaseConnection_saved`: when a connection is saved that is attached to nothing.
* `copyProperties_total`: the properties of an application can always be copied to a pair.
* `consistent_step`: a step leads from consistent tables to consistent ones if and only if it is
  allowed there.
* `leavesNothing_step`: then nothing stays of the assignments it removes.
* `staysConsistent_iff`: the states of a run are consistent if and only if each of its steps is allowed.
-/

namespace AppNG
namespace Databases

open Properties Machine

/-! ## Setting up a database -/

inductive MigrationStatus where
  | noDbSupported
  | dbSupported
  | dbNotAvailable
  | dbMigrated
  | dbNotMigrated
  | error
  deriving DecidableEq, Repr

def MigrationStatus.isErroneous : MigrationStatus → Bool
  | error | dbNotAvailable => true
  | _ => false

/-- The root connection for the type of a datasource. -/
structure Datasource where
  active : Bool
  managed : Bool
  works : Bool

/-- How the set-up goes for one assignment. -/
structure SetUp where
  /-- the resources and properties of the application are read without an exception -/
  prepares : Bool
  datasources : List Datasource
  /-- the new connection can be saved -/
  saves : Bool
  dataBaseExists : Bool
  /-- `init.sql` is executed without an exception -/
  initializes : Bool
  /-- the application brings a package with migrations -/
  migrationPackage : Bool
  /-- the result of `migrateApplication`, if it has one -/
  migration : Option MigrationStatus

/-- What becomes of the new connection. -/
inductive Saved where
  | nothing
  | saved
  | attached
  deriving DecidableEq, Repr

def migrateSchemaForApplication (setUp : SetUp) : MigrationStatus × Saved :=
  if setUp.saves then
    if setUp.dataBaseExists || setUp.initializes then
      if setUp.migrationPackage then (.dbNotMigrated, .attached)
      else (setUp.migration.getD .error, .attached)
    else (.error, .saved)
  else (.error, .nothing)

/-- The loop over the datasources; `status` is that of the ones before. -/
def manageApplicationConnection (setUp : SetUp) :
    MigrationStatus → List Datasource → MigrationStatus × Saved
  | status, [] => (status, .nothing)
  | _, datasource :: datasources =>
    if datasource.active then
      if datasource.managed then
        if datasource.works then migrateSchemaForApplication setUp
        else manageApplicationConnection setUp .dbNotAvailable datasources
      else if setUp.saves then (.dbSupported, .attached)
      else (.error, .nothing)
    else manageApplicationConnection setUp .dbNotAvailable datasources

def createDatabaseConnection (setUp : SetUp) : MigrationStatus × Saved :=
  if setUp.prepares then manageApplicationConnection setUp .noDbSupported setUp.datasources
  else (.error, .nothing)

/-- The first datasource with a connection that is used. -/
def usedDatasource (setUp : SetUp) : Option Datasource :=
  setUp.datasources.find? fun d => d.active && (!d.managed || d.works)

/-- The script that creates the database fails, after the connection to it was saved. -/
def FailsAfterSaving (setUp : SetUp) : Prop :=
  setUp.prepares = true ∧ (∃ d, usedDatasource setUp = some d ∧ d.managed = true) ∧
    setUp.saves = true ∧ setUp.dataBaseExists = false ∧ setUp.initializes = false

/-! ## The tables -/

structure SiteApplication where
  pair : Pair
  databaseConnection : Option Nat

/-- The connection of a site; the root connections belong to none. -/
structure DatabaseConnection where
  id : Nat
  site : StrictName

structure State (V : Type) where
  /-- the sites, with whether they are active -/
  sites : List (StrictName × Bool)
  applications : List StrictName
  siteApplications : Keyed SiteApplication.pair
  connections : Keyed DatabaseConnection.id
  properties : List (PropertyImpl V)
  /-- the id of the next connection -/
  nextId : Nat

variable {V : Type}

def Pair.propertyPrefix (pair : Pair) : String := getPropertyPrefix (some pair.site) (some pair.application)

def Pair.scope (pair : Pair) : Scope := .properties (some pair.site) (some pair.application)

def deleteScope (propertyPrefix : String) (properties : List (PropertyImpl V)) :
    List (PropertyImpl V) :=
  deleteProperties (getPropertiesList propertyPrefix properties) properties

/-- `name.substring(name.lastIndexOf(".") + 1)` -/
def afterLastDot (name : String) : String :=
  String.ofList (name.toList.rtakeWhile (· != '.'))

/-- The properties of the application become those of the pair; `inherit` is what they take over. -/
def copyProperties (inherit : V → V) (pair : Pair) (properties : List (PropertyImpl V)) :
    Option (List (PropertyImpl V)) :=
  let properties := deleteScope pair.propertyPrefix properties
  let originalProperties := getPropertiesList (getPropertyPrefix none (some pair.application)) properties
  originalProperties.foldlM (fun properties property =>
    createProperty pair.propertyPrefix ⟨afterLastDot property.name, inherit property.value⟩ properties)
    properties

def State.has (s : State V) (pair : Pair) : Bool :=
  (s.sites.map Prod.fst).contains pair.site && s.applications.contains pair.application

/-- An exception rolls everything back. -/
def assignApplicationToSite (inherit : V → V) (pair : Pair) (createProperties : Bool)
    (setUp : SetUp) (s : State V) : State V :=
  let (status, connection) := createDatabaseConnection setUp
  let connected := s.connections.put ⟨s.nextId, pair.site⟩
  if s.has pair then
    if status.isErroneous then
      match connection with
      | .nothing | .attached => s
      | .saved => { s with connections := connected, nextId := s.nextId + 1 }
    else
      let stored : State V :=
        match connection with
        | .nothing => { s with siteApplications := s.siteApplications.put ⟨pair, none⟩ }
        | _ =>
          { s with
            siteApplications := s.siteApplications.put ⟨pair, some s.nextId⟩
            connections := connected
            nextId := s.nextId + 1 }
      if createProperties then
        match copyProperties inherit pair s.properties with
        | none => s
        | some properties => { stored with properties }
      else stored
  else s

def unlinkApplicationFromSite (s : State V) (pair : Pair) : State V :=
  match s.siteApplications.get pair with
  | none => s
  | some siteApplication =>
    { s with
      siteApplications := s.siteApplications.erase pair
      properties := deleteScope pair.propertyPrefix s.properties
      connections :=
        match siteApplication.databaseConnection with
        | none => s.connections
        | some id => s.connections.erase id }

def State.assigned (s : State V) (p : Pair → Bool) : List Pair :=
  (s.siteApplications.values.map SiteApplication.pair).filter p

def deleteSite (site : StrictName) (s : State V) : State V :=
  if (s.sites.map Prod.fst).contains site then
    let detached := (s.assigned (·.site == site)).foldl unlinkApplicationFromSite s
    { detached with
      properties := deleteScope (getPropertyPrefix (some site) none) detached.properties
      connections := detached.connections.filter (·.site ≠ site)
      sites := detached.sites.filter (·.1 ≠ site) }
  else s

/-- The application is removed from a site that is not active. -/
def removeFromSite (s : State V) (pair : Pair) : State V :=
  { s with
    properties := deleteScope pair.propertyPrefix s.properties
    siteApplications := s.siteApplications.erase pair }

def State.isActive (s : State V) (site : StrictName) : Bool :=
  s.sites.any fun (name, active) => name == site && active

/-- The application exists and is linked to no active site. -/
def State.removable (s : State V) (application : StrictName) : Bool :=
  s.applications.contains application &&
    !(s.assigned (·.application == application)).any (s.isActive ·.site)

def deleteApplication (application : StrictName) (s : State V) : State V :=
  if s.removable application then
    let removed := (s.assigned (·.application == application)).foldl removeFromSite s
    { removed with
      properties := deleteScope (getPropertyPrefix none (some application)) removed.properties
      applications := removed.applications.filter (· ≠ application) }
  else s

inductive Step where
  | assign (pair : Pair) (createProperties : Bool) (setUp : SetUp)
  | unlink (pair : Pair)
  | deleteApplication (application : StrictName)
  | deleteSite (site : StrictName)

def perform (inherit : V → V) (s : State V) : Step → State V
  | .assign pair createProperties setUp =>
    assignApplicationToSite inherit pair createProperties setUp s
  | .unlink pair => unlinkApplicationFromSite s pair
  | .deleteApplication application => deleteApplication application s
  | .deleteSite site => deleteSite site s

/-! ## Properties -/

/-- Every row was created for a scope, under a name of its own. -/
def Rows (properties : List (PropertyImpl V)) : Prop :=
  ∃ created : CreatedProperties V, created.rows = properties

section Properties

variable {properties properties' : List (PropertyImpl V)} {property : PropertyImpl V}
  {created : CreatedProperties V} {pair pair' : Pair} {inherit : V → V} {p : String}

theorem mem_deleteScope (h : Rows properties) :
    property ∈ deleteScope p properties ↔ property ∈ properties ∧ selected p property = false := by
  obtain ⟨created, rfl⟩ := h
  simp only [deleteScope, deleteProperties, List.mem_filter, decide_eq_true_eq, List.mem_map,
    not_exists, not_and]
  constructor
  · rintro ⟨hmem, hnot⟩
    refine ⟨hmem, ?_⟩
    rw [← Bool.not_eq_true]
    exact fun hselected => hnot property (List.mem_filter.mpr ⟨hmem, hselected⟩) rfl
  · rintro ⟨hmem, hselected⟩
    refine ⟨hmem, fun other hother hname => ?_⟩
    obtain ⟨hother, hselected'⟩ := List.mem_filter.mp hother
    obtain ⟨c, hc, rfl⟩ := List.mem_map.mp hmem
    obtain ⟨d, hd, rfl⟩ := List.mem_map.mp hother
    rw [Keyed.eq_of_key_eq hd hc hname, hselected] at hselected'
    cases hselected'

/-- What stays when a scope is deleted. -/
theorem deleteScope_rows (created : CreatedProperties V) (p : String) :
    ∃ remaining : CreatedProperties V, remaining.rows = deleteScope p created.rows ∧
      remaining.values = created.values.filter fun c => !selected p c.row := by
  refine ⟨⟨created.values.filter fun c => !selected p c.row,
    created.nodup.sublist (List.filter_sublist.map _)⟩, ?_, rfl⟩
  have hrows : deleteScope p created.rows =
      created.rows.filter fun property => !selected p property := by
    refine List.filter_congr fun property hmem => ?_
    rw [Bool.eq_iff_iff, decide_eq_true_eq, Bool.not_eq_true', ← (mem_deleteScope ⟨created, rfl⟩).trans
      (and_iff_right hmem), deleteScope, deleteProperties, List.mem_filter, and_iff_right hmem,
      decide_eq_true_eq]
  rw [hrows, CreatedProperties.rows, CreatedProperties.rows, List.filter_map]
  rfl

theorem deleteScope_named (h : Rows properties) : Rows (deleteScope p properties) := by
  obtain ⟨created, rfl⟩ := h
  obtain ⟨remaining, hrows, -⟩ := deleteScope_rows created p
  exact ⟨remaining, hrows⟩

theorem selected_pair (h : Rows properties) (hmem : property ∈ properties) :
    selected pair.propertyPrefix property = true ↔
      pair.propertyPrefix.toList <+: property.name.toList := by
  obtain ⟨created, rfl⟩ := h
  obtain ⟨c, -, rfl⟩ := List.mem_map.mp hmem
  exact selected_properties.trans pair_prefix_iff.symm

theorem pair_prefix_unique (h : Rows properties) (hmem : property ∈ properties)
    (hpair : pair.propertyPrefix.toList <+: property.name.toList)
    (hpair' : pair'.propertyPrefix.toList <+: property.name.toList) : pair' = pair := by
  obtain ⟨created, rfl⟩ := h
  obtain ⟨c, -, rfl⟩ := List.mem_map.mp hmem
  have hscope := (pair_prefix_iff.mp hpair).symm.trans (pair_prefix_iff.mp hpair')
  simp only [Scope.properties.injEq, Option.some.injEq] at hscope
  cases pair
  cases pair'
  simp_all

/-- After a scope is deleted no name begins with its prefix. -/
theorem not_prefix_of_mem_deleteScope (h : Rows properties)
    (hmem : property ∈ deleteScope pair.propertyPrefix properties) :
    ¬ pair.propertyPrefix.toList <+: property.name.toList := by
  obtain ⟨hmem, hselected⟩ := (mem_deleteScope h).mp hmem
  rw [← selected_pair h hmem, hselected]
  simp

theorem afterLastDot_row {c : Created V} : afterLastDot c.row.name = c.id.value := by
  obtain ⟨text, htext⟩ := propertyPrefix_eq_dot c.scope
  have hid : ∀ d ∈ c.id.value.toList.reverse, (d != '.') = true := by
    intro d hd
    have hne : d ≠ '.' := fun heq => c.id.no_dot (heq ▸ List.mem_reverse.mp hd)
    simpa using hne
  rw [afterLastDot, row_toList, htext, List.rtakeWhile, List.reverse_append, List.reverse_append,
    List.takeWhile_append_of_pos hid]
  simp

/-- What a property becomes for the pair. -/
def copyOf (inherit : V → V) (pair : Pair) (original : Created V) : Created V :=
  ⟨pair.scope, original.id, inherit original.value⟩

/-- One property after another is created for the pair, under names that are free. -/
theorem createProperties_eq {originals : List (Created V)} (hids : (originals.map Created.id).Nodup)
    (hfree : ∀ original ∈ originals,
      (copyOf inherit pair original).row.name ∉ properties.map PropertyImpl.name) :
    (originals.map Created.row).foldlM (fun properties property =>
        createProperty pair.propertyPrefix
          ⟨afterLastDot property.name, inherit property.value⟩ properties) properties =
      some ((originals.map fun original => (copyOf inherit pair original).row).reverse ++
        properties) := by
  induction originals generalizing properties with
  | nil => rfl
  | cons original originals ih =>
    obtain ⟨hnot, hids⟩ := List.nodup_cons.mp hids
    obtain ⟨hfree, hrest⟩ := List.forall_mem_cons.mp hfree
    let next : PropertyImpl V := (copyOf inherit pair original).row
    have hcreate : createProperty pair.propertyPrefix
        ⟨afterLastDot original.row.name, inherit original.row.value⟩ properties =
          some (next :: properties) := by
      rw [afterLastDot_row]
      exact if_neg hfree
    have hfree' : ∀ other ∈ originals,
        (copyOf inherit pair other).row.name ∉ (next :: properties).map PropertyImpl.name := by
      intro other hother hmem
      rcases List.mem_cons.mp hmem with heq | hmem
      · have hid : other.id = original.id := by
          refine PropertyId.ext (String.toList_inj.mp ?_)
          simpa [next, copyOf, Created.row] using congrArg String.toList heq
        exact hnot (hid ▸ List.mem_map_of_mem hother)
      · exact hrest other hother hmem
    rw [List.map_cons, List.foldlM_cons, hcreate]
    exact (ih hids hfree').trans (by simp [next])

/-- The properties of a scope have ids of their own. -/
theorem nodup_ids (created : CreatedProperties V) (site application : Option StrictName) :
    ((created.values.filter fun c => selected (getPropertyPrefix site application) c.row).map
      Created.id).Nodup := by
  have hnames : ((created.values.filter fun c =>
      selected (getPropertyPrefix site application) c.row).map fun c => c.row.name).Nodup :=
    created.nodup.sublist (List.filter_sublist.map _)
  refine List.Nodup.of_map (fun id => getPropertyPrefix site application ++ id.value) ?_
  rw [List.map_map]
  refine (List.map_congr_left fun c hc => ?_) ▸ hnames
  have hscope : c.scope = .properties site application :=
    selected_properties.mp (List.mem_filter.mp hc).2
  rw [Created.row, hscope]
  rfl

theorem nodup_copies {originals : List (Created V)} {remaining : CreatedProperties V}
    (hids : (originals.map Created.id).Nodup)
    (hfree : ∀ original ∈ originals, (copyOf inherit pair original).row.name ∉
      remaining.rows.map PropertyImpl.name) :
    (((originals.map (copyOf inherit pair)).reverse ++ remaining.values).map
      fun c => c.row.name).Nodup := by
  rw [List.map_append, List.nodup_append]
  refine ⟨?_, remaining.nodup, ?_⟩
  · rw [List.map_reverse, List.nodup_reverse, List.map_map]
    have heq : (originals.map ((fun c => c.row.name) ∘ copyOf inherit pair)) =
        (originals.map Created.id).map fun id => pair.propertyPrefix ++ id.value := by
      rw [List.map_map]
      rfl
    rw [heq]
    refine hids.map fun a b hab => PropertyId.ext (String.toList_inj.mp ?_)
    simpa using congrArg String.toList hab
  · rintro name hname other hother rfl
    obtain ⟨copy, hcopy, rfl⟩ := List.mem_map.mp hname
    obtain ⟨original, horiginal, rfl⟩ := List.mem_map.mp (List.mem_reverse.mp hcopy)
    refine hfree original horiginal ?_
    rw [CreatedProperties.rows, List.map_map]
    exact hother

/-- The copies find their names free: what becomes of the properties. -/
theorem copyProperties_eq (inherit : V → V) (pair : Pair) (created : CreatedProperties V) :
    ∃ after : CreatedProperties V, copyProperties inherit pair created.rows = some after.rows ∧
      after.values = ((created.values.filter fun c =>
        selected (getPropertyPrefix none (some pair.application)) c.row).map
          (copyOf inherit pair)).reverse ++
            created.values.filter fun c => !selected pair.propertyPrefix c.row := by
  have h : Rows created.rows := ⟨created, rfl⟩
  obtain ⟨remaining, hremaining, hvalues⟩ := deleteScope_rows created pair.propertyPrefix
  let scope : Scope := .properties none (some pair.application)
  let originals := created.values.filter fun c => selected scope.propertyPrefix c.row
  -- the properties of the application are not those of a site
  have hkept : (remaining.values.filter fun c => selected scope.propertyPrefix c.row) = originals := by
    rw [hvalues, List.filter_filter]
    refine List.filter_congr fun c _ => ?_
    cases hc : selected scope.propertyPrefix c.row with
    | false => rfl
    | true =>
      rw [Bool.true_and, Bool.not_eq_true', ← Bool.not_eq_true]
      intro hpair
      have hsite : c.scope = pair.scope := selected_properties.mp hpair
      have hscope : c.scope = .properties none (some pair.application) := selected_properties.mp hc
      rw [hscope] at hsite
      cases hsite
  have hids : (originals.map Created.id).Nodup := nodup_ids created none (some pair.application)
  have hfree : ∀ original ∈ originals, (copyOf inherit pair original).row.name ∉
      remaining.rows.map PropertyImpl.name := by
    intro original _ hmem
    obtain ⟨property, hmem, hname⟩ := List.mem_map.mp hmem
    refine not_prefix_of_mem_deleteScope h (hremaining ▸ hmem) ?_
    rw [hname, row_toList]
    exact List.prefix_append _ _
  have hnodup : (((originals.map (copyOf inherit pair)).reverse ++ remaining.values).map
      fun c => c.row.name).Nodup := nodup_copies hids hfree
  refine ⟨⟨_, hnodup⟩, ?_, congrArg (_ ++ ·) hvalues⟩
  have hrows : ((originals.map fun original => (copyOf inherit pair original).row).reverse ++
      remaining.rows) = CreatedProperties.rows ⟨_, hnodup⟩ := by
    simp [CreatedProperties.rows, Function.comp_def]
  have horiginals : getPropertiesList (getPropertyPrefix none (some pair.application)) remaining.rows =
      originals.map Created.row := (List.filter_map ..).trans (congrArg _ hkept)
  rw [copyProperties, ← hremaining, horiginals, ← hrows]
  exact createProperties_eq hids hfree

/-- Then every row still was created for a scope, and the copies are named after the pair. -/
theorem copyProperties_total (inherit : V → V) (pair : Pair) (h : Rows properties) :
    ∃ properties', copyProperties inherit pair properties = some properties' ∧ Rows properties' ∧
      ∀ property ∈ properties', property ∈ properties ∨
        pair.propertyPrefix.toList <+: property.name.toList := by
  obtain ⟨created, rfl⟩ := h
  obtain ⟨after, hcopy, hafter⟩ := copyProperties_eq inherit pair created
  refine ⟨_, hcopy, ⟨after, rfl⟩, fun property hmem => ?_⟩
  obtain ⟨c, hc, rfl⟩ := List.mem_map.mp hmem
  rcases List.mem_append.mp (hafter ▸ hc) with hc | hc
  · obtain ⟨original, -, rfl⟩ := List.mem_map.mp (List.mem_reverse.mp hc)
    right
    rw [row_toList]
    exact List.prefix_append _ _
  · exact .inl (List.mem_map_of_mem (List.mem_of_mem_filter hc))

end Properties

/-! ## Setting up, once more -/

section SetUp

variable {setUp : SetUp} {status : MigrationStatus} {datasources : List Datasource}

theorem manageApplicationConnection_of_used {d : Datasource}
    (h : datasources.find? (fun d => d.active && (!d.managed || d.works)) = some d) :
    manageApplicationConnection setUp status datasources =
      if d.managed then migrateSchemaForApplication setUp
      else if setUp.saves then (.dbSupported, .attached) else (.error, .nothing) := by
  induction datasources generalizing status with
  | nil => cases h
  | cons e datasources ih =>
    rw [manageApplicationConnection]
    cases hactive : e.active <;> cases hmanaged : e.managed <;> cases hworks : e.works <;>
      simp [hactive, hmanaged, hworks] at h ⊢ <;>
      first
      | (subst h; simp [hmanaged])
      | exact ih (by simpa using h)

theorem manageApplicationConnection_of_unused
    (h : datasources.find? (fun d => d.active && (!d.managed || d.works)) = none) :
    (manageApplicationConnection setUp status datasources).2 = .nothing := by
  induction datasources generalizing status with
  | nil => rfl
  | cons e datasources ih =>
    rw [manageApplicationConnection]
    cases hactive : e.active <;> cases hmanaged : e.managed <;> cases hworks : e.works <;>
      simp [hactive, hmanaged, hworks] at h ⊢ <;> exact ih (by simpa using h)

/-- When a connection is left behind that is attached to nothing. -/
theorem createDatabaseConnection_saved :
    (createDatabaseConnection setUp).2 = .saved ↔ FailsAfterSaving setUp := by
  unfold createDatabaseConnection FailsAfterSaving
  cases hprepares : setUp.prepares with
  | false => simp
  | true =>
    simp only [if_true, true_and]
    cases hused : usedDatasource setUp with
    | none =>
      rw [manageApplicationConnection_of_unused hused]
      simp
    | some d =>
      rw [manageApplicationConnection_of_used hused]
      cases hmanaged : d.managed <;> cases hsaves : setUp.saves <;>
        cases hexists : setUp.dataBaseExists <;> cases hinit : setUp.initializes <;>
        cases hpackage : setUp.migrationPackage <;>
        simp [migrateSchemaForApplication, hmanaged, hsaves, hexists, hinit, hpackage]

/-- Then the set-up has failed. -/
theorem isErroneous_of_saved (h : (createDatabaseConnection setUp).2 = .saved) :
    (createDatabaseConnection setUp).1 = .error := by
  obtain ⟨hprepares, ⟨d, hused, hmanaged⟩, hsaves, hexists, hinit⟩ :=
    createDatabaseConnection_saved.mp h
  rw [createDatabaseConnection, if_pos hprepares, manageApplicationConnection_of_used hused,
    if_pos hmanaged]
  simp [migrateSchemaForApplication, hsaves, hexists, hinit]

end SetUp

/-! ## Steps -/

/-- What holds of the tables whatever is done. -/
structure WellFormed (s : State V) : Prop where
  fresh : ∀ connection ∈ s.connections.values, connection.id < s.nextId
  stored : ∀ assigned ∈ s.siteApplications.values, ∀ id, assigned.databaseConnection = some id →
    ⟨id, assigned.pair.site⟩ ∈ s.connections.values
  unique : ∀ a ∈ s.siteApplications.values, ∀ b ∈ s.siteApplications.values, ∀ id,
    a.databaseConnection = some id → b.databaseConnection = some id → a = b
  rows : Rows s.properties

/-- Nothing is stored for a pair that is not assigned. -/
structure Consistent (s : State V) : Prop where
  connections : ∀ connection ∈ s.connections.values, ∃ assigned ∈ s.siteApplications.values,
    assigned.pair.site = connection.site ∧ assigned.databaseConnection = some connection.id
  properties : ∀ property ∈ s.properties, ∀ pair : Pair,
    pair.propertyPrefix.toList <+: property.name.toList →
      ∃ assigned ∈ s.siteApplications.values, assigned.pair = pair

/-- The pairs whose assignments a step removes. -/
def removes (s : State V) : Step → Pair → Bool
  | .assign .., _ => false
  | .unlink pair, other => other == pair
  | .deleteApplication application, other =>
    s.removable application && other.application == application
  | .deleteSite site, other => (s.sites.map Prod.fst).contains site && other.site == site

/-- What belonged to an assignment that is removed from `s` is not there in `u`. -/
def LeavesNothing (s u : State V) (step : Step) : Prop :=
  ∀ assigned ∈ s.siteApplications.values, removes s step assigned.pair = true →
    (∀ connection ∈ u.connections.values, assigned.databaseConnection ≠ some connection.id) ∧
      ∀ property ∈ u.properties, ¬ assigned.pair.propertyPrefix.toList <+: property.name.toList

/-- Where a step keeps the tables consistent. -/
def Allowed (s : State V) : Step → Prop
  | .assign pair _ setUp => s.has pair = true →
    ¬ FailsAfterSaving setUp ∧
      ((createDatabaseConnection setUp).1.isErroneous = false →
        ∀ assigned ∈ s.siteApplications.values, assigned.pair = pair →
          assigned.databaseConnection = none)
  | .deleteApplication application => s.removable application = true →
    ∀ assigned ∈ s.siteApplications.values, assigned.pair.application = application →
      assigned.databaseConnection = none
  | .unlink _ | .deleteSite _ => True

variable {inherit : V → V} {s : State V} {pair : Pair}

section Unlink

/-- An assignment that is still there is one of another pair. -/
theorem mem_unlink {a : SiteApplication} :
    a ∈ (unlinkApplicationFromSite s pair).siteApplications.values ↔
      a ∈ s.siteApplications.values ∧ a.pair ≠ pair := by
  unfold unlinkApplicationFromSite
  cases hget : s.siteApplications.get pair with
  | none =>
    rw [Keyed.get_eq_none] at hget
    exact ⟨fun h => ⟨h, hget a h⟩, fun h => h.1⟩
  | some found => exact Keyed.mem_erase

theorem unlink_connection {c : DatabaseConnection} :
    c ∈ (unlinkApplicationFromSite s pair).connections.values ↔
      c ∈ s.connections.values ∧ ∀ a ∈ s.siteApplications.values, a.pair = pair →
        a.databaseConnection ≠ some c.id := by
  unfold unlinkApplicationFromSite
  cases hget : s.siteApplications.get pair with
  | none =>
    rw [Keyed.get_eq_none] at hget
    exact ⟨fun h => ⟨h, fun a ha heq => absurd heq (hget a ha)⟩, fun h => h.1⟩
  | some found =>
    obtain ⟨hfound, hpair⟩ := Keyed.get_eq_some.mp hget
    have honly : ∀ a ∈ s.siteApplications.values, a.pair = pair → a = found :=
      fun a ha heq => Keyed.eq_of_key_eq ha hfound (heq.trans hpair.symm)
    cases hconn : found.databaseConnection with
    | none =>
      simp only [hconn]
      refine ⟨fun h => ⟨h, fun a ha heq => ?_⟩, fun h => h.1⟩
      rw [honly a ha heq, hconn]
      simp
    | some id =>
      simp only [hconn, Keyed.mem_erase]
      constructor
      · rintro ⟨hc, hne⟩
        refine ⟨hc, fun a ha heq hsome => ?_⟩
        rw [honly a ha heq, hconn] at hsome
        exact hne (Option.some.inj hsome).symm
      · rintro ⟨hc, hall⟩
        refine ⟨hc, fun heq => hall found hfound hpair ?_⟩
        rw [hconn, heq]

theorem unlink_property (hw : WellFormed s) {property : PropertyImpl V}
    (h : property ∈ (unlinkApplicationFromSite s pair).properties) :
    property ∈ s.properties ∧ ((∃ a ∈ s.siteApplications.values, a.pair = pair) →
      ¬ pair.propertyPrefix.toList <+: property.name.toList) := by
  unfold unlinkApplicationFromSite at h
  cases hget : s.siteApplications.get pair with
  | none =>
    rw [hget] at h
    rw [Keyed.get_eq_none] at hget
    exact ⟨h, fun ⟨a, ha, heq⟩ => absurd heq (hget a ha)⟩
  | some found =>
    rw [hget] at h
    exact ⟨((mem_deleteScope hw.rows).mp h).1, fun _ => not_prefix_of_mem_deleteScope hw.rows h⟩

theorem unlink_wellFormed (hw : WellFormed s) : WellFormed (unlinkApplicationFromSite s pair) := by
  have hnext : (unlinkApplicationFromSite s pair).nextId = s.nextId := by
    unfold unlinkApplicationFromSite
    split <;> rfl
  refine ⟨?_, ?_, ?_, ?_⟩
  · intro c hc
    rw [hnext]
    exact hw.fresh c (unlink_connection.mp hc).1
  · intro a ha id hid
    obtain ⟨ha, hpair⟩ := mem_unlink.mp ha
    refine unlink_connection.mpr ⟨hw.stored a ha id hid, fun b hb hbpair hsome => ?_⟩
    exact hpair (hw.unique a ha b hb id hid hsome ▸ hbpair)
  · intro a ha b hb
    exact hw.unique a (mem_unlink.mp ha).1 b (mem_unlink.mp hb).1
  · unfold unlinkApplicationFromSite
    split
    · exact hw.rows
    · exact deleteScope_named hw.rows

theorem unlink_consistent (hw : WellFormed s) (hc : Consistent s) :
    Consistent (unlinkApplicationFromSite s pair) := by
  refine ⟨fun c hmem => ?_, fun property hmem other hprefix => ?_⟩
  · obtain ⟨hmem, hnot⟩ := unlink_connection.mp hmem
    obtain ⟨a, ha, hsite, hid⟩ := hc.connections c hmem
    exact ⟨a, mem_unlink.mpr ⟨ha, fun heq => hnot a ha heq hid⟩, hsite, hid⟩
  · obtain ⟨hmem, hnot⟩ := unlink_property hw hmem
    obtain ⟨a, ha, rfl⟩ := hc.properties property hmem other hprefix
    refine ⟨a, mem_unlink.mpr ⟨ha, fun heq => ?_⟩, rfl⟩
    subst heq
    exact hnot ⟨a, ha, rfl⟩ hprefix

theorem unlinkAll (pairs : List Pair) (hw : WellFormed s) (hc : Consistent s) :
    WellFormed (pairs.foldl unlinkApplicationFromSite s) ∧
      Consistent (pairs.foldl unlinkApplicationFromSite s) ∧
      ∀ a ∈ (pairs.foldl unlinkApplicationFromSite s).siteApplications.values,
        a ∈ s.siteApplications.values ∧ a.pair ∉ pairs := by
  induction pairs generalizing s with
  | nil => exact ⟨hw, hc, fun a ha => ⟨ha, List.not_mem_nil⟩⟩
  | cons pair pairs ih =>
    obtain ⟨hw', hc', hmem⟩ :=
      ih (s := unlinkApplicationFromSite s pair) (unlink_wellFormed hw) (unlink_consistent hw hc)
    refine ⟨hw', hc', fun a ha => ?_⟩
    obtain ⟨ha, hnot⟩ := hmem a ha
    obtain ⟨ha, hne⟩ := mem_unlink.mp ha
    exact ⟨ha, fun h => (List.mem_cons.mp h).elim hne hnot⟩

end Unlink

section Assign

variable {u : State V} {createProps : Bool} {setUp : SetUp} {connection : Option Nat}

/-- The assignment of a pair is stored in `u`, with a new connection or without one. -/
structure Stored (s u : State V) (pair : Pair) (connection : Option Nat) : Prop where
  siteApplications : u.siteApplications = s.siteApplications.put ⟨pair, connection⟩
  isNew : ∀ id, connection = some id → id = s.nextId
  connections : ∀ c, c ∈ u.connections.values ↔
    c ∈ s.connections.values ∨ c.site = pair.site ∧ connection = some c.id
  nextId : s.nextId ≤ u.nextId ∧ ∀ id, connection = some id → id < u.nextId
  rows : Rows u.properties
  named : ∀ property ∈ u.properties, property ∈ s.properties ∨
    pair.propertyPrefix.toList <+: property.name.toList

theorem mem_put_connection (hw : WellFormed s) {c : DatabaseConnection} :
    c ∈ (s.connections.put ⟨s.nextId, pair.site⟩).values ↔
      c ∈ s.connections.values ∨ c.site = pair.site ∧ some s.nextId = some c.id := by
  rw [Keyed.mem_put]
  constructor
  · rintro (rfl | ⟨hc, -⟩)
    · exact .inr ⟨rfl, rfl⟩
    · exact .inl hc
  · rintro (hc | ⟨hsite, hid⟩)
    · exact .inr ⟨hc, Nat.ne_of_lt (hw.fresh c hc)⟩
    · cases c
      simp_all

/-- An assignment leads nowhere, leaves a connection behind, or is stored. -/
theorem assignApplicationToSite_cases (inherit : V → V) (pair : Pair) (createProps : Bool)
    (setUp : SetUp) (hw : WellFormed s) :
    (Allowed s (.assign pair createProps setUp) ∧
      assignApplicationToSite inherit pair createProps setUp s = s) ∨
    ((s.has pair = true ∧ FailsAfterSaving setUp) ∧
      assignApplicationToSite inherit pair createProps setUp s =
        { s with connections := s.connections.put ⟨s.nextId, pair.site⟩, nextId := s.nextId + 1 }) ∨
    ((s.has pair = true ∧ (createDatabaseConnection setUp).1.isErroneous = false) ∧
      ∃ connection, Stored s (assignApplicationToSite inherit pair createProps setUp s) pair
        connection) := by
  obtain ⟨properties', hcopy, hrows, hnamed⟩ :=
    copyProperties_total inherit pair hw.rows
  have hstored : ∀ (stored : State V) (connection : Option Nat), Stored s stored pair connection →
      Stored s
        (if createProps then
          match copyProperties inherit pair s.properties with
          | none => s
          | some properties => { stored with properties }
        else stored) pair connection := by
    intro stored connection h
    rw [hcopy]
    cases createProps with
    | false => exact h
    | true => exact ⟨h.siteApplications, h.isNew, h.connections, h.nextId, hrows, hnamed⟩
  have hsaved : (createDatabaseConnection setUp).2 = .saved ↔ FailsAfterSaving setUp :=
    createDatabaseConnection_saved
  have herror : (createDatabaseConnection setUp).2 = .saved →
      (createDatabaseConnection setUp).1 = .error := isErroneous_of_saved
  unfold assignApplicationToSite
  simp only [Allowed]
  generalize createDatabaseConnection setUp = result at hsaved herror ⊢
  obtain ⟨status, connection⟩ := result
  cases hhas : s.has pair with
  | false => exact .inl ⟨fun h => absurd h (by simp), rfl⟩
  | true =>
    cases hstatus : status.isErroneous with
    | true =>
      cases connection with
      | nothing => exact .inl ⟨fun _ => ⟨fun h => by simp [← hsaved] at h, by simp⟩, by simp⟩
      | attached => exact .inl ⟨fun _ => ⟨fun h => by simp [← hsaved] at h, by simp⟩, by simp⟩
      | saved => exact .inr (.inl ⟨⟨rfl, hsaved.mp rfl⟩, by simp⟩)
    | false =>
      refine .inr (.inr ⟨⟨rfl, rfl⟩, ?_⟩)
      simp only [Bool.false_eq_true, if_false, if_true]
      cases connection with
      | saved =>
        obtain rfl : status = .error := herror rfl
        cases hstatus
      | nothing =>
        refine ⟨none, hstored _ _ ⟨rfl, ?_, ?_, ?_, hw.rows, fun _ h => .inl h⟩⟩ <;> simp
      | attached =>
        refine ⟨some s.nextId, hstored _ _ ⟨rfl, ?_, fun c => mem_put_connection hw, ?_, hw.rows,
          fun _ h => .inl h⟩⟩ <;> simp

theorem Stored.wellFormed (hw : WellFormed s) (h : Stored s u pair connection) : WellFormed u := by
  refine ⟨fun c hc => ?_, fun a ha id hid => ?_, fun a ha b hb id hida hidb => ?_, h.rows⟩
  · rcases (h.connections c).mp hc with hc | ⟨-, hid⟩
    · exact Nat.lt_of_lt_of_le (hw.fresh c hc) h.nextId.1
    · exact h.nextId.2 c.id hid
  · rw [h.siteApplications] at ha
    rcases Keyed.mem_put.mp ha with rfl | ⟨ha, -⟩
    · exact (h.connections _).mpr (.inr ⟨rfl, hid⟩)
    · exact (h.connections _).mpr (.inl (hw.stored a ha id hid))
  · -- a new connection is referenced by no older assignment
    have hnew : ∀ a ∈ s.siteApplications.values, a.databaseConnection = some id →
        connection ≠ some id := by
      intro a ha hid hconnection
      have hlt := hw.fresh _ (hw.stored a ha id hid)
      simp only [h.isNew id hconnection, Nat.lt_irrefl] at hlt
    rw [h.siteApplications] at ha hb
    rcases Keyed.mem_put.mp ha with rfl | ⟨ha, -⟩ <;>
      rcases Keyed.mem_put.mp hb with rfl | ⟨hb, -⟩
    · rfl
    · exact absurd hida (hnew b hb hidb)
    · exact absurd hidb (hnew a ha hida)
    · exact hw.unique a ha b hb id hida hidb

theorem Stored.keeps_iff (hw : WellFormed s) (hc : Consistent s)
    (h : Stored s u pair connection) :
    Consistent u ↔ ∀ assigned ∈ s.siteApplications.values, assigned.pair = pair →
      assigned.databaseConnection = none := by
  have hmem : ∀ a, a ∈ u.siteApplications.values ↔
      a = ⟨pair, connection⟩ ∨ a ∈ s.siteApplications.values ∧ a.pair ≠ pair := by
    intro a
    rw [h.siteApplications]
    exact Keyed.mem_put
  constructor
  · intro hu a ha hpair
    by_contra hne
    obtain ⟨id, hid⟩ := Option.ne_none_iff_exists'.mp hne
    have hstored := hw.stored a ha id hid
    -- the connection of the assignment that was replaced
    obtain ⟨b, hb, -, hbid⟩ := hu.connections _ ((h.connections _).mpr (.inl hstored))
    rcases (hmem b).mp hb with rfl | ⟨hb, hbpair⟩
    · have hlt := hw.fresh _ hstored
      simp only [h.isNew id hbid, Nat.lt_irrefl] at hlt
    · exact hbpair (hw.unique b hb a ha id hbid hid ▸ hpair)
  · intro hnone
    have hkept : ∀ a ∈ s.siteApplications.values, a.pair = pair ∨ a ∈ u.siteApplications.values := by
      intro a ha
      by_cases hpair : a.pair = pair
      · exact .inl hpair
      · exact .inr ((hmem a).mpr (.inr ⟨ha, hpair⟩))
    have hadded := (hmem ⟨pair, connection⟩).mpr (.inl rfl)
    refine ⟨fun c hmemc => ?_, fun property hmemp other hpre => ?_⟩
    · rcases (h.connections c).mp hmemc with hmemc | ⟨hsite, hid⟩
      · obtain ⟨a, ha, hsite, hid⟩ := hc.connections c hmemc
        rcases hkept a ha with hpair | hau
        · rw [hnone a ha hpair] at hid
          cases hid
        · exact ⟨a, hau, hsite, hid⟩
      · exact ⟨_, hadded, hsite.symm, hid⟩
    · rcases h.named property hmemp with hmems | hpair
      · obtain ⟨a, ha, rfl⟩ := hc.properties property hmems other hpre
        rcases hkept a ha with hpair | hau
        · exact ⟨_, hadded, hpair.symm⟩
        · exact ⟨a, hau, rfl⟩
      · exact ⟨_, hadded, pair_prefix_unique h.rows hmemp hpre hpair⟩

theorem saved_not_consistent (hw : WellFormed s) {connection : DatabaseConnection}
    (hid : connection.id = s.nextId) (hmem : connection ∈ u.connections.values)
    (hsame : u.siteApplications = s.siteApplications) : ¬ Consistent u := by
  intro hu
  obtain ⟨a, ha, -, haid⟩ := hu.connections connection hmem
  rw [hsame] at ha
  have hlt := hw.fresh _ (hw.stored a ha _ haid)
  simp only [hid, Nat.lt_irrefl] at hlt

end Assign

section Delete

theorem mem_assigned {p : Pair → Bool} :
    pair ∈ s.assigned p ↔ (∃ a ∈ s.siteApplications.values, a.pair = pair) ∧ p pair = true := by
  rw [State.assigned, List.mem_filter, List.mem_map]

theorem deleteScope_subset {properties : List (PropertyImpl V)} {p : String}
    {property : PropertyImpl V} (h : property ∈ deleteScope p properties) :
    property ∈ properties := (List.mem_filter.mp h).1

theorem removeAll (pairs : List Pair) (hw : WellFormed s) :
    (∀ a, a ∈ (pairs.foldl removeFromSite s).siteApplications.values ↔
      a ∈ s.siteApplications.values ∧ a.pair ∉ pairs) ∧
    (pairs.foldl removeFromSite s).connections = s.connections ∧
    (pairs.foldl removeFromSite s).nextId = s.nextId ∧
    Rows (pairs.foldl removeFromSite s).properties ∧
    ∀ property ∈ (pairs.foldl removeFromSite s).properties, property ∈ s.properties ∧
      ∀ pair ∈ pairs, ¬ pair.propertyPrefix.toList <+: property.name.toList := by
  induction pairs generalizing s with
  | nil => exact ⟨by simp, rfl, rfl, hw.rows, fun property h => ⟨h, by simp⟩⟩
  | cons pair pairs ih =>
    have hrows := deleteScope_named (p := pair.propertyPrefix) hw.rows
    have hremoved : WellFormed (removeFromSite s pair) := by
      refine ⟨hw.fresh, fun a ha => ?_, fun a ha b hb => ?_, hrows⟩
      · exact hw.stored a (Keyed.mem_erase.mp ha).1
      · exact hw.unique a (Keyed.mem_erase.mp ha).1 b (Keyed.mem_erase.mp hb).1
    obtain ⟨hmem, hconnections, hnext, hrows', hproperties⟩ := ih hremoved
    refine ⟨fun a => ?_, hconnections, hnext, hrows', fun property h => ?_⟩
    · rw [List.foldl_cons, hmem, removeFromSite, Keyed.mem_erase, List.mem_cons, not_or, and_assoc]
    · obtain ⟨h, hnot⟩ := hproperties property h
      refine ⟨deleteScope_subset h, List.forall_mem_cons.mpr ⟨?_, hnot⟩⟩
      exact not_prefix_of_mem_deleteScope hw.rows h

theorem deleteSite_keeps {site : StrictName} (hw : WellFormed s) (hc : Consistent s) :
    WellFormed (deleteSite site s) ∧ Consistent (deleteSite site s) ∧
      ∀ a ∈ (deleteSite site s).siteApplications.values, a ∈ s.siteApplications.values ∧
        removes s (.deleteSite site) a.pair = false := by
  unfold deleteSite
  simp only [removes]
  cases hexists : (s.sites.map Prod.fst).contains site with
  | false => exact ⟨hw, hc, fun a ha => ⟨ha, rfl⟩⟩
  | true =>
    obtain ⟨hw', hc', hmem⟩ := unlinkAll (s.assigned (·.site == site)) hw hc
    simp only [if_true, Bool.true_and]
    generalize (s.assigned (·.site == site)).foldl unlinkApplicationFromSite s = detached
      at hw' hc' hmem ⊢
    have hsite : ∀ a ∈ detached.siteApplications.values, a.pair.site ≠ site := by
      intro a ha heq
      obtain ⟨hs, hnot⟩ := hmem a ha
      exact hnot (mem_assigned.mpr ⟨⟨a, hs, rfl⟩, by simpa using heq⟩)
    refine ⟨⟨fun c h => ?_, fun a ha id hid => ?_, hw'.unique, deleteScope_named hw'.rows⟩,
      ⟨fun c h => ?_, fun property h => ?_⟩, fun a ha => ⟨(hmem a ha).1, by simpa using hsite a ha⟩⟩
    · exact hw'.fresh c (Keyed.mem_filter.mp h).1
    · exact Keyed.mem_filter.mpr ⟨hw'.stored a ha id hid, by simpa using hsite a ha⟩
    · exact hc'.connections c (Keyed.mem_filter.mp h).1
    · exact hc'.properties property (deleteScope_subset h)

theorem deleteApplication_keeps {application : StrictName} (hw : WellFormed s)
    (hc : Consistent s) :
    WellFormed (deleteApplication application s) ∧
      (Consistent (deleteApplication application s) ↔ Allowed s (.deleteApplication application)) ∧
      ∀ a ∈ (deleteApplication application s).siteApplications.values,
        a ∈ s.siteApplications.values ∧
          removes s (.deleteApplication application) a.pair = false := by
  unfold deleteApplication
  simp only [removes, Allowed]
  cases hexists : s.removable application with
  | false => exact ⟨hw, by simpa using hc, fun a ha => ⟨ha, rfl⟩⟩
  | true =>
    obtain ⟨hmem, hconnections, hnext, hrows, hproperties⟩ :=
      removeAll (s.assigned (·.application == application)) hw
    simp only [if_true, Bool.true_and, forall_const]
    generalize (s.assigned (·.application == application)).foldl removeFromSite s = removed
      at hmem hconnections hnext hrows hproperties ⊢
    have hkept : ∀ a, a ∈ removed.siteApplications.values ↔
        a ∈ s.siteApplications.values ∧ a.pair.application ≠ application := by
      intro a
      rw [hmem]
      refine and_congr_right fun ha => not_congr ?_
      rw [mem_assigned]
      exact ⟨fun h => by simpa using h.2, fun h => ⟨⟨a, ha, rfl⟩, by simpa using h⟩⟩
    refine ⟨⟨fun c h => ?_, fun a ha id hid => ?_, fun a ha b hb => ?_, deleteScope_named hrows⟩,
      ⟨fun hu a ha heq => ?_, fun hnone => ⟨fun c h => ?_, fun property h other hpre => ?_⟩⟩,
      fun a ha => ⟨((hkept a).mp ha).1, by simpa using ((hkept a).mp ha).2⟩⟩
    · rw [hconnections] at h
      exact hnext ▸ hw.fresh c h
    · exact hconnections ▸ hw.stored a ((hkept a).mp ha).1 id hid
    · exact hw.unique a ((hkept a).mp ha).1 b ((hkept b).mp hb).1
    · by_contra hne
      obtain ⟨id, hid⟩ := Option.ne_none_iff_exists'.mp hne
      -- its connection is still there
      obtain ⟨b, hb, -, hbid⟩ := hu.connections _ (hconnections ▸ hw.stored a ha id hid)
      obtain ⟨hb, hne⟩ := (hkept b).mp hb
      exact hne (hw.unique b hb a ha id hbid hid ▸ heq)
    · rw [hconnections] at h
      obtain ⟨a, ha, hsite, hid⟩ := hc.connections c h
      refine ⟨a, (hkept a).mpr ⟨ha, fun heq => ?_⟩, hsite, hid⟩
      rw [hnone a ha heq] at hid
      cases hid
    · obtain ⟨h, hnot⟩ := hproperties property (deleteScope_subset h)
      obtain ⟨a, ha, rfl⟩ := hc.properties property h other hpre
      refine ⟨a, (hkept a).mpr ⟨ha, fun heq => hnot a.pair ?_ hpre⟩, rfl⟩
      exact mem_assigned.mpr ⟨⟨a, ha, rfl⟩, by simpa using heq⟩

end Delete

/-! ## Runs -/

section Runs

variable {step : Step}

theorem wellFormed_step (hw : WellFormed s) (hc : Consistent s) :
    WellFormed (perform inherit s step) := by
  cases step with
  | assign pair createProps setUp =>
    rcases assignApplicationToSite_cases inherit pair createProps setUp hw with
      ⟨-, heq⟩ | ⟨-, heq⟩ | ⟨-, connection, h⟩
    · exact (congrArg WellFormed heq).mpr hw
    · rw [perform, heq]
      refine ⟨fun c hmem => ?_, fun a ha id hid => ?_, hw.unique, hw.rows⟩
      · rcases (mem_put_connection hw).mp hmem with hmem | ⟨-, hid⟩
        · exact Nat.lt_succ_of_lt (hw.fresh c hmem)
        · exact Nat.lt_succ_of_le (Nat.le_of_eq (Option.some.inj hid).symm)
      · exact (mem_put_connection hw).mpr (.inl (hw.stored a ha id hid))
    · exact h.wellFormed hw
  | unlink pair => exact unlink_wellFormed hw
  | deleteApplication application => exact (deleteApplication_keeps hw hc).1
  | deleteSite site => exact (deleteSite_keeps hw hc).1

theorem consistent_step (hw : WellFormed s) (hc : Consistent s) :
    Consistent (perform inherit s step) ↔ Allowed s step := by
  cases step with
  | assign pair createProps setUp =>
    rcases assignApplicationToSite_cases inherit pair createProps setUp hw with
      ⟨hallowed, heq⟩ | ⟨⟨hhas, hfails⟩, heq⟩ | ⟨⟨hhas, hstatus⟩, connection, h⟩
    · exact iff_of_true ((congrArg Consistent heq).mpr hc) hallowed
    · refine iff_of_false ?_ fun h => (h hhas).1 hfails
      rw [perform, heq]
      have hsaved : (⟨s.nextId, pair.site⟩ : DatabaseConnection) ∈
          (s.connections.put ⟨s.nextId, pair.site⟩).values :=
        (mem_put_connection hw).mpr (.inr ⟨rfl, rfl⟩)
      exact saved_not_consistent hw rfl hsaved rfl
    · have hsucceeds : ¬ FailsAfterSaving setUp := by
        rw [← createDatabaseConnection_saved]
        intro hsaved
        rw [isErroneous_of_saved hsaved] at hstatus
        cases hstatus
      refine (h.keeps_iff hw hc).trans ⟨fun hnone _ => ⟨hsucceeds, fun _ => hnone⟩, ?_⟩
      exact fun hallowed => (hallowed hhas).2 hstatus
  | unlink pair => exact iff_of_true (unlink_consistent hw hc) trivial
  | deleteApplication application => exact (deleteApplication_keeps hw hc).2.1
  | deleteSite site => exact iff_of_true (deleteSite_keeps hw hc).2.1 trivial

/-- What a step removes is gone, where the tables stay consistent. -/
theorem leavesNothing_step (hw : WellFormed s) (hc : Consistent s)
    (hu : Consistent (perform inherit s step)) : LeavesNothing s (perform inherit s step) step := by
  intro a ha hremoved
  have hkept : ∀ b ∈ (perform inherit s step).siteApplications.values,
      b ∈ s.siteApplications.values ∧ removes s step b.pair = false := by
    cases step with
    | assign pair createProps setUp => exact absurd hremoved (by simp [removes])
    | unlink pair =>
      intro b hb
      obtain ⟨hb, hne⟩ := mem_unlink.mp hb
      exact ⟨hb, by simpa [removes] using hne⟩
    | deleteApplication application => exact (deleteApplication_keeps hw hc).2.2
    | deleteSite site => exact (deleteSite_keeps hw hc).2.2
  refine ⟨fun c hmem hid => ?_, fun property hmem hpre => ?_⟩
  · obtain ⟨b, hb, -, hbid⟩ := hu.connections c hmem
    obtain ⟨hb, hnot⟩ := hkept b hb
    rw [hw.unique b hb a ha c.id hbid hid, hremoved] at hnot
    cases hnot
  · obtain ⟨b, hb, hpair⟩ := hu.properties property hmem a.pair hpre
    obtain ⟨-, hnot⟩ := hkept b hb
    rw [hpair, hremoved] at hnot
    cases hnot

/-- Tables a run may start from. -/
structure Tables (V : Type) where
  state : State V
  wellFormed : WellFormed state
  consistent : Consistent state

def Reaches (inherit : V → V) (s : State V) (steps : List Step) (t : State V) : Prop :=
  Run (fun t step u => perform inherit t step = u) s steps t

/-- Every state on the way is consistent, and every step leaves nothing of what it removes. -/
def StaysConsistent (inherit : V → V) (s : State V) (steps : List Step) : Prop :=
  (∀ pre post t, steps = pre ++ post → Reaches inherit s pre t → Consistent t) ∧
    ∀ pre step post t, steps = pre ++ step :: post → Reaches inherit s pre t →
      LeavesNothing t (perform inherit t step) step

theorem staysConsistent_iff (tables : Tables V) (inherit : V → V) (steps : List Step) :
    StaysConsistent inherit tables.state steps ↔
      ∀ pre step post t, steps = pre ++ step :: post → Reaches inherit tables.state pre t →
        Allowed t step := by
  have hkeeps : ∀ t step u, WellFormed t → Consistent t → perform inherit t step = u →
      WellFormed u := by
    rintro t step _ hw hc rfl
    exact wellFormed_step hw hc
  have hstep : ∀ t step u, WellFormed t → Consistent t → perform inherit t step = u →
      (Consistent u ↔ Allowed t step) := by
    rintro t step _ hw hc rfl
    exact consistent_step hw hc
  have hiff := Run.inv_iff_of_inv tables.wellFormed tables.consistent (fun t step => ⟨_, rfl⟩)
    hkeeps hstep steps
  constructor
  · rintro ⟨hconsistent, -⟩
    exact hiff.mp hconsistent
  · intro hallowed
    have hconsistent := hiff.mpr hallowed
    refine ⟨hconsistent, ?_⟩
    intro pre step post t hsteps hrun
    have hw : WellFormed t := Run.inv_of_good tables.wellFormed hkeeps hconsistent _ _ _ hsteps hrun
    have hc : Consistent t := hconsistent pre (step :: post) t hsteps hrun
    refine leavesNothing_step hw hc ?_
    exact hconsistent (pre ++ [step]) post _ (by simp [hsteps]) (.snoc hrun rfl)

end Runs

section Example

/-- The site `shop` and the application `blog`, which is not assigned yet. -/
def shopTables (active : Bool) : Tables Unit where
  state := ⟨[(shop, active)], [blog], .empty, .empty, [], 0⟩
  wellFormed := ⟨nofun, nofun, nofun, ⟨.empty, rfl⟩⟩
  consistent := ⟨nofun, nofun⟩

/-- The database exists or is created by the script. -/
def setUp (initializes : Bool) : SetUp :=
  ⟨true, [⟨true, true, true⟩], true, false, initializes, false, some .dbMigrated⟩

/-- A connection stays behind when the script fails that creates the database, and when the application
is deleted that it belongs to. -/
theorem connection_stays :
    ¬ StaysConsistent id (shopTables true).state [.assign ⟨shop, blog⟩ false (setUp false)] ∧
      ¬ StaysConsistent id (shopTables false).state
        [.assign ⟨shop, blog⟩ false (setUp true), .deleteApplication blog] := by
  have hstays : ∀ (active : Bool) (steps : List Step) (t : State Unit),
      Reaches id (shopTables active).state steps t → t.connections.values = [⟨0, shop⟩] →
      t.siteApplications.values = [] → ¬ StaysConsistent id (shopTables active).state steps := by
    intro active steps t hrun hconnections hnone h
    have hconsistent : Consistent t := h.1 steps [] t (List.append_nil steps).symm hrun
    obtain ⟨a, ha, -⟩ := hconsistent.connections ⟨0, shop⟩ (by simp [hconnections])
    simp [hnone] at ha
  refine ⟨hstays _ _ _ (.single rfl) ?_ ?_, hstays _ _ _ (.snoc (.single rfl) rfl) ?_ ?_⟩ <;> rfl

end Example

end Databases
end AppNG
