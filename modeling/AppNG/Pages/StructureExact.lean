import AppNG.Pages.PagePermissions

/-!
# Pages.StructureExact

Which elements `buildStructure` shows, and what it does about the others.

* `callDataSource_ok`, `callAction_cases`: what the constructors decide.
* `executed_permitted`: no action runs without its permissions.
* `leavesDeniedOut_iff`: an element that is not permitted is left out quietly, unless it is an
  action whose event or reference is denied, or one that has to give the section its title and
  has none.
* `shows_iff`: a structure that is returned shows what is permitted and wanted if the two
  evaluators of an include condition agree with the variables the manual lists.
-/

namespace AppNG
namespace Pages

open Loop

/-! ## What a page promises -/

def ElementRef.condition : ElementRef → Option Condition
  | .datasource ref => ref.condition
  | .action ref => ref.condition

/-- Reference, event and definition are permitted, as far as they exist. -/
def permits (rq : Request) : ElementRef → Bool
  | .datasource ref =>
    rq.hasPermissions (.ofDatasourceRef ref) &&
      (rq.config.getDatasource ref.id).all fun d => rq.hasPermissions (.ofDatasource d)
  | .action ref =>
    rq.hasPermissions (.ofActionRef ref) &&
      (rq.config.getEvent ref.eventId).all fun event => rq.hasPermissions (.ofEvent event) &&
        (rq.config.getAction event.id ref.id).all fun a => rq.hasPermissions (.ofAction a)

/-- The variables of an include condition: the parameters, `PATH`, `SITE`, `APP` and `SESSION`. -/
def documentedScope (rq : Request) : EvalScope :=
  { parameters := rq.parameters, path := true, siteAppSession := true }

/-- The variables the constructors evaluate an include condition with. -/
def constructorScope (rq : Request) : ElementRef → EvalScope
  | .datasource _ => includeScope rq.parameters
  | .action _ => actionIncludeScope rq

def shown (rq : Request) (element : SectionelementDef) : Bool :=
  permits rq element.ref && conditionMatches rq (documentedScope rq) element.ref.condition

def called (rq : Request) (element : SectionelementDef) : Bool :=
  permits rq element.ref && conditionMatches rq (constructorScope rq element.ref)
    element.ref.condition

/-- The elements of a page that pass, section by section, without empty sections. -/
def sectionsWith (p : SectionelementDef → Bool) (sectionDefs : List SectionDef) :
    List (List SectionelementDef) :=
  (sectionDefs.map fun s => s.element.filter p).filter (!·.isEmpty)

def Structure.sources (sections : Structure) : List (List SectionelementDef) :=
  sections.map fun s => s.element.map (·.source)

/-- The reference and its event are permitted, and lead to the action. -/
structure Initialised (rq : Request) (ref : ActionRef) (action : Action) : Prop where
  event : ∃ event, rq.config.getEvent ref.eventId = some event ∧
    rq.hasPermissions (.ofEvent event) = true ∧ rq.config.getAction event.id ref.id = some action
  reference : rq.hasPermissions (.ofActionRef ref) = true

structure ActionPermitted (rq : Request) (ref : ActionRef) (action : Action) : Prop
    extends Initialised rq ref action where
  definition : rq.hasPermissions (.ofAction action) = true

/-! ## The constructors -/

variable {rq : Request} {page : PageDefinition} {inc : Included}

theorem callDataSource_ok {parameters : Params} {ref : DatasourceRef} {ds : CallableDataSource}
    (h : callDataSource rq parameters ref = .ok ds) :
    ds.doInclude = (permits rq (.datasource ref) &&
        conditionMatches rq (includeScope parameters) ref.condition) ∧
      (ds.doInclude = true → ds.datasource.isSome = true) := by
  unfold callDataSource at h
  split at h
  · rename_i href
    split at h
    · rename_i hcond
      split at h
      · cases h
      · rename_i datasource hds
        split at h
        · rename_i hperm
          split at h
          · cases h
          · cases h
            simp [permits, href, hcond, hds, hperm]
        · rename_i hperm
          cases h
          simp [permits, href, hds, hperm]
    · rename_i hcond
      cases h
      simp [hcond]
  · rename_i href
    cases h
    simp [permits, href]

theorem callDataSource_denied (parameters : Params) {ref : DatasourceRef}
    (h : permits rq (.datasource ref) = false) :
    ∃ ds, callDataSource rq parameters ref = .ok ds ∧ ds.doInclude = false := by
  unfold callDataSource
  by_cases href : rq.hasPermissions (.ofDatasourceRef ref) = true
  · rw [if_pos href]
    split
    · cases hds : rq.config.getDatasource ref.id with
      | none => simp [permits, href, hds] at h
      | some datasource =>
        have hperm : ¬ rq.hasPermissions (.ofDatasource datasource) = true := by
          simpa [permits, href, hds] using h
        simp [hperm]
    · exact ⟨_, rfl, rfl⟩
  · rw [if_neg href]
    exact ⟨_, rfl, rfl⟩

/-- What the constructor of an action leaves: no action, an action that is neither included nor
executed, or one that is permitted. -/
theorem callAction_cases {ref : ActionRef} {ca : CallableAction} (h : callAction rq ref = .ok ca) :
    (ca = { ref } ∧ permits rq (.action ref) = false) ∨
      (∃ action, ca = { ref, action := some action } ∧ Initialised rq ref action ∧
        permits rq (.action ref) = false) ∨
      (∃ action, ca.action = some action ∧ ActionPermitted rq ref action ∧
        permits rq (.action ref) = true ∧
        ca.doInclude = conditionMatches rq (actionIncludeScope rq) ref.condition) := by
  unfold callAction at h
  split at h
  · cases h
  · rename_i event hevent
    split at h
    · rename_i hpe
      split at h
      · rename_i hpr
        unfold initializeAction at h
        split at h
        · cases h
        · rename_i action haction
          split at h
          · rename_i hpa
            split at h
            · cases h
            · simp only at h
              split at h
              · cases h
              · cases h
                refine .inr (.inr ⟨action, rfl, ⟨⟨⟨event, hevent, hpe, haction⟩, hpr⟩, hpa⟩, ?_,
                  rfl⟩)
                simp [permits, hevent, hpe, hpr, haction, hpa]
          · rename_i hpa
            cases h
            refine .inr (.inl ⟨action, rfl, ⟨⟨event, hevent, hpe, haction⟩, hpr⟩, ?_⟩)
            simp [permits, hevent, hpe, hpr, haction, hpa]
      · rename_i hpr
        cases h
        exact .inl ⟨rfl, by simp [permits, hpr]⟩
    · rename_i hpe
      cases h
      exact .inl ⟨rfl, by simp [permits, hevent, hpe]⟩

/-! ## Performing an action -/

theorem performExecute_ok {ca ca' : CallableAction} {action : Action} {executed : List Action}
    (h : performExecute rq ca action = (executed, .ok ca')) :
    ca'.action = ca.action ∧ ca'.doInclude = ca.doInclude := by
  unfold performExecute at h
  split at h
  · split at h
    · cases h
    · cases h; exact ⟨rfl, rfl⟩
    · split at h
      · cases h
      · cases h; exact ⟨rfl, rfl⟩
  · cases h; exact ⟨rfl, rfl⟩

theorem performExecute_executed {ca : CallableAction} {action a : Action}
    (h : a ∈ (performExecute rq ca action).1) : a = action ∧ ca.doExecute = true := by
  unfold performExecute at h
  split at h
  · rename_i hex
    split at h
    · cases h
    · cases h
    · split at h <;> exact ⟨List.mem_singleton.mp h, hex⟩
  · cases h

theorem perform_ok {ca ca' : CallableAction} (h : (ca.perform rq).2 = .ok ca') :
    ca'.action = ca.action ∧ ca'.doInclude = ca.doInclude := by
  unfold CallableAction.perform at h
  split at h
  · cases h; exact ⟨rfl, rfl⟩
  · split at h
    · cases h
    · rename_i hex
      obtain ⟨ha, hi⟩ := performExecute_ok hex
      split at h
      · split at h
        · cases h
        · cases h; exact ⟨ha, hi⟩
      · cases h; exact ⟨ha, hi⟩

theorem perform_executed {ca : CallableAction} {a : Action} (h : a ∈ (ca.perform rq).1) :
    ca.action = some a ∧ ca.doExecute = true := by
  unfold CallableAction.perform at h
  split at h
  · cases h
  · rename_i action haction
    have hmem : a ∈ (performExecute rq ca action).1 := by
      split at h
      · rename_i hex; rw [hex]; exact h
      · rename_i hex
        rw [hex]
        split at h
        · split at h <;> exact h
        · exact h
    obtain ⟨rfl, hex⟩ := performExecute_executed hmem
    exact ⟨haction, hex⟩

theorem perform_idle {ref : ActionRef} {action : Option Action} :
    CallableAction.perform rq { ref, action } = ([], .ok { ref, action }) := by
  cases action <;> rfl

theorem performExecute_ran {ca : CallableAction} {action : Action} :
    ((performExecute rq ca action).1 = [] ∨ (performExecute rq ca action).1 = [action]) ∧
      ((performExecute rq ca action).1 = [action] ↔
        ca.doExecute = true ∧ retrieveData rq .beforeExecute ca.ref action = .ok true) := by
  unfold performExecute
  split
  · rename_i hex
    split
    · rename_i hd
      simp [hd]
    · rename_i hd
      simp [hd]
    · rename_i hd
      simp only [hex, hd]
      split <;> simp
  · rename_i hex
    simp [hex]

theorem performExecute_error {ca : CallableAction} {action : Action} {f : Failure}
    (h : (performExecute rq ca action).2 = .error f) :
    retrieveData rq .beforeExecute ca.ref action = .error f ∨ execute rq action = .error f := by
  unfold performExecute at h
  split at h
  · split at h
    · cases h; exact .inl ‹_›
    · cases h
    · split at h
      · cases h; exact .inr ‹_›
      · cases h
  · cases h

theorem performExecute_ref {ca ca' : CallableAction} {action : Action} {executed : List Action}
    (h : performExecute rq ca action = (executed, .ok ca')) : ca'.ref = ca.ref := by
  unfold performExecute at h
  split at h
  · split at h
    · cases h
    · cases h; rfl
    · split at h
      · cases h
      · cases h; rfl
  · cases h; rfl

theorem perform_ran {ca : CallableAction} {action : Action} (haction : ca.action = some action) :
    (ca.perform rq).1 = (performExecute rq ca action).1 := by
  simp only [CallableAction.perform, haction]
  split
  · rename_i h
    rw [h]
  · rename_i h
    rw [h]
    split
    · split <;> rfl
    · rfl

theorem perform_error {ca : CallableAction} {action : Action} {f : Failure}
    (haction : ca.action = some action) (h : (ca.perform rq).2 = .error f) :
    (∃ moment, retrieveData rq moment ca.ref action = .error f) ∨ execute rq action = .error f := by
  simp only [CallableAction.perform, haction] at h
  split at h
  · rename_i hex
    cases h
    rcases performExecute_error (congrArg Prod.snd hex) with hd | hx
    · exact .inl ⟨_, hd⟩
    · exact .inr hx
  · rename_i hex
    split at h
    · split at h
      · rename_i hd
        cases h
        rw [performExecute_ref hex] at hd
        exact .inl ⟨_, hd⟩
      · cases h
    · cases h

/-! ## One element -/

variable {mustPerform : Bool} {st st' : Adding} {element : SectionelementDef}

def actionTitle (action : Action) : Option Label := action.config.bind (·.title)

theorem addDatasource_ok {ref : DatasourceRef} (href : element.ref = .datasource ref)
    (h : addDatasource rq mustPerform st element ref = (st', none)) :
    st'.element.map (·.source) = st.element.map (·.source) ++
      (if called rq element then [element] else []) := by
  unfold addDatasource at h
  split at h
  · cases h
  · rename_i ds hds
    obtain ⟨hinc, hsome⟩ := callDataSource_ok hds
    have hcalled : called rq element = ds.doInclude := by
      rw [hinc]; simp [called, href, constructorScope, ElementRef.condition]
    rw [hcalled]
    split at h
    · rename_i hdoInc
      rw [hdoInc]
      simp only at h
      split at h
      · cases h
      · cases h; simp [makeElement]
    · rename_i hnot
      cases h
      cases hdo : ds.doInclude with
      | false => simp
      | true =>
        obtain ⟨datasource, hdatasource⟩ := Option.isSome_iff_exists.mp (hsome hdo)
        exact absurd hdo (hnot datasource hdatasource)

theorem addDatasource_build {ref : DatasourceRef} :
    (addDatasource rq mustPerform st element ref).1.build.sections = st.build.sections ∧
      (addDatasource rq mustPerform st element ref).1.build.executed = st.build.executed := by
  unfold addDatasource
  split
  · exact ⟨rfl, rfl⟩
  · split
    · simp only
      split <;> exact ⟨rfl, rfl⟩
    · exact ⟨rfl, rfl⟩

theorem addDatasource_denied {ref : DatasourceRef} (h : permits rq (.datasource ref) = false) :
    addDatasource rq mustPerform st element ref = (st, none) := by
  obtain ⟨ds, hds, hinc⟩ := callDataSource_denied rq.parameters h
  simp [addDatasource, hds, hinc]

theorem addAction_ok {ref : ActionRef} (href : element.ref = .action ref)
    (h : addAction rq st element ref = (st', none)) :
    st'.element.map (·.source) = st.element.map (·.source) ++
      (if called rq element then [element] else []) := by
  unfold addAction at h
  split at h
  · cases h
  · rename_i ca hca
    simp only at h
    split at h
    · cases h
    · rename_i ca' hperform
      obtain ⟨haction, hinc⟩ := perform_ok hperform
      split at h
      · cases h
      · rename_i action hsome
        have hcalled : called rq element = ca'.doInclude := by
          simp only [called, href, constructorScope, ElementRef.condition]
          rw [hinc]
          rcases callAction_cases hca with ⟨rfl, hden⟩ | ⟨_, rfl, _, hden⟩ | ⟨_, _, _, hperm, hi⟩
          · rw [hden]; rfl
          · rw [hden]; rfl
          · rw [hperm, hi, Bool.true_and]
        rw [hcalled]
        split at h
        · cases h
        · cases h
          cases ca'.doInclude <;> simp [makeElement]

theorem addAction_build {ref : ActionRef} :
    (addAction rq st element ref).1.build.sections = st.build.sections ∧
      ∀ p ∈ (addAction rq st element ref).1.build.executed,
        p ∈ st.build.executed ∨ ActionPermitted rq p.1 p.2 := by
  unfold addAction
  split
  · exact ⟨rfl, fun p hp => .inl hp⟩
  · rename_i ca hca
    have hran : ∀ p ∈ st.build.executed ++ (ca.perform rq).1.map (ref, ·),
        p ∈ st.build.executed ∨ ActionPermitted rq p.1 p.2 := by
      intro p hp
      rcases List.mem_append.mp hp with hp | hp
      · exact .inl hp
      · obtain ⟨a, ha, rfl⟩ := List.mem_map.mp hp
        obtain ⟨haction, hex⟩ := perform_executed ha
        rcases callAction_cases hca with ⟨rfl, _⟩ | ⟨_, rfl, _⟩ | ⟨a', ha', hperm, _, _⟩
        · cases haction
        · cases hex
        · rw [haction] at ha'
          cases ha'
          exact .inr hperm
    simp only
    split
    · exact ⟨rfl, hran⟩
    · split
      · exact ⟨rfl, hran⟩
      · split <;> exact ⟨rfl, hran⟩

/-- Reference, event and definition are looked up in turn, so an action whose definition alone is
denied is known in the end. -/
theorem callAction_initialised {ref : ActionRef} {action : Action}
    (h : Initialised rq ref action) (hden : permits rq (.action ref) = false) :
    callAction rq ref = .ok { ref, action := some action } := by
  obtain ⟨⟨event, hevent, hpe, haction⟩, hpr⟩ := h
  have hpa : ¬ rq.hasPermissions (.ofAction action) = true := by
    simpa [permits, hevent, hpe, hpr, haction] using hden
  simp only [callAction, hevent, hpe, hpr, if_true, initializeAction, haction, if_neg hpa]

/-- The element is left out: nothing is thrown, added or executed. -/
def LeftOut (rq : Request) (mustPerform : Bool) (st : Adding) (element : SectionelementDef) :
    Prop :=
  ∃ st', addElement rq mustPerform st element = (st', none) ∧ st'.element = st.element ∧
    st'.build = st.build

theorem leftOut_action_iff {ref : ActionRef} (href : element.ref = .action ref)
    (hden : permits rq (.action ref) = false) :
    LeftOut rq mustPerform st element ↔
      ∃ action, Initialised rq ref action ∧
        (mustSetTitle rq st element = true → (actionTitle action).isSome = true) := by
  simp only [LeftOut, addElement, href]
  constructor
  · rintro ⟨st', h, -, -⟩
    unfold addAction at h
    split at h
    · cases h
    · rename_i ca hca
      rcases callAction_cases hca with ⟨rfl, -⟩ | ⟨action, rfl, hinit, -⟩ | ⟨_, _, _, hperm, -⟩
      · simp only [perform_idle] at h
        cases h
      · refine ⟨action, hinit, fun hmust => ?_⟩
        simp only [perform_idle, hmust, Bool.true_and] at h
        split at h
        · cases h
        · rename_i hnone
          simpa [actionTitle, Option.isSome_iff_ne_none] using hnone
      · rw [hperm] at hden
        cases hden
  · rintro ⟨action, hinit, htitle⟩
    have hok : (mustSetTitle rq st element && (action.config.bind (·.title)).isNone) = false := by
      cases hmust : mustSetTitle rq st element with
      | false => rfl
      | true => simpa [actionTitle, Option.isSome_iff_ne_none] using htitle hmust
    simp only [addAction, callAction_initialised hinit hden, perform_idle, hok]
    exact ⟨_, rfl, rfl, by simp⟩

/-! ## Sections -/

theorem addElement_ok (h : addElement rq mustPerform st element = (st', none)) :
    st'.element.map (·.source) = st.element.map (·.source) ++
      (if called rq element then [element] else []) := by
  unfold addElement at h
  split at h
  · exact addDatasource_ok ‹_› h
  · exact addAction_ok ‹_› h

theorem addElement_build (mustPerform : Bool) (st : Adding) (element : SectionelementDef) :
    (addElement rq mustPerform st element).1.build.sections = st.build.sections ∧
      ∀ p ∈ (addElement rq mustPerform st element).1.build.executed,
        p ∈ st.build.executed ∨ ActionPermitted rq p.1 p.2 := by
  unfold addElement
  split
  · obtain ⟨hsections, hexecuted⟩ := addDatasource_build
    exact ⟨hsections, fun p hp => .inl (hexecuted ▸ hp)⟩
  · exact addAction_build

def OnlyPermitted (rq : Request) (build : Build) : Prop :=
  ∀ p ∈ build.executed, ActionPermitted rq p.1 p.2

theorem addElements_sections (rq : Request) (mustPerform : Bool) (st : Adding)
    (elements : List SectionelementDef) :
    (foldUntil (addElement rq mustPerform) st elements).1.build.sections = st.build.sections :=
  foldUntil_inv (P := fun s : Adding => s.build.sections = st.build.sections)
    (fun s e _ hs => (addElement_build mustPerform s e).1.trans hs) rfl

theorem addElements_executed (mustPerform : Bool) (st : Adding)
    (elements : List SectionelementDef) (hst : OnlyPermitted rq st.build) :
    OnlyPermitted rq (foldUntil (addElement rq mustPerform) st elements).1.build := by
  refine foldUntil_inv (P := fun s : Adding => OnlyPermitted rq s.build) ?_ hst
  intro s e _ hs p hp
  rcases (addElement_build mustPerform s e).2 p hp with h | h
  · exact hs p h
  · exact h

theorem addElements_element {elements : List SectionelementDef}
    (h : foldUntil (addElement rq mustPerform) st elements = (st', none)) :
    st'.element.map (·.source) = st.element.map (·.source) ++ elements.filter (called rq) := by
  rw [foldUntil_collect (m := fun s : Adding => s.element.map (·.source))
    (g := fun e => if called rq e then [e] else []) (fun _ _ _ => addElement_ok) h]
  simp only [List.append_cancel_left_eq]
  clear h
  induction elements with
  | nil => rfl
  | cons e es ih => cases he : called rq e <;> simp [he, ih]

theorem sectionsWith_cons {p : SectionelementDef → Bool} (s : SectionDef) (ss : List SectionDef) :
    sectionsWith p (s :: ss) = sectionsWith p [s] ++ sectionsWith p ss := by
  simp only [sectionsWith, List.map_cons, List.map_nil, ← List.filter_append, List.cons_append,
    List.nil_append]

theorem sectionsWith_flatMap {p : SectionelementDef → Bool} {ss : List SectionDef} :
    ss.flatMap (fun s => sectionsWith p [s]) = sectionsWith p ss := by
  induction ss with
  | nil => rfl
  | cons s ss ih => rw [List.flatMap_cons, ih, ← sectionsWith_cons]

theorem addSection_ok {build build' : Build} {numbered : Nat × SectionDef}
    (h : addSection rq inc build numbered = (build', none)) :
    build'.sections.sources = build.sections.sources ++ sectionsWith (called rq) [numbered.2] := by
  unfold addSection at h
  simp only at h
  split at h
  · cases h
  · rename_i st hst
    have helement := addElements_element hst
    have hsections : st.build.sections = build.sections := by
      have hkept := addElements_sections rq (inc.includes numbered.1 numbered.2.id)
        ⟨build, numbered.2.title, []⟩ numbered.2.element
      rw [hst] at hkept
      exact hkept
    simp only [List.map_nil, List.nil_append] at helement
    split at h
    · rename_i hempty
      cases h
      rw [List.isEmpty_iff.mp hempty, List.map_nil] at helement
      simp [hsections, sectionsWith, ← helement]
    · rename_i hne
      cases h
      have hfull : (numbered.2.element.filter (called rq)).isEmpty = false := by
        rw [← helement, List.isEmpty_map]
        simpa using hne
      simp [hsections, Structure.sources, sectionsWith, helement, hfull]

theorem addSection_build {build : Build} {numbered : Nat × SectionDef}
    (h : OnlyPermitted rq build) : OnlyPermitted rq (addSection rq inc build numbered).1 := by
  have hst := addElements_executed (inc.includes numbered.1 numbered.2.id)
    ⟨build, numbered.2.title, []⟩ numbered.2.element h
  unfold addSection
  simp only
  split
  · rename_i hfold
    rw [hfold] at hst
    exact hst
  · rename_i hfold
    rw [hfold] at hst
    split <;> exact hst

/-! ## The page -/

/-- No action runs without the permissions of its reference, its event and its definition. -/
theorem executed_permitted : OnlyPermitted rq (buildStructure rq page inc).1 := by
  have hempty : OnlyPermitted rq {} := fun p hp => by cases hp
  unfold buildStructure
  split
  · exact hempty
  · rename_i sectionDefs _
    have hfold : OnlyPermitted rq
        (foldUntil (addSection rq inc) {} (sectionDefs.zipIdx.map fun s => (s.2, s.1))).1 :=
      foldUntil_inv (fun _ _ _ => addSection_build) hempty
    split
    · rename_i hst
      rw [hst] at hfold
      exact hfold
    · rename_i hst
      rw [hst] at hfold
      split <;> exact hfold

theorem filterSection_element {sectionDef filtered : SectionDef}
    (h : filterSection rq sectionDef = .ok filtered) :
    filtered.element = sectionDef.element.filter (accessible rq) := by
  unfold filterSection at h
  simp only at h
  split at h
  · cases h
  · cases h; rfl

theorem filter_sections {p : SectionelementDef → Bool} :
    ∀ {sectionDefs filtered : List SectionDef},
      sectionDefs.mapM (filterSection rq) = .ok filtered →
      sectionsWith p filtered = sectionsWith (fun e => accessible rq e && p e) sectionDefs := by
  intro sectionDefs
  induction sectionDefs with
  | nil =>
    intro filtered h
    cases h
    rfl
  | cons s ss ih =>
    intro filtered h
    rw [List.mapM_cons] at h
    cases hs : filterSection rq s with
    | error f => rw [hs] at h; cases h
    | ok s' =>
      cases hss : ss.mapM (filterSection rq) with
      | error f => rw [hs, hss] at h; cases h
      | ok ss' =>
        rw [hs, hss] at h
        cases h
        rw [sectionsWith_cons, ih hss, sectionsWith_cons s]
        simp only [sectionsWith, List.map_cons, List.map_nil, filterSection_element hs,
          List.filter_filter, Bool.and_comm]

theorem buildStructure_sections {build : Build} (h : buildStructure rq page inc = (build, none)) :
    build.sections.sources =
      sectionsWith (fun e => accessible rq e && called rq e) page.structureDef := by
  unfold buildStructure at h
  split at h
  · cases h
  · rename_i sectionDefs hdefs
    split at h
    · cases h
    · rename_i built hfold
      have hbuild : build = built := by
        split at h <;> exact (Prod.mk.inj h).1.symm
      rw [hbuild, foldUntil_collect (m := fun b : Build => b.sections.sources)
        (g := fun numbered => sectionsWith (called rq) [numbered.2]) (fun _ _ _ => addSection_ok)
        hfold, ← filter_sections hdefs]
      simp only [Structure.sources, List.map_nil, List.nil_append, List.flatMap_map]
      calc sectionDefs.zipIdx.flatMap (fun s => sectionsWith (called rq) [s.1])
          = (sectionDefs.zipIdx.map Prod.fst).flatMap fun s => sectionsWith (called rq) [s] := by
            rw [List.flatMap_map]
        _ = sectionsWith (called rq) sectionDefs := by
            rw [List.zipIdx_map_fst, sectionsWith_flatMap]

theorem mem_sectionsWith {p : SectionelementDef → Bool} {ss : List SectionDef}
    {e : SectionelementDef} :
    e ∈ (sectionsWith p ss).flatten ↔ p e = true ∧ ∃ s ∈ ss, e ∈ s.element := by
  simp only [sectionsWith, List.mem_flatten, List.mem_filter, List.mem_map]
  constructor
  · rintro ⟨_, ⟨⟨s, hs, rfl⟩, -⟩, he⟩
    obtain ⟨he, hp⟩ := List.mem_filter.mp he
    exact ⟨hp, s, hs, he⟩
  · rintro ⟨hp, s, hs, he⟩
    have hmem : e ∈ s.element.filter p := List.mem_filter.mpr ⟨he, hp⟩
    refine ⟨_, ⟨⟨s, hs, rfl⟩, ?_⟩, hmem⟩
    cases hf : s.element.filter p with
    | nil => rw [hf] at hmem; cases hmem
    | cons _ _ => rfl

theorem sectionsWith_eq_iff {p q : SectionelementDef → Bool} {ss : List SectionDef} :
    sectionsWith p ss = sectionsWith q ss ↔ ∀ s ∈ ss, ∀ e ∈ s.element, p e = q e := by
  constructor
  · intro h s hs e he
    have hmem : p e = true ↔ q e = true := by
      have hp : e ∈ (sectionsWith p ss).flatten ↔ _ := mem_sectionsWith
      rw [h, mem_sectionsWith] at hp
      exact ⟨fun hpe => (hp.mpr ⟨hpe, s, hs, he⟩).1, fun hqe => (hp.mp ⟨hqe, s, hs, he⟩).1⟩
    exact Bool.eq_iff_iff.mpr hmem
  · intro h
    have hmap : (ss.map fun s => s.element.filter p) = ss.map fun s => s.element.filter q :=
      List.map_congr_left fun s hs => List.filter_congr (h s hs)
    rw [sectionsWith, hmap, sectionsWith]

/-- Both evaluators of the include condition of a permitted element decide as the documented
variables do. -/
def ConditionsAgree (rq : Request) (page : PageDefinition) : Prop :=
  ∀ s ∈ page.structureDef, ∀ e ∈ s.element, permits rq e.ref = true →
    (conditionMatches rq (filterScope rq) e.ref.condition &&
        conditionMatches rq (constructorScope rq e.ref) e.ref.condition) =
      conditionMatches rq (documentedScope rq) e.ref.condition

theorem accessible_called {e : SectionelementDef} :
    (accessible rq e && called rq e) = (permits rq e.ref &&
      (conditionMatches rq (filterScope rq) e.ref.condition &&
        conditionMatches rq (constructorScope rq e.ref) e.ref.condition)) := by
  cases hperm : permits rq e.ref with
  | false => simp [called, hperm]
  | true =>
    have hacc : accessible rq e = conditionMatches rq (filterScope rq) e.ref.condition := by
      unfold accessible
      cases href : e.ref with
      | datasource ref =>
        rw [href] at hperm
        cases hc : ref.condition <;> simp_all [permits, ElementRef.condition, conditionMatches]
      | action ref =>
        rw [href] at hperm
        cases hc : ref.condition <;> simp_all [permits, ElementRef.condition, conditionMatches]
    simp [called, hperm, hacc]

/-- The structure shows the permitted elements whose condition holds, in page order. -/
def ShowsExactly (rq : Request) (page : PageDefinition) (build : Build) : Prop :=
  build.sections.sources = sectionsWith (shown rq) page.structureDef

theorem shows_iff {build : Build} (h : buildStructure rq page inc = (build, none)) :
    ShowsExactly rq page build ↔ ConditionsAgree rq page := by
  rw [ShowsExactly, buildStructure_sections h, sectionsWith_eq_iff]
  refine forall₄_congr fun s _ e _ => ?_
  rw [accessible_called, shown]
  cases permits rq e.ref <;> simp

/-- `buildStructure` comes to the element, with the section so far. -/
def Visits (rq : Request) (page : PageDefinition) (inc : Included) (mustPerform : Bool)
    (st : Adding) (element : SectionelementDef) : Prop :=
  ∃ sectionDefs build numbered, checkConditionsAndPermissions rq page = .ok sectionDefs ∧
    Reaches (addSection rq inc) {} (sectionDefs.zipIdx.map fun s => (s.2, s.1)) build numbered ∧
    mustPerform = inc.includes numbered.1 numbered.2.id ∧
    Reaches (addElement rq mustPerform) ⟨build, numbered.2.title, []⟩ numbered.2.element st element

/-- Elements without permission neither end the building nor show up. -/
def LeavesDeniedOut (rq : Request) (page : PageDefinition) (inc : Included) : Prop :=
  ∀ mustPerform st element, Visits rq page inc mustPerform st element →
    permits rq element.ref = false → LeftOut rq mustPerform st element

/-- A denied action is denied by its definition alone, and can give the section its title if it
has to. -/
def DeniedHarmless (rq : Request) (page : PageDefinition) (inc : Included) : Prop :=
  ∀ mustPerform st element ref, Visits rq page inc mustPerform st element →
    element.ref = .action ref → permits rq element.ref = false →
      ∃ action, Initialised rq ref action ∧
        (mustSetTitle rq st element = true → (actionTitle action).isSome = true)

theorem leavesDeniedOut_iff : LeavesDeniedOut rq page inc ↔ DeniedHarmless rq page inc := by
  constructor
  · intro h mustPerform st element ref hv href hden
    exact (leftOut_action_iff href (href ▸ hden)).mp (h mustPerform st element hv hden)
  · intro h mustPerform st element hv hden
    cases href : element.ref with
    | datasource ref =>
      rw [href] at hden
      exact ⟨st, by simp only [addElement, href, addDatasource_denied hden], rfl, rfl⟩
    | action ref =>
      exact (leftOut_action_iff href (href ▸ hden)).mpr
        (h mustPerform st element ref hv href hden)

/-- When a page shows what is permitted and wanted, and nothing else disturbs it. -/
theorem structure_exact_iff (rq : Request) (page : PageDefinition) (inc : Included) :
    (LeavesDeniedOut rq page inc ↔ DeniedHarmless rq page inc) ∧
      (∀ build, buildStructure rq page inc = (build, none) →
        (ShowsExactly rq page build ↔ ConditionsAgree rq page)) ∧
      OnlyPermitted rq (buildStructure rq page inc).1 :=
  ⟨leavesDeniedOut_iff, fun _ => shows_iff, executed_permitted⟩

/-! ## One denied reference -/

def guardedAction : SectionelementDef where
  ref := .action { id := "save", eventId := "edit", mode := none, condition := none
                   permissions := [⟨"save", none⟩], onSuccess := none, forceForward := false }
  folded := none
  passive := none
  mode := none

def openDatasource : SectionelementDef where
  ref := .datasource { id := "list", mode := none, condition := none, permissions := [] }
  folded := none
  passive := none
  mode := none

def sectionOf (id : String) (element : SectionelementDef) : SectionDef where
  id := some id
  title := some ⟨none, none⟩
  config := none
  hidden := none
  element := [element]

def mixedPage : PageDefinition where
  id := some "page"
  type := none
  config := { permissions := [], urlSchema := ⟨[]⟩ }
  structureDef := [sectionOf "first" openDatasource, sectionOf "second" guardedAction]

def mixedConfig : ApplicationConfigProvider where
  getDefaultPage := none
  getPage _ := none
  getEvent id := some ⟨id, []⟩
  getAction _ _ := none
  getDatasource id := some ⟨id, ⟨none, []⟩, none⟩
  page_id h := by cases h

/-- Only what asks for no permission is permitted. -/
def mixedRequest : Request := quietRequest mixedConfig fun owner => owner.permissions.isEmpty

/-- The denied action costs the whole structure, with the datasource that is permitted. -/
theorem denied_reference_fails :
    (buildStructure mixedRequest mixedPage ⟨true, []⟩).2 = some .nullPointer ∧
      ¬ LeavesDeniedOut mixedRequest mixedPage ⟨true, []⟩ := by
  refine ⟨rfl, fun h => ?_⟩
  have hv : Visits mixedRequest mixedPage ⟨true, []⟩ true
      ⟨(addSection mixedRequest ⟨true, []⟩ {}
        (0, sectionOf "first" openDatasource)).1,
        some ⟨none, none⟩, []⟩ guardedAction :=
    ⟨mixedPage.structureDef, _, (1, sectionOf "second" guardedAction), rfl,
      .there rfl .here, rfl, .here⟩
  obtain ⟨_, hst, _⟩ := h _ _ _ hv rfl
  cases hst

end Pages
end AppNG
