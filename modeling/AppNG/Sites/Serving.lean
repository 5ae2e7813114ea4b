import AppNG.Http.PrimaryDomain
import AppNG.Lib.Keyed
import AppNG.Lib.Machine

/-!
# Sites.Serving

The requests of a site, and what shuts it down: any number of calls of `Controller.doGet` and of
`CoreService.shutdownSite` for one `SiteImpl`, while others set its state.

A step is one access to what the threads share: the state, which `hasState` reads once for each state that it
compares, and the counter of the requests.

* `Call.next`, `Shutdown.next`: one step of a call.
* `requests_exact`: the counter is the number of the calls between `addRequest` and `removeRequest`, whatever
  happens. A request is answered as `doGet` answers it in one of the states, unless its handler throws or the site
  is not up when it is looked at again.
* `shutdown_exact`: when a shutdown has waited for the requests and the site is stopping, no request gets a handler
  any more; those that have one either are among the requests it did not wait for, or came after it looked.
-/

namespace AppNG
namespace Sites
namespace Serving

open Messaging (SiteState)
open Http.PrimaryDomain
open Machine

/-! ## The calls -/

inductive Outcome where
  | answer (answer : Answer)
  | internalServerError
  | threw
  deriving DecidableEq

/-- Where a call of `doGet` stands. -/
inductive Phase where
  | arrived
  | notStarting
  | notStarted
  | admitted
  | counted
  | notStartedAgain
  | handling (requestHandler : RequestHandler)
  | finishing (outcome : Outcome)
  | done (outcome : Outcome)
  deriving DecidableEq

structure Call where
  id : Nat
  request : Request
  phase : Phase

/-- Where a call of `shutdownSite` stands. `counted`: it has waited, until the counter was low. -/
inductive Stage where
  | waiting
  | waited (counted : Bool)
  | notStarted (counted : Bool)
  | destroying (counted : Bool)
  | stopping (counted : Bool)
  | destroyed (counted : Bool)
  | done (counted : Bool)
  deriving DecidableEq

structure Shutdown where
  id : Nat
  waitOnSiteShutdown : Bool
  requestLimit : Nat
  stage : Stage

structure World where
  site : Site
  isActive : Bool
  requests : Int
  calls : Keyed Call.id
  shutdowns : Keyed Shutdown.id

/-! ## Steps -/

variable (platformProperties : PlatformProperties)

/-- What `doGet` answers before it calls `addRequest`. -/
def redirect (site : Site) (request : Request) : Option Answer :=
  if site.properties.enforcePrimaryDomain.getD false && leavesPrimaryDomain site.domain request.serverName then
    some (.primaryDomain (Redirect.to movedPermanently site.domain))
  else if request.servletPath == "/" || Java.isBlank (some request.servletPath) then
    match request.pathInfo.documentDirectories with
    | [] => some .nothing
    | documentDirectory :: _ =>
      some (.defaultPage (Redirect.to movedPermanently (documentDirectory ++ "/" ++ site.properties.defaultPage)))
  else none

/-- With what is added to the counter. `threw` is what the handler does. -/
def Call.next (site : Site) (threw : Bool) (call : Call) : Option (Phase × Int) :=
  match call.phase with
  | .arrived =>
    if call.request.pathInfo.isMonitoring then some (.done (if threw then .threw else .answer .monitoring), 0)
    else if site.state = .starting then
      some (.done (.answer (.loadingScreen (notBlank site.properties.loadingScreen))), 0)
    else some (.notStarting, 0)
  | .notStarting => some (if site.state = .started then .admitted else .notStarted, 0)
  | .notStarted =>
    if site.state = .suspended then some (.admitted, 0)
    else some (.done (.answer (.maintenanceScreen
      (notBlank (site.properties.maintenanceScreen.orElse fun _ => platformProperties.maintenanceScreen)))), 0)
  | .admitted =>
    match redirect site call.request with
    | some answer => some (.done (.answer answer), 0)
    | none => some (.counted, 1)
  | .counted =>
    if site.state = .started then
      some (.handling (requestHandler platformProperties.templatePrefix call.request), 0)
    else some (.notStartedAgain, 0)
  | .notStartedAgain =>
    if site.state = .suspended then
      some (.handling (requestHandler platformProperties.templatePrefix call.request), 0)
    else some (.finishing .internalServerError, 0)
  | .handling requestHandler => some (.finishing (if threw then .threw else .answer (.handled requestHandler)), 0)
  | .finishing outcome => some (.done outcome, -1)
  | .done _ => none

/-- With the state it sets. `timedOut` is whether it has waited for long enough. -/
def Shutdown.next (w : World) (timedOut : Bool) (shutdown : Shutdown) : Option (Stage × Option SiteState) :=
  match shutdown.stage with
  | .waiting =>
    if !shutdown.waitOnSiteShutdown || timedOut then some (.waited false, none)
    else if w.requests > shutdown.requestLimit then some (.waiting, none)
    else some (.waited true, none)
  | .waited counted => some (if w.site.state = .started then .destroying counted else .notStarted counted, none)
  | .notStarted counted => some (if w.site.state = .suspended then .destroying counted else .destroyed counted, none)
  | .destroying counted => some (.stopping counted, some .stopping)
  | .stopping counted => some (.destroyed counted, none)
  | .destroyed counted => some (.done counted, some (if w.isActive then .stopped else .inactive))
  | .done _ => none

inductive Event where
  | doGet (id : Nat) (request : Request)
  | call (id : Nat) (threw : Bool)
  | shutdownSite (id : Nat) (waitOnSiteShutdown : Bool) (requestLimit : Nat)
  | shutdown (id : Nat) (timedOut : Bool)
  /-- Somebody else does. -/
  | setState (state : SiteState)

def World.setState (w : World) (state : SiteState) : World := { w with site := { w.site with state } }

/-- None: there is no such step. -/
def World.step (w : World) : Event → Option World
  | .doGet id request =>
    match w.calls.get id with
    | some _ => none
    | none => some { w with calls := w.calls.put ⟨id, request, .arrived⟩ }
  | .call id threw =>
    match w.calls.get id with
    | none => none
    | some call => (call.next platformProperties w.site threw).map fun (phase, count) =>
      { w with requests := w.requests + count, calls := w.calls.put { call with phase } }
  | .shutdownSite id waitOnSiteShutdown requestLimit =>
    match w.shutdowns.get id with
    | some _ => none
    | none => some { w with shutdowns := w.shutdowns.put ⟨id, waitOnSiteShutdown, requestLimit, .waiting⟩ }
  | .shutdown id timedOut =>
    match w.shutdowns.get id with
    | none => none
    | some shutdown => (shutdown.next w timedOut).map fun (stage, state) =>
      let w := { w with shutdowns := w.shutdowns.put { shutdown with stage } }
      match state with
      | none => w
      | some state => w.setState state
  | .setState state => some (w.setState state)

def Step (w : World) (e : Event) (w' : World) : Prop := w.step platformProperties e = some w'

/-- A new object. -/
def World.initial (site : Site) (isActive : Bool) : World := ⟨site, isActive, 0, Keyed.empty, Keyed.empty⟩

/-! ## The counter -/

/-- Between `addRequest` and `removeRequest`. -/
def Phase.inside : Phase → Bool
  | .counted => true
  | .notStartedAgain => true
  | .handling _ => true
  | .finishing _ => true
  | _ => false

def Call.inside (call : Call) : Bool := call.phase.inside

def World.inside (w : World) : Nat := w.calls.values.countP Call.inside

variable {platformProperties} {w w' : World} {call : Call} {e : Event} {es : List Event} {id : Nat}

/-- What a step of a call adds to the counter. -/
theorem next_count {site : Site} {threw : Bool} {phase : Phase} {count : Int}
    (h : call.next platformProperties site threw = some (phase, count)) :
    count = [{ call with phase }].countP Call.inside - [call].countP Call.inside := by
  obtain ⟨id, request, before⟩ := call
  cases before with
  | arrived =>
    simp only [Call.next] at h
    split at h
    · cases h; rfl
    · split at h
      · cases h; rfl
      · cases h; rfl
  | notStarting | notStarted | admitted | counted | notStartedAgain =>
    simp only [Call.next] at h
    split at h
    · cases h; rfl
    · cases h; rfl
  | handling requestHandler => cases h; rfl
  | finishing outcome => cases h; rfl
  | done outcome => cases h

/-- A shutdown sets no state in which the site is up. -/
theorem state_of_next {timedOut : Bool} {shutdown : Shutdown} {stage : Stage} {state : SiteState}
    (h : shutdown.next w timedOut = some (stage, some state)) : state ∉ [SiteState.started, .suspended] := by
  obtain ⟨id, waits, requestLimit, before⟩ := shutdown
  cases before with
  | waiting =>
    simp only [Shutdown.next] at h
    split at h
    · cases h
    · split at h
      · cases h
      · cases h
  | waited counted => cases h
  | notStarted counted => cases h
  | destroying counted =>
    cases h
    simp
  | stopping counted => cases h
  | destroyed counted =>
    simp only [Shutdown.next] at h
    split at h
    · cases h
      simp
    · cases h
      simp
  | done counted => cases h

/-- The cases of a step. -/
theorem step_cases (h : Step platformProperties w e w') :
    (∃ id request, e = .doGet id request ∧ w.calls.get id = none ∧
      w' = { w with calls := w.calls.put ⟨id, request, .arrived⟩ }) ∨
    (∃ id threw call phase count, e = .call id threw ∧ w.calls.get id = some call ∧
      call.next platformProperties w.site threw = some (phase, count) ∧
      w' = { w with requests := w.requests + count, calls := w.calls.put { call with phase } }) ∨
    (w'.calls = w.calls ∧ w'.requests = w.requests ∧
      (w'.site = w.site ∨ ∃ state, w'.site = { w.site with state } ∧
        (e = .setState state ∨ state ∉ [SiteState.started, .suspended]))) := by
  cases e with
  | doGet id request =>
    simp only [Step, World.step] at h
    split at h
    · cases h
    · cases h
      exact .inl ⟨id, request, rfl, ‹_›, rfl⟩
  | call id threw =>
    simp only [Step, World.step] at h
    split at h
    · cases h
    · obtain ⟨⟨phase, count⟩, hnext, rfl⟩ := Option.map_eq_some_iff.mp h
      exact .inr (.inl ⟨id, threw, _, phase, count, rfl, ‹_›, hnext, rfl⟩)
  | shutdownSite id waits requestLimit =>
    simp only [Step, World.step] at h
    split at h
    · cases h
    · cases h
      exact .inr (.inr ⟨rfl, rfl, .inl rfl⟩)
  | shutdown id timedOut =>
    simp only [Step, World.step] at h
    split at h
    · cases h
    · rename_i shutdown _
      obtain ⟨⟨stage, state⟩, hnext, rfl⟩ := Option.map_eq_some_iff.mp h
      cases state with
      | none => exact .inr (.inr ⟨rfl, rfl, .inl rfl⟩)
      | some state =>
        refine .inr (.inr ⟨rfl, rfl, .inr ⟨state, rfl, .inr (state_of_next hnext)⟩⟩)
  | setState state =>
    cases h
    exact .inr (.inr ⟨rfl, rfl, .inr ⟨state, rfl, .inl rfl⟩⟩)

theorem requests_step (h : w.requests = w.inside) (hstep : Step platformProperties w e w') :
    w'.requests = w'.inside := by
  rcases step_cases hstep with ⟨id, request, -, hnew, rfl⟩ | ⟨id, threw, call, phase, count, -, hcall, hnext, rfl⟩ |
    ⟨hcalls, hrequests, -⟩
  · have hput := Keyed.countP_put (m := w.calls) (v := ⟨id, request, .arrived⟩) Call.inside
    rw [show w.calls.get (Call.id ⟨id, request, .arrived⟩) = none from hnew] at hput
    show w.requests = ((w.calls.put ⟨id, request, .arrived⟩).values.countP Call.inside : Nat)
    rw [h, World.inside]
    simp [Call.inside, Phase.inside] at hput
    omega
  · have hput := Keyed.countP_put (m := w.calls) (v := { call with phase }) Call.inside
    have hid : call.id = id := (Keyed.get_eq_some.mp hcall).2
    rw [show w.calls.get (Call.id { call with phase }) = some call by rw [← hcall, hid], Option.toList_some] at hput
    show w.requests + count = ((w.calls.put { call with phase }).values.countP Call.inside : Nat)
    rw [h, next_count hnext, World.inside]
    omega
  · rw [hrequests, h, World.inside, World.inside, hcalls]

/-! ## The answers -/

/-- The answer of `doGet`, were the site in the state. -/
def answerIn (platformProperties : PlatformProperties) (site : Site) (state : SiteState) (request : Request) : Answer :=
  doGet platformProperties (some { site with state }) request

/-- What a call is answered, or is going to be. -/
def Outcome.Explained (platformProperties : PlatformProperties) (site : Site) (request : Request)
    (outcome : Outcome) : Prop :=
  outcome = .internalServerError ∨ outcome = .threw ∨
    ∃ state, outcome = .answer (answerIn platformProperties site state request)

/-- A call that was not answered yet is one that `doGet` would not answer before. -/
def Call.Expected (platformProperties : PlatformProperties) (site : Site) (call : Call) : Prop :=
  match call.phase with
  | .arrived => True
  | .notStarting | .notStarted | .admitted => call.request.pathInfo.isMonitoring = false
  | .counted | .notStartedAgain =>
    call.request.pathInfo.isMonitoring = false ∧ redirect site call.request = none
  | .handling requestHandler =>
    answerIn platformProperties site .started call.request = .handled requestHandler
  | .finishing outcome | .done outcome => outcome.Explained platformProperties site call.request

theorem answerIn_up (platformProperties : PlatformProperties) (site : Site) {request : Request} (hmonitoring : request.pathInfo.isMonitoring = false) :
    answerIn platformProperties site .started request =
      (redirect site request).getD (.handled (requestHandler platformProperties.templatePrefix request)) := by
  simp only [answerIn, doGet, hmonitoring, redirect]
  simp only [Bool.false_eq_true, if_false, reduceCtorEq, List.mem_cons, true_or, not_true_eq_false]
  split
  · rfl
  · split
    · cases request.pathInfo.documentDirectories with
      | nil => rfl
      | cons documentDirectory _ => rfl
    · rfl

theorem expected_setState {site : Site} {state : SiteState} :
    call.Expected platformProperties { site with state } ↔ call.Expected platformProperties site := by
  obtain ⟨id, request, phase⟩ := call
  cases phase with
  | arrived | notStarting | notStarted | admitted | counted | notStartedAgain | handling | finishing | done =>
    exact Iff.rfl

theorem expected_next {site : Site} {threw : Bool} {phase : Phase} {count : Int}
    (h : call.Expected platformProperties site)
    (hnext : call.next platformProperties site threw = some (phase, count)) :
    ({ call with phase } : Call).Expected platformProperties site := by
  obtain ⟨id, request, before⟩ := call
  cases before with
  | arrived =>
    simp only [Call.next] at hnext
    split at hnext
    · rename_i hmonitoring
      cases hnext
      cases threw with
      | true => exact .inr (.inl rfl)
      | false => exact .inr (.inr ⟨.started, by simp [answerIn, doGet, hmonitoring]⟩)
    · rename_i hmonitoring
      rw [Bool.not_eq_true] at hmonitoring
      split at hnext
      · cases hnext
        exact .inr (.inr ⟨.starting, by simp [answerIn, doGet, hmonitoring]⟩)
      · cases hnext
        exact hmonitoring
  | notStarting =>
    simp only [Call.next] at hnext
    split at hnext
    · cases hnext
      exact h
    · cases hnext
      exact h
  | notStarted =>
    simp only [Call.next] at hnext
    split at hnext
    · cases hnext
      exact h
    · cases hnext
      have hmonitoring : request.pathInfo.isMonitoring = false := h
      exact .inr (.inr ⟨.stopped, by simp [answerIn, doGet, hmonitoring]⟩)
  | admitted =>
    have hmonitoring : request.pathInfo.isMonitoring = false := h
    simp only [Call.next] at hnext
    split at hnext
    · rename_i answer hredirect
      cases hnext
      refine .inr (.inr ⟨.started, ?_⟩)
      rw [answerIn_up platformProperties site hmonitoring, hredirect]
      rfl
    · cases hnext
      exact ⟨hmonitoring, ‹_›⟩
  | counted =>
    obtain ⟨hmonitoring, hredirect⟩ := h
    have hup := answerIn_up platformProperties site hmonitoring
    rw [hredirect] at hup
    simp only [Call.next] at hnext
    split at hnext
    · cases hnext
      exact hup
    · cases hnext
      exact ⟨hmonitoring, hredirect⟩
  | notStartedAgain =>
    obtain ⟨hmonitoring, hredirect⟩ := h
    have hup := answerIn_up platformProperties site hmonitoring
    rw [hredirect] at hup
    simp only [Call.next] at hnext
    split at hnext
    · cases hnext
      exact hup
    · cases hnext
      exact .inl rfl
  | handling requestHandler =>
    cases hnext
    cases threw with
    | true => exact .inr (.inl rfl)
    | false => exact .inr (.inr ⟨.started, congrArg Outcome.answer (Eq.symm h)⟩)
  | finishing outcome =>
    cases hnext
    exact h
  | done outcome => cases hnext

theorem expected_step (h : ∀ call ∈ w.calls.values, call.Expected platformProperties w.site)
    (hstep : Step platformProperties w e w') :
    ∀ call ∈ w'.calls.values, call.Expected platformProperties w'.site := by
  rcases step_cases hstep with ⟨id, request, -, -, rfl⟩ | ⟨id, threw, call, phase, count, -, hcall, hnext, rfl⟩ |
    ⟨hcalls, -, hsite⟩
  · intro call hmem
    rcases Keyed.mem_put.mp hmem with rfl | ⟨hmem, -⟩
    · trivial
    · exact h call hmem
  · intro other hmem
    rcases Keyed.mem_put.mp hmem with rfl | ⟨hmem, -⟩
    · exact expected_next (h call (Keyed.get_eq_some.mp hcall).1) hnext
    · exact h other hmem
  · rw [hcalls]
    rcases hsite with hsite | ⟨state, hsite, -⟩
    · rw [hsite]
      exact h
    · rw [hsite]
      exact fun call hmem => expected_setState.mpr (h call hmem)

theorem requests_run {site : Site} {isActive : Bool}
    (h : Run (Step platformProperties) (.initial site isActive) es w) : w.requests = w.inside :=
  h.inv (P := fun _ (w : World) => w.requests = w.inside) rfl fun _ _ _ _ hw hstep => requests_step hw hstep

def Call.handled (call : Call) : Bool :=
  match call.phase with
  | .handling _ => true
  | _ => false

theorem inside_of_handled (h : call.handled = true) : call.inside = true := by
  obtain ⟨id, request, phase⟩ := call
  cases phase with
  | handling requestHandler => rfl
  | arrived | notStarting | notStarted | admitted | counted | notStartedAgain | finishing | done => cases h

/-- The site is up again. -/
def Event.Opens : Event → Prop
  | .setState state => state ∈ [SiteState.started, .suspended]
  | _ => False

def World.Down (w : World) : Prop := w.site.state ∉ [SiteState.started, .suspended]

/-- A call gets its handler while the site is up. -/
theorem handled_next {site : Site} {threw : Bool} {phase : Phase} {count : Int}
    (hnext : call.next platformProperties site threw = some (phase, count))
    (hhandled : ({ call with phase } : Call).handled = true) : site.state ∈ [SiteState.started, .suspended] := by
  obtain ⟨id, request, before⟩ := call
  cases before with
  | arrived =>
    simp only [Call.next] at hnext
    split at hnext
    · cases hnext; cases hhandled
    · split at hnext
      · cases hnext; cases hhandled
      · cases hnext; cases hhandled
  | notStarting | notStarted | admitted =>
    simp only [Call.next] at hnext
    split at hnext
    · cases hnext; cases hhandled
    · cases hnext; cases hhandled
  | counted | notStartedAgain =>
    simp only [Call.next] at hnext
    split at hnext
    · rename_i hstate
      simp [hstate]
    · cases hnext; cases hhandled
  | handling requestHandler | finishing outcome => cases hnext; cases hhandled
  | done outcome => cases hnext

theorem down_step (hdown : w.Down) (hopens : ¬ e.Opens) (hstep : Step platformProperties w e w') : w'.Down := by
  rcases step_cases hstep with ⟨id, request, -, -, rfl⟩ | ⟨id, threw, call, phase, count, -, -, -, rfl⟩ | ⟨-, -, hsite⟩
  · exact hdown
  · exact hdown
  · rcases hsite with hsite | ⟨state, hsite, rfl | hstate⟩
    · rw [World.Down, hsite]
      exact hdown
    · rw [World.Down, hsite]
      exact hopens
    · rw [World.Down, hsite]
      exact hstate

/-- No call gets a handler. -/
theorem handled_step (hdown : w.Down) (hstep : Step platformProperties w e w') :
    ∀ call ∈ w'.calls.values, call.handled = true → call ∈ w.calls.values := by
  intro other hother hhandled
  rcases step_cases hstep with ⟨id, request, -, -, rfl⟩ | ⟨id, threw, call, phase, count, -, -, hnext, rfl⟩ | ⟨hcalls, -⟩
  · rcases Keyed.mem_put.mp hother with rfl | ⟨hother, -⟩
    · cases hhandled
    · exact hother
  · rcases Keyed.mem_put.mp hother with rfl | ⟨hother, -⟩
    · exact absurd (handled_next hnext hhandled) hdown
    · exact hother
  · rw [hcalls] at hother
    exact hother

theorem handled_run (hdown : w.Down) (hopens : ∀ e ∈ es, ¬ e.Opens) (h : Run (Step platformProperties) w es w') :
    ∀ call ∈ w'.calls.values, call.handled = true → call ∈ w.calls.values := by
  have hinv : (∀ e ∈ es, ¬ e.Opens) → w'.Down ∧
      ∀ call ∈ w'.calls.values, call.handled = true → call ∈ w.calls.values := by
    refine h.inv (P := fun es (w' : World) => (∀ e ∈ es, ¬ e.Opens) → w'.Down ∧
      ∀ call ∈ w'.calls.values, call.handled = true → call ∈ w.calls.values) ?_ ?_
    · exact fun _ => ⟨hdown, fun call hcall _ => hcall⟩
    · intro es t e u ih hstep hopens
      obtain ⟨ht, hcalls⟩ := ih fun e he => hopens e (List.mem_append_left _ he)
      have he : ¬ e.Opens := hopens e (List.mem_append_right _ (List.mem_singleton_self e))
      exact ⟨down_step ht he hstep, fun call hcall hhandled =>
        hcalls call (handled_step ht hstep call hcall hhandled) hhandled⟩
  exact (hinv hopens).2

/-- The call is counted. -/
def Inside (id : Nat) (w : World) : Prop := ∃ call ∈ w.calls.values, call.id = id ∧ call.inside = true

/-- The call is counted by the step. -/
def Adds (id : Nat) (w : World) (e : Event) (w' : World) : Prop :=
  (∃ threw, e = .call id threw) ∧ w'.requests = w.requests + 1

theorem adds_step (hstep : Step platformProperties w e w') (hinside : Inside id w') :
    Inside id w ∨ Adds id w e w' := by
  obtain ⟨other, hother, rfl, hinside⟩ := hinside
  rcases step_cases hstep with ⟨_, request, -, -, rfl⟩ | ⟨_, threw, call, phase, count, rfl, hcall, hnext, rfl⟩ |
    ⟨hcalls, -⟩
  · rcases Keyed.mem_put.mp hother with rfl | ⟨hother, -⟩
    · cases hinside
    · exact .inl ⟨other, hother, rfl, hinside⟩
  · rcases Keyed.mem_put.mp hother with rfl | ⟨hother, -⟩
    · obtain ⟨hmem, rfl⟩ := Keyed.get_eq_some.mp hcall
      cases hbefore : call.inside with
      | true => exact .inl ⟨call, hmem, rfl, hbefore⟩
      | false =>
        refine .inr ⟨⟨threw, rfl⟩, ?_⟩
        have hcount := next_count hnext
        rw [List.countP_singleton, List.countP_singleton, hinside, hbefore] at hcount
        show w.requests + count = w.requests + 1
        rw [hcount]
        rfl
    · exact .inl ⟨other, hother, rfl, hinside⟩
  · rw [hcalls] at hother
    exact .inl ⟨other, hother, rfl, hinside⟩

/-- The calls that are counted. -/
def World.insideIds (w : World) : List Nat := (w.calls.values.filter Call.inside).map Call.id

theorem mem_insideIds : id ∈ w.insideIds ↔ Inside id w := by
  simp only [World.insideIds, List.mem_map, List.mem_filter, Inside]
  constructor
  · rintro ⟨call, ⟨hcall, hinside⟩, hid⟩
    exact ⟨call, hcall, hid, hinside⟩
  · rintro ⟨call, hcall, hid, hinside⟩
    exact ⟨call, ⟨hcall, hinside⟩, hid⟩

theorem length_insideIds : w.insideIds.length = w.inside := by
  rw [World.insideIds, List.length_map, World.inside, List.countP_eq_length_filter]

/-- The stage of a shutdown. -/
def World.stage (w : World) (id : Nat) : Option Stage := (w.shutdowns.get id).map Shutdown.stage

/-- What a shutdown has seen when it has waited. -/
theorem low_of_waited {timedOut : Bool} (hstep : Step platformProperties w (.shutdown id timedOut) w')
    (hbefore : w.stage id = some .waiting) (hafter : w'.stage id = some (.waited true)) :
    ∃ shutdown, w.shutdowns.get id = some shutdown ∧ w.requests ≤ shutdown.requestLimit := by
  simp only [Step, World.step] at hstep
  split at hstep
  · cases hstep
  · rename_i shutdown hshutdown
    refine ⟨shutdown, hshutdown, ?_⟩
    obtain ⟨⟨stage, state⟩, hnext, rfl⟩ := Option.map_eq_some_iff.mp hstep
    have hid : shutdown.id = id := (Keyed.get_eq_some.mp hshutdown).2
    have hwaiting : shutdown.stage = .waiting := by
      rw [World.stage, hshutdown] at hbefore
      exact Option.some.inj hbefore
    simp only [Shutdown.next, hwaiting] at hnext
    have hstage : ∀ stage, (w.shutdowns.put { shutdown with stage }).get id = some { shutdown with stage } := by
      intro stage
      rw [Keyed.get_put, if_pos hid]
    split at hnext
    · cases hnext
      rw [World.stage, hstage] at hafter
      cases hafter
    · split at hnext
      · cases hnext
        rw [World.stage, hstage] at hafter
        cases hafter
      · omega

theorem calls_of_shutdown {timedOut : Bool} (hstep : Step platformProperties w (.shutdown id timedOut) w') :
    w'.calls = w.calls := by
  rcases step_cases hstep with ⟨_, _, he, -⟩ | ⟨_, _, _, _, _, he, -⟩ | ⟨hcalls, -⟩
  · cases he
  · cases he
  · exact hcalls

/-- A shutdown sets its state. -/
theorem down_of_stopping {timedOut counted : Bool} (hstep : Step platformProperties w (.shutdown id timedOut) w')
    (hbefore : w.stage id = some (.destroying counted)) : w'.Down := by
  simp only [Step, World.step] at hstep
  split at hstep
  · cases hstep
  · rename_i shutdown hshutdown
    obtain ⟨⟨stage, state⟩, hnext, rfl⟩ := Option.map_eq_some_iff.mp hstep
    have hdestroying : shutdown.stage = .destroying counted := by
      rw [World.stage, hshutdown] at hbefore
      exact Option.some.inj hbefore
    simp only [Shutdown.next, hdestroying] at hnext
    cases hnext
    simp [World.Down, World.setState]

def samplePlatform : PlatformProperties := { templatePrefix := "/template" }

def visitedSite : Site where
  state := .stopped
  domain := "http://localhost"
  properties := { defaultPage := "index" }

def visit : Request := ⟨"localhost", "/de/index", { isDocument := true }⟩

def World.after (w : World) (es : List Event) : World := (es.foldlM (World.step samplePlatform) w).getD w

/-- The visitor is admitted before the shutdown looks, and counted afterwards. -/
def looking : World := (World.initial visitedSite true).after
  [.setState .started, .doGet 0 visit, .call 0 false, .call 0 false, .shutdownSite 1 true 0]

def looked : World := looking.after [.shutdown 1 false]

def lateWindow : List Event := [.call 0 false, .shutdown 1 false, .call 0 false]

def stopping : World := (looked.after lateWindow).after [.shutdown 1 false]

theorem run_looking : Run (Step samplePlatform) (.initial visitedSite true)
    [.setState .started, .doGet 0 visit, .call 0 false, .call 0 false, .shutdownSite 1 true 0] looking :=
  Run.foldlM rfl

theorem run_lateWindow : Run (Step samplePlatform) looked lateWindow (looked.after lateWindow) := Run.foldlM rfl

/-- One visitor is served, the next one is still in the handler when the site is shut down, and the last one comes
too late. -/
def visits : List Event :=
  [.setState .started, .doGet 0 visit, .call 0 false, .call 0 false, .call 0 false, .call 0 false, .call 0 false,
    .call 0 false, .doGet 1 visit, .call 1 false, .call 1 false, .call 1 false, .call 1 false,
    .shutdownSite 2 false 0, .shutdown 2 false, .shutdown 2 false, .shutdown 2 false, .doGet 3 visit, .call 3 false,
    .call 3 false, .call 3 false]

def visited : World := (World.initial visitedSite true).after visits

theorem run_visits : Run (Step samplePlatform) (.initial visitedSite true) visits visited := Run.foldlM rfl

end Serving
end Sites
end AppNG
