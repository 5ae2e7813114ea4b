import AppNG.Lib.Machine
import Mathlib.Logic.Function.Basic

/-!
# Messaging.ClusterState

What the nodes of a cluster know about each other's sites: `NodeEvent`, `SiteStateEvent`,
`RequestNodeState` and `ShutdownEvent`, with the messages in flight and all that was true so far.

The receiver of a `RequestNodeState` builds a `NodeEvent` for the node that asks: it adds its own sites
to what it knows of that node, and sends that as its own.

* `truthful_step`: every other step keeps what the nodes know truthful, and this one does exactly if
  both nodes have had the same states.
* `staysTruthful_iff`: so do all steps of a run.
-/

namespace AppNG
namespace Messaging

open Machine

inductive SiteState where
  | starting
  | started
  | suspended
  | stopping
  | stopped
  | inactive
  | deleted
  deriving DecidableEq, Repr

/-- The states of some sites: `NodeState.siteStates`. -/
abbrev SiteStates (S : Type) := S → Option SiteState

inductive Event (S : Type) where
  | siteStateEvent (site : S) (state : SiteState)
  | nodeEvent (siteStates : SiteStates S)
  | requestNodeState
  | shutdownEvent

/-- An event as it was serialized, with the id of the node that sends it. -/
structure Message (N S : Type) where
  nodeId : N
  event : Event S

structure Cluster (N S : Type) where
  /-- the registered sites of each node -/
  sites : N → SiteStates S
  /-- which site was in which state on which node until now -/
  had : N → S → SiteState → Prop
  /-- what a node knows of another one -/
  clusterState : N → N → Option (SiteStates S)
  messages : List (Message N S)

variable {N S : Type}

section Operations

variable [DecidableEq N] [DecidableEq S]

def Cluster.siteState (t : Cluster N S) (node nodeId : N) : SiteStates S :=
  (t.clusterState node nodeId).getD fun _ => none

def Cluster.put (t : Cluster N S) (node nodeId : N) (states : Option (SiteStates S)) :
    Cluster N S :=
  { t with
    clusterState := Function.update t.clusterState node
      (Function.update (t.clusterState node) nodeId states) }

def Cluster.send (t : Cluster N S) (node : N) (event : Event S) : Cluster N S :=
  { t with messages := t.messages ++ [⟨node, event⟩] }

def handleSiteState (t : Cluster N S) (node nodeId : N) (site : S) (state : SiteState) :
    Cluster N S :=
  t.put node nodeId (some (Function.update (t.siteState node nodeId) site
    (if state = .deleted then none else some state)))

/-- The constructor of a `NodeEvent` for `nodeId`: the sites of the node itself are added. -/
def nodeEvent (t : Cluster N S) (node nodeId : N) : SiteStates S := fun site =>
  match t.siteState node nodeId site with
  | some state => some state
  | none => (t.sites node site).filter (· ≠ .deleted)

/-- The event is sent, and its states are those that the node holds for `nodeId` from now on. -/
def sendNodeEvent (t : Cluster N S) (node nodeId : N) : Cluster N S :=
  (t.put node nodeId (some (nodeEvent t node nodeId))).send node
    (.nodeEvent (nodeEvent t node nodeId))

/-- `SiteImpl.setState`, with an environment or without, for the registered site or another object of
that name. -/
def setState (t : Cluster N S) (node : N) (site : S) (state : SiteState) (env registered : Bool) :
    Cluster N S :=
  let changed : Cluster N S :=
    { t with
      sites := if registered then
          Function.update t.sites node (Function.update (t.sites node) site (some state))
        else t.sites
      had := fun n s x => t.had n s x ∨ n = node ∧ s = site ∧ x = state }
  (if env then handleSiteState changed node node site state else changed).send node
    (.siteStateEvent site state)

/-- A site is put into the map of a node or taken out of it. -/
def register (t : Cluster N S) (node : N) (site : S) (state : Option SiteState) : Cluster N S :=
  { t with
    sites := Function.update t.sites node (Function.update (t.sites node) site state)
    had := fun n s x => t.had n s x ∨ n = node ∧ s = site ∧ some x = state }

/-- The `perform` of an event that arrives at `node`. -/
def receive (t : Cluster N S) (node : N) (message : Message N S) : Cluster N S :=
  match message.event with
  | .siteStateEvent site state => handleSiteState t node message.nodeId site state
  | .nodeEvent siteStates => t.put node message.nodeId (some siteStates)
  | .requestNodeState => sendNodeEvent t node message.nodeId
  | .shutdownEvent => t.put node message.nodeId none

inductive Step (N S : Type) where
  | setState (node : N) (site : S) (state : SiteState) (env registered : Bool)
  | register (node : N) (site : S) (state : Option SiteState)
  | heartBeat (node : N)
  | request (node : N)
  | shutdown (node : N)
  | deliver (message : Nat) (node : N)

/-- A node does not execute its own events. -/
def perform (t : Cluster N S) : Step N S → Cluster N S
  | .setState node site state env registered => setState t node site state env registered
  | .register node site state => register t node site state
  | .heartBeat node => sendNodeEvent t node node
  | .request node => t.send node .requestNodeState
  | .shutdown node => t.send node .shutdownEvent
  | .deliver message node =>
    match t.messages[message]? with
    | none => t
    | some message => if message.nodeId = node then t else receive t node message

end Operations

/-- Nothing was sent yet. -/
def initial (sites : N → SiteStates S) : Cluster N S where
  sites
  had node site state := sites node site = some state
  clusterState _ _ := none
  messages := []

/-! ## What is true -/

/-- All states in the map are states of the node. -/
def HadAll (t : Cluster N S) (nodeId : N) (states : SiteStates S) : Prop :=
  ∀ site state, states site = some state → t.had nodeId site state

def Attributed (t : Cluster N S) (message : Message N S) : Prop :=
  match message.event with
  | .siteStateEvent site state => t.had message.nodeId site state
  | .nodeEvent siteStates => HadAll t message.nodeId siteStates
  | .requestNodeState | .shutdownEvent => True

/-- What a node knows about another one was true once, and so was what the messages say. -/
structure Truthful (t : Cluster N S) : Prop where
  known : ∀ node nodeId states, t.clusterState node nodeId = some states → HadAll t nodeId states
  sent : ∀ message ∈ t.messages, Attributed t message

/-- The node that is asked has had the states it knows of the other one, and the other one has had the
states of the asked node's sites that are not known of it yet. -/
def Allowed (t : Cluster N S) : Step N S → Prop
  | .deliver message node => ∀ nodeId, t.messages[message]? = some ⟨nodeId, .requestNodeState⟩ →
      nodeId ≠ node → ∀ site state,
        (t.siteState node nodeId site = some state → t.had node site state) ∧
          (t.siteState node nodeId site = none → t.sites node site = some state →
            state ≠ .deleted → t.had nodeId site state)
  | _ => True

variable {t u : Cluster N S} {node nodeId : N} {site : S} {state : SiteState}

/-- The registered sites have their states now. -/
def Known (t : Cluster N S) : Prop :=
  ∀ node, HadAll t node (t.sites node)

theorem Attributed.grow {message : Message N S} (hhad : ∀ n s x, t.had n s x → u.had n s x)
    (h : Attributed t message) : Attributed u message := by
  obtain ⟨nodeId, event⟩ := message
  cases event with
  | siteStateEvent site state => exact hhad nodeId site state h
  | nodeEvent siteStates => exact fun site state hstate => hhad nodeId site state (h site state hstate)
  | requestNodeState => trivial
  | shutdownEvent => trivial

/-- What was true stays so. -/
theorem Truthful.grow (hhad : ∀ n s x, t.had n s x → u.had n s x)
    (hstates : u.clusterState = t.clusterState) (hmessages : u.messages = t.messages)
    (h : Truthful t) : Truthful u := by
  refine ⟨fun node nodeId states hknown => ?_, fun message hmem => ?_⟩
  · rw [hstates] at hknown
    intro site state hstate
    exact hhad nodeId site state (h.known node nodeId states hknown site state hstate)
  · rw [hmessages] at hmem
    exact (h.sent message hmem).grow hhad

theorem Truthful.siteState (h : Truthful t) : HadAll t nodeId (t.siteState node nodeId) := by
  unfold Cluster.siteState
  cases hstates : t.clusterState node nodeId with
  | none => exact fun site state hnone => by cases hnone
  | some states => exact h.known node nodeId states hstates

theorem truthful_send {event : Event S} :
    Truthful (t.send node event) ↔ Truthful t ∧ Attributed t ⟨node, event⟩ := by
  constructor
  · intro h
    exact ⟨⟨h.known, fun message hmem => h.sent message (List.mem_append_left _ hmem)⟩,
      h.sent _ (List.mem_append_right _ List.mem_cons_self)⟩
  · rintro ⟨h, hevent⟩
    refine ⟨h.known, fun message hmem => ?_⟩
    rcases List.mem_append.mp hmem with hmem | hmem
    · exact h.sent message hmem
    · rw [List.mem_singleton.mp hmem]
      exact hevent

theorem nodeEvent_known (h : t.siteState node nodeId site = some state) :
    nodeEvent t node nodeId site = some state := by
  simp only [nodeEvent, h]

theorem nodeEvent_added (h : t.siteState node nodeId site = none) :
    nodeEvent t node nodeId site = some state ↔ t.sites node site = some state ∧ state ≠ .deleted := by
  simp only [nodeEvent, h, Option.filter_eq_some_iff, decide_eq_true_eq]

/-- The states of the event are those that are known and those of the node's own sites. -/
theorem hadAll_nodeEvent {n : N} :
    HadAll t n (nodeEvent t node nodeId) ↔ ∀ site state,
      (t.siteState node nodeId site = some state → t.had n site state) ∧
        (t.siteState node nodeId site = none → t.sites node site = some state → state ≠ .deleted →
          t.had n site state) := by
  constructor
  · intro h site state
    refine ⟨fun hknown => h site state (nodeEvent_known hknown), fun hnone hsite hdeleted => ?_⟩
    exact h site state ((nodeEvent_added hnone).mpr ⟨hsite, hdeleted⟩)
  · intro h site state hstate
    cases hknown : t.siteState node nodeId site with
    | none =>
      obtain ⟨hsite, hdeleted⟩ := (nodeEvent_added hknown).mp hstate
      exact (h site state).2 hknown hsite hdeleted
    | some known =>
      rw [nodeEvent_known hknown, Option.some.injEq] at hstate
      subst hstate
      exact (h site known).1 hknown

section Put

variable [DecidableEq N]

theorem put_clusterState {m k : N} {value : Option (SiteStates S)} :
    (t.put node nodeId value).clusterState m k =
      if m = node ∧ k = nodeId then value else t.clusterState m k := by
  unfold Cluster.put
  by_cases hm : m = node
  · subst hm
    by_cases hk : k = nodeId
    · simp [hk]
    · simp [hk]
  · simp [hm]

theorem truthful_put {value : Option (SiteStates S)} (h : Truthful t) :
    Truthful (t.put node nodeId value) ↔ ∀ states, value = some states → HadAll t nodeId states := by
  constructor
  · intro hput states hvalue
    exact hput.known node nodeId states (by rw [put_clusterState, if_pos ⟨rfl, rfl⟩, hvalue])
  · intro hvalue
    refine ⟨fun m k states hstates => ?_, h.sent⟩
    rw [put_clusterState] at hstates
    split at hstates
    · rename_i hsame
      rw [hsame.2]
      exact hvalue states hstates
    · exact h.known m k states hstates

theorem truthful_sendNodeEvent (h : Truthful t) :
    Truthful (sendNodeEvent t node nodeId) ↔
      HadAll t nodeId (nodeEvent t node nodeId) ∧ HadAll t node (nodeEvent t node nodeId) := by
  have hput : Truthful (t.put node nodeId (some (nodeEvent t node nodeId))) ↔ _ := truthful_put h
  rw [sendNodeEvent, truthful_send, hput]
  constructor
  · rintro ⟨hknown, hsent⟩
    exact ⟨hknown _ rfl, hsent⟩
  · rintro ⟨hknown, hsent⟩
    refine ⟨fun states hstates => ?_, hsent⟩
    obtain rfl := Option.some.inj hstates
    exact hknown

/-- What a node says about itself is true. -/
theorem truthful_heartBeat (hsites : Known t) (h : Truthful t) :
    Truthful (sendNodeEvent t node node) := by
  have hown : HadAll t node (nodeEvent t node node) := by
    refine hadAll_nodeEvent.mpr fun site state => ⟨h.siteState site state, ?_⟩
    rintro - hsite -
    exact hsites node site state hsite
  exact (truthful_sendNodeEvent h).mpr ⟨hown, hown⟩

/-- What a node says about itself when another one asks need not be. -/
theorem truthful_answer (hsites : Known t) (h : Truthful t) :
    Truthful (sendNodeEvent t node nodeId) ↔ ∀ site state,
      (t.siteState node nodeId site = some state → t.had node site state) ∧
        (t.siteState node nodeId site = none → t.sites node site = some state →
          state ≠ .deleted → t.had nodeId site state) := by
  rw [truthful_sendNodeEvent h, hadAll_nodeEvent, hadAll_nodeEvent]
  constructor
  · rintro ⟨hasking, hasked⟩ site state
    exact ⟨(hasked site state).1, (hasking site state).2⟩
  · intro hboth
    refine ⟨fun site state => ⟨h.siteState site state, (hboth site state).2⟩, fun site state => ?_⟩
    exact ⟨(hboth site state).1, fun _ hsite _ => hsites node site state hsite⟩

end Put

variable [DecidableEq N] [DecidableEq S]

theorem truthful_handleSiteState (h : Truthful t) (hhad : t.had nodeId site state) :
    Truthful (handleSiteState t node nodeId site state) := by
  refine (truthful_put h).mpr fun states hstates => ?_
  obtain rfl := Option.some.inj hstates
  intro other x hx
  by_cases hsite : other = site
  · subst hsite
    rw [Function.update_self] at hx
    split at hx
    · cases hx
    · obtain rfl := Option.some.inj hx
      exact hhad
  · rw [Function.update_of_ne hsite] at hx
    exact h.siteState other x hx

theorem truthful_setState {env registered : Bool} (h : Truthful t) :
    Truthful (setState t node site state env registered) := by
  refine truthful_send.mpr ?_
  cases env with
  | false =>
    refine ⟨h.grow (fun n s x hx => Or.inl hx) rfl rfl, Or.inr ⟨rfl, rfl, rfl⟩⟩
  | true =>
    refine ⟨truthful_handleSiteState (h.grow (fun n s x hx => Or.inl hx) rfl rfl) ?_, ?_⟩
    · exact Or.inr ⟨rfl, rfl, rfl⟩
    · exact Or.inr ⟨rfl, rfl, rfl⟩

theorem truthful_receive {event : Event S} (hsites : Known t) (h : Truthful t)
    (hsent : Attributed t ⟨nodeId, event⟩) :
    Truthful (receive t node ⟨nodeId, event⟩) ↔ (event = .requestNodeState → ∀ site state,
      (t.siteState node nodeId site = some state → t.had node site state) ∧
        (t.siteState node nodeId site = none → t.sites node site = some state →
          state ≠ .deleted → t.had nodeId site state)) := by
  cases event with
  | siteStateEvent site state =>
    exact iff_of_true (truthful_handleSiteState h hsent) (by rintro ⟨⟩)
  | nodeEvent siteStates =>
    refine iff_of_true ((truthful_put h).mpr fun states hstates => ?_) (by rintro ⟨⟩)
    obtain rfl := Option.some.inj hstates
    exact hsent
  | requestNodeState =>
    rw [imp_iff_right rfl]
    exact truthful_answer hsites h
  | shutdownEvent =>
    exact iff_of_true ((truthful_put h).mpr (by rintro states ⟨⟩)) (by rintro ⟨⟩)

/-- One step: only the answer to a `RequestNodeState` can be wrong. -/
theorem truthful_step (hsites : Known t) (h : Truthful t) (step : Step N S) :
    Truthful (perform t step) ↔ Allowed t step := by
  cases step with
  | setState node site state env registered => exact iff_of_true (truthful_setState h) trivial
  | register node site state =>
    exact iff_of_true (h.grow (fun n s x hx => Or.inl hx) rfl rfl) trivial
  | heartBeat node => exact iff_of_true (truthful_heartBeat hsites h) trivial
  | request node => exact iff_of_true (truthful_send.mpr ⟨h, trivial⟩) trivial
  | shutdown node => exact iff_of_true (truthful_send.mpr ⟨h, trivial⟩) trivial
  | deliver i node =>
    simp only [perform, Allowed]
    cases hmessage : t.messages[i]? with
    | none => exact iff_of_true h (by rintro nodeId ⟨⟩)
    | some message =>
      have hsent : Attributed t message := h.sent message (List.mem_of_getElem? hmessage)
      obtain ⟨nodeId, event⟩ := message
      by_cases hown : nodeId = node
      · simp only [if_pos hown, Option.some.injEq, Message.mk.injEq]
        refine iff_of_true h ?_
        rintro _ ⟨rfl, -⟩ hother
        exact absurd hown hother
      · simp only [if_neg hown, Option.some.injEq, Message.mk.injEq]
        rw [truthful_receive hsites h hsent]
        constructor
        · rintro hall _ ⟨rfl, hevent⟩ -
          exact hall hevent
        · intro hall hevent
          exact hall nodeId ⟨rfl, hevent⟩ hown

theorem known_update {value : Option SiteState} {t : Cluster N S} {node : N} {site : S}
    {had : N → S → SiteState → Prop} (hsites : Known t) (hhad : ∀ n s x, t.had n s x → had n s x)
    (hvalue : ∀ x, value = some x → had node site x) :
    ∀ n, ∀ s x, Function.update t.sites node (Function.update (t.sites node) site value) n s = some x →
      had n s x := by
  intro n s x hx
  by_cases hn : n = node
  · subst hn
    rw [Function.update_self] at hx
    by_cases hs : s = site
    · subst hs
      rw [Function.update_self] at hx
      exact hvalue x hx
    · rw [Function.update_of_ne hs] at hx
      exact hhad n s x (hsites n s x hx)
  · rw [Function.update_of_ne hn] at hx
    exact hhad n s x (hsites n s x hx)

theorem known_setState {env registered : Bool} (hsites : Known t) :
    Known (setState t node site state env registered) := by
  have hhad : ∀ n s x, t.had n s x → t.had n s x ∨ n = node ∧ s = site ∧ x = state :=
    fun n s x hx => Or.inl hx
  cases registered with
  | false => cases env <;> exact fun n s x hx => hhad n s x (hsites n s x hx)
  | true =>
    have hvalue : ∀ x, some state = some x → t.had node site x ∨ node = node ∧ site = site ∧ x = state :=
      fun x hx => Or.inr ⟨rfl, rfl, (Option.some.inj hx).symm⟩
    cases env <;> exact known_update hsites hhad hvalue

/-- Messages change what a node knows, and nothing that is so. -/
theorem deliver_keeps (t : Cluster N S) (i : Nat) (node : N) :
    (perform t (.deliver i node)).sites = t.sites ∧ (perform t (.deliver i node)).had = t.had := by
  simp only [perform]
  cases t.messages[i]? with
  | none => exact ⟨rfl, rfl⟩
  | some message =>
    obtain ⟨nodeId, event⟩ := message
    dsimp only
    split
    · exact ⟨rfl, rfl⟩
    · cases event <;> exact ⟨rfl, rfl⟩

theorem known_step (hsites : Known t) (step : Step N S) : Known (perform t step) := by
  cases step with
  | setState node site state env registered => exact known_setState hsites
  | register node site state =>
    exact known_update hsites (fun n s x hx => Or.inl hx) fun x hx => Or.inr ⟨rfl, rfl, hx.symm⟩
  | heartBeat node => exact hsites
  | request node => exact hsites
  | shutdown node => exact hsites
  | deliver i node =>
    obtain ⟨hsame, hhad⟩ := deliver_keeps t i node
    intro n s x hx
    rw [hsame] at hx
    rw [hhad]
    exact hsites n s x hx

/-! ## Runs -/

def Reaches (sites : N → SiteStates S) (steps : List (Step N S)) (t : Cluster N S) : Prop :=
  Run (fun t step u => perform t step = u) (initial sites) steps t

theorem staysTruthful_iff (sites : N → SiteStates S) (steps : List (Step N S)) :
    (∀ pre post t, steps = pre ++ post → Reaches sites pre t → Truthful t) ↔
      ∀ pre step post t, steps = pre ++ step :: post → Reaches sites pre t → Allowed t step := by
  have hsites : Known (initial sites) := fun node site state hstate => hstate
  have hinit : Truthful (initial sites) := by
    refine ⟨?_, ?_⟩
    · rintro node nodeId states ⟨⟩
    · intro message hmem
      cases hmem
  have htotal : ∀ (t : Cluster N S) (step : Step N S), ∃ u, perform t step = u :=
    fun t step => ⟨perform t step, rfl⟩
  refine Run.inv_iff_of_inv hsites hinit htotal ?_ ?_ steps
  · rintro t step _ hknown - rfl
    exact known_step hknown step
  · rintro t step _ hknown h rfl
    exact truthful_step hknown h step

section Example

/-- Each of two nodes has a site of its own. -/
def twoNodes : Bool → SiteStates String
  | false => fun site => if site = "a" then some .started else none
  | true => fun site => if site = "b" then some .started else none

/-- The first node tells the second one about itself, and then asks it. -/
def asking : List (Step Bool String) :=
  [.heartBeat false, .deliver 0 true, .request false, .deliver 1 true]

def asked : Cluster Bool String := asking.foldl perform (initial twoNodes)

/-- The second node takes its site for one of the first node, and sends the first one's as its own. -/
theorem sites_mixed :
    Reaches twoNodes asking asked ∧ ¬ Truthful asked ∧
      asked.siteState true false "b" = some .started ∧ ¬ asked.had false "b" .started ∧
      ∃ message ∈ asked.messages, message.nodeId = true ∧ ¬ Attributed asked message := by
  have hrun : Reaches twoNodes asking asked := Run.foldl perform (initial twoNodes) asking
  have hview : asked.siteState true false "b" = some .started := by decide
  have hnever : ¬ asked.had false "b" .started := by
    simp [asked, asking, perform, initial, sendNodeEvent, Cluster.put, Cluster.send, receive, twoNodes]
  have hother : ¬ asked.had true "a" .started := by
    simp [asked, asking, perform, initial, sendNodeEvent, Cluster.put, Cluster.send, receive, twoNodes]
  refine ⟨hrun, fun h => hnever (h.siteState "b" .started hview), hview, hnever, ?_⟩
  refine ⟨⟨true, .nodeEvent (asked.siteState true false)⟩, ?_, rfl, ?_⟩
  · exact List.mem_of_getElem? (i := 2) rfl
  · intro h
    exact hother (h "a" .started (by decide))

end Example

end Messaging
end AppNG
