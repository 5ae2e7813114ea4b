import AppNG.Messaging.ClusterState
import Mathlib.Data.Fintype.Card

/-!
# Messaging.ReloadSite

The reload of a site in a cluster: the site loader of the node where it starts, the `ReloadSiteEvent` that
it sends, and `ReloadSiteEvent.waitForClusterState` on every other node.

A node looks at what it knows of the others and then goes down on its own, whatever the others that
have looked before do.

* `goesOn_iff`: the loaders under way can leave too few nodes up if and only if they are too many.
* `few_step`: a step keeps them few if and only if it is allowed.
* `staysUp_iff`: so it is for all steps of a run, and then enough nodes are up in every state of it.
* `two_nodes_safe`: with two nodes there is nothing to go wrong.
-/

namespace AppNG
namespace Messaging

open Machine

/-- How far a node is with the reload. -/
inductive Phase where
  | idle
  | waiting (numNodes : Nat)
  | reloading
  | suspended
  | stopping
  | stopped
  | starting
  | done
  deriving DecidableEq, Repr

/-- A reload of a site, with the node where it starts and what is set up on each node. -/
structure SiteReload (N S : Type) where
  site : S
  origin : N
  waitForSitesStarted : N → Bool
  siteSuspendOffset : N → Int
  active : N → Bool

structure Reload (N S : Type) where
  cluster : Cluster N S
  phase : N → Phase
  /-- the `ReloadSiteEvent` was sent -/
  sent : Bool

variable {N S : Type}

section Operations

variable [Fintype N] [DecidableEq N] [DecidableEq S]

/-- The size of `NodeEvent.clusterState`, where the node itself always is. -/
def numNodes (t : Cluster N S) (node : N) : Nat :=
  (Finset.univ.filter fun k => k = node ∨ (t.clusterState node k).isSome = true).card

def activeNodes (t : Cluster N S) (node : N) (site : S) : Nat :=
  (Finset.univ.filter fun k => t.siteState node k site = some .started).card

def minActiveNodes (numNodes : Nat) : Nat :=
  if numNodes > 3 then (numNodes + 1) / 2 + 1 else numNodes

def Reload.setPhase (t : Reload N S) (node : N) (phase : Phase) : Reload N S :=
  { t with phase := Function.update t.phase node phase }

def SiteReload.enter (r : SiteReload N S) (t : Reload N S) (node : N) (phase : Phase)
    (state : SiteState) : Reload N S :=
  { t.setPhase node phase with cluster := setState t.cluster node r.site state true true }

/-- What the site loader does next: `handleReload`, `shutdownSite` and then the start. -/
def SiteReload.advance (r : SiteReload N S) (t : Reload N S) (node : N) : Reload N S :=
  match t.phase node with
  | .reloading =>
    if numNodes t.cluster node > 1 ∧ r.siteSuspendOffset node > 0 then
      r.enter t node .suspended .suspended
    else r.enter t node .stopping .stopping
  | .suspended => r.enter t node .stopping .stopping
  | .stopping => r.enter t node .stopped (if r.active node then .stopped else .inactive)
  | .stopped => r.enter t node .starting .starting
  | .starting => r.enter t node .done .started
  | .idle | .waiting _ | .done => t

/-- The node does not wait any longer: `numNodes` is what it knew when it began to. -/
def SiteReload.Passes (r : SiteReload N S) (t : Reload N S) (node : N) (numNodes : Nat) : Prop :=
  numNodes ≤ 1 ∨ r.waitForSitesStarted node = false ∨
    minActiveNodes numNodes ≤ activeNodes t.cluster node r.site

instance (r : SiteReload N S) (t : Reload N S) (node : N) (numNodes : Nat) :
    Decidable (r.Passes t node numNodes) :=
  inferInstanceAs (Decidable (_ ∨ _ ∨ _))

inductive ReloadStep (N : Type) where
  | advance (node : N)
  | sendReload
  | receive (node : N)
  | check (node : N)
  | deliver (message : Nat) (node : N)
  | heartBeat (node : N)

/-- The event is sent once the loader of the first node is done, and a node executes it only once. -/
def SiteReload.perform (r : SiteReload N S) (t : Reload N S) : ReloadStep N → Reload N S
  | .advance node => r.advance t node
  | .sendReload => if t.phase r.origin = .done then { t with sent := true } else t
  | .receive node =>
    if t.sent = true ∧ node ≠ r.origin ∧ t.phase node = .idle then
      t.setPhase node (.waiting (numNodes t.cluster node))
    else t
  | .check node =>
    match t.phase node with
    | .waiting numNodes =>
      if r.Passes t node numNodes then t.setPhase node .reloading else t
    | _ => t
  | .deliver message node => { t with cluster := Messaging.perform t.cluster (.deliver message node) }
  | .heartBeat node => { t with cluster := Messaging.perform t.cluster (.heartBeat node) }

end Operations

/-- A cluster in which the site is started everywhere. -/
structure RunningCluster (N S : Type) (site : S) extends Cluster N S where
  started : ∀ node, sites node site = some .started

def SiteReload.initial [DecidableEq N] (r : SiteReload N S) (t : RunningCluster N S r.site) :
    Reload N S where
  cluster := t.toCluster
  phase node := if node = r.origin then .reloading else .idle
  sent := false

/-! ## Which nodes are up -/

def SiteState.isUp : SiteState → Bool
  | .started | .suspended => true
  | _ => false

def SiteReload.isUp (r : SiteReload N S) (t : Reload N S) (node : N) : Bool :=
  (t.cluster.sites node r.site).any SiteState.isUp

def Phase.isDown : Phase → Bool
  | .stopping | .stopped | .starting => true
  | _ => false

def Phase.underWay : Phase → Bool
  | .idle | .waiting _ | .done => false
  | _ => true

theorem Phase.underWay_of_isDown {phase : Phase} (h : phase.isDown = true) :
    phase.underWay = true := by
  cases phase <;> simp_all [Phase.isDown, Phase.underWay]

variable {r : SiteReload N S} {t u : Reload N S} {node : N} {phase : Phase}

/-- A node is down if its phase says so. -/
def SiteReload.Matches (r : SiteReload N S) (t : Reload N S) : Prop :=
  ∀ node, r.isUp t node = !(t.phase node).isDown

/-- The other nodes take part once the first one is done. -/
structure OriginFirst (r : SiteReload N S) (t : Reload N S) : Prop where
  sent : t.sent = true → t.phase r.origin = .done
  others : ∀ node, node ≠ r.origin → t.phase node ≠ .idle → t.sent = true
  origin : ∀ numNodes, t.phase r.origin ≠ .waiting numNodes

section Enter

variable [DecidableEq N]

theorem phase_setPhase {k : N} :
    (t.setPhase node phase).phase k = if k = node then phase else t.phase k :=
  Function.update_apply t.phase node phase k

theorem matches_setPhase (hphase : phase.isDown = (t.phase node).isDown) (h : r.Matches t) :
    r.Matches (t.setPhase node phase) := by
  intro k
  rw [phase_setPhase]
  split
  · rename_i hk
    rw [hphase, hk]
    exact h node
  · exact h k

theorem originFirst_setPhase (h : OriginFirst r t) (horigin : node ≠ r.origin)
    (hsent : t.sent = true) : OriginFirst r (t.setPhase node phase) := by
  have hsame : (t.setPhase node phase).phase r.origin = t.phase r.origin := by
    rw [phase_setPhase, if_neg (Ne.symm horigin)]
  refine ⟨fun _ => hsame.trans (h.sent hsent), fun _ _ _ => hsent, fun numNodes => ?_⟩
  rw [hsame]
  exact h.origin numNodes

theorem initial_matches (r : SiteReload N S) (t : RunningCluster N S r.site) :
    r.Matches (r.initial t) := by
  intro node
  have hstarted : r.isUp (r.initial t) node = true := by
    simp only [SiteReload.isUp, SiteReload.initial, t.started node]
    rfl
  rw [hstarted]
  simp only [SiteReload.initial]
  split <;> rfl

variable [DecidableEq S]

theorem phase_enter {state : SiteState} {k : N} :
    (r.enter t node phase state).phase k = if k = node then phase else t.phase k :=
  phase_setPhase

theorem sites_enter {state : SiteState} :
    (r.enter t node phase state).cluster.sites =
      Function.update t.cluster.sites node
        (Function.update (t.cluster.sites node) r.site (some state)) :=
  rfl

theorem matches_enter {state : SiteState} (hstate : state.isUp = !phase.isDown) (h : r.Matches t) :
    r.Matches (r.enter t node phase state) := by
  intro k
  rw [phase_enter, SiteReload.isUp, sites_enter]
  by_cases hk : k = node
  · subst hk
    simp [hstate]
  · rw [Function.update_of_ne hk, if_neg hk]
    exact h k

end Enter

/-! ## How many nodes are up -/

variable [Fintype N]

/-- The site is started or suspended on enough nodes. -/
def SiteReload.EnoughUp (r : SiteReload N S) (t : Reload N S) : Prop :=
  minActiveNodes (Fintype.card N) - 1 ≤ (Finset.univ.filter fun node => r.isUp t node = true).card

/-- The nodes whose site loader runs. -/
def Reload.loading (t : Reload N S) : Finset N :=
  Finset.univ.filter fun node => (t.phase node).underWay = true

def Reload.down (t : Reload N S) : Finset N :=
  Finset.univ.filter fun node => (t.phase node).isDown = true

/-- A node whose check passes finds at most so many others that reload that enough would stay if
these were all down. -/
def SiteReload.Allowed [DecidableEq N] [DecidableEq S] (r : SiteReload N S) (t : Reload N S) :
    ReloadStep N → Prop
  | .check node => ∀ numNodes, t.phase node = .waiting numNodes → r.Passes t node numNodes →
      t.loading.card + minActiveNodes (Fintype.card N) ≤ Fintype.card N
  | _ => True

theorem mem_loading : node ∈ t.loading ↔ (t.phase node).underWay = true := by
  simp [Reload.loading]

theorem mem_down : node ∈ t.down ↔ (t.phase node).isDown = true := by
  simp [Reload.down]

theorem down_subset_loading : t.down ⊆ t.loading := by
  intro node hnode
  exact mem_loading.mpr (Phase.underWay_of_isDown (mem_down.mp hnode))

/-- What is not down is up. -/
theorem enoughUp_iff (hmatches : r.Matches t) :
    r.EnoughUp t ↔ t.down.card + (minActiveNodes (Fintype.card N) - 1) ≤ Fintype.card N := by
  have hup : (Finset.univ.filter fun node => r.isUp t node = true) =
      Finset.univ.filter fun node => ¬ (t.phase node).isDown = true := by
    refine Finset.filter_congr fun node _ => ?_
    rw [hmatches node, Bool.not_eq_true', Bool.not_eq_true]
  have hall := Finset.card_filter_add_card_filter_not (s := Finset.univ)
    fun node => (t.phase node).isDown = true
  rw [Finset.card_univ] at hall
  unfold SiteReload.EnoughUp Reload.down
  rw [hup]
  omega

/-- Enough nodes are up when all that reload are down. -/
def Few (t : Reload N S) : Prop :=
  t.loading.card + minActiveNodes (Fintype.card N) ≤ Fintype.card N + 1

theorem few_of_subset (hsubset : u.loading ⊆ t.loading) (h : Few t) : Few u := by
  have hcard : u.loading.card ≤ t.loading.card := Finset.card_le_card hsubset
  unfold Few at h ⊢
  omega

theorem minActiveNodes_le (n : Nat) : minActiveNodes n ≤ n := by
  unfold minActiveNodes
  split <;> omega

variable [DecidableEq N]

theorem loading_begin (hphase : phase.underWay = true) :
    (t.setPhase node phase).loading = insert node t.loading := by
  ext k
  rw [mem_loading, Finset.mem_insert, mem_loading, phase_setPhase]
  by_cases hk : k = node
  · simp [hk, hphase]
  · simp [hk]

theorem loading_wait (hphase : phase.underWay = false) :
    (t.setPhase node phase).loading ⊆ t.loading := by
  intro k hk
  rw [mem_loading, phase_setPhase] at hk
  split at hk
  · rw [hphase] at hk
    cases hk
  · exact mem_loading.mpr hk

/-- A node that checks is not the first one, which is done then. -/
theorem loading_check (h : OriginFirst r t) {numNodes : Nat}
    (hphase : t.phase node = .waiting numNodes) : t.loading.card + 2 ≤ Fintype.card N := by
  have horigin : node ≠ r.origin := fun heq => h.origin numNodes (heq ▸ hphase)
  have hsent : t.sent = true := h.others node horigin (by simp [hphase])
  have hdone : t.phase r.origin = .done := h.sent hsent
  have hsubset : t.loading ⊆ Finset.univ \ {node, r.origin} := by
    intro k hk
    have hloading : (t.phase k).underWay = true := mem_loading.mp hk
    rw [Finset.mem_sdiff, Finset.mem_insert, Finset.mem_singleton]
    refine ⟨Finset.mem_univ k, ?_⟩
    rintro (rfl | rfl)
    · rw [hphase] at hloading
      cases hloading
    · rw [hdone] at hloading
      cases hloading
  have hcard := Finset.card_le_card hsubset
  have hpair : ({node, r.origin} : Finset N).card = 2 := Finset.card_pair horigin
  have hall : ({node, r.origin} : Finset N).card ≤ Fintype.card N := Finset.card_le_univ _
  rw [Finset.card_sdiff_of_subset (Finset.subset_univ _), Finset.card_univ, hpair] at hcard
  omega

/-- At first only the loader of one node runs. -/
theorem initial_few (r : SiteReload N S) (t : RunningCluster N S r.site) : Few (r.initial t) := by
  have hloading : (r.initial t).loading ⊆ {r.origin} := by
    intro node hnode
    rw [mem_loading] at hnode
    by_cases horigin : node = r.origin
    · exact Finset.mem_singleton.mpr horigin
    · simp [SiteReload.initial, horigin, Phase.underWay] at hnode
  have hone : (r.initial t).loading.card ≤ 1 := Finset.card_le_card hloading
  have hmin : minActiveNodes (Fintype.card N) ≤ Fintype.card N := minActiveNodes_le _
  unfold Few
  omega

variable [DecidableEq S]

/-- What the site loader can do. -/
theorem advance_cases (r : SiteReload N S) (t : Reload N S) (node : N) :
    (r.advance t node = t ∧ (t.phase node).underWay = false) ∨
      ∃ phase state, r.advance t node = r.enter t node phase state ∧ state.isUp = (!phase.isDown) ∧
        (t.phase node).underWay = true ∧ ∀ numNodes, phase ≠ .waiting numNodes := by
  unfold SiteReload.advance
  cases t.phase node with
  | idle => exact Or.inl ⟨rfl, rfl⟩
  | waiting numNodes => exact Or.inl ⟨rfl, rfl⟩
  | done => exact Or.inl ⟨rfl, rfl⟩
  | reloading =>
    dsimp only
    split
    · exact Or.inr ⟨.suspended, .suspended, rfl, rfl, rfl, nofun⟩
    · exact Or.inr ⟨.stopping, .stopping, rfl, rfl, rfl, nofun⟩
  | suspended => exact Or.inr ⟨.stopping, .stopping, rfl, rfl, rfl, nofun⟩
  | stopping =>
    refine Or.inr ⟨.stopped, _, rfl, ?_, rfl, nofun⟩
    cases r.active node <;> rfl
  | stopped => exact Or.inr ⟨.starting, .starting, rfl, rfl, rfl, nofun⟩
  | starting => exact Or.inr ⟨.done, .started, rfl, rfl, rfl, nofun⟩

theorem matches_advance (h : r.Matches t) : r.Matches (r.advance t node) := by
  rcases advance_cases r t node with ⟨hsame, -⟩ | ⟨phase, state, hnext, hstate, -⟩
  · rwa [hsame]
  · rw [hnext]
    exact matches_enter hstate h

theorem loading_advance : (r.advance t node).loading ⊆ t.loading := by
  rcases advance_cases r t node with ⟨hsame, -⟩ | ⟨phase, state, hnext, -, hloading, -⟩
  · rw [hsame]
  · intro k hk
    rw [hnext, mem_loading, phase_enter] at hk
    split at hk
    · rename_i hnode
      rw [hnode]
      exact mem_loading.mpr hloading
    · exact mem_loading.mpr hk

/-- The site loaders go on, one after the other. -/
def SiteReload.goOn (r : SiteReload N S) (t : Reload N S) (nodes : List N) : Reload N S :=
  nodes.foldl r.advance t

theorem goOn_keeps (hmatches : r.Matches t) (nodes : List N) :
    r.Matches (r.goOn t nodes) ∧ (r.goOn t nodes).loading ⊆ t.loading := by
  induction nodes generalizing t with
  | nil => exact ⟨hmatches, Finset.Subset.refl _⟩
  | cons node nodes ih =>
    have hnext : r.Matches (r.advance t node) := matches_advance hmatches
    obtain ⟨hrest, hsubset⟩ := ih hnext
    exact ⟨hrest, hsubset.trans loading_advance⟩

/-- A loader takes its node down, and no other one. -/
theorem exists_goesDown (r : SiteReload N S) (t : Reload N S)
    (hloading : (t.phase node).underWay = true) :
    ∃ nodes, ((r.goOn t nodes).phase node).isDown = true ∧
      ∀ k, k ≠ node → (r.goOn t nodes).phase k = t.phase k := by
  have hother : ∀ t : Reload N S, ∀ k, k ≠ node → (r.advance t node).phase k = t.phase k := by
    intro t k hk
    rcases advance_cases r t node with ⟨hsame, -⟩ | ⟨phase, state, hnext, -⟩
    · rw [hsame]
    · rw [hnext, phase_enter, if_neg hk]
  have hsuspended : ∀ t : Reload N S, t.phase node = .suspended →
      ((r.advance t node).phase node).isDown = true := by
    intro t hphase
    simp [SiteReload.advance, hphase, phase_enter, Phase.isDown]
  cases hphase : t.phase node with
  | idle => simp [hphase, Phase.underWay] at hloading
  | waiting numNodes => simp [hphase, Phase.underWay] at hloading
  | done => simp [hphase, Phase.underWay] at hloading
  | stopping => exact ⟨[], by simp [SiteReload.goOn, hphase, Phase.isDown], fun k _ => rfl⟩
  | stopped => exact ⟨[], by simp [SiteReload.goOn, hphase, Phase.isDown], fun k _ => rfl⟩
  | starting => exact ⟨[], by simp [SiteReload.goOn, hphase, Phase.isDown], fun k _ => rfl⟩
  | suspended => exact ⟨[node], hsuspended t hphase, hother t⟩
  | reloading =>
    by_cases hsuspend : numNodes t.cluster node > 1 ∧ r.siteSuspendOffset node > 0
    · refine ⟨[node, node], hsuspended (r.advance t node) ?_, fun k hk => ?_⟩
      · simp [SiteReload.advance, hphase, hsuspend, phase_enter]
      · exact (hother (r.advance t node) k hk).trans (hother t k hk)
    · refine ⟨[node], ?_, hother t⟩
      simp [SiteReload.goOn, SiteReload.advance, hphase, hsuspend, phase_enter, Phase.isDown]

/-- All loaders can have their nodes down at once. -/
theorem exists_allDown (r : SiteReload N S) (t : Reload N S) :
    ∃ nodes, t.loading ⊆ (r.goOn t nodes).down := by
  have hsome : ∀ s : Finset N, s ⊆ t.loading → ∃ nodes, s ⊆ (r.goOn t nodes).down ∧
      ∀ k, k ∉ s → (r.goOn t nodes).phase k = t.phase k := by
    intro s
    induction s using Finset.induction_on with
    | empty => exact fun _ => ⟨[], Finset.empty_subset _, fun k _ => rfl⟩
    | @insert node s hnode ih =>
      intro hs
      obtain ⟨nodes, hdown, hsame⟩ := ih ((Finset.subset_insert node s).trans hs)
      have hloading : ((r.goOn t nodes).phase node).underWay = true := by
        rw [hsame node hnode]
        exact mem_loading.mp (hs (Finset.mem_insert_self node s))
      obtain ⟨more, hgone, hothers⟩ := exists_goesDown r _ hloading
      have happend : r.goOn t (nodes ++ more) = r.goOn (r.goOn t nodes) more :=
        List.foldl_append
      refine ⟨nodes ++ more, fun k hk => ?_, fun k hk => ?_⟩
      · rw [happend, mem_down]
        rcases Finset.mem_insert.mp hk with rfl | hk
        · exact hgone
        · rw [hothers k (fun heq => hnode (heq ▸ hk))]
          exact mem_down.mp (hdown hk)
      · rw [Finset.mem_insert, not_or] at hk
        rw [happend, hothers k hk.1, hsame k hk.2]
  obtain ⟨nodes, hdown, -⟩ := hsome t.loading (Finset.Subset.refl _)
  exact ⟨nodes, hdown⟩

/-- However the loaders under way go on from here, enough nodes stay up. -/
def SiteReload.Safe (r : SiteReload N S) (t : Reload N S) : Prop :=
  ∀ nodes, r.EnoughUp (r.goOn t nodes)

theorem goesOn_iff (hmatches : r.Matches t) : r.Safe t ↔ Few t := by
  unfold Few
  constructor
  · intro h
    obtain ⟨nodes, hdown⟩ := exists_allDown r t
    have henough := (enoughUp_iff (goOn_keeps hmatches nodes).1).mp (h nodes)
    have hcard : t.loading.card ≤ (r.goOn t nodes).down.card := Finset.card_le_card hdown
    omega
  · intro h nodes
    obtain ⟨hmatches', hloading⟩ := goOn_keeps hmatches nodes
    have hdown : (r.goOn t nodes).down.card ≤ t.loading.card :=
      Finset.card_le_card (down_subset_loading.trans hloading)
    have hall : t.loading.card ≤ Fintype.card N := Finset.card_le_univ t.loading
    refine (enoughUp_iff hmatches').mpr ?_
    omega

/-- A check that passes lets one more node reload. -/
theorem few_check (h : Few t) : Few (r.perform t (.check node)) ↔ r.Allowed t (.check node) := by
  simp only [SiteReload.perform, SiteReload.Allowed]
  cases hphase : t.phase node with
  | waiting numNodes =>
    have hnotin : node ∉ t.loading := by
      rw [mem_loading, hphase]
      exact Bool.false_ne_true
    dsimp only
    split
    · rename_i hpasses
      rw [Few, loading_begin rfl, Finset.card_insert_of_notMem hnotin]
      constructor
      · intro hfew _ _ _
        omega
      · intro hallowed
        have hothers := hallowed numNodes rfl hpasses
        omega
    · rename_i hwaits
      refine iff_of_true h ?_
      rintro _ ⟨rfl⟩ hpasses
      exact absurd hpasses hwaits
  | _ => exact iff_of_true h (by rintro _ ⟨⟩)

theorem few_step (h : Few t) (step : ReloadStep N) : Few (r.perform t step) ↔ r.Allowed t step := by
  cases step with
  | check node => exact few_check h
  | advance node => exact iff_of_true (few_of_subset loading_advance h) trivial
  | deliver message node => exact iff_of_true h trivial
  | heartBeat node => exact iff_of_true h trivial
  | sendReload =>
    refine iff_of_true ?_ trivial
    simp only [SiteReload.perform]
    split
    · exact h
    · exact h
  | receive node =>
    refine iff_of_true ?_ trivial
    simp only [SiteReload.perform]
    split
    · exact few_of_subset (loading_wait rfl) h
    · exact h

theorem matches_step (h : r.Matches t) (step : ReloadStep N) : r.Matches (r.perform t step) := by
  cases step with
  | advance node => exact matches_advance h
  | heartBeat node => exact h
  | deliver message node =>
    intro k
    simp only [SiteReload.perform, SiteReload.isUp, (deliver_keeps t.cluster message node).1]
    exact h k
  | sendReload =>
    simp only [SiteReload.perform]
    split
    · exact h
    · exact h
  | receive node =>
    simp only [SiteReload.perform]
    split
    · rename_i hidle
      exact matches_setPhase (by rw [hidle.2.2]; rfl) h
    · exact h
  | check node =>
    simp only [SiteReload.perform]
    split
    · rename_i numNodes hphase
      split
      · exact matches_setPhase (by rw [hphase]; rfl) h
      · exact h
    · exact h

/-! ## Runs -/

def SiteReload.Reaches (r : SiteReload N S) (t : Reload N S) (steps : List (ReloadStep N))
    (u : Reload N S) : Prop :=
  Run (fun t step u => r.perform t step = u) t steps u

theorem staysSafe_iff (r : SiteReload N S) (t : RunningCluster N S r.site) (steps : List (ReloadStep N)) :
    (∀ pre post u, steps = pre ++ post → r.Reaches (r.initial t) pre u → r.Safe u) ↔
      ∀ pre step post u, steps = pre ++ step :: post → r.Reaches (r.initial t) pre u →
        r.Allowed u step := by
  have hmatches : r.Matches (r.initial t) := initial_matches r t
  have htotal : ∀ u step, ∃ v, r.perform u step = v := fun u step => ⟨r.perform u step, rfl⟩
  refine Run.inv_iff_of_inv hmatches ((goesOn_iff hmatches).mpr (initial_few r t)) htotal ?_ ?_ steps
  · rintro u step _ h - rfl
    exact matches_step h step
  · rintro u step _ h hsafe rfl
    rw [goesOn_iff (matches_step h step)]
    exact few_step ((goesOn_iff h).mp hsafe) step

/-- Enough nodes are up in every state of a run, and stay so however the loaders go on, if and only if every step is
allowed. -/
theorem staysUp_iff (r : SiteReload N S) (t : RunningCluster N S r.site) (steps : List (ReloadStep N)) :
    ((∀ pre post u, steps = pre ++ post → r.Reaches (r.initial t) pre u → r.Safe u) ↔
      ∀ pre step post u, steps = pre ++ step :: post → r.Reaches (r.initial t) pre u →
        r.Allowed u step) ∧
      ((∀ pre step post u, steps = pre ++ step :: post → r.Reaches (r.initial t) pre u → r.Allowed u step) →
        ∀ pre post u, steps = pre ++ post → r.Reaches (r.initial t) pre u → r.EnoughUp u) := by
  refine ⟨staysSafe_iff r t steps, fun hallowed pre post u hsteps hrun => ?_⟩
  have hsafe : r.Safe u := (staysSafe_iff r t steps).mpr hallowed pre post u hsteps hrun
  -- no loader goes on
  exact hsafe []

section Example

def threeNodes : SiteReload (Fin 3) String where
  site := "blog"
  origin := 0
  waitForSitesStarted _ := true
  siteSuspendOffset _ := 5
  active _ := true

def blogStarted : SiteStates String := fun site => if site = "blog" then some .started else none

/-- Every node knows that the site is started everywhere. -/
def blogCluster : RunningCluster (Fin 3) String "blog" where
  sites _ := blogStarted
  had _ site state := blogStarted site = some state
  clusterState _ _ := some blogStarted
  messages := []
  started _ := rfl

/-- The first node is done and all have heard of it before the other two check. -/
def checkedTogether : List (ReloadStep (Fin 3)) :=
  List.replicate 5 (.advance 0) ++ [.sendReload, .receive 1, .receive 2] ++
    (List.range 5).flatMap (fun i => [.deliver i 1, .deliver i 2]) ++
    [.check 1, .check 2, .advance 1, .advance 1, .advance 2, .advance 2]

def bothDown : Reload (Fin 3) String :=
  checkedTogether.foldl threeNodes.perform (threeNodes.initial blogCluster)

/-- Both checks pass, and then both nodes are down. -/
theorem two_of_three_down :
    threeNodes.Reaches (threeNodes.initial blogCluster) checkedTogether bothDown ∧
      ¬ threeNodes.EnoughUp bothDown := by
  refine ⟨Run.foldl _ _ _, ?_⟩
  have hone : (Finset.univ.filter fun node => threeNodes.isUp bothDown node = true).card = 1 := by
    decide +kernel
  rw [SiteReload.EnoughUp, hone]
  decide

end Example

/-! ## Two nodes -/

theorem originFirst_step (h : OriginFirst r t) (step : ReloadStep N) :
    OriginFirst r (r.perform t step) := by
  cases step with
  | deliver message node => exact ⟨h.sent, h.others, h.origin⟩
  | heartBeat node => exact ⟨h.sent, h.others, h.origin⟩
  | sendReload =>
    simp only [SiteReload.perform]
    split
    · rename_i hdone
      exact ⟨fun _ => hdone, fun _ _ _ => rfl, h.origin⟩
    · exact h
  | receive node =>
    simp only [SiteReload.perform]
    split
    · rename_i hreceives
      exact originFirst_setPhase h hreceives.2.1 hreceives.1
    · exact h
  | check node =>
    simp only [SiteReload.perform]
    split
    · rename_i numNodes hphase
      have horigin : node ≠ r.origin := fun heq => h.origin numNodes (heq ▸ hphase)
      split
      · exact originFirst_setPhase h horigin (h.others node horigin (by simp [hphase]))
      · exact h
    · exact h
  | advance node =>
    simp only [SiteReload.perform]
    rcases advance_cases r t node with ⟨hsame, -⟩ | ⟨phase, state, hnext, -, hloading, hwaits⟩
    · rwa [hsame]
    · rw [hnext]
      refine ⟨fun hsent => ?_, fun k hk hidle => ?_, fun numNodes => ?_⟩
      · have horigin : r.origin ≠ node := by
          rintro rfl
          rw [h.sent hsent] at hloading
          cases hloading
        rw [phase_enter, if_neg horigin]
        exact h.sent hsent
      · by_cases hnode : k = node
        · subst hnode
          exact h.others k hk fun hphase => by rw [hphase] at hloading; cases hloading
        · rw [phase_enter, if_neg hnode] at hidle
          exact h.others k hk hidle
      · rw [phase_enter]
        split
        · exact hwaits numNodes
        · exact h.origin numNodes

/-- Of two nodes, one is always up. -/
theorem two_nodes_safe (htwo : Fintype.card N = 2) (t : RunningCluster N S r.site)
    {steps : List (ReloadStep N)} (hrun : r.Reaches (r.initial t) steps u) : r.Safe u := by
  have hinit : OriginFirst r (r.initial t) := by
    refine ⟨nofun, fun k hk hidle => ?_, fun numNodes => ?_⟩
    · simp [SiteReload.initial, hk] at hidle
    · simp [SiteReload.initial]
  have hkeeps : r.Matches u ∧ OriginFirst r u ∧ Few u := by
    refine Run.inv (P := fun _ u => r.Matches u ∧ OriginFirst r u ∧ Few u)
      ⟨initial_matches r t, hinit, initial_few r t⟩ ?_ hrun
    rintro _ u step _ ⟨hmatches, horigin, hfew⟩ rfl
    refine ⟨matches_step hmatches step, originFirst_step horigin step, (few_step hfew step).mpr ?_⟩
    cases step with
    | check node =>
      intro numNodes hphase _
      have hloading := loading_check horigin hphase
      rw [htwo] at hloading ⊢
      exact hloading
    | _ => trivial
  exact (goesOn_iff hkeeps.1).mpr hkeeps.2.2

end Messaging
end AppNG
