import AppNG.Messaging.ClusterState

/-!
# Sites.SiteLoader

`InitializerService.getSiteLoader`, with `handleReload` and `CoreService.shutdownSite`: the site that is
registered is shut down, and the one that was read from the database takes its place.

The catch clause knows the new site only. What becomes of the old one depends on where the loader fails.

* `loadSite_ok`, `loadSite_error`: the state at the end, and the one that a failure leaves.
* `settled_iff`: when the registered site is what the loader says, and the old one was shut down.
* `kept_iff`: when this is so or else the old one is registered still, and runs.
-/

namespace AppNG
namespace Sites

open Messaging (SiteState)

structure SiteImpl where
  state : SiteState
  active : Bool
  /-- how often it was shut down -/
  shutdowns : Nat

/-- What is registered under the name of the site. -/
inductive Entry where
  | currentSite
  | site
  deriving DecidableEq, Repr

structure Loading where
  /-- the site that was registered at first -/
  currentSite : Option SiteImpl
  site : SiteImpl
  siteMap : Option Entry

def Loading.registered (s : Loading) : Option SiteImpl :=
  s.siteMap.bind fun entry =>
    match entry with
    | .currentSite => s.currentSite
    | .site => some s.site

/-- Where an exception can come from. The thread may be interrupted where the site is suspended; it
is not when the loader waits for requests or after the site was started, as this is caught there. -/
inductive Point where
  | setup
  | suspended
  | waiting
  | stopping
  | stopped
  | preparing
  | starting
  | loading
  | started
  | finishing
  deriving DecidableEq, Repr

structure LoaderRun where
  numNodes : Nat
  siteSuspendOffset : Int
  failsAt : Option Point

/-- An error is the state that the exception leaves. -/
def LoaderRun.pass (run : LoaderRun) (point : Point) (s : Loading) : Except Loading Loading :=
  if run.failsAt = some point then .error s else .ok s

def SiteImpl.setState (o : SiteImpl) (state : SiteState) : SiteImpl := { o with state }

def Loading.setCurrent (s : Loading) (currentSite : SiteImpl) : Loading :=
  { s with currentSite := some currentSite }

def SiteImpl.hasState (o : SiteImpl) (states : List SiteState) : Prop := o.state ∈ states

instance (o : SiteImpl) (states : List SiteState) : Decidable (o.hasState states) :=
  inferInstanceAs (Decidable (_ ∈ _))

/-- The end of a shutdown. -/
def SiteImpl.shutDown (o : SiteImpl) : SiteImpl :=
  { o with
    state := if o.active = true then .stopped else .inactive
    shutdowns := o.shutdowns + 1 }

/-- `CoreService.shutdownSite`: the applications and the context are closed only if the site runs. -/
def shutdownSite (run : LoaderRun) (o : SiteImpl) (s : Loading) : Except Loading Loading := do
  let s ← run.pass .waiting s
  let s ← if o.hasState [.started, .suspended] then
      run.pass .stopping (s.setCurrent (o.setState .stopping))
    else .ok s
  run.pass .stopped (s.setCurrent o.shutDown)

def LoaderRun.Suspends (run : LoaderRun) : Prop := run.numNodes > 1 ∧ run.siteSuspendOffset > 0

instance (run : LoaderRun) : Decidable run.Suspends := inferInstanceAs (Decidable (_ ∧ _))

def handleReload (run : LoaderRun) (o : SiteImpl) (s : Loading) : Except Loading Loading :=
  if run.Suspends then do
    let s ← run.pass .suspended (s.setCurrent (o.setState .suspended))
    shutdownSite run (o.setState .suspended) s
  else shutdownSite run o s

def reload (run : LoaderRun) (s : Loading) : Except Loading Loading :=
  match s.currentSite with
  | some o => handleReload run o s
  | none => .ok s

def start (run : LoaderRun) (s : Loading) : Except Loading Loading := do
  let s ← run.pass .preparing s
  let s ← run.pass .starting { s with site := s.site.setState .starting }
  let s ← run.pass .loading { s with siteMap := some .site }
  let s ← run.pass .started { s with site := s.site.setState .started }
  run.pass .finishing { s with siteMap := some .site }

/-- The `try` block of the loader. -/
def loadSite (run : LoaderRun) (s : Loading) : Except Loading Loading := do
  let s ← run.pass .setup s
  let s ← reload run s
  start run s

/-- The loader returns, or else it throws once the new site is inactive. -/
def siteLoader (run : LoaderRun) (s : Loading) : Loading × Bool :=
  match loadSite run s with
  | .ok s => (s, true)
  | .error s => ({ s with site := s.site.setState .inactive }, false)

def initial (currentSite : Option SiteImpl) (site : SiteImpl) : Loading where
  currentSite
  site
  siteMap := currentSite.map fun _ => .currentSite

/-! ## Where the loader fails -/

/-- The loader comes to this point, if it did not fail before. -/
def LoaderRun.Reaches (run : LoaderRun) (currentSite : Option SiteImpl) : Point → Prop
  | .suspended => currentSite.isSome = true ∧ run.Suspends
  | .waiting | .stopped => currentSite.isSome = true
  | .stopping => ∃ o, currentSite = some o ∧ (run.Suspends ∨ o.hasState [.started, .suspended])
  | _ => True

def LoaderRun.currentAt (run : LoaderRun) (o : SiteImpl) : Point → SiteImpl
  | .setup => o
  | .suspended => o.setState .suspended
  | .waiting => if run.Suspends then o.setState .suspended else o
  | .stopping => o.setState .stopping
  | _ => o.shutDown

def siteAt (site : SiteImpl) : Point → SiteImpl
  | .starting | .loading => site.setState .starting
  | .started | .finishing => site.setState .started
  | _ => site

/-- The new site is in the map. -/
def Point.swapped : Point → Bool
  | .loading | .started | .finishing => true
  | _ => false

/-- The point is reached once the old site was shut down, or there is none. -/
def Point.inStart : Point → Bool
  | .preparing | .starting | .loading | .started | .finishing => true
  | _ => false

def LoaderRun.leftAt (run : LoaderRun) (currentSite : Option SiteImpl) (site : SiteImpl)
    (point : Point) : Loading where
  currentSite := currentSite.map (run.currentAt · point)
  site := siteAt site point
  siteMap := if point.swapped = true then some .site else currentSite.map fun _ => .currentSite

variable {run : LoaderRun} {currentSite : Option SiteImpl} {site : SiteImpl} {point : Point}
  {s : Loading}

theorem pass_of_ne (h : run.failsAt ≠ some point) : run.pass point s = .ok s := if_neg h

theorem pass_of_eq (h : run.failsAt = some point) : run.pass point s = .error s := if_pos h

theorem bind_ok {f : Loading → Except Loading Loading} :
    ((.ok s : Except Loading Loading) >>= f) = f s :=
  rfl

theorem bind_error {f : Loading → Except Loading Loading} :
    ((.error s : Except Loading Loading) >>= f) = .error s :=
  rfl

section Shutdown

variable {o : SiteImpl}

theorem shutdownSite_ok (hwaiting : run.failsAt ≠ some .waiting)
    (hstopping : o.hasState [.started, .suspended] → run.failsAt ≠ some .stopping)
    (hstopped : run.failsAt ≠ some .stopped) :
    shutdownSite run o s = .ok (s.setCurrent o.shutDown) := by
  unfold shutdownSite
  rw [pass_of_ne hwaiting, bind_ok]
  split
  · rename_i hstate
    rw [pass_of_ne (hstopping hstate), bind_ok]
    exact pass_of_ne hstopped
  · rw [bind_ok]
    exact pass_of_ne hstopped

theorem shutdownSite_waiting (hpoint : run.failsAt = some .waiting) :
    shutdownSite run o s = .error s := by
  unfold shutdownSite
  rw [pass_of_eq hpoint, bind_error]

theorem shutdownSite_stopping (hpoint : run.failsAt = some .stopping)
    (hstate : o.hasState [.started, .suspended]) :
    shutdownSite run o s = .error (s.setCurrent (o.setState .stopping)) := by
  unfold shutdownSite
  rw [pass_of_ne (by simp [hpoint]), bind_ok, if_pos hstate, pass_of_eq hpoint, bind_error]

theorem shutdownSite_stopped (hpoint : run.failsAt = some .stopped) :
    shutdownSite run o s = .error (s.setCurrent o.shutDown) := by
  unfold shutdownSite
  rw [pass_of_ne (by simp [hpoint]), bind_ok]
  split
  · rw [pass_of_ne (by simp [hpoint]), bind_ok]
    exact pass_of_eq hpoint
  · rw [bind_ok]
    exact pass_of_eq hpoint

theorem handleReload_ok
    (h : ∀ p, run.failsAt = some p → p.inStart = false → ¬ run.Reaches (some o) p) :
    handleReload run o s = .ok (s.setCurrent o.shutDown) := by
  have hwaiting : run.failsAt ≠ some .waiting := fun hp => h _ hp rfl rfl
  have hstopped : run.failsAt ≠ some .stopped := fun hp => h _ hp rfl rfl
  unfold handleReload
  split
  · rename_i hsuspends
    have hsuspended : run.failsAt ≠ some .suspended := fun hp => h _ hp rfl ⟨rfl, hsuspends⟩
    have hstopping : run.failsAt ≠ some .stopping := fun hp =>
      h _ hp rfl ⟨o, rfl, Or.inl hsuspends⟩
    rw [pass_of_ne hsuspended, bind_ok, shutdownSite_ok hwaiting (fun _ => hstopping) hstopped]
    rfl
  · exact shutdownSite_ok hwaiting (fun hstate hp => h _ hp rfl ⟨o, rfl, Or.inr hstate⟩) hstopped

/-- What a failure of the reload leaves of the old site. -/
theorem handleReload_error (hpoint : run.failsAt = some point) (h : run.Reaches (some o) point)
    (hsetup : point ≠ .setup) (hstart : point.inStart = false) (hcurrent : s.currentSite = some o) :
    handleReload run o s = .error (s.setCurrent (run.currentAt o point)) := by
  have hsame : s.setCurrent o = s := by rw [Loading.setCurrent, ← hcurrent]
  have hpass : point ≠ .suspended → run.failsAt ≠ some .suspended := by
    rw [hpoint]
    exact fun hne heq => hne (Option.some.inj heq)
  cases point with
  | setup => exact absurd rfl hsetup
  | suspended =>
    unfold handleReload
    rw [if_pos h.2, pass_of_eq hpoint]
    rfl
  | waiting =>
    unfold handleReload LoaderRun.currentAt
    split
    · rw [pass_of_ne (hpass (by decide)), bind_ok, shutdownSite_waiting hpoint]
    · rw [shutdownSite_waiting hpoint]
      exact congrArg Except.error hsame.symm
  | stopping =>
    unfold handleReload
    split
    · rw [pass_of_ne (hpass (by decide)), bind_ok]
      exact shutdownSite_stopping hpoint (by simp [SiteImpl.hasState, SiteImpl.setState])
    · rename_i hsuspends
      obtain ⟨_, ⟨rfl⟩, hstate⟩ := h
      exact shutdownSite_stopping hpoint (hstate.resolve_left hsuspends)
  | stopped =>
    unfold handleReload
    split
    · rw [pass_of_ne (hpass (by decide)), bind_ok]
      exact shutdownSite_stopped hpoint
    · exact shutdownSite_stopped hpoint
  | _ => cases hstart

end Shutdown

theorem start_ok (h : ∀ p, run.failsAt = some p → p.inStart = false) :
    start run s = .ok { s with site := s.site.setState .started, siteMap := some .site } := by
  have hpass : ∀ p s, p.inStart = true → run.pass p s = .ok s := by
    intro p s hp
    refine pass_of_ne fun hfails => ?_
    rw [h p hfails] at hp
    cases hp
  unfold start
  rw [hpass .preparing s rfl, bind_ok, hpass .starting _ rfl, bind_ok, hpass .loading _ rfl, bind_ok,
    hpass .started _ rfl, bind_ok, hpass .finishing _ rfl]
  rfl

theorem start_error (hpoint : run.failsAt = some point) (hstart : point.inStart = true) :
    start run s = .error { s with
      site := siteAt s.site point
      siteMap := if point.swapped = true then some .site else s.siteMap } := by
  have hpass : ∀ p s, run.pass p s = if point = p then .error s else .ok s := by
    intro p s
    simp [LoaderRun.pass, hpoint]
  unfold start
  cases point with
  | preparing => rw [hpass]; rfl
  | starting => rw [hpass, if_neg (by decide), bind_ok, hpass]; rfl
  | loading => simp only [hpass]; rfl
  | started => simp only [hpass]; rfl
  | finishing => simp only [hpass]; rfl
  | _ => cases hstart

theorem reload_ok
    (h : ∀ p, run.failsAt = some p → p.inStart = false → ¬ run.Reaches currentSite p) :
    reload run (initial currentSite site) =
      .ok { initial currentSite site with currentSite := currentSite.map SiteImpl.shutDown } := by
  cases currentSite with
  | none => rfl
  | some o => exact handleReload_ok h

theorem reaches_of_inStart (h : point.inStart = true) : run.Reaches currentSite point := by
  cases point <;> trivial

/-- Before the start, the loader comes to nothing but the setup unless a site is registered. -/
theorem exists_currentSite (h : run.Reaches currentSite point) (hsetup : point ≠ .setup)
    (hstart : point.inStart = false) : ∃ o, currentSite = some o := by
  cases point with
  | setup => exact absurd rfl hsetup
  | suspended => exact Option.isSome_iff_exists.mp h.1
  | waiting => exact Option.isSome_iff_exists.mp h
  | stopped => exact Option.isSome_iff_exists.mp h
  | stopping =>
    obtain ⟨o, ho, -⟩ := h
    exact ⟨o, ho⟩
  | _ => cases hstart

theorem loadSite_ok (h : ∀ p, run.failsAt = some p → ¬ run.Reaches currentSite p) :
    loadSite run (initial currentSite site) = .ok (run.leftAt currentSite site .finishing) := by
  have hsetup : run.failsAt ≠ some .setup := fun hp => h _ hp trivial
  have hstart : ∀ p, run.failsAt = some p → p.inStart = false := by
    intro p hp
    cases hinStart : p.inStart with
    | false => rfl
    | true => exact absurd (reaches_of_inStart hinStart) (h p hp)
  unfold loadSite
  rw [pass_of_ne hsetup, bind_ok, reload_ok fun p hp _ => h p hp, bind_ok, start_ok hstart]
  rfl

theorem currentAt_of_inStart {o : SiteImpl} (h : point.inStart = true) :
    run.currentAt o point = o.shutDown := by
  cases point <;> first | rfl | cases h

/-- The state that a failure leaves. -/
theorem loadSite_error (hpoint : run.failsAt = some point) (h : run.Reaches currentSite point) :
    loadSite run (initial currentSite site) = .error (run.leftAt currentSite site point) := by
  have hsame : ∀ p, run.failsAt = some p → p = point := by
    intro p hp
    rw [hpoint] at hp
    exact (Option.some.inj hp).symm
  unfold loadSite
  by_cases hsetup : point = .setup
  · subst hsetup
    rw [pass_of_eq hpoint, bind_error]
    cases currentSite <;> rfl
  · rw [pass_of_ne fun hp => hsetup (hsame _ hp).symm, bind_ok]
    cases hstart : point.inStart with
    | true =>
      have hreload : ∀ p, run.failsAt = some p → p.inStart = false → ¬ run.Reaches currentSite p := by
        intro p hp hbefore
        rw [hsame p hp, hstart] at hbefore
        cases hbefore
      rw [reload_ok hreload, bind_ok, start_error hpoint hstart]
      simp only [LoaderRun.leftAt, initial, currentAt_of_inStart hstart]
    | false =>
      obtain ⟨o, rfl⟩ := exists_currentSite h hsetup hstart
      have hreload : reload run (initial (some o) site) =
          .error ((initial (some o) site).setCurrent (run.currentAt o point)) :=
        handleReload_error hpoint h hsetup hstart rfl
      rw [hreload, bind_error]
      cases point <;> first | rfl | cases hstart

/-! ## What becomes of the sites -/

/-- What the loader ends with when it fails. -/
def LoaderRun.failed (run : LoaderRun) (currentSite : Option SiteImpl) (site : SiteImpl)
    (point : Point) : Loading :=
  { run.leftAt currentSite site point with site := (siteAt site point).setState .inactive }

theorem siteLoader_cases (run : LoaderRun) (currentSite : Option SiteImpl) (site : SiteImpl) :
    (∀ p, run.failsAt = some p → ¬ run.Reaches currentSite p) ∧
        siteLoader run (initial currentSite site) = (run.leftAt currentSite site .finishing, true) ∨
      ∃ p, run.failsAt = some p ∧ run.Reaches currentSite p ∧
        siteLoader run (initial currentSite site) = (run.failed currentSite site p, false) := by
  unfold siteLoader
  by_cases h : ∃ p, run.failsAt = some p ∧ run.Reaches currentSite p
  · obtain ⟨p, hpoint, hreached⟩ := h
    rw [loadSite_error hpoint hreached]
    exact Or.inr ⟨p, hpoint, hreached, rfl⟩
  · have hnone : ∀ p, run.failsAt = some p → ¬ run.Reaches currentSite p :=
      fun p hpoint hreached => h ⟨p, hpoint, hreached⟩
    rw [loadSite_ok hnone]
    exact Or.inl ⟨hnone, rfl⟩

/-- The old site was left alone and runs, or it was shut down exactly once. -/
def OldSettled (currentSite : Option SiteImpl) (s : Loading) : Prop :=
  ∀ o, currentSite = some o →
    ∃ o', s.currentSite = some o' ∧ (o' = o ∧ o.state = .started ∨ o'.shutdowns = o.shutdowns + 1)

/-- The registered site is started if the loader returned, and inactive otherwise. -/
def Settled (currentSite : Option SiteImpl) (result : Loading × Bool) : Prop :=
  (∀ o, result.1.registered = some o → o.state = if result.2 = true then .started else .inactive) ∧
    OldSettled currentSite result.1

/-- The failure comes late enough: the new site is in the map, or the old one is shut down for good. -/
def LateEnough (currentSite : Option SiteImpl) (point : Point) : Prop :=
  point.swapped = true ∨
    ∀ o, currentSite = some o → o.active = false ∧ (point = .stopped ∨ point.inStart = true)

theorem inStart_of_swapped (h : point.swapped = true) : point.inStart = true := by
  cases point <;> first | rfl | cases h

theorem oldSettled_of_shutDown {o : SiteImpl} (h : s.currentSite = some o.shutDown) :
    OldSettled (some o) s := by
  rintro _ ⟨rfl⟩
  exact ⟨o.shutDown, h, Or.inr rfl⟩

theorem settled_ok : Settled currentSite (run.leftAt currentSite site .finishing, true) := by
  refine ⟨?_, ?_⟩
  · rintro _ ⟨rfl⟩
    rfl
  · cases currentSite with
    | none => rintro _ ⟨⟩
    | some o => exact oldSettled_of_shutDown rfl

/-- With the new site in the map all is settled. -/
theorem settled_swapped (h : point.swapped = true) :
    Settled currentSite (run.failed currentSite site point, false) := by
  have hregistered : (run.failed currentSite site point).registered =
      some ((siteAt site point).setState .inactive) := by
    simp only [Loading.registered, LoaderRun.failed, LoaderRun.leftAt, if_pos h]
    rfl
  refine ⟨?_, ?_⟩
  · intro o ho
    rw [hregistered] at ho
    cases ho
    rfl
  · cases currentSite with
    | none => rintro _ ⟨⟩
    | some o =>
      refine oldSettled_of_shutDown ?_
      exact congrArg some (currentAt_of_inStart (inStart_of_swapped h))

/-- Before, the state of the old site decides. -/
theorem settled_before {o : SiteImpl} (h : point.swapped = false) :
    Settled (some o) (run.failed (some o) site point, false) ↔
      (run.currentAt o point).state = .inactive ∧
        (run.currentAt o point = o ∧ o.state = .started ∨
          (run.currentAt o point).shutdowns = o.shutdowns + 1) := by
  have hregistered : (run.failed (some o) site point).registered = some (run.currentAt o point) := by
    simp only [Loading.registered, LoaderRun.failed, LoaderRun.leftAt, h]
    rfl
  constructor
  · rintro ⟨hstate, hold⟩
    obtain ⟨_, ⟨rfl⟩, hold⟩ := hold o rfl
    exact ⟨hstate _ hregistered, hold⟩
  · rintro ⟨hstate, hold⟩
    refine ⟨fun o' ho' => ?_, ?_⟩
    · rw [hregistered] at ho'
      cases ho'
      exact hstate
    · rintro _ ⟨rfl⟩
      exact ⟨run.currentAt o point, rfl, hold⟩

theorem lateEnough_before {o : SiteImpl} (h : point.swapped = false) :
    LateEnough (some o) point ↔ o.active = false ∧ (point = .stopped ∨ point.inStart = true) := by
  simp [LateEnough, h]

/-- A site that was shut down is inactive if it should be. -/
theorem settled_of_shutDown (o : SiteImpl) :
    (o.shutDown.state = .inactive ∧
        (o.shutDown = o ∧ o.state = .started ∨ o.shutDown.shutdowns = o.shutdowns + 1)) ↔
      o.active = false := by
  have honce : o.shutDown.shutdowns = o.shutdowns + 1 := rfl
  rw [and_iff_left (Or.inr honce)]
  cases hactive : o.active <;> simp [SiteImpl.shutDown, hactive]

/-- A site that runs is not inactive. -/
theorem not_settled_of_same (o : SiteImpl) :
    ¬ (o.state = .inactive ∧ (o = o ∧ o.state = .started ∨ o.shutdowns = o.shutdowns + 1)) := by
  rintro ⟨hinactive, ⟨-, hstarted⟩ | hmore⟩
  · rw [hinactive] at hstarted
    cases hstarted
  · omega

theorem settled_error (run : LoaderRun) (site : SiteImpl) :
    Settled currentSite (run.failed currentSite site point, false) ↔ LateEnough currentSite point := by
  cases hswapped : point.swapped with
  | true => exact iff_of_true (settled_swapped hswapped) (Or.inl hswapped)
  | false =>
    cases currentSite with
    | none =>
      refine iff_of_true ⟨?_, ?_⟩ (Or.inr (by rintro _ ⟨⟩))
      · intro o ho
        simp [Loading.registered, LoaderRun.failed, LoaderRun.leftAt, hswapped] at ho
      · rintro _ ⟨⟩
    | some o =>
      rw [settled_before hswapped, lateEnough_before hswapped]
      have hearly : point ≠ .stopped → point.inStart = false →
          ¬ (o.active = false ∧ (point = .stopped ∨ point.inStart = true)) := by
        rintro hstopped hstart ⟨-, heq | heq⟩
        · exact hstopped heq
        · rw [hstart] at heq
          cases heq
      cases point with
      | setup => exact iff_of_false (not_settled_of_same o) (hearly (by decide) rfl)
      | suspended => exact iff_of_false (by rintro ⟨⟨⟩, -⟩) (hearly (by decide) rfl)
      | waiting =>
        refine iff_of_false ?_ (hearly (by decide) rfl)
        simp only [LoaderRun.currentAt]
        split
        · rintro ⟨⟨⟩, -⟩
        · exact not_settled_of_same o
      | stopping => exact iff_of_false (by rintro ⟨⟨⟩, -⟩) (hearly (by decide) rfl)
      | stopped => exact (settled_of_shutDown o).trans (and_iff_left (Or.inl rfl)).symm
      | preparing => exact (settled_of_shutDown o).trans (and_iff_left (Or.inr rfl)).symm
      | starting => exact (settled_of_shutDown o).trans (and_iff_left (Or.inr rfl)).symm
      | _ => cases hswapped

/-- The loader fails at one point only. -/
theorem failsAt_iff {P : Point → Prop} (hpoint : run.failsAt = some point)
    (h : run.Reaches currentSite point) :
    (∀ p, run.failsAt = some p → run.Reaches currentSite p → P p) ↔ P point := by
  constructor
  · intro hall
    exact hall point hpoint h
  · rintro hp q hq -
    rw [hpoint] at hq
    cases hq
    exact hp

theorem settled_iff (run : LoaderRun) (currentSite : Option SiteImpl) (site : SiteImpl) :
    Settled currentSite (siteLoader run (initial currentSite site)) ↔
      ∀ point, run.failsAt = some point → run.Reaches currentSite point →
        LateEnough currentSite point := by
  rcases siteLoader_cases run currentSite site with ⟨hnone, hresult⟩ | ⟨p, hpoint, hreached, hresult⟩
  · rw [hresult]
    exact iff_of_true settled_ok fun p hpoint hreached => absurd hreached (hnone p hpoint)
  · rw [hresult, settled_error, failsAt_iff hpoint hreached]

/-- Or the failure comes so early that the old site is registered, runs and was left alone. -/
def Kept (currentSite : Option SiteImpl) (result : Loading × Bool) : Prop :=
  Settled currentSite result ∨
    ∃ o, currentSite = some o ∧ o.state = .started ∧ result.1.registered = some o ∧
      result.1.currentSite = some o

def EarlyEnough (run : LoaderRun) (currentSite : Option SiteImpl) (point : Point) : Prop :=
  (∃ o, currentSite = some o ∧ o.state = .started) ∧
    (point = .setup ∨ point = .waiting ∧ ¬ run.Suspends)

/-- At other points the old site was changed. -/
theorem currentAt_eq_iff {o : SiteImpl} (h : o.state = .started) :
    run.currentAt o point = o ↔ point = .setup ∨ point = .waiting ∧ ¬ run.Suspends := by
  have hstate : ∀ state, state ≠ .started → o.setState state ≠ o := by
    intro state hne heq
    exact hne ((congrArg SiteImpl.state heq).trans h)
  have hshutDown : o.shutDown ≠ o := by
    intro heq
    have hmore : o.shutdowns + 1 = o.shutdowns := congrArg SiteImpl.shutdowns heq
    omega
  cases point with
  | setup => simp [LoaderRun.currentAt]
  | waiting =>
    by_cases hsuspends : run.Suspends
    · simp [LoaderRun.currentAt, hsuspends, hstate .suspended (by decide)]
    · simp [LoaderRun.currentAt, hsuspends]
  | suspended => simp [LoaderRun.currentAt, hstate .suspended (by decide)]
  | stopping => simp [LoaderRun.currentAt, hstate .stopping (by decide)]
  | _ => simp [LoaderRun.currentAt, hshutDown]

theorem kept_error (run : LoaderRun) (site : SiteImpl) :
    Kept currentSite (run.failed currentSite site point, false) ↔
      LateEnough currentSite point ∨ EarlyEnough run currentSite point := by
  unfold Kept
  rw [settled_error]
  refine or_congr_right ?_
  constructor
  · rintro ⟨o, rfl, hstarted, -, hcurrent⟩
    exact ⟨⟨o, rfl, hstarted⟩, (currentAt_eq_iff hstarted).mp (Option.some.inj hcurrent)⟩
  · rintro ⟨⟨o, rfl, hstarted⟩, hpoint⟩
    have hcurrent : run.currentAt o point = o := (currentAt_eq_iff hstarted).mpr hpoint
    refine ⟨o, rfl, hstarted, ?_, congrArg some hcurrent⟩
    have hswapped : point.swapped = false := by
      rcases hpoint with rfl | ⟨rfl, -⟩ <;> rfl
    simp [Loading.registered, LoaderRun.failed, LoaderRun.leftAt, hswapped, hcurrent]

theorem kept_iff (run : LoaderRun) (currentSite : Option SiteImpl) (site : SiteImpl) :
    Kept currentSite (siteLoader run (initial currentSite site)) ↔
      ∀ point, run.failsAt = some point → run.Reaches currentSite point →
        LateEnough currentSite point ∨ EarlyEnough run currentSite point := by
  rcases siteLoader_cases run currentSite site with ⟨hnone, hresult⟩ | ⟨p, hpoint, hreached, hresult⟩
  · rw [hresult]
    exact iff_of_true (Or.inl settled_ok) fun p hpoint hreached => absurd hreached (hnone p hpoint)
  · rw [hresult, kept_error, failsAt_iff hpoint hreached]

section Example

/-- In a cluster, the thread is interrupted while the site is suspended. -/
def interrupted : LoaderRun := ⟨2, 5, some .suspended⟩

def running : SiteImpl := ⟨.started, true, 0⟩

def read : SiteImpl := ⟨.stopped, true, 0⟩

/-- The site stays suspended, and it is neither untouched nor shut down. -/
theorem stays_suspended :
    (siteLoader interrupted (initial (some running) read)).1.registered = some ⟨.suspended, true, 0⟩ ∧
      ¬ OldSettled (some running) (siteLoader interrupted (initial (some running) read)).1 ∧
      ¬ Settled (some running) (siteLoader interrupted (initial (some running) read)) := by
  have hregistered : (siteLoader interrupted (initial (some running) read)).1.registered =
      some ⟨.suspended, true, 0⟩ := rfl
  refine ⟨hregistered, fun h => ?_, fun h => ?_⟩
  · obtain ⟨_, ⟨rfl⟩, ⟨⟨⟩, -⟩ | ⟨⟨⟩⟩⟩ := h running rfl
  · cases h.1 _ hregistered

end Example

end Sites
end AppNG
