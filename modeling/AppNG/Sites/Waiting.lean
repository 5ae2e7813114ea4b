import AppNG.Lib.JavaInt
import AppNG.Lib.While
import AppNG.Messaging.ClusterState
import Mathlib.Data.Nat.Find
import Mathlib.Tactic.Linarith
import Mathlib.Tactic.Ring

/-!
# Sites.Waiting

The two loops that wait for a site: `RequestUtil.waitForSite`, until it is started, and
`CoreService.shutdownSite`, until its requests are done. Both sleep for a while and add the time to
what they have waited.

An interrupt ends the sleep and is set again, so that every later sleep ends at once and adds nothing.
A sleep of no time adds nothing either. `TimeUnit.sleep` returns if the time is negative,
`Thread.sleep` throws.

* `loop_ends_iff`: when a loop ends in time, for any way to sleep and to count.
* `waits_bounded_iff`: the same for the two loops.
-/

namespace AppNG
namespace Sites

open Messaging (SiteState)
open While

/-- The two properties, as an `int` each. -/
structure WaitConfig where
  waitTime : Int
  maxWaitTime : Int
  waitTime_int : -2147483648 ≤ waitTime ∧ waitTime ≤ Java.maxInt
  maxWaitTime_int : -2147483648 ≤ maxWaitTime ∧ maxWaitTime ≤ Java.maxInt

/-- The iterations there should be at most: a site that is never ready is waited for `maxWaitTime`. -/
def WaitConfig.limit (c : WaitConfig) : Nat := c.maxWaitTime.toNat / c.waitTime.toNat + 1

inductive Sleep where
  | slept
  | interrupted
  | illegalArgument
  deriving DecidableEq, Repr

/-- `Thread.sleep`, for a thread that is or becomes interrupted or not. -/
def threadSleep (millis : Int) (interrupted : Bool) : Sleep :=
  if millis < 0 then .illegalArgument
  else if interrupted then .interrupted
  else .slept

/-- `TimeUnit.MILLISECONDS.sleep` -/
def timeUnitSleep (timeout : Int) (interrupted : Bool) : Sleep :=
  if 0 < timeout then threadSleep timeout interrupted else .slept

structure Waiting where
  iteration : Nat
  waited : Int
  interrupted : Bool
  deriving DecidableEq, Repr

def Waiting.start : Waiting := ⟨0, 0, false⟩

/-- The body of both loops. The handler sets the flag again that the exception has cleared. -/
def waitBody (sleep : Int → Bool → Sleep) (count : Int → Int) (waitTime : Int)
    (interrupts : Nat → Bool) (s : Waiting) : Option Waiting :=
  let interrupted := s.interrupted || interrupts s.iteration
  match sleep waitTime interrupted with
  | .slept => some ⟨s.iteration + 1, count (s.waited + waitTime), interrupted⟩
  | .interrupted => some ⟨s.iteration + 1, s.waited, true⟩
  | .illegalArgument => none

/-- The value of a `long`. -/
def wrapLong (n : Int) : Int := (n + 2 ^ 63) % 2 ^ 64 - 2 ^ 63

/-- The iterations of `waitForSite`: `first` is the site before the loop, `sites` are those at the
checks of its condition. -/
def WaitForSite (c : WaitConfig) (first : Option SiteState) (sites : Nat → Option SiteState)
    (interrupts : Nat → Bool) (n : Nat) : Prop :=
  match first with
  | none => n = 0
  | some state =>
    if state ∈ [SiteState.started, .suspended, .inactive, .deleted] then n = 0
    else
      Ends
        (fun s => match sites s.iteration with
          | none => false
          | some state => decide (s.waited < c.maxWaitTime) && state != .started)
        (waitBody timeUnitSleep wrapLong c.waitTime interrupts) .start n

/-- The iterations of `shutdownSite`: `waits` if the site is registered and `waitOnSiteShutdown` is
set, `ownRequest` if it is shut down by a request of its own. -/
def ShutdownSite (c : WaitConfig) (waits ownRequest : Bool) (requests : Nat → Int)
    (interrupts : Nat → Bool) (n : Nat) : Prop :=
  if waits then
    let requestLimit : Int := if ownRequest then 1 else 0
    Ends (fun s => decide (s.waited < c.maxWaitTime) && decide (requestLimit < requests s.iteration))
      (waitBody threadSleep Java.wrap c.waitTime interrupts) .start n
  else n = 0

/-! ## One loop -/

/-- Up to `maxWaitTime` no sleep is interrupted and no sum is beyond what the counter holds. -/
def Undisturbed (c : WaitConfig) (interrupts : Nat → Bool) (bound : Int) : Prop :=
  0 < c.waitTime ∧ ∀ i : Nat, i * c.waitTime < c.maxWaitTime →
    interrupts i = false ∧ (i + 1) * c.waitTime ≤ bound

section Loop

variable {c : WaitConfig} {interrupts : Nat → Bool} {sleep : Int → Bool → Sleep}
  {count : Int → Int} {bound : Int}

/-- What the body does where the sleep does not throw. -/
def next (sleep : Int → Bool → Sleep) (count : Int → Int) (waitTime : Int)
    (interrupts : Nat → Bool) (s : Waiting) : Waiting :=
  let interrupted := s.interrupted || interrupts s.iteration
  if sleep waitTime interrupted = .slept then
    ⟨s.iteration + 1, count (s.waited + waitTime), interrupted⟩
  else ⟨s.iteration + 1, s.waited, true⟩

def stateAt (sleep : Int → Bool → Sleep) (count : Int → Int) (waitTime : Int)
    (interrupts : Nat → Bool) : Nat → Waiting
  | 0 => .start
  | k + 1 => next sleep count waitTime interrupts (stateAt sleep count waitTime interrupts k)

theorem waitBody_eq {waitTime : Int} (h : ∀ flag, sleep waitTime flag ≠ .illegalArgument)
    (s : Waiting) :
    waitBody sleep count waitTime interrupts s = some (next sleep count waitTime interrupts s) := by
  have hflag := h (s.interrupted || interrupts s.iteration)
  cases hsleep : sleep waitTime (s.interrupted || interrupts s.iteration) with
  | slept => simp [waitBody, next, hsleep]
  | interrupted => simp [waitBody, next, hsleep]
  | illegalArgument => exact absurd hsleep hflag

theorem waitBody_stateAt {waitTime : Int} (h : ∀ flag, sleep waitTime flag ≠ .illegalArgument)
    (k : Nat) : waitBody sleep count waitTime interrupts (stateAt sleep count waitTime interrupts k) =
      some (stateAt sleep count waitTime interrupts (k + 1)) := waitBody_eq h _

theorem iteration_stateAt {waitTime : Int} (k : Nat) :
    (stateAt sleep count waitTime interrupts k).iteration = k := by
  induction k with
  | zero => rfl
  | succ k ih =>
    rw [stateAt, next]
    split <;> exact congrArg (· + 1) ih

/-- The first sleep that is interrupted or too much for the counter. -/
theorem exists_first_disturbed (hpos : 0 < c.waitTime) (h : ¬ Undisturbed c interrupts bound) :
    ∃ i : Nat, i * c.waitTime < c.maxWaitTime ∧
      ¬ (interrupts i = false ∧ (i + 1) * c.waitTime ≤ bound) ∧
      ∀ j, j < i → interrupts j = false ∧ (j + 1) * c.waitTime ≤ bound := by
  classical
  have hexists : ∃ i : Nat, i * c.waitTime < c.maxWaitTime ∧
      ¬ (interrupts i = false ∧ (i + 1) * c.waitTime ≤ bound) := by
    by_contra hnone
    exact h ⟨hpos, fun i hi => by_contra fun hok => hnone ⟨i, hi, hok⟩⟩
  obtain ⟨hlt, hdisturbed⟩ := Nat.find_spec hexists
  refine ⟨Nat.find hexists, hlt, hdisturbed, fun j hj => ?_⟩
  have hbefore : (j : Int) * c.waitTime ≤ Nat.find hexists * c.waitTime := by gcongr
  by_contra hok
  exact Nat.find_min hexists hj ⟨lt_of_le_of_lt hbefore hlt, hok⟩

/-- The number of sleeps that are enough. -/
theorem exists_sleeps {t e : Nat} (he : 0 < e) :
    ∃ k, k ≤ t / e + 1 ∧ t ≤ k * e ∧ ∀ i, i < k → i * e < t := by
  have henough : t ≤ (t / e + 1) * e := by
    have hdiv := Nat.div_add_mod t e
    have hmod := Nat.mod_lt t he
    rw [Nat.add_mul, Nat.one_mul, Nat.mul_comm (t / e)]
    omega
  have hexists : ∃ k, t ≤ k * e := ⟨_, henough⟩
  exact ⟨Nat.find hexists, Nat.find_min' hexists henough, Nat.find_spec hexists,
    fun i hi => Nat.not_le.mp (Nat.find_min hexists hi)⟩

section Undisturbed

variable (hsleep : ∀ flag, sleep c.waitTime flag = if flag then .interrupted else .slept)
include hsleep

theorem stateAt_undisturbed (hcount : ∀ n, 0 ≤ n → n ≤ bound → count n = n) (hpos : 0 < c.waitTime) :
    ∀ {k : Nat}, (∀ i, i < k → interrupts i = false ∧ (i + 1) * c.waitTime ≤ bound) →
      stateAt sleep count c.waitTime interrupts k = ⟨k, k * c.waitTime, false⟩ := by
  intro k
  induction k with
  | zero => intro _; simp [stateAt, Waiting.start]
  | succ k ih =>
    intro h
    obtain ⟨hinterrupt, hbound⟩ := h k (Nat.lt_succ_self k)
    have hsum : (k : Int) * c.waitTime + c.waitTime = (k + 1) * c.waitTime := by
      rw [Int.add_mul, Int.one_mul]
    have hnonneg : 0 ≤ ((k : Int) + 1) * c.waitTime := Int.mul_nonneg (by omega) (by omega)
    rw [stateAt, ih fun i hi => h i (Nat.lt_succ_of_lt hi), next]
    simp only [hinterrupt, hsleep, Bool.or_self, Bool.false_eq_true, if_false, if_true]
    rw [hsum, hcount _ hnonneg hbound, Int.natCast_succ]

theorem next_interrupted {s : Waiting} (h : (s.interrupted || interrupts s.iteration) = true) :
    next sleep count c.waitTime interrupts s = ⟨s.iteration + 1, s.waited, true⟩ := by
  simp [next, hsleep, h]

/-- An interrupt is never forgotten. -/
theorem stateAt_interrupted {i : Nat} {s : Waiting}
    (hs : stateAt sleep count c.waitTime interrupts i = s) (hi : interrupts i = true) :
    ∀ d, stateAt sleep count c.waitTime interrupts (i + d + 1) = ⟨i + d + 1, s.waited, true⟩ := by
  intro d
  induction d with
  | zero =>
    have hiteration : s.iteration = i := by rw [← hs, iteration_stateAt]
    rw [Nat.add_zero, stateAt, hs, next_interrupted hsleep, hiteration]
    rw [hiteration, hi, Bool.or_true]
  | succ d ih =>
    rw [stateAt, ← Nat.add_assoc, ih, next_interrupted hsleep]
    rfl

/-- After it the loop goes on, though it should not. -/
theorem waited_disturbed (hpos : 0 < c.waitTime) (hcount : ∀ n, 0 ≤ n → n ≤ bound → count n = n)
    (hover : ∀ n, bound < n → n ≤ 2 * Java.maxInt → count n < 0) (hbound : Java.maxInt ≤ bound)
    (hmax : 0 < c.maxWaitTime) (h : ¬ Undisturbed c interrupts bound) :
    ∀ k, k ≤ c.limit → (stateAt sleep count c.waitTime interrupts k).waited < c.maxWaitTime := by
  obtain ⟨i, hlt, hdisturbed, hbefore⟩ := exists_first_disturbed hpos h
  have hstate : stateAt sleep count c.waitTime interrupts i = ⟨i, i * c.waitTime, false⟩ :=
    stateAt_undisturbed hsleep hcount hpos hbefore
  intro k hk
  rcases Nat.lt_or_ge i k with hik | hki
  · obtain ⟨d, rfl⟩ := Nat.exists_eq_add_of_lt hik
    cases hinterrupt : interrupts i with
    | true =>
      rw [stateAt_interrupted hsleep hstate hinterrupt d]
      exact hlt
    | false =>
      have hsum : (i : Int) * c.waitTime + c.waitTime = (i + 1) * c.waitTime := by ring
      have hlarge : bound < (i + 1) * c.waitTime := by
        by_contra hsmall
        exact hdisturbed ⟨hinterrupt, Int.not_lt.mp hsmall⟩
      have hlimit : c.limit ≤ i + 1 := by
        have hnat : c.maxWaitTime.toNat < c.waitTime.toNat * (i + 1) := by
          have hmaxInt := c.maxWaitTime_int.2
          zify
          rw [Int.toNat_of_nonneg (by omega), Int.toNat_of_nonneg (by omega)]
          linarith
        have hdiv := Nat.div_lt_of_lt_mul hnat
        unfold WaitConfig.limit
        omega
      obtain rfl : d = 0 := by omega
      have hnegative : count ((i + 1) * c.waitTime) < 0 := by
        have hwait := c.waitTime_int.2
        have hmaxWait := c.maxWaitTime_int.2
        exact hover _ hlarge (by linarith)
      rw [Nat.add_zero, stateAt, hstate, next]
      simp only [hinterrupt, hsleep, Bool.or_self, Bool.false_eq_true, if_false, if_true]
      rw [hsum]
      omega
  · have hstate := stateAt_undisturbed hsleep hcount hpos (k := k) fun j hj =>
      hbefore j (Nat.lt_of_lt_of_le hj hki)
    have hle : (k : Int) * c.waitTime ≤ i * c.waitTime := by gcongr
    rw [hstate]
    exact lt_of_le_of_lt hle hlt

/-- Without a disturbance the time is up within the limit. -/
theorem exists_waited (hcount : ∀ n, 0 ≤ n → n ≤ bound → count n = n)
    (h : Undisturbed c interrupts bound) :
    ∃ k, k ≤ c.limit ∧ c.maxWaitTime ≤ (stateAt sleep count c.waitTime interrupts k).waited := by
  obtain ⟨hpos, hundisturbed⟩ := h
  obtain ⟨k, hk, henough, hbefore⟩ := exists_sleeps (t := c.maxWaitTime.toNat)
    (e := c.waitTime.toNat) (by omega)
  have hwait : (c.waitTime.toNat : Int) = c.waitTime := Int.toNat_of_nonneg (Int.le_of_lt hpos)
  refine ⟨k, hk, ?_⟩
  have hall : ∀ i, i < k → interrupts i = false ∧ (i + 1) * c.waitTime ≤ bound := by
    intro i hi
    refine hundisturbed i ?_
    have hlt : ((i * c.waitTime.toNat : Nat) : Int) < c.maxWaitTime.toNat :=
      Int.ofNat_lt.mpr (hbefore i hi)
    have hnonneg : 0 ≤ (i : Int) * c.waitTime := Int.mul_nonneg (by omega) (by omega)
    rw [Int.natCast_mul, hwait] at hlt
    omega
  rw [stateAt_undisturbed hsleep hcount hpos hall]
  have henough : (c.maxWaitTime.toNat : Int) ≤ (k * c.waitTime.toNat : Nat) := Int.ofNat_le.mpr henough
  rw [Int.natCast_mul, hwait] at henough
  exact Int.le_trans (Int.self_le_toNat _) henough

end Undisturbed

/-- A loop that sleeps for no time has waited for none. -/
theorem waited_without_time (hneg : count c.waitTime ≤ 0) {k : Nat} (hk : k ≤ 1) :
    (stateAt sleep count c.waitTime interrupts k).waited ≤ 0 := by
  have hstart : (stateAt sleep count c.waitTime interrupts 0).waited = 0 := rfl
  obtain rfl | rfl := Nat.le_one_iff_eq_zero_or_eq_one.mp hk
  · exact Int.le_of_eq hstart
  · rw [stateAt, next]
    split
    · simpa [hstart] using hneg
    · exact Int.le_of_eq hstart

/-- What there is to know of a way to sleep and to count. -/
structure Counts (c : WaitConfig) (sleep : Int → Bool → Sleep) (count : Int → Int) (bound : Int) :
    Prop where
  not_throws : ∀ flag, sleep c.waitTime flag ≠ .illegalArgument
  sleeps : 0 < c.waitTime →
    ∀ flag, sleep c.waitTime flag = if flag then .interrupted else .slept
  exact_upto : ∀ n, 0 ≤ n → n ≤ bound → count n = n
  nonpos : c.waitTime ≤ 0 → count c.waitTime ≤ 0
  wraps : ∀ n, bound < n → n ≤ 2 * Java.maxInt → count n < 0
  le_bound : Java.maxInt ≤ bound

/-- The loop ends within the limit if and only if what it waits for is seen by then, or nothing
disturbs it. -/
theorem loop_ends_iff (continues : Nat → Bool) (h : Counts c sleep count bound) :
    (∃ n, n ≤ c.limit ∧
      Ends (fun s => decide (s.waited < c.maxWaitTime) && continues s.iteration)
        (waitBody sleep count c.waitTime interrupts) .start n) ↔
      (∃ k, k ≤ c.limit ∧ continues k = false) ∨ c.maxWaitTime ≤ 0 ∨
        Undisturbed c interrupts bound := by
  refine (ends_le_iff (waitBody_stateAt h.not_throws)).trans ?_
  simp only [Bool.and_eq_false_iff, decide_eq_false_iff_not, Int.not_lt, iteration_stateAt]
  constructor
  · rintro ⟨k, hk, htime | hstop⟩
    · right
      by_contra hnot
      obtain ⟨hmax, hdisturbed⟩ := not_or.mp hnot
      have hmax := Int.not_le.mp hmax
      rcases lt_or_ge 0 c.waitTime with hpos | hnonpos
      · have hlt := waited_disturbed (h.sleeps hpos) hpos h.exact_upto h.wraps h.le_bound hmax
          hdisturbed k hk
        omega
      · have hlimit : c.limit = 1 := by
          unfold WaitConfig.limit
          rw [Int.toNat_of_nonpos hnonpos, Nat.div_zero]
        have hle : (stateAt sleep count c.waitTime interrupts k).waited ≤ 0 :=
          waited_without_time (h.nonpos hnonpos) (hlimit ▸ hk)
        omega
    · exact .inl ⟨k, hk, hstop⟩
  · rintro (⟨k, hk, hstop⟩ | hmax | hundisturbed)
    · exact ⟨k, hk, .inr hstop⟩
    · exact ⟨0, Nat.zero_le _, .inl hmax⟩
    · obtain ⟨k, hk, htime⟩ := exists_waited (h.sleeps hundisturbed.1) h.exact_upto hundisturbed
      exact ⟨k, hk, .inl htime⟩

end Loop

/-! ## Both loops -/

/-- The site is in no state that is waited for. -/
def ReturnsAtOnce (first : Option SiteState) : Prop :=
  ∀ state, first = some state → state ∈ [SiteState.started, .suspended, .inactive, .deleted]

section Loops

variable {c : WaitConfig} {first : Option SiteState} {sites : Nat → Option SiteState}
  {interrupts : Nat → Bool} {ownRequest : Bool} {requests : Nat → Int}

theorem waitForSite_loop {state : SiteState}
    (h : state ∉ [SiteState.started, .suspended, .inactive, .deleted]) {n : Nat} :
    WaitForSite c (some state) sites interrupts n ↔
      Ends (fun s => decide (s.waited < c.maxWaitTime) &&
          (sites s.iteration != none && sites s.iteration != some .started))
        (waitBody timeUnitSleep wrapLong c.waitTime interrupts) .start n := by
  have hcond : (fun s : Waiting => match sites s.iteration with
      | none => false
      | some state => decide (s.waited < c.maxWaitTime) && state != .started) =
      fun s => decide (s.waited < c.maxWaitTime) &&
        (sites s.iteration != none && sites s.iteration != some .started) := by
    funext s
    cases hsite : sites s.iteration with
    | none => simp
    | some state => cases state <;> rfl
  unfold WaitForSite
  simp only [if_neg h, hcond]

theorem wrapLong_of_range {n : Int} (h₁ : -(2 ^ 63) ≤ n) (h₂ : n ≤ 2 ^ 63 - 1) :
    wrapLong n = n := by
  unfold wrapLong
  omega

theorem counts_long : Counts c timeUnitSleep wrapLong (2 ^ 63 - 1) := by
  have hwait := c.waitTime_int
  unfold Java.maxInt at hwait
  refine ⟨fun flag => ?_, fun hpos flag => ?_, fun n h₁ h₂ => ?_, fun hnonpos => ?_,
    fun n h₁ h₂ => ?_, by decide⟩
  · unfold timeUnitSleep threadSleep
    split
    · rw [if_neg (by omega)]
      cases flag <;> decide
    · decide
  · unfold timeUnitSleep threadSleep
    rw [if_pos hpos, if_neg (by omega)]
  · exact wrapLong_of_range (by omega) h₂
  · rw [wrapLong_of_range (by omega) (by omega)]
    exact hnonpos
  · unfold Java.maxInt at h₂
    omega

theorem counts_int (h : 0 ≤ c.waitTime) : Counts c threadSleep Java.wrap Java.maxInt := by
  refine ⟨fun flag => ?_, fun hpos flag => ?_, fun n h₁ h₂ => ?_, fun hnonpos => ?_,
    fun n h₁ h₂ => ?_, Int.le_refl _⟩
  · unfold threadSleep
    rw [if_neg (by omega)]
    cases flag <;> decide
  · unfold threadSleep
    rw [if_neg (by omega)]
  · exact Java.wrap_of_range (by omega) h₂
  · obtain hzero : c.waitTime = 0 := by omega
    rw [hzero, Java.wrap_zero]
  · unfold Java.maxInt at h₁ h₂
    unfold Java.wrap
    omega

/-- A `long` holds whatever is waited. -/
theorem undisturbed_long : Undisturbed c interrupts (2 ^ 63 - 1) ↔
    0 < c.waitTime ∧ ∀ i : Nat, i * c.waitTime < c.maxWaitTime → interrupts i = false := by
  have hwait := c.waitTime_int.2
  have hmax := c.maxWaitTime_int.2
  unfold Java.maxInt at hwait hmax
  refine and_congr_right fun _ => forall_congr' fun i => imp_congr_right fun hi => ?_
  have hsum : ((i : Int) + 1) * c.waitTime = i * c.waitTime + c.waitTime := by ring
  exact and_iff_left (by omega)

theorem waitForSite_iff : (∃ n, n ≤ c.limit ∧ WaitForSite c first sites interrupts n) ↔
    ReturnsAtOnce first ∨
      (∃ k, k ≤ c.limit ∧ (sites k = none ∨ sites k = some .started)) ∨ c.maxWaitTime ≤ 0 ∨
        0 < c.waitTime ∧ ∀ i : Nat, i * c.waitTime < c.maxWaitTime → interrupts i = false := by
  cases first with
  | none => exact iff_of_true ⟨0, Nat.zero_le _, rfl⟩ (.inl fun state h => by cases h)
  | some state =>
    by_cases h : state ∈ [SiteState.started, .suspended, .inactive, .deleted]
    · have hreturns : WaitForSite c (some state) sites interrupts 0 := by
        unfold WaitForSite
        simp only [if_pos h]
      exact iff_of_true ⟨0, Nat.zero_le _, hreturns⟩ (.inl fun _ hstate => by cases hstate; exact h)
    · have hwaits : ¬ ReturnsAtOnce (some state) := fun hreturns => h (hreturns state rfl)
      rw [or_iff_right hwaits, ← undisturbed_long]
      simp only [waitForSite_loop h]
      refine (loop_ends_iff (fun k => sites k != none && sites k != some .started)
        counts_long).trans ?_
      simp [or_iff_not_imp_left]

/-- The first sleep throws, if there is one. -/
theorem shutdownSite_throws (hneg : c.waitTime < 0) :
    ∃ n, n ≤ c.limit ∧ ShutdownSite c true ownRequest requests interrupts n := by
  have hone : 1 ≤ c.limit := Nat.succ_le_succ (Nat.zero_le _)
  have hsleep : ∀ flag, threadSleep c.waitTime flag = .illegalArgument := fun flag => if_pos hneg
  have hbody : waitBody threadSleep Java.wrap c.waitTime interrupts .start = none := by
    simp [waitBody, hsleep]
  unfold ShutdownSite
  simp only [if_true]
  generalize hcond : (fun s : Waiting => decide (s.waited < c.maxWaitTime) &&
    decide ((if ownRequest = true then 1 else 0) < requests s.iteration)) = cond
  cases hstart : cond .start with
  | false => exact ⟨0, Nat.zero_le _, .stopped hstart⟩
  | true => exact ⟨1, hone, .threw hstart hbody⟩

theorem shutdownSite_iff {waits : Bool} :
    (∃ n, n ≤ c.limit ∧ ShutdownSite c waits ownRequest requests interrupts n) ↔
      waits = false ∨ (∃ k, k ≤ c.limit ∧ requests k ≤ if ownRequest then 1 else 0) ∨
        c.maxWaitTime ≤ 0 ∨ c.waitTime < 0 ∨ Undisturbed c interrupts Java.maxInt := by
  cases waits with
  | false => exact iff_of_true ⟨0, Nat.zero_le _, rfl⟩ (.inl rfl)
  | true =>
    have hwaits : ¬ true = false := Bool.noConfusion
    rw [or_iff_right hwaits]
    rcases lt_or_ge c.waitTime 0 with hneg | hnonneg
    · exact iff_of_true (shutdownSite_throws hneg) (.inr (.inr (.inl hneg)))
    · have hnot : ¬ c.waitTime < 0 := Int.not_lt.mpr hnonneg
      rw [or_iff_right hnot]
      refine (loop_ends_iff (fun k => decide ((if ownRequest then 1 else 0) < requests k))
        (counts_int hnonneg)).trans ?_
      simp

end Loops

/-- Both loops end within the limit exactly if what they wait for is seen by then, or the time is
positive and no sleep up to `maxWaitTime` is interrupted. In `shutdownSite` no sum may be beyond an
`int` either, and a negative time throws. -/
theorem waits_bounded_iff (c : WaitConfig) (first : Option SiteState)
    (sites : Nat → Option SiteState) (waits ownRequest : Bool) (requests : Nat → Int)
    (interrupts : Nat → Bool) :
    ((∃ n, n ≤ c.limit ∧ WaitForSite c first sites interrupts n) ↔
      ReturnsAtOnce first ∨
        (∃ k, k ≤ c.limit ∧ (sites k = none ∨ sites k = some .started)) ∨ c.maxWaitTime ≤ 0 ∨
          0 < c.waitTime ∧ ∀ i : Nat, i * c.waitTime < c.maxWaitTime → interrupts i = false) ∧
    ((∃ n, n ≤ c.limit ∧ ShutdownSite c waits ownRequest requests interrupts n) ↔
      waits = false ∨ (∃ k, k ≤ c.limit ∧ requests k ≤ if ownRequest then 1 else 0) ∨
        c.maxWaitTime ≤ 0 ∨ c.waitTime < 0 ∨ Undisturbed c interrupts Java.maxInt) :=
  ⟨waitForSite_iff, shutdownSite_iff⟩

def oneSecond : WaitConfig := ⟨1000, 30000, by decide, by decide⟩

def noTime : WaitConfig := ⟨0, 30000, by decide, by decide⟩

/-- The first sleep is interrupted, and the site never starts; or the time to sleep is zero, and the
request never ends. Neither loop ever ends. -/
theorem waits_forever :
    (¬ ∃ n, WaitForSite oneSecond (some .starting) (fun _ => some .starting) (fun i => i == 0) n) ∧
      ¬ ∃ n, ShutdownSite noTime true false (fun _ => 1) (fun _ => false) n := by
  constructor
  · rintro ⟨n, h⟩
    rw [waitForSite_loop (by decide)] at h
    have hcounts : Counts oneSecond timeUnitSleep wrapLong (2 ^ 63 - 1) := counts_long
    refine not_ends (waitBody_stateAt hcounts.not_throws) (fun k => ?_) n h
    cases k with
    | zero => decide
    | succ k =>
      have hstate : stateAt timeUnitSleep wrapLong oneSecond.waitTime (fun i => i == 0) (0 + k + 1) =
          ⟨0 + k + 1, 0, true⟩ := stateAt_interrupted (hcounts.sleeps (by decide)) rfl rfl k
      rw [Nat.zero_add] at hstate
      rw [hstate]
      rfl
  · rintro ⟨n, h⟩
    have hcounts : Counts noTime threadSleep Java.wrap Java.maxInt := counts_int (by decide)
    have hstate : ∀ k, stateAt threadSleep Java.wrap noTime.waitTime (fun _ => false) k =
        ⟨k, 0, false⟩ := by
      intro k
      induction k with
      | zero => rfl
      | succ k ih => rw [stateAt, ih]; rfl
    refine not_ends (waitBody_stateAt hcounts.not_throws) (fun k => ?_) n h
    rw [hstate]
    rfl

end Sites
end AppNG
