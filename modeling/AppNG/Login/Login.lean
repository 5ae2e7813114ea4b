import AppNG.Lib.JavaInt
import AppNG.Lib.Machine
import AppNG.Login.Subject

/-!
# Login.Login

`CoreService.login` by password, principal and digest, on one stored subject.

All three end in `verifySubject`, which decides by six conditions and changes the subject on most
of its branches.

* `verifySubject_success`: who is let in, and what is left of the failures.
* `login_safe`: over any sequence of attempts, nobody is let in who is locked, expired, inactive or
  has to recover the password; the counter counts; and when it reaches the limit, the subject
  stays out for good.
-/

namespace AppNG
namespace Login

open Machine

structure PlatformConfig where
  maxLoginAttempts : Int
  inactiveLockPeriod : Int
  forceChangePassword : Bool
  maxPasswordValidity : Int
  addDays : Date → Int → Date
  maxLoginAttempts_int : maxLoginAttempts ≤ Java.maxInt

variable {S D : Type}

/-- A password that may be changed has to be, when it is older than the platform allows. -/
def policyAtLogin (cfg : PlatformConfig) (now : Date) (subject : Subject S D) :
    PasswordChangePolicy :=
  match subject.passwordLastChanged with
  | none => subject.passwordChangePolicy
  | some changed =>
    if subject.userType = .localUser ∧ subject.passwordChangePolicy = .may ∧
        cfg.forceChangePassword = true ∧ 0 < cfg.maxPasswordValidity ∧
        cfg.addDays changed cfg.maxPasswordValidity < now then .must
    else subject.passwordChangePolicy

def verifySubject (cfg : PlatformConfig) (now : Date) (precondition : Bool)
    (subject : Subject S D) : Bool × Subject S D :=
  if precondition then
    if subject.locked then (false, subject)
    else if subject.isExpired now then (false, { subject with locked := true })
    else if subject.isInactive cfg.addDays now cfg.inactiveLockPeriod then
      (false, { subject with locked := true })
    else if subject.userType = .localUser ∧ subject.passwordChangePolicy = .mustRecover then
      (false, subject)
    else
      (true, { subject with
        passwordChangePolicy := policyAtLogin cfg now subject
        authenticated := true
        lastLogin := some now
        failedLoginAttempts := 0 })
  else
    let failedLoginAttempts := Java.wrap (subject.failedLoginAttempts + 1)
    (false, { subject with
      authenticated := false
      failedLoginAttempts
      locked := subject.locked || cfg.maxLoginAttempts ≤ failedLoginAttempts })

/-- What becomes of the credentials. `skipped` is an attempt that ends before they are judged: with
an exception, which rolls the transaction back, or with a digest without a user name. -/
inductive Check where
  | passed
  | failed
  | skipped
  deriving DecidableEq, Repr

inductive Attempt where
  /-- The check of the password, by the stored digest or by the directory. -/
  | password (check : Check)
  | principal
  | digest (check : Check)
  deriving DecidableEq, Repr

def credentialCheck (subject : Subject S D) : Attempt → Check
  | .password check =>
    match subject.userType with
    | .localUser | .globalUser => check
    | .globalGroup => .failed
  | .principal => if subject.userType = .globalUser then .passed else .failed
  | .digest check => check

/-- Whether the subject is set in the environment, and the subject as it is stored afterwards. -/
def login (cfg : PlatformConfig) (now : Date) (attempt : Attempt) (subject : Subject S D) :
    Bool × Subject S D :=
  match credentialCheck subject attempt with
  | .passed => verifySubject cfg now true subject
  | .failed => verifySubject cfg now false subject
  | .skipped => (false, subject)

structure LoginEvent where
  now : Date
  attempt : Attempt
  check : Check
  success : Bool
  deriving DecidableEq, Repr

def Step (cfg : PlatformConfig) (s : Subject S D) (e : LoginEvent) (t : Subject S D) : Prop :=
  e.check = credentialCheck s e.attempt ∧ login cfg e.now e.attempt s = (e.success, t)

/-- The failed checks since the last success, `n` before the first event. -/
def failures (n : Nat) (es : List LoginEvent) : Nat :=
  es.foldl (fun n e => if e.success then 0 else if e.check = .failed then n + 1 else n) n

/-! ## One attempt -/

variable {cfg : PlatformConfig} {s t : Subject S D} {e : LoginEvent} {now : Date} {success : Bool}
  {n : Nat}

/-- Nobody who is locked, expired or inactive, or has to recover the password. -/
structure MayLogin (cfg : PlatformConfig) (now : Date) (s : Subject S D) : Prop where
  unlocked : s.locked = false
  unexpired : s.isExpired now = false
  active : s.isInactive cfg.addDays now cfg.inactiveLockPeriod = false
  recovered : ¬ (s.userType = .localUser ∧ s.passwordChangePolicy = .mustRecover)

/-- A subject whose credentials are right is let in, or rejected, and then locked perhaps. -/
theorem verifySubject_passed (h : verifySubject cfg now true s = (success, t)) :
    (success = true ∧ MayLogin cfg now s ∧ t.failedLoginAttempts = 0 ∧ t.locked = s.locked) ∨
      (success = false ∧ (t = s ∨ t = { s with locked := true })) := by
  unfold verifySubject at h
  rw [if_pos rfl] at h
  split at h
  · cases h
    exact .inr ⟨rfl, .inl rfl⟩
  · rename_i hlocked
    split at h
    · cases h
      exact .inr ⟨rfl, .inr rfl⟩
    · rename_i hexpired
      split at h
      · cases h
        exact .inr ⟨rfl, .inr rfl⟩
      · rename_i hinactive
        split at h
        · cases h
          exact .inr ⟨rfl, .inl rfl⟩
        · rename_i hrecover
          have hmay : MayLogin cfg now s :=
            ⟨Bool.not_eq_true _ ▸ hlocked, Bool.not_eq_true _ ▸ hexpired,
              Bool.not_eq_true _ ▸ hinactive, hrecover⟩
          cases h
          exact .inl ⟨rfl, hmay, rfl, rfl⟩

theorem verifySubject_success {precondition : Bool}
    (h : verifySubject cfg now precondition s = (true, t)) :
    MayLogin cfg now s ∧ t.failedLoginAttempts = 0 ∧ t.locked = false := by
  cases precondition with
  | true =>
    obtain ⟨-, hmay, hcounter, hlocked⟩ | ⟨hfalse, -⟩ := verifySubject_passed h
    · exact ⟨hmay, hcounter, hlocked.trans hmay.unlocked⟩
    · cases hfalse
  | false => cases h

theorem verifySubject_rejected (h : verifySubject cfg now true s = (false, t)) :
    t.failedLoginAttempts = s.failedLoginAttempts ∧ (s.locked = true → t.locked = true) := by
  obtain ⟨hfalse, -⟩ | ⟨-, rfl | rfl⟩ := verifySubject_passed h
  · cases hfalse
  · exact ⟨rfl, id⟩
  · exact ⟨rfl, fun _ => rfl⟩

theorem verifySubject_failed :
    (verifySubject cfg now false s).1 = false ∧
      (verifySubject cfg now false s).2.failedLoginAttempts =
        Java.wrap (s.failedLoginAttempts + 1) ∧
      (verifySubject cfg now false s).2.locked =
        (s.locked || decide (cfg.maxLoginAttempts ≤ Java.wrap (s.failedLoginAttempts + 1))) :=
  ⟨rfl, rfl, rfl⟩

/-! ## Sequences of attempts -/

theorem failures_snoc {es : List LoginEvent} :
    failures n (es ++ [e]) =
      if e.success then 0 else if e.check = .failed then failures n es + 1 else failures n es := by
  simp only [failures, List.foldl_append, List.foldl_cons, List.foldl_nil]

/-- The counter counts, and a subject that has reached the limit is locked. -/
structure Consistent (cfg : PlatformConfig) (failed : Nat) (s : Subject S D) : Prop where
  counter : s.failedLoginAttempts = Java.wrap failed
  locked : 1 ≤ cfg.maxLoginAttempts → cfg.maxLoginAttempts ≤ failed → s.locked = true

theorem Step.mayLogin (h : Step cfg s e t) (hsuccess : e.success = true) :
    MayLogin cfg e.now s ∧ t.failedLoginAttempts = 0 ∧ t.locked = false := by
  obtain ⟨-, hlogin⟩ := h
  rw [hsuccess] at hlogin
  unfold login at hlogin
  split at hlogin
  · exact verifySubject_success hlogin
  · exact verifySubject_success hlogin
  · cases hlogin

theorem Step.locked (h : Step cfg s e t) (hlocked : s.locked = true) : t.locked = true := by
  cases hsuccess : e.success with
  | true =>
    have hmay := (h.mayLogin hsuccess).1.unlocked
    rw [hlocked] at hmay
    cases hmay
  | false =>
    obtain ⟨-, hlogin⟩ := h
    rw [hsuccess] at hlogin
    unfold login at hlogin
    split at hlogin
    · exact (verifySubject_rejected hlogin).2 hlocked
    · have ht := congrArg (fun r => r.2.locked) hlogin
      simp only [verifySubject_failed.2.2, hlocked, Bool.true_or] at ht
      exact ht.symm
    · cases hlogin
      exact hlocked

theorem Consistent.failed {k : Nat} (hs : Consistent cfg k s) :
    Consistent cfg (k + 1) (verifySubject cfg now false s).2 := by
  have hcounter : (verifySubject cfg now false s).2.failedLoginAttempts =
      Java.wrap ((k + 1 : Nat) : Int) := by
    rw [verifySubject_failed.2.1, hs.counter, Java.wrap_wrap_add]
    rfl
  refine ⟨hcounter, fun hone hmax => ?_⟩
  rw [verifySubject_failed.2.2]
  by_cases hk : cfg.maxLoginAttempts ≤ k
  · rw [hs.locked hone hk, Bool.true_or]
  · -- the limit is reached by this very failure, long before the counter wraps around
    have heq : ((k + 1 : Nat) : Int) = cfg.maxLoginAttempts := by omega
    have hint := cfg.maxLoginAttempts_int
    have hwrap : Java.wrap (s.failedLoginAttempts + 1) = cfg.maxLoginAttempts := by
      rw [hs.counter, Java.wrap_wrap_add]
      have hadd : (k : Int) + 1 = cfg.maxLoginAttempts := by omega
      rw [hadd]
      exact Java.wrap_of_range (by omega) hint
    rw [hwrap]
    simp

/-- The step lemma. -/
theorem Consistent.step {es : List LoginEvent} (hs : Consistent cfg (failures n es) s)
    (h : Step cfg s e t) : Consistent cfg (failures n (es ++ [e])) t := by
  rw [failures_snoc]
  cases hsuccess : e.success with
  | true =>
    obtain ⟨-, hcounter, -⟩ := h.mayLogin hsuccess
    rw [if_pos rfl]
    refine ⟨hcounter.trans Java.wrap_zero.symm, fun hone hmax => ?_⟩
    have hzero : cfg.maxLoginAttempts ≤ 0 := hmax
    omega
  | false =>
    obtain ⟨hcheck, hlogin⟩ := h
    rw [hsuccess] at hlogin
    unfold login at hlogin
    split at hlogin
    · rename_i hpassed
      obtain ⟨hcounter, hlocked⟩ := verifySubject_rejected hlogin
      have hsame : e.check ≠ .failed := by rw [hcheck, hpassed]; decide
      simp only [Bool.false_eq_true, if_false, if_neg hsame]
      exact ⟨hcounter.trans hs.counter, fun hone hmax => hlocked (hs.locked hone hmax)⟩
    · rename_i hfailed
      have ht : t = (verifySubject cfg e.now false s).2 := (congrArg Prod.snd hlogin).symm
      simp only [Bool.false_eq_true, if_false, hcheck, hfailed, if_true]
      rw [ht]
      exact hs.failed
    · rename_i hskipped
      cases hlogin
      have hsame : e.check ≠ .failed := by rw [hcheck, hskipped]; decide
      simp only [Bool.false_eq_true, if_false, if_neg hsame]
      exact hs

theorem consistent_of_run {es : List LoginEvent} (hs : Consistent cfg n s)
    (h : Run (Step cfg) s es t) : Consistent cfg (failures n es) t :=
  h.inv (P := fun es t => Consistent cfg (failures n es) t) hs fun _ _ _ _ hs hstep =>
    hs.step hstep

theorem locked_stays_out {es : List LoginEvent} (hs : s.locked = true) (h : Run (Step cfg) s es t) :
    ∀ e ∈ es, e.success = false := by
  have hlocked : ∀ {fs : List LoginEvent} {u : Subject S D}, Run (Step cfg) s fs u → u.locked = true :=
    fun h => h.inv (P := fun _ u => u.locked = true) hs fun _ _ _ _ hu hstep => hstep.locked hu
  intro e he
  obtain ⟨pre, u, v, post, -, hpre, hstep⟩ := h.stepped e he
  cases hsuccess : e.success with
  | false => rfl
  | true =>
    have hmay := (hstep.mayLogin hsuccess).1.unlocked
    rw [hlocked hpre] at hmay
    cases hmay

/-- Any sequence of attempts on a subject whose counter and lock are consistent, as they are with a
fresh subject: only who may log in does, the limit locks the subject for good, and the counter is
the number of failed checks since the last success, as far as an `int` can hold it. -/
theorem login_safe {es : List LoginEvent} (hs : Consistent cfg n s) (h : Run (Step cfg) s es t) :
    (∀ e u, Step cfg t e u → e.success = true → MayLogin cfg e.now t) ∧
      (1 ≤ cfg.maxLoginAttempts → cfg.maxLoginAttempts ≤ failures n es →
        t.locked = true ∧
          ∀ fs u, Run (Step cfg) t fs u → ∀ e ∈ fs, e.success = false) ∧
      t.failedLoginAttempts = Java.wrap (failures n es) := by
  have ht : Consistent cfg (failures n es) t := consistent_of_run hs h
  refine ⟨fun e u hstep hsuccess => (hstep.mayLogin hsuccess).1, fun hone hmax => ?_, ht.counter⟩
  have hlocked : t.locked = true := ht.locked hone hmax
  exact ⟨hlocked, fun fs u hfs => locked_stays_out hlocked hfs⟩

/-! ## A fresh subject -/

def sampleConfig : PlatformConfig where
  maxLoginAttempts := 2
  inactiveLockPeriod := 90
  forceChangePassword := false
  maxPasswordValidity := -1
  addDays date days := date + 86400000 * days
  maxLoginAttempts_int := by decide

def freshSubject : Subject Nat Nat where
  userType := .localUser
  email := some "anna@example.org"
  digest := some 0
  salt := none
  authenticated := false
  lastLogin := none
  passwordLastChanged := none
  locked := false
  passwordChangePolicy := .may
  failedLoginAttempts := 0
  expiryDate := none

def wrongPassword : LoginEvent := ⟨0, .password .failed, .failed, false⟩

theorem freshSubject_consistent : Consistent sampleConfig 0 freshSubject :=
  ⟨rfl, fun _ h => absurd h (by decide)⟩

theorem two_failures_lock :
    ({ freshSubject with failedLoginAttempts := 2, locked := true } : Subject Nat Nat).locked = true ∧
      ∀ fs u, Run (Step sampleConfig)
          { freshSubject with failedLoginAttempts := 2, locked := true } fs u →
        ∀ e ∈ fs, e.success = false :=
  (login_safe freshSubject_consistent
    (.snoc (.snoc .nil (e := wrongPassword) ⟨rfl, rfl⟩) (e := wrongPassword) ⟨rfl, rfl⟩)).2.1
      (by decide) (by decide)

theorem run_failures (k : Nat) :
    ∃ (es : List LoginEvent) (t : Subject Nat Nat), Run (Step sampleConfig) freshSubject es t ∧
      t.userType = .localUser ∧ failures 0 es = k := by
  induction k with
  | zero => exact ⟨[], freshSubject, .nil, rfl, rfl⟩
  | succ k ih =>
    obtain ⟨es, t, hrun, htype, hk⟩ := ih
    refine ⟨es ++ [wrongPassword], (verifySubject sampleConfig 0 false t).2,
      .snoc hrun ⟨?_, ?_⟩, htype, ?_⟩
    · simp [wrongPassword, credentialCheck, htype]
    · simp only [login, credentialCheck, wrongPassword, htype]
      rfl
    · rw [failures_snoc, hk]
      rfl

/-- After 2147483648 wrong passwords the counter is negative. -/
theorem counter_overflows :
    ∃ (es : List LoginEvent) (t : Subject Nat Nat), Run (Step sampleConfig) freshSubject es t ∧
      t.failedLoginAttempts ≠ failures 0 es := by
  obtain ⟨es, t, hrun, -, hk⟩ := run_failures 2147483648
  refine ⟨es, t, hrun, ?_⟩
  rw [(consistent_of_run freshSubject_consistent hrun).counter, hk]
  decide

end Login
end AppNG
