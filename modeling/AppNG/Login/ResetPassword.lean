import AppNG.Lib.Machine
import AppNG.Login.Subject
import Mathlib.Logic.Function.Basic

/-!
# Login.ResetPassword

`CoreService.forgotPassword`, `resetPassword` and `updatePassword` with the `BCryptPasswordHandler`,
on all stored subjects.

* `Effect`: what a call can do, with the conditions under which it does.
* `reset_safe`: as long as no locked subject asks for a reset and every reset is made with the
  stored mail address and salt, a password is reset once for each request at most, and only for
  those who may.
-/

namespace AppNG
namespace Login

open Machine

variable {S D : Type}

/-- `SaltedDigestSha1`, taken as free of collisions. -/
structure SaltedDigest (S D : Type) where
  getDigest : String → S → D
  injective : ∀ {email email' : String} {salt salt' : S},
    getDigest email salt = getDigest email' salt' → email = email' ∧ salt = salt'

/-! ## The password handler -/

def applyPassword (digest : D) (now : Date) (authSubject : Subject S D) : Subject S D :=
  { authSubject with digest := some digest, salt := none, passwordLastChanged := some now }

/-- `none` is a `NullPointerException`, also below. -/
def calculatePasswordResetDigest (sd : SaltedDigest S D) (salt : S) (authSubject : Subject S D) :
    Option (D × Subject S D) :=
  match authSubject.email with
  | none => none
  | some email => some (sd.getDigest email salt, { authSubject with salt := some salt })

def isValidPasswordResetDigest [DecidableEq D] (sd : SaltedDigest S D) (authSubject : Subject S D)
    (digest : Option D) : Option Bool :=
  match authSubject.salt, authSubject.email with
  | some salt, some email => some (some (sd.getDigest email salt) = digest)
  | _, _ => none

/-! ## The service -/

/-- The stored subjects by name, and the salts drawn so far. -/
structure World (S D : Type) where
  subjects : String → Option (Subject S D)
  issued : List S

def World.save (w : World S D) (name : String) (subject : Subject S D) : World S D :=
  { w with subjects := Function.update w.subjects name (some subject) }

def canSubjectResetPassword (now : Date) : Option (Subject S D) → Bool
  | none => false
  | some subject => !(subject.passwordChangePolicy = .mustNot || subject.isExpired now)

/-- A call with what it depends on: the salt drawn, the digest of the generated or of the new
password, the verdict of the password policy, the time. -/
inductive Call (S D : Type) where
  | forgotPassword (authName : String) (salt : S) (now : Date)
  | resetPassword (authName : String) (authSubject : Subject S D) (hash : Option D)
      (generated : D) (now : Date)
  | updatePassword (name : String) (isValid : Bool) (digest : D) (now : Date)
  /-- What the administration of subjects and the logins change. -/
  | edit (name : String) (locked : Bool) (passwordChangePolicy : PasswordChangePolicy)
      (expiryDate : Option Date)

inductive Answer (D : Type) where
  | digest (digest : D)
  | password
  | null
  | done
  | businessException
  | nullPointer
  deriving DecidableEq, Repr

/-- An exception rolls the transaction back. -/
def forgotPassword (sd : SaltedDigest S D) (w : World S D) (authName : String) (salt : S)
    (now : Date) : Answer D × World S D :=
  match w.subjects authName with
  | none => (.businessException, w)
  | some subject =>
    if canSubjectResetPassword now (some subject) then
      match calculatePasswordResetDigest sd salt subject with
      | none => (.nullPointer, w)
      | some (digest, subject) =>
        (.digest digest, { w.save authName subject with issued := salt :: w.issued })
    else (.businessException, w)

def resetPassword [DecidableEq D] (sd : SaltedDigest S D) (w : World S D) (authName : String)
    (authSubject : Subject S D) (hash : Option D) (generated : D) (now : Date) :
    Answer D × World S D :=
  match w.subjects authName with
  | none => (.null, w)
  | some subject =>
    if canSubjectResetPassword now (some subject) then
      match isValidPasswordResetDigest sd authSubject hash with
      | none => (.nullPointer, w)
      | some true =>
        (.password, w.save authName { subject with
          digest := (applyPassword generated now authSubject).digest
          salt := none
          passwordLastChanged := some now
          passwordChangePolicy := .may })
      | some false => (.null, w)
    else (.null, w)

def perform [DecidableEq D] (sd : SaltedDigest S D) (w : World S D) : Call S D → Answer D × World S D
  | .forgotPassword authName salt now => forgotPassword sd w authName salt now
  | .resetPassword authName authSubject hash generated now =>
    resetPassword sd w authName authSubject hash generated now
  | .updatePassword name isValid digest now =>
    match w.subjects name with
    | some subject =>
      if isValid then (.done, w.save name (applyPassword digest now subject)) else (.done, w)
    | none => (.done, w)
  | .edit name locked passwordChangePolicy expiryDate =>
    match w.subjects name with
    | some subject =>
      (.done, w.save name { subject with locked, passwordChangePolicy, expiryDate })
    | none => (.done, w)

/-! ## What has been asked for and used -/

structure Event (S D : Type) where
  call : Call S D
  answer : Answer D

def Event.requested (name : String) : Event S D → Option D
  | ⟨.forgotPassword authName _ _, .digest digest⟩ => if authName = name then some digest else none
  | _ => none

def Event.used : Event S D → Option D
  | ⟨.resetPassword _ _ hash _ _, .password⟩ => hash
  | _ => none

/-- The digest returned by the most recent `forgotPassword` for the subject. -/
def lastDigest (name : String) (es : List (Event S D)) : Option D :=
  es.foldl (fun last e => (e.requested name).or last) none

def used (es : List (Event S D)) : List D := es.filterMap Event.used

/-- The subject exists, is neither locked nor expired and may change its password. -/
def Eligible (now : Date) (subject : Option (Subject S D)) : Prop :=
  ∃ s, subject = some s ∧ s.locked = false ∧ s.isExpired now = false ∧
    s.passwordChangePolicy ≠ .mustNot

/-- What is promised of a call after the events `es`. -/
def Safe (w : World S D) (es : List (Event S D)) (e : Event S D) (w' : World S D) : Prop :=
  match e.call with
  | .forgotPassword authName _ now =>
    (∃ digest, e.answer = .digest digest ∧ Eligible now (w.subjects authName) ∧
      ∀ name, (w'.subjects name).map (·.digest) = (w.subjects name).map (·.digest)) ∨
      (e.answer = .businessException ∧ w' = w)
  | .resetPassword authName _ hash _ now =>
    (e.answer = .password ∧ Eligible now (w.subjects authName) ∧
      (∀ name, name ≠ authName → w'.subjects name = w.subjects name) ∧
      ∃ digest, hash = some digest ∧ lastDigest authName es = some digest ∧ digest ∉ used es) ∨
      (e.answer = .null ∧ w' = w)
  | _ => True

variable {sd : SaltedDigest S D} {w w' : World S D} {es : List (Event S D)} {e : Event S D}
  {name : String}

@[simp] theorem lastDigest_snoc :
    lastDigest name (es ++ [e]) = (e.requested name).or (lastDigest name es) := by
  simp only [lastDigest, List.foldl_append, List.foldl_cons, List.foldl_nil]

@[simp] theorem used_snoc : used (es ++ [e]) = used es ++ e.used.toList := by
  cases h : e.used <;> simp [used, h]

theorem canSubjectResetPassword_some {now : Date} {s : Subject S D} :
    canSubjectResetPassword now (some s) = true ↔
      s.passwordChangePolicy ≠ .mustNot ∧ s.isExpired now = false := by
  simp [canSubjectResetPassword]

theorem eligible_of_can {now : Date} {s : Subject S D} (hfound : w.subjects name = some s)
    (hcan : canSubjectResetPassword now (some s) = true) (hlocked : s.locked = false) :
    Eligible now (w.subjects name) := by
  obtain ⟨hpolicy, hexpired⟩ := canSubjectResetPassword_some.mp hcan
  exact ⟨s, hfound, hlocked, hexpired, hpolicy⟩

/-! ## The invariant -/

/-- A stored salt is the one of the last request, and has not been used. -/
structure Tracked (sd : SaltedDigest S D) (es : List (Event S D)) (w : World S D) : Prop where
  stored : ∀ name s salt, w.subjects name = some s → s.salt = some salt →
    salt ∈ w.issued ∧ ∃ email, s.email = some email ∧
      lastDigest name es = some (sd.getDigest email salt) ∧ sd.getDigest email salt ∉ used es
  distinct : ∀ name name' s s' salt, w.subjects name = some s → w.subjects name' = some s' →
    s.salt = some salt → s'.salt = some salt → name = name'
  issued : ∀ d ∈ used es, ∃ email salt, salt ∈ w.issued ∧ d = sd.getDigest email salt

theorem World.save_subjects {s : Subject S D} {other : String} :
    (w.save name s).subjects other = if other = name then some s else w.subjects other := by
  simp [World.save, Function.update_apply]

/-- A subject is saved without a salt, or with the mail address and salt it has. -/
theorem Tracked.save {s' : Subject S D} (hw : Tracked sd es w)
    (hs : ∀ salt, s'.salt = some salt →
      ∃ s, w.subjects name = some s ∧ s.salt = some salt ∧ s.email = s'.email) :
    Tracked sd es (w.save name s') := by
  have hback : ∀ other t salt, (w.save name s').subjects other = some t → t.salt = some salt →
      ∃ s, w.subjects other = some s ∧ s.salt = some salt ∧ s.email = t.email := by
    intro other t salt ht hsalt
    rw [World.save_subjects] at ht
    split at ht
    · rename_i hother
      cases ht
      rw [hother]
      exact hs salt hsalt
    · exact ⟨t, ht, hsalt, rfl⟩
  refine ⟨fun other t salt ht hsalt => ?_, fun other other' t t' salt ht ht' hsalt hsalt' => ?_,
    hw.issued⟩
  · obtain ⟨s, hfound, hsalt', hemail⟩ := hback other t salt ht hsalt
    obtain ⟨hissued, email, hemail', hlast⟩ := hw.stored other s salt hfound hsalt'
    exact ⟨hissued, email, hemail ▸ hemail', hlast⟩
  · obtain ⟨s, hfound, hsalt₁, -⟩ := hback other t salt ht hsalt
    obtain ⟨s₂, hfound₂, hsalt₂, -⟩ := hback other' t' salt ht' hsalt'
    exact hw.distinct other other' s s₂ salt hfound hfound₂ hsalt₁ hsalt₂

theorem Tracked.event (hw : Tracked sd es w) (hreq : ∀ name, e.requested name = none)
    (hused : e.used = none) : Tracked sd (es ++ [e]) w := by
  refine ⟨fun name s salt hfound hsalt => ?_, hw.distinct, fun d hd => ?_⟩
  · rw [lastDigest_snoc, hreq, used_snoc, hused]
    simpa using hw.stored name s salt hfound hsalt
  · rw [used_snoc, hused] at hd
    exact hw.issued d (by simpa using hd)

/-- A digest returned is new, as its salt is. -/
theorem Tracked.requested {authName : String} {salt : S} {now : Date} {s : Subject S D}
    {email : String} (hw : Tracked sd es w) (hfresh : salt ∉ w.issued)
    (hemail : s.email = some email) :
    Tracked sd (es ++ [⟨.forgotPassword authName salt now, .digest (sd.getDigest email salt)⟩])
      { w.save authName { s with salt := some salt } with issued := salt :: w.issued } := by
  have hstored : ∀ {other t salt'}, w.subjects other = some t → t.salt = some salt' →
      salt' ≠ salt := by
    intro other t salt' ht hsalt' heq
    exact hfresh (heq ▸ (hw.stored other t salt' ht hsalt').1)
  have hunused : sd.getDigest email salt ∉ used es := by
    intro hd
    obtain ⟨email', salt', hissued, heq⟩ := hw.issued _ hd
    exact hfresh ((sd.injective heq).2 ▸ hissued)
  refine ⟨fun other t salt' ht hsalt => ?_, fun other other' t t' salt' ht ht' hsalt hsalt' => ?_,
    fun d hd => ?_⟩
  · rw [lastDigest_snoc, used_snoc]
    change (w.save authName _).subjects other = some t at ht
    rw [World.save_subjects] at ht
    split at ht
    · rename_i hother
      cases ht
      obtain rfl : salt = salt' := Option.some.inj hsalt
      refine ⟨List.mem_cons_self, email, hemail, ?_, ?_⟩
      · simp [Event.requested, hother]
      · simpa [Event.used] using hunused
    · rename_i hother
      obtain ⟨hissued, email', hemail', hlast, hnew⟩ := hw.stored other t salt' ht hsalt
      refine ⟨List.mem_cons_of_mem _ hissued, email', hemail', ?_, ?_⟩
      · simpa [Event.requested, Ne.symm hother] using hlast
      · simpa [Event.used] using hnew
  · change (w.save authName _).subjects other = some t at ht
    change (w.save authName _).subjects other' = some t' at ht'
    rw [World.save_subjects] at ht ht'
    split at ht <;> split at ht'
    · rename_i h h'
      rw [h, h']
    · cases ht
      exact absurd (Option.some.inj hsalt).symm (hstored ht' hsalt')
    · cases ht'
      exact absurd (Option.some.inj hsalt').symm (hstored ht hsalt)
    · exact hw.distinct other other' t t' salt' ht ht' hsalt hsalt'
  · rw [used_snoc] at hd
    obtain ⟨email', salt', hissued, heq⟩ := hw.issued d (by simpa [Event.used] using hd)
    exact ⟨email', salt', List.mem_cons_of_mem _ hissued, heq⟩

/-! ## One call -/

variable [DecidableEq D]

inductive Effect (sd : SaltedDigest S D) (w : World S D) :
    Call S D → Answer D → World S D → Prop where
  | requested {authName : String} {salt : S} {now : Date} {s : Subject S D} {email : String}
      (found : w.subjects authName = some s) (can : canSubjectResetPassword now (some s) = true)
      (hemail : s.email = some email) :
      Effect sd w (.forgotPassword authName salt now) (.digest (sd.getDigest email salt))
        { w.save authName { s with salt := some salt } with issued := salt :: w.issued }
  | refused {authName : String} {salt : S} {now : Date}
      (cannot : canSubjectResetPassword now (w.subjects authName) = false) :
      Effect sd w (.forgotPassword authName salt now) .businessException w
  | noEmail {authName : String} {salt : S} {now : Date} {s : Subject S D}
      (found : w.subjects authName = some s) (can : canSubjectResetPassword now (some s) = true)
      (hemail : s.email = none) :
      Effect sd w (.forgotPassword authName salt now) .nullPointer w
  | reset {authName : String} {authSubject : Subject S D} {hash : Option D} {generated : D}
      {now : Date} {s : Subject S D}
      (found : w.subjects authName = some s) (can : canSubjectResetPassword now (some s) = true)
      (valid : isValidPasswordResetDigest sd authSubject hash = some true) :
      Effect sd w (.resetPassword authName authSubject hash generated now) .password
        (w.save authName { s with
          digest := some generated
          salt := none
          passwordLastChanged := some now
          passwordChangePolicy := .may })
  | notReset {authName : String} {authSubject : Subject S D} {hash : Option D} {generated : D}
      {now : Date}
      (cannot : canSubjectResetPassword now (w.subjects authName) = true →
        isValidPasswordResetDigest sd authSubject hash = some false) :
      Effect sd w (.resetPassword authName authSubject hash generated now) .null w
  | noToken {authName : String} {authSubject : Subject S D} {hash : Option D} {generated : D}
      {now : Date} {s : Subject S D}
      (found : w.subjects authName = some s) (can : canSubjectResetPassword now (some s) = true)
      (invalid : isValidPasswordResetDigest sd authSubject hash = none) :
      Effect sd w (.resetPassword authName authSubject hash generated now) .nullPointer w
  | changed {name : String} {digest : D} {now : Date} {s : Subject S D}
      (found : w.subjects name = some s) :
      Effect sd w (.updatePassword name true digest now) .done
        (w.save name (applyPassword digest now s))
  | unchanged {name : String} {isValid : Bool} {digest : D} {now : Date} :
      Effect sd w (.updatePassword name isValid digest now) .done w
  | edited {name : String} {locked : Bool} {passwordChangePolicy : PasswordChangePolicy}
      {expiryDate : Option Date} {s : Subject S D} (found : w.subjects name = some s) :
      Effect sd w (.edit name locked passwordChangePolicy expiryDate) .done
        (w.save name { s with locked, passwordChangePolicy, expiryDate })
  | unedited {name : String} {locked : Bool} {passwordChangePolicy : PasswordChangePolicy}
      {expiryDate : Option Date} :
      Effect sd w (.edit name locked passwordChangePolicy expiryDate) .done w

theorem forgotPassword_effect (authName : String) (salt : S) (now : Date) :
    Effect sd w (.forgotPassword authName salt now) (forgotPassword sd w authName salt now).1
      (forgotPassword sd w authName salt now).2 := by
  unfold forgotPassword
  split
  · rename_i hnone
    exact .refused (by rw [hnone]; rfl)
  · rename_i s hfound
    split
    · rename_i hcan
      cases hemail : s.email with
      | none =>
        simp only [calculatePasswordResetDigest, hemail]
        exact .noEmail hfound hcan hemail
      | some email =>
        simp only [calculatePasswordResetDigest, hemail]
        have heff : Effect sd w (.forgotPassword authName salt now) _ _ :=
          .requested hfound hcan hemail
        rwa [hemail] at heff
    · rename_i hcan
      exact .refused (by rw [hfound]; exact Bool.not_eq_true _ ▸ hcan)

theorem resetPassword_effect (authName : String) (authSubject : Subject S D) (hash : Option D)
    (generated : D) (now : Date) :
    Effect sd w (.resetPassword authName authSubject hash generated now)
      (resetPassword sd w authName authSubject hash generated now).1
      (resetPassword sd w authName authSubject hash generated now).2 := by
  unfold resetPassword
  split
  · rename_i hnone
    refine .notReset fun hcan => ?_
    rw [hnone] at hcan
    cases hcan
  · rename_i s hfound
    split
    · rename_i hcan
      split
      · rename_i hinvalid
        exact .noToken hfound hcan hinvalid
      · rename_i hvalid
        exact .reset hfound hcan hvalid
      · rename_i hwrong
        exact .notReset fun _ => hwrong
    · rename_i hcan
      exact .notReset fun h => absurd (hfound ▸ h) hcan

theorem perform_effect (c : Call S D) :
    Effect sd w c (perform sd w c).1 (perform sd w c).2 := by
  cases c with
  | forgotPassword authName salt now => exact forgotPassword_effect authName salt now
  | resetPassword authName authSubject hash generated now =>
    exact resetPassword_effect authName authSubject hash generated now
  | updatePassword name isValid digest now =>
    cases hfound : w.subjects name with
    | none => simp only [perform, hfound]; exact .unchanged
    | some s =>
      cases isValid with
      | false => simp only [perform, hfound, Bool.false_eq_true, if_false]; exact .unchanged
      | true => simp only [perform, hfound, if_true]; exact .changed hfound
  | edit name locked policy expiryDate =>
    cases hfound : w.subjects name with
    | none => simp only [perform, hfound]; exact .unedited
    | some s => simp only [perform, hfound]; exact .edited hfound

/-- A call is performed, and a salt never drawn twice. -/
def Performed (sd : SaltedDigest S D) (w : World S D) (e : Event S D) (w' : World S D) : Prop :=
  perform sd w e.call = (e.answer, w') ∧
    ∀ authName salt now, e.call = .forgotPassword authName salt now → salt ∉ w.issued

/-- Nobody who is locked or has no mail address asks for a reset, and a valid digest is valid for
the mail address and salt that are stored. -/
def Meets (sd : SaltedDigest S D) (w : World S D) : Call S D → Prop
  | .forgotPassword authName _ now =>
    ∀ s, w.subjects authName = some s → canSubjectResetPassword now (some s) = true →
      s.locked = false ∧ s.email ≠ none
  | .resetPassword authName authSubject hash _ now =>
    ∀ s, w.subjects authName = some s → canSubjectResetPassword now (some s) = true →
      isValidPasswordResetDigest sd authSubject hash ≠ none ∧
        (isValidPasswordResetDigest sd authSubject hash = some true →
          s.locked = false ∧ s.email = authSubject.email ∧ s.salt = authSubject.salt)
  | _ => True

theorem isValid_true {authSubject : Subject S D} {hash : Option D}
    (h : isValidPasswordResetDigest sd authSubject hash = some true) :
    ∃ email salt, authSubject.email = some email ∧ authSubject.salt = some salt ∧
      hash = some (sd.getDigest email salt) := by
  unfold isValidPasswordResetDigest at h
  split at h
  · rename_i salt email hsalt hemail
    have heq : some (sd.getDigest email salt) = hash := by simpa using h
    exact ⟨email, salt, hemail, hsalt, heq.symm⟩
  · cases h

/-- The salt of a digest that is used is gone, and nobody else has it. -/
theorem Tracked.reset {authName : String} {authSubject s s' : Subject S D} {hash : Option D}
    {generated : D} {now : Date} (hw : Tracked sd es w) (hfound : w.subjects authName = some s)
    (hvalid : isValidPasswordResetDigest sd authSubject hash = some true)
    (hsalt : s.salt = authSubject.salt) (hs' : s'.salt = none) :
    Tracked sd (es ++ [⟨.resetPassword authName authSubject hash generated now, .password⟩])
      (w.save authName s') := by
  obtain ⟨email, salt, hemail, hsalt', rfl⟩ := isValid_true hvalid
  have hsalt₁ : s.salt = some salt := hsalt.trans hsalt'
  refine ⟨fun other t salt₂ ht hsalt₂ => ?_,
    (hw.save  fun _ h => by rw [hs'] at h; cases h).distinct, fun d hd => ?_⟩
  · rw [World.save_subjects] at ht
    split at ht
    · cases ht
      rw [hs'] at hsalt₂
      cases hsalt₂
    · rename_i hother
      obtain ⟨hissued, email₂, hemail₂, hlast, hnew⟩ := hw.stored other t salt₂ ht hsalt₂
      refine ⟨hissued, email₂, hemail₂, ?_, ?_⟩
      · rw [lastDigest_snoc]
        exact hlast
      · rw [used_snoc]
        intro hd
        rcases List.mem_append.mp hd with hd | hd
        · exact hnew hd
        · have heq : sd.getDigest email₂ salt₂ = sd.getDigest email salt := by
            simpa [Event.used] using hd
          obtain ⟨-, rfl⟩ := sd.injective heq
          exact hother (hw.distinct other authName t s salt₂ ht hfound hsalt₂ hsalt₁)
  · rw [used_snoc] at hd
    rcases List.mem_append.mp hd with hd | hd
    · exact hw.issued d hd
    · have heq : d = sd.getDigest email salt := by simpa [Event.used] using hd
      exact ⟨email, salt, (hw.stored authName s salt hfound hsalt₁).1, heq⟩

def Good (sd : SaltedDigest S D) (w : World S D) (e : Event S D) (w' : World S D) : Prop :=
  Performed sd w e w' ∧ Meets sd w e.call

theorem Performed.effect (h : Performed sd w e w') : Effect sd w e.call e.answer w' := by
  have heff : Effect sd w e.call _ _ := perform_effect e.call
  rwa [h.1] at heff

/-- The step lemma. -/
theorem Tracked.step (hw : Tracked sd es w) (h : Good sd w e w') : Tracked sd (es ++ [e]) w' := by
  obtain ⟨hperf, hmeets⟩ := h
  have heff := hperf.effect
  obtain ⟨call, answer⟩ := e
  cases heff with
  | requested found can hemail => exact hw.requested (hperf.2 _ _ _ rfl) hemail
  | reset found can valid =>
    obtain ⟨-, -, hsalt⟩ := (hmeets _ found can).2 valid
    exact hw.reset found valid hsalt rfl
  | changed found =>
    exact Tracked.event (hw.save fun _ h => by cases h) (fun _ => rfl) rfl
  | edited found =>
    exact Tracked.event (hw.save fun salt h => ⟨_, found, h, rfl⟩) (fun _ => rfl) rfl
  | refused | noEmail | notReset | noToken | unchanged | unedited =>
    exact hw.event (fun _ => rfl) rfl

theorem Tracked.safe (hw : Tracked sd es w) (h : Good sd w e w') : Safe w es e w' := by
  obtain ⟨hperf, hmeets⟩ := h
  have heff := hperf.effect
  obtain ⟨call, answer⟩ := e
  cases heff with
  | @requested authName salt now s email found can hemail =>
    refine .inl ⟨_, rfl, eligible_of_can found can (hmeets _ found can).1, fun name => ?_⟩
    change ((w.save authName _).subjects name).map _ = _
    rw [World.save_subjects]
    split
    · rename_i hname
      rw [hname, found]
      rfl
    · rfl
  | refused => exact .inr ⟨rfl, rfl⟩
  | noEmail found can hemail => exact absurd hemail (hmeets _ found can).2
  | @reset authName authSubject hash _ _ s found can valid =>
    obtain ⟨hlocked, hemail, hsalt⟩ := (hmeets _ found can).2 valid
    obtain ⟨email, salt, hemail', hsalt', rfl⟩ := isValid_true valid
    obtain ⟨-, email₁, hemail₁, hlast, hnew⟩ :=
      hw.stored authName s salt found (hsalt.trans hsalt')
    obtain rfl : email = email₁ := Option.some.inj ((hemail.trans hemail').symm.trans hemail₁)
    refine .inl ⟨rfl, eligible_of_can found can hlocked, fun name hne => ?_, _, rfl, hlast, hnew⟩
    rw [World.save_subjects, if_neg hne]
  | notReset => exact .inr ⟨rfl, rfl⟩
  | noToken found can invalid => exact absurd invalid (hmeets _ found can).1
  | changed | unchanged | edited | unedited => trivial

/-- From a world without salts, as long as every call meets the condition: a password is reset only
by the last digest returned for its subject, once, and for those who may; everything else changes
nothing. -/
theorem reset_safe {w₀ : World S D}
    (hempty : ∀ name s, w₀.subjects name = some s → s.salt = none)
    (hrun : Run (Good sd) w₀ es w) (h : Good sd w e w') : Safe w es e w' := by
  have hinit : Tracked sd [] w₀ := by
    refine ⟨fun name s salt hfound hsalt => ?_, fun name _ s _ salt hfound _ hsalt => ?_,
      fun d hd => by cases hd⟩
    · rw [hempty name s hfound] at hsalt
      cases hsalt
    · rw [hempty name s hfound] at hsalt
      cases hsalt
  have hw : Tracked sd es w :=
    hrun.inv (P := fun es w => Tracked sd es w) hinit fun _ _ _ _ hw hstep => hw.step hstep
  exact hw.safe h

/-! ## One subject -/

def sampleDigest : SaltedDigest Nat (String × Nat) where
  getDigest := Prod.mk
  injective h := Prod.mk.inj h

def anna : Subject Nat (String × Nat) where
  userType := .localUser
  email := some "anna@example.org"
  digest := some ("", 0)
  salt := none
  authenticated := false
  lastLogin := none
  passwordLastChanged := none
  locked := false
  passwordChangePolicy := .may
  failedLoginAttempts := 0
  expiryDate := none

def annasWorld : World Nat (String × Nat) where
  subjects name := if name = "anna" then some anna else none
  issued := []

def annaForgets : Event Nat (String × Nat) :=
  ⟨.forgotPassword "anna" 7 0, .digest ("anna@example.org", 7)⟩

def annasReset : Event Nat (String × Nat) :=
  ⟨.resetPassword "anna" { anna with salt := some 7 } (some ("anna@example.org", 7)) ("new", 1) 1,
    .password⟩

def after (w : World Nat (String × Nat)) (e : Event Nat (String × Nat)) :
    World Nat (String × Nat) :=
  (perform sampleDigest w e.call).2

theorem annaForgets_performed :
    Performed sampleDigest annasWorld annaForgets (after annasWorld annaForgets) :=
  ⟨rfl, fun _ _ _ _ => List.not_mem_nil⟩

theorem anna_resets :
    Safe (after annasWorld annaForgets) [annaForgets] annasReset
      (after (after annasWorld annaForgets) annasReset) := by
  have hforgets : Good sampleDigest annasWorld annaForgets (after annasWorld annaForgets) :=
    ⟨annaForgets_performed, fun s hs _ => by cases hs; exact ⟨rfl, by decide⟩⟩
  have hempty : ∀ name s, annasWorld.subjects name = some s → s.salt = none := by
    intro name s hs
    change (if name = "anna" then some anna else none) = some s at hs
    split at hs
    · cases hs
      rfl
    · cases hs
  refine reset_safe hempty (.snoc .nil hforgets) ⟨⟨rfl, fun _ _ _ h => by cases h⟩, ?_⟩
  intro s hs _
  cases hs
  exact ⟨by decide, fun _ => ⟨rfl, rfl, rfl⟩⟩

def annaIsLocked : Event Nat (String × Nat) := ⟨.edit "anna" true .may none, .done⟩

/-- A subject that is locked after its request still gets a new password. -/
theorem locked_subject_resets :
    ∃ es w w', Run (Performed sampleDigest) annasWorld es w ∧
      Performed sampleDigest w annasReset w' ∧ ¬ Safe w es annasReset w' := by
  refine ⟨[annaForgets, annaIsLocked], after (after annasWorld annaForgets) annaIsLocked,
    after (after (after annasWorld annaForgets) annaIsLocked) annasReset,
    .snoc (.snoc .nil annaForgets_performed) (e := annaIsLocked) ⟨rfl, fun _ _ _ h => by cases h⟩,
    ⟨rfl, fun _ _ _ h => by cases h⟩, ?_⟩
  rintro (⟨-, ⟨s, hs, hlocked, -⟩, -⟩ | ⟨h, -⟩)
  · cases hs
    cases hlocked
  · cases h

end Login
end AppNG
