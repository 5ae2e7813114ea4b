import AppNG.Environment.ScopedEnvironment
import AppNG.Lib.Machine

/-!
# Environment.Sessions

The sessions of the requests: `DefaultEnvironment`, `SessionListener` and the logins of `CoreService`.

A login sets the subject, and after that it marks the subject as authenticated. `setSubject` looks for a new
session, if the site wants one, when the subject is authenticated already. It is for a subject that went through
`verifySubject`; the members of a group and the users of Keycloak are authenticated by the second step only, and
stay in the session that they came with.

* `Event`: what the requests do, in any order; the two steps of a login are two events.
* `Origin`: how a session gets an authenticated subject.
* `Step.accounted`: the step of the invariant.
* `login_accounts`: over any run, a session knows its own identifier, and where it is authenticated, either the
  identifier is one that nobody knew before the login, or the login was one without a new session.
-/

namespace AppNG
namespace Environment
namespace Sessions

open Machine

/-! ## Subjects and sites -/

/-- `ref` is the object itself: what is written to it later on is in `SubjectState`. -/
structure SubjectImpl where
  ref : Nat
  id : Option Int
  name : Option String
  deriving DecidableEq

structure SubjectState where
  authenticated : Bool
  language : Option String
  timeZone : Option String
  deriving DecidableEq

/-- The properties `locale` and `timeZone` of a site, or of the platform. -/
structure Location where
  timeZone : Option String
  locale : Option String
  deriving DecidableEq

structure Site where
  name : String
  renewSessionAfterLogin : Bool
  location : Location
  deriving DecidableEq

inductive Value where
  | subject (s : SubjectImpl)
  | sessionId (n : Nat)
  | number (n : Int)
  | text (s : String)
  deriving DecidableEq

/-- Two subjects are equal by their id and name. -/
def Value.equals : Value → Value → Bool
  | .subject s, .subject t => s.id == t.id && s.name == t.name
  | v, w => v == w

instance : BEq Value := ⟨Value.equals⟩

/-- `startTime` is the creation time of each session, and `loaderSite` the site whose class loader has loaded an
object. -/
structure Platform where
  location : Location
  defaultTimeZone : String
  defaultLocale : String
  sessionTimeout : Int
  startTime : Nat → Int
  loaderSite : Value → Option String

variable (platform : Platform)

/-! ## `Session.Environment` -/

def STARTTIME : String := "starttime"

def TIMEOUT : String := "timeout"

def SID : String := "SID"

def SUBJECT : String := "SESSION.currentSubject"

def LOCALE : String := "locale"

def TIMEZONE : String := "timezone"

/-! ## One session -/

structure HttpSession where
  container : Container (Attribute Value)
  changed : Bool

namespace HttpSession

variable (siteName : Option String) (s : HttpSession)

/-- The session in the environment of a request. -/
def environment : SessionEnvironment Value := ⟨siteName, s.container, s.changed⟩

def ofEnvironment (env : SessionEnvironment Value) : HttpSession := ⟨env.container, env.changed⟩

def getAttribute (name : String) : Option Value := (s.environment none).getAttribute name

/-- A null is refused. -/
def setAttribute (name : String) (value : Option Value) : HttpSession :=
  ofEnvironment ((s.environment siteName).setAttribute platform.loaderSite name value).1

def removeAttribute (name : String) : HttpSession := ofEnvironment ((s.environment none).removeAttribute name).1

/-- Only `setSubject` sets this attribute. -/
def getSubject : Option SubjectImpl :=
  match s.getAttribute SUBJECT with
  | some (.subject subject) => some subject
  | _ => none

def initLocation (location : Location) : HttpSession :=
  if s.getSubject.isNone then
    (s.setAttribute platform siteName TIMEZONE (some (.text (location.timeZone.getD platform.defaultTimeZone)))
      ).setAttribute platform siteName LOCALE (some (.text (location.locale.getD platform.defaultLocale)))
  else s

/-- `SessionListener.sessionCreated`, which has an environment of its own, without a request. -/
def sessionCreated (n : Nat) : HttpSession :=
  (((HttpSession.mk Keyed.empty false).initLocation platform none platform.location
    |>.setAttribute platform none SID (some (.sessionId n)))
    |>.setAttribute platform none TIMEOUT (some (.number platform.sessionTimeout)))
    |>.setAttribute platform none STARTTIME (some (.number (platform.startTime n)))

/-- `SessionListener.sessionDestroyed` is called before the attributes are gone; so is the constructor of its
environment. -/
def sessionDestroyed : HttpSession := s.initLocation platform none platform.location

/-- What is left in the container that `setSubject` copies, once the old session is invalidated. -/
def oldContainer : Container (Attribute Value) :=
  (((s.removeAttribute SID).removeAttribute TIMEOUT).removeAttribute STARTTIME |>.sessionDestroyed platform).container

def putAll (container : Container (Attribute Value)) : HttpSession :=
  { s with container := container.values.foldl Keyed.put s.container }

end HttpSession

/-! ## The requests and their sessions -/

/-- `httpSession` is what the request refers to, valid or not. `session` is whether there is an environment for the
session, which there is not after a logout. `login` is a subject that is yet to be initialized. -/
structure DefaultEnvironment where
  site : Option Site
  httpSession : Option Nat
  session : Bool
  login : Option Nat

structure World where
  sessions : Nat → Option HttpSession
  nextSession : Nat
  issued : ∀ n s, sessions n = some s → n < nextSession
  subjects : Nat → SubjectState
  nextSubject : Nat
  requests : Nat → DefaultEnvironment

namespace World

def init : World where
  sessions := fun _ => none
  nextSession := 0
  issued := nofun
  subjects := fun _ => ⟨false, none, none⟩
  nextSubject := 0
  requests := fun _ => ⟨none, none, false, none⟩

variable (w : World) (r : Nat)

def putRequest (env : DefaultEnvironment) : World := { w with requests := Function.update w.requests r env }

def putSubject (ref : Nat) (state : SubjectState) : World :=
  { w with subjects := Function.update w.subjects ref state }

def siteName : Option String := (w.requests r).site.map Site.name

/-- The session of the request, if it is still valid. -/
def currentSession : Option Nat := (w.requests r).httpSession.filter fun n => (w.sessions n).isSome

theorem issued_update {f : Nat → Option HttpSession} {k : Nat} (hf : ∀ n s, f n = some s → n < k) {n : Nat}
    {s : Option HttpSession} (hn : s.isSome → n < k) :
    ∀ m t, Function.update f n s m = some t → m < k := by
  intro m t h
  rw [Function.update_apply] at h
  split at h
  · rename_i heq
    rw [heq]
    exact hn (by rw [h]; rfl)
  · exact hf m t h

def invalidate (n : Nat) : World :=
  { w with sessions := Function.update w.sessions n none
           issued := issued_update w.issued nofun }

def create : World :=
  { w with sessions := Function.update w.sessions w.nextSession (some (.sessionCreated platform w.nextSession))
           nextSession := w.nextSession + 1
           issued := issued_update (fun n s h => Nat.lt_succ_of_lt (w.issued n s h)) fun _ => Nat.lt_succ_self _ }

/-- `HttpServletRequest.getSession`. -/
def getSession : World :=
  match w.currentSession r with
  | some _ => w
  | none => (w.create platform).putRequest r { w.requests r with httpSession := some w.nextSession }

/-- A write to the session of the request. -/
def updateSession (f : HttpSession → HttpSession) : World :=
  match w.currentSession r with
  | none => w
  | some n =>
    match hs : w.sessions n with
    | none => w
    | some s =>
      { w with sessions := Function.update w.sessions n (some (f s))
               issued := issued_update w.issued fun _ => w.issued n s hs }

/-- None: there is no environment for the session. -/
def withSession (f : HttpSession → HttpSession) : World :=
  if (w.requests r).session then (w.getSession platform r).updateSession r f else w

def setAttribute (name : String) (value : Option Value) : World :=
  w.withSession platform r fun s => s.setAttribute platform (w.siteName r) name value

def removeAttribute (name : String) : World := w.withSession platform r fun s => s.removeAttribute name

/-- Without a session none, and without a subject in it, neither. -/
def getSubject : Option SubjectImpl :=
  (w.currentSession r).bind fun n => (w.sessions n).bind HttpSession.getSubject

def getAttribute (name : String) : Option Value :=
  (w.currentSession r).bind fun n => (w.sessions n).bind fun s => s.getAttribute name

def isSubjectAuthenticated : Bool := (w.getSubject r).any fun subject => (w.subjects subject.ref).authenticated

/-! ## `setSubject` -/

/-- A new session with what the old one has, its identifier and its times apart. -/
def renewSession : World :=
  let w := w.getSession platform r
  match w.currentSession r with
  | none => w
  | some n =>
    match w.sessions n with
    | none => w
    | some s => ((w.invalidate n).getSession platform r).updateSession r fun t => t.putAll (s.oldContainer platform)

def setLocationFromSubject (state : SubjectState) : World :=
  let w := match state.timeZone with
    | none => w
    | some timeZone => w.setAttribute platform r TIMEZONE (some (.text timeZone))
  match state.language with
  | none => w
  | some language => w.setAttribute platform r LOCALE (some (.text language))

def createNewSession (site : Option Site) : Bool := site.elim true Site.renewSessionAfterLogin

/-- Whether the subject gets a new session. -/
def renews (subject : SubjectImpl) : Bool :=
  createNewSession (w.requests r).site && (w.subjects subject.ref).authenticated

/-- What `setSubject` does before it sets the attribute. -/
def beforeSubject (subject : SubjectImpl) : World :=
  (if w.renews r subject then w.renewSession platform r else w).setLocationFromSubject platform r
    (w.subjects subject.ref)

/-- None: a `NullPointerException`, since there is no environment for the session any more. -/
def setSubject (subject : SubjectImpl) : Option World :=
  if w.renews r subject && !(w.requests r).session then none
  else some ((w.beforeSubject platform r subject).setAttribute platform r SUBJECT (some (.subject subject)))

def logoutSubject : World :=
  if (w.requests r).session then
    let w := w.removeAttribute platform r SUBJECT
    let w := match w.currentSession r with
      | none => w
      | some n => w.invalidate n
    w.putRequest r { w.requests r with session := false }
  else w

end World

/-! ## Logins -/

/-- The ways to log in of `CoreService`. -/
inductive LoginPath where
  | password
  | passwordOfGroupMember
  | principal
  | principalInRole
  | digest
  | group
  | userWithGroups
  | userName
  deriving DecidableEq, Repr

/-- Where the subject comes from `verifySubject`, which marks it as authenticated. -/
def LoginPath.verified : LoginPath → Bool
  | .password | .principal | .digest => true
  | .passwordOfGroupMember | .principalInRole | .group | .userWithGroups | .userName => false

/-- The subject that logs in: loaded from the database, or filled from a directory or a token. -/
structure Login where
  path : LoginPath
  id : Option Int
  name : Option String
  language : Option String
  timeZone : Option String

namespace World

variable (w : World) (r : Nat)

def newSubject (state : SubjectState) : World :=
  { w.putSubject w.nextSubject state with nextSubject := w.nextSubject + 1 }

def loginSubject (l : Login) : SubjectImpl := ⟨w.nextSubject, l.id, l.name⟩

/-- The subject of the login is loaded. -/
def load (l : Login) : World := w.newSubject ⟨l.path.verified, l.language, l.timeZone⟩

/-- The first step of a login. -/
def login (l : Login) : World :=
  match (w.load l).setSubject platform r (w.loginSubject l) with
  | none => w.load l
  | some w' => w'.putRequest r { w'.requests r with login := some w.nextSubject }

/-- The second step of a login. -/
def initAuthenticatedSubject : World :=
  match (w.requests r).login with
  | none => w
  | some ref =>
    (w.putSubject ref { w.subjects ref with authenticated := true }).putRequest r
      { w.requests r with login := none }

/-- `setLanguage` and `setSubject`, for a subject that is not authenticated. -/
def changeLanguage (subject : SubjectImpl) (tag : String) : World :=
  let w := w.putSubject subject.ref { w.subjects subject.ref with language := some tag }
  (w.setSubject platform r subject).getD w

/-- The language of somebody who is not logged in: `ApplicationAdapter`. Without a locale in the session it ends
with a null pointer. -/
def setLanguage (tag : String) : World :=
  if w.isSubjectAuthenticated r then w
  else
    match w.getSubject r with
    | none =>
      (w.newSubject ⟨false, none, none⟩).changeLanguage platform r ⟨w.nextSubject, none, none⟩ tag
    | some subject =>
      match w.getAttribute r LOCALE with
      | some (.text locale) => if locale == tag then w else w.changeLanguage platform r subject tag
      | _ => w

/-- A request arrives with the identifier of a session, which may be unknown, or with none. -/
def arrive (site : Option Site) (cookie : Option Nat) : World :=
  let w := w.putRequest r ⟨site, cookie, true, none⟩
  w.withSession platform r fun s =>
    s.initLocation platform (site.map Site.name) (site.elim platform.location Site.location)

end World

/-! ## Runs -/

inductive Event where
  | arrive (r : Nat) (site : Option Site) (cookie : Option Nat)
  | setAttribute (r : Nat) (name : String) (value : Option Value)
  | removeAttribute (r : Nat) (name : String)
  | setLanguage (r : Nat) (tag : String)
  | login (r : Nat) (l : Login)
  | initAuthenticatedSubject (r : Nat)
  | logout (r : Nat)
  | expire (n : Nat)

/-- Nobody but the platform sets the subject and the identifier. -/
def Event.Proper : Event → Prop
  | .setAttribute _ name _ => name ≠ SUBJECT ∧ name ≠ SID
  | .removeAttribute _ name => name ≠ SID
  | _ => True

def perform (w : World) : Event → World
  | .arrive r site cookie => w.arrive platform r site cookie
  | .setAttribute r name value => w.setAttribute platform r name value
  | .removeAttribute r name => w.removeAttribute platform r name
  | .setLanguage r tag => w.setLanguage platform r tag
  | .login r l => w.login platform r l
  | .initAuthenticatedSubject r => w.initAuthenticatedSubject r
  | .logout r => w.logoutSubject platform r
  | .expire n => w.invalidate n

def Step (w : World) (e : Event) (w' : World) : Prop := e.Proper ∧ perform platform w e = w'

/-! ## Attributes -/

namespace HttpSession

variable {platform} {siteName : Option String} {s : HttpSession} {name other : String}

@[simp] theorem getAttribute_ofEnvironment (env : SessionEnvironment Value) :
    (ofEnvironment env).getAttribute other = env.getAttribute other := rfl

theorem getAttribute_put {w : AttributeWrapper Value} {changed : Bool} :
    (HttpSession.mk (s.container.put (name, .wrapper w)) changed).getAttribute other =
      if name = other then some w.value else s.getAttribute other := by
  show (AbstractEnvironment.getAttribute (s.container.put (name, .wrapper w)) other).map Attribute.getValue = _
  rw [Environment.getAttribute_put]
  split <;> rfl

/-- An equal value stays where it is. -/
theorem setAttribute_some (v : Value) : s.setAttribute platform siteName name (some v) =
    if (some v == s.getAttribute name) = true then s
    else ⟨s.container.put (name, .wrapper ⟨(platform.loaderSite v).or siteName, v⟩), true⟩ := by
  have hget : (s.environment siteName).getAttribute name = s.getAttribute name := rfl
  rw [setAttribute, SessionEnvironment.setAttribute, hget]
  split <;> rfl

theorem getAttribute_setAttribute_ne (h : other ≠ name) (value : Option Value) :
    (s.setAttribute platform siteName name value).getAttribute other = s.getAttribute other := by
  cases value with
  | none =>
    rw [setAttribute, getAttribute_ofEnvironment, session_setAttribute_null]
    split <;> rfl
  | some v =>
    rw [setAttribute_some]
    split
    · rfl
    · rw [getAttribute_put, if_neg (Ne.symm h)]

/-- An attribute is the value that was set, or an equal one that was there before. -/
theorem getAttribute_setAttribute (v : Value) :
    (s.setAttribute platform siteName name (some v)).getAttribute name = some v ∨
      (s.setAttribute platform siteName name (some v)).getAttribute name = s.getAttribute name ∧
        (some v == s.getAttribute name) = true := by
  rw [setAttribute_some]
  by_cases h : (some v == s.getAttribute name) = true
  · rw [if_pos h]
    exact .inr ⟨rfl, h⟩
  · rw [if_neg h, getAttribute_put, if_pos rfl]
    exact .inl rfl

theorem getAttribute_removeAttribute :
    (s.removeAttribute name).getAttribute other = if other = name then none else s.getAttribute other := by
  rw [removeAttribute, getAttribute_ofEnvironment, (session_removeAttribute _ _).2, Function.update_apply]
  rfl

theorem getSubject_congr {t : HttpSession} (h : s.getAttribute SUBJECT = t.getAttribute SUBJECT) :
    s.getSubject = t.getSubject := by
  rw [getSubject, getSubject, h]

theorem getSubject_eq_some {subject : SubjectImpl} :
    s.getSubject = some subject ↔ s.getAttribute SUBJECT = some (.subject subject) := by
  rw [getSubject]
  split
  · rename_i h
    rw [h, Option.some.injEq, Option.some.injEq, Value.subject.injEq]
  · rename_i h
    exact iff_of_false nofun (h subject)

theorem getAttribute_initLocation (hzone : other ≠ TIMEZONE) (hlocale : other ≠ LOCALE) (location : Location) :
    (s.initLocation platform siteName location).getAttribute other = s.getAttribute other := by
  rw [initLocation]
  split
  · rw [getAttribute_setAttribute_ne hlocale, getAttribute_setAttribute_ne hzone]
  · rfl

/-- The identifier and the times are not copied, and the zone and the locale may be others. -/
theorem getAttribute_oldContainer (hzone : name ≠ TIMEZONE) (hlocale : name ≠ LOCALE) :
    (AbstractEnvironment.getAttribute (s.oldContainer platform) name).map Attribute.getValue =
      if name = SID ∨ name = TIMEOUT ∨ name = STARTTIME then none else s.getAttribute name := by
  show HttpSession.getAttribute _ name = _
  rw [sessionDestroyed, getAttribute_initLocation hzone hlocale, getAttribute_removeAttribute,
    getAttribute_removeAttribute, getAttribute_removeAttribute]
  by_cases hsid : name = SID <;> by_cases htimeout : name = TIMEOUT <;> by_cases hstart : name = STARTTIME <;>
    simp [hsid, htimeout, hstart]

theorem getAttribute_putAll {container : Container (Attribute Value)} : (s.putAll container).getAttribute name =
    ((AbstractEnvironment.getAttribute container name).map Attribute.getValue).or (s.getAttribute name) := by
  show (((container.values.foldl Keyed.put s.container).get name).map Prod.snd).map Attribute.getValue =
    (((container.get name).map Prod.snd).map Attribute.getValue).or _
  rw [Keyed.get_foldl_put]
  cases hget : container.get name with
  | none =>
    rw [Keyed.overlay_of_absent (Keyed.get_eq_none.mp hget)]
    rfl
  | some entry =>
    obtain ⟨hmem, hkey⟩ := Keyed.get_eq_some.mp hget
    obtain ⟨copied, hcopied, hsame, hoverlay⟩ :=
      Keyed.overlay_of_present (m := s.container.get) ⟨entry, hmem, hkey⟩
    rw [hoverlay, Keyed.eq_of_key_eq hcopied hmem (hsame.trans hkey.symm)]
    rfl

/-- What a renewed session has under a name: what the old one had, if it is copied. -/
theorem getAttribute_renewed {t : HttpSession} (hzone : name ≠ TIMEZONE) (hlocale : name ≠ LOCALE) :
    (t.putAll (s.oldContainer platform)).getAttribute name =
      if name = SID ∨ name = TIMEOUT ∨ name = STARTTIME then t.getAttribute name
      else (s.getAttribute name).or (t.getAttribute name) := by
  rw [getAttribute_putAll, getAttribute_oldContainer hzone hlocale]
  split <;> rfl

theorem getAttribute_sessionCreated_SID {n : Nat} :
    (sessionCreated platform n).getAttribute SID = some (.sessionId n) := by
  rw [sessionCreated, getAttribute_setAttribute_ne (by decide), getAttribute_setAttribute_ne (by decide)]
  rcases @getAttribute_setAttribute platform none
    ((HttpSession.mk Keyed.empty false).initLocation platform none platform.location) SID (.sessionId n) with h | h
  · exact h
  · rw [getAttribute_initLocation (by decide) (by decide)] at h
    cases h.2

theorem getSubject_sessionCreated {n : Nat} : (sessionCreated platform n).getSubject = none := by
  have hget : (sessionCreated platform n).getAttribute SUBJECT = none := by
    rw [sessionCreated, getAttribute_setAttribute_ne (by decide), getAttribute_setAttribute_ne (by decide),
      getAttribute_setAttribute_ne (by decide), getAttribute_initLocation (by decide) (by decide)]
    rfl
  rw [getSubject, hget]

end HttpSession

/-! ## What the operations change -/

namespace World

variable {platform} {w : World} {r q n : Nat} {f : HttpSession → HttpSession}

@[simp] theorem requests_updateSession : (w.updateSession r f).requests = w.requests := by
  unfold updateSession
  split
  · rfl
  · split <;> rfl

@[simp] theorem subjects_updateSession : (w.updateSession r f).subjects = w.subjects := by
  unfold updateSession
  split
  · rfl
  · split <;> rfl

@[simp] theorem nextSubject_updateSession : (w.updateSession r f).nextSubject = w.nextSubject := by
  unfold updateSession
  split
  · rfl
  · split <;> rfl

@[simp] theorem nextSession_updateSession : (w.updateSession r f).nextSession = w.nextSession := by
  unfold updateSession
  split
  · rfl
  · split <;> rfl

/-- The session of the request, and the others. -/
theorem sessions_updateSession {s : HttpSession} (h : (w.updateSession r f).sessions n = some s) :
    w.sessions n = some s ∨ ∃ t, w.currentSession r = some n ∧ w.sessions n = some t ∧ s = f t := by
  unfold updateSession at h
  split at h
  · exact .inl h
  · rename_i m hcurrent
    split at h
    · exact .inl h
    · rename_i t hsession
      replace h : Function.update w.sessions m (some (f t)) n = some s := h
      rw [Function.update_apply] at h
      split at h
      · rename_i heq
        subst heq
        exact .inr ⟨t, hcurrent, hsession, (Option.some.inj h).symm⟩
      · exact .inl h

theorem isSome_updateSession : ((w.updateSession r f).sessions n).isSome = (w.sessions n).isSome := by
  unfold updateSession
  split
  · rfl
  · rename_i m _
    split
    · rfl
    · rename_i t hsession
      show (Function.update w.sessions m (some (f t)) n).isSome = _
      rw [Function.update_apply]
      split
      · rename_i heq
        rw [heq, hsession]
        rfl
      · rfl

@[simp] theorem currentSession_updateSession : (w.updateSession r f).currentSession q = w.currentSession q := by
  simp only [currentSession, requests_updateSession, isSome_updateSession]

/-- Only the session that the request refers to. -/
theorem requests_getSession (platform : Platform) (w : World) (r : Nat) : ∃ httpSession, (w.getSession platform r).requests =
    Function.update w.requests r { w.requests r with httpSession } := by
  unfold getSession
  split
  · exact ⟨(w.requests r).httpSession, (Function.update_eq_self r w.requests).symm⟩
  · exact ⟨some w.nextSession, rfl⟩

@[simp] theorem login_getSession : ((w.getSession platform r).requests q).login = (w.requests q).login := by
  obtain ⟨httpSession, h⟩ := requests_getSession platform w r
  rw [h, Function.update_apply]
  split
  · rename_i heq
    rw [heq]
  · rfl

@[simp] theorem session_getSession : ((w.getSession platform r).requests q).session = (w.requests q).session := by
  obtain ⟨httpSession, h⟩ := requests_getSession platform w r
  rw [h, Function.update_apply]
  split
  · rename_i heq
    rw [heq]
  · rfl

@[simp] theorem subjects_getSession : (w.getSession platform r).subjects = w.subjects := by
  unfold getSession
  split <;> rfl

@[simp] theorem nextSubject_getSession : (w.getSession platform r).nextSubject = w.nextSubject := by
  unfold getSession
  split <;> rfl

theorem nextSession_getSession : w.nextSession ≤ (w.getSession platform r).nextSession := by
  unfold getSession
  split
  · exact Nat.le_refl _
  · exact Nat.le_succ _

theorem sessions_getSession {s : HttpSession} (h : (w.getSession platform r).sessions n = some s) :
    w.sessions n = some s ∨ s = .sessionCreated platform n := by
  unfold getSession at h
  split at h
  · exact .inl h
  · replace h : Function.update w.sessions w.nextSession (some (.sessionCreated platform w.nextSession)) n =
      some s := h
    rw [Function.update_apply] at h
    split at h
    · rename_i heq
      rw [heq]
      exact .inr (Option.some.inj h).symm
    · exact .inl h

/-- A request has a session then: its own, or a new one. -/
theorem currentSession_getSession (platform : Platform) (w : World) (r : Nat) : ∃ n,
    (w.getSession platform r).currentSession r = some n ∧
    (w.currentSession r = some n ∨ w.currentSession r = none ∧ n = w.nextSession) := by
  unfold getSession
  cases h : w.currentSession r with
  | some n => exact ⟨n, h, .inl rfl⟩
  | none =>
    refine ⟨w.nextSession, ?_, .inr ⟨rfl, rfl⟩⟩
    show Option.filter _ (Function.update w.requests r _ r).httpSession = _
    rw [Function.update_self]
    show Option.filter (fun n => (Function.update w.sessions w.nextSession _ n).isSome) (some w.nextSession) = _
    rw [Option.filter_some, Function.update_self]
    rfl

theorem currentSession_withSession (h : (w.requests r).session = true) :
    (w.withSession platform r f).currentSession r = (w.getSession platform r).currentSession r := by
  rw [withSession, if_pos h, currentSession_updateSession]

theorem currentSession_invalidate (h : w.currentSession r = some n) :
    (w.invalidate n).currentSession r = none := by
  have hsession : (w.requests r).httpSession = some n := (Option.filter_eq_some_iff.mp h).1
  show Option.filter (fun m => (Function.update w.sessions n none m).isSome) (w.requests r).httpSession = none
  rw [hsession, Option.filter_some, Function.update_self]
  rfl

theorem currentSession_setAttribute {name : String} {value : Option Value}
    (h : w.currentSession r = some n) : (w.setAttribute platform r name value).currentSession r = some n := by
  unfold setAttribute withSession
  split
  · rw [currentSession_updateSession, getSession, h]
    exact h
  · exact h

/-- A renewed session is a new one. -/
theorem currentSession_renewSession (platform : Platform) (w : World) (r : Nat) : ∃ n,
    (w.renewSession platform r).currentSession r = some n ∧
    w.nextSession ≤ n := by
  obtain ⟨n, hcurrent, -⟩ := currentSession_getSession platform w r
  obtain ⟨s, hs⟩ := Option.isSome_iff_exists.mp (Option.filter_eq_some_iff.mp hcurrent).2
  obtain ⟨m, hm, hnew⟩ := currentSession_getSession platform ((w.getSession platform r).invalidate n) r
  refine ⟨m, ?_, ?_⟩
  · simp only [renewSession, hcurrent, hs]
    rw [currentSession_updateSession, hm]
  · rcases hnew with hold | ⟨-, rfl⟩
    · rw [currentSession_invalidate hcurrent] at hold
      cases hold
    · exact nextSession_getSession

theorem currentSession_setLocationFromSubject {state : SubjectState} (h : w.currentSession r = some n) :
    (w.setLocationFromSubject platform r state).currentSession r = some n := by
  unfold setLocationFromSubject
  split <;> split <;> first
    | exact h
    | exact currentSession_setAttribute h
    | exact currentSession_setAttribute (currentSession_setAttribute h)

@[simp] theorem nextSubject_setAttribute {name : String} {value : Option Value} :
    (w.setAttribute platform r name value).nextSubject = w.nextSubject := by
  unfold setAttribute withSession
  split
  · rw [nextSubject_updateSession, nextSubject_getSession]
  · rfl

@[simp] theorem nextSubject_setLocationFromSubject {state : SubjectState} :
    (w.setLocationFromSubject platform r state).nextSubject = w.nextSubject := by
  unfold setLocationFromSubject
  split <;> split <;> simp only [nextSubject_setAttribute]

@[simp] theorem nextSubject_renewSession : (w.renewSession platform r).nextSubject = w.nextSubject := by
  obtain ⟨n, hcurrent, -⟩ := currentSession_getSession platform w r
  obtain ⟨s, hs⟩ := Option.isSome_iff_exists.mp (Option.filter_eq_some_iff.mp hcurrent).2
  simp only [renewSession, hcurrent, hs]
  rw [nextSubject_updateSession, nextSubject_getSession]
  show (w.getSession platform r).nextSubject = _
  rw [nextSubject_getSession]

theorem setSubject_eq_some {subject : SubjectImpl} {w' : World} (h : w.setSubject platform r subject = some w') :
    (w.renews r subject = true → (w.requests r).session = true) ∧
      w' = (w.beforeSubject platform r subject).setAttribute platform r SUBJECT (some (.subject subject)) := by
  unfold setSubject at h
  split at h
  · cases h
  · rename_i hsession
    refine ⟨fun hrenews => ?_, (Option.some.inj h).symm⟩
    simpa [hrenews] using hsession

theorem currentSession_setSubject {subject : SubjectImpl} {w' : World}
    (h : w.setSubject platform r subject = some w') (hrenews : w.renews r subject = true) :
    ∃ n, w'.currentSession r = some n ∧ (w.renewSession platform r).currentSession r = some n ∧
      w.nextSession ≤ n := by
  obtain ⟨n, hcurrent, hle⟩ := currentSession_renewSession platform w r
  refine ⟨n, ?_, hcurrent, hle⟩
  rw [(setSubject_eq_some h).2]
  refine currentSession_setAttribute ?_
  rw [beforeSubject, if_pos hrenews]
  exact currentSession_setLocationFromSubject hcurrent

/-- Without a new session the subject is set in the one that the request has. -/
theorem currentSession_setSubject_same {subject : SubjectImpl} {w' : World}
    (h : w.setSubject platform r subject = some w') (hrenews : w.renews r subject = false)
    (hcurrent : w.currentSession r = some n) : w'.currentSession r = some n := by
  rw [(setSubject_eq_some h).2]
  refine currentSession_setAttribute ?_
  rw [beforeSubject, hrenews]
  exact currentSession_setLocationFromSubject hcurrent

/-- A login for which the site wants a new session, and gets one. -/
def renewing (w : World) (r : Nat) (l : Login) : Bool :=
  l.path.verified && createNewSession (w.requests r).site

theorem renews_load {l : Login} : (w.load l).renews r (w.loginSubject l) = w.renewing r l := by
  unfold renews
  show (createNewSession (w.requests r).site &&
    (Function.update w.subjects w.nextSubject _ w.nextSubject).authenticated) = _
  rw [Function.update_self, Bool.and_comm]
  rfl

end World

/-! ## The invariant -/

/-- A session with the identifier `n`. `L` are the subjects that have logged in, and `O` the sessions where they
have. -/
structure Kept (O L : Nat → Prop) (k n : Nat) (s : HttpSession) : Prop where
  sid : s.getAttribute SID = some (.sessionId n)
  known : ∀ subject, s.getSubject = some subject → subject.ref < k
  origin : ∀ subject, s.getSubject = some subject → L subject.ref → O n

structure Accounted (O L : Nat → Prop) (w : World) : Prop where
  kept : ∀ n s, w.sessions n = some s → Kept O L w.nextSubject n s
  authenticated : ∀ ref, (w.subjects ref).authenticated = true → L ref
  pending : ∀ r ref, (w.requests r).login = some ref → L ref
  old : ∀ ref, L ref → ref < w.nextSubject

section Invariant

variable {platform} {O L : Nat → Prop} {k n r : Nat} {s t : HttpSession} {w : World}
  {f : HttpSession → HttpSession}

theorem Kept.congr (h : Kept O L k n s) (hsid : t.getAttribute SID = s.getAttribute SID)
    (hsubject : t.getSubject = s.getSubject) : Kept O L k n t where
  sid := hsid.trans h.sid
  known := by rw [hsubject]; exact h.known
  origin := by rw [hsubject]; exact h.origin

theorem kept_sessionCreated : Kept O L k n (.sessionCreated platform n) where
  sid := HttpSession.getAttribute_sessionCreated_SID
  known := by rw [HttpSession.getSubject_sessionCreated]; nofun
  origin := by rw [HttpSession.getSubject_sessionCreated]; nofun

theorem Kept.setAttribute {siteName : Option String} {name : String} {value : Option Value}
    (h : Kept O L k n s) (hsubject : name ≠ SUBJECT) (hsid : name ≠ SID) :
    Kept O L k n (s.setAttribute platform siteName name value) :=
  h.congr (HttpSession.getAttribute_setAttribute_ne (Ne.symm hsid) value)
    (HttpSession.getSubject_congr (HttpSession.getAttribute_setAttribute_ne (Ne.symm hsubject) value))

/-- The subject is set where it may be, or is not one that has logged in. -/
theorem Kept.setSubject {siteName : Option String} {subject : SubjectImpl} (h : Kept O L k n s)
    (hknown : subject.ref < k) (horigin : L subject.ref → O n) :
    Kept O L k n (s.setAttribute platform siteName SUBJECT (some (.subject subject))) := by
  have hget : ∀ other, (s.setAttribute platform siteName SUBJECT (some (.subject subject))).getSubject =
      some other → other = subject ∨ s.getSubject = some other := by
    intro other hother
    rw [HttpSession.getSubject_eq_some] at hother
    rcases @HttpSession.getAttribute_setAttribute platform siteName s SUBJECT (.subject subject) with hset | ⟨hset, -⟩
    · rw [hset] at hother
      cases hother
      exact .inl rfl
    · rw [hset] at hother
      exact .inr (HttpSession.getSubject_eq_some.mpr hother)
  refine ⟨(HttpSession.getAttribute_setAttribute_ne (by decide) _).trans h.sid, ?_, ?_⟩
  · intro other hother
    rcases hget other hother with rfl | hold
    · exact hknown
    · exact h.known other hold
  · intro other hother hlogged
    rcases hget other hother with rfl | hold
    · exact horigin hlogged
    · exact h.origin other hold hlogged

theorem Kept.removeAttribute {name : String} (h : Kept O L k n s) (hsid : name ≠ SID) :
    Kept O L k n (s.removeAttribute name) := by
  have hget : (s.removeAttribute name).getSubject = s.getSubject ∨ (s.removeAttribute name).getSubject = none := by
    by_cases hname : SUBJECT = name
    · refine .inr ?_
      rw [HttpSession.getSubject, HttpSession.getAttribute_removeAttribute, if_pos hname]
    · refine .inl (HttpSession.getSubject_congr ?_)
      rw [HttpSession.getAttribute_removeAttribute, if_neg hname]
  refine ⟨?_, ?_, ?_⟩
  · rw [HttpSession.getAttribute_removeAttribute, if_neg (Ne.symm hsid)]
    exact h.sid
  · intro subject hsubject
    rcases hget with hsame | hnone
    · exact h.known subject (hsame ▸ hsubject)
    · rw [hnone] at hsubject
      cases hsubject
  · intro subject hsubject
    rcases hget with hsame | hnone
    · exact h.origin subject (hsame ▸ hsubject)
    · rw [hnone] at hsubject
      cases hsubject

theorem Kept.initLocation {siteName : Option String} {location : Location} (h : Kept O L k n s) :
    Kept O L k n (s.initLocation platform siteName location) :=
  h.congr (HttpSession.getAttribute_initLocation (by decide) (by decide) location)
    (HttpSession.getSubject_congr (HttpSession.getAttribute_initLocation (by decide) (by decide) location))

/-- What an old session has is copied to a new one that may have it. -/
theorem Kept.putAll (h : Kept O L k n t) (hold : ∀ subject, s.getSubject = some subject → subject.ref < k)
    (horigin : O n) : Kept O L k n (t.putAll (s.oldContainer platform)) where
  sid := by
    rw [HttpSession.getAttribute_renewed (by decide) (by decide), if_pos (.inl rfl)]
    exact h.sid
  known := by
    intro subject hsubject
    rw [HttpSession.getSubject_eq_some, HttpSession.getAttribute_renewed (by decide) (by decide),
      if_neg (by decide), Option.or_eq_some_iff] at hsubject
    rcases hsubject with hcopied | ⟨-, hown⟩
    · exact hold subject (HttpSession.getSubject_eq_some.mpr hcopied)
    · exact h.known subject (HttpSession.getSubject_eq_some.mpr hown)
  origin := fun _ _ _ => horigin

theorem Accounted.putRequest (h : Accounted O L w) {env : DefaultEnvironment}
    (hlogin : ∀ ref, env.login = some ref → L ref) : Accounted O L (w.putRequest r env) where
  kept := h.kept
  authenticated := h.authenticated
  pending := by
    intro q ref hq
    replace hq : (Function.update w.requests r env q).login = some ref := hq
    rw [Function.update_apply] at hq
    split at hq
    · exact hlogin ref hq
    · exact h.pending q ref hq
  old := h.old

theorem Accounted.putSubject (h : Accounted O L w) {ref : Nat} {state : SubjectState}
    (hstate : state.authenticated = true → L ref) : Accounted O L (w.putSubject ref state) where
  kept := h.kept
  authenticated := by
    intro other hother
    replace hother : (Function.update w.subjects ref state other).authenticated = true := hother
    rw [Function.update_apply] at hother
    split at hother
    · rename_i heq
      rw [heq]
      exact hstate hother
    · exact h.authenticated other hother
  pending := h.pending
  old := h.old

theorem Accounted.invalidate (h : Accounted O L w) : Accounted O L (w.invalidate n) where
  kept := by
    intro m s hm
    replace hm : Function.update w.sessions n none m = some s := hm
    rw [Function.update_apply] at hm
    split at hm
    · cases hm
    · exact h.kept m s hm
  authenticated := h.authenticated
  pending := h.pending
  old := h.old

theorem Accounted.getSession (h : Accounted O L w) : Accounted O L (w.getSession platform r) where
  kept := by
    intro n s hn
    rw [World.nextSubject_getSession]
    rcases World.sessions_getSession hn with hold | rfl
    · exact h.kept n s hold
    · exact kept_sessionCreated
  authenticated := by
    rw [World.subjects_getSession]
    exact h.authenticated
  pending := by
    intro q ref hq
    rw [World.login_getSession] at hq
    exact h.pending q ref hq
  old := by
    rw [World.nextSubject_getSession]
    exact h.old

theorem Accounted.updateSession (h : Accounted O L w)
    (hf : ∀ n s, w.currentSession r = some n → Kept O L w.nextSubject n s → Kept O L w.nextSubject n (f s)) :
    Accounted O L (w.updateSession r f) where
  kept := by
    intro n s hn
    rw [World.nextSubject_updateSession]
    rcases World.sessions_updateSession hn with hold | ⟨t, hcurrent, ht, rfl⟩
    · exact h.kept n s hold
    · exact hf n t hcurrent (h.kept n t ht)
  authenticated := by
    rw [World.subjects_updateSession]
    exact h.authenticated
  pending := by
    rw [World.requests_updateSession]
    exact h.pending
  old := by
    rw [World.nextSubject_updateSession]
    exact h.old

/-- What a write to the session of a request keeps. -/
theorem Accounted.withSession (h : Accounted O L w)
    (hf : ∀ n s, (w.withSession platform r f).currentSession r = some n → Kept O L w.nextSubject n s →
      Kept O L w.nextSubject n (f s)) : Accounted O L (w.withSession platform r f) := by
  by_cases hsession : (w.requests r).session = true
  · rw [World.withSession, if_pos hsession]
    refine h.getSession.updateSession fun n s hn => ?_
    rw [World.nextSubject_getSession]
    refine hf n s ?_
    rw [World.currentSession_withSession hsession]
    exact hn
  · rw [World.withSession, if_neg hsession]
    exact h

theorem Accounted.setAttribute (h : Accounted O L w) {name : String} {value : Option Value}
    (hsubject : name ≠ SUBJECT) (hsid : name ≠ SID) : Accounted O L (w.setAttribute platform r name value) :=
  h.withSession fun _ _ _ hs => hs.setAttribute hsubject hsid

theorem Accounted.setLocationFromSubject (h : Accounted O L w) {state : SubjectState} :
    Accounted O L (w.setLocationFromSubject platform r state) := by
  unfold World.setLocationFromSubject
  split <;> split <;> first
    | exact h
    | exact h.setAttribute (by decide) (by decide)
    | exact (h.setAttribute (by decide) (by decide)).setAttribute (by decide) (by decide)

theorem Accounted.renewSession (h : Accounted O L w)
    (horigin : ∀ n, (w.renewSession platform r).currentSession r = some n → O n) :
    Accounted O L (w.renewSession platform r) := by
  obtain ⟨n, hcurrent, -⟩ := World.currentSession_getSession platform w r
  obtain ⟨s, hs⟩ := Option.isSome_iff_exists.mp (Option.filter_eq_some_iff.mp hcurrent).2
  have hrenew : w.renewSession platform r =
      (((w.getSession platform r).invalidate n).getSession platform r).updateSession r
        fun t => t.putAll (s.oldContainer platform) := by
    simp only [World.renewSession, hcurrent, hs]
  rw [hrenew] at horigin ⊢
  refine h.getSession.invalidate.getSession.updateSession fun m t hm ht => ?_
  refine ht.putAll ?_ (horigin m (World.currentSession_updateSession.trans hm))
  intro subject hsubject
  rw [World.nextSubject_getSession]
  exact ((show Accounted O L (w.getSession platform r) from h.getSession).kept n s hs).known subject hsubject

/-- A subject is set where it may be, and a new session is one where it may be, too. -/
theorem Accounted.setSubject {subject : SubjectImpl} {w' : World} (h : Accounted O L w)
    (hset : w.setSubject platform r subject = some w') (hknown : subject.ref < w.nextSubject)
    (horigin : ∀ n, w'.currentSession r = some n → w.renews r subject = true ∨ L subject.ref → O n) :
    Accounted O L w' := by
  have hbefore : Accounted O L (w.beforeSubject platform r subject) := by
    unfold World.beforeSubject
    split
    · rename_i hrenews
      refine (h.renewSession fun n hn => ?_).setLocationFromSubject
      obtain ⟨m, hlast, hcurrent, -⟩ := World.currentSession_setSubject hset hrenews
      obtain rfl := Option.some.inj (hcurrent.symm.trans hn)
      exact horigin _ hlast (.inl hrenews)
    · exact h.setLocationFromSubject
  have hnext : (w.beforeSubject platform r subject).nextSubject = w.nextSubject := by
    unfold World.beforeSubject
    split <;> simp only [World.nextSubject_setLocationFromSubject, World.nextSubject_renewSession]
  rw [(World.setSubject_eq_some hset).2] at horigin ⊢
  refine hbefore.withSession fun n s hn hs => hs.setSubject ?_ fun hlogged => horigin n hn (.inr hlogged)
  rw [hnext]
  exact hknown

theorem Accounted.mono {O' : Nat → Prop} (h : Accounted O L w) (hmono : ∀ n, O n → O' n) : Accounted O' L w where
  kept n s hs := ⟨(h.kept n s hs).sid, (h.kept n s hs).known,
    fun subject hsubject hlogged => hmono n ((h.kept n s hs).origin subject hsubject hlogged)⟩
  authenticated := h.authenticated
  pending := h.pending
  old := h.old

/-- A new object is in no session. -/
theorem Accounted.newSubject (L' : Nat → Prop) (h : Accounted O L w) {state : SubjectState}
    (hmono : ∀ ref, L ref → L' ref) (hnew : ∀ ref, L' ref → L ref ∨ ref = w.nextSubject)
    (hstate : state.authenticated = true → L' w.nextSubject) : Accounted O L' (w.newSubject state) where
  kept := by
    intro n s hs
    have hkept : Kept O L w.nextSubject n s := h.kept n s hs
    refine ⟨hkept.sid, fun subject hsubject => Nat.lt_succ_of_lt (hkept.known subject hsubject), ?_⟩
    intro subject hsubject hlogged
    rcases hnew _ hlogged with hold | heq
    · exact hkept.origin subject hsubject hold
    · have hlt : subject.ref < w.nextSubject := hkept.known subject hsubject
      omega
  authenticated := by
    intro ref href
    replace href : (Function.update w.subjects w.nextSubject state ref).authenticated = true := href
    rw [Function.update_apply] at href
    split at href
    · rename_i heq
      rw [heq]
      exact hstate href
    · exact hmono ref (h.authenticated ref href)
  pending := fun q ref hq => hmono ref (h.pending q ref hq)
  old := by
    intro ref href
    rcases hnew ref href with hold | rfl
    · exact Nat.lt_succ_of_lt (h.old ref hold)
    · exact Nat.lt_succ_self _

theorem Accounted.changeLanguage {subject : SubjectImpl} {tag : String} (h : Accounted O L w)
    (hknown : subject.ref < w.nextSubject) (hauthenticated : (w.subjects subject.ref).authenticated = false)
    (horigin : L subject.ref → ∃ n, w.currentSession r = some n ∧ O n) :
    Accounted O L (w.changeLanguage platform r subject tag) := by
  have hput : Accounted O L
      (w.putSubject subject.ref { w.subjects subject.ref with language := some tag }) :=
    h.putSubject fun hstate => h.authenticated _ hstate
  unfold World.changeLanguage
  dsimp only
  cases hset : (w.putSubject subject.ref { w.subjects subject.ref with language := some tag }).setSubject
    platform r subject with
  | none => exact hput
  | some w' =>
    have hrenews : (w.putSubject subject.ref { w.subjects subject.ref with language := some tag }).renews r
        subject = false := by
      unfold World.renews
      show (_ && (Function.update w.subjects subject.ref _ subject.ref).authenticated) = false
      rw [Function.update_self]
      show (_ && (w.subjects subject.ref).authenticated) = false
      rw [hauthenticated, Bool.and_false]
    refine hput.setSubject hset hknown fun n hn hor => ?_
    rcases hor with htrue | hlogged
    · rw [hrenews] at htrue
      cases htrue
    · obtain ⟨m, hm, ho⟩ := horigin hlogged
      have hsame : w'.currentSession r = some m := World.currentSession_setSubject_same hset hrenews hm
      obtain rfl := Option.some.inj (hsame.symm.trans hn)
      exact ho

theorem Accounted.setLanguage {tag : String} (h : Accounted O L w) :
    Accounted O L (w.setLanguage platform r tag) := by
  unfold World.setLanguage
  split
  · exact h
  · rename_i hnot
    split
    · refine Accounted.changeLanguage
        (h.newSubject L (fun _ hl => hl) (fun _ hl => .inl hl) (fun hfalse => by cases hfalse))
        (Nat.lt_succ_self _) ?_ ?_
      · show (Function.update w.subjects w.nextSubject _ w.nextSubject).authenticated = false
        rw [Function.update_self]
      · intro hlogged
        exact absurd (h.old _ hlogged) (Nat.lt_irrefl _)
    · rename_i subject hsubject
      obtain ⟨n, hn, hs⟩ := Option.bind_eq_some_iff.mp hsubject
      obtain ⟨s, hs, hget⟩ := Option.bind_eq_some_iff.mp hs
      have hkept : Kept O L w.nextSubject n s := h.kept n s hs
      have hauthenticated : (w.subjects subject.ref).authenticated = false := by
        rw [World.isSubjectAuthenticated, hsubject] at hnot
        exact Bool.eq_false_iff.mpr hnot
      have hchange : Accounted O L (w.changeLanguage platform r subject tag) :=
        h.changeLanguage (hkept.known subject hget) hauthenticated fun hlogged =>
          ⟨n, hn, hkept.origin subject hget hlogged⟩
      split
      · split
        · exact h
        · exact hchange
      · exact h

/-- A login reaches the session `n`. If it gets a new one, nobody knew its identifier before. -/
structure LogsIn (platform : Platform) (w : World) (r : Nat) (l : Login) (n : Nat) : Prop where
  current : (w.login platform r l).currentSession r = some n
  renewed : w.renewing r l = true → w.nextSession ≤ n

theorem Accounted.login (h : Accounted O L w) {l : Login} (horigin : ∀ n, LogsIn platform w r l n → O n) :
    ∃ L', Accounted O L' (w.login platform r l) := by
  refine ⟨fun ref => L ref ∨ ref = w.nextSubject, ?_⟩
  have hload : Accounted O (fun ref => L ref ∨ ref = w.nextSubject) (w.load l) :=
    h.newSubject _ (fun _ => .inl) (fun _ hor => hor) fun _ => .inr rfl
  cases hset : (w.load l).setSubject platform r (w.loginSubject l) with
  | none =>
    rw [World.login, hset]
    exact hload
  | some w' =>
    have hlogin : w.login platform r l =
        w'.putRequest r { w'.requests r with login := some w.nextSubject } := by
      rw [World.login, hset]
    rw [hlogin]
    have hset' : Accounted O (fun ref => L ref ∨ ref = w.nextSubject) w' := by
      refine hload.setSubject hset (Nat.lt_succ_self _) fun n hn _ => horigin n ⟨?_, fun hrenewing => ?_⟩
      · rw [hlogin]
        show Option.filter _ (Function.update w'.requests r _ r).httpSession = _
        rw [Function.update_self]
        exact hn
      · rw [← World.renews_load] at hrenewing
        obtain ⟨m, hm, -, hle⟩ := World.currentSession_setSubject hset hrenewing
        obtain rfl := Option.some.inj (hm.symm.trans hn)
        exact hle
    refine hset'.putRequest fun ref href => ?_
    cases href
    exact .inr rfl

theorem Accounted.initAuthenticatedSubject (h : Accounted O L w) :
    Accounted O L (w.initAuthenticatedSubject r) := by
  unfold World.initAuthenticatedSubject
  split
  · exact h
  · rename_i ref href
    exact (h.putSubject fun _ => h.pending r ref href).putRequest fun _ hnone => by cases hnone

theorem Accounted.arrive (h : Accounted O L w) {site : Option Site} {cookie : Option Nat} :
    Accounted O L (w.arrive platform r site cookie) :=
  (h.putRequest fun _ hnone => by cases hnone).withSession fun _ _ _ hs => hs.initLocation

theorem Accounted.logoutSubject (h : Accounted O L w) : Accounted O L (w.logoutSubject platform r) := by
  have hremove : Accounted O L (w.removeAttribute platform r SUBJECT) :=
    h.withSession fun _ _ _ hs => hs.removeAttribute (by decide)
  unfold World.logoutSubject
  split
  · dsimp only
    split
    · exact hremove.putRequest fun ref href => hremove.pending r ref href
    · exact hremove.invalidate.putRequest fun ref href => hremove.invalidate.pending r ref href
  · exact h

/-- One event keeps the invariant, where a login accounts for the session that it reaches. -/
theorem Step.accounted {e : Event} {w' : World} (h : Accounted O L w) (hstep : Step platform w e w')
    (horigin : ∀ r l n, e = .login r l → LogsIn platform w r l n → O n) : ∃ L', Accounted O L' w' := by
  obtain ⟨hproper, rfl⟩ := hstep
  cases e with
  | arrive r site cookie => exact ⟨L, h.arrive⟩
  | setAttribute r name value => exact ⟨L, h.setAttribute hproper.1 hproper.2⟩
  | removeAttribute r name => exact ⟨L, h.withSession fun _ _ _ hs => hs.removeAttribute hproper⟩
  | setLanguage r tag => exact ⟨L, h.setLanguage⟩
  | login r l => exact h.login fun n hn => horigin r l n rfl hn
  | initAuthenticatedSubject r => exact ⟨L, h.initAuthenticatedSubject⟩
  | logout r => exact ⟨L, h.logoutSubject⟩
  | expire n => exact ⟨L, h.invalidate⟩

end Invariant

/-! ## Runs -/

/-- A login of the run has reached the session. -/
def Origin (es : List Event) (n : Nat) : Prop :=
  ∃ es₁ r l es₂ w₁, es = es₁ ++ .login r l :: es₂ ∧ Run (Step platform) .init es₁ w₁ ∧ LogsIn platform w₁ r l n

theorem Origin.snoc {platform : Platform} {es : List Event} {n : Nat} (h : Origin platform es n) (e : Event) :
    Origin platform (es ++ [e]) n := by
  obtain ⟨es₁, r, l, es₂, w₁, rfl, hrun, hlogin⟩ := h
  exact ⟨es₁, r, l, es₂ ++ [e], w₁, by simp, hrun, hlogin⟩

theorem accounted_init {O : Nat → Prop} : Accounted O (fun _ => False) .init where
  kept := nofun
  authenticated := nofun
  pending := nofun
  old := nofun

theorem Run.accounted {platform : Platform} {es : List Event} {w : World}
    (h : Run (Step platform) .init es w) : ∃ L, Accounted (Origin platform es) L w := by
  induction h with
  | nil => exact ⟨_, accounted_init⟩
  | @snoc es w w' e hrun hstep ih =>
    obtain ⟨L, haccounted⟩ := ih
    refine Step.accounted (haccounted.mono fun n hn => hn.snoc e) hstep ?_
    rintro r l n rfl hlogin
    exact ⟨es, r, l, [], w, rfl, hrun, hlogin⟩

/-- The subject of a session is authenticated. -/
def Authenticated (w : World) (s : HttpSession) : Prop :=
  ∃ subject, s.getSubject = some subject ∧ (w.subjects subject.ref).authenticated = true

def samplePlatform : Platform where
  location := ⟨some "UTC", some "en"⟩
  defaultTimeZone := "GMT"
  defaultLocale := "de"
  sessionTimeout := 1800
  startTime := fun n => n
  loaderSite := fun _ => none

def sampleSite : Site := ⟨"manager", true, ⟨some "Europe/Berlin", none⟩⟩

def anna (path : LoginPath) : Login := ⟨path, some 7, some "anna", some "fr", none⟩

/-- Somebody without a session logs in. -/
def annasLogin (path : LoginPath) : List Event :=
  [.arrive 0 (some sampleSite) none, .login 0 (anna path), .initAuthenticatedSubject 0]

def annasWorld (path : LoginPath) : World := (annasLogin path).foldl (perform samplePlatform) .init

theorem annas_run (path : LoginPath) : Run (Step samplePlatform) .init (annasLogin path) (annasWorld path) :=
  .snoc (.snoc (.snoc .nil ⟨trivial, rfl⟩) ⟨trivial, rfl⟩) ⟨trivial, rfl⟩

/-- With a password the session is a new one; a member of a group has the one that was there before. -/
example : (annasWorld .password).currentSession 0 = some 1 ∧
    (annasWorld .password).isSubjectAuthenticated 0 = true ∧
    (annasWorld .passwordOfGroupMember).currentSession 0 = some 0 ∧
    (annasWorld .passwordOfGroupMember).isSubjectAuthenticated 0 = true := by
  decide +kernel

end Sessions
end Environment
end AppNG
