import AppNG.Lib.JavaString
import AppNG.Login.Subject
import Mathlib.Tactic.ByContra

/-!
# Login.Keycloak

`KeycloakLoginFilter`, and the logins of `CoreService` that it chooses from.

`keycloak_login_iff`: for a token whose claim is the list of the roles of a user with the prefix in
front, the login is that of the documentation if and only if the names that are left of the roles
name the same stored groups as the roles do, and the choice between the two logins is the right one
for a subject that may log in.
-/

namespace AppNG
namespace Login

structure Group where
  id : Nat
  name : String
  deriving DecidableEq, Repr

/-- `SubjectImpl` with its name and its groups. The `id` is `none` until it is stored, and so is the
type of a subject that is built for a session. -/
structure SubjectImpl (S D : Type) where
  id : Option Nat
  name : String
  realname : String
  email : Option String
  userType : Option UserType
  groups : List Group
  salt : Option S
  digest : Option D
  authenticated : Bool
  locked : Bool
  expiryDate : Option Date
  deriving DecidableEq, Repr

variable {S D : Type}

def SubjectImpl.new : SubjectImpl S D where
  id := none
  name := ""
  realname := ""
  email := none
  userType := none
  groups := []
  salt := none
  digest := none
  authenticated := false
  locked := false
  expiryDate := none

/-- A blank address changes nothing. -/
def SubjectImpl.setEmail (subject : SubjectImpl S D) (email : Option String) : SubjectImpl S D :=
  if Java.isBlank email then subject else { subject with email }

def SubjectImpl.isExpired (subject : SubjectImpl S D) (date : Date) : Bool :=
  match subject.expiryDate with
  | none => false
  | some expiryDate => expiryDate < date

/-- What is stored. -/
structure Store (S D : Type) where
  subjects : List (SubjectImpl S D)
  groups : List Group
  ids : ∀ subject ∈ subjects, subject.id.isSome = true

def Store.findByName (store : Store S D) (name : String) : Option (SubjectImpl S D) :=
  store.subjects.find? (·.name = name)

def Store.findByNameIn (store : Store S D) (names : List String) : List Group :=
  store.groups.filter (·.name ∈ names)

/-! ## `CoreService` -/

/-- The subject of the session. -/
abbrev Environment (S D : Type) := Option (SubjectImpl S D)

def isSubjectAuthenticated (env : Environment S D) : Bool :=
  match env with
  | none => false
  | some subject => subject.authenticated

def initAuthenticatedSubject (subject : SubjectImpl S D) : SubjectImpl S D :=
  { subject with authenticated := true, salt := none, digest := none }

/-- The private `login` that every other one ends in. -/
def loginSubject (env : Environment S D) : Option (SubjectImpl S D) → Bool × Environment S D
  | none => (false, env)
  | some subject => (true, some (initAuthenticatedSubject subject))

def loginUserWithGroups (store : Store S D) (env : Environment S D) (userName : String)
    (email : Option String) (realName : String) (appNGGroups : List String) :
    Bool × Environment S D :=
  let groups := store.findByNameIn appNGGroups
  if groups.isEmpty then (false, env)
  else
    loginSubject env
      (some { SubjectImpl.new.setEmail email with name := userName, realname := realName, groups })

def loginByUserName (store : Store S D) (env : Environment S D) (username : String) :
    Bool × Environment S D :=
  match store.findByName username with
  | none => (false, env)
  | some subject =>
    if subject.userType = some .localUser then loginSubject env (some subject) else (false, env)

/-! ## The filter -/

structure AccessToken where
  preferredUsername : String
  email : Option String
  givenName : Option String
  familyName : Option String
  otherClaims : String → Option (List String)

inductive Principal where
  | keycloak (token : AccessToken)
  | other

structure KeycloakLoginFilter where
  groupPrefix : String
  claimName : String
  securityRole : String

def KeycloakLoginFilter.extractGroupNames (filter : KeycloakLoginFilter) (token : AccessToken) :
    List String :=
  match token.otherClaims filter.claimName with
  | some claimGroups =>
    (claimGroups.filter (· ≠ filter.securityRole)).map (Java.remove filter.groupPrefix)
  | none => []

def AccessToken.realName (token : AccessToken) : String :=
  token.givenName.getD "null" ++ " " ++ token.familyName.getD "null"

def KeycloakLoginFilter.doFilter (filter : KeycloakLoginFilter) (store : Store S D)
    (principal : Option Principal) (env : Environment S D) : Environment S D :=
  if isSubjectAuthenticated env then env
  else
    match principal with
    | some (.keycloak token) =>
      let appNGGroups := filter.extractGroupNames token
      let userName := token.preferredUsername
      if appNGGroups.isEmpty then (loginByUserName store env userName).2
      else (loginUserWithGroups store env userName token.email token.realName appNGGroups).2
    | some .other => env
    | none => env

/-! ## The documented login -/

def MayLogIn (now : Date) (subject : SubjectImpl S D) : Prop :=
  subject.locked = false ∧ subject.isExpired now = false

instance (now : Date) (subject : SubjectImpl S D) : Decidable (MayLogIn now subject) :=
  inferInstanceAs (Decidable (_ ∧ _))

def Store.localUser (store : Store S D) (name : String) : Option (SubjectImpl S D) :=
  (store.findByName name).filter (·.userType = some .localUser)

def sessionOf (env : Environment S D) : Option (SubjectImpl S D) → Environment S D
  | none => env
  | some subject => some (initAuthenticatedSubject subject)

/-- The user of the token with some groups, and with the address unless it is blank. -/
def sessionWithGroups (token : AccessToken) (env : Environment S D) :
    List Group → Environment S D
  | [] => env
  | group :: groups =>
    some { SubjectImpl.new with
      email := token.email.filter fun email => !Java.isBlank (some email)
      name := token.preferredUsername
      realname := token.realName
      groups := group :: groups
      authenticated := true }

/-- Who has to be in the session afterwards, for the client roles `roles` of the user: without a
role besides the security role the local user of that name, otherwise the user of the token, with
the groups that have the name of such a role. -/
def documentedLogin (filter : KeycloakLoginFilter) (store : Store S D) (now : Date)
    (token : AccessToken) (roles : List String) (env : Environment S D) : Environment S D :=
  if ∀ role ∈ roles, role = filter.securityRole then
    sessionOf env ((store.localUser token.preferredUsername).filter (MayLogIn now ·))
  else
    sessionWithGroups token env
      (store.groups.filter fun g => g.name ∈ roles ∧ g.name ≠ filter.securityRole)

/-- The names left of the delivered roles name the stored groups that the roles name. -/
def NamesSameGroups (filter : KeycloakLoginFilter) (groups : List Group) (roles : List String) :
    Prop :=
  ∀ g ∈ groups, (g.name ∈ roles ∧ g.name ≠ filter.securityRole) ↔
    ∃ role ∈ roles, filter.groupPrefix ++ role ≠ filter.securityRole ∧
      Java.remove filter.groupPrefix role = g.name

/-- The choice between the two logins makes no difference to the local user of that name, if there
is one. -/
def ChoosesLogin (filter : KeycloakLoginFilter) (now : Date) (roles : List String)
    (subject : SubjectImpl S D) : Prop :=
  if ∀ role ∈ roles, filter.groupPrefix ++ role = filter.securityRole then
    (∀ role ∈ roles, role = filter.securityRole) ∧ MayLogIn now subject
  else (∀ role ∈ roles, role = filter.securityRole) → ¬ MayLogIn now subject

/-! ## What the filter makes of a token -/

section Token

variable {filter : KeycloakLoginFilter} {store : Store S D} {token : AccessToken}
  {roles : List String} {env : Environment S D} {now : Date}

/-- The claim that the documented mapper delivers. -/
def Delivers (filter : KeycloakLoginFilter) (token : AccessToken) (roles : List String) : Prop :=
  token.otherClaims filter.claimName = some (roles.map (filter.groupPrefix ++ ·))

theorem mem_extractGroupNames (h : Delivers filter token roles) (name : String) :
    name ∈ filter.extractGroupNames token ↔
      ∃ role ∈ roles, filter.groupPrefix ++ role ≠ filter.securityRole ∧
        Java.remove filter.groupPrefix role = name := by
  simp only [KeycloakLoginFilter.extractGroupNames, show _ = _ from h, List.mem_map,
    List.mem_filter, decide_eq_true_eq]
  constructor
  · rintro ⟨_, ⟨⟨role, hrole, rfl⟩, hne⟩, hname⟩
    rw [Java.remove_append] at hname
    exact ⟨role, hrole, hne, hname⟩
  · rintro ⟨role, hrole, hne, hname⟩
    rw [← Java.remove_append] at hname
    exact ⟨_, ⟨⟨role, hrole, rfl⟩, hne⟩, hname⟩

theorem extractGroupNames_isEmpty (h : Delivers filter token roles) :
    (filter.extractGroupNames token).isEmpty = true ↔
      ∀ role ∈ roles, filter.groupPrefix ++ role = filter.securityRole := by
  rw [List.isEmpty_iff, List.eq_nil_iff_forall_not_mem]
  constructor
  · intro hnil role hrole
    by_contra hne
    exact hnil _ ((mem_extractGroupNames h _).mpr ⟨role, hrole, hne, rfl⟩)
  · intro hall name hname
    obtain ⟨role, hrole, hne, -⟩ := (mem_extractGroupNames h name).mp hname
    exact hne (hall role hrole)

/-- The groups that the names left of the roles name. -/
theorem findByNameIn_extractGroupNames (h : Delivers filter token roles) :
    store.findByNameIn (filter.extractGroupNames token) =
        store.groups.filter (fun g => g.name ∈ roles ∧ g.name ≠ filter.securityRole) ↔
      NamesSameGroups filter store.groups roles := by
  unfold Store.findByNameIn NamesSameGroups
  constructor
  · intro heq g hg
    have hmem : g ∈ store.groups.filter (·.name ∈ filter.extractGroupNames token) ↔
        g ∈ store.groups.filter
          (fun g => g.name ∈ roles ∧ g.name ≠ filter.securityRole) := by rw [heq]
    simp only [List.mem_filter, hg, true_and, decide_eq_true_eq] at hmem
    rw [← hmem, mem_extractGroupNames h]
  · intro hall
    apply List.filter_congr
    intro g hg
    rw [decide_eq_decide, mem_extractGroupNames h, hall g hg]

/-! ## The login -/

theorem setEmail_new (email : Option String) :
    (SubjectImpl.new.setEmail email : SubjectImpl S D) =
      { SubjectImpl.new with email := email.filter fun email => !Java.isBlank (some email) } := by
  rw [SubjectImpl.setEmail]
  cases email with
  | none => rfl
  | some email =>
    rw [Option.filter_some]
    cases Java.isBlank (some email) with
    | true => rfl
    | false => rfl

theorem doFilter_delivers (h : Delivers filter token roles)
    (henv : isSubjectAuthenticated env = false) :
    filter.doFilter store (some (.keycloak token)) env =
      if ∀ role ∈ roles, filter.groupPrefix ++ role = filter.securityRole then
        sessionOf env (store.localUser token.preferredUsername)
      else sessionWithGroups token env (store.findByNameIn (filter.extractGroupNames token)) := by
  simp only [KeycloakLoginFilter.doFilter, henv, Bool.false_eq_true, if_false,
    extractGroupNames_isEmpty h]
  congr 1
  · unfold loginByUserName Store.localUser
    cases store.findByName token.preferredUsername with
    | none => rfl
    | some subject =>
      by_cases hlocal : subject.userType = some .localUser
      · simp [hlocal, sessionOf, loginSubject, Option.filter_some]
      · simp [hlocal, sessionOf, Option.filter_some]
  · unfold loginUserWithGroups
    rw [setEmail_new]
    cases store.findByNameIn (filter.extractGroupNames token) with
    | nil => rfl
    | cons group groups => rfl

theorem localUser_stored {name : String} {subject : SubjectImpl S D}
    (h : store.localUser name = some subject) : subject.id.isSome = true := by
  obtain ⟨hfind, -⟩ := Option.filter_eq_some_iff.mp h
  exact store.ids subject (List.mem_of_find?_eq_some hfind)

theorem sessionOf_eq_env (henv : isSubjectAuthenticated env = false)
    {user : Option (SubjectImpl S D)} : sessionOf env user = env ↔ user = none := by
  cases user with
  | none => exact ⟨fun _ => rfl, fun _ => rfl⟩
  | some subject =>
    refine ⟨fun heq => ?_, fun h => nomatch h⟩
    rw [← heq] at henv
    cases henv

theorem sessionWithGroups_eq_env (henv : isSubjectAuthenticated env = false)
    {groups : List Group} : sessionWithGroups token env groups = env ↔ groups = [] := by
  cases groups with
  | nil => exact ⟨fun _ => rfl, fun _ => rfl⟩
  | cons group groups =>
    refine ⟨fun heq => ?_, fun h => nomatch h⟩
    rw [← heq] at henv
    cases henv

theorem sessionWithGroups_inj (henv : isSubjectAuthenticated env = false)
    {groups groups' : List Group} :
    sessionWithGroups token env groups = sessionWithGroups token env groups' ↔
      groups = groups' := by
  refine ⟨fun heq => ?_, fun h => by rw [h]⟩
  cases groups with
  | nil => exact ((sessionWithGroups_eq_env henv).mp heq.symm).symm
  | cons group groups =>
    cases groups' with
    | nil => exact (sessionWithGroups_eq_env henv).mp heq
    | cons group' groups' =>
      have hgroups := congrArg (Option.map SubjectImpl.groups) heq
      exact Option.some.inj hgroups

/-- A session of a stored user is not one with the groups of the token. -/
theorem sessionOf_eq_sessionWithGroups (henv : isSubjectAuthenticated env = false)
    {user : Option (SubjectImpl S D)} (hstored : ∀ subject ∈ user, subject.id.isSome = true)
    {groups : List Group} :
    sessionOf env user = sessionWithGroups token env groups ↔ user = none ∧ groups = [] := by
  cases groups with
  | nil =>
    rw [sessionWithGroups, sessionOf_eq_env henv]
    exact ⟨fun h => ⟨h, rfl⟩, And.left⟩
  | cons group groups =>
    refine ⟨fun heq => ?_, fun h => nomatch h.2⟩
    cases user with
    | none => exact absurd ((sessionWithGroups_eq_env henv).mp heq.symm) (List.cons_ne_nil _ _)
    | some subject =>
      have hid : subject.id = none := congrArg SubjectImpl.id (Option.some.inj heq)
      have hsome := hstored subject rfl
      rw [hid] at hsome
      cases hsome

theorem filter_mayLogIn_eq {user : Option (SubjectImpl S D)} :
    user.filter (MayLogIn now ·) = user ↔ ∀ subject ∈ user, MayLogIn now subject := by
  cases user with
  | none => simp
  | some subject => simp [Option.filter_some]

theorem sessionOf_inj (henv : isSubjectAuthenticated env = false)
    {user : Option (SubjectImpl S D)} :
    sessionOf env user = sessionOf env (user.filter (MayLogIn now ·)) ↔
      ∀ subject ∈ user, MayLogIn now subject := by
  rw [← filter_mayLogIn_eq]
  constructor
  · intro heq
    cases hfilter : user.filter (MayLogIn now ·) with
    | none =>
      rw [hfilter] at heq
      exact ((sessionOf_eq_env henv).mp heq).symm
    | some subject =>
      rw [← hfilter, filter_mayLogIn_eq]
      intro other hother
      obtain ⟨huser, hmay⟩ := Option.filter_eq_some_iff.mp hfilter
      rw [huser] at hother
      cases hother
      exact of_decide_eq_true hmay
  · intro h
    rw [h]

theorem findByNameIn_of_none_left (h : Delivers filter token roles)
    (hnone : ∀ role ∈ roles, filter.groupPrefix ++ role = filter.securityRole) :
    store.findByNameIn (filter.extractGroupNames token) = [] := by
  have hempty := List.isEmpty_iff.mp ((extractGroupNames_isEmpty h).mpr hnone)
  simp [Store.findByNameIn, hempty]

theorem named_of_no_role (hnone : ∀ role ∈ roles, role = filter.securityRole) :
    store.groups.filter (fun g => g.name ∈ roles ∧ g.name ≠ filter.securityRole) = [] := by
  refine List.filter_eq_nil_iff.mpr fun g _ hg => ?_
  obtain ⟨hmem, hne⟩ := of_decide_eq_true hg
  exact hne (hnone _ hmem)

/-- The login is the documented one exactly for roles that the prefix removal leaves as they are,
as far as the names of stored groups tell, and local users whom the choice of the login suits. -/
theorem keycloak_login_iff (h : Delivers filter token roles)
    (henv : isSubjectAuthenticated env = false) :
    filter.doFilter store (some (.keycloak token)) env =
        documentedLogin filter store now token roles env ↔
      NamesSameGroups filter store.groups roles ∧
        ∀ subject ∈ store.localUser token.preferredUsername,
          ChoosesLogin filter now roles subject := by
  have hstored : ∀ subject ∈ store.localUser token.preferredUsername, subject.id.isSome = true :=
    fun subject hsubject => localUser_stored hsubject
  rw [doFilter_delivers h henv, ← findByNameIn_extractGroupNames h]
  unfold documentedLogin ChoosesLogin
  by_cases hleft : ∀ role ∈ roles, filter.groupPrefix ++ role = filter.securityRole
  · have hfound : store.findByNameIn (filter.extractGroupNames token) = [] :=
      findByNameIn_of_none_left h hleft
    rw [if_pos hleft, hfound]
    simp only [if_pos hleft]
    by_cases hrole : ∀ role ∈ roles, role = filter.securityRole
    · -- the local user on both sides, but the code lets in one that is locked or expired
      rw [if_pos hrole, named_of_no_role hrole, sessionOf_inj henv]
      exact ⟨fun hall => ⟨rfl, fun subject hs => ⟨hrole, hall subject hs⟩⟩,
        fun hall subject hs => (hall.2 subject hs).2⟩
    · -- the security role with the prefix in front is a role, for the filter it is none
      rw [if_neg hrole, sessionOf_eq_sessionWithGroups henv hstored, and_comm]
      refine and_congr eq_comm ?_
      rw [Option.eq_none_iff_forall_not_mem]
      exact forall₂_congr fun subject _ => ⟨fun hf => hf.elim, fun hc => hrole hc.1⟩
  · rw [if_neg hleft]
    simp only [if_neg hleft]
    by_cases hrole : ∀ role ∈ roles, role = filter.securityRole
    · -- the security role, delivered with the prefix, is a role for the filter
      have hmay : ∀ subject ∈ (store.localUser token.preferredUsername).filter (MayLogIn now ·),
          subject.id.isSome = true :=
        fun subject hs => hstored subject (Option.filter_eq_some_iff.mp hs).1
      rw [if_pos hrole, named_of_no_role hrole, eq_comm,
        sessionOf_eq_sessionWithGroups henv hmay, and_comm, Option.filter_eq_none_iff]
      refine and_congr Iff.rfl (forall₂_congr fun subject _ => ?_)
      exact ⟨fun hno _ hyes => hno (decide_eq_true hyes),
        fun hno hyes => hno hrole (of_decide_eq_true hyes)⟩
    · rw [if_neg hrole, sessionWithGroups_inj henv]
      exact ⟨fun heq => ⟨heq, fun _ _ hno => absurd hno hrole⟩, And.left⟩

/-- Roles without the prefix in them, none of which becomes the security role by the prefix. -/
theorem namesSameGroups_of_plain {groups : List Group}
    (hplain : ∀ role ∈ roles, filter.groupPrefix ≠ "" →
      ¬ filter.groupPrefix.toList <:+: role.toList)
    (hsecurity : ∀ role ∈ roles,
      filter.groupPrefix ++ role = filter.securityRole ↔ role = filter.securityRole) :
    NamesSameGroups filter groups roles := by
  intro g _
  constructor
  · rintro ⟨hrole, hne⟩
    have hkept : filter.groupPrefix ++ g.name ≠ filter.securityRole :=
      fun heq => hne ((hsecurity _ hrole).mp heq)
    exact ⟨g.name, hrole, hkept, Java.remove_of_not_infix (hplain _ hrole)⟩
  · rintro ⟨role, hrole, hne, hname⟩
    rw [Java.remove_of_not_infix (hplain role hrole)] at hname
    subst hname
    exact ⟨hrole, fun heq => hne ((hsecurity _ hrole).mpr heq)⟩

end Token

/-! ## The default configuration -/

def defaultFilter : KeycloakLoginFilter where
  groupPrefix := "appng_"
  claimName := "appNG Groups"
  securityRole := "appNG Keycloak User"

def tokenWith (roles : List String) : AccessToken where
  preferredUsername := "jane"
  email := none
  givenName := some "Jane"
  familyName := some "Doe"
  otherClaims := fun claim =>
    if claim = "appNG Groups" then some (roles.map ("appng_" ++ ·)) else none

def twoGroups : Store String String where
  subjects := []
  groups := [⟨1, "Administrators"⟩, ⟨2, "Editors"⟩]
  ids := fun _ h => nomatch h

theorem editor_logged_in :
    defaultFilter.doFilter twoGroups (some (.keycloak (tokenWith ["Editors"]))) none =
      documentedLogin defaultFilter twoGroups 0 (tokenWith ["Editors"]) ["Editors"] none := by
  have hclaim : Delivers defaultFilter (tokenWith ["Editors"]) ["Editors"] := rfl
  have hnames : NamesSameGroups defaultFilter twoGroups.groups ["Editors"] := by
    unfold NamesSameGroups
    decide +kernel
  exact (keycloak_login_iff hclaim rfl).mpr ⟨hnames, fun _ h => nomatch h⟩

/-- A role that is no group becomes one by the removal of the prefix inside it. -/
theorem prefix_inside_grants_group :
    Delivers defaultFilter (tokenWith ["Adminappng_istrators"]) ["Adminappng_istrators"] ∧
    (defaultFilter.doFilter twoGroups
        (some (.keycloak (tokenWith ["Adminappng_istrators"]))) none).map SubjectImpl.groups =
      some [⟨1, "Administrators"⟩] ∧
    documentedLogin defaultFilter twoGroups 0 (tokenWith ["Adminappng_istrators"])
      ["Adminappng_istrators"] none = none := by
  unfold Delivers
  decide +kernel

end Login
end AppNG
