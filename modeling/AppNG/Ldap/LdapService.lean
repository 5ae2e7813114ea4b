import AppNG.Lib.JavaString
import AppNG.Ldap.Directory

/-!
# Ldap.LdapService

`LdapService.loginUser` and `loginGroup`. `none` stands for a `NamingException` or an `IOException`.

* `login_sound_iff`: against every directory a login verifies the password of the user it is for if
  and only if the password is not empty and the principal built from the user name means no entry
  but the user's.
* `plain_login_sound`: with the scheme `DN` this is so for a name without syntax.
-/

namespace AppNG
namespace Ldap

open DistinguishedName

/-- The case mapping of strings. Nothing below depends on what it does. -/
structure CaseMapping where
  toUpperCase : String → String
  lowerCase : String → String
  equalsIgnoreCase : String → String → Bool

structure SiteProperties where
  ldapDisabled : Bool
  ldapUserBaseDn : String
  ldapGroupBaseDn : String
  ldapDomain : String
  ldapIdAttribute : String
  ldapPrincipalScheme : String
  ldapStartTls : Bool

variable {c : Conventions} (cm : CaseMapping) (d : Directory c) (site : SiteProperties)

/-! ## Credentials -/

structure LdapCredentials where
  principal : String
  password : String
  useStartTls : Bool

/-- The credentials of a user; those of the service user may name a principal themselves. -/
def ldapCredentials (username password : String) : LdapCredentials where
  principal :=
    match cm.toUpperCase site.ldapPrincipalScheme with
    | "DN" => site.ldapIdAttribute ++ "=" ++ username ++ "," ++ site.ldapUserBaseDn
    | "UPN" => username ++ "@" ++ site.ldapDomain
    | "SAM" => site.ldapDomain ++ "\\" ++ username
    | _ => username
  password := password
  useStartTls := site.ldapStartTls

inductive Authentication where
  | none
  | simple (principal password : String)

def LdapCredentials.getLdapEnv (credentials : LdapCredentials) : Authentication :=
  if credentials.useStartTls then .none else .simple credentials.principal credentials.password

def LdapCredentials.addToContext (credentials : LdapCredentials) : Authentication :=
  .simple credentials.principal credentials.password

variable {site} in
def connect : Authentication → Option Session
  | .none => some .anonymous
  | .simple principal password => d.bind principal password

def tlsAwareLdapContext (credentials : LdapCredentials) : Option Session :=
  match connect d credentials.getLdapEnv with
  | none => none
  | some session =>
    if credentials.useStartTls then
      if d.startTls then connect d credentials.addToContext else none
    else some session

/-! ## Users -/

def loginUser (username password : String) : Bool :=
  if site.ldapDisabled then false
  else
    match tlsAwareLdapContext d (ldapCredentials cm site username password) with
    | none => false
    | some session =>
      let baseDn :=
        if Java.isBlank (some site.ldapUserBaseDn) then site.ldapGroupBaseDn
        else site.ldapUserBaseDn
      (d.read session baseDn).isSome

/-! ## Groups -/

structure LdapSubject where
  name : Option String
  realname : Option String
  email : Option String

def LdapSubject.setEmail (subject : LdapSubject) (email : Option String) : LdapSubject :=
  if Java.isBlank email then subject else { subject with email }

def getAttribute (attrs : String → List String) (name : String) : Option String :=
  (attrs (lower name)).head?

def fillSubjectFromAttributes (subject : LdapSubject) (attrs : String → List String) :
    LdapSubject :=
  { subject with
    name := getAttribute attrs site.ldapIdAttribute
    realname := getAttribute attrs "cn" }.setEmail ((getAttribute attrs "mail").map cm.lowerCase)

def getGroupDn (groupName groupBaseDn : String) : String :=
  if Java.isBlank (some groupBaseDn) then groupName else "cn=" ++ groupName ++ "," ++ groupBaseDn

/-- The loop over the members of a group. It ends with the first member that can not be read. -/
def findMember (session : Session) (username : String) (subject : LdapSubject) :
    List String → Bool × LdapSubject
  | [] => (false, subject)
  | member :: members =>
    match d.read session member with
    | none => (false, subject)
    | some attrs =>
      match getAttribute attrs site.ldapIdAttribute with
      | some id =>
        if cm.equalsIgnoreCase username id then
          (true, fillSubjectFromAttributes cm site subject attrs)
        else findMember session username subject members
      | none => findMember session username subject members

def checkGroupMembership (session : Session) (username : String) (subject : LdapSubject)
    (group : String) : Bool × LdapSubject :=
  match d.read session (getGroupDn group site.ldapGroupBaseDn) with
  | none => (false, subject)
  | some attrs => findMember cm d site session username subject (attrs "member")

def getUserGroups (session : Session) (username : String) (subject : LdapSubject) :
    List String → List String × LdapSubject
  | [] => ([], subject)
  | group :: groups =>
    match checkGroupMembership cm d site session username subject group with
    | (true, subject) =>
      let (userGroups, subject) := getUserGroups session username subject groups
      (group :: userGroups, subject)
    | (false, subject) => getUserGroups session username subject groups

def loginGroup (username password : String) (subject : LdapSubject) (groupNames : List String) :
    List String × LdapSubject :=
  if site.ldapDisabled then ([], subject)
  else
    match tlsAwareLdapContext d (ldapCredentials cm site username password) with
    | none => ([], subject)
    | some session => getUserGroups cm d site session username subject groupNames

/-! ## Soundness -/

/-- The directory has verified a password against an entry with the user name as its id. -/
def Verified (username password : String) : Prop :=
  password ≠ "" ∧ ∃ e ∈ d.entries,
    d.bind (ldapCredentials cm site username password).principal password = some (.entry e) ∧
      e.verifies password = true ∧ username ∈ e.attributes (lower site.ldapIdAttribute)

def Sound (username password : String) : Prop :=
  (loginUser cm d site username password = true → Verified cm d site username password) ∧
    ∀ subject groupNames, (loginGroup cm d site username password subject groupNames).1 ≠ [] →
      Verified cm d site username password

/-- No other id matches the user name. -/
def ExactId (c : Conventions) (site : SiteProperties) (username : String) : Prop :=
  ∀ value, c.equal (lower site.ldapIdAttribute) username value = true → value = username

/-- A principal, read as a distinguished name or else as an account name, has the user name as its
id. -/
def MeansUser (c : Conventions) (site : SiteProperties) (username principal : String) : Prop :=
  match parse c.ber principal with
  | some [] => True
  | some (rdn :: _) =>
    (lower site.ldapIdAttribute, username) ∈ rdn ∧ ExactId c site username
  | none =>
    ∀ type, c.accountAttribute = some type →
      type = lower site.ldapIdAttribute ∧ accountUser principal = username ∧
        ExactId c site username

variable {cm d site} {username password principal : String} {credentials : LdapCredentials}
  {session : Session} {e : Entry}

theorem tlsAwareLdapContext_some (h : tlsAwareLdapContext d credentials = some session) :
    d.bind credentials.principal credentials.password = some session := by
  unfold tlsAwareLdapContext LdapCredentials.getLdapEnv at h
  by_cases htls : credentials.useStartTls = true
  · simp only [htls, if_true, connect] at h
    split at h
    · exact h
    · cases h
  · simp only [htls, Bool.false_eq_true, if_false, connect] at h
    split at h
    · cases h
    · rename_i hbind
      rw [← h]
      exact hbind

theorem tlsAwareLdapContext_eq (htls : d.startTls = true) :
    tlsAwareLdapContext d credentials = d.bind credentials.principal credentials.password := by
  unfold tlsAwareLdapContext LdapCredentials.getLdapEnv
  by_cases h : credentials.useStartTls = true
  · simp only [h, htls, if_true, connect, LdapCredentials.addToContext]
  · simp only [h, Bool.false_eq_true, if_false, connect]
    cases d.bind credentials.principal credentials.password <;> rfl

theorem names_user (hmeans : MeansUser c site username principal) (hnames : Names c principal e) :
    username ∈ e.attributes (lower site.ldapIdAttribute) := by
  unfold MeansUser at hmeans
  unfold Names at hnames
  cases hparse : parse c.ber principal with
  | none =>
    rw [hparse] at hmeans hnames
    obtain ⟨type, haccount, value, hvalue, hequal⟩ := hnames
    obtain ⟨rfl, huser, hexact⟩ := hmeans type haccount
    rw [huser] at hequal
    exact hexact value hequal ▸ hvalue
  | some dn =>
    rw [hparse] at hmeans hnames
    cases dn with
    | nil => exact absurd rfl hnames.1
    | cons rdn base =>
      obtain ⟨hmem, hexact⟩ := hmeans
      obtain ⟨stored, rest, hmatch, -, hdn⟩ := List.forall₂_cons_left_iff.mp hnames.2
      obtain ⟨tv, htv, htype, hequal⟩ := hmatch.1 _ hmem
      have hnamed := e.named stored (by rw [hdn]; rfl) tv htv
      rwa [htype, hexact tv.2 hequal] at hnamed

theorem verified_of_bind (hpw : password ≠ "")
    (hmeans : MeansUser c site username (ldapCredentials cm site username password).principal)
    (h : tlsAwareLdapContext d (ldapCredentials cm site username password) = some session) :
    Verified cm d site username password := by
  have hbind := tlsAwareLdapContext_some h
  obtain ⟨e, he, rfl, hnames, hverifies⟩ := d.authenticated _ _ session hpw hbind
  exact ⟨hpw, e, he, hbind, hverifies, names_user hmeans hnames⟩

theorem sound_of_meansUser (hpw : password ≠ "")
    (hmeans : MeansUser c site username (ldapCredentials cm site username password).principal) :
    Sound cm d site username password := by
  constructor
  · intro h
    unfold loginUser at h
    split at h
    · cases h
    · split at h
      · cases h
      · rename_i session hsession
        exact verified_of_bind hpw hmeans hsession
  · intro subject groupNames h
    unfold loginGroup at h
    split at h
    · exact absurd rfl h
    · split at h
      · exact absurd rfl h
      · rename_i session hsession
        exact verified_of_bind hpw hmeans hsession

/-! ## Directories that let in somebody else -/

def Entry.ofRdn (rdn : Rdn) (base : Dn) (password : String) : Entry where
  dn := rdn :: base
  attributes type := (rdn.filter (·.1 = type)).map (·.2)
  verifies pw := pw = password
  named := by
    intro r hr tv htv
    obtain rfl : rdn = r := Option.some.inj hr
    exact List.mem_map.mpr ⟨tv, List.mem_filter.mpr ⟨htv, by simp⟩, rfl⟩

@[simp] theorem Entry.mem_ofRdn {rdn : Rdn} {base : Dn} {type value : String} :
    value ∈ (Entry.ofRdn rdn base password).attributes type ↔ (type, value) ∈ rdn := by
  constructor
  · intro h
    obtain ⟨tv, htv, rfl⟩ := List.mem_map.mp h
    obtain ⟨hmem, htype⟩ := List.mem_filter.mp htv
    rw [← of_decide_eq_true htype]
    exact hmem
  · intro h
    exact List.mem_map.mpr ⟨(type, value), List.mem_filter.mpr ⟨h, by simp⟩, rfl⟩

def changeId (id username value : String) (tv : String × String) : String × String :=
  if tv = (id, username) then (id, value) else tv

theorem changeId_matches {id value : String} (h : c.equal id username value = true)
    (tv : String × String) :
    (changeId id username value tv).1 = tv.1 ∧
      c.equal tv.1 tv.2 (changeId id username value tv).2 = true := by
  unfold changeId
  split
  · rename_i heq
    rw [heq]
    exact ⟨rfl, h⟩
  · exact ⟨rfl, c.equal_refl _ _⟩

theorem matchesRdn_changeId {id value : String} (h : c.equal id username value = true)
    (rdn : Rdn) : MatchesRdn c rdn (rdn.map (changeId id username value)) := by
  constructor
  · intro tv htv
    exact ⟨_, List.mem_map_of_mem htv, changeId_matches h tv⟩
  · intro s hs
    obtain ⟨tv, htv, rfl⟩ := List.mem_map.mp hs
    exact ⟨tv, htv, changeId_matches h tv⟩

theorem changeId_gone {id value : String} (h : value ≠ username) (rdn : Rdn) :
    (id, username) ∉ rdn.map (changeId id username value) := by
  intro hmem
  obtain ⟨tv, -, heq⟩ := List.mem_map.mp hmem
  unfold changeId at heq
  split at heq
  · exact h (Prod.mk.inj heq).2
  · rename_i hne
    exact hne heq

theorem Entry.verifies_ofRdn (rdn : Rdn) (base : Dn) :
    (Entry.ofRdn rdn base password).verifies password = true := decide_eq_true rfl

/-- Another entry for the user's part of an account name: the one with that id, or with one that it
matches. -/
theorem account_other {type : String} (haccount : c.accountAttribute = some type)
    (hparse : parse c.ber principal = none)
    (h : ¬ (type = lower site.ldapIdAttribute ∧ accountUser principal = username ∧
      ExactId c site username)) (password : String) :
    ∃ e, Names c principal e ∧ e.verifies password = true ∧
      username ∉ e.attributes (lower site.ldapIdAttribute) := by
  obtain ⟨value, hequal, hother⟩ : ∃ value,
      c.equal type (accountUser principal) value = true ∧
        (lower site.ldapIdAttribute, username) ≠ (type, value) := by
    by_cases hsame : (lower site.ldapIdAttribute, username) = (type, accountUser principal)
    · obtain ⟨rfl, rfl⟩ := Prod.mk.inj hsame
      have hexact : ¬ ExactId c site (accountUser principal) := fun hexact =>
        h ⟨rfl, rfl, hexact⟩
      simp only [ExactId, not_forall] at hexact
      obtain ⟨value, hequal, hne⟩ := hexact
      exact ⟨value, hequal, fun heq => hne (Prod.mk.inj heq).2.symm⟩
    · exact ⟨_, c.equal_refl _ _, hsame⟩
  refine ⟨Entry.ofRdn [(type, value)] [] password, ?_, Entry.verifies_ofRdn _ _, ?_⟩
  · unfold Names
    rw [hparse]
    exact ⟨type, haccount, value, by simp, hequal⟩
  · rw [Entry.mem_ofRdn, List.mem_singleton]
    exact hother

/-- Another entry for a distinguished name: the one it spells out, or, where that is the user's,
one with an id that the user name matches. -/
theorem dn_other {rdn : Rdn} {base : Dn} (hparse : parse c.ber principal = some (rdn :: base))
    (h : ¬ ((lower site.ldapIdAttribute, username) ∈ rdn ∧ ExactId c site username))
    (password : String) :
    ∃ e, Names c principal e ∧ e.verifies password = true ∧
      username ∉ e.attributes (lower site.ldapIdAttribute) := by
  have hnames : ∀ stored, MatchesRdn c rdn stored →
      Names c principal (Entry.ofRdn stored base password) := by
    intro stored hmatch
    unfold Names
    rw [hparse]
    exact ⟨by simp, .cons hmatch (matchesDn_refl base)⟩
  by_cases hmem : (lower site.ldapIdAttribute, username) ∈ rdn
  · have hexact : ¬ ExactId c site username := fun hexact => h ⟨hmem, hexact⟩
    simp only [ExactId, not_forall] at hexact
    obtain ⟨value, hequal, hne⟩ := hexact
    refine ⟨_, hnames _ (matchesRdn_changeId hequal rdn), Entry.verifies_ofRdn _ _, ?_⟩
    rw [Entry.mem_ofRdn]
    exact changeId_gone hne rdn
  · refine ⟨_, hnames _ (matchesRdn_refl rdn), Entry.verifies_ofRdn _ _, ?_⟩
    rw [Entry.mem_ofRdn]
    exact hmem

/-- A principal that does not mean the user means somebody in some directory. -/
theorem names_other (h : ¬ MeansUser c site username principal) (password : String) :
    ∃ e, Names c principal e ∧ e.verifies password = true ∧
      username ∉ e.attributes (lower site.ldapIdAttribute) := by
  unfold MeansUser at h
  cases hparse : parse c.ber principal with
  | none =>
    rw [hparse] at h
    simp only [not_forall] at h
    obtain ⟨type, haccount, h⟩ := h
    exact account_other haccount hparse h password
  | some dn =>
    rw [hparse] at h
    cases dn with
    | nil => exact absurd trivial h
    | cons rdn base => exact dn_other hparse h password

/-- A directory without entries, whose objects anybody may read. -/
def Directory.empty : Directory c where
  entries := []
  bind _ password := if password = "" then some .anonymous else none
  unauthenticated _ := if_pos rfl
  authenticated _ password session hpw h := by
    rw [if_neg hpw] at h
    cases h
  read _ _ := some fun _ => []
  startTls := true

theorem loginUser_of_bind (henabled : site.ldapDisabled = false) (htls : d.startTls = true)
    (hread : ∀ session name, (d.read session name).isSome = true)
    (hbind : d.bind (ldapCredentials cm site username password).principal password =
      some session) :
    loginUser cm d site username password = true := by
  have hsession : tlsAwareLdapContext d (ldapCredentials cm site username password) =
      some session := (tlsAwareLdapContext_eq htls).trans hbind
  unfold loginUser
  rw [henabled, hsession]
  exact hread _ _

/-- A login is sound against every directory with the conventions `c` if and only if LDAP is
disabled, or the password is not empty and the principal means the user. -/
theorem login_sound_iff (c : Conventions) (cm : CaseMapping) (site : SiteProperties)
    (username password : String) :
    (∀ d : Directory c, Sound cm d site username password) ↔
      site.ldapDisabled = true ∨ (password ≠ "" ∧
        MeansUser c site username (ldapCredentials cm site username password).principal) := by
  constructor
  · intro hsound
    cases henabled : site.ldapDisabled with
    | true => exact .inl rfl
    | false =>
      have hpw : password ≠ "" := by
        rintro rfl
        have hbind : (Directory.empty (c := c)).bind
            (ldapCredentials cm site username "").principal "" = some .anonymous :=
          (Directory.empty (c := c)).unauthenticated _
        have hlogin := loginUser_of_bind henabled rfl (fun _ _ => rfl) hbind
        exact ((hsound Directory.empty).1 hlogin).1 rfl
      refine .inr ⟨hpw, Classical.byContradiction fun hmeans => ?_⟩
      obtain ⟨e, hnames, hverifies, hother⟩ := names_other hmeans password
      let d := Directory.single e _ password hnames hverifies
      have hbind : d.bind (ldapCredentials cm site username password).principal password =
          some (.entry e) := by
        simp [d, Directory.single, hpw]
      have hlogin := loginUser_of_bind (d := d) henabled rfl (fun _ _ => rfl) hbind
      obtain ⟨-, e', -, hbind', -, hid⟩ := (hsound d).1 hlogin
      rw [hbind] at hbind'
      cases hbind'
      exact hother hid
  · rintro (hdisabled | ⟨hpw, hmeans⟩) d
    · constructor
      · intro h
        simp [loginUser, hdisabled] at h
      · intro subject groupNames h
        simp [loginGroup, hdisabled] at h
    · exact sound_of_meansUser hpw hmeans

/-- With the scheme `DN` and an exact id, a user name without syntax needs a password only. -/
theorem plain_login_sound {dn : Dn} (hscheme : cm.toUpperCase site.ldapPrincipalScheme = "DN")
    (htype : isType site.ldapIdAttribute.toList = true)
    (hbase : parse c.ber site.ldapUserBaseDn = some dn) (hne : site.ldapUserBaseDn ≠ "")
    (hplain : PlainValue username.toList) (hexact : ExactId c site username)
    (hpw : password ≠ "") : Sound cm d site username password := by
  refine sound_of_meansUser hpw ?_
  have hprincipal : (ldapCredentials cm site username password).principal =
      site.ldapIdAttribute ++ "=" ++ username ++ "," ++ site.ldapUserBaseDn := by
    simp [ldapCredentials, hscheme]
  unfold MeansUser
  rw [hprincipal, parse_cons htype hplain hbase hne]
  exact ⟨List.mem_singleton_self _, hexact⟩

/-! ## A guest -/

def sampleCase : CaseMapping where
  toUpperCase s := String.ofList (s.toList.map Char.toUpper)
  lowerCase s := String.ofList (s.toList.map Char.toLower)
  equalsIgnoreCase s t := lower s = lower t

def sampleConventions : Conventions where
  ber _ := none
  equal _ asserted stored := asserted = stored
  equal_refl _ _ := decide_eq_true rfl
  accountAttribute := none

def sampleSite : SiteProperties where
  ldapDisabled := false
  ldapUserBaseDn := "dc=example,dc=org"
  ldapGroupBaseDn := "ou=groups,dc=example,dc=org"
  ldapDomain := "EXAMPLE"
  ldapIdAttribute := "uid"
  ldapPrincipalScheme := "DN"
  ldapStartTls := false

def eve : Entry :=
  Entry.ofRdn [("uid", "eve")] [[("ou", "guests")], [("dc", "example")], [("dc", "org")]] "secret"

theorem eve_named : Names sampleConventions "uid=eve,ou=guests,dc=example,dc=org" eve := by
  have hparse : parse sampleConventions.ber "uid=eve,ou=guests,dc=example,dc=org" =
      some eve.dn := by decide +kernel
  unfold Names
  rw [hparse]
  exact ⟨by simp [eve, Entry.ofRdn], matchesDn_refl _⟩

def guestDirectory : Directory sampleConventions :=
  Directory.single eve "uid=eve,ou=guests,dc=example,dc=org" "secret" eve_named
    (by simp [eve, Entry.ofRdn])

/-- The guest is let in by the name of somebody else, and anybody without a password. -/
theorem eve_is_somebody_else :
    ¬ Sound sampleCase guestDirectory sampleSite "eve,ou=guests" "secret" ∧
      ¬ Sound sampleCase guestDirectory sampleSite "anna" "" := by
  constructor
  · intro h
    have hprincipal : (ldapCredentials sampleCase sampleSite "eve,ou=guests" "secret").principal =
        "uid=eve,ou=guests,dc=example,dc=org" := by decide +kernel
    have hbind : guestDirectory.bind
        (ldapCredentials sampleCase sampleSite "eve,ou=guests" "secret").principal "secret" =
          some (.entry eve) := by
      rw [hprincipal]
      simp [guestDirectory, Directory.single]
    have hlogin := loginUser_of_bind rfl rfl (fun _ _ => rfl) hbind
    obtain ⟨-, e, he, -, -, hid⟩ := h.1 hlogin
    obtain rfl : e = eve := List.mem_singleton.mp he
    rw [eve, Entry.mem_ofRdn, List.mem_singleton] at hid
    exact absurd (Prod.mk.inj hid).2 (by simp)
  · intro h
    have hlogin := loginUser_of_bind (d := guestDirectory) rfl rfl (fun _ _ => rfl)
      (guestDirectory.unauthenticated
        (ldapCredentials sampleCase sampleSite "anna" "").principal)
    exact (h.1 hlogin).1 rfl

end Ldap
end AppNG
