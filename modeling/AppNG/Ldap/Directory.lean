import AppNG.Lib.DistinguishedName
import Mathlib.Data.List.Forall2

/-!
# Ldap.Directory

The directory a site logs its users in with, as far as LDAP says what it does.

A simple bind with an empty password is unauthenticated and succeeds (RFC 4513). Any other bind
verifies the password of an entry that the name means: the entry of a distinguished name
(RFC 4514), or, where the directory has account names, the entry with the user's part of a name
`user@domain`, `domain\user` or `user`.
-/

namespace AppNG
namespace Ldap

open DistinguishedName

/-- How a directory reads names and compares values. -/
structure Conventions where
  ber : List Nat → Option String
  /-- Whether a value asked for matches a stored value of an attribute. -/
  equal : String → String → String → Bool
  equal_refl : ∀ type value, equal type value value = true
  /-- The attribute with the user's part of an account name. -/
  accountAttribute : Option String

structure Entry where
  dn : Dn
  attributes : String → List String
  verifies : String → Bool
  /-- The values an entry is named by are values it has. -/
  named : ∀ rdn, dn.head? = some rdn → ∀ tv ∈ rdn, tv.2 ∈ attributes tv.1

variable (c : Conventions)

def MatchesRdn (asserted stored : Rdn) : Prop :=
  (∀ a ∈ asserted, ∃ s ∈ stored, s.1 = a.1 ∧ c.equal a.1 a.2 s.2 = true) ∧
    ∀ s ∈ stored, ∃ a ∈ asserted, s.1 = a.1 ∧ c.equal a.1 a.2 s.2 = true

/-- What follows the first backslash, else what precedes the last `@`, else everything. -/
def accountUser (name : String) : String :=
  if name.toList.contains '\\' then
    String.ofList ((name.toList.dropWhile (· ≠ '\\')).drop 1)
  else if name.toList.contains '@' then
    String.ofList ((name.toList.reverse.dropWhile (· ≠ '@')).drop 1).reverse
  else name

/-- The entry is meant by the name. Irreducible, as unfolding it runs the parser. -/
@[irreducible] def Names (name : String) (e : Entry) : Prop :=
  match parse c.ber name with
  | some dn => dn ≠ [] ∧ List.Forall₂ (MatchesRdn c) dn e.dn
  | none =>
    ∃ type, c.accountAttribute = some type ∧
      ∃ value ∈ e.attributes type, c.equal type (accountUser name) value = true

inductive Session where
  | anonymous
  | entry (e : Entry)

structure Directory where
  entries : List Entry
  bind : String → String → Option Session
  unauthenticated : ∀ name, bind name "" = some .anonymous
  authenticated : ∀ name password session, password ≠ "" → bind name password = some session →
    ∃ e ∈ entries, session = .entry e ∧ Names c name e ∧ e.verifies password = true
  /-- The attributes of the object with a name, if the session may read it. -/
  read : Session → String → Option (String → List String)
  startTls : Bool

variable {c}

theorem matchesRdn_refl (rdn : Rdn) : MatchesRdn c rdn rdn :=
  ⟨fun a ha => ⟨a, ha, rfl, c.equal_refl _ _⟩, fun s hs => ⟨s, hs, rfl, c.equal_refl _ _⟩⟩

theorem matchesDn_refl (dn : Dn) : List.Forall₂ (MatchesRdn c) dn dn :=
  List.forall₂_same.mpr fun rdn _ => matchesRdn_refl rdn

def Directory.single (e : Entry) (name password : String) (hnames : Names c name e)
    (hverifies : e.verifies password = true) : Directory c where
  entries := [e]
  bind n pw :=
    if pw = "" then some .anonymous
    else if n = name ∧ pw = password then some (.entry e) else none
  unauthenticated _ := if_pos rfl
  authenticated n pw session hpw h := by
    rw [if_neg hpw] at h
    split at h
    · rename_i heq
      obtain ⟨rfl, rfl⟩ := heq
      cases h
      exact ⟨e, List.mem_singleton_self e, rfl, hnames, hverifies⟩
    · cases h
  read _ _ := some fun _ => []
  startTls := true

end Ldap
end AppNG
