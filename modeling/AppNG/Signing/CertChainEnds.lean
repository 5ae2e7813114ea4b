import AppNG.Lib.Descent
import AppNG.Signing.CertChain

/-!
# Signing.CertChainEnds

When the walk of `validateKeyChain` through the truststore ends.

The walk keeps no record of the certificates it has been to; it only does not go from one to itself.

* `validateClient_eq_search`: the walk is the search of `Lib.Descent`, for a self-signed certificate.
* `walk_ends_iff`: it ends if and only if no certificate that it comes to leads it back to this
  certificate.
* `cross_signed_endless`: from one of two authorities that signed each other it does not end.
-/

namespace AppNG
namespace Signing

open Descent

section

variable {C N : Type} [DecidableEq C] [DecidableEq N]

/-- The anchor's name is that of the issuer, and its key verifies the certificate. -/
def Signs (pki : Pki C N) (client trusted : C) : Prop :=
  pki.issuer client = pki.subject trusted ∧ pki.verifies trusted client = true

/-- One step up: to an anchor that is to be validated itself. -/
def Climbs (pki : Pki C N) (trustedCerts : List C) (client trusted : C) : Prop :=
  trusted ∈ trustedCerts ∧ Signs pki client trusted ∧ isSelfSigned pki trusted = false ∧
    client ≠ trusted

/-- Some way up ends at a self-signed anchor. -/
def Rooted (pki : Pki C N) (trustedCerts : List C) (client : C) : Prop :=
  ∃ cert, Relation.ReflTransGen (Climbs pki trustedCerts) client cert ∧
    ∃ root ∈ trustedCerts, Signs pki cert root ∧ isSelfSigned pki root = true

/-- The walk goes up to an anchor unless one that is tried before, from the end of the list, is
self-signed or rooted. -/
def ComesTo (pki : Pki C N) (trustedCerts : List C) (client trusted : C) : Prop :=
  Climbs pki trustedCerts client trusted ∧
    ∃ before after, trustedCerts.reverse = before ++ trusted :: after ∧
      ∀ t ∈ before, Signs pki client t →
        isSelfSigned pki t = false ∧ (client ≠ t → ¬ Rooted pki trustedCerts t)

/-! ## The walk as a search -/

def branch (pki : Pki C N) (client trusted : C) : Branch C :=
  if pki.issuer client = pki.subject trusted then
    if pki.verifies trusted client then
      if isSelfSigned pki trusted then .goal
      else if client = trusted then .nothing
      else .place trusted
    else .nothing
  else .nothing

def anchorBranches (pki : Pki C N) (trustedCerts : List C) (client : C) : List (Branch C) :=
  trustedCerts.reverse.map (branch pki client)

variable {pki : Pki C N} {trustedCerts : List C} {client trusted : C}

theorem anchorLoop_eq_tryAll (recur : C → Option Bool) (anchors : List C) :
    anchorLoop pki recur client anchors = tryAll recur (anchors.map (branch pki client)) := by
  induction anchors with
  | nil => rfl
  | cons trusted rest ih =>
    simp only [anchorLoop, List.map_cons, branch, ih]
    split
    · split
      · split
        · rfl
        · split
          · rfl
          · rfl
      · rfl
    · rfl

theorem validateClient_eq_search (d : Nat) (client : C) :
    validateClient pki trustedCerts d client = search (anchorBranches pki trustedCerts) d client := by
  induction d generalizing client with
  | zero => rfl
  | succ d ih =>
    rw [validateClient, search, anchorLoop_eq_tryAll, funext ih]
    rfl

theorem branch_goal :
    branch pki client trusted = .goal ↔
      Signs pki client trusted ∧ isSelfSigned pki trusted = true := by
  unfold branch Signs
  grind

theorem branch_place {t : C} :
    branch pki client trusted = .place t ↔
      t = trusted ∧ Signs pki client trusted ∧ isSelfSigned pki trusted = false ∧
        client ≠ trusted := by
  unfold branch Signs
  grind

theorem child_iff :
    Child (anchorBranches pki trustedCerts) client trusted ↔ Climbs pki trustedCerts client trusted := by
  simp only [Child, anchorBranches, List.mem_map, List.mem_reverse, branch_place]
  constructor
  · rintro ⟨t, ht, rfl, hsigns⟩
    exact ⟨ht, hsigns⟩
  · rintro ⟨ht, hsigns⟩
    exact ⟨trusted, ht, rfl, hsigns⟩

theorem finds_iff_rooted :
    Finds (anchorBranches pki trustedCerts) client ↔ Rooted pki trustedCerts client := by
  have hchild : Child (anchorBranches pki trustedCerts) = Climbs pki trustedCerts := by
    funext a b
    exact propext child_iff
  simp only [Finds, Rooted, hchild, anchorBranches, List.mem_map, List.mem_reverse, branch_goal]

theorem not_hits_iff :
    ¬ Hits (anchorBranches pki trustedCerts) (branch pki client trusted) ↔
      (Signs pki client trusted →
        isSelfSigned pki trusted = false ∧ (client ≠ trusted → ¬ Rooted pki trustedCerts trusted)) := by
  cases h : branch pki client trusted with
  | nothing =>
    have hgoal : ¬ (Signs pki client trusted ∧ isSelfSigned pki trusted = true) := by
      rw [← branch_goal, h]
      exact nofun
    have hplace : ¬ (trusted = trusted ∧ Signs pki client trusted ∧
        isSelfSigned pki trusted = false ∧ client ≠ trusted) := by
      rw [← branch_place, h]
      exact nofun
    simp only [Hits]
    grind
  | goal =>
    have hgoal := branch_goal.mp h
    simp [Hits, hgoal.1, hgoal.2]
  | place t =>
    obtain ⟨rfl, hsigns, hself, hne⟩ := branch_place.mp h
    simp [Hits, hsigns, hself, hne, finds_iff_rooted]

theorem enters_iff :
    Enters (anchorBranches pki trustedCerts) client trusted ↔ ComesTo pki trustedCerts client trusted := by
  constructor
  · intro henters
    refine ⟨child_iff.mp (enters_child henters), ?_⟩
    obtain ⟨pre, post, hsplit, hpre⟩ := henters
    obtain ⟨before, rest, hrev, rfl, hrest⟩ := List.map_eq_append_iff.mp hsplit
    obtain ⟨t, after, rfl, hbranch, _⟩ := List.map_eq_cons_iff.mp hrest
    obtain ⟨rfl, _⟩ := branch_place.mp hbranch
    exact ⟨before, after, hrev, fun t ht => not_hits_iff.mp (hpre _ (List.mem_map_of_mem ht))⟩
  · rintro ⟨⟨_, hsigns⟩, before, after, hrev, hbefore⟩
    have hbranch : branch pki client trusted = .place trusted := branch_place.mpr ⟨rfl, hsigns⟩
    refine ⟨before.map (branch pki client), after.map (branch pki client), ?_, ?_⟩
    · rw [anchorBranches, hrev, List.map_append, List.map_cons, hbranch]
    · intro e he
      obtain ⟨t, ht, rfl⟩ := List.mem_map.mp he
      exact not_hits_iff.mpr (hbefore t ht)

end

/-- Whatever the truststore, the walk from a certificate ends if and only if none of the
certificates that it comes to lies on a cycle of such steps. -/
theorem walk_ends_iff {C N : Type} [DecidableEq C] [DecidableEq N] (pki : Pki C N)
    (trustedCerts : List C) (client : C) :
    (∃ d, validateClient pki trustedCerts d client ≠ none) ↔
      ∀ cert, Relation.ReflTransGen (ComesTo pki trustedCerts) client cert →
        ¬ Relation.TransGen (ComesTo pki trustedCerts) cert cert := by
  have henters : Enters (anchorBranches pki trustedCerts) = ComesTo pki trustedCerts := by
    funext a b
    exact propext enters_iff
  have hplaces : ∀ a b, Child (anchorBranches pki trustedCerts) a b → b ∈ trustedCerts :=
    fun a b h => (child_iff.mp h).1
  simp only [validateClient_eq_search]
  rw [← henters]
  exact halts_iff hplaces

/-! ## Two authorities that signed each other -/

inductive Authority where
  | ours
  | theirs
  deriving DecidableEq, Repr

def Authority.other : Authority → Authority
  | .ours => .theirs
  | .theirs => .ours

def crossSigned : Pki Authority Authority where
  issuer := Authority.other
  subject := id
  verifies trusted client := decide (trusted = client.other)

/-- No stack is deep enough for the walk from one of the two. -/
theorem cross_signed_endless :
    ¬ ∃ d, validateClient crossSigned [.ours, .theirs] d .ours ≠ none := by
  rintro ⟨d, h⟩
  have hnone (d : Nat) (client : Authority) :
      validateClient crossSigned [.ours, .theirs] d client = none := by
    induction d generalizing client with
    | zero => rfl
    | succ d ih =>
      rw [validateClient, funext ih]
      cases client with
      | ours => rfl
      | theirs => rfl
  exact h (hnone d .ours)

end Signing
end AppNG
