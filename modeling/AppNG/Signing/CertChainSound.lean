import AppNG.Signing.CertChain

/-!
# Signing.CertChainSound

What an accepted signing chain proves about the certificate the index is signed with.

* `validateClient_connected`: the walk through the truststore is sound. By induction on the
  nesting of the calls: each accepted anchor verified the certificate in front of it.
* `trustLoop_split`: the list loop accepts because of one certificate of the list, and every
  certificate in front of that one was refused.
* `signer_connected`: when the certificates in front of the first trusted one are verified by
  their successors, the signing certificate is connected to the truststore.

The list itself is only chained by name, so without that condition an accepted list says
nothing about its first certificate (`forged_accepted`).
-/

namespace AppNG
namespace Signing

theorem connected_of_path {C N : Type} {pki : Pki C N} {trustedCerts : List C} {cert issuer : C}
    (hpath : Relation.ReflTransGen (Vouched pki) cert issuer)
    (hc : Connected pki trustedCerts issuer) : Connected pki trustedCerts cert := by
  obtain ⟨root, hmem, hself, hroot⟩ := hc
  exact ⟨root, hmem, hself, hpath.trans hroot⟩

section

variable {C N : Type} [DecidableEq C] [DecidableEq N] {pki : Pki C N} {trustedCerts : List C}

theorem anchorLoop_true {recur : C → Option Bool} {client : C} :
    ∀ {anchors : List C}, anchorLoop pki recur client anchors = some true →
      ∃ trusted ∈ anchors, Vouched pki client trusted ∧
        (isSelfSigned pki trusted = true ∨ recur trusted = some true) := by
  intro anchors
  induction anchors with
  | nil => intro h; simp [anchorLoop] at h
  | cons trusted rest ih =>
    intro h
    have later : anchorLoop pki recur client rest = some true →
        ∃ t ∈ trusted :: rest, Vouched pki client t ∧
          (isSelfSigned pki t = true ∨ recur t = some true) := fun hr =>
      let ⟨t, ht, hrest⟩ := ih hr
      ⟨t, List.mem_cons_of_mem _ ht, hrest⟩
    rw [anchorLoop] at h
    split at h
    · split at h
      · rename_i hv
        split at h
        · rename_i hself
          exact ⟨trusted, List.mem_cons_self, hv, .inl hself⟩
        · split at h
          · exact later h
          · split at h
            · cases h
            · rename_i hrec
              exact ⟨trusted, List.mem_cons_self, hv, .inr hrec⟩
            · exact later h
      · exact later h
    · exact later h

/-- Every certificate the walk through the truststore accepts is connected to one of its
self-signed certificates. -/
theorem validateClient_connected :
    ∀ {d : Nat} {client : C}, validateClient pki trustedCerts d client = some true →
      Connected pki trustedCerts client := by
  intro d
  induction d with
  | zero => intro client h; cases h
  | succ d ih =>
    intro client h
    obtain ⟨trusted, hmem, hv, hself | hrec⟩ := anchorLoop_true h
    · exact ⟨trusted, List.mem_reverse.mp hmem, hself, .single hv⟩
    · exact connected_of_path (.single hv) (ih hrec)

theorem trustLoop_split {d : Nat} :
    ∀ {certificates : List C}, trustLoop pki trustedCerts d certificates = .returned true →
      ∃ pre cert post, certificates = pre ++ cert :: post ∧
        FirstTrusted pki trustedCerts d pre cert := by
  intro certificates
  induction certificates with
  | nil => intro h; simp [trustLoop] at h
  | cons cert rest ih =>
    intro h
    rw [trustLoop] at h
    split at h
    · cases h
    · rename_i hc
      exact ⟨[], cert, rest, rfl, hc, by simp⟩
    · rename_i hc
      obtain ⟨pre, c, post, rfl, htrue, hpre⟩ := ih h
      exact ⟨cert :: pre, c, post, rfl, htrue, List.forall_mem_cons.mpr ⟨hc, hpre⟩⟩

theorem validateKeyChain_true {d : Nat} {certificates : List C}
    (h : validateKeyChain pki trustedCerts d certificates = .returned true) :
    namesChain pki certificates = true ∧
      trustLoop pki trustedCerts d certificates = .returned true := by
  rw [validateKeyChain] at h
  split at h
  · rename_i hnames
    split at h
    · cases h
    · exact ⟨hnames, h⟩
  · cases h

/-- Verified links carry the connection from the trusted certificate back to the first one. -/
theorem links_connected {d : Nat} {cert : C} {pre post : List C}
    (hcert : FirstTrusted pki trustedCerts d pre cert)
    (hlinks : List.IsChain (Vouched pki) (pre ++ [cert])) :
    SignerConnected pki trustedCerts (pre ++ cert :: post) := by
  have hconn := validateClient_connected hcert.1
  cases pre with
  | nil => exact ⟨cert, rfl, hconn⟩
  | cons signer pre =>
    have hpath : Relation.ReflTransGen (Vouched pki) signer cert :=
      List.relationReflTransGen_of_exists_isChain_cons (pre ++ [cert]) hlinks (by simp)
    exact ⟨signer, rfl, connected_of_path hpath hconn⟩

/-- A list that is accepted, and whose certificates up to the first trusted one are verified by
their successors, starts with a certificate that is connected to the truststore. -/
theorem signer_connected (pki : Pki C N) (trustedCerts : List C) (d : Nat)
    (certificates : List C) (hlinks : LinksVerified pki trustedCerts d certificates)
    (h : validateKeyChain pki trustedCerts d certificates = .returned true) :
    SignerConnected pki trustedCerts certificates := by
  obtain ⟨hnames, htrust⟩ := validateKeyChain_true h
  obtain ⟨pre, cert, post, rfl, hcert⟩ := trustLoop_split htrust
  exact links_connected hcert (hlinks hnames pre cert post rfl hcert)

end

/-! ## A forged chain -/

/-- A certificate authority, a certificate it issued, one that this issued in turn, and a certificate
an attacker wrote with the name of the first issued one as its issuer. -/
inductive Party where
  | root
  | member
  | author
  | forged
  deriving DecidableEq, Repr

/-- The authority verifies itself and the member, and the member the author; nobody verifies the forged
certificate. -/
def forgedPki : Pki Party Party where
  issuer
    | .root => .root
    | .member => .root
    | .author => .member
    | .forged => .member
  subject := id
  verifies
    | .root, .root => true
    | .root, .member => true
    | .member, .author => true
    | _, _ => false

/-- The issuer of the first certificate is not in the truststore, so it is the member that is trusted. -/
theorem linksVerified_author : LinksVerified forgedPki [.root] 2 [.author, .member] := by
  intro _ pre cert post heq _
  cases pre with
  | nil => exact .singleton cert
  | cons first pre =>
    rw [List.cons_append, List.cons.injEq] at heq
    cases pre with
    | nil =>
      rw [List.nil_append, List.cons.injEq] at heq
      rw [← heq.1, ← heq.2.1]
      exact .cons_cons rfl (.singleton _)
    | cons second pre =>
      have hlength := congrArg List.length heq.2
      simp only [List.length_append, List.length_cons, List.length_nil] at hlength
      omega

theorem genuine_connected :
    validateKeyChain forgedPki [.root] 2 [.author, .member] = .returned true ∧
      validateClient forgedPki [.root] 2 .author = some false ∧
      SignerConnected forgedPki [.root] [.author, .member] :=
  ⟨by decide, by decide, signer_connected forgedPki [.root] 2 [.author, .member] linksVerified_author (by decide)⟩

/-- The forged certificate in front of the genuine one is accepted. -/
theorem forged_accepted :
    validateKeyChain forgedPki [.root] 2 [.forged, .member] = .returned true ∧
      ¬ SignerConnected forgedPki [.root] [.forged, .member] := by
  refine ⟨by decide, ?_⟩
  rintro ⟨signer, hsigner, anchor, hanchor, _, hpath⟩
  cases hsigner
  obtain rfl : anchor = .root := by simpa using hanchor
  -- no certificate verifies the forged one, so a path from it is empty
  rcases Relation.ReflTransGen.cases_head hpath with h | ⟨c, hv, _⟩
  · cases h
  · cases c <;> cases hv

end Signing
end AppNG
