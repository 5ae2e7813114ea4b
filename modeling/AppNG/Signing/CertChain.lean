import Mathlib.Data.List.Chain

/-!
# Signing.CertChain

`CertChainValidator`: the check of a signing chain against a truststore.

The PKIX validator of the platform is a parameter. For a path of one certificate and one
trust anchor it decides whether the key of the anchor verifies the certificate
(`Pki.verifies`); everything else (name chaining of the supplied list, the walk through the
truststore, the stop at a self-signed certificate) is the code of the class.

The walk calls itself on a certificate of the truststore. `d` is the number of nested calls
the stack of the thread admits; `none` is the `StackOverflowError` behind the last of them.
-/

namespace AppNG
namespace Signing

/-- What the class sees of an X.509 certificate: its two names, and whether the key of one
certificate verifies another. -/
structure Pki (C N : Type) where
  issuer : C → N
  subject : C → N
  verifies : C → C → Bool

section

variable {C N : Type} [DecidableEq C] [DecidableEq N]

/-- `isSelfSigned`: `cert.verify(cert.getPublicKey())` throws nothing. -/
def isSelfSigned (pki : Pki C N) (cert : C) : Bool := pki.verifies cert cert

/-- The `while (!found && i > 0)` loop over the anchors that are left; `recur` is the call of
`validateKeyChain` on an anchor that is not self-signed. -/
def anchorLoop (pki : Pki C N) (recur : C → Option Bool) (client : C) : List C → Option Bool
  | [] => some false
  | trusted :: rest =>
    if pki.issuer client = pki.subject trusted then
      if pki.verifies trusted client then
        if isSelfSigned pki trusted then some true
        else if client = trusted then anchorLoop pki recur client rest
        else
          match recur trusted with
          | none => none
          | some true => some true
          | some false => anchorLoop pki recur client rest
      else anchorLoop pki recur client rest
    else anchorLoop pki recur client rest

/-- `validateKeyChain(client, trustedCerts)`. The loop counts down, so the anchors are tried
in reverse. -/
def validateClient (pki : Pki C N) (trustedCerts : List C) : Nat → C → Option Bool
  | 0, _ => none
  | d + 1, client => anchorLoop pki (validateClient pki trustedCerts d) client trustedCerts.reverse

/-- The first loop of `validateKeyChain(InputStream)`: each issuer name is the subject name of
the next certificate of the list. -/
def namesChain (pki : Pki C N) : List C → Bool
  | cert :: issuer :: rest =>
    decide (pki.issuer cert = pki.subject issuer) && namesChain pki (issuer :: rest)
  | _ => true

inductive Answer where
  | returned (b : Bool)
  /-- `certificates.get(0)` of an empty list, which no handler of the method catches. -/
  | indexOutOfBounds
  | stackOverflow
  deriving DecidableEq, Repr

/-- The second loop: one trusted certificate of the list is enough. -/
def trustLoop (pki : Pki C N) (trustedCerts : List C) (d : Nat) : List C → Answer
  | [] => .returned false
  | currentCert :: rest =>
    match validateClient pki trustedCerts d currentCert with
    | none => .stackOverflow
    | some true => .returned true
    | some false => trustLoop pki trustedCerts d rest

/-- `validateKeyChain(InputStream)` on the certificates parsed from the stream. -/
def validateKeyChain (pki : Pki C N) (trustedCerts : List C) (d : Nat) (certificates : List C) :
    Answer :=
  if namesChain pki certificates then
    if certificates.isEmpty then .indexOutOfBounds
    else trustLoop pki trustedCerts d certificates
  else .returned false

/-! ## What a chain is for -/

def Vouched (pki : Pki C N) (cert issuer : C) : Prop := pki.verifies issuer cert = true

/-- A sequence of certificates, each verified by the key of the next, leads from `cert` to a
self-signed certificate of the truststore. -/
def Connected (pki : Pki C N) (trustedCerts : List C) (cert : C) : Prop :=
  ∃ root ∈ trustedCerts, isSelfSigned pki root = true ∧
    Relation.ReflTransGen (Vouched pki) cert root

/-- `getSigningCert`: the first certificate of the chain is the one the index is signed with. -/
def SignerConnected (pki : Pki C N) (trustedCerts : List C) (certificates : List C) : Prop :=
  ∃ signingCert ∈ certificates.head?, Connected pki trustedCerts signingCert

/-- The certificate the code trusts: the first of the list that the walk accepts. -/
def FirstTrusted (pki : Pki C N) (trustedCerts : List C) (d : Nat) (pre : List C) (cert : C) :
    Prop :=
  validateClient pki trustedCerts d cert = some true ∧
    ∀ c ∈ pre, validateClient pki trustedCerts d c = some false

/-- If the list chains by name, each certificate up to the first trusted one is verified by the
key of its successor. -/
def LinksVerified (pki : Pki C N) (trustedCerts : List C) (d : Nat) (certificates : List C) :
    Prop :=
  namesChain pki certificates = true →
    ∀ pre cert post, certificates = pre ++ cert :: post →
      FirstTrusted pki trustedCerts d pre cert → List.IsChain (Vouched pki) (pre ++ [cert])

end

end Signing
end AppNG
