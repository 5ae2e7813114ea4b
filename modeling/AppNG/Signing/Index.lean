import AppNG.Lib.KeyValue
import AppNG.Lib.Keyed
import AppNG.Lib.Loop
import Mathlib.Data.List.Sort

/-!
# Signing.Index

`Signer`: the index of a repository, which `signRepo` writes and `verifyIndex` reads.

The text of the index stands for its bytes: both sides use the charset of `BaseConfig`.
-/

namespace AppNG
namespace Signing

open Loop Java

/-! ## Configurations -/

inductive ErrorType where
  | sign
  | verify
  deriving DecidableEq, Repr

structure SigningException where
  type : ErrorType
  message : String
  deriving DecidableEq, Repr

def releaseFileDigestSeparator : String := "[package digests]"

def validRepoAttributes : List String := ["repoCodeName", "repoDescription", "repoVersion"]

/-- A hash map whose values may be `null`. -/
abbrev Attributes := Keyed (Prod.fst : String × Option String → String)

abbrev Digests := Keyed (Prod.fst : String × String → String)

/-- The fields of which only the presence matters are `true` if they are set. -/
structure BaseConfig where
  repoAttributes : Attributes
  signingCertChain : Bool
  digest : Bool
  charset : Bool

def BaseConfig.hasMissingKey (c : BaseConfig) : Option String :=
  match validRepoAttributes.find? fun requiredKey => (c.repoAttributes.get requiredKey).isNone with
  | some requiredKey => some requiredKey
  | none =>
    if !c.signingCertChain then some "signingCert"
    else if !c.digest then some "digest"
    else if !c.charset then some "charset"
    else none

structure SignerConfig extends BaseConfig where
  signingKey : Bool
  signature : Bool

def SignerConfig.hasMissingKey (c : SignerConfig) : Option String :=
  match c.toBaseConfig.hasMissingKey with
  | some missing => some missing
  | none =>
    if !c.signingKey then some "signingKey"
    else if !c.signature then some "signature"
    else none

structure ValidatorConfig extends BaseConfig where
  pkgDigests : Digests

/-- `new ValidatorConfig()`. -/
def ValidatorConfig.new : ValidatorConfig where
  repoAttributes := .empty
  signingCertChain := false
  digest := true
  charset := true
  pkgDigests := .empty

/-! ## Signing -/

/-- A file below the directory of the repository; without content if reading it is an
`IOException`. -/
structure RepoFile (B : Type) where
  directories : List String
  fileName : String
  content : Option B

variable {B S : Type}

def RepoFile.path (file : RepoFile B) : List String := file.directories ++ [file.fileName]

/-- The regular files of a directory tree, in the order of the walk. -/
abbrev FileTree (B : Type) := Keyed (RepoFile.path (B := B))

structure SignatureWrapper (S : Type) where
  index : String
  signature : S
  deriving DecidableEq

section Sign

variable (digest : B → List UInt8) (sign : String → Option S)

/-- `*.{jar,zip}`. -/
def matchesPattern (fileName : String) : Bool :=
  decide (".jar".toList <:+ fileName.toList) || decide (".zip".toList <:+ fileName.toList)

def fileGlob (repoPath : FileTree B) : List (RepoFile B) :=
  (repoPath.values.filter fun file => matchesPattern file.fileName).insertionSort
    fun file file' => "/".intercalate file.path ≤ "/".intercalate file'.path

/-- The value of an attribute, as `%s` formats it. -/
def written (c : BaseConfig) (key : String) : String :=
  ((c.repoAttributes.get key).bind Prod.snd).getD "null"

def attributeEntries (c : BaseConfig) : List (String × String) :=
  validRepoAttributes.map fun key => (key, written c key)

/-- The digests of the files, if all of them can be read. -/
def digestEntries : List (RepoFile B) → Option (List (String × String))
  | [] => some []
  | pkgPath :: pkgPaths =>
    match pkgPath.content with
    | none => none
    | some bytes =>
      match digestEntries pkgPaths with
      | none => none
      | some entries => some ((pkgPath.fileName, encodeHex (digest bytes)) :: entries)

def indexLines (attributes digests : List (String × String)) : List String :=
  attributes.map (fun e => entryLine e.1 e.2) ++
    releaseFileDigestSeparator :: digests.map fun e => entryLine e.1 e.2

/-- `signRepo`; `sign` has no result for a `SignatureException`. -/
def signRepo (repoPath : FileTree B) (c : SignerConfig) :
    Except SigningException (SignatureWrapper S) :=
  match c.hasMissingKey with
  | some missingKey =>
    .error ⟨.sign, "Missing configuration key '" ++ missingKey ++ "' in SignerConfig."⟩
  | none =>
    match digestEntries digest (fileGlob repoPath) with
    | none => .error ⟨.sign,
        "IOException during repo signing. Please check the configured paths and masks."⟩
    | some digests =>
      let index := String.join
        ((indexLines (attributeEntries c.toBaseConfig) digests).map (· ++ "\n"))
      match sign index with
      | none => .error ⟨.sign, "SignatureException during repo signing. There is no plausible reason " ++
          "in this part of the code. You probably found a bug!"⟩
      | some signature => .ok ⟨index, signature⟩

end Sign

/-! ## Verifying -/

structure Reading where
  config : ValidatorConfig
  reachedDigests : Bool
  lineNo : Nat

def ValidatorConfig.record (reachedDigests : Bool) (c : ValidatorConfig) (e : String × String) :
    ValidatorConfig :=
  if reachedDigests then { c with pkgDigests := c.pkgDigests.put e }
  else { c with repoAttributes := c.repoAttributes.put (e.1, some e.2) }

/-- The body of the loop over the lines. -/
def verifyLine (r : Reading) (line : String) : Reading × Option SigningException :=
  match split ':' line with
  | [key, value] =>
    ({ r with
        config := r.config.record r.reachedDigests
          (String.ofList (trim key), String.ofList (trim value))
        lineNo := r.lineNo + 1 }, none)
  | _ =>
    if line = releaseFileDigestSeparator then
      ({ r with reachedDigests := true, lineNo := r.lineNo + 1 }, none)
    else (r, some ⟨.verify, "Release file has unexpected format on line " ++ toString r.lineNo ++
      ". Expected 'key: value', but got '" ++ line ++ "'."⟩)

def verifyIndex (c : ValidatorConfig) (indexFileData : String) :
    ValidatorConfig × Option SigningException :=
  match foldUntil verifyLine ⟨c, false, 0⟩ (readLines indexFileData) with
  | (r, result) => (r.config, result)

def validatePackage (digest : B → List UInt8) (c : ValidatorConfig) (bytes : B)
    (packageName : String) : Except SigningException Bool :=
  match c.pkgDigests.get packageName with
  | none => .error ⟨.verify, "Package '" ++ packageName ++ "' not found."⟩
  | some (_, expectedDigest) =>
    if encodeHex (digest bytes) = expectedDigest then .ok true
    else .error ⟨.verify, "Digests missmatch for \x7b\x7d, expected \x7b\x7d, got \x7b\x7d"⟩

end Signing
end AppNG
