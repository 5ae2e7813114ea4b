import AppNG.Signing.Index

/-!
# Signing.IndexRoundTrip

Whether `verifyIndex` reads from an index what `signRepo` has written to it.

`verifyIndex_signRepo_iff`: it does if and only if the repository is `PlainlyWritten`. The reader
splits a line at every colon and trims the parts, so attributes and file names with a colon, a line
end or a space at one end do not come back. Of two files with the same name one digest is lost.
-/

namespace AppNG
namespace Signing

open Loop Java

variable {B S : Type}

/-! ## What is to hold -/

section RoundTrip

variable (digest : B → List UInt8) (repoPath : FileTree B) (c : SignerConfig)

/-- A signed file with this content. -/
def Signed (file : RepoFile B) (bytes : B) : Prop :=
  file ∈ fileGlob repoPath ∧ file.content = some bytes

/-- The attributes that were written, and the digests of the signed files by which their contents are
told from all others. -/
structure Rebuilt (read : ValidatorConfig) : Prop where
  attributes : ∀ key value, read.repoAttributes.get key = some (key, value) ↔
    key ∈ validRepoAttributes ∧ value = some (written c.toBaseConfig key)
  digests : ∀ name hex, read.pkgDigests.get name = some (name, hex) ↔
    ∃ file bytes, Signed repoPath file bytes ∧ file.fileName = name ∧ encodeHex (digest bytes) = hex
  accepted : ∀ file bytes content, Signed repoPath file bytes → digest content = digest bytes →
    validatePackage digest read content file.fileName = .ok true
  rejected : ∀ file bytes content, Signed repoPath file bytes → digest content ≠ digest bytes →
    ∃ e, validatePackage digest read content file.fileName = .error e

/-- The index is read without an exception and gives back what was written. -/
def RoundTrip (index : String) : Prop :=
  (verifyIndex .new index).2 = none ∧
    Rebuilt digest repoPath c (verifyIndex .new index).1

/-- What is written to the index survives being read. -/
structure PlainlyWritten : Prop where
  attributes : ∀ key ∈ validRepoAttributes, Plain (written c.toBaseConfig key)
  fileNames : ∀ file ∈ fileGlob repoPath, Plain file.fileName
  sameName : ∀ file bytes file' bytes', Signed repoPath file bytes → Signed repoPath file' bytes' →
    file.fileName = file'.fileName → digest bytes = digest bytes'

end RoundTrip

variable {digest : B → List UInt8} {sign : String → Option S} {repoPath : FileTree B}
  {c : SignerConfig} {wrapper : SignatureWrapper S} {config : ValidatorConfig} {r : Reading}
  {entries rest : List (String × String)}

/-! ## What is written -/

theorem digestEntries_isSome {files : List (RepoFile B)} (h : digestEntries digest files = some entries) :
    ∀ file ∈ files, ∃ bytes, file.content = some bytes := by
  induction files generalizing entries with
  | nil => simp
  | cons f files ih =>
    unfold digestEntries at h
    split at h
    · cases h
    · rename_i bytes hbytes
      split at h
      · cases h
      · rename_i es hes
        intro file hfile
        rcases List.mem_cons.mp hfile with rfl | hfile
        · exact ⟨bytes, hbytes⟩
        · exact ih hes file hfile

theorem mem_digestEntries {files : List (RepoFile B)} (h : digestEntries digest files = some entries)
    {e : String × String} : e ∈ entries ↔ ∃ file bytes, (file ∈ files ∧ file.content = some bytes) ∧
      file.fileName = e.1 ∧ encodeHex (digest bytes) = e.2 := by
  induction files generalizing entries with
  | nil =>
    obtain rfl := Option.some.inj h
    simp
  | cons f files ih =>
    unfold digestEntries at h
    split at h
    · cases h
    · rename_i bytes hbytes
      split at h
      · cases h
      · rename_i es hes
        obtain rfl := Option.some.inj h
        rw [List.mem_cons, ih hes]
        constructor
        · rintro (rfl | ⟨file, bytes', ⟨hfile, hcontent⟩, he⟩)
          · exact ⟨f, bytes, ⟨List.mem_cons_self, hbytes⟩, rfl, rfl⟩
          · exact ⟨file, bytes', ⟨List.mem_cons_of_mem f hfile, hcontent⟩, he⟩
        · rintro ⟨file, bytes', ⟨hfile, hcontent⟩, hname, hhex⟩
          rcases List.mem_cons.mp hfile with rfl | hfile
          · cases hbytes.symm.trans hcontent
            exact .inl (Prod.ext hname.symm hhex.symm)
          · exact .inr ⟨file, bytes', ⟨hfile, hcontent⟩, hname, hhex⟩

theorem signRepo_ok (h : signRepo digest sign repoPath c = .ok wrapper) :
    ∃ digests, digestEntries digest (fileGlob repoPath) = some digests ∧
      wrapper.index = String.join
        ((indexLines (attributeEntries c.toBaseConfig) digests).map (· ++ "\n")) := by
  unfold signRepo at h
  split at h
  · cases h
  · split at h
    · cases h
    · rename_i digests hdigests
      simp only at h
      split at h
      · cases h
      · exact ⟨digests, hdigests, by rw [← Except.ok.inj h]⟩

/-! ## Reading plain lines -/

theorem verifyLine_entry {key value : String} (hkey : Plain key) (hvalue : Plain value) :
    verifyLine r (entryLine key value) =
      ({ r with
          config := r.config.record r.reachedDigests (key, value)
          lineNo := r.lineNo + 1 }, none) := by
  unfold verifyLine
  rw [split_entryLine hkey hvalue]
  simp only [trim_key hkey, trim_value hvalue]

theorem split_separator : split ':' releaseFileDigestSeparator = [releaseFileDigestSeparator] := by
  decide +kernel

theorem verifyLine_separator : verifyLine r releaseFileDigestSeparator =
    ({ r with reachedDigests := true, lineNo := r.lineNo + 1 }, none) := by
  unfold verifyLine
  rw [split_separator]
  rfl

/-- The loop over the lines of plain entries records them. -/
theorem foldUntil_entries (h : ∀ e ∈ entries, Plain e.1 ∧ Plain e.2) (r : Reading)
    (lines : List String) :
    foldUntil verifyLine r (entries.map (fun e => entryLine e.1 e.2) ++ lines) =
      foldUntil verifyLine
        { r with
          config := entries.foldl (ValidatorConfig.record r.reachedDigests) r.config
          lineNo := r.lineNo + entries.length } lines := by
  induction entries generalizing r with
  | nil => rfl
  | cons e entries ih =>
    obtain ⟨hkey, hvalue⟩ := h e List.mem_cons_self
    rw [List.map_cons, List.cons_append, foldUntil_cons_ok (verifyLine_entry hkey hvalue),
      ih fun e' he' => h e' (List.mem_cons_of_mem e he')]
    simp only [List.foldl_cons, List.length_cons, Nat.add_assoc, Nat.add_comm 1]

theorem foldl_record_attributes (config : ValidatorConfig) (entries : List (String × String)) :
    (entries.foldl (ValidatorConfig.record false) config).pkgDigests = config.pkgDigests ∧
      (entries.foldl (ValidatorConfig.record false) config).repoAttributes =
        (entries.map fun e => (e.1, some e.2)).foldl Keyed.put config.repoAttributes := by
  induction entries generalizing config with
  | nil => exact ⟨rfl, rfl⟩
  | cons e entries ih => exact ih (config.record false e)

theorem foldl_record_digests (config : ValidatorConfig) (entries : List (String × String)) :
    (entries.foldl (ValidatorConfig.record true) config).pkgDigests =
        entries.foldl Keyed.put config.pkgDigests ∧
      (entries.foldl (ValidatorConfig.record true) config).repoAttributes =
        config.repoAttributes := by
  induction entries generalizing config with
  | nil => exact ⟨rfl, rfl⟩
  | cons e entries ih => exact ih (config.record true e)

theorem verifyIndex_plain (config : ValidatorConfig) {attributes digests : List (String × String)}
    (hattributes : ∀ e ∈ attributes, Plain e.1 ∧ Plain e.2)
    (hdigests : ∀ e ∈ digests, Plain e.1 ∧ Plain e.2) :
    verifyIndex config (String.join ((indexLines attributes digests).map (· ++ "\n"))) =
      (digests.foldl (ValidatorConfig.record true)
        (attributes.foldl (ValidatorConfig.record false) config), none) := by
  have hlines : ∀ line ∈ indexLines attributes digests, ∀ c ∈ line.toList, ¬ IsLineEnd c := by
    intro line hline
    rcases List.mem_append.mp hline with hline | hline
    · obtain ⟨e, he, rfl⟩ := List.mem_map.mp hline
      exact not_isLineEnd_entryLine (hattributes e he).1 (hattributes e he).2
    · rcases List.mem_cons.mp hline with rfl | hline
      · simp [releaseFileDigestSeparator, IsLineEnd]
      · obtain ⟨e, he, rfl⟩ := List.mem_map.mp hline
        exact not_isLineEnd_entryLine (hdigests e he).1 (hdigests e he).2
  have hafter : ∀ r : Reading, foldUntil verifyLine r (digests.map fun e => entryLine e.1 e.2) =
      ({ r with
          config := digests.foldl (ValidatorConfig.record r.reachedDigests) r.config
          lineNo := r.lineNo + digests.length }, none) := by
    intro r
    have hloop := foldUntil_entries hdigests r []
    rwa [List.append_nil] at hloop
  unfold verifyIndex
  rw [readLines_join hlines, indexLines, foldUntil_entries hattributes,
    foldUntil_cons_ok verifyLine_separator, hafter]

theorem plain_validRepoAttributes : ∀ key ∈ validRepoAttributes, Plain key := by
  intro key hkey
  simp only [validRepoAttributes, List.mem_cons, List.not_mem_nil, or_false] at hkey
  rcases hkey with rfl | rfl | rfl
  · exact plain_of_visible (by simp)
  · exact plain_of_visible (by simp)
  · exact plain_of_visible (by simp)

/-- Two digests under one name are equal. -/
theorem digests_functional {digests : List (String × String)}
    (hdigests : digestEntries digest (fileGlob repoPath) = some digests)
    (h : PlainlyWritten digest repoPath c) :
    ∀ e ∈ digests, ∀ e' ∈ digests, e.1 = e'.1 → e = e' := by
  intro e he e' he' hkey
  obtain ⟨file, bytes, hsigned, hname, hhex⟩ := (mem_digestEntries hdigests).mp he
  obtain ⟨file', bytes', hsigned', hname', hhex'⟩ := (mem_digestEntries hdigests).mp he'
  have hequal : digest bytes = digest bytes' :=
    h.sameName file bytes file' bytes' hsigned hsigned' (by rw [hname, hname', hkey])
  exact Prod.ext hkey (by rw [← hhex, ← hhex', hequal])

theorem rebuilt_of_maps {digests : List (String × String)}
    (hdigests : digestEntries digest (fileGlob repoPath) = some digests)
    (h : PlainlyWritten digest repoPath c)
    (hattributeMap : config.repoAttributes =
      ((attributeEntries c.toBaseConfig).map fun e => (e.1, some e.2)).foldl Keyed.put .empty)
    (hdigestMap : config.pkgDigests = digests.foldl Keyed.put .empty) :
    Rebuilt digest repoPath c config := by
  have hget : ∀ name hex, config.pkgDigests.get name = some (name, hex) ↔
      ∃ file bytes, Signed repoPath file bytes ∧ file.fileName = name ∧
        encodeHex (digest bytes) = hex := by
    intro name hex
    rw [hdigestMap, Keyed.get_foldl_put_empty (digests_functional hdigests h)]
    simp only [and_true, mem_digestEntries hdigests, Signed]
  refine ⟨fun key value => ?_, hget, ?_, ?_⟩
  · have hentries : ((attributeEntries c.toBaseConfig).map fun e => (e.1, some e.2)) =
        validRepoAttributes.map fun key => (key, some (written c.toBaseConfig key)) := by
      simp [attributeEntries]
    rw [hattributeMap, hentries, Keyed.get_foldl_put_empty]
    · simp only [and_true, List.mem_map, Prod.mk.injEq]
      constructor
      · rintro ⟨key, hkey, rfl, rfl⟩
        exact ⟨hkey, rfl⟩
      · rintro ⟨hkey, rfl⟩
        exact ⟨key, hkey, rfl, rfl⟩
    · intro e he e' he' hkey
      obtain ⟨key, -, rfl⟩ := List.mem_map.mp he
      obtain ⟨key', -, rfl⟩ := List.mem_map.mp he'
      obtain rfl : key = key' := hkey
      rfl
  · intro file bytes content hsigned hequal
    have hfile := (hget file.fileName _).mpr ⟨file, bytes, hsigned, rfl, rfl⟩
    simp only [validatePackage, hfile, hequal, if_true]
  · intro file bytes content hsigned hdifferent
    have hfile := (hget file.fileName _).mpr ⟨file, bytes, hsigned, rfl, rfl⟩
    have hhex : encodeHex (digest content) ≠ encodeHex (digest bytes) :=
      fun heq => hdifferent (encodeHex_injective heq)
    simp only [validatePackage, hfile, if_neg hhex]
    exact ⟨_, rfl⟩

theorem roundTrip_of_plainlyWritten {digests : List (String × String)}
    (hdigests : digestEntries digest (fileGlob repoPath) = some digests)
    (h : PlainlyWritten digest repoPath c) : RoundTrip digest repoPath c
      (String.join ((indexLines (attributeEntries c.toBaseConfig) digests).map (· ++ "\n"))) := by
  have hplainAttributes : ∀ e ∈ attributeEntries c.toBaseConfig, Plain e.1 ∧ Plain e.2 := by
    intro e he
    obtain ⟨key, hkey, rfl⟩ := List.mem_map.mp he
    exact ⟨plain_validRepoAttributes key hkey, h.attributes key hkey⟩
  have hplainDigests : ∀ e ∈ digests, Plain e.1 ∧ Plain e.2 := by
    intro e he
    obtain ⟨file, bytes, ⟨hfile, -⟩, hname, hhex⟩ := (mem_digestEntries hdigests).mp he
    exact ⟨hname ▸ h.fileNames file hfile, hhex ▸ plain_encodeHex (digest bytes)⟩
  obtain ⟨hnoDigests, hattributeMap⟩ := foldl_record_attributes .new (attributeEntries c.toBaseConfig)
  obtain ⟨hdigestMap, hsameAttributes⟩ := foldl_record_digests
    ((attributeEntries c.toBaseConfig).foldl (ValidatorConfig.record false) .new) digests
  unfold RoundTrip
  rw [verifyIndex_plain .new hplainAttributes hplainDigests]
  refine ⟨rfl, rebuilt_of_maps hdigests h (hsameAttributes.trans hattributeMap) ?_⟩
  rw [hdigestMap, hnoDigests]
  rfl

/-! ## What can be read -/

/-- All that is in the maps is plain. -/
structure ReadPlain (config : ValidatorConfig) : Prop where
  attributes : ∀ e ∈ config.repoAttributes.values, ∀ value, e.2 = some value → Plain value
  digests : ∀ e ∈ config.pkgDigests.values, Plain e.1

theorem ReadPlain.record (h : ReadPlain config) (reachedDigests : Bool) {e : String × String}
    (hkey : Plain e.1) (hvalue : Plain e.2) : ReadPlain (config.record reachedDigests e) := by
  cases reachedDigests with
  | false =>
    refine ⟨fun e' he' value hsome => ?_, h.digests⟩
    rcases Keyed.mem_put.mp he' with rfl | ⟨he', -⟩
    · exact Option.some.inj hsome ▸ hvalue
    · exact h.attributes e' he' value hsome
  | true =>
    refine ⟨h.attributes, fun e' he' => ?_⟩
    rcases Keyed.mem_put.mp he' with rfl | ⟨he', -⟩
    · exact hkey
    · exact h.digests e' he'

theorem ReadPlain.verifyLine {text line : String} (h : ReadPlain r.config)
    (hline : line ∈ readLines text) : ReadPlain (verifyLine r line).1.config := by
  unfold Signing.verifyLine
  split
  · rename_i key value hsplit
    refine h.record r.reachedDigests (plain_trim hline ?_) (plain_trim hline ?_)
    · rw [hsplit]
      exact List.mem_cons_self
    · rw [hsplit]
      exact List.mem_cons_of_mem key List.mem_cons_self
  · split
    · exact h
    · exact h

theorem readPlain_verifyIndex (index : String) : ReadPlain (verifyIndex .new index).1 := by
  have hnew : ReadPlain .new :=
    ⟨fun _ he => absurd he Keyed.not_mem_empty, fun _ he => absurd he Keyed.not_mem_empty⟩
  exact foldUntil_inv (P := fun r : Reading => ReadPlain r.config)
    (fun _ _ hline h => h.verifyLine hline) hnew

theorem plainlyWritten_of_rebuilt {digests : List (String × String)} {index : String}
    (hdigests : digestEntries digest (fileGlob repoPath) = some digests)
    (h : Rebuilt digest repoPath c (verifyIndex .new index).1) :
    PlainlyWritten digest repoPath c := by
  have hplain := readPlain_verifyIndex index
  refine ⟨fun key hkey => ?_, fun file hfile => ?_, ?_⟩
  · have hget := (h.attributes key _).mpr ⟨hkey, rfl⟩
    exact hplain.attributes _ (Keyed.get_eq_some.mp hget).1 _ rfl
  · obtain ⟨bytes, hcontent⟩ := digestEntries_isSome hdigests file hfile
    have hget := (h.digests file.fileName _).mpr ⟨file, bytes, ⟨hfile, hcontent⟩, rfl, rfl⟩
    exact hplain.digests _ (Keyed.get_eq_some.mp hget).1
  · intro file bytes file' bytes' hsigned hsigned' hname
    have hget := (h.digests file.fileName _).mpr ⟨file, bytes, hsigned, rfl, rfl⟩
    have hget' := (h.digests file.fileName _).mpr ⟨file', bytes', hsigned', hname.symm, rfl⟩
    have hhex := hget.symm.trans hget'
    exact encodeHex_injective (Prod.mk.inj (Option.some.inj hhex)).2

/-- Over every directory tree and configuration for which an index is returned. -/
theorem verifyIndex_signRepo_iff (digest : B → List UInt8) (sign : String → Option S)
    (repoPath : FileTree B) (c : SignerConfig) (wrapper : SignatureWrapper S)
    (h : signRepo digest sign repoPath c = .ok wrapper) :
    RoundTrip digest repoPath c wrapper.index ↔ PlainlyWritten digest repoPath c := by
  obtain ⟨digests, hdigests, hindex⟩ := signRepo_ok h
  constructor
  · rintro ⟨-, hrebuilt⟩
    exact plainlyWritten_of_rebuilt hdigests hrebuilt
  · intro hplainly
    rw [hindex]
    exact roundTrip_of_plainlyWritten hdigests hplainly

section Example

def configOf (description : String) : SignerConfig where
  repoAttributes := ((Keyed.empty.put ("repoCodeName", some "Local")).put
    ("repoDescription", some description)).put ("repoVersion", some "")
  signingCertChain := true
  digest := true
  charset := true
  signingKey := true
  signature := true

/-- A digest of two bytes. -/
def lengthDigest (content : String) : List UInt8 := [0xab, content.length.toUInt8]

def demoTree : FileTree String := Keyed.empty.put ⟨["releases"], "demo.zip", some "demo"⟩

def indexOf (description : String) : String :=
  "repoCodeName: Local\nrepoDescription: " ++ description ++
    "\nrepoVersion: \n[package digests]\ndemo.zip: ab04\n"

def wrapperOf (description : String) : SignatureWrapper Nat :=
  ⟨indexOf description, (indexOf description).length⟩

theorem roundTrip_local :
    RoundTrip lengthDigest demoTree (configOf "local") (wrapperOf "local").index ↔
      PlainlyWritten lengthDigest demoTree (configOf "local") :=
  verifyIndex_signRepo_iff lengthDigest (fun index => some index.length) demoTree (configOf "local")
    (wrapperOf "local") (by decide +kernel)

/-- A description with a colon: the index cannot be read. -/
theorem not_roundTrip_colon : ¬ ∀ wrapper,
    signRepo lengthDigest (fun index => some index.length) demoTree (configOf "test: local") =
        .ok wrapper →
      RoundTrip lengthDigest demoTree (configOf "test: local") wrapper.index := by
  intro h
  obtain ⟨hnone, -⟩ := h (wrapperOf "test: local") (by decide +kernel)
  have hsome : (verifyIndex .new (wrapperOf "test: local").index).2.isSome := by decide +kernel
  rw [hnone] at hsome
  cases hsome

end Example

end Signing
end AppNG
