import AppNG.Lib.FileTree
import AppNG.Packages.ResourceRoundTrip

/-!
# Packages.CacheDump

The resources of an application as files of its cache, as `ApplicationResourceHolder.dumpToCache`
writes them: type by type, each into its own folder, which is deleted before.

`beans.xml` and `application.xml` have the output folder itself for their folder, and the folders of
all the other types lie in there.

* `mem_dumpToCache`: the files that are there in the end, where no resource needs the place of another.
* `dumped_iff`: when every resource is there, for one order of the types.
* `dumped_in_any_order_iff`: when the order makes no difference.
-/

namespace AppNG
namespace Packages

open FilePath

variable {B : Type}

/-- What the resources of a holder are kept under. -/
def Resource.key (resource : Resource B) : ResourceType × String := (resource.type, resource.name)

namespace Resources

/-- What `dumpToCache` works with. -/
structure Dump (B : Type) where
  holder : ResourceHolder B
  /-- the names that are loaded from files are normalized; rows of the database with a `..` are left out -/
  no_up : ∀ resource ∈ holder.storage.values, .up ∉ segments false resource.name
  sha256Hex : B → String
  checkSum : Resource B → Option String
  /-- the order in which a set is iterated over -/
  iterate : List (Resource B) → List (Resource B)
  iterate_perm : ∀ resources, (iterate resources).Perm resources
  outputFolder : List String
  files : FileTree String B
  isDirectory : ∀ file ∈ files, ¬ file.path <+: outputFolder
  cachedFile : ResourceType × String → Option (List String)

structure Cache (B : Type) where
  files : FileTree String B
  cachedFile : ResourceType × String → Option (List String)

structure Cache.Same (a b : Cache B) : Prop where
  files : ∀ file, file ∈ a.files ↔ file ∈ b.files
  cachedFile : a.cachedFile = b.cachedFile

namespace Dump

variable (dump : Dump B)

def cacheDirectory (type : ResourceType) : List String := dump.outputFolder ++ type.root

/-- The file a resource is written to. -/
def output (resource : Resource B) : PathFile String B :=
  ⟨outputFile dump.outputFolder resource, resource.bytes⟩

def checkSumMatches (resource : Resource B) : Bool :=
  dump.checkSum resource == some (dump.sha256Hex resource.bytes)

/-- An exception is logged, and the next resource is written. -/
def dumpResource (cache : Cache B) (resource : Resource B) : Cache B :=
  if dump.checkSumMatches resource then
    match cache.files.write (dump.output resource) with
    | none => cache
    | some files =>
      ⟨files, Function.update cache.cachedFile resource.key (some (dump.output resource).path)⟩
  else cache

def getResources (type : ResourceType) : List (Resource B) :=
  dump.iterate (dump.holder.storage.values.filter fun resource => resource.type = type)

def dumpType (cache : Cache B) (type : ResourceType) : Cache B :=
  (dump.getResources type).foldl dump.dumpResource
    { cache with files := cache.files.delete (dump.cacheDirectory type) }

def dumpToCache (types : List ResourceType) : Cache B :=
  types.foldl dump.dumpType ⟨dump.files, dump.cachedFile⟩

/-! ## What is promised -/

/-- A resource of one of these types, with a checksum that matches. -/
structure Listed (types : List ResourceType) (resource : Resource B) : Prop where
  mem : resource ∈ dump.holder.storage.values
  type : resource.type ∈ types
  checkSum : dump.checkSumMatches resource = true

/-- The file of every resource is there with its content, and the resource knows it. -/
def Dumped (types : List ResourceType) (cache : Cache B) : Prop :=
  ∀ resource, dump.Listed types resource →
    dump.output resource ∈ cache.files ∧
      cache.cachedFile resource.key = some (dump.output resource).path

/-- No resource needs the place of another: two files of one path are one file, and none is on the
way to another. -/
def Apart (types : List ResourceType) : Prop :=
  ∀ a b, dump.Listed types a → dump.Listed types b →
    (dump.output a).path <+: (dump.output b).path → dump.output a = dump.output b

/-- The last of the types whose folder has the file writes it. -/
def WrittenLast (types : List ResourceType) (file : PathFile String B) : Prop :=
  ∃ earlier type later, types = earlier ++ type :: later ∧
    (∃ resource, dump.Listed [type] resource ∧ dump.output resource = file) ∧
      ∀ other ∈ later, ¬ dump.cacheDirectory other <+: file.path

/-! ## Folders -/

section Folders

variable {dump} {resource : Resource B} {type : ResourceType} {types : List ResourceType}

theorem output_path (h : resource ∈ dump.holder.storage.values) :
    (dump.output resource).path =
      dump.cacheDirectory resource.type ++ parts resource.name := by
  rw [cacheDirectory, List.append_assoc]
  exact outputFile_eq (dump.no_up resource h)

theorem cacheDirectory_starts (h : resource ∈ dump.holder.storage.values) :
    dump.cacheDirectory resource.type <+: (dump.output resource).path :=
  output_path h ▸ List.prefix_append _ _

theorem outputFolder_starts : dump.outputFolder <+: dump.cacheDirectory type :=
  List.prefix_append _ _

/-- Everything lies in the folder of `beans.xml` and `application.xml`. -/
theorem cacheDirectory_root (h : type.folder = "") : dump.cacheDirectory type = dump.outputFolder := by
  rw [cacheDirectory, ResourceType.root, if_pos h, List.append_nil]

/-- What was there before and is in the way of a resource lies in the folder of its type. -/
theorem cacheDirectory_prefix_of_blocking {file : PathFile String B} (hfile : file ∈ dump.files)
    (h : resource ∈ dump.holder.storage.values) (hpre : file.path <+: (dump.output resource).path) :
    dump.cacheDirectory resource.type <+: file.path := by
  rcases List.prefix_or_prefix_of_prefix (cacheDirectory_starts h) hpre with hdir | hdir
  · exact hdir
  · -- the folder has at most one name more than the output folder
    by_cases hfolder : resource.type.folder = ""
    · rw [cacheDirectory_root hfolder] at hdir
      exact absurd hdir (dump.isDirectory file hfile)
    · rw [cacheDirectory, ResourceType.root, if_neg hfolder, List.prefix_concat_iff] at hdir
      rcases hdir with heq | hdir
      · rw [heq, cacheDirectory, ResourceType.root, if_neg hfolder]
      · exact absurd hdir (dump.isDirectory file hfile)

end Folders

/-- What is dumped of a file-based application. -/
def ofHolder (context : Context B) (application : Application B) (holder : ResourceHolder B)
    (hfileBased : application.fileBased = true)
    (hloaded : Resources.getResources context application = some holder) (sha256Hex : B → String)
    (outputFolder : List String) (files : FileTree String B)
    (isDirectory : ∀ file ∈ files, ¬ file.path <+: outputFolder) : Dump B where
  holder
  no_up _ h := (clean_of_loaded hfileBased hloaded h).2
  sha256Hex
  checkSum resource := some (sha256Hex resource.bytes)
  iterate := context.iterate
  iterate_perm := context.iterate_perm
  outputFolder
  files
  isDirectory
  cachedFile _ := none

/-! ## One type -/

section Types

variable {dump} {resource : Resource B} {type : ResourceType} {types : List ResourceType}
  {cache : Cache B} {file : PathFile String B} {key : ResourceType × String}

theorem mem_getResources : resource ∈ dump.getResources type ↔
    resource ∈ dump.holder.storage.values ∧ resource.type = type := by
  rw [getResources, (dump.iterate_perm _).mem_iff, List.mem_filter, decide_eq_true_eq]

theorem output_path_of_key {a b : Resource B} (h : a.key = b.key) :
    (dump.output a).path = (dump.output b).path := by
  obtain ⟨htype, hname⟩ := Prod.mk.inj h
  rw [output, output, outputFile, outputFile, Resource.outputPath, Resource.outputPath, htype, hname]

/-- What has become of a cache that some resources are dumped to. -/
structure Wrote (dump : Dump B) (resources : List (Resource B)) (before after : Cache B) : Prop where
  files : ∀ file, file ∈ after.files ↔
    (∃ resource ∈ resources, dump.checkSumMatches resource = true ∧ dump.output resource = file) ∨
      file ∈ before.files
  known : ∀ resource ∈ resources, dump.checkSumMatches resource = true →
    after.cachedFile resource.key = some (dump.output resource).path
  frame : ∀ key, (∀ resource ∈ resources, dump.checkSumMatches resource = true →
    resource.key ≠ key) → after.cachedFile key = before.cachedFile key

theorem Wrote.skip {resources : List (Resource B)} {before after : Cache B} {last : Resource B}
    (h : Wrote dump resources before after) (hsum : ¬ dump.checkSumMatches last = true) :
    Wrote dump (resources ++ [last]) before (dump.dumpResource after last) := by
  have hwritten : ∀ resource, resource ∈ resources ++ [last] →
      dump.checkSumMatches resource = true → resource ∈ resources := by
    intro resource hmem hmatches
    rcases List.mem_append.mp hmem with hmem | hmem
    · exact hmem
    · exact absurd (List.mem_singleton.mp hmem ▸ hmatches) hsum
  rw [dumpResource, if_neg hsum]
  constructor
  · intro file
    rw [h.files]
    constructor
    · rintro (⟨resource, hmem, hwrites⟩ | hmem)
      · exact .inl ⟨resource, List.mem_append_left _ hmem, hwrites⟩
      · exact .inr hmem
    · rintro (⟨resource, hmem, hmatches, hwrites⟩ | hmem)
      · exact .inl ⟨resource, hwritten resource hmem hmatches, hmatches, hwrites⟩
      · exact .inr hmem
  · intro resource hmem hmatches
    exact h.known resource (hwritten resource hmem hmatches) hmatches
  · intro key hkey
    exact h.frame key fun resource hmem => hkey resource (List.mem_append_left _ hmem)

theorem Wrote.snoc {resources : List (Resource B)} {before after : Cache B} {last : Resource B}
    (h : Wrote dump resources before after) (hsum : dump.checkSumMatches last = true)
    (hfits : ∀ a ∈ resources, dump.checkSumMatches a = true →
      (dump.output a).path <+: (dump.output last).path ∨
        (dump.output last).path <+: (dump.output a).path → dump.output a = dump.output last)
    (hfree : ∀ file ∈ before.files, ¬ file.path <+: (dump.output last).path ∧
      ¬ (dump.output last).path <+: file.path) :
    Wrote dump (resources ++ [last]) before (dump.dumpResource after last) := by
  have hopen : ¬ FileTree.Blocked after.files (dump.output last).path := by
    rintro ⟨file, hfile, hpre, hne⟩
    rcases (h.files file).mp hfile with ⟨resource, hmem, hmatches, rfl⟩ | hfile
    · exact hne (congrArg PathFile.path (hfits resource hmem hmatches (.inl hpre)))
    · exact (hfree file hfile).1 hpre
  rw [dumpResource, if_pos hsum]
  cases hwrite : after.files.write (dump.output last) with
  | none => exact absurd (FileTree.write_eq_none.mp hwrite) hopen
  | some files =>
    constructor
    · intro file
      rw [FileTree.mem_write hwrite, h.files]
      constructor
      · rintro (rfl | ⟨⟨resource, hmem, hwrites⟩ | hmem, -⟩)
        · exact .inl ⟨last, by simp, hsum, rfl⟩
        · exact .inl ⟨resource, List.mem_append_left _ hmem, hwrites⟩
        · exact .inr hmem
      · rintro (⟨resource, hmem, hmatches, rfl⟩ | hmem)
        · rcases List.mem_append.mp hmem with hmem | hmem
          · by_cases hpre : (dump.output last).path <+: (dump.output resource).path
            · exact .inl (hfits resource hmem hmatches (.inr hpre))
            · exact .inr ⟨.inl ⟨resource, hmem, hmatches, rfl⟩, hpre⟩
          · exact .inl (congrArg _ (List.mem_singleton.mp hmem))
        · exact .inr ⟨.inr hmem, (hfree file hmem).2⟩
    · intro resource hmem hmatches
      by_cases hkey : resource.key = last.key
      · show Function.update _ _ _ _ = _
        rw [hkey, Function.update_self, output_path_of_key hkey]
      · show Function.update _ _ _ _ = _
        rw [Function.update_of_ne hkey]
        rcases List.mem_append.mp hmem with hmem | hmem
        · exact h.known resource hmem hmatches
        · exact absurd (congrArg _ (List.mem_singleton.mp hmem)) hkey
    · intro key hkey
      show Function.update _ _ _ _ = _
      rw [Function.update_of_ne (hkey last (by simp) hsum).symm]
      exact h.frame key fun resource hmem => hkey resource (List.mem_append_left _ hmem)

/-- The loop over the resources of a type: none of them is in the way of another, and nothing is in
the folder of the type or in their way. -/
theorem foldl_dumpResource {resources : List (Resource B)}
    (hapart : ∀ a ∈ resources, ∀ b ∈ resources, dump.checkSumMatches a = true →
      dump.checkSumMatches b = true → (dump.output a).path <+: (dump.output b).path →
        dump.output a = dump.output b)
    (hfree : ∀ file ∈ cache.files, ∀ resource ∈ resources, dump.checkSumMatches resource = true →
      ¬ file.path <+: (dump.output resource).path ∧ ¬ (dump.output resource).path <+: file.path) :
    Wrote dump resources cache (resources.foldl dump.dumpResource cache) := by
  induction resources using List.reverseRecOn with
  | nil => exact ⟨fun file => by simp, fun _ h => (List.not_mem_nil h).elim, fun _ _ => rfl⟩
  | append_singleton resources last ih =>
    have hearlier : ∀ a ∈ resources, a ∈ resources ++ [last] :=
      fun a ha => List.mem_append_left _ ha
    have hlast : last ∈ resources ++ [last] := by simp
    have hwrote := ih (fun a ha b hb => hapart a (hearlier a ha) b (hearlier b hb))
      fun file hfile resource h => hfree file hfile resource (hearlier resource h)
    rw [List.foldl_append, List.foldl_cons, List.foldl_nil]
    generalize resources.foldl dump.dumpResource cache = mid at hwrote ⊢
    by_cases hsum : dump.checkSumMatches last = true
    · have hfits : ∀ a ∈ resources, dump.checkSumMatches a = true →
          (dump.output a).path <+: (dump.output last).path ∨
            (dump.output last).path <+: (dump.output a).path → dump.output a = dump.output last := by
        intro a ha hmatches hpre
        rcases hpre with hpre | hpre
        · exact hapart a (hearlier a ha) last hlast hmatches hsum hpre
        · exact (hapart last hlast a (hearlier a ha) hsum hmatches hpre).symm
      exact hwrote.snoc hsum hfits fun file hfile => hfree file hfile last hlast hsum
    · exact hwrote.skip hsum

end Types

/-! ## All types -/

section Run

variable {dump} {resource : Resource B} {type : ResourceType} {types order : List ResourceType}
  {cache : Cache B} {file : PathFile String B}

theorem listed_iff : dump.Listed [type] resource ↔
    resource ∈ dump.getResources type ∧ dump.checkSumMatches resource = true := by
  rw [mem_getResources]
  constructor
  · intro h
    exact ⟨⟨h.mem, List.mem_singleton.mp h.type⟩, h.checkSum⟩
  · rintro ⟨⟨hmem, htype⟩, hsum⟩
    exact ⟨hmem, List.mem_singleton.mpr htype, hsum⟩

theorem Listed.mono (h : dump.Listed types resource) (hsub : resource.type ∈ types →
    resource.type ∈ order) : dump.Listed order resource := ⟨h.mem, hsub h.type, h.checkSum⟩

theorem Listed.single (h : dump.Listed types resource) : dump.Listed [resource.type] resource :=
  h.mono fun _ => List.mem_singleton_self _

theorem Listed.of_single (h : dump.Listed [type] resource) (htype : type ∈ types) :
    dump.Listed types resource := h.mono fun hmem => List.mem_singleton.mp hmem ▸ htype

theorem writtenLast_snoc : dump.WrittenLast (types ++ [type]) file ↔
    (∃ resource, dump.Listed [type] resource ∧ dump.output resource = file) ∨
      dump.WrittenLast types file ∧ ¬ dump.cacheDirectory type <+: file.path := by
  constructor
  · rintro ⟨earlier, last, later, hsplit, hwrites, hlater⟩
    rcases List.eq_nil_or_concat later with rfl | ⟨init, final, rfl⟩
    · obtain ⟨-, hlast⟩ := List.append_inj' hsplit rfl
      cases hlast
      exact .inl hwrites
    · rw [List.concat_eq_append] at hsplit hlater
      rw [← List.cons_append, ← List.append_assoc] at hsplit
      obtain ⟨htypes, hfinal⟩ := List.append_inj' hsplit rfl
      cases hfinal
      refine .inr ⟨⟨earlier, last, init, htypes, hwrites, fun other hother => ?_⟩, ?_⟩
      · exact hlater other (List.mem_append_left _ hother)
      · exact hlater type (by simp)
  · rintro (hwrites | ⟨⟨earlier, last, later, rfl, hwrites, hlater⟩, hdir⟩)
    · exact ⟨types, type, [], rfl, hwrites, fun _ h => (List.not_mem_nil h).elim⟩
    · refine ⟨earlier, last, later ++ [type], by simp, hwrites, fun other hother => ?_⟩
      rcases List.mem_append.mp hother with hother | hother
      · exact hlater other hother
      · exact List.mem_singleton.mp hother ▸ hdir

/-- What has become of the cache after some types. -/
structure Ran (dump : Dump B) (types : List ResourceType) (cache : Cache B) : Prop where
  files : ∀ file, file ∈ cache.files ↔ dump.WrittenLast types file ∨
    file ∈ dump.files ∧ ∀ type ∈ types, ¬ dump.cacheDirectory type <+: file.path
  known : ∀ resource, dump.Listed types resource →
    cache.cachedFile resource.key = some (dump.output resource).path
  frame : ∀ key, (∀ resource, dump.Listed types resource → resource.key ≠ key) →
    cache.cachedFile key = dump.cachedFile key

/-- One type more. -/
theorem Ran.snoc (hapart : dump.Apart (types ++ [type])) (h : Ran dump types cache) :
    Ran dump (types ++ [type]) (dump.dumpType cache type) := by
  have hlisted : ∀ resource, dump.Listed [type] resource → dump.Listed (types ++ [type]) resource :=
    fun resource hresource => hresource.of_single (by simp)
  have hwrote : Wrote dump (dump.getResources type)
      { cache with files := cache.files.delete (dump.cacheDirectory type) }
      (dump.dumpType cache type) := by
    apply foldl_dumpResource
    · intro a ha b hb hmatches hmatches'
      exact hapart a b (hlisted a (listed_iff.mpr ⟨ha, hmatches⟩))
        (hlisted b (listed_iff.mpr ⟨hb, hmatches'⟩))
    · intro file hfile resource hresource hmatches
      obtain ⟨hfile, hdir⟩ := FileTree.mem_delete.mp hfile
      obtain ⟨hmem, htype⟩ := mem_getResources.mp hresource
      have hbelow : dump.cacheDirectory type <+: (dump.output resource).path :=
        htype ▸ cacheDirectory_starts hmem
      refine ⟨fun hpre => ?_, fun hpre => hdir (hbelow.trans hpre)⟩
      rcases (h.files file).mp hfile with ⟨earlier, last, later, rfl, ⟨other, hother, rfl⟩, -⟩ |
        ⟨hfile, -⟩
      · have hsame := hapart other resource (hother.of_single (by simp))
          (hlisted resource (listed_iff.mpr ⟨hresource, hmatches⟩)) hpre
        exact hdir (hsame ▸ hbelow)
      · exact hdir (htype ▸ cacheDirectory_prefix_of_blocking hfile hmem hpre)
  constructor
  · intro file
    rw [hwrote.files, writtenLast_snoc]
    simp only [FileTree.mem_delete, h.files, listed_iff, and_assoc, List.mem_append,
      List.mem_singleton]
    constructor
    · rintro (hwrites | ⟨hlast | ⟨hfile, htypes⟩, hdir⟩)
      · exact .inl (.inl hwrites)
      · exact .inl (.inr ⟨hlast, hdir⟩)
      · refine .inr ⟨hfile, fun other hother => ?_⟩
        rcases hother with hother | rfl
        · exact htypes other hother
        · exact hdir
    · rintro ((hwrites | ⟨hlast, hdir⟩) | ⟨hfile, htypes⟩)
      · exact .inl hwrites
      · exact .inr ⟨.inl hlast, hdir⟩
      · exact .inr ⟨.inr ⟨hfile, fun other hother => htypes other (.inl hother)⟩, htypes type (.inr rfl)⟩
  · intro resource hresource
    by_cases htype : resource.type = type
    · obtain ⟨hmem, hsum⟩ := listed_iff.mp (htype ▸ hresource.single)
      exact hwrote.known resource hmem hsum
    · have hearlier : dump.Listed types resource :=
        hresource.mono fun hmem => by simpa [htype] using hmem
      rw [hwrote.frame]
      · exact h.known resource hearlier
      · intro other hother _ hkey
        exact htype ((Prod.mk.inj hkey).1.symm.trans (mem_getResources.mp hother).2)
  · intro key hkey
    rw [hwrote.frame]
    · exact h.frame key fun resource hresource =>
        hkey resource (hresource.mono (List.mem_append_left _))
    · intro resource hmem hsum
      exact hkey resource (hlisted resource (listed_iff.mpr ⟨hmem, hsum⟩))

/-- Where no resource needs the place of another. -/
theorem ran_dumpToCache (h : dump.Apart types) : Ran dump types (dump.dumpToCache types) := by
  induction types using List.reverseRecOn with
  | nil =>
    refine ⟨fun file => ?_, fun _ h => (List.not_mem_nil h.type).elim, fun _ _ => rfl⟩
    constructor
    · intro hfile
      exact .inr ⟨hfile, fun _ h => (List.not_mem_nil h).elim⟩
    · rintro (⟨earlier, last, later, hsplit, -⟩ | ⟨hfile, -⟩)
      · cases earlier <;> cases hsplit
      · exact hfile
  | append_singleton types type ih =>
    have hearlier : dump.Apart types := fun a b ha hb =>
      h a b (ha.mono (List.mem_append_left _)) (hb.mono (List.mem_append_left _))
    rw [dumpToCache, List.foldl_append, List.foldl_cons, List.foldl_nil]
    exact (ih hearlier).snoc h

theorem Dumped.apart (h : dump.Dumped types cache) : dump.Apart types :=
  fun a b ha hb => cache.files.leaf _ (h a ha).1 _ (h b hb).1

theorem dumped_iff : dump.Dumped types (dump.dumpToCache types) ↔
    dump.Apart types ∧ ∀ resource, dump.Listed types resource →
      dump.WrittenLast types (dump.output resource) := by
  constructor
  · intro h
    refine ⟨h.apart, fun resource hresource => ?_⟩
    rcases ((ran_dumpToCache h.apart).files _).mp (h resource hresource).1 with hlast | ⟨-, htypes⟩
    · exact hlast
    · exact absurd (cacheDirectory_starts hresource.mem) (htypes _ hresource.type)
  · rintro ⟨hapart, hlast⟩ resource hresource
    have hran := ran_dumpToCache hapart
    exact ⟨(hran.files _).mpr (.inl (hlast resource hresource)), hran.known resource hresource⟩

theorem Listed.perm (h : dump.Listed types resource) (hperm : order.Perm types) :
    dump.Listed order resource := h.mono hperm.mem_iff.mpr

theorem Apart.perm (h : dump.Apart types) (hperm : order.Perm types) : dump.Apart order :=
  fun a b ha hb => h a b (ha.perm hperm.symm) (hb.perm hperm.symm)

/-- No file lies in the folder of a type that does not write it. -/
def Separate (dump : Dump B) (types : List ResourceType) : Prop :=
  ∀ resource, dump.Listed types resource → ∀ type ∈ types,
    dump.cacheDirectory type <+: (dump.output resource).path →
      ∃ other, dump.Listed [type] other ∧ dump.output other = dump.output resource

theorem Separate.perm (h : dump.Separate types) (hperm : order.Perm types) : dump.Separate order :=
  fun resource hresource type htype =>
    h resource (hresource.perm hperm.symm) type (hperm.mem_iff.mp htype)

theorem exists_last {p : ResourceType → Prop} (h : ∃ type ∈ types, p type) :
    ∃ earlier type later, types = earlier ++ type :: later ∧ p type ∧ ∀ other ∈ later, ¬ p other := by
  induction types with
  | nil => simp at h
  | cons first types ih =>
    by_cases hlater : ∃ type ∈ types, p type
    · obtain ⟨earlier, type, later, rfl, hlast⟩ := ih hlater
      exact ⟨first :: earlier, type, later, rfl, hlast⟩
    · obtain ⟨type, hmem, htype⟩ := h
      rcases List.mem_cons.mp hmem with rfl | hmem
      · exact ⟨[], type, types, rfl, htype, fun other hother h => hlater ⟨other, hother, h⟩⟩
      · exact absurd ⟨type, hmem, htype⟩ hlater

theorem Separate.writtenLast (h : dump.Separate types) (hresource : dump.Listed types resource) :
    dump.WrittenLast types (dump.output resource) := by
  obtain ⟨earlier, type, later, hsplit, hdir, hlater⟩ :=
    exists_last (p := fun type => dump.cacheDirectory type <+: (dump.output resource).path)
      ⟨resource.type, hresource.type, cacheDirectory_starts hresource.mem⟩
  have hmem : type ∈ types := by rw [hsplit]; simp
  exact ⟨earlier, type, later, hsplit, h resource hresource type hmem hdir, hlater⟩

/-- The output folder has no place for a file that its own types do not write. -/
theorem Separate.root (h : dump.Separate types) (htype : type ∈ types) (hfolder : type.folder = "")
    (hresource : dump.Listed types resource) :
    ∃ other, dump.Listed [type] other ∧ dump.output other = dump.output resource := by
  apply h resource hresource type htype
  rw [cacheDirectory_root hfolder]
  exact outputFolder_starts.trans (cacheDirectory_starts hresource.mem)

/-- A type that is dumped last leaves nothing in its folder that it does not write. -/
theorem separate_of_writtenLast
    (h : ∀ order, order.Perm types → ∀ resource, dump.Listed order resource →
      dump.WrittenLast order (dump.output resource)) : dump.Separate types := by
  intro resource hresource type htype hdir
  have hperm : (types.erase type ++ [type]).Perm types :=
    (List.perm_append_singleton type _).trans (List.perm_cons_erase htype).symm
  rcases writtenLast_snoc.mp (h _ hperm resource (hresource.perm hperm)) with hwrites | ⟨-, hnot⟩
  · exact hwrites
  · exact absurd hdir hnot

theorem Separate.same (h : dump.Separate types) (hapart : dump.Apart types)
    (hperm : order.Perm types) : (dump.dumpToCache order).Same (dump.dumpToCache types) := by
  have hran := ran_dumpToCache hapart
  have hran' := ran_dumpToCache (hapart.perm hperm)
  have hwritten : ∀ types, dump.Separate types → ∀ file, dump.WrittenLast types file ↔
      ∃ resource, dump.Listed types resource ∧ dump.output resource = file := by
    intro types hseparate file
    constructor
    · rintro ⟨earlier, type, later, rfl, ⟨resource, hresource, rfl⟩, -⟩
      exact ⟨resource, hresource.of_single (by simp), rfl⟩
    · rintro ⟨resource, hresource, rfl⟩
      exact hseparate.writtenLast hresource
  have hlisted : ∀ resource, dump.Listed order resource ↔ dump.Listed types resource :=
    fun resource => ⟨fun hresource => hresource.perm hperm.symm, fun hresource => hresource.perm hperm⟩
  constructor
  · intro file
    rw [hran.files, hran'.files, hwritten types h, hwritten order (h.perm hperm)]
    simp only [hlisted, hperm.mem_iff]
  · funext key
    by_cases hkey : ∃ resource, dump.Listed types resource ∧ resource.key = key
    · obtain ⟨resource, hresource, rfl⟩ := hkey
      rw [hran.known resource hresource, hran'.known resource (hresource.perm hperm)]
    · rw [hran.frame, hran'.frame]
      · exact fun resource hresource heq => hkey ⟨resource, (hlisted resource).mp hresource, heq⟩
      · exact fun resource hresource heq => hkey ⟨resource, hresource, heq⟩

/-- What is promised of some types: every resource is there, in whatever order they are dumped, and
the order makes no difference. -/
def DumpedInAnyOrder (dump : Dump B) (types : List ResourceType) : Prop :=
  ∀ order, order.Perm types →
    dump.Dumped order (dump.dumpToCache order) ∧
      (dump.dumpToCache order).Same (dump.dumpToCache types)

/-- In one order the last type whose folder has a file is one that writes it, in any order every such
type is. -/
theorem dumped_in_any_order_iff (dump : Dump B) (types : List ResourceType) :
    (dump.Dumped types (dump.dumpToCache types) ↔ dump.Apart types ∧
      ∀ resource, dump.Listed types resource → dump.WrittenLast types (dump.output resource)) ∧
    (dump.DumpedInAnyOrder types ↔ dump.Apart types ∧ dump.Separate types) := by
  refine ⟨dumped_iff, fun h => ?_, ?_⟩
  · refine ⟨(h types (.refl types)).1.apart, separate_of_writtenLast fun order hperm => ?_⟩
    exact (dumped_iff.mp (h order hperm).1).2
  · rintro ⟨hapart, hseparate⟩ order hperm
    refine ⟨dumped_iff.mpr ⟨hapart.perm hperm, fun resource hresource => ?_⟩,
      hseparate.same hapart hperm⟩
    exact (hseparate.perm hperm).writtenLast hresource

/-- `dumpToCache(XML, APPLICATION)`. -/
def confDump : Dump String where
  holder := ⟨⟨[⟨.xml, "pages.xml", "<pages/>"⟩, ⟨.application, "application.xml", "<application/>"⟩],
    by decide +kernel⟩, fun _ => none⟩
  no_up := by decide +kernel
  sha256Hex := id
  checkSum resource := some resource.bytes
  iterate := id
  iterate_perm := List.Perm.refl
  outputFolder := ["cache"]
  files := ⟨.empty, fun _ h => (Keyed.not_mem_empty h).elim⟩
  isDirectory _ h := (Keyed.not_mem_empty h).elim
  cachedFile _ := none

theorem conf_deleted :
    ¬ confDump.Dumped [.xml, .application] (confDump.dumpToCache [.xml, .application]) := by
  intro h
  have hlisted : confDump.Listed [.xml, .application] ⟨.xml, "pages.xml", "<pages/>"⟩ :=
    ⟨.head _, .head _, by decide +kernel⟩
  exact absurd (FileTree.mem_iff.mp (h _ hlisted).1) (by decide +kernel)

end Run

end Dump
end Resources
end Packages
end AppNG
