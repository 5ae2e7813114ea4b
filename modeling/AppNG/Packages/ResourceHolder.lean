import AppNG.Lib.Keyed
import AppNG.Lib.Utf16
import AppNG.Packages.Install

/-!
# Packages.ResourceHolder

The resources of an application that is installed, as files below its folder or as records:
`ApplicationResourceHolder` reads them, `CoreService` writes, deletes and converts them.

What is written goes to the folder of its type. What is loaded is what lies in that folder: for a type
with subfolders the files at any depth whose name ends with one of the extensions, for the others the
children whose name the type accepts, in lower or upper case, and a directory among these can not be
read. The id of a file is the hash code of its name, whatever its type.

Dots in a path are resolved without a look at the file system.
-/

namespace AppNG
namespace Packages

open FilePath Loop

namespace ResourceType

def supportsSubfolders : ResourceType → Bool
  | xml | sql | tpl | resource => true
  | _ => false

/-- `SuffixFileFilter`, or no filter at all. -/
def hasFileEnding (type : ResourceType) (name : String) : Bool :=
  type.allowedFileEndings.isEmpty ||
    type.allowedFileEndings.any fun ending => ("." ++ ending).toList.isSuffixOf name.toList

def accept (type : ResourceType) (name : String) : Bool := type.isValidFileName false name == some true

/-- The folder of the type in that of the application. -/
def root (type : ResourceType) : List String := if type.folder = "" then [] else [type.folder]

end ResourceType

namespace Resources

/-! ## Files -/

structure File (B : Type) where
  path : List String
  bytes : B

abbrev Files (B : Type) := Keyed (File.path (B := B))

variable {B : Type}

def outputFile (folder : List String) (resource : Resource B) : List String :=
  resolve folder (resource.outputPath false)

/-- A file is where a directory is needed, or the other way round. -/
def blocked (files : Files B) (path : List String) : Bool :=
  files.values.any fun file =>
    decide ((file.path <+: path ∨ path <+: file.path) ∧ file.path ≠ path)

def write (folder : List String) (files : Files B) (resource : Resource B) : Files B × Option Unit :=
  let path := outputFile folder resource
  if blocked files path then (files, some ()) else (files.put ⟨path, resource.bytes⟩, none)

/-! ## Loading -/

/-- `FilenameUtils.normalize` with the separator of Unix; `none` is `null`. -/
structure FilenameUtils where
  normalize : String → Option String
  /-- steps to the parent are removed, and no other separator is left -/
  clean : ∀ {path normalized : String}, normalize path = some normalized →
    '\\' ∉ normalized.toList ∧ .up ∉ segments false normalized
  /-- where there is nothing to remove, a separator behind a home directory is all that is added -/
  keeps : ∀ {path normalized : String}, Plain path → '\\' ∉ path.toList →
    normalize path = some normalized → normalized = path ∨ normalized.toList.getLast? = some '/'

/-- What the code runs in. -/
structure Context (B : Type) where
  utils : FilenameUtils
  /-- an `application.xml` with these contents can be unmarshalled -/
  unmarshalls : B → Bool
  applicationFolder : List String
  /-- the order in which a set is iterated over -/
  iterate : List (Resource B) → List (Resource B)
  iterate_perm : ∀ resources, (iterate resources).Perm resources

def simpleResource (context : Context B) (type : ResourceType) (names : List String) (bytes : B) :
    Option (Option (Resource B)) :=
  (context.utils.normalize (join names)).map fun name => some ⟨type, name, bytes⟩

/-- What a file becomes when the resources of a type are loaded; `none` is an exception. -/
def loadFile (context : Context B) (type : ResourceType) (file : File B) :
    Option (Option (Resource B)) :=
  let root := context.applicationFolder ++ type.root
  if root <+: file.path then
    let names := file.path.drop root.length
    if type.supportsSubfolders then
      if type.hasFileEnding (file.path.getLastD "") then
        -- a file in the place of the folder has no relative path
        if names = [] then none else simpleResource context type names file.bytes
      else some none
    else
      match names with
      | [] => some none
      | [name] =>
        if type.accept name then simpleResource context type [name] file.bytes else some none
      | name :: _ :: _ => if type.accept name then none else some none
  else some none

/-- What a loop adds whose bodies may throw. -/
def collect {α : Type} : List (Option (Option α)) → Option (List α)
  | [] => some []
  | none :: _ => none
  | some none :: added => collect added
  | some (some a) :: added => (collect added).map (a :: ·)

def loadFileResources (context : Context B) (files : Files B) : Option (List (Resource B)) :=
  collect (ResourceType.values.flatMap fun type => files.values.map (loadFile context type))

structure ResourceHolder (B : Type) where
  storage : Keyed fun resource : Resource B => (resource.type, resource.name)
  idMap : Int → Option (Resource B)

def ResourceHolder.hasBeansXmlAdded (holder : ResourceHolder B) (type : ResourceType) : Bool :=
  type == .beansXml && holder.storage.values.any (·.type == .beansXml)

/-- A resource is added with its id. -/
def ResourceHolder.add (holder : ResourceHolder B) (entry : Int × Resource B) : ResourceHolder B :=
  if holder.hasBeansXmlAdded entry.2.type then holder
  else ⟨holder.storage.put entry.2, Function.update holder.idMap entry.1 (some entry.2)⟩

/-- Without an `application.xml` there is no holder. -/
def ResourceHolder.create (unmarshalls : B → Bool) (entries : List (Int × Resource B)) :
    Option (ResourceHolder B) :=
  let holder := entries.foldl ResourceHolder.add ⟨.empty, fun _ => none⟩
  match holder.storage.get (.application, "application.xml") with
  | none => none
  | some applicationResource => if unmarshalls applicationResource.bytes then some holder else none

/-! ## Applications -/

/-- A resource in the database. -/
structure ResourceImpl (B : Type) where
  id : Nat
  resource : Resource B

structure Application (B : Type) where
  fileBased : Bool
  files : Files B
  resourceSet : Keyed (ResourceImpl.id (B := B))
  nextId : Nat

def getResources (context : Context B) (application : Application B) : Option (ResourceHolder B) :=
  if application.fileBased then
    (loadFileResources context application.files).bind fun loaded =>
      ResourceHolder.create context.unmarshalls
        (loaded.map fun resource => (Java.hashCode resource.name, resource))
  else
    ResourceHolder.create context.unmarshalls
      (application.resourceSet.values.map fun stored => ((stored.id : Int), stored.resource))

def save (application : Application B) (resource : Resource B) : Application B :=
  { application with
    resourceSet := application.resourceSet.put ⟨application.nextId, resource⟩
    nextId := application.nextId + 1 }

def writeFileBasedApplicationResources (context : Context B) (application : Application B)
    (resources : List (Resource B)) : Option (Application B) :=
  match foldUntil (write context.applicationFolder) application.files resources with
  | (files, none) => some { application with files }
  | (_, some ()) => none

def deleteApplicationResources (context : Context B) (application : Application B) :
    Application B :=
  if application.fileBased then
    { application with
      files := application.files.filter fun file => ¬ context.applicationFolder <+: file.path }
  else { application with resourceSet := .empty }

/-- `none` is a `BusinessException`. -/
def deleteResource (context : Context B) (application : Application B) (resourceId : Int) :
    Option (Application B) :=
  (getResources context application).bind fun holder =>
    (holder.idMap resourceId).map fun resource =>
      if application.fileBased then
        { application with
          files := application.files.filter fun file =>
            ¬ outputFile context.applicationFolder resource <+: file.path }
      else
        { application with
          resourceSet := application.resourceSet.filter fun stored => stored.id ≠ resourceId }

def synchronizeApplicationResources (context : Context B) (application : Application B)
    (isFileBased : Bool) : Option (Application B) :=
  if application.fileBased && !isFileBased then
    (getResources context application).map fun holder =>
      deleteApplicationResources context
        ((context.iterate holder.storage.values).foldl save application)
  else if !application.fileBased && isFileBased then
    (getResources context application).bind fun holder =>
      (writeFileBasedApplicationResources context application
        (context.iterate holder.storage.values)).map (deleteApplicationResources context)
  else some application

def updateApplication (context : Context B) (application : Application B) (isFileBased : Bool) :
    Option (Application B) :=
  (synchronizeApplicationResources context application isFileBased).map fun synchronized =>
    { synchronized with fileBased := isFileBased }

/-! ## What is added to a holder -/

section Holder

variable {holder : ResourceHolder B} {entries : List (Int × Resource B)} {entry : Int × Resource B}
  {resource : Resource B} {unmarshalls : B → Bool}

/-- What a holder holds was added to it. -/
theorem mem_foldl_add
    (h : resource ∈ (entries.foldl ResourceHolder.add holder).storage.values) :
    resource ∈ holder.storage.values ∨ ∃ entry ∈ entries, entry.2 = resource := by
  induction entries generalizing holder with
  | nil => exact .inl h
  | cons entry entries ih =>
    rcases ih h with h | ⟨other, hother, rfl⟩
    · unfold ResourceHolder.add at h
      split at h
      · exact .inl h
      · rcases Keyed.mem_put.mp h with rfl | ⟨h, -⟩
        · exact .inr ⟨entry, List.mem_cons_self, rfl⟩
        · exact .inl h
    · exact .inr ⟨other, List.mem_cons_of_mem _ hother, rfl⟩

/-- No two of the entries can be mistaken for one another. -/
structure Distinct (entries : List (Int × Resource B)) : Prop where
  names : ∀ a ∈ entries, ∀ b ∈ entries, a.2.type = b.2.type → a.2.name = b.2.name → a = b
  ids : ∀ a ∈ entries, ∀ b ∈ entries, a.1 = b.1 → a = b
  beansXml : ∀ a ∈ entries, a.2.type = .beansXml → a.2.name = "beans.xml"

/-- Then the holder has every one of them, under its id. -/
theorem foldl_add (h : Distinct entries) :
    (∀ resource, resource ∈ (entries.foldl ResourceHolder.add
        ⟨.empty, fun _ => none⟩).storage.values ↔ ∃ entry ∈ entries, entry.2 = resource) ∧
      ∀ entry ∈ entries, (entries.foldl ResourceHolder.add
        ⟨.empty, fun _ => none⟩).idMap entry.1 = some entry.2 := by
  induction entries using List.reverseRecOn with
  | nil => simp
  | append_singleton entries last ih =>
    have hearlier : ∀ a ∈ entries, a ∈ entries ++ [last] :=
      fun a ha => List.mem_append_left _ ha
    have hlast : last ∈ entries ++ [last] := by simp
    obtain ⟨hmem, hids⟩ := ih ⟨fun a ha b hb => h.names a (hearlier a ha) b (hearlier b hb),
      fun a ha b hb => h.ids a (hearlier a ha) b (hearlier b hb),
      fun a ha => h.beansXml a (hearlier a ha)⟩
    rw [List.foldl_append, List.foldl_cons, List.foldl_nil]
    generalize entries.foldl ResourceHolder.add ⟨.empty, fun _ => none⟩ = holder at hmem hids ⊢
    unfold ResourceHolder.add
    split
    · rename_i hbeans
      -- the `beans.xml` that was added before is this one
      have hagain : last ∈ entries := by
        obtain ⟨htype, hadded⟩ := Bool.and_eq_true_iff.mp hbeans
        obtain ⟨added, hadded, htype'⟩ := List.any_eq_true.mp hadded
        obtain ⟨entry, hentry, rfl⟩ := (hmem added).mp hadded
        have hsame := h.names entry (hearlier entry hentry) last hlast (by simp_all)
          ((h.beansXml entry (hearlier entry hentry) (by simpa using htype')).trans
            (h.beansXml last hlast (by simpa using htype)).symm)
        exact hsame ▸ hentry
      have hall : ∀ entry, entry ∈ entries ++ [last] ↔ entry ∈ entries := by
        intro entry
        simp only [List.mem_append, List.mem_singleton, or_iff_left_iff_imp]
        rintro rfl
        exact hagain
      simp only [hall]
      exact ⟨hmem, hids⟩
    · constructor
      · intro resource
        rw [Keyed.mem_put, hmem]
        constructor
        · rintro (rfl | ⟨⟨entry, hentry, rfl⟩, -⟩)
          · exact ⟨last, hlast, rfl⟩
          · exact ⟨entry, hearlier entry hentry, rfl⟩
        · rintro ⟨entry, hentry, rfl⟩
          by_cases hsame : entry = last
          · exact .inl (congrArg Prod.snd hsame)
          · have hentry' : entry ∈ entries := by simpa [hsame] using hentry
            refine .inr ⟨⟨entry, hentry', rfl⟩, fun hkey => hsame ?_⟩
            obtain ⟨htype, hname⟩ := Prod.mk.inj hkey
            exact h.names entry hentry last hlast htype hname
      · intro entry hentry
        by_cases hid : entry.1 = last.1
        · rw [h.ids entry hentry last hlast hid]
          exact Function.update_self ..
        · have hentry' : entry ∈ entries := by
            rcases List.mem_append.mp hentry with hentry' | hentry'
            · exact hentry'
            · exact absurd (congrArg Prod.fst (List.mem_singleton.mp hentry')) hid
          exact (Function.update_of_ne hid _ _).trans (hids entry hentry')

theorem create_eq_some :
    ResourceHolder.create unmarshalls entries = some holder ↔
      entries.foldl ResourceHolder.add ⟨.empty, fun _ => none⟩ = holder ∧
        ∃ applicationResource ∈ holder.storage.values, applicationResource.type = .application ∧
          applicationResource.name = "application.xml" ∧
            unmarshalls applicationResource.bytes = true := by
  unfold ResourceHolder.create
  generalize entries.foldl ResourceHolder.add ⟨.empty, fun _ => none⟩ = added
  constructor
  · intro h
    simp only at h
    split at h
    · cases h
    · rename_i applicationResource hget
      split at h
      · cases h
        obtain ⟨hmem, hkey⟩ := Keyed.get_eq_some.mp hget
        obtain ⟨htype, hname⟩ := Prod.mk.inj hkey
        exact ⟨rfl, applicationResource, hmem, htype, hname, ‹_›⟩
      · cases h
  · rintro ⟨rfl, applicationResource, hmem, htype, hname, hunmarshalls⟩
    have hget : added.storage.get (.application, "application.xml") = some applicationResource :=
      Keyed.get_eq_some.mpr ⟨hmem, by rw [htype, hname]⟩
    simp [hget, hunmarshalls]

end Holder

/-! ## Loops whose bodies may throw -/

section Collect

variable {α : Type} {added : List (Option (Option α))} {as : List α}

theorem collect_some (h : collect added = some as) :
    none ∉ added ∧ ∀ a, a ∈ as ↔ some (some a) ∈ added := by
  induction added generalizing as with
  | nil => cases h; simp
  | cons first added ih =>
    rcases first with _ | _ | a
    · cases h
    · obtain ⟨hnone, hmem⟩ := ih h
      simpa using ⟨hnone, hmem⟩
    · obtain ⟨rest, hrest, rfl⟩ := Option.map_eq_some_iff.mp h
      obtain ⟨hnone, hmem⟩ := ih hrest
      simp [hnone, hmem]

theorem collect_total (h : none ∉ added) : ∃ as, collect added = some as := by
  induction added with
  | nil => exact ⟨[], rfl⟩
  | cons first added ih =>
    obtain ⟨as, has⟩ := ih fun hmem => h (List.mem_cons_of_mem _ hmem)
    rcases first with _ | _ | a
    · simp at h
    · exact ⟨as, has⟩
    · exact ⟨a :: as, by rw [collect, has]; rfl⟩

end Collect

end Resources
end Packages
end AppNG
