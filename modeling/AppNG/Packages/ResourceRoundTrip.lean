import AppNG.Packages.ResourceHolder

/-!
# Packages.ResourceRoundTrip

Whether the resources of an archive are the same after they were written and loaded again.

* `touched_unique`: a file is looked at for the type it was written for only.
* `Loadable.roundTrip`, `loadable_of_roundTrip`: what is accepted from an archive is found again, under
  ids of its own and after every conversion, if and only if the names are as the holder reads them.
-/

namespace AppNG
namespace Packages
namespace Resources

open FilePath Loop

variable {B : Type}

/-! ## What is promised -/

/-- The resources that are accepted from one archive, with names that are distinct for each type. -/
structure Accepted (B : Type) where
  archive : List (ZipArchiveEntry B)
  resources : List (Resource B)
  accepted : process false archive = some resources
  distinct : (resources.map fun resource => (resource.type, resource.name)).Nodup

def install (context : Context B) (resources : List (Resource B)) : Option (Application B) :=
  writeFileBasedApplicationResources context ⟨true, .empty, .empty, 0⟩ resources

/-- The application is loaded, with these resources and no others. -/
structure HasResources (context : Context B) (application : Application B)
    (resources : List (Resource B)) (holder : ResourceHolder B) : Prop where
  loaded : getResources context application = some holder
  same : ∀ resource, resource ∈ holder.storage.values ↔ resource ∈ resources

/-- Every resource is found under its id, and that is the file which is deleted. -/
def FilesAddressed (context : Context B) (application : Application B) (holder : ResourceHolder B) :
    Prop :=
  ∀ resource ∈ holder.storage.values,
    holder.idMap (Java.hashCode resource.name) = some resource ∧
      ∃ remaining, deleteResource context application (Java.hashCode resource.name) = some remaining ∧
        ∀ file, file ∈ remaining.files.values ↔
          file ∈ application.files.values ∧
            file.path ≠ outputFile context.applicationFolder resource

def RecordsAddressed (context : Context B) (application : Application B)
    (holder : ResourceHolder B) : Prop :=
  ∀ stored ∈ application.resourceSet.values,
    holder.idMap stored.id = some stored.resource ∧
      ∃ remaining, deleteResource context application stored.id = some remaining ∧
        ∀ other, other ∈ remaining.resourceSet.values ↔
          other ∈ application.resourceSet.values ∧ other ≠ stored

/-- The resources are written and loaded, moved to the database and back. -/
def RoundTrip (context : Context B) (resources : List (Resource B)) : Prop :=
  ∃ installed holder, install context resources = some installed ∧
    HasResources context installed resources holder ∧ FilesAddressed context installed holder ∧
    ∃ stored holder, updateApplication context installed false = some stored ∧
      HasResources context stored resources holder ∧ RecordsAddressed context stored holder ∧
      ∃ back holder, updateApplication context stored true = some back ∧
        HasResources context back resources holder

/-- What is listed below the folder of a type. -/
def listed (type : ResourceType) (names : List String) : Bool :=
  if type.supportsSubfolders then type.hasFileEnding (names.getLastD "")
  else
    match names with
    | [name] => type.accept name
    | _ => false

/-- The names of the resources are as the holder reads them. -/
structure Loadable (context : Context B) (resources : List (Resource B)) : Prop where
  applicationXml : ∃ resource ∈ resources, resource.type = .application ∧
    context.unmarshalls resource.bytes = true
  plain : ∀ resource ∈ resources, Plain resource.name
  normalized : ∀ resource ∈ resources,
    context.utils.normalize resource.name = some resource.name
  listed : ∀ resource ∈ resources, listed resource.type (parts resource.name) = true
  apart : ∀ a ∈ resources, ∀ b ∈ resources, a.type = b.type →
    parts a.name <+: parts b.name → a = b
  ids : ∀ a ∈ resources, ∀ b ∈ resources, Java.hashCode a.name = Java.hashCode b.name → a = b

/-! ## What is accepted -/

section Accepted

variable {path : String} {type : ResourceType} {resource : Resource B} {entry : ZipArchiveEntry B}

theorem afterSlash_suffix : (afterSlash path).toList <:+ path.toList := by
  unfold afterSlash
  split
  · rw [String.toList_ofList]
    exact (List.tail_suffix _).trans (List.dropWhile_suffix _)
  · exact List.suffix_refl _

theorem findType_valid {dirName fileName : String} {types : List ResourceType}
    (h : findType false dirName fileName types = some (some type)) :
    type.isValidFileName false fileName = some true := by
  induction types with
  | nil => cases h
  | cons first types ih =>
    rw [findType] at h
    split at h
    · cases h
    · rename_i validFileName hvalid
      split at h
      · rename_i hfits
        cases h
        rw [hvalid, hfits.2]
      · exact ih h

/-- An accepted resource: its name does not end like that of a directory, and two types have one name. -/
structure Named (resource : Resource B) : Prop where
  noDirectory : resource.name.toList.getLast? ≠ some '/'
  beansXml : resource.type = .beansXml → resource.name = "beans.xml"
  applicationXml : resource.type = .application → resource.name = "application.xml"

theorem add_named (hfile : entry.isDirectory = false)
    (h : add false entry = some (some resource)) : Named resource := by
  have hlast : entry.name.toList.getLast? ≠ some '/' := by
    simpa [ZipArchiveEntry.isDirectory] using hfile
  unfold add at h
  simp only at h
  split at h
  · cases h
    exact ⟨by simp, fun _ => rfl, nofun⟩
  · split at h
    · cases h
      exact ⟨by simp, nofun, fun _ => rfl⟩
    · split at h
      · obtain ⟨found, hfound, hresource⟩ := Option.map_eq_some_iff.mp h
        obtain ⟨type, rfl, rfl⟩ := Option.map_eq_some_iff.mp hresource
        have hvalid := findType_valid hfound
        refine ⟨fun hslash => hlast ?_, ?_, ?_⟩
        · obtain ⟨before, hbefore⟩ : (afterSlash entry.name).toList <:+ _ := afterSlash_suffix
          obtain ⟨name, hname⟩ := List.getLast?_eq_some_iff.mp hslash
          have hslash : (afterSlash entry.name).toList = name ++ ['/'] := hname
          rw [← hbefore, hslash, ← List.append_assoc, List.getLast?_concat]
        · rintro rfl
          simpa [ResourceType.isValidFileName] using hvalid
        · rintro rfl
          simpa [ResourceType.isValidFileName] using hvalid
      · cases h

theorem Accepted.named (accepted : Accepted B) (h : resource ∈ accepted.resources) :
    Named resource := by
  obtain ⟨entry, hentry, hadd⟩ := (mem_process accepted.accepted).mp h
  exact add_named (by simpa using (List.mem_filter.mp hentry).2) hadd

theorem Accepted.eq_of_name (accepted : Accepted B) {a b : Resource B}
    (ha : a ∈ accepted.resources) (hb : b ∈ accepted.resources) (htype : a.type = b.type)
    (hname : a.name = b.name) : a = b :=
  List.inj_on_of_nodup_map accepted.distinct ha hb (Prod.ext htype hname)

end Accepted

/-! ## The folders of the types -/

section Roots

variable {type type' : ResourceType} {names names' : List String} {name : String}

/-- The file with these names below the folder of a type is looked at, with success or not. -/
def touched (type : ResourceType) (names : List String) : Bool :=
  if type.supportsSubfolders then names.isEmpty || type.hasFileEnding (names.getLastD "")
  else
    match names with
    | [] => false
    | name :: _ => type.accept name

theorem touched_of_listed (h : listed type names = true) : touched type names = true := by
  unfold listed at h
  unfold touched
  split at h
  · rename_i hsub
    rw [if_pos hsub, h, Bool.or_true]
  · rename_i hsub
    rw [if_neg hsub]
    split at h
    · exact h
    · cases h

theorem root_injective (h : type.root = type'.root) (hne : type.root ≠ []) : type = type' := by
  cases type <;> cases type' <;> simp [ResourceType.root, ResourceType.folder] at h hne ⊢

theorem root_eq_nil (h : type.root = []) : type = .beansXml ∨ type = .application := by
  cases type <;> simp [ResourceType.root, ResourceType.folder] at h ⊢

theorem root_length (type : ResourceType) : type.root = [] ∨ ∃ folder, type.root = [folder] := by
  unfold ResourceType.root
  split
  · exact .inl rfl
  · exact .inr ⟨_, rfl⟩

/-- No folder has the name of a file that is looked for beside the folders. -/
theorem root_not_file (h : type.root = [name]) : name ≠ "beans.xml" ∧ name ≠ "application.xml" := by
  cases type <;> simp [ResourceType.root, ResourceType.folder] at h ⊢ <;> subst h <;> decide +kernel

/-- The name that a type without a folder looks for. -/
def ownName : ResourceType → Option String
  | .beansXml => some "beans.xml"
  | .application => some "application.xml"
  | _ => none

theorem ownName_of_root (h : type.root = []) : ∃ name, ownName type = some name := by
  rcases root_eq_nil h with rfl | rfl <;> exact ⟨_, rfl⟩

theorem ownName_injective (h : ownName type = some name) (h' : ownName type' = some name) :
    type = type' := by
  cases type <;> cases type' <;> simp [ownName] at h h' ⊢ <;> subst h <;> simp at h'

theorem touched_ownName (h : ownName type = some name) (htouched : touched type names = true) :
    ∃ rest, names = name :: rest := by
  cases type <;> cases h <;> cases names <;>
    simp_all [touched, ResourceType.supportsSubfolders, ResourceType.accept,
      ResourceType.isValidFileName]

theorem ownName_ne_root {folder : String} (h : ownName type = some name)
    (hroot : type'.root = [folder]) : folder ≠ name := by
  obtain ⟨hbeans, happlication⟩ := root_not_file hroot
  cases type <;> cases h
  · exact hbeans
  · exact happlication

/-- Folders and the files beside them are told apart. -/
theorem root_unique (h : type.root ++ names = type'.root ++ names')
    (hown : ∀ name, ownName type = some name → ∃ rest, names = name :: rest)
    (hown' : ∀ name, ownName type' = some name → ∃ rest, names' = name :: rest) :
    type = type' ∧ names = names' := by
  rcases root_length type with hroot | ⟨folder, hroot⟩
  · obtain ⟨name, hname⟩ := ownName_of_root hroot
    obtain ⟨rest, rfl⟩ := hown name hname
    rcases root_length type' with hroot' | ⟨folder, hroot'⟩
    · obtain ⟨name', hname'⟩ := ownName_of_root hroot'
      obtain ⟨rest', rfl⟩ := hown' name' hname'
      rw [hroot, hroot'] at h
      simp only [List.nil_append, List.cons.injEq] at h
      obtain ⟨rfl, rfl⟩ := h
      exact ⟨ownName_injective hname hname', rfl⟩
    · rw [hroot, hroot'] at h
      simp only [List.nil_append, List.singleton_append, List.cons.injEq] at h
      exact absurd h.1.symm (ownName_ne_root hname hroot')
  · rcases root_length type' with hroot' | ⟨folder', hroot'⟩
    · obtain ⟨name', hname'⟩ := ownName_of_root hroot'
      obtain ⟨rest', rfl⟩ := hown' name' hname'
      rw [hroot, hroot'] at h
      simp only [List.nil_append, List.singleton_append, List.cons.injEq] at h
      exact absurd h.1 (ownName_ne_root hname' hroot)
    · have hroots := h
      rw [hroot, hroot'] at hroots
      simp only [List.singleton_append, List.cons.injEq] at hroots
      obtain ⟨rfl, rfl⟩ := hroots
      exact ⟨root_injective (hroot.trans hroot'.symm) (by simp [hroot]), rfl⟩

end Roots

/-! ## Loading one file -/

section LoadFile

variable {context : Context B} {type : ResourceType} {file : File B} {names : List String}
  {resource : Resource B} {name : String}

theorem getLastD_append_of_ne {as bs : List String} {d : String} (h : bs ≠ []) :
    (as ++ bs).getLastD d = bs.getLastD d := by
  rw [List.getLastD_eq_getLast?, List.getLastD_eq_getLast?, List.getLast?_append_of_ne_nil as h]

theorem loadFile_below (hpath : file.path = context.applicationFolder ++ (type.root ++ names))
    (hne : names ≠ []) : loadFile context type file =
      if listed type names = true then simpleResource context type names file.bytes
      else if touched type names = true then none else some none := by
  have hbelow : context.applicationFolder ++ type.root <+: file.path := by
    rw [hpath, ← List.append_assoc]
    exact List.prefix_append _ _
  have hdrop : file.path.drop (context.applicationFolder ++ type.root).length = names := by
    rw [hpath, ← List.append_assoc, List.drop_left]
  have hlast : file.path.getLastD "" = names.getLastD "" := by
    rw [hpath, ← List.append_assoc, getLastD_append_of_ne hne]
  unfold loadFile
  simp only [if_pos hbelow, hdrop, hlast]
  unfold listed touched
  cases type.supportsSubfolders with
  | true => cases type.hasFileEnding (names.getLastD "") <;> simp [hne]
  | false =>
    rcases names with _ | ⟨first, _ | ⟨second, rest⟩⟩
    · exact absurd rfl hne
    · cases haccept : type.accept first <;> simp [haccept]
    · cases haccept : type.accept first <;> simp [haccept]

theorem loadFile_untouched
    (h : ∀ names, file.path = context.applicationFolder ++ (type.root ++ names) →
      touched type names = false) : loadFile context type file = some none := by
  by_cases hbelow : context.applicationFolder ++ type.root <+: file.path
  · obtain ⟨names, hnames⟩ := hbelow
    rw [List.append_assoc] at hnames
    have huntouched := h names hnames.symm
    by_cases hne : names = []
    · -- only a type with subfolders looks at a file in the place of its folder
      subst hne
      have hsub : type.supportsSubfolders = false := by
        unfold touched at huntouched
        cases hsub : type.supportsSubfolders <;> simp_all
      have hpath : file.path = context.applicationFolder ++ type.root := by
        rw [← hnames, List.append_nil]
      unfold loadFile
      simp [hpath, hsub]
    · have hlisted : ¬ listed type names = true := by
        intro hlisted
        rw [touched_of_listed hlisted] at huntouched
        cases huntouched
      rw [loadFile_below hnames.symm hne, if_neg hlisted, huntouched, if_neg (by simp)]
  · unfold loadFile
    simp only [if_neg hbelow]

theorem simpleResource_eq_some {bytes : B} :
    simpleResource context type names bytes = some (some resource) ↔
      context.utils.normalize (join names) = some resource.name ∧ resource.type = type ∧
        resource.bytes = bytes := by
  unfold simpleResource
  rw [Option.map_eq_some_iff]
  constructor
  · rintro ⟨name, hname, h⟩
    cases h
    exact ⟨hname, rfl, rfl⟩
  · rintro ⟨hname, rfl, rfl⟩
    exact ⟨resource.name, hname, rfl⟩

theorem loadFile_eq_some : loadFile context type file = some (some resource) ↔
    ∃ names, file.path = context.applicationFolder ++ (type.root ++ names) ∧ names ≠ [] ∧
      listed type names = true ∧ context.utils.normalize (join names) = some resource.name ∧
        resource.type = type ∧ resource.bytes = file.bytes := by
  constructor
  · intro h
    have hbelow : context.applicationFolder ++ type.root <+: file.path := by
      by_contra hnot
      unfold loadFile at h
      simp only [if_neg hnot] at h
      cases h
    obtain ⟨names, hnames⟩ := hbelow
    rw [List.append_assoc] at hnames
    have hne : names ≠ [] := by
      rintro rfl
      have hpath : file.path = context.applicationFolder ++ type.root := by
        rw [← hnames, List.append_nil]
      unfold loadFile at h
      simp only [hpath, List.prefix_refl, if_true, List.drop_length] at h
      split at h
      · split at h <;> cases h
      · cases h
    rw [loadFile_below hnames.symm hne] at h
    split at h
    · exact ⟨names, hnames.symm, hne, ‹_›, simpleResource_eq_some.mp h⟩
    · split at h <;> cases h
  · rintro ⟨names, hpath, hne, hlisted, hresource⟩
    rw [loadFile_below hpath hne, if_pos hlisted]
    exact simpleResource_eq_some.mpr hresource

/-- Every resource of a file-based application was read from one of its files. -/
theorem exists_loadFile {application : Application B} {holder : ResourceHolder B}
    (hfileBased : application.fileBased = true)
    (hloaded : getResources context application = some holder)
    (h : resource ∈ holder.storage.values) :
    ∃ type, ∃ file ∈ application.files.values,
      loadFile context type file = some (some resource) := by
  rw [getResources, if_pos hfileBased] at hloaded
  obtain ⟨loaded, hcollect, hcreate⟩ := Option.bind_eq_some_iff.mp hloaded
  rw [← (create_eq_some.mp hcreate).1] at h
  rcases mem_foldl_add h with hempty | ⟨entry, hentry, rfl⟩
  · exact absurd hempty Keyed.not_mem_empty
  · obtain ⟨read, hread, rfl⟩ := List.mem_map.mp hentry
    have hadded := ((collect_some hcollect).2 read).mp hread
    obtain ⟨type, -, hadded⟩ := List.mem_flatMap.mp hadded
    obtain ⟨file, hfile, hload⟩ := List.mem_map.mp hadded
    exact ⟨type, file, hfile, hload⟩

theorem clean_of_loaded {application : Application B} {holder : ResourceHolder B}
    (hfileBased : application.fileBased = true)
    (hloaded : getResources context application = some holder)
    (h : resource ∈ holder.storage.values) :
    '\\' ∉ resource.name.toList ∧ .up ∉ segments false resource.name := by
  obtain ⟨type, file, -, hload⟩ := exists_loadFile hfileBased hloaded h
  obtain ⟨names, -, -, -, hnormalize, -⟩ := loadFile_eq_some.mp hload
  exact context.utils.clean hnormalize

end LoadFile

/-! ## Where a resource is written -/

section Output

variable {folder : List String} {resource : Resource B}

theorem resolve_folder (type : ResourceType) :
    resolve folder (segments false type.folder) = folder ++ type.root := by
  have hnames : ∀ name, (name ≠ "" ∧ name ≠ "." ∧ name ≠ "..") → '/' ∉ name.toList →
      resolve folder (segments false name) = folder ++ [name] := by
    intro name hname hslash
    rw [segments_name hname hslash]
    rfl
  cases type <;>
    first
    | exact (List.append_nil folder).symm
    | exact hnames _ (by decide +kernel) (by decide +kernel)

theorem outputFile_eq (h : .up ∉ segments false resource.name) :
    outputFile folder resource = folder ++ (resource.type.root ++ parts resource.name) := by
  have hpath : resource.outputPath false =
      segments false resource.type.folder ++ segments false resource.name :=
    segments_append false resource.type.folder resource.name
  rw [outputFile, hpath, resolve_append, resolve_folder, resolve_of_no_up h, List.append_assoc]
  rfl

theorem Named.parts_eq (h : Named resource) {name : String}
    (hname : ownName resource.type = some name) : resource.name = name ∧ parts resource.name = [name] := by
  cases htype : resource.type <;> rw [htype] at hname <;> cases hname
  · rw [h.beansXml htype]
    exact ⟨rfl, by decide +kernel⟩
  · rw [h.applicationXml htype]
    exact ⟨rfl, by decide +kernel⟩

end Output

/-! ## Writing all -/

section Write

variable {folder : List String} {resource : Resource B} {resources all : List (Resource B)}
  {files files' : Files B} {path : List String} {file : File B}

def fileOf (folder : List String) (resource : Resource B) : File B :=
  ⟨outputFile folder resource, resource.bytes⟩

/-- No file is in the place of a directory. -/
def PrefixFree (files : Files B) : Prop :=
  ∀ a ∈ files.values, ∀ b ∈ files.values, a.path <+: b.path → a.path = b.path

theorem blocked_eq_false : blocked files path = false ↔
    ∀ file ∈ files.values, file.path <+: path ∨ path <+: file.path → file.path = path := by
  simp [blocked]

theorem write_ok (h : write folder files resource = (files', none)) :
    blocked files (outputFile folder resource) = false ∧
      files' = files.put (fileOf folder resource) := by
  unfold write at h
  simp only at h
  split at h
  · cases h
  · rename_i hfree
    cases h
    exact ⟨by simpa using hfree, rfl⟩

theorem writeAll_ok (h : foldUntil (write folder) files resources = (files', none)) :
    files' = (resources.map (fileOf folder)).foldl Keyed.put files := by
  induction resources generalizing files with
  | nil => cases h; rfl
  | cons resource resources ih =>
    cases hwrite : write folder files resource with
    | mk next threw =>
      cases threw with
      | some _ => rw [foldUntil_cons_threw hwrite] at h; cases h
      | none =>
        rw [foldUntil_cons_ok hwrite] at h
        rw [ih h, (write_ok hwrite).2]
        rfl

theorem prefixFree_write (hfiles : PrefixFree files) :
    PrefixFree (write folder files resource).1 := by
  unfold write
  simp only
  split
  · exact hfiles
  · rename_i hfree
    have hfree := blocked_eq_false.mp (by simpa using hfree)
    intro a ha b hb hpre
    rcases Keyed.mem_put.mp ha with rfl | ⟨ha, -⟩ <;> rcases Keyed.mem_put.mp hb with rfl | ⟨hb, -⟩
    · rfl
    · exact (hfree b hb (.inr hpre)).symm
    · exact hfree a ha (.inl hpre)
    · exact hfiles a ha b hb hpre

theorem prefixFree_writeAll :
    PrefixFree (foldUntil (write folder) (.empty : Files B) resources).1 :=
  foldUntil_inv (fun _ _ _ h => prefixFree_write h) (by simp [PrefixFree])

/-- Nothing is in the way of files none of which is below another. -/
theorem writeAll_total
    (hapart : ∀ a ∈ all, ∀ b ∈ all,
      outputFile folder a <+: outputFile folder b → outputFile folder a = outputFile folder b)
    (hsub : ∀ resource ∈ resources, resource ∈ all)
    (hfiles : ∀ file ∈ files.values, ∃ a ∈ all, file.path = outputFile folder a) :
    ∃ files', foldUntil (write folder) files resources = (files', none) := by
  induction resources generalizing files with
  | nil => exact ⟨files, rfl⟩
  | cons resource resources ih =>
    obtain ⟨hresource, hsub⟩ := List.forall_mem_cons.mp hsub
    have hfree : blocked files (outputFile folder resource) = false := by
      refine blocked_eq_false.mpr fun file hfile hpre => ?_
      obtain ⟨a, ha, hpath⟩ := hfiles file hfile
      rw [hpath] at hpre ⊢
      rcases hpre with hpre | hpre
      · exact hapart a ha resource hresource hpre
      · exact (hapart resource hresource a ha hpre).symm
    have hwrite : write folder files resource = (files.put (fileOf folder resource), none) := by
      simp [write, hfree, fileOf]
    rw [foldUntil_cons_ok hwrite]
    refine ih hsub fun file hfile => ?_
    rcases Keyed.mem_put.mp hfile with rfl | ⟨hfile, -⟩
    · exact ⟨resource, hresource, rfl⟩
    · exact hfiles file hfile

end Write

/-! ## Names as the holder reads them -/

section Loads

variable {context : Context B} {accepted : Accepted B} {resource : Resource B} {files : Files B}
  {application : Application B} {holder : ResourceHolder B}

theorem Named.own (h : Named resource) {name : String} (hname : ownName resource.type = some name) :
    ∃ rest, parts resource.name = name :: rest := ⟨[], (h.parts_eq hname).2⟩

/-- A file that is looked at is looked at for the type it was written for. -/
theorem touched_unique {type : ResourceType} {names names' : List String} (h : Named resource)
    (hsame : type.root ++ names = resource.type.root ++ names')
    (hnames : names' = parts resource.name) (htouched : touched type names = true) :
    type = resource.type ∧ names = names' :=
  root_unique hsame (fun _ hname => touched_ownName hname htouched)
    fun _ hname => hnames ▸ h.own hname

section Loadable

variable (hl : Loadable context accepted.resources)

include hl

theorem Loadable.outputFile_eq (h : resource ∈ accepted.resources) :
    outputFile context.applicationFolder resource =
      context.applicationFolder ++ (resource.type.root ++ parts resource.name) :=
  Resources.outputFile_eq (hl.plain resource h).no_up

theorem Loadable.eq_of_prefix {a b : Resource B} (ha : a ∈ accepted.resources)
    (hb : b ∈ accepted.resources) (hpre : outputFile context.applicationFolder a <+:
      outputFile context.applicationFolder b) : a = b := by
  rw [hl.outputFile_eq ha, hl.outputFile_eq hb, List.prefix_append_right_inj] at hpre
  obtain ⟨rest, hrest⟩ := hpre
  rw [List.append_assoc] at hrest
  obtain ⟨htype, hparts⟩ := root_unique hrest
    (fun name hname => by
      obtain ⟨below, hbelow⟩ := (accepted.named ha).own hname
      exact ⟨below ++ rest, by rw [hbelow]; rfl⟩)
    fun name hname => (accepted.named hb).own hname
  exact hl.apart a ha b hb htype ⟨rest, hparts⟩

theorem Loadable.loadFile_eq (h : resource ∈ accepted.resources) (type : ResourceType) :
    loadFile context type (fileOf context.applicationFolder resource) =
      some (if type = resource.type then some resource else none) := by
  have hpath : (fileOf context.applicationFolder resource).path =
      context.applicationFolder ++ (resource.type.root ++ parts resource.name) := hl.outputFile_eq h
  split
  · rename_i htype
    subst htype
    refine loadFile_eq_some.mpr ⟨parts resource.name, hpath, (hl.plain resource h).parts_ne_nil,
      hl.listed resource h, ?_, rfl, rfl⟩
    rw [(hl.plain resource h).join_parts]
    exact hl.normalized resource h
  · rename_i htype
    refine loadFile_untouched fun names hnames => ?_
    rw [← Bool.not_eq_true]
    intro htouched
    rw [hpath, List.append_cancel_left_eq] at hnames
    exact htype (touched_unique (accepted.named h) hnames.symm rfl htouched).1

/-- The files are loaded as what they were written for. -/
theorem Loadable.loadFileResources_eq
    (hfiles : ∀ file, file ∈ files.values ↔
      ∃ resource ∈ accepted.resources, fileOf context.applicationFolder resource = file) :
    ∃ loaded, loadFileResources context files = some loaded ∧
      ∀ resource, resource ∈ loaded ↔ resource ∈ accepted.resources := by
  have hmem : ∀ read, read ∈ (ResourceType.values.flatMap fun type =>
      files.values.map (loadFile context type)) ↔ ∃ type ∈ ResourceType.values,
        ∃ resource ∈ accepted.resources, read = some (if type = resource.type then some resource else none) := by
    intro read
    simp only [List.mem_flatMap, List.mem_map, hfiles]
    constructor
    · rintro ⟨type, htype, file, ⟨resource, hresource, rfl⟩, rfl⟩
      exact ⟨type, htype, resource, hresource, hl.loadFile_eq hresource type⟩
    · rintro ⟨type, htype, resource, hresource, rfl⟩
      exact ⟨type, htype, _, ⟨resource, hresource, rfl⟩, hl.loadFile_eq hresource type⟩
  obtain ⟨loaded, hloaded⟩ := collect_total (α := Resource B) fun hnone => by
    obtain ⟨type, -, resource, -, hread⟩ := (hmem none).mp hnone
    cases hread
  refine ⟨loaded, hloaded, fun resource => ?_⟩
  rw [(collect_some hloaded).2 resource, hmem]
  constructor
  · rintro ⟨type, -, other, hother, hread⟩
    split at hread
    · cases hread
      exact hother
    · cases hread
  · intro hresource
    have hvalues : resource.type ∈ ResourceType.values := by
      cases resource.type <;> simp [ResourceType.values]
    exact ⟨resource.type, hvalues, resource, hresource, by simp⟩

/-- What a holder is made of that has the resources, each under one id. -/
theorem Loadable.create_eq {entries : List (Int × Resource B)} (hdistinct : Distinct entries)
    (hmem : ∀ resource, (∃ entry ∈ entries, entry.2 = resource) ↔ resource ∈ accepted.resources) :
    ∃ holder, ResourceHolder.create context.unmarshalls entries = some holder ∧
      (∀ resource, resource ∈ holder.storage.values ↔ resource ∈ accepted.resources) ∧
      ∀ entry ∈ entries, holder.idMap entry.1 = some entry.2 := by
  obtain ⟨hstorage, hids⟩ := foldl_add hdistinct
  obtain ⟨applicationResource, hresource, htype, hunmarshalls⟩ := hl.applicationXml
  refine ⟨_, create_eq_some.mpr ⟨rfl, applicationResource, ?_, htype, ?_, hunmarshalls⟩,
    fun resource => (hstorage resource).trans (hmem resource), hids⟩
  · exact (hstorage applicationResource).mpr ((hmem applicationResource).mpr hresource)
  · exact (accepted.named hresource).applicationXml htype

/-- A file-based application whose files are those of the resources. -/
theorem Loadable.files_loaded (application : Application B)
    (hfileBased : application.fileBased = true)
    (hfiles : ∀ file, file ∈ application.files.values ↔
      ∃ resource ∈ accepted.resources, fileOf context.applicationFolder resource = file) :
    ∃ holder, HasResources context application accepted.resources holder ∧
      FilesAddressed context application holder := by
  obtain ⟨loaded, hloaded, hmem⟩ := hl.loadFileResources_eq hfiles
  let entries := loaded.map fun resource => (Java.hashCode resource.name, resource)
  have hentries : ∀ entry ∈ entries, entry.2 ∈ accepted.resources ∧
      entry.1 = Java.hashCode entry.2.name := by
    intro entry hentry
    obtain ⟨resource, hresource, rfl⟩ := List.mem_map.mp hentry
    exact ⟨(hmem resource).mp hresource, rfl⟩
  have hsame : ∀ a ∈ entries, ∀ b ∈ entries, a.2 = b.2 → a = b := by
    intro a ha b hb heq
    exact Prod.ext (by rw [(hentries a ha).2, (hentries b hb).2, heq]) heq
  have hdistinct : Distinct entries := by
    refine ⟨fun a ha b hb htype hname => ?_, fun a ha b hb hid => ?_, fun a ha htype => ?_⟩
    · exact hsame a ha b hb
        (accepted.eq_of_name (hentries a ha).1 (hentries b hb).1 htype hname)
    · rw [(hentries a ha).2, (hentries b hb).2] at hid
      exact hsame a ha b hb (hl.ids a.2 (hentries a ha).1 b.2 (hentries b hb).1 hid)
    · exact (accepted.named (hentries a ha).1).beansXml htype
  obtain ⟨holder, hcreate, hstorage, hids⟩ := hl.create_eq hdistinct fun resource => by
    rw [← hmem resource]
    simp [entries]
  have hget : getResources context application = some holder := by
    rw [getResources, if_pos hfileBased, hloaded]
    exact hcreate
  refine ⟨holder, ⟨hget, hstorage⟩, fun resource hresource => ?_⟩
  have hresource := (hstorage resource).mp hresource
  have hid : holder.idMap (Java.hashCode resource.name) = some resource :=
    hids (Java.hashCode resource.name, resource)
      (List.mem_map_of_mem ((hmem resource).mpr hresource))
  refine ⟨hid, _, by rw [deleteResource, hget, Option.bind_some, hid, Option.map_some], fun file => ?_⟩
  simp only [if_pos hfileBased, Keyed.mem_filter, decide_eq_true_eq]
  refine and_congr_right fun hfile => not_congr ?_
  obtain ⟨other, hother, rfl⟩ := (hfiles file).mp hfile
  constructor
  · intro hpre
    rw [hl.eq_of_prefix hresource hother hpre]
    rfl
  · intro hpath
    rw [hpath]

end Loadable

/-- The resources are saved one after another, under the ids that follow. -/
theorem foldl_save (application : Application B) (resources : List (Resource B))
    (h : application.resourceSet.values = []) :
    (resources.foldl save application).files = application.files ∧
      (resources.foldl save application).fileBased = application.fileBased ∧
      (resources.foldl save application).nextId = application.nextId + resources.length ∧
      ∀ stored, stored ∈ (resources.foldl save application).resourceSet.values ↔
        ∃ i, stored.id = application.nextId + i ∧ resources[i]? = some stored.resource := by
  induction resources using List.reverseRecOn with
  | nil => simp [h]
  | append_singleton resources last ih =>
    obtain ⟨hfiles, hfileBased, hnext, hmem⟩ := ih
    rw [List.foldl_append, List.foldl_cons, List.foldl_nil]
    refine ⟨hfiles, hfileBased, ?_, fun stored => ?_⟩
    · simp [save, hnext, Nat.add_assoc]
    · rw [save, Keyed.mem_put, hmem, hnext]
      constructor
      · rintro (rfl | ⟨⟨i, hid, hi⟩, -⟩)
        · exact ⟨resources.length, rfl, by simp⟩
        · have hlt : i < resources.length := (List.getElem?_eq_some_iff.mp hi).1
          exact ⟨i, hid, by rw [List.getElem?_append_left hlt, hi]⟩
      · rintro ⟨i, hid, hi⟩
        by_cases hlt : i < resources.length
        · rw [List.getElem?_append_left hlt] at hi
          have hearlier : stored.id < application.nextId + resources.length := by omega
          exact .inr ⟨⟨i, hid, hi⟩, Nat.ne_of_lt hearlier⟩
        · rw [List.getElem?_append_right (Nat.le_of_not_lt hlt), List.getElem?_singleton] at hi
          split at hi
          · have hi' : i = resources.length := by omega
            subst hi'
            cases stored
            simp_all
          · cases hi

section Conversion

variable (hl : Loadable context accepted.resources)

include hl

/-- A database-based application that every resource was saved for once. -/
theorem Loadable.records_loaded (application : Application B) (start : Nat)
    {resources : List (Resource B)}
    (hfileBased : application.fileBased = false) (hnodup : resources.Nodup)
    (hmem : ∀ resource, resource ∈ resources ↔ resource ∈ accepted.resources)
    (hrecords : ∀ stored, stored ∈ application.resourceSet.values ↔
      ∃ i, stored.id = start + i ∧ resources[i]? = some stored.resource) :
    ∃ holder, HasResources context application accepted.resources holder ∧
      RecordsAddressed context application holder := by
  let entries := application.resourceSet.values.map fun stored => ((stored.id : Int), stored.resource)
  have hentry : ∀ entry ∈ entries, ∃ stored ∈ application.resourceSet.values,
      entry = ((stored.id : Int), stored.resource) ∧ stored.resource ∈ accepted.resources := by
    intro entry hentry
    obtain ⟨stored, hstored, rfl⟩ := List.mem_map.mp hentry
    obtain ⟨i, -, hi⟩ := (hrecords stored).mp hstored
    exact ⟨stored, hstored, rfl, (hmem stored.resource).mp (List.mem_of_getElem? hi)⟩
  have hsame : ∀ a ∈ application.resourceSet.values, ∀ b ∈ application.resourceSet.values,
      a.resource = b.resource → a = b := by
    intro a ha b hb heq
    obtain ⟨i, hida, hi⟩ := (hrecords a).mp ha
    obtain ⟨j, hidb, hj⟩ := (hrecords b).mp hb
    have hij : i = j := by
      obtain ⟨hlt, -⟩ := List.getElem?_eq_some_iff.mp hi
      exact (List.getElem?_inj hlt hnodup).mp (by rw [hi, hj, heq])
    exact Keyed.eq_of_key_eq ha hb (by rw [hida, hidb, hij])
  have hdistinct : Distinct entries := by
    refine ⟨fun a ha b hb htype hname => ?_, fun a ha b hb hid => ?_, fun a ha htype => ?_⟩
    · obtain ⟨sa, hsa, rfl, hra⟩ := hentry a ha
      obtain ⟨sb, hsb, rfl, hrb⟩ := hentry b hb
      rw [hsame sa hsa sb hsb (accepted.eq_of_name hra hrb htype hname)]
    · obtain ⟨sa, hsa, rfl, -⟩ := hentry a ha
      obtain ⟨sb, hsb, rfl, -⟩ := hentry b hb
      rw [Keyed.eq_of_key_eq hsa hsb (Int.ofNat_inj.mp hid)]
    · obtain ⟨stored, -, rfl, hresource⟩ := hentry a ha
      exact (accepted.named hresource).beansXml htype
  obtain ⟨holder, hcreate, hstorage, hids⟩ := hl.create_eq hdistinct fun resource => by
    rw [← hmem resource]
    constructor
    · rintro ⟨entry, hmem', rfl⟩
      obtain ⟨stored, hstored, rfl⟩ := List.mem_map.mp hmem'
      obtain ⟨i, -, hi⟩ := (hrecords stored).mp hstored
      exact List.mem_of_getElem? hi
    · intro hresource
      obtain ⟨i, hi⟩ := List.mem_iff_getElem?.mp hresource
      exact ⟨_, List.mem_map_of_mem ((hrecords ⟨start + i, resource⟩).mpr ⟨i, rfl, hi⟩), rfl⟩
  have hget : getResources context application = some holder := by
    rw [getResources, hfileBased]
    exact hcreate
  refine ⟨holder, ⟨hget, hstorage⟩, fun stored hstored => ?_⟩
  have hid : holder.idMap stored.id = some stored.resource := hids _ (List.mem_map_of_mem hstored)
  refine ⟨hid, _, by rw [deleteResource, hget, Option.bind_some, hid, Option.map_some], fun other => ?_⟩
  simp only [hfileBased, Bool.false_eq_true, if_false, Keyed.mem_filter, decide_eq_true_eq]
  refine and_congr_right fun hother => not_congr ?_
  exact ⟨fun heq => Keyed.eq_of_key_eq hother hstored (Int.ofNat_inj.mp heq), fun heq => by rw [heq]⟩

/-- The resources are written to an empty folder, in any order. -/
theorem Loadable.written (application : Application B) {resources : List (Resource B)}
    (hempty : application.files.values = [])
    (hmem : ∀ resource, resource ∈ resources ↔ resource ∈ accepted.resources) :
    ∃ files, writeFileBasedApplicationResources context application resources =
        some { application with files } ∧
      ∀ file, file ∈ files.values ↔
        ∃ resource ∈ accepted.resources, fileOf context.applicationFolder resource = file := by
  have hinj : ∀ a ∈ resources, ∀ b ∈ resources, outputFile context.applicationFolder a <+:
      outputFile context.applicationFolder b → a = b :=
    fun a ha b hb hpre => hl.eq_of_prefix ((hmem a).mp ha) ((hmem b).mp hb) hpre
  obtain ⟨files, hfiles⟩ : ∃ files, foldUntil (write context.applicationFolder) application.files
      resources = (files, none) :=
    writeAll_total (fun a ha b hb hpre => by rw [hinj a ha b hb hpre]) (fun _ h => h)
      (by simp [hempty])
  refine ⟨files, by rw [writeFileBasedApplicationResources, hfiles], fun file => ?_⟩
  have hput : files =
      (resources.map (fileOf context.applicationFolder)).foldl Keyed.put .empty := by
    rw [writeAll_ok hfiles, Keyed.eq_empty hempty]
  have hvalues : file ∈ files.values ↔
      file ∈ resources.map (fileOf context.applicationFolder) := by
    have hget : files.get file.path = some file ↔
        file ∈ resources.map (fileOf context.applicationFolder) ∧ file.path = file.path := by
      rw [hput]
      refine Keyed.get_foldl_put_empty fun v hv w hw hpath => ?_
      obtain ⟨a, ha, rfl⟩ := List.mem_map.mp hv
      obtain ⟨b, hb, rfl⟩ := List.mem_map.mp hw
      have hpath : outputFile context.applicationFolder a = outputFile context.applicationFolder b :=
        hpath
      rw [hinj a ha b hb (hpath ▸ List.prefix_refl _)]
    rw [Keyed.get_eq_some] at hget
    simpa using hget
  rw [hvalues, List.mem_map]
  simp only [hmem]

theorem Loadable.roundTrip : RoundTrip context accepted.resources := by
  obtain ⟨files, hinstall, hfiles⟩ := hl.written ⟨true, .empty, .empty, 0⟩ rfl fun _ => Iff.rfl
  let installed : Application B := ⟨true, files, .empty, 0⟩
  obtain ⟨holder, hhas, haddressed⟩ := hl.files_loaded installed rfl hfiles
  -- the resources of the holder, in the order in which they are saved
  let resources := context.iterate holder.storage.values
  have hmem : ∀ resource, resource ∈ resources ↔ resource ∈ accepted.resources :=
    fun resource => (context.iterate_perm _).mem_iff.trans (hhas.same resource)
  have hnodup : resources.Nodup :=
    (context.iterate_perm _).nodup_iff.mpr (List.Nodup.of_map _ holder.storage.nodup)
  let saved := resources.foldl save installed
  obtain ⟨hsavedFiles, hsavedBased, -, hrecords⟩ := foldl_save installed resources rfl
  let stored : Application B := { deleteApplicationResources context saved with fileBased := false }
  have hstored : updateApplication context installed false = some stored := by
    rw [updateApplication, synchronizeApplicationResources, hhas.loaded]
    rfl
  have hset : stored.resourceSet = saved.resourceSet := by
    simp only [stored, deleteApplicationResources]
    rw [if_pos hsavedBased]
  obtain ⟨holder', hhas', haddressed'⟩ := hl.records_loaded stored 0 rfl hnodup hmem
    (by rw [hset]; exact hrecords)
  refine ⟨installed, holder, hinstall, hhas, haddressed, stored, holder', hstored, hhas',
    haddressed', ?_⟩
  have hempty : stored.files.values = [] := by
    have hdeleted : stored.files = saved.files.filter fun file =>
        ¬ context.applicationFolder <+: file.path := by
      simp only [stored, deleteApplicationResources]
      rw [if_pos hsavedBased]
    rw [hdeleted, hsavedFiles]
    refine List.filter_eq_nil_iff.mpr fun file hfile => ?_
    obtain ⟨resource, hresource, rfl⟩ := (hfiles file).mp hfile
    have hbelow : context.applicationFolder <+: outputFile context.applicationFolder resource := by
      rw [hl.outputFile_eq hresource]
      exact List.prefix_append _ _
    simp [fileOf, hbelow]
  obtain ⟨files', hwritten, hfiles'⟩ := hl.written stored hempty fun resource =>
    ((context.iterate_perm holder'.storage.values).mem_iff).trans (hhas'.same resource)
  let back : Application B := ⟨true, files', .empty, stored.nextId⟩
  obtain ⟨holder'', hhas'', -⟩ := hl.files_loaded back rfl hfiles'
  refine ⟨back, holder'', ?_, hhas''⟩
  rw [updateApplication, synchronizeApplicationResources, hhas'.loaded, Option.bind_some, hwritten]
  rfl

end Conversion

section Necessary

variable {installed : Application B}

theorem install_eq_some {resources : List (Resource B)}
    (h : install context resources = some installed) :
    installed = ⟨true, installed.files, .empty, 0⟩ ∧
      installed.files =
        (resources.map (fileOf context.applicationFolder)).foldl Keyed.put .empty ∧
      PrefixFree installed.files := by
  unfold install writeFileBasedApplicationResources at h
  have hprefixFree : PrefixFree
      (foldUntil (write context.applicationFolder) (.empty : Files B) resources).1 :=
    prefixFree_writeAll
  split at h
  · rename_i files hwrite
    cases h
    rw [hwrite] at hprefixFree
    exact ⟨rfl, writeAll_ok hwrite, hprefixFree⟩
  · cases h

/-- Where a resource of the holder was read: under a path of which nothing is lost. -/
theorem read_from (hfiles : application.files =
      (accepted.resources.map (fileOf context.applicationFolder)).foldl Keyed.put .empty)
    (hclean : ∀ resource ∈ accepted.resources,
      '\\' ∉ resource.name.toList ∧ .up ∉ segments false resource.name)
    (hresource : resource ∈ accepted.resources) {type : ResourceType} {file : File B}
    (hfile : file ∈ application.files.values)
    (hload : loadFile context type file = some (some resource)) :
    Plain resource.name ∧ listed resource.type (parts resource.name) = true ∧
      context.utils.normalize resource.name = some resource.name := by
  obtain ⟨names, hpath, hne, hlisted, hnormalize, rfl, -⟩ := loadFile_eq_some.mp hload
  rw [hfiles] at hfile
  obtain ⟨other, hother, rfl⟩ := List.mem_map.mp (Keyed.mem_of_mem_foldl_put_empty hfile)
  have hwritten : (fileOf context.applicationFolder other).path =
      context.applicationFolder ++ (other.type.root ++ parts other.name) :=
    outputFile_eq (hclean other hother).2
  rw [hwritten, List.append_cancel_left_eq] at hpath
  obtain ⟨-, rfl⟩ :=
    touched_unique (accepted.named hother) hpath.symm rfl (touched_of_listed hlisted)
  have hnames : ∀ a ∈ parts other.name, IsName a := fun a ha => isName_of_mem_parts ha
  have hslash : '\\' ∉ (join (parts other.name)).toList := by
    intro hmem
    rcases mem_join_parts hmem with hmem | hmem
    · cases hmem
    · exact (hclean other hother).1 hmem
  have hname : resource.name = join (parts other.name) :=
    (context.utils.keeps (plain_join hne hnames) hslash hnormalize).resolve_right
      (accepted.named hresource).noDirectory
  rw [hname] at hnormalize ⊢
  rw [parts_join hne hnames]
  exact ⟨plain_join hne hnames, hlisted, hnormalize⟩

theorem loadable_of_roundTrip (h : RoundTrip context accepted.resources) :
    Loadable context accepted.resources := by
  obtain ⟨installed, holder, hinstall, hhas, haddressed, -⟩ := h
  obtain ⟨hinstalled, hfiles, hprefixFree⟩ := install_eq_some hinstall
  have hfileBased : installed.fileBased = true := congrArg Application.fileBased hinstalled
  have hloaded := hhas.loaded
  rw [getResources, if_pos hfileBased] at hloaded
  obtain ⟨loaded, hcollect, hcreate⟩ := Option.bind_eq_some_iff.mp hloaded
  obtain ⟨hholder, applicationResource, happlication, htype, -, hunmarshalls⟩ :=
    create_eq_some.mp hcreate
  have hclean : ∀ resource ∈ accepted.resources,
      '\\' ∉ resource.name.toList ∧ .up ∉ segments false resource.name := by
    intro resource hresource
    exact clean_of_loaded hfileBased hhas.loaded ((hhas.same resource).mpr hresource)
  have hnames : ∀ resource ∈ accepted.resources, Plain resource.name ∧
      listed resource.type (parts resource.name) = true ∧
        context.utils.normalize resource.name = some resource.name := by
    intro resource hresource
    obtain ⟨type, file, hfile, hload⟩ :=
      exists_loadFile hfileBased hhas.loaded ((hhas.same resource).mpr hresource)
    exact read_from hfiles hclean hresource hfile hload
  refine ⟨⟨applicationResource, (hhas.same _).mp happlication, htype, hunmarshalls⟩,
    fun resource hresource => (hnames resource hresource).1,
    fun resource hresource => (hnames resource hresource).2.2,
    fun resource hresource => (hnames resource hresource).2.1,
    fun a ha b hb htype hpre => ?_, fun a ha b hb hid => ?_⟩
  · have hpath : ∀ resource ∈ accepted.resources, ∃ file ∈ installed.files.values,
        file.path = context.applicationFolder ++ (resource.type.root ++ parts resource.name) := by
      intro resource hresource
      rw [hfiles, ← outputFile_eq (hclean resource hresource).2]
      exact Keyed.exists_mem_foldl_put (List.mem_map_of_mem hresource)
    obtain ⟨fileA, hfileA, hpathA⟩ := hpath a ha
    obtain ⟨fileB, hfileB, hpathB⟩ := hpath b hb
    have hpre : fileA.path <+: fileB.path := by
      rw [hpathA, hpathB, htype]
      simpa [List.prefix_append_right_inj] using hpre
    have hsame := hprefixFree fileA hfileA fileB hfileB hpre
    rw [hpathA, hpathB, htype, List.append_cancel_left_eq, List.append_cancel_left_eq] at hsame
    refine accepted.eq_of_name ha hb htype ?_
    rw [← (hnames a ha).1.join_parts, ← (hnames b hb).1.join_parts, hsame]
  · have ha' := (haddressed a ((hhas.same a).mpr ha)).1
    rw [hid, (haddressed b ((hhas.same b).mpr hb)).1] at ha'
    exact (Option.some.inj ha').symm

end Necessary

end Loads

/-- The resources of an archive survive if and only if their names are as the holder reads them. -/
theorem roundTrip_iff (context : Context B) (accepted : Accepted B) :
    RoundTrip context accepted.resources ↔ Loadable context accepted.resources :=
  ⟨loadable_of_roundTrip, Loadable.roundTrip⟩

section Example

/-- As the real one for paths with nothing to remove. -/
def plainUtils : FilenameUtils where
  normalize path :=
    if path.toList.contains '\\' || (segments false path).contains .up then none else some path
  clean h := by
    split at h
    · cases h
    · rename_i hclean
      cases h
      simpa using hclean
  keeps _ _ h := by
    split at h
    · cases h
    · exact .inl (Option.some.inj h).symm

def demoContext : Context Nat where
  utils := plainUtils
  unmarshalls _ := true
  applicationFolder := ["applications", "demo"]
  iterate := id
  iterate_perm _ := List.Perm.refl _

/-- A page with an extension in upper case. -/
def upperCase : Accepted Nat where
  archive := [⟨"application.xml", 0⟩, ⟨"conf/Page.XML", 1⟩]
  resources := [⟨.application, "application.xml", 0⟩, ⟨.xml, "Page.XML", 1⟩]
  accepted := by rfl
  distinct := by decide +kernel

/-- A page and a resource of the same name. -/
def sameName : Accepted Nat where
  archive := [⟨"application.xml", 0⟩, ⟨"conf/page.xml", 1⟩, ⟨"resources/page.xml", 2⟩]
  resources := [⟨.application, "application.xml", 0⟩, ⟨.xml, "page.xml", 1⟩,
    ⟨.resource, "page.xml", 2⟩]
  accepted := by rfl
  distinct := by decide +kernel

/-- The page is not found again, and the two files are mistaken for one another. -/
theorem pages_lost : ¬ RoundTrip demoContext upperCase.resources ∧
    ¬ RoundTrip demoContext sameName.resources := by
  constructor
  · intro h
    have hlisted := (loadable_of_roundTrip h).listed ⟨.xml, "Page.XML", 1⟩ (by simp [upperCase])
    exact absurd hlisted (by decide +kernel)
  · intro h
    have hsame := (loadable_of_roundTrip h).ids ⟨.xml, "page.xml", 1⟩ (by simp [sameName])
      ⟨.resource, "page.xml", 2⟩ (by simp [sameName]) rfl
    cases hsame

end Example

end Resources
end Packages
end AppNG
