import AppNG.Lib.Loop
import AppNG.Repository.PackageArchive
import Mathlib.Logic.Function.Basic

/-!
# Repository.CacheFilesystem

`RepositoryCacheFilesystem`, with what it inherits from `RepositoryCacheBase`, and
`RepositoryUtils.getPackage`: the cache of a repository whose packages are files of a directory.

A file of the directory stands for itself by its name.
-/

namespace AppNG
namespace Repository

open Loop

variable {V : Type} [Ord V] {B : Type}

/-! ## The repository and its cache -/

inductive RepositoryMode where
  | all
  | stable
  | snapshot
  deriving DecidableEq, Repr

structure RepositoryImpl where
  repositoryMode : RepositoryMode
  strict : Bool
  absolutePath : String → String

/-- The files of the directory, in the order in which it lists them. -/
abbrev Directory (B : Type) := Keyed (File.name (B := B))

abbrev FileMap := Keyed (Prod.fst : String × PackageInfo → String)

structure Cache where
  applicationWrapperMap : String → Option PackageWrapper
  activeFileMap : FileMap
  invalidFileMap : List String
  lastScan : Option Int

namespace Cache

/-- The cache that `init` starts from. -/
def empty : Cache where
  applicationWrapperMap _ := none
  activeFileMap := .empty
  invalidFileMap := []
  lastScan := none

/-- The cache holds this package under this name. -/
def Held (s : Cache) (name : String) (p : PackageInfo) : Prop :=
  ∃ w, s.applicationWrapperMap name = some w ∧ p ∈ w.versions.values

def setWrapper (s : Cache) (name : String) (w : Option PackageWrapper) : Cache :=
  { s with applicationWrapperMap := Function.update s.applicationWrapperMap name w }

@[simp] theorem setWrapper_map (s : Cache) (name : String) (w : Option PackageWrapper) :
    (s.setWrapper name w).applicationWrapperMap =
      Function.update s.applicationWrapperMap name w := rfl

@[simp] theorem setWrapper_activeFileMap (s : Cache) (name : String) (w : Option PackageWrapper) :
    (s.setWrapper name w).activeFileMap = s.activeFileMap := rfl

@[simp] theorem setWrapper_invalidFileMap (s : Cache) (name : String) (w : Option PackageWrapper) :
    (s.setWrapper name w).invalidFileMap = s.invalidFileMap := rfl

theorem held_setWrapper {s : Cache} {name n : String} {w : Option PackageWrapper}
    {q : PackageInfo} : (s.setWrapper name w).Held n q ↔
      (n = name ∧ ∃ w', w = some w' ∧ q ∈ w'.versions.values) ∨ n ≠ name ∧ s.Held n q := by
  unfold Held
  rw [setWrapper_map]
  by_cases hn : n = name
  · subst hn
    simp
  · simp [hn]

def addPackage (s : Cache) (packageInfo : PackageInfo) (type : Option PackageType) : Cache :=
  let name := packageInfo.name
  match s.applicationWrapperMap name with
  | some w => s.setWrapper name (some (w.addPackage packageInfo))
  | none => s.setWrapper name (some ((PackageWrapper.create type).addPackage packageInfo))

theorem addPackage_eq (s : Cache) (p : PackageInfo) (type : Option PackageType) :
    s.addPackage p type = s.setWrapper p.name
      (some (((s.applicationWrapperMap p.name).getD (.create type)).addPackage p)) := by
  unfold addPackage
  cases hw : s.applicationWrapperMap p.name <;> simp only [hw] <;> rfl

/-- Every wrapper holds a version. -/
def NoneEmpty (s : Cache) : Prop :=
  ∀ name w, s.applicationWrapperMap name = some w → w.versions.values ≠ []

theorem NoneEmpty.addPackage {s : Cache} (h : s.NoneEmpty) (p : PackageInfo)
    (type : Option PackageType) : (s.addPackage p type).NoneEmpty := by
  intro name w hw
  rw [addPackage_eq, setWrapper_map] at hw
  by_cases hname : name = p.name
  · rw [hname, Function.update_self] at hw
    obtain rfl := Option.some.inj hw
    exact List.ne_nil_of_mem (Keyed.mem_put.mpr (.inl rfl))
  · rw [Function.update_of_ne hname] at hw
    exact h name w hw

section Wrappers

variable (P : Parsers V) (o : IterationOrder)

def initializeWrapper (s : Cache) (packageName : String) : Cache × Option Failure :=
  match s.applicationWrapperMap packageName with
  | none => (s, none)
  | some w =>
    match w.init P o with
    | .ok w => (s.setWrapper packageName (some w), none)
    | .error e => (s, some e)

theorem NoneEmpty.initializeWrapper {s : Cache} (h : s.NoneEmpty) (packageName : String) :
    (s.initializeWrapper P o packageName).2 = none := by
  unfold Cache.initializeWrapper
  cases hw : s.applicationWrapperMap packageName with
  | none => rfl
  | some w =>
    obtain ⟨w', hw'⟩ := PackageWrapper.init_ok (h packageName w hw) (P := P) (o := o)
    simp only [hw']

def removePackage (s : Cache) (packageName : String)
    (packageVersion packageTimestamp : Option String) (initWrapper : Bool) :
    Cache × Option Failure :=
  match s.applicationWrapperMap packageName with
  | none => (s, none)
  | some wrapper =>
    match wrapper.removePackageVersion packageVersion packageTimestamp with
    | .error e => (s, some e)
    | .ok wrapper =>
      if wrapper.versions.values.isEmpty then (s.setWrapper packageName none, none)
      else if initWrapper then
        initializeWrapper P o (s.setWrapper packageName (some wrapper)) packageName
      else (s.setWrapper packageName (some wrapper), none)

/-! ## Adding archives -/

/-- The first part of `addArchive`, up to the initialisation of the wrapper. -/
def storeArchive (s : Cache) (fileMap : FileMap) (file : File B) (archive : PackageArchive B) :
    (Cache × FileMap) × Bool :=
  match archive.isValid, archive.packageInfo with
  | true, some packageInfo =>
    if (fileMap.get file.name).isSome then ((s, fileMap), false)
    else ((s.addPackage packageInfo archive.type, fileMap.put (file.name, packageInfo)), true)
  | _, _ =>
    (({ s with invalidFileMap := s.invalidFileMap.insert file.name }, fileMap.erase file.name),
      false)

/-- `addArchive` with the map of files that it writes to; it says whether the archive was added. -/
def addArchive (s : Cache) (fileMap : FileMap) (archive : PackageArchive B) (init : Bool) :
    (Cache × FileMap) × Except Failure Bool :=
  match archive.file with
  | none => ((s, fileMap), .error .nullPointerException)
  | some file =>
    match storeArchive s fileMap file archive with
    | ((s, fileMap), added) =>
      if init then
        match archive.packageInfo with
        | none => ((s, fileMap), .error .nullPointerException)
        | some packageInfo =>
          match initializeWrapper P o s packageInfo.name with
          | (s, none) => ((s, fileMap), .ok added)
          | (s, some e) => ((s, fileMap), .error e)
      else ((s, fileMap), .ok added)

def add (s : Cache) (archive : PackageArchive B) : Cache × Except Failure Bool :=
  match addArchive P o s s.activeFileMap archive true with
  | ((s, fileMap), result) => ({ s with activeFileMap := fileMap }, result)

end Wrappers

/-! ## Scanning the directory -/

section Update

variable (m : Marshallers B) (repository : RepositoryImpl)

def isValidFile (s : Cache) (name : String) : Bool := !s.invalidFileMap.contains name

/-- The mode of the repository, by the name of the file. -/
def matchesMode (name : String) : Bool :=
  match repository.repositoryMode with
  | .all => true
  | .snapshot => isSnapshot name
  | .stable => !isSnapshot name

def isZip (name : String) : Bool := decide (".zip".toList <:+ name.toList)

def createAll : List (File B) → Except Failure (List (PackageArchive B))
  | [] => .ok []
  | file :: files =>
    match PackageArchive.create m file repository.strict with
    | .error e => .error e
    | .ok archive =>
      match createAll files with
      | .error e => .error e
      | .ok archives => .ok (archive :: archives)

/-- `getArchives(null)`. -/
def getArchives (s : Cache) (directory : Directory B) :
    Except Failure (List (PackageArchive B)) :=
  createAll m repository (directory.values.filter fun file =>
    isZip file.name && matchesMode repository file.name && s.isValidFile file.name)

/-- What a scan has come to. -/
structure Scan where
  cache : Cache
  newFileMap : FileMap
  updatedPackages : List String

variable (P : Parsers V) (o : IterationOrder)

/-- The body of the loop over the archives. -/
def visitArchive (scan : Scan) (archive : PackageArchive B) : Scan × Option Failure :=
  match archive.file with
  | none => (scan, some .nullPointerException)
  | some file =>
    match scan.cache.activeFileMap.get file.name with
    | some (_, applicationInfo) =>
      ({ scan with newFileMap := scan.newFileMap.put (file.name, applicationInfo) }, none)
    | none =>
      match addArchive P o scan.cache scan.newFileMap archive false with
      | ((cache, newFileMap), .error e) => ({ scan with cache, newFileMap }, some e)
      | ((cache, newFileMap), .ok false) => ({ scan with cache, newFileMap }, none)
      | ((cache, newFileMap), .ok true) =>
        match archive.packageInfo with
        | none => ({ scan with cache, newFileMap }, some .nullPointerException)
        | some packageInfo =>
          ({ cache := cache.addPackage packageInfo archive.type
             newFileMap
             updatedPackages := scan.updatedPackages.insert packageInfo.name }, none)

/-- `oldFiles` after `oldFiles.removeAll(activeFileMap.keySet())`. -/
def oldFiles (activeFileMap : FileMap) : List String :=
  let oldFiles := activeFileMap.values.map Prod.fst
  oldFiles.filter fun file => !(activeFileMap.values.map Prod.fst).contains file

/-- The loop over the old files; an exception is logged. -/
def removeFiles (activeFileMap : FileMap) (s : Cache) (files : List String) : Cache :=
  files.foldl (fun s file =>
    match activeFileMap.get file with
    | none => s
    | some (_, applicationInfo) =>
      (removePackage P o s applicationInfo.name (some applicationInfo.version)
        (some applicationInfo.timestamp) false).1) s

def scanPeriod : Int := 10000

def isDue (s : Cache) (currentTime : Int) : Bool :=
  match s.lastScan with
  | none => true
  | some lastScan => decide (currentTime - lastScan ≥ scanPeriod)

/-- `update` on a directory, from `currentTime` to `finished`. -/
def update (directory : Directory B) (currentTime finished : Int) (s : Cache) :
    Cache × Option Failure :=
  if s.isDue currentTime then
    match getArchives m repository s directory with
    | .error e => (s, some e)
    | .ok archives =>
      match foldUntil (visitArchive P o) ⟨s, .empty, []⟩ archives with
      | (scan, some e) => (scan.cache, some e)
      | (scan, none) =>
        let cache := removeFiles P o s.activeFileMap scan.cache (oldFiles s.activeFileMap)
        match foldUntil (initializeWrapper P o) cache scan.updatedPackages with
        | (cache, some e) => (cache, some e)
        | (cache, none) =>
          ({ cache with activeFileMap := scan.newFileMap, lastScan := some finished }, none)
  else (s, none)

end Update

/-! ## Deleting a version -/

section Delete

def getPackageVersionSignature (packageName : String)
    (packageVersion packageTimestamp : Option String) : String :=
  packageName ++ ", Version: " ++ valueOf packageVersion ++ ", Timestamp: " ++
    valueOf packageTimestamp

def getPublishedApplication (s : Cache) (name : String) : Except Failure PackageWrapper :=
  match s.applicationWrapperMap name with
  | none => .error (.illegalArgumentException ("application not found: " ++ name))
  | some w => .ok w

def getRelease (s : Cache) (name version : String) : Except Failure (Option PackageInfo) :=
  match s.applicationWrapperMap name with
  | none => .error (.businessException ("application not found: " ++ name ++ " " ++ version))
  | some w => .ok (w.getVersion version none)

/-- The package that `getPackageFile` looks for the file of. -/
def findPackage (s : Cache) (packageName : String)
    (packageVersion packageTimestamp : Option String) : Except Failure (Option PackageInfo) :=
  match packageVersion with
  | none => (s.getPublishedApplication packageName).map (·.latestSnapshot)
  | some version =>
    if Java.isBlank packageVersion then
      (s.getPublishedApplication packageName).map (·.latestSnapshot)
    else if isSnapshot version then
      if Java.isBlank packageTimestamp then
        (s.getPublishedApplication packageName).map (·.getSnapshot version)
      else (s.getPublishedApplication packageName).map (·.getVersion version packageTimestamp)
    else s.getRelease packageName version

variable (repository : RepositoryImpl) (directory : Directory B)

def getFile (p : PackageInfo) : Except Failure String :=
  let file := p.name ++ "-" ++ p.version ++ "-" ++ p.timestamp ++ ".zip"
  let shortFile := p.name ++ "-" ++ p.version ++ ".zip"
  if (directory.get file).isSome then .ok file
  else if repository.strict then
    .error (.fileNotFoundException ("File not found: " ++ repository.absolutePath file))
  else if (directory.get shortFile).isSome then .ok shortFile
  else .error (.fileNotFoundException ("File not found: " ++ repository.absolutePath shortFile))

def getPackageFile (s : Cache) (packageName : String)
    (packageVersion packageTimestamp : Option String) : Except Failure String :=
  match findPackage s packageName packageVersion packageTimestamp with
  | .error e => .error e
  | .ok none => .error (.fileNotFoundException ("application not found: " ++
      getPackageVersionSignature packageName packageVersion packageTimestamp))
  | .ok (some packageInfo) => getFile repository directory packageInfo

/-- `deletePackageVersion`; `deletes` says whether the file system lets the file be deleted. -/
def deletePackageVersion (P : Parsers V) (o : IterationOrder) (deletes : Bool) (s : Cache)
    (packageName : String) (packageVersion packageTimestamp : Option String) :
    (Directory B × Cache) × Option Failure :=
  match getPackageFile repository directory s packageName packageVersion packageTimestamp with
  | .error (.fileNotFoundException message) =>
    ((directory, s), some (.businessException ("java.io.FileNotFoundException: " ++ message)))
  | .error e => ((directory, s), some e)
  | .ok packageFile =>
    if deletes then
      match removePackage P o s packageName packageVersion packageTimestamp true with
      | (s, result) => ((directory.erase packageFile, s), result)
    else
      ((directory, s), some (.businessException ("Unable to delete package: " ++
        getPackageVersionSignature packageName packageVersion packageTimestamp ++ ", file: " ++
        repository.absolutePath packageFile)))

end Delete

end Cache

/-! ## `RepositoryUtils.getPackage` -/

/-- What `getPackage` makes of the archive. -/
def PackageArchive.forMode (repositoryMode : RepositoryMode) (packageArchive : PackageArchive B) :
    Except Failure (Option (PackageArchive B)) :=
  if packageArchive.isValid then
    match packageArchive.packageInfo with
    | none => .error .nullPointerException
    | some packageInfo =>
      let isvalid :=
        match repositoryMode with
        | .snapshot => isSnapshot packageInfo.version
        | .stable => !isSnapshot packageInfo.version
        | .all => true
      .ok (if isvalid then some packageArchive else none)
  else .ok none

def getPackage (m : Marshallers B) (repository : RepositoryImpl) (file : File B)
    (archiveName : String) : Except Failure (Option (PackageArchive B)) :=
  match PackageArchive.createNamed m file archiveName with
  | .error e => .error e
  | .ok packageArchive => packageArchive.forMode repository.repositoryMode

end Repository
end AppNG
