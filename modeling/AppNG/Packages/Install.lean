import AppNG.Lib.Disk
import AppNG.Lib.JavaString
import AppNG.Lib.Loop

/-!
# Packages.Install

The files that are written when a zip archive is installed: as a file-based application, by
`ApplicationArchiveProcessor` and `CoreService.writeFileBasedApplicationResources`, and as a
template, by `TemplateService.getTemplateExtractor` and `materializeTemplate`.

A file is opened by its path as it is put together, with every `..` in it, after the directory for it
was made. `mem_process` and `extract_eq_some` say which entries become files at all.

On Windows a backslash separates the segments of a path, and the extension of a name with a colon is
an `IllegalArgumentException`; elsewhere both are characters as any other.
-/

namespace AppNG
namespace Packages

open FilePath Loop

/-! ## Names -/

/-- `FilenameUtils.getExtension`, on every platform with both separators. -/
def getExtension (windows : Platform) (fileName : String) : Option String :=
  let name := fileName.toList.rtakeWhile fun c => !(c == '/' || c == '\\')
  if windows && name.contains ':' then none
  else if name.contains '.' then some (String.ofList (name.rtakeWhile (· != '.')))
  else some ""

/-- `path.substring(path.indexOf('/') + 1)`. -/
def afterSlash (path : String) : String :=
  if path.toList.contains '/' then String.ofList (path.toList.dropWhile (· != '/')).tail else path

/-! ## The archive -/

structure ZipArchiveEntry (B : Type) where
  name : String
  bytes : B
  deriving DecidableEq, Repr

variable {B T : Type}

def ZipArchiveEntry.isDirectory (entry : ZipArchiveEntry B) : Bool :=
  entry.name.toList.getLast? == some '/'

def fileEntries (archive : List (ZipArchiveEntry B)) : List (ZipArchiveEntry B) :=
  archive.filter (!·.isDirectory)

inductive ResourceType where
  | beansXml
  | jar
  | xml
  | xsl
  | sql
  | tpl
  | resource
  | asset
  | dictionary
  | application
  deriving DecidableEq, Repr

namespace ResourceType

def values : List ResourceType :=
  [beansXml, jar, xml, xsl, sql, tpl, resource, asset, dictionary, application]

def folder : ResourceType → String
  | beansXml => ""
  | jar => "lib"
  | xml => "conf"
  | xsl => "xsl"
  | sql => "sql"
  | tpl => "tpl"
  | resource => "resources"
  | asset => "assets"
  | dictionary => "dictionary"
  | application => ""

def allowedFileEndings : ResourceType → List String
  | beansXml => ["xml"]
  | jar => ["jar"]
  | xml => ["xml"]
  | xsl => ["xsl"]
  | sql => ["sql"]
  | tpl => []
  | resource => []
  | asset => []
  | dictionary => ["properties"]
  | application => ["xml"]

def isValidFileEnding (type : ResourceType) (fileEnding : List Char) : Bool :=
  type.allowedFileEndings.isEmpty || (type.allowedFileEndings.map String.toList).contains fileEnding

/-- `none` is the exception of `getExtension`. -/
def isValidFileName (windows : Platform) (type : ResourceType) (fileName : String) : Option Bool :=
  match type with
  | beansXml => some (fileName == "beans.xml")
  | application => some (fileName == "application.xml")
  | _ => (getExtension windows fileName).map fun extension =>
    type.isValidFileEnding (Java.toLowerCase extension)

end ResourceType

/-! ## Applications -/

structure Resource (B : Type) where
  type : ResourceType
  name : String
  bytes : B

/-- The loop over the types: the first one whose folder and file names fit. -/
def findType (windows : Platform) (dirName fileName : String) :
    List ResourceType → Option (Option ResourceType)
  | [] => some none
  | type :: types =>
    match type.isValidFileName windows fileName with
    | none => none
    | some validFileName =>
      if type.folder = dirName ∧ validFileName = true then some (some type)
      else findType windows dirName fileName types

/-- The resource that an entry becomes, if it becomes one. -/
def add (windows : Platform) (entry : ZipArchiveEntry B) : Option (Option (Resource B)) :=
  let path := entry.name
  if path = "beans.xml" then some (some ⟨.beansXml, "beans.xml", entry.bytes⟩)
  else if path = "application.xml" then some (some ⟨.application, "application.xml", entry.bytes⟩)
  else
    match Java.split '/' path with
    | dirName :: _ :: _ =>
      let fileName := afterSlash path
      (findType windows dirName fileName ResourceType.values).map fun type =>
        type.map fun type => ⟨type, fileName, entry.bytes⟩
    | _ => some none

def process (windows : Platform) : List (ZipArchiveEntry B) → Option (List (Resource B))
  | [] => some []
  | entry :: entries =>
    if entry.isDirectory then process windows entries
    else
      match add windows entry with
      | none => none
      | some resource => (process windows entries).map (resource.toList ++ ·)

def Resource.outputPath (windows : Platform) (resource : Resource B) : List (Segment String) :=
  segments windows (resource.type.folder ++ windows.separator ++ resource.name)

/-- The segments that a `File` keeps. -/
def childSegments (windows : Platform) (child : String) : List (Segment String) :=
  ((child.toList.splitOnP windows.isSeparator).filter (· ≠ [])).map readSegment

/-- `new File(dir, child)`. -/
def newFile (windows : Platform) (dir : List String) (child : String) : List (Segment String) :=
  dir.map .name ++ childSegments windows child

def Resource.outputFile (windows : Platform) (outputDir : List String) (resource : Resource B) :
    List (Segment String) :=
  newFile windows outputDir (resource.type.folder ++ windows.separator ++ resource.name)

/-- The disk, and the files written so far. -/
structure Output where
  disk : Disk String
  written : List (List String) := []

/-- The stream is opened and the bytes are copied. -/
def Output.copy (windows : Platform) (permissions : Permissions String) (output : Output)
    (file : List (Segment String)) : Output × Option Unit :=
  match output.disk.createFile permissions (systemPath windows file) with
  | some disk => ({ disk, written := output.written ++ [resolve [] file] }, none)
  | none => (output, some ())

def writeResource (windows : Platform) (permissions : Permissions String) (output : Output)
    (outputFile : List (Segment String)) : Output × Option Unit :=
  let (disk, made) :=
    output.disk.forceMkdir permissions (systemPath windows outputFile.dropLast)
  if made then { output with disk }.copy windows permissions outputFile
  else ({ output with disk }, some ())

def writeFileBasedApplicationResources (windows : Platform) (permissions : Permissions String)
    (output : Output) (resources : List (Resource B)) (outputDir : List String) :
    Output × Option Unit :=
  foldUntil (writeResource windows permissions) output
    (resources.map (·.outputFile windows outputDir))

/-- `updateApplicationFromArchive`, for a valid archive and a file-based application. -/
def installApplication (windows : Platform) (permissions : Permissions String)
    (disk : Disk String) (outputDir : List String) (archive : List (ZipArchiveEntry B)) : Output :=
  let output : Output := { disk := disk.delete outputDir }
  match process windows archive with
  | none => output
  | some resources =>
    (writeFileBasedApplicationResources windows permissions output resources outputDir).1

/-! ## Templates -/

structure TemplateResource (B : Type) where
  name : String
  bytes : B

structure Template (T B : Type) where
  templateXml : T
  resources : List (TemplateResource B)

/-- The loop of the extractor, with the last `template.xml` so far. -/
def extract (unmarshall : B → Option T) (templateXml : Option T) :
    List (ZipArchiveEntry B) → Option (Option T × List (TemplateResource B))
  | [] => some (templateXml, [])
  | entry :: entries =>
    let path := afterSlash entry.name
    if entry.isDirectory then extract unmarshall templateXml entries
    else if path = "template.xml" then
      match unmarshall entry.bytes with
      | none => none
      | some templateXml =>
        (extract unmarshall (some templateXml) entries).map fun (xml, resources) =>
          (xml, ⟨path, entry.bytes⟩ :: resources)
    else
      (extract unmarshall templateXml entries).map fun (xml, resources) =>
        (xml, ⟨path, entry.bytes⟩ :: resources)

/-- Without a `template.xml` the constructor of the template throws. -/
def getTemplateExtractor (unmarshall : B → Option T) (archive : List (ZipArchiveEntry B)) :
    Option (Template T B) :=
  match extract unmarshall none archive with
  | some (some templateXml, resources) => some { templateXml, resources }
  | _ => none

def TemplateResource.targetFile (windows : Platform) (templateTargetDir : List String)
    (resource : TemplateResource B) : List (Segment String) :=
  newFile windows templateTargetDir resource.name

/-- A directory that can not be made is not noticed, and a file that can not be written is skipped. -/
def materializeFile (windows : Platform) (permissions : Permissions String) (output : Output)
    (targetFile : List (Segment String)) : Output :=
  let disk := (output.disk.mkdirs permissions (systemPath windows targetFile.dropLast)).1
  ({ output with disk }.copy windows permissions targetFile).1

def materializeTemplate (windows : Platform) (permissions : Permissions String)
    (disk : Disk String) (templateTargetDir : List String) (template : Template T B) : Output :=
  (template.resources.map (·.targetFile windows templateTargetDir)).foldl
    (materializeFile windows permissions) { disk := disk.delete templateTargetDir }

def installTemplate (windows : Platform) (permissions : Permissions String)
    (unmarshall : B → Option T) (disk : Disk String) (templateTargetDir : List String)
    (archive : List (ZipArchiveEntry B)) : Output :=
  match getTemplateExtractor unmarshall archive with
  | none => { disk }
  | some template => materializeTemplate windows permissions disk templateTargetDir template

/-! ## What is taken over -/

section Taken

variable {windows : Platform} {archive : List (ZipArchiveEntry B)} {entry : ZipArchiveEntry B}

theorem fileEntries_cons_dir (h : entry.isDirectory = true) :
    fileEntries (entry :: archive) = fileEntries archive :=
  List.filter_cons_of_neg (by simp [h])

theorem fileEntries_cons_file (h : ¬ entry.isDirectory = true) :
    fileEntries (entry :: archive) = entry :: fileEntries archive :=
  List.filter_cons_of_pos (by simpa using h)

theorem process_eq_none :
    process windows archive = none ↔ ∃ entry ∈ fileEntries archive, add windows entry = none := by
  induction archive with
  | nil => simp [process, fileEntries]
  | cons entry archive ih =>
    rw [process]
    split
    · rename_i hdir
      rw [fileEntries_cons_dir hdir, ih]
    · rename_i hfile
      rw [fileEntries_cons_file hfile]
      cases hadd : add windows entry with
      | none => simp [hadd]
      | some resource => simp [hadd, ih]

theorem mem_process {resource : Resource B} :
    ∀ {archive : List (ZipArchiveEntry B)} {resources : List (Resource B)},
      process windows archive = some resources →
        (resource ∈ resources ↔
          ∃ entry ∈ fileEntries archive, add windows entry = some (some resource)) := by
  intro archive
  induction archive with
  | nil =>
    intro resources h
    cases h
    simp [fileEntries]
  | cons entry archive ih =>
    intro resources h
    rw [process] at h
    split at h
    · rename_i hdir
      rw [fileEntries_cons_dir hdir]
      exact ih h
    · rename_i hfile
      rw [fileEntries_cons_file hfile]
      cases hadd : add windows entry with
      | none => rw [hadd] at h; cases h
      | some found =>
        rw [hadd] at h
        obtain ⟨rest, hrest, rfl⟩ := Option.map_eq_some_iff.mp h
        rw [List.mem_append, ih hrest, Option.mem_toList]
        simp [hadd]

variable {unmarshall : B → Option T}

theorem extract_eq_none :
    ∀ {archive : List (ZipArchiveEntry B)} {templateXml : Option T},
      extract unmarshall templateXml archive = none ↔
        ∃ entry ∈ fileEntries archive, afterSlash entry.name = "template.xml" ∧
          unmarshall entry.bytes = none := by
  intro archive
  induction archive with
  | nil => intro templateXml; simp [extract, fileEntries]
  | cons entry archive ih =>
    intro templateXml
    rw [extract]
    split
    · rename_i hdir
      rw [fileEntries_cons_dir hdir, ih]
    · rename_i hfile
      rw [fileEntries_cons_file hfile]
      split
      · rename_i hname
        cases hxml : unmarshall entry.bytes with
        | none => simp [hname, hxml]
        | some xml => simp [hxml, ih]
      · rename_i hname
        simp [hname, ih]

/-- The extractor takes over every file, and the last descriptor it comes across. -/
theorem extract_eq_some :
    ∀ {archive : List (ZipArchiveEntry B)} {templateXml xml : Option T}
      {resources : List (TemplateResource B)},
      extract unmarshall templateXml archive = some (xml, resources) →
        resources = (fileEntries archive).map (fun entry => ⟨afterSlash entry.name, entry.bytes⟩) ∧
          (xml.isSome = true ↔ templateXml.isSome = true ∨
            ∃ entry ∈ fileEntries archive, afterSlash entry.name = "template.xml") := by
  intro archive
  induction archive with
  | nil =>
    intro templateXml xml resources h
    cases h
    simp [fileEntries]
  | cons entry archive ih =>
    intro templateXml xml resources h
    rw [extract] at h
    split at h
    · rename_i hdir
      rw [fileEntries_cons_dir hdir]
      exact ih h
    · rename_i hfile
      rw [fileEntries_cons_file hfile]
      split at h
      · rename_i hname
        cases hxml : unmarshall entry.bytes with
        | none => rw [hxml] at h; cases h
        | some found =>
          rw [hxml] at h
          obtain ⟨⟨xml', rest⟩, hrest, heq⟩ := Option.map_eq_some_iff.mp h
          cases heq
          obtain ⟨hresources, hsome⟩ := ih hrest
          rw [hsome, hresources]
          simp [hname]
      · rename_i hname
        obtain ⟨⟨xml', rest⟩, hrest, heq⟩ := Option.map_eq_some_iff.mp h
        cases heq
        obtain ⟨hresources, hsome⟩ := ih hrest
        rw [hsome, hresources]
        simp [hname]

/-- A descriptor is found, and none that is found is broken. -/
def HasDescriptor (unmarshall : B → Option T) (archive : List (ZipArchiveEntry B)) : Prop :=
  (∃ entry ∈ fileEntries archive, afterSlash entry.name = "template.xml") ∧
    ∀ entry ∈ fileEntries archive, afterSlash entry.name = "template.xml" →
      unmarshall entry.bytes ≠ none

theorem getTemplateExtractor_none (h : ¬ HasDescriptor unmarshall archive) :
    getTemplateExtractor unmarshall archive = none := by
  unfold getTemplateExtractor
  split
  · rename_i xml resources hextract
    obtain ⟨-, hsome⟩ := extract_eq_some hextract
    have hfound : ∃ entry ∈ fileEntries archive, afterSlash entry.name = "template.xml" := by
      simpa using hsome
    refine absurd ⟨hfound, fun entry hentry hname hnone => ?_⟩ h
    have hbroken : extract unmarshall none archive = none :=
      extract_eq_none.mpr ⟨entry, hentry, hname, hnone⟩
    rw [hextract] at hbroken
    cases hbroken
  · rfl

theorem getTemplateExtractor_some (h : HasDescriptor unmarshall archive) :
    ∃ templateXml, getTemplateExtractor unmarshall archive =
      some ⟨templateXml,
        (fileEntries archive).map fun entry => ⟨afterSlash entry.name, entry.bytes⟩⟩ := by
  obtain ⟨hfound, hunbroken⟩ := h
  unfold getTemplateExtractor
  cases hextract : extract unmarshall none archive with
  | none =>
    obtain ⟨entry, hentry, hname, hnone⟩ := extract_eq_none.mp hextract
    exact absurd hnone (hunbroken entry hentry hname)
  | some result =>
    obtain ⟨xml, resources⟩ := result
    obtain ⟨rfl, hsome⟩ := extract_eq_some hextract
    obtain ⟨templateXml, rfl⟩ := Option.isSome_iff_exists.mp (hsome.mpr (.inr hfound))
    exact ⟨templateXml, rfl⟩

end Taken

end Packages
end AppNG
