import AppNG.Repository.PackageWrapper

/-!
# Repository.PackageArchive

`PackageArchiveImpl`: what is read from the file of a package, and whether the archive is valid.

An archive is first taken for an application, and for a template if it is none. `isValid` and
`packageInfo` are fields which both attempts write: `processZipFile` sets `isValid` when a processor
ends, however it ends, and a template's package info is set after that.
-/

namespace AppNG
namespace Repository

/-! ## Files -/

/-- An entry of a zip file; without content if reading it is an `IOException`. -/
structure ZipEntry (B : Type) where
  name : String
  content : Option B

/-- The entries as the central directory lists them, and in physical order. -/
structure ZipFile (B : Type) where
  entries : List (ZipEntry B)
  physicalOrder : List (ZipEntry B)
  perm : physicalOrder.Perm entries

inductive Content (B : Type) where
  /-- not a regular file -/
  | directory
  /-- a file that is no zip file -/
  | unreadable
  | zip (zipFile : ZipFile B)

structure File (B : Type) where
  name : String
  content : Content B

variable {B : Type}

def ZipFile.getEntry (zipFile : ZipFile B) (name : String) : Option (ZipEntry B) :=
  zipFile.entries.find? fun entry => entry.name = name

inductive TemplateType where
  | xsl
  | thymeleaf
  deriving DecidableEq, Repr

/-- What the root element of a document is unmarshalled to. -/
inductive Unmarshalled where
  | applicationInfo (packageInfo : PackageInfo)
  | template (packageInfo : PackageInfo) (type : TemplateType)
  | other
  | null

/-- The marshalling services: `application` has no result for a `JAXBException`, and `isPlatform`
says whether a document is unmarshalled to a `Platform`. -/
structure Marshallers (B : Type) where
  application : B → Option Unmarshalled
  isPlatform : B → Bool

/-! ## Processing a zip file -/

/-- How a processor ends. An `IOException` is caught by `init`, any other exception is not. -/
inductive Outcome (α : Type) where
  | returned (result : α)
  | ioException
  | unchecked (exception : Failure)

structure PackageArchive (B : Type) where
  isValid : Bool
  strict : Bool
  packageInfo : Option PackageInfo
  file : Option (File B)
  originalFilename : Option String
  type : Option PackageType

/-- The fields of a new archive. -/
def PackageArchive.fresh (B : Type) : PackageArchive B where
  isValid := false
  strict := true
  packageInfo := none
  file := none
  originalFilename := none
  type := none

def getFilePrefix (p : PackageInfo) : String := p.name ++ "-" ++ p.version

def validateFilename (originalFilename : String) (strict : Bool) (p : PackageInfo) : Bool :=
  let equalsStrict := originalFilename == getFilePrefix p ++ "-" ++ p.timestamp ++ ".zip"
  if strict || equalsStrict then equalsStrict else originalFilename == getFilePrefix p ++ ".zip"

section Processing

variable (m : Marshallers B)

/-- The processor for applications; it sets the package info before it checks the file name. -/
def validationProcessor (originalFilename : String) (a : PackageArchive B) (zipFile : ZipFile B) :
    PackageArchive B × Outcome Bool :=
  match zipFile.getEntry "application.xml" with
  | none => (a, .returned false)
  | some zipEntry =>
    match zipEntry.content with
    | none => (a, .ioException)
    | some zipStream =>
      match m.application zipStream with
      | none => (a, .returned false)
      | some .other => (a, .unchecked .classCastException)
      | some .null => ({ a with packageInfo := none }, .unchecked .nullPointerException)
      | some (.applicationInfo packageInfo) =>
        ({ a with packageInfo := some packageInfo },
          .returned (validateFilename originalFilename a.strict packageInfo))
      | some (.template packageInfo _) =>
        ({ a with packageInfo := some packageInfo },
          .returned (validateFilename originalFilename a.strict packageInfo))

/-- The exceptions that end the try block of `getTemplateInfo`; each is caught there. -/
inductive TemplateException where
  | fileNotFound (message : String)
  | io
  | jaxb

/-- The try block of `getTemplateInfo` from the name of the first entry on: what the variable
`template` holds when the block ends, and what ends it. -/
def readTemplate (zipFile : ZipFile B) (templateRoot : String) :
    Option (PackageInfo × TemplateType) × Option TemplateException :=
  match zipFile.getEntry (templateRoot ++ "template.xml") with
  | none => (none, some (.fileNotFound "template.xml not found"))
  | some templateFile =>
    match zipFile.getEntry (templateRoot ++ "conf/platform.xml") with
    | none => (none, some (.fileNotFound "conf/platform.xml not found"))
    | some masterFile =>
      match masterFile.content with
      | none => (none, some .io)
      | some masterIs =>
        if m.isPlatform masterIs then
          match templateFile.content with
          | none => (none, some .io)
          | some templateIs =>
            match m.application templateIs with
            | some (.template packageInfo type) =>
              if type = .xsl ∧ (zipFile.getEntry (templateRoot ++ "xsl/platform.xsl")).isNone then
                (some (packageInfo, type), some (.fileNotFound "xsl/platform.xsl not found"))
              else (some (packageInfo, type), none)
            | _ => (none, some .jaxb)
        else (none, some .jaxb)

/-- `TemplateService.getTemplateInfo`: the exceptions are only logged, and `template` is
returned. -/
def getTemplateInfo (zipFile : ZipFile B) : Outcome (Option PackageInfo) :=
  match zipFile.physicalOrder with
  | [] => .unchecked .noSuchElementException
  | entry :: _ => .returned ((readTemplate m zipFile entry.name).1.map Prod.fst)

/-- `processZipFile`: the finally block sets `isValid`. -/
def processZipFile {α : Type} (content : Content B)
    (process : PackageArchive B → ZipFile B → PackageArchive B × Outcome α)
    (a : PackageArchive B) : PackageArchive B × Outcome α :=
  let (a, outcome) :=
    match content with
    | .zip zipFile => process a zipFile
    | _ => (a, .ioException)
  ({ a with isValid := a.packageInfo.isSome }, outcome)

namespace PackageArchive

def init (content : Content B) (originalFilename : String) (a : PackageArchive B) :
    Except Failure (PackageArchive B) :=
  match processZipFile content (validationProcessor m originalFilename) a with
  | (_, .unchecked e) => .error e
  | (a, .ioException) => .ok a
  | (a, .returned true) => .ok { a with isValid := true, type := some .application }
  | (a, .returned false) =>
    match processZipFile content (fun a zipFile => (a, getTemplateInfo m zipFile)) a with
    | (_, .unchecked e) => .error e
    | (a, .ioException) => .ok a
    | (a, .returned packageInfo) =>
      let a := { a with packageInfo }
      if packageInfo.isSome then .ok { a with isValid := true, type := some .template } else .ok a

/-- `new PackageArchiveImpl(File, boolean)`. -/
def create (archive : File B) (strict : Bool) : Except Failure (PackageArchive B) :=
  match archive.content with
  | .directory => .ok (.fresh B)
  | content =>
    init m content archive.name
      { fresh B with
        file := some archive
        originalFilename := some archive.name
        strict }

/-- `new PackageArchiveImpl(File, String)`. -/
def createNamed (archive : File B) (originalFilename : String) :
    Except Failure (PackageArchive B) :=
  if Java.isBlank (some originalFilename) then .ok (.fresh B)
  else
    match archive.content with
    | .directory => .ok (.fresh B)
    | content =>
      init m content originalFilename
        { fresh B with
          file := some archive
          originalFilename := some originalFilename }

end PackageArchive

end Processing

end Repository
end AppNG
