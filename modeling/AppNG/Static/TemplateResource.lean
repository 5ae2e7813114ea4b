import AppNG.Lib.JavaString
import AppNG.Lib.FilePath

/-!
# Static.TemplateResource

`StaticContentHandler.serveTemplateResource`, with the part of `CacheProvider` that it uses.

A request is a template prefix, and the elements of a servlet path that starts with it. What the
regular expressions of Java do is left open, as far as the documentation of `Pattern` and `Matcher`
does not settle it for text without special characters.
-/

namespace AppNG
namespace Static

open FilePath

/-! ## Regular expressions -/

def isRegexChar (c : Char) : Bool :=
  ['\\', '^', '$', '.', '|', '?', '*', '+', '(', ')', '[', ']', '{', '}'].contains c

/-- What `replaceFirst` copies without looking for a group or a quoted character. -/
def IsPlainReplacement (replacement : String) : Prop :=
  '$' ∉ replacement.toList ∧ '\\' ∉ replacement.toList

/-- `java.util.regex`. `find` is what is before and behind the first match; outside of it, `none` is
the exception for a string that is no pattern, inside it means that there is no match. -/
structure Regex where
  find : String → String → Option (Option (String × String))
  replaceFirst : (regex replacement input : String) → Option String
  find_parts : ∀ {regex input before after}, find regex input = some (some (before, after)) →
    ∃ matched, input = before ++ matched ++ after
  find_literal : ∀ {regex rest}, (∀ c ∈ regex.toList, isRegexChar c = false) →
    find regex (regex ++ rest) = some (some ("", rest))
  replaceFirst_plain : ∀ {regex replacement input}, IsPlainReplacement replacement →
    replaceFirst regex replacement input =
      match find regex input with
      | none => none
      | some none => some input
      | some (some (before, after)) => some (before ++ replacement ++ after)

namespace Regex

variable {regex : Regex} {pattern replacement input before after : String}

theorem replaceFirst_invalid (h : IsPlainReplacement replacement)
    (hfind : regex.find pattern input = none) :
    regex.replaceFirst pattern replacement input = none := by
  rw [regex.replaceFirst_plain h, hfind]

theorem replaceFirst_unmatched (h : IsPlainReplacement replacement)
    (hfind : regex.find pattern input = some none) :
    regex.replaceFirst pattern replacement input = some input := by
  rw [regex.replaceFirst_plain h, hfind]

theorem replaceFirst_matched (h : IsPlainReplacement replacement)
    (hfind : regex.find pattern input = some (some (before, after))) :
    regex.replaceFirst pattern replacement input = some (before ++ replacement ++ after) := by
  rw [regex.replaceFirst_plain h, hfind]

end Regex

/-! ## The site -/

/-- `NAME_STRICT_PATTERN`. -/
def isStrictName (name : String) : Bool :=
  3 ≤ name.toList.length && name.toList.all fun c => c.isAlphanum || c == '-'

structure Applications where
  names : List String
  strict : ∀ name ∈ names, isStrictName name = true

/-- The properties of the platform and the site that the handler reads. -/
structure SiteConfig where
  repoPath : String
  siteName : String
  wwwDir : String
  templateFolder : String
  templateName : String
  cacheFolder : String
  platformCacheFolder : String
  templateFolder_plain : IsPlainReplacement templateFolder
  templateName_plain : IsPlainReplacement templateName
  siteName_plain : IsPlainReplacement siteName
  cacheFolder_plain : IsPlainReplacement cacheFolder
  platformCacheFolder_plain : IsPlainReplacement platformCacheFolder

/-- `new File(parent, child)`, as far as the text of the child may be empty. -/
def newFile (parent child : String) : String :=
  if child = "" then parent else parent ++ "/" ++ child

/-- The directory is created by the way. Backslashes become slashes. -/
def getRelativePlatformCache (cfg : SiteConfig) (application : String) : String :=
  let applicationCache := newFile
    ("/WEB-INF/" ++ cfg.cacheFolder ++ "/" ++ cfg.platformCacheFolder ++ "/" ++ cfg.siteName)
    application
  String.ofList (applicationCache.toList.map fun c => if c = '\\' then '/' else c)

/-! ## The handler -/

def templateFolders : List String := ["assets", "resources"]

/-- The names of the directories that are created below the cache of the site, and the path that is
served; without a path an exception is thrown. -/
structure Served where
  created : List String
  path : Option String
  deriving DecidableEq, Repr

def serveTemplateResource (regex : Regex) (cfg : SiteConfig) (templatePrefix servletPath : String) :
    Served :=
  match Java.split '/' servletPath with
  | _ :: first :: folder :: _ =>
    match Java.split '_' first with
    | _ :: applicationName :: _ =>
      let resourcePath := getRelativePlatformCache cfg applicationName ++ "/" ++ "resources"
      { created := [applicationName]
        path := regex.replaceFirst ("/" ++ first) resourcePath servletPath }
    | _ =>
      if folder ∈ templateFolders then
        { created := []
          path := some ("/" ++ cfg.repoPath ++ "/" ++ cfg.siteName ++ cfg.wwwDir ++ servletPath) }
      else
        { created := []
          path := regex.replaceFirst templatePrefix (cfg.templateFolder ++ "/" ++ cfg.templateName)
            servletPath }
  | _ => { created := [], path := none }

/-! ## Requests -/

/-- An element of a path that the container has normalised. -/
def IsElement (element : String) : Prop :=
  element ≠ "" ∧ element ≠ "." ∧ element ≠ ".." ∧ '/' ∉ element.toList

structure TemplateRequest where
  templatePrefix : String
  elements : List String
  normal : ∀ element ∈ elements, IsElement element
  plain : ∀ c ∈ templatePrefix.toList, c ≠ '_' ∧ isRegexChar c = false
  rest : String
  starts : "/" ++ "/".intercalate elements = templatePrefix ++ rest

def TemplateRequest.servletPath (request : TemplateRequest) : String :=
  "/" ++ "/".intercalate request.elements

/-! ## Confinement -/

/-- The path, with `..` resolved, is below the directory. -/
def Inside (directory path : String) : Prop :=
  resolve [] (segments false directory) <+: resolve [] (segments false path)

def SiteConfig.templateRoot (cfg : SiteConfig) : String := cfg.templateFolder ++ "/" ++ cfg.templateName

def SiteConfig.wwwRoot (cfg : SiteConfig) : String :=
  "/" ++ cfg.repoPath ++ "/" ++ cfg.siteName ++ cfg.wwwDir

def SiteConfig.cacheRoot (cfg : SiteConfig) : String :=
  "/WEB-INF/" ++ cfg.cacheFolder ++ "/" ++ cfg.platformCacheFolder ++ "/" ++ cfg.siteName

def SiteConfig.applicationRoot (cfg : SiteConfig) (application : String) : String :=
  cfg.cacheRoot ++ "/" ++ application ++ "/" ++ "resources"

/-- Something is served, from one of the folders of the site, and no directory is created for a name
that is no application of the site. -/
structure Confined (apps : Applications) (cfg : SiteConfig) (served : Served) : Prop where
  created : ∀ name ∈ served.created, name ∈ apps.names
  path : ∃ path, served.path = some path ∧
    (Inside cfg.templateRoot path ∨ Inside cfg.wwwRoot path ∨
      ∃ name ∈ apps.names, Inside (cfg.applicationRoot name) path ∧
        ∀ name' ∈ apps.names, Inside (cfg.applicationRoot name') path → name' = name)

end Static
end AppNG
