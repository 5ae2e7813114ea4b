import AppNG.Lib.JavaString

/-!
# Gui.PathInfo

`PathInfo`: the elements of a servlet path, and which of them name the site, the application and
the page. An index of -1 is `none`.
-/

namespace AppNG
namespace Gui

/-- The paths of a site that `PathInfo` reads; their first character is cut off. -/
structure SitePaths where
  guiPath : String
  servicePath : String
  guiPath_ne : guiPath ≠ ""
  servicePath_ne : servicePath ≠ ""

structure PathInfo where
  currentSite : String
  pathElements : List String
  siteIdx : Option Nat := none
  applicationIdx : Option Nat := none
  pageIdx : Option Nat := none
  applicationName : Option String := none
  deriving DecidableEq, Repr

/-- The last element loses what follows a `#`, unless it starts with it. -/
def cutAnchor (element : String) : String :=
  match element.toList.idxOf? '#' with
  | some (anchorIndex + 1) => String.ofList (element.toList.take (anchorIndex + 1))
  | _ => element

def splitPath (path : String) : List String :=
  let elements := Java.split '/' path
  match elements.getLast? with
  | none => elements
  | some lastElement => elements.dropLast ++ [cutAnchor lastElement]

namespace PathInfo

def getElementAt (pathInfo : PathInfo) (idx : Option Nat) : Option String :=
  idx.bind fun i => pathInfo.pathElements[i]?

def hasElementAt (pathInfo : PathInfo) (idx : Option Nat) : Bool :=
  (pathInfo.getElementAt idx).isSome

/-- The index of the site after up to two elements for the output; `none` if it is beyond the
elements when the second of them is read. -/
def siteIndex (elements : List String) (idx : Nat) : Option Nat :=
  match elements[idx]? with
  | none => none
  | some first =>
    if Java.startsWith first '_' then
      match elements[idx + 1]? with
      | none => none
      | some second => some (if Java.startsWith second '_' then idx + 2 else idx + 1)
    else some idx

/-- `parse`; `none` is an `IndexOutOfBoundsException`. -/
def parse (paths : SitePaths) (currentSite servletPath : String) : Option PathInfo :=
  let elements := splitPath servletPath
  let fresh : PathInfo := { currentSite, pathElements := elements }
  let existing (i : Nat) : Option Nat := if fresh.hasElementAt (some i) then some i else none
  if elements[1]? = some (Java.tail paths.guiPath) then
    let idx := elements.idxOf (Java.tail paths.guiPath)
    if fresh.hasElementAt (some (idx + 1)) then
      match siteIndex elements (idx + 1) with
      | none => none
      | some siteIdx =>
        let applicationIdx := existing (siteIdx + 1)
        some { fresh with
          siteIdx := some siteIdx
          applicationIdx
          pageIdx := applicationIdx.bind fun i => existing (i + 1) }
    else some fresh
  else if elements[1]? = some (Java.tail paths.servicePath) then
    let idx := elements.idxOf (Java.tail paths.servicePath)
    some { fresh with siteIdx := existing (idx + 1), applicationIdx := existing (idx + 2) }
  else some fresh

def hasSite (pathInfo : PathInfo) : Bool := pathInfo.hasElementAt pathInfo.siteIdx

def getSiteName (pathInfo : PathInfo) : String :=
  (pathInfo.getElementAt pathInfo.siteIdx).getD pathInfo.currentSite

def hasApplication (pathInfo : PathInfo) : Bool := pathInfo.hasElementAt pathInfo.applicationIdx

def getApplicationName (pathInfo : PathInfo) : Option String :=
  match pathInfo.applicationName with
  | some name => some name
  | none => pathInfo.getElementAt pathInfo.applicationIdx

def setApplicationName (pathInfo : PathInfo) (application : Option String) : PathInfo :=
  { pathInfo with
    applicationName := application
    applicationIdx := application.bind pathInfo.pathElements.idxOf?
    pageIdx := none }

def getPage (pathInfo : PathInfo) : Option String := pathInfo.getElementAt pathInfo.pageIdx

def isGui (paths : SitePaths) (pathInfo : PathInfo) : Bool :=
  pathInfo.getElementAt (some 1) == some (Java.tail paths.guiPath)

def isService (paths : SitePaths) (pathInfo : PathInfo) : Bool :=
  pathInfo.getElementAt (some 1) == some (Java.tail paths.servicePath)

/-- The elements from an offset behind an index, if there is an element at the index and one at the
offset. -/
def elementsFrom (pathInfo : PathInfo) (idx : Option Nat) (offset : Nat) : List String :=
  match idx with
  | some i =>
    if pathInfo.hasElementAt (some i) && pathInfo.hasElementAt (some (i + offset)) then
      pathInfo.pathElements.drop (i + offset)
    else []
  | none => []

def getApplicationUrlParameters (paths : SitePaths) (pathInfo : PathInfo) : List String :=
  if pathInfo.isGui paths then pathInfo.elementsFrom pathInfo.pageIdx 1
  else if pathInfo.isService paths then pathInfo.elementsFrom pathInfo.applicationIdx 3
  else []

/-- The element for the output behind the root, without its `_`. -/
def getOutput (paths : SitePaths) (pathInfo : PathInfo) (offset : Nat) : Option String :=
  match pathInfo.siteIdx with
  | some siteIdx =>
    if pathInfo.isGui paths && decide (offset < siteIdx - 1) then
      (pathInfo.getElementAt (some (1 + offset))).map Java.tail
    else none
  | none => none

def getOutputFormat (paths : SitePaths) (pathInfo : PathInfo) : Option String :=
  pathInfo.getOutput paths 1

def getOutputType (paths : SitePaths) (pathInfo : PathInfo) : Option String :=
  pathInfo.getOutput paths 2

end PathInfo
end Gui
end AppNG
