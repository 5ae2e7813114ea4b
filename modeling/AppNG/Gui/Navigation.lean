import AppNG.Gui.PathInfo
import AppNG.Lib.StableSort
import AppNG.Lib.Steady
import AppNG.Lib.Utf16
import AppNG.Parameters.ReplaceParameters
import Mathlib.Data.List.Induction
import Mathlib.Data.List.ReduceOption

/-!
# Gui.Navigation

`NavigationBuilder.processNavigation`: the navigation of a platform template, rewritten in place.

The optional attributes and elements of an item are options. An item of a list is told from the others by its
index, as the code compares items by identity. A computation that fails has thrown.

* `processNavigation_iff`: no step of the loop depends on what the steps before it have done to the path.
* `insertSites_perm`: with one template, its sites take its place.
* `Found.removeItem`: only the first anchor for the password is removed.
* `rewritten_iff`: for which navigations the result is as it should be.
-/

namespace AppNG
namespace Gui
namespace Navigation

open Parameters Steady

inductive ItemType
  | site | sites | application | applications | anchor
  deriving DecidableEq

structure NavigationItem where
  type : Option ItemType := none
  ref : Option String := none
  name : Option String := none
  label : Option String := none
  site : Option String := none
  application : Option String := none
  page : Option String := none
  actionName : Option String := none
  actionValue : Option String := none
  hidden : Option Bool := none
  selected : Option Bool := none
  item : List NavigationItem := []

structure Application where
  name : String
  displayName : Option String
  hidden : Bool

/-- The applications are in the order of iteration. -/
structure Site where
  name : String
  host : String
  applications : List Application

structure Subject where
  hasApplication : Application → Bool

/-- The subject and the platform's sites, in the order of their map's keys. -/
structure Env where
  subject : Option Subject
  sites : List Site

/-- A `PathInfo` with the fields that `NavigationBuilder` reads and sets. -/
structure Path where
  paths : SitePaths
  rootPath : String
  info : PathInfo
  page : Option String := none
  actionName : Option String := none
  actionValue : Option String := none

def CHANGE_PASSWORD : String := "changePassword"

def SLASH : String := "/"

abbrev Builder := StateT Path Option

/-! ## The path -/

namespace Path

variable (path : Path)

def getOutputPrefix : String :=
  match path.info.getOutputFormat path.paths with
  | none => ""
  | some format =>
    "/_" ++ format ++
      match path.info.getOutputType path.paths with
      | none => ""
      | some type => "/_" ++ type

def isPathSelected (ref : String) : Bool := (splitPath ref).isPrefixOf path.info.pathElements

def setPage (page : Option String) : Path :=
  { path with page, info := { path.info with pageIdx := page.bind path.info.pathElements.idxOf? } }

def setAction (actionName actionValue : Option String) : Path := { path with actionName, actionValue }

end Path

def isNotEmpty (text : Option String) : Bool := text.any (· != "")

/-! ## The builder -/

/-- What `selectNavigationItem` does to the path. -/
def selectPath (item : NavigationItem) (path : Path) : Path :=
  if isNotEmpty item.application && isNotEmpty item.site && isNotEmpty item.page then
    let path := { path with info := path.info.setApplicationName item.application }
    let path := path.setPage item.page
    if isNotEmpty item.actionName && isNotEmpty item.actionValue then
      path.setAction item.actionName item.actionValue
    else path
  else path

def selectNavigationItem (item : NavigationItem) : Builder NavigationItem := do
  modify (selectPath item)
  return { item with selected := some true }

/-- Text that is joined with a missing reference gets the word for it. -/
def navRef (path : Path) (navItem : NavigationItem) (addSitePath : Bool) : String :=
  let sitePath := match navItem.site with
    | some site => SLASH ++ site
    | none => ""
  path.rootPath ++ path.getOutputPrefix ++ (if addSitePath then sitePath else "") ++ SLASH ++ navItem.ref.getD "null"

def processItem (navItem : NavigationItem) (addSitePath : Bool) : Builder NavigationItem := do
  let path ← get
  if path.isPathSelected (navRef path navItem addSitePath) then selectNavigationItem navItem else return navItem

/-- `parameterSupport.replaceParameters` of a property; a missing one is returned as it is. -/
def replaceParameters (support : ParameterSupport) : Option String → Option (Option String)
  | none => some none
  | some text => (support.replaceParameters text.toList).map fun result => some (String.ofList result)

def replaceProperties (support : ParameterSupport) (navItem : NavigationItem) : Option NavigationItem := do
  let site ← replaceParameters support navItem.site
  let application ← replaceParameters support navItem.application
  let page ← replaceParameters support navItem.page
  let ref ← replaceParameters support navItem.ref
  let actionName ← replaceParameters support navItem.actionName
  let actionValue ← replaceParameters support navItem.actionValue
  return { navItem with site, application, page, ref, actionName, actionValue }

/-- Without the children: the code never copies recursively. -/
def copyNavigationItem (item : NavigationItem) : NavigationItem where
  hidden := item.hidden
  label := item.label
  name := item.name
  page := item.page
  application := item.application
  ref := item.ref
  selected := item.selected
  site := item.site
  type := item.type

def compareLabels (n1 n2 : NavigationItem) : Ordering := Java.compareTo (n1.label.getD "") (n2.label.getD "")

/-- A sort of more than one item compares each of them, and with a missing label this throws. -/
def sort (navItems : List NavigationItem) : Option (List NavigationItem) :=
  if navItems.length ≤ 1 ∨ ∀ item ∈ navItems, item.label.isSome then some (StableSort.sort compareLabels navItems)
  else none

/-- The attribute is unboxed: it throws if the attribute is missing. -/
def isNavigationItemHidden : List NavigationItem → Option Bool
  | [] => some true
  | navigationItem :: siteNavigation =>
    match navigationItem.hidden with
    | none => none
    | some false => some false
    | some true => isNavigationItemHidden siteNavigation

def templateItem (navSite : Site) (tplItem : NavigationItem) : NavigationItem :=
  { copyNavigationItem tplItem with site := some navSite.name }

def applicationItem (navSite : Site) (application : Application) : NavigationItem where
  type := some .application
  ref := some application.name
  label := application.displayName
  hidden := some application.hidden
  site := some navSite.name

def siteItem (navSite : Site) : NavigationItem where
  type := some .site
  ref := some navSite.name
  name := some navSite.host
  label := some navSite.name

def addTemplateItem (subject : Subject) (navSite : Site) (tplItem : NavigationItem) : Builder (List NavigationItem) :=
  match tplItem.type with
  | none => failure
  | some .application => do
    let navItem ← processItem (templateItem navSite tplItem) true
    return [navItem]
  | some .applications =>
    (navSite.applications.filter subject.hasApplication).mapM fun application =>
      processItem (applicationItem navSite application) true
  | some _ => return []

def addSiteNavigation (subject : Subject) (navSite : Site) (siteTemplate : NavigationItem) :
    Builder (List NavigationItem) := do
  let navItems ← siteTemplate.item.mapM (addTemplateItem subject navSite)
  StateT.lift (sort navItems.flatten)

def processSite (subject : Subject) (siteTemplate : NavigationItem) (navSite : Site) :
    Builder (Option NavigationItem) := do
  let item ← processItem (siteItem navSite) true
  let siteNavigation ← addSiteNavigation subject navSite siteTemplate
  let hidden ← StateT.lift (isNavigationItemHidden siteNavigation)
  return if siteNavigation.isEmpty || hidden then none else some { item with item := siteNavigation }

def processSiteTemplate (env : Env) (siteTemplate : NavigationItem) : Builder (List NavigationItem) :=
  match env.subject with
  | none => return []
  | some subject => do
    let siteItems ← env.sites.mapM (processSite subject siteTemplate)
    return siteItems.reduceOption

/-- The index of the first anchor with the action value. None: an anchor before it has no action value. -/
def getNavItem (actionValue : String) : List NavigationItem → Option (Option Nat)
  | [] => some none
  | i :: items =>
    match i.type with
    | none => none
    | some .anchor =>
      match i.actionValue with
      | none => none
      | some value =>
        if value = actionValue then some (some 0) else (getNavItem actionValue items).map (·.map (· + 1))
    | some _ => (getNavItem actionValue items).map (·.map (· + 1))

/-- The items that the loop has passed, the index of the template, and its sites. -/
structure Loop where
  items : List NavigationItem := []
  siteTemplate : Option Nat := none
  sites : List NavigationItem := []

def Loop.add (loop : Loop) (navItem : NavigationItem) : Loop := { loop with items := loop.items ++ [navItem] }

def processNavItem (env : Env) (support : ParameterSupport) (loop : Loop) (navItem : NavigationItem) : Builder Loop :=
  match navItem.type with
  | none => failure
  | some .application => do
    let navItem ← processItem navItem false
    return loop.add navItem
  | some .anchor => do
    let navItem ← StateT.lift (replaceProperties support navItem)
    let navItem ← processItem navItem false
    return loop.add navItem
  | some .sites => do
    let sites ← processSiteTemplate env navItem
    return { items := loop.items ++ [navItem], siteTemplate := some loop.items.length, sites }
  | some _ => return loop.add navItem

/-- The sites are inserted before the template, which is removed. -/
def Loop.insertSites (loop : Loop) : List NavigationItem :=
  match loop.siteTemplate with
  | none => loop.items
  | some siteTemplateIdx =>
    (loop.items.take siteTemplateIdx ++ loop.sites ++ loop.items.drop siteTemplateIdx).eraseIdx
      (siteTemplateIdx + loop.sites.length)

def removeItem (allowChangePassword : Bool) (items : List NavigationItem) (changePassword : Option Nat) :
    List NavigationItem :=
  match changePassword with
  | some idx => if allowChangePassword then items else items.eraseIdx idx
  | none => items

/-- What follows the loop. -/
def finish (allowChangePassword : Bool) (loop : Loop) : Option (List NavigationItem) := do
  let items := loop.insertSites
  let changePassword ← getNavItem CHANGE_PASSWORD items
  let items ← sort (removeItem allowChangePassword items changePassword)
  let _ ← sort loop.sites
  return items

def processNavigation (env : Env) (support : ParameterSupport) (allowChangePassword : Bool)
    (items : List NavigationItem) : Builder (List NavigationItem) := do
  let loop ← items.foldlM (processNavItem env support) {}
  StateT.lift (finish allowChangePassword loop)

/-! ## What the builder gives -/

/-- The path after changes that leave alone what is selected. -/
def Alike (path q : Path) : Prop := ∀ item addSitePath,
  q.isPathSelected (navRef q item addSitePath) = path.isPathSelected (navRef path item addSitePath)

def marked (path : Path) (item : NavigationItem) (addSitePath : Bool) : NavigationItem :=
  if path.isPathSelected (navRef path item addSitePath) then { item with selected := some true } else item

def templateItems (path : Path) (subject : Subject) (navSite : Site) (tplItem : NavigationItem) : List NavigationItem :=
  match tplItem.type with
  | some .application => [marked path (templateItem navSite tplItem) true]
  | some .applications =>
    (navSite.applications.filter subject.hasApplication).map fun application =>
      marked path (applicationItem navSite application) true
  | _ => []

/-- The navigation that the template makes for the site, not sorted yet. -/
def siteNavigation (path : Path) (subject : Subject) (navSite : Site) (siteTemplate : NavigationItem) :
    List NavigationItem :=
  siteTemplate.item.flatMap (templateItems path subject navSite)

/-- Only the value `true` hides an item. -/
def isShown (item : NavigationItem) : Bool := item.hidden != some true

def isSites (item : NavigationItem) : Bool := item.type == some .sites

def isChangePassword (item : NavigationItem) : Bool :=
  item.type == some .anchor && item.actionValue == some CHANGE_PASSWORD

/-- One item per site whose navigation has an item that is not hidden. -/
def sitesOf (path : Path) (env : Env) (siteTemplate : NavigationItem) : List NavigationItem :=
  match env.subject with
  | none => []
  | some subject =>
    (env.sites.filter fun navSite => (siteNavigation path subject navSite siteTemplate).any isShown).map
      fun navSite =>
        { marked path (siteItem navSite) true with
          item := StableSort.sort compareLabels (siteNavigation path subject navSite siteTemplate) }

/-- The item as the loop leaves it. -/
def processed (path : Path) (support : ParameterSupport) (navItem : NavigationItem) : NavigationItem :=
  match navItem.type with
  | some .application => marked path navItem false
  | some .anchor => marked path ((replaceProperties support navItem).getD navItem) false
  | _ => navItem

variable (path : Path) (env : Env) (support : ParameterSupport) (allowChangePassword : Bool)
  (items : List NavigationItem)

def processedItems : List NavigationItem := items.map (processed path support)

/-- The items that there should be, in some order. -/
def wanted : List NavigationItem :=
  (processedItems path support items).filter
      (fun item => !isSites item && (allowChangePassword || !isChangePassword item)) ++
    (items.filter isSites).flatMap (sitesOf path env)

/-- The result that `processNavigation` should have. -/
def Processed : Prop :=
  ∃ result path', processNavigation env support allowChangePassword items path = some (result, path') ∧
    result.Perm (wanted path env support allowChangePassword items) ∧
    (result.Pairwise fun m n => (compareLabels m n).isLE) ∧
    ∀ item ∈ result, item.type ≠ some .sites

/-! ## The condition -/

def Labelled (items : List NavigationItem) : Prop := items.length ≤ 1 ∨ ∀ item ∈ items, item.label.isSome

/-- An anchor that is the one for the password, or has no action value. -/
def isDoubtful (item : NavigationItem) : Bool :=
  item.type == some .anchor && item.actionValue.all (· == CHANGE_PASSWORD)

/-- What the navigation of a site has to be like. -/
structure SoundTemplate (subject : Subject) (siteTemplate : NavigationItem) (navSite : Site) : Prop where
  typed : ∀ tplItem ∈ siteTemplate.item, tplItem.type.isSome
  labelled : Labelled (siteNavigation path subject navSite siteTemplate)
  /-- The first item that is not hidden says so. -/
  told : ∀ item, (StableSort.sort compareLabels (siteNavigation path subject navSite siteTemplate)).find? isShown =
    some item → item.hidden.isSome

/-- What the loop needs from an item. -/
structure SoundItem (navItem : NavigationItem) : Prop where
  typed : navItem.type.isSome
  replaced : navItem.type = some .anchor → (replaceProperties support navItem).isSome
  templates : navItem.type = some .sites → ∀ subject, env.subject = some subject →
    ∀ navSite ∈ env.sites, SoundTemplate path subject navItem navSite

structure SoundNavigation : Prop where
  each : ∀ navItem ∈ items, SoundItem path env support navItem
  /-- The first anchor without an action value comes after the one for the password. -/
  anchors : ∀ item, (processedItems path support items).find? isDoubtful = some item → item.actionValue.isSome
  single : items.countP isSites ≤ 1
  passwords : allowChangePassword = true ∨ (processedItems path support items).countP isChangePassword ≤ 1
  labelled : Labelled (wanted path env support allowChangePassword items)

/-! ## The loop -/

variable {path env support allowChangePassword items}

theorem alike_selectPath {q : Path} (h : Alike path q) (item : NavigationItem) : Alike path (selectPath item q) := by
  intro item' addSitePath
  rw [← h]
  unfold selectPath
  split
  · split <;> rfl
  · rfl

theorem selectNavigationItem_gives (item : NavigationItem) :
    Gives (Alike path) (selectNavigationItem item) True { item with selected := some true } :=
  fun q hq => ⟨fun _ => ⟨selectPath item q, rfl, alike_selectPath hq item⟩, fun h => absurd trivial h⟩

theorem processItem_gives (item : NavigationItem) (addSitePath : Bool) :
    Gives (Alike path) (processItem item addSitePath) True (marked path item addSitePath) := by
  intro q hq
  have hrun : processItem item addSitePath q =
      (if q.isPathSelected (navRef q item addSitePath) then selectNavigationItem item else pure item) q := rfl
  rw [hrun, hq, marked]
  cases path.isPathSelected (navRef path item addSitePath) with
  | true => exact selectNavigationItem_gives item q hq
  | false => exact Gives.pure item q hq

theorem sort_eq_some (h : Labelled items) : sort items = some (StableSort.sort compareLabels items) := if_pos h

theorem sort_eq_none (h : ¬ Labelled items) : sort items = none := if_neg h

theorem addTemplateItem_gives (subject : Subject) (navSite : Site) (tplItem : NavigationItem) :
    Gives (Alike path) (addTemplateItem subject navSite tplItem) tplItem.type.isSome
      (templateItems path subject navSite tplItem) := by
  unfold addTemplateItem templateItems
  cases tplItem.type with
  | none => exact (Gives.failure []).congr (by simp)
  | some type =>
    cases type with
    | application => exact ((processItem_gives (templateItem navSite tplItem) true).map ([·])).congr (by simp)
    | applications =>
      refine Gives.congr (Gives.mapM fun application _ => processItem_gives _ true) ?_
      simp
    | site => exact (Gives.pure []).congr (by simp)
    | sites => exact (Gives.pure []).congr (by simp)
    | anchor => exact (Gives.pure []).congr (by simp)

variable (path) in
theorem addSiteNavigation_gives (subject : Subject) (navSite : Site) (siteTemplate : NavigationItem) :
    Gives (Alike path) (addSiteNavigation subject navSite siteTemplate)
      ((∀ tplItem ∈ siteTemplate.item, tplItem.type.isSome) ∧
        Labelled (siteNavigation path subject navSite siteTemplate))
      (StableSort.sort compareLabels (siteNavigation path subject navSite siteTemplate)) := by
  refine Gives.bind (Gives.mapM fun tplItem _ => addTemplateItem_gives subject navSite tplItem) fun _ => ?_
  rw [← List.flatMap_def]
  exact Gives.lift sort_eq_some sort_eq_none

/-- The loop ends with the first item that does not say `true`. -/
theorem isNavigationItemHidden_eq (items : List NavigationItem) :
    isNavigationItemHidden items =
      match items.find? isShown with
      | none => some true
      | some item => item.hidden := by
  induction items with
  | nil => rfl
  | cons item items ih =>
    rw [isNavigationItemHidden, List.find?_cons, ih]
    cases h : item.hidden with
    | none =>
      have hshown : isShown item = true := by simp [isShown, h]
      rw [hshown]
      exact h.symm
    | some hidden =>
      have hshown : isShown item = !hidden := by
        rw [isShown, h]
        cases hidden <;> rfl
      rw [hshown]
      cases hidden with
      | false => exact h.symm
      | true => rfl

variable (path) in
theorem isNavigationItemHidden_gives (items : List NavigationItem) :
    Gives (Alike path) (StateT.lift (isNavigationItemHidden items))
      (∀ item, items.find? isShown = some item → item.hidden.isSome) !(items.any isShown) := by
  rw [isNavigationItemHidden_eq]
  cases h : items.find? isShown with
  | none =>
    have hany : items.any isShown = false := by simpa using List.find?_eq_none.mp h
    refine Gives.lift (fun _ => by rw [hany]; rfl) fun hc => ?_
    exact absurd (fun item hitem => nomatch hitem) hc
  | some item =>
    have hshown : isShown item = true := List.find?_some h
    have hany : items.any isShown = true := List.any_eq_true.mpr ⟨item, List.mem_of_find?_eq_some h, hshown⟩
    rw [hany]
    cases hhidden : item.hidden with
    | none =>
      refine Gives.lift (fun hc => ?_) fun _ => hhidden
      simpa [hhidden] using hc item rfl
    | some hidden =>
      have hfalse : hidden = false := by simpa [isShown, hhidden] using hshown
      refine Gives.lift (fun _ => by simpa using hhidden.trans (congrArg some hfalse)) fun hc => ?_
      refine absurd (fun item' hitem' => ?_) hc
      obtain rfl := Option.some.inj hitem'
      simp [hhidden]

theorem sort_perm (items : List NavigationItem) : (StableSort.sort compareLabels items).Perm items :=
  List.perm_insertionSort _ items

variable (path) in
theorem processSite_gives (subject : Subject) (siteTemplate : NavigationItem) (navSite : Site) :
    Gives (Alike path) (processSite subject siteTemplate navSite) (SoundTemplate path subject siteTemplate navSite)
      (if (siteNavigation path subject navSite siteTemplate).any isShown then
        some { marked path (siteItem navSite) true with
          item := StableSort.sort compareLabels (siteNavigation path subject navSite siteTemplate) }
      else none) := by
  unfold processSite
  have hany := (sort_perm (siteNavigation path subject navSite siteTemplate)).any_eq (f := isShown)
  generalize hsorted : StableSort.sort compareLabels (siteNavigation path subject navSite siteTemplate) = sorted at *
  have hhidden := (isNavigationItemHidden_gives path sorted).map fun hidden =>
    if sorted.isEmpty || hidden then none
    else some { marked path (siteItem navSite) true with item := sorted }
  have hresult : (if sorted.isEmpty || !sorted.any isShown then none
      else some { marked path (siteItem navSite) true with item := sorted }) =
      if (siteNavigation path subject navSite siteTemplate).any isShown then
        some { marked path (siteItem navSite) true with item := sorted }
      else none := by
    rw [← hany]
    cases sorted with
    | nil => rfl
    | cons item items => cases (item :: items).any isShown <;> rfl
  rw [hresult] at hhidden
  have hnavigation := addSiteNavigation_gives path subject navSite siteTemplate
  rw [hsorted] at hnavigation
  refine Gives.congr ((processItem_gives (siteItem navSite) true).bind fun _ => hnavigation.bind fun _ => hhidden) ?_
  constructor
  · rintro ⟨-, ⟨htyped, hlabelled⟩, htold⟩
    exact ⟨htyped, hlabelled, hsorted ▸ htold⟩
  · intro h
    exact ⟨trivial, ⟨h.typed, h.labelled⟩, hsorted ▸ h.told⟩

theorem reduceOption_map_ite {α β : Type} (p : α → Bool) (f : α → β) (l : List α) :
    (l.map fun a => if p a then some (f a) else none).reduceOption = (l.filter p).map f := by
  induction l with
  | nil => rfl
  | cons a l ih =>
    rw [List.map_cons]
    cases h : p a with
    | true => simp [h, List.reduceOption_cons_of_some, ih]
    | false => simp [h, List.reduceOption_cons_of_none, ih]

theorem processSiteTemplate_gives (siteTemplate : NavigationItem) :
    Gives (Alike path) (processSiteTemplate env siteTemplate)
      (∀ subject, env.subject = some subject → ∀ navSite ∈ env.sites, SoundTemplate path subject siteTemplate navSite)
      (sitesOf path env siteTemplate) := by
  unfold processSiteTemplate sitesOf
  cases env.subject with
  | none => exact (Gives.pure []).congr (by simp)
  | some subject =>
    have hsites := Gives.mapM fun navSite (_ : navSite ∈ env.sites) =>
      processSite_gives path subject siteTemplate navSite
    have hreduced := hsites.map List.reduceOption
    rw [reduceOption_map_ite] at hreduced
    exact hreduced.congr (by simp)

/-- The step of the loop, where it does not throw. -/
def nextLoop (path : Path) (env : Env) (support : ParameterSupport) (loop : Loop) (navItem : NavigationItem) : Loop :=
  if isSites navItem then
    { items := loop.items ++ [navItem], siteTemplate := some loop.items.length, sites := sitesOf path env navItem }
  else loop.add (processed path support navItem)

theorem processNavItem_gives (loop : Loop) (navItem : NavigationItem) :
    Gives (Alike path) (processNavItem env support loop navItem) (SoundItem path env support navItem)
      (nextLoop path env support loop navItem) := by
  unfold processNavItem nextLoop processed isSites
  cases htype : navItem.type with
  | none => exact (Gives.failure _).congr ⟨False.elim, fun h => by simpa [htype] using h.typed⟩
  | some type =>
    cases type with
    | application =>
      exact ((processItem_gives navItem false).map loop.add).congr
        ⟨fun _ => ⟨by simp [htype], by simp [htype], by simp [htype]⟩, fun _ => trivial⟩
    | anchor =>
      have hreplace : Gives (Alike path) (StateT.lift (replaceProperties support navItem))
          (replaceProperties support navItem).isSome ((replaceProperties support navItem).getD navItem) :=
        Gives.lift (fun h => by obtain ⟨item, h⟩ := Option.isSome_iff_exists.mp h; simp [h]) (by simp)
      refine Gives.congr (hreplace.bind fun _ => (processItem_gives _ false).map loop.add) ?_
      exact ⟨fun h => ⟨by simp [htype], fun _ => h.1, by simp [htype]⟩, fun h => ⟨h.replaced htype, trivial⟩⟩
    | sites =>
      refine Gives.congr ((processSiteTemplate_gives navItem).map _) ?_
      exact ⟨fun h => ⟨by simp [htype], by simp [htype], fun _ => h⟩, fun h => h.templates htype⟩
    | site =>
      exact (Gives.pure _).congr ⟨fun _ => ⟨by simp [htype], by simp [htype], by simp [htype]⟩, fun _ => trivial⟩
    | applications =>
      exact (Gives.pure _).congr ⟨fun _ => ⟨by simp [htype], by simp [htype], by simp [htype]⟩, fun _ => trivial⟩

theorem loop_gives (items : List NavigationItem) :
    Gives (Alike path) (items.foldlM (processNavItem env support) {})
      (∀ navItem ∈ items, SoundItem path env support navItem) (items.foldl (nextLoop path env support) {}) :=
  Gives.foldlM (fun loop navItem _ => processNavItem_gives loop navItem) {}

theorem processNavigation_iff (result : List NavigationItem) :
    (∃ path', processNavigation env support allowChangePassword items path = some (result, path')) ↔
      (∀ navItem ∈ items, SoundItem path env support navItem) ∧
        finish allowChangePassword (items.foldl (nextLoop path env support) {}) = some result :=
  (loop_gives items).bind_lift_iff (fun _ _ => rfl) (finish allowChangePassword) result

/-! ## The place of the sites -/

@[simp] theorem marked_type (item : NavigationItem) (addSitePath : Bool) :
    (marked path item addSitePath).type = item.type := by
  unfold marked
  split <;> rfl

@[simp] theorem marked_label (item : NavigationItem) (addSitePath : Bool) :
    (marked path item addSitePath).label = item.label := by
  unfold marked
  split <;> rfl

theorem replaceProperties_type {navItem item : NavigationItem} (h : replaceProperties support navItem = some item) :
    item.type = navItem.type := by
  simp only [replaceProperties, Option.bind_eq_bind, Option.bind_eq_some_iff, Option.pure_def, Option.some.injEq] at h
  obtain ⟨site, -, application, -, page, -, ref, -, actionName, -, actionValue, -, rfl⟩ := h
  rfl

@[simp] theorem processed_type (navItem : NavigationItem) : (processed path support navItem).type = navItem.type := by
  unfold processed
  split
  · exact marked_type _ _
  · rw [marked_type]
    cases h : replaceProperties support navItem with
    | none => rfl
    | some item => exact replaceProperties_type h
  · rfl

@[simp] theorem isSites_processed (navItem : NavigationItem) :
    isSites (processed path support navItem) = isSites navItem := by
  rw [isSites, processed_type, isSites]

theorem processed_of_isSites {navItem : NavigationItem} (h : isSites navItem) :
    processed path support navItem = navItem := by
  have htype : navItem.type = some .sites := eq_of_beq h
  rw [processed, htype]

theorem sitesOf_spec {siteTemplate item : NavigationItem} (h : item ∈ sitesOf path env siteTemplate) :
    item.type = some .site ∧ item.label.isSome := by
  unfold sitesOf at h
  cases hsubject : env.subject with
  | none =>
    rw [hsubject] at h
    cases h
  | some subject =>
    rw [hsubject] at h
    obtain ⟨navSite, -, rfl⟩ := List.mem_map.mp h
    exact ⟨marked_type (siteItem navSite) true, by rw [marked_label]; rfl⟩

/-- A test that passes items of one type only, other than that of the sites. -/
theorem sitesOf_none (p : NavigationItem → Bool) (hp : ∀ item, p item = true → item.type ≠ some .site)
    {siteTemplate item : NavigationItem} (hitem : item ∈ sitesOf path env siteTemplate) : p item = false := by
  cases h : p item with
  | false => rfl
  | true => exact absurd (sitesOf_spec hitem).1 (hp item h)

theorem isSites_type (item : NavigationItem) (h : isSites item = true) : item.type ≠ some .site := by
  rw [isSites, beq_iff_eq] at h
  simp [h]

theorem isDoubtful_type {item : NavigationItem} (h : isDoubtful item = true) : item.type = some .anchor := by
  rw [isDoubtful, Bool.and_eq_true, beq_iff_eq] at h
  exact h.1

theorem isChangePassword_type {item : NavigationItem} (h : isChangePassword item = true) :
    item.type = some .anchor := by
  rw [isChangePassword, Bool.and_eq_true, beq_iff_eq] at h
  exact h.1

variable (path env support) in
theorem foldl_nextLoop (items : List NavigationItem) :
    (items.foldl (nextLoop path env support) {}).items = processedItems path support items ∧
      ((items.countP isSites = 0 ∧ (items.foldl (nextLoop path env support) {}).siteTemplate = none ∧
          (items.foldl (nextLoop path env support) {}).sites = []) ∨
        ∃ front tpl back, items = front ++ tpl :: back ∧ isSites tpl = true ∧ back.countP isSites = 0 ∧
          (items.foldl (nextLoop path env support) {}).siteTemplate = some front.length ∧
          (items.foldl (nextLoop path env support) {}).sites = sitesOf path env tpl) := by
  induction items using List.reverseRecOn with
  | nil => exact ⟨rfl, Or.inl ⟨rfl, rfl, rfl⟩⟩
  | append_singleton items navItem ih =>
    rw [List.foldl_append, List.foldl_cons, List.foldl_nil]
    generalize items.foldl (nextLoop path env support) {} = loop at ih
    obtain ⟨hitems, hplace⟩ := ih
    cases h : isSites navItem with
    | true =>
      simp only [nextLoop, h, if_true, processedItems, List.map_append, List.map_cons, List.map_nil,
        processed_of_isSites h]
      refine ⟨by rw [hitems, processedItems], Or.inr ⟨items, navItem, [], rfl, h, rfl, ?_, rfl⟩⟩
      rw [hitems, processedItems, List.length_map]
    | false =>
      simp only [nextLoop, h, Loop.add, processedItems, List.map_append, List.map_cons, List.map_nil]
      refine ⟨by simp [hitems, processedItems], ?_⟩
      rcases hplace with ⟨hcount, htpl, hsites⟩ | ⟨front, tpl, back, rfl, htpl, hback, hidx, hsites⟩
      · exact Or.inl ⟨by simp [hcount, h], by simpa using htpl, by simpa using hsites⟩
      · refine Or.inr ⟨front, tpl, back ++ [navItem], by simp, htpl, by simp [hback, h], ?_, ?_⟩
        · simpa using hidx
        · simpa using hsites

variable (path env support) in
theorem insertSites_cases (items : List NavigationItem) :
    (items.countP isSites = 0 ∧
        (items.foldl (nextLoop path env support) {}).insertSites = processedItems path support items ∧
        (items.foldl (nextLoop path env support) {}).sites = []) ∨
      ∃ front tpl back, items = front ++ tpl :: back ∧ isSites tpl = true ∧ back.countP isSites = 0 ∧
        (items.foldl (nextLoop path env support) {}).insertSites =
          processedItems path support front ++ sitesOf path env tpl ++ processedItems path support back ∧
        (items.foldl (nextLoop path env support) {}).sites = sitesOf path env tpl := by
  obtain ⟨hitems, ⟨hcount, htpl, hsites⟩ | ⟨front, tpl, back, hsplit, htpl, hback, hidx, hsites⟩⟩ :=
    foldl_nextLoop path env support items
  · exact Or.inl ⟨hcount, by rw [Loop.insertSites, htpl, hitems], hsites⟩
  · refine Or.inr ⟨front, tpl, back, hsplit, htpl, hback, ?_, hsites⟩
    have hlength : (processedItems path support front).length = front.length := List.length_map _
    have hprocessed : processedItems path support items =
        processedItems path support front ++ tpl :: processedItems path support back := by
      rw [hsplit, processedItems, List.map_append, List.map_cons, processed_of_isSites htpl]
      rfl
    rw [Loop.insertSites, hidx, hitems, hsites, hprocessed, ← hlength]
    simp only [List.take_left, List.drop_left]
    rw [← List.length_append, List.eraseIdx_append_of_length_le (Nat.le_refl _), Nat.sub_self]
    rfl

variable (env) in
/-- The sites' part is invisible to a test of another type; the template is, too. -/
theorem find?_insertSites (items : List NavigationItem) :
    (items.foldl (nextLoop path env support) {}).insertSites.find? isDoubtful =
      (processedItems path support items).find? isDoubtful := by
  obtain ⟨-, h, -⟩ | ⟨front, tpl, back, rfl, htpl, -, h, -⟩ :=
    insertSites_cases path env support items
  · rw [h]
  · have hsites : (sitesOf path env tpl).find? isDoubtful = none :=
      List.find?_eq_none.mpr fun item hitem => by
        simp [sitesOf_none isDoubtful (fun i hi => by simp [isDoubtful_type hi]) hitem]
    have htplFalse : isDoubtful tpl = false := by
      rw [isSites, beq_iff_eq] at htpl
      simp [isDoubtful, htpl]
    rw [h]
    simp [processedItems, processed_of_isSites htpl, List.find?_append, hsites, htplFalse]

variable (env) in
theorem countP_insertSites (items : List NavigationItem) :
    (items.foldl (nextLoop path env support) {}).insertSites.countP isChangePassword =
      (processedItems path support items).countP isChangePassword := by
  obtain ⟨-, h, -⟩ | ⟨front, tpl, back, rfl, htpl, -, h, -⟩ :=
    insertSites_cases path env support items
  · rw [h]
  · have hsites : (sitesOf path env tpl).countP isChangePassword = 0 :=
      List.countP_eq_zero.mpr fun item hitem => by
        simp [sitesOf_none isChangePassword (fun i hi => by simp [isChangePassword_type hi]) hitem]
    have htplFalse : isChangePassword tpl = false := by
      rw [isSites, beq_iff_eq] at htpl
      simp [isChangePassword, htpl]
    rw [h]
    simp [processedItems, processed_of_isSites htpl, hsites, htplFalse]

variable (path support) in
theorem countP_processedItems (items : List NavigationItem) :
    (processedItems path support items).countP isSites = items.countP isSites := by
  rw [processedItems, List.countP_map]
  exact List.countP_congr fun item _ => by simp

/-- Every template but the last one stays. -/
theorem countP_isSites_insertSites (items : List NavigationItem) :
    (items.foldl (nextLoop path env support) {}).insertSites.countP isSites = items.countP isSites - 1 := by
  obtain ⟨hcount, h, -⟩ | ⟨front, tpl, back, rfl, htpl, hback, h, -⟩ :=
    insertSites_cases path env support items
  · rw [h, countP_processedItems, hcount]
  · have hsites : (sitesOf path env tpl).countP isSites = 0 :=
      List.countP_eq_zero.mpr fun item hitem => by simp [sitesOf_none isSites isSites_type hitem]
    rw [h]
    simp [countP_processedItems, hsites, hback, htpl]

variable (path env support) in
theorem insertSites_perm (h : items.countP isSites ≤ 1) :
    (items.foldl (nextLoop path env support) {}).insertSites.Perm
      ((processedItems path support items).filter (!isSites ·) ++
        (items.filter isSites).flatMap (sitesOf path env)) := by
  have hkept (items : List NavigationItem) (hcount : items.countP isSites = 0) :
      (processedItems path support items).filter (!isSites ·) = processedItems path support items := by
    refine List.filter_eq_self.mpr fun item hitem => ?_
    have hnot := List.countP_eq_zero.mp ((countP_processedItems path support items).trans hcount)
    simpa using hnot item hitem
  have hnone (items : List NavigationItem) (hcount : items.countP isSites = 0) : items.filter isSites = [] :=
    List.filter_eq_nil_iff.mpr (List.countP_eq_zero.mp hcount)
  obtain ⟨hcount, heq, -⟩ | ⟨front, tpl, back, rfl, htpl, hback, heq, -⟩ :=
    insertSites_cases path env support items
  · rw [heq, hkept items hcount, hnone items hcount]
    simp
  · have hfront : front.countP isSites = 0 := by
      simp only [List.countP_append, List.countP_cons, htpl, if_true] at h
      omega
    have hsplit : processedItems path support (front ++ tpl :: back) =
        processedItems path support front ++ tpl :: processedItems path support back := by
      simp [processedItems, processed_of_isSites htpl]
    rw [heq, hsplit, List.filter_append, List.filter_append, List.filter_cons_of_neg (by simp [htpl]),
      List.filter_cons_of_pos htpl, hkept front hfront, hkept back hback, hnone front hfront, hnone back hback]
    simp only [List.nil_append, List.flatMap_singleton, List.append_assoc]
    exact List.Perm.append_left _ List.perm_append_comm

theorem sort_sites (items : List NavigationItem) :
    Labelled (items.foldl (nextLoop path env support) {}).sites := by
  obtain ⟨-, -, h⟩ | ⟨front, tpl, back, -, -, -, -, h⟩ :=
    insertSites_cases path env support items
  · rw [h]
    exact Or.inl (Nat.zero_le 1)
  · rw [h]
    exact Or.inr fun item hitem => (sitesOf_spec hitem).2

theorem typed_insertSites (h : ∀ navItem ∈ items, SoundItem path env support navItem) :
    ∀ item ∈ (items.foldl (nextLoop path env support) {}).insertSites, item.type.isSome := by
  have hprocessed (l : List NavigationItem) (hl : ∀ item ∈ l, item ∈ items) :
      ∀ item ∈ processedItems path support l, item.type.isSome := by
    intro item hitem
    obtain ⟨navItem, hmem, rfl⟩ := List.mem_map.mp hitem
    rw [processed_type]
    exact (h navItem (hl navItem hmem)).typed
  obtain ⟨-, heq, -⟩ | ⟨front, tpl, back, rfl, -, -, heq, -⟩ :=
    insertSites_cases path env support items
  · rw [heq]
    exact hprocessed items fun _ => id
  · rw [heq]
    intro item hitem
    rcases List.mem_append.mp hitem with hitem | hitem
    · rcases List.mem_append.mp hitem with hitem | hitem
      · exact hprocessed front (fun i hi => by simp [hi]) item hitem
      · rw [(sitesOf_spec hitem).1]
        rfl
    · exact hprocessed back (fun i hi => by simp [hi]) item hitem

/-! ## The change-password anchor -/

/-- Where the search for the anchor ends. -/
inductive Found (items : List NavigationItem) : Option (Option Nat) → Prop
  | thrown (item : NavigationItem) (hfirst : items.find? isDoubtful = some item) (hvalue : item.actionValue = none) :
      Found items none
  | absent (hfirst : items.find? isDoubtful = none) (hcount : items.countP isChangePassword = 0) :
      Found items (some none)
  | present (front : List NavigationItem) (item : NavigationItem) (back : List NavigationItem)
      (hsplit : items = front ++ item :: back) (hitem : isChangePassword item = true)
      (hfirst : items.find? isDoubtful = some item) (hcount : front.countP isChangePassword = 0) :
      Found items (some (some front.length))

theorem Found.cons {items : List NavigationItem} {found : Option (Option Nat)} (h : Found items found)
    {item : NavigationItem} (hdoubtful : isDoubtful item = false) (hitem : isChangePassword item = false) :
    Found (item :: items) (found.map (·.map (· + 1))) := by
  cases h with
  | thrown i hfirst hvalue => exact .thrown i (by simp [hdoubtful, hfirst]) hvalue
  | absent hfirst hcount => exact .absent (by simp [hdoubtful, hfirst]) (by simp [hitem, hcount])
  | present front i back hsplit hi hfirst hcount =>
    exact .present (item :: front) i back (by simp [hsplit]) hi (by simp [hdoubtful, hfirst]) (by simp [hitem, hcount])

theorem getNavItem_found (htyped : ∀ item ∈ items, item.type.isSome) :
    Found items (getNavItem CHANGE_PASSWORD items) := by
  induction items with
  | nil => exact .absent rfl rfl
  | cons item items ih =>
    have htail := ih fun i hi => htyped i (List.mem_cons_of_mem item hi)
    obtain ⟨type, htype⟩ := Option.isSome_iff_exists.mp (htyped item List.mem_cons_self)
    by_cases hanchor : type = .anchor
    · subst hanchor
      simp only [getNavItem, htype]
      cases hvalue : item.actionValue with
      | none =>
        have hdoubtful : isDoubtful item = true := by simp [isDoubtful, htype, hvalue]
        exact .thrown item (by simp [hdoubtful]) hvalue
      | some value =>
        by_cases heq : value = CHANGE_PASSWORD
        · have hdoubtful : isDoubtful item = true := by simp [isDoubtful, htype, hvalue, heq]
          simp only [heq, if_true]
          exact .present [] item items rfl (by simp [isChangePassword, htype, hvalue, heq]) (by simp [hdoubtful]) rfl
        · simp only [heq, if_false]
          exact htail.cons (by simp [isDoubtful, htype, hvalue, heq]) (by simp [isChangePassword, htype, hvalue, heq])
    · have hget : getNavItem CHANGE_PASSWORD (item :: items) =
          (getNavItem CHANGE_PASSWORD items).map (·.map (· + 1)) := by
        rw [getNavItem, htype]
        cases type <;> first | rfl | exact absurd rfl hanchor
      rw [hget]
      exact htail.cons (by simp [isDoubtful, htype, hanchor]) (by simp [isChangePassword, htype, hanchor])

theorem Found.isSome_iff {found : Option (Option Nat)} (h : Found items found) :
    found.isSome ↔ ∀ item, items.find? isDoubtful = some item → item.actionValue.isSome := by
  cases h with
  | thrown item hfirst hvalue => simp [hfirst, hvalue]
  | absent hfirst hcount => simp [hfirst]
  | present front item back hsplit hitem hfirst hcount =>
    rw [isChangePassword, Bool.and_eq_true, beq_iff_eq, beq_iff_eq] at hitem
    simp [hfirst, hitem.2]

variable (allowChangePassword) in
/-- Only the first anchor for the password is removed. -/
theorem Found.removeItem {idx : Option Nat} (h : Found items (some idx)) :
    (removeItem allowChangePassword items idx).countP isSites = items.countP isSites ∧
      ((allowChangePassword = true ∨ items.countP isChangePassword ≤ 1) →
        removeItem allowChangePassword items idx =
          items.filter fun item => allowChangePassword || !isChangePassword item) ∧
      ((removeItem allowChangePassword items idx).countP isChangePassword = 0 →
        items.countP isChangePassword ≤ 1) := by
  have hall (l : List NavigationItem) (hl : allowChangePassword = true ∨ l.countP isChangePassword = 0) :
      (l.filter fun item => allowChangePassword || !isChangePassword item) = l := by
    refine List.filter_eq_self.mpr fun item hitem => ?_
    rcases hl with hl | hl
    · simp [hl]
    · simp [List.countP_eq_zero.mp hl item hitem]
  cases h with
  | absent hfirst hcount => exact ⟨rfl, fun _ => (hall items (Or.inr hcount)).symm, fun _ => hcount ▸ Nat.zero_le 1⟩
  | present front item back hsplit hitem hfirst hcount =>
    cases allowChangePassword with
    | true => exact ⟨rfl, fun _ => (hall items (Or.inl rfl)).symm, fun h => h.le.trans (Nat.zero_le 1)⟩
    | false =>
      have herase : Navigation.removeItem false items (some front.length) = front ++ back := by
        simp [Navigation.removeItem, hsplit, List.eraseIdx_append_of_length_le]
      have hsites : isSites item = false := by
        simp [isSites, isChangePassword_type hitem]
      rw [herase, hsplit]
      refine ⟨by simp [hsites], fun h => ?_, fun h => ?_⟩
      · have hback : back.countP isChangePassword = 0 := by
          have hle := h.resolve_left Bool.false_ne_true
          simp only [List.countP_append, List.countP_cons, hitem, if_true] at hle
          omega
        rw [List.filter_append, List.filter_cons_of_neg (by simp [hitem]), hall front (Or.inr hcount),
          hall back (Or.inr hback)]
      · simp only [List.countP_append, List.countP_cons, hitem, if_true] at h ⊢
        omega

/-! ## The result -/

theorem Labelled.perm {items' : List NavigationItem} (h : Labelled items) (hperm : items.Perm items') :
    Labelled items' := by
  rcases h with h | h
  · exact Or.inl (hperm.length_eq ▸ h)
  · exact Or.inr fun item hitem => h item (hperm.mem_iff.mpr hitem)

theorem finish_eq_some {loop : Loop} (hsites : Labelled loop.sites) {result : List NavigationItem} :
    finish allowChangePassword loop = some result ↔
      ∃ idx, getNavItem CHANGE_PASSWORD loop.insertSites = some idx ∧
        Labelled (removeItem allowChangePassword loop.insertSites idx) ∧
        result = StableSort.sort compareLabels (removeItem allowChangePassword loop.insertSites idx) := by
  simp only [finish, Option.bind_eq_bind, Option.bind_eq_some_iff, sort_eq_some hsites, Option.pure_def]
  refine exists_congr fun idx => and_congr_right fun _ => ?_
  by_cases h : Labelled (removeItem allowChangePassword loop.insertSites idx)
  · simp [sort_eq_some h, h, eq_comm]
  · simp [sort_eq_none h, h]

theorem compareLabels_trans : Std.TransCmp compareLabels :=
  StableSort.comap_trans (inferInstanceAs (Std.TransCmp Java.compareTo)) fun item : NavigationItem => item.label.getD ""

theorem wanted_isSites : ∀ item ∈ wanted path env support allowChangePassword items, isSites item = false := by
  intro item hitem
  rcases List.mem_append.mp hitem with hitem | hitem
  · simpa using And.left (by simpa using (List.mem_filter.mp hitem).2)
  · obtain ⟨tpl, -, hmem⟩ := List.mem_flatMap.mp hitem
    exact sitesOf_none isSites isSites_type hmem

theorem wanted_isChangePassword (h : allowChangePassword = false) :
    (wanted path env support allowChangePassword items).countP isChangePassword = 0 := by
  refine List.countP_eq_zero.mpr fun item hitem => ?_
  rcases List.mem_append.mp hitem with hitem | hitem
  · have hkept := (List.mem_filter.mp hitem).2
    simp [h] at hkept
    simp [hkept]
  · obtain ⟨tpl, -, hmem⟩ := List.mem_flatMap.mp hitem
    simp [sitesOf_none isChangePassword (fun i hi => by simp [isChangePassword_type hi]) hmem]

variable (path env support allowChangePassword) in
/-- With one template, the items before the sort are those that there should be. -/
theorem filter_insertSites_perm (hsingle : items.countP isSites ≤ 1) :
    ((items.foldl (nextLoop path env support) {}).insertSites.filter
        fun item => allowChangePassword || !isChangePassword item).Perm
      (wanted path env support allowChangePassword items) := by
  have hperm := (insertSites_perm path env support hsingle).filter
    fun item => allowChangePassword || !isChangePassword item
  have hsites : ((items.filter isSites).flatMap (sitesOf path env)).filter
      (fun item => allowChangePassword || !isChangePassword item) =
        (items.filter isSites).flatMap (sitesOf path env) := by
    refine List.filter_eq_self.mpr fun item hitem => ?_
    obtain ⟨tpl, -, hmem⟩ := List.mem_flatMap.mp hitem
    simp [sitesOf_none isChangePassword (fun i hi => by simp [isChangePassword_type hi]) hmem]
  rw [List.filter_append, List.filter_filter, hsites] at hperm
  refine hperm.trans (List.Perm.of_eq (congrArg (· ++ _) (List.filter_congr fun item _ => ?_)))
  exact Bool.and_comm _ _

/-- The navigation is processed as it should be if and only if it is sound. -/
theorem rewritten_iff (path : Path) (env : Env) (support : ParameterSupport) (allowChangePassword : Bool)
    (items : List NavigationItem) :
    Processed path env support allowChangePassword items ↔
      SoundNavigation path env support allowChangePassword items := by
  constructor
  · rintro ⟨result, path', hrun, hperm, -, -⟩
    obtain ⟨heach, hfinish⟩ := (processNavigation_iff result).mp ⟨path', hrun⟩
    obtain ⟨idx, hget, hlabelled, rfl⟩ := (finish_eq_some (sort_sites items)).mp hfinish
    have hfound := getNavItem_found (typed_insertSites heach)
    rw [hget] at hfound
    obtain ⟨hcount, -, hpasswords⟩ := hfound.removeItem allowChangePassword
    have hremoved := (sort_perm _).symm.trans hperm
    refine ⟨heach, ?_, ?_, ?_, hlabelled.perm hremoved⟩
    · rw [← find?_insertSites env]
      exact hfound.isSome_iff.mp rfl
    · have hnone : (wanted path env support allowChangePassword items).countP isSites = 0 :=
        List.countP_eq_zero.mpr fun item hitem => by simp [wanted_isSites item hitem]
      rw [← hremoved.countP_eq, hcount, countP_isSites_insertSites] at hnone
      omega
    · cases allowChangePassword with
      | true => exact Or.inl rfl
      | false =>
        refine Or.inr ?_
        rw [← countP_insertSites env]
        refine hpasswords ?_
        rw [hremoved.countP_eq]
        exact wanted_isChangePassword rfl
  · intro h
    have hfound := getNavItem_found (typed_insertSites h.each)
    obtain ⟨idx, hget⟩ : ∃ idx, getNavItem CHANGE_PASSWORD
        (items.foldl (nextLoop path env support) {}).insertSites = some idx := by
      refine Option.isSome_iff_exists.mp (hfound.isSome_iff.mpr ?_)
      rw [find?_insertSites]
      exact h.anchors
    rw [hget] at hfound
    obtain ⟨-, hfilter, -⟩ := hfound.removeItem allowChangePassword
    have hremoved := filter_insertSites_perm path env support allowChangePassword h.single
    rw [← hfilter (by rw [countP_insertSites]; exact h.passwords)] at hremoved
    obtain ⟨path', hrun⟩ := (processNavigation_iff _).mpr
      ⟨h.each, (finish_eq_some (sort_sites items)).mpr ⟨idx, hget, h.labelled.perm hremoved.symm, rfl⟩⟩
    have hperm := (sort_perm _).trans hremoved
    refine ⟨_, path', hrun, hperm, StableSort.pairwise_sort compareLabels_trans _, fun item hitem => ?_⟩
    have hnot := wanted_isSites item (hperm.mem_iff.mp hitem)
    simpa [isSites] using hnot

def guiPath : Path where
  paths := { guiPath := "/gui", servicePath := "/rest", guiPath_ne := by decide, servicePath_ne := by decide }
  rootPath := "/gui"
  info := { currentSite := "main", pathElements := ["", "gui"] }

def loggedIn : Env := { subject := some { hasApplication := fun _ => true }, sites := [] }

def noParameters : ParameterSupport := dollar false fun _ => none

def homeAnchor : NavigationItem := { type := some .anchor, ref := some "home", label := some "Home" }

/-- An anchor without an action value: the search for the one for the password throws, also where it is allowed. -/
theorem homeAnchor_not_processed : ¬ Processed guiPath loggedIn noParameters true [homeAnchor] := by
  rintro ⟨result, path', hrun, -⟩
  have hthrown : (processNavigation loggedIn noParameters true [homeAnchor] guiPath).isNone := by decide +kernel
  rw [hrun] at hthrown
  cases hthrown

end Navigation
end Gui
end AppNG
