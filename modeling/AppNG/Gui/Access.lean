import AppNG.Gui.PathInfo
import Mathlib.Data.List.Nodup

/-!
# Gui.Access

`GuiHandler.processGui`: which application a GUI path calls, and for whom.

* `Site.getApplication_eq`: the two lookups of a site find the same application.
* `processGui_processed`: what is handed to the request processor is the application the path
  names, or the default application.
* `guarded_iff`: the subject has that application whenever the path names a known site. A path
  with an unknown site is answered by the current site, without a check.
-/

namespace AppNG
namespace Gui

section

variable {R : Type}

structure Application (R : Type) where
  name : String
  roles : List R
  hidden : Bool
  deriving DecidableEq, Repr

/-- A site with its applications; a name belongs to one application. -/
structure Site (R : Type) where
  name : String
  managerPath : String
  defaultApplication : Option String
  applications : List (Application R)
  distinct : (applications.map (·.name)).Nodup

namespace Site

/-- The lookup by `getApplicationMap`, where the last entry of a name wins. -/
def getApplication (site : Site R) (name : Option String) : Option (Application R) :=
  name.bind fun n => site.applications.reverse.find? (·.name == n)

def getSiteApplication (site : Site R) (name : Option String) : Option (Application R) :=
  name.bind fun n => site.applications.find? (·.name == n)

def hasApplication (site : Site R) (name : Option String) : Bool :=
  (site.getApplication name).isSome

theorem getApplication_eq (site : Site R) (name : Option String) :
    site.getApplication name = site.getSiteApplication name := by
  cases name with
  | none => rfl
  | some n =>
    simp only [getApplication, getSiteApplication, Option.bind_some]
    cases hfirst : site.applications.find? (·.name == n) with
    | none =>
      rw [List.find?_eq_none] at hfirst ⊢
      intro a ha
      exact hfirst a (List.mem_reverse.mp ha)
    | some a =>
      have ha : a ∈ site.applications := List.mem_of_find?_eq_some hfirst
      have hna : a.name = n := by simpa using List.find?_some hfirst
      cases hlast : site.applications.reverse.find? (·.name == n) with
      | none =>
        have hnot := List.find?_eq_none.mp hlast a (List.mem_reverse.mpr ha)
        exact absurd (beq_iff_eq.mpr hna) hnot
      | some b =>
        have hb : b ∈ site.applications :=
          List.mem_reverse.mp (List.mem_of_find?_eq_some hlast)
        have hnb : b.name = n := by simpa using List.find?_some hlast
        rw [List.inj_on_of_nodup_map site.distinct hb ha (hnb.trans hna.symm)]

end Site

variable [DecidableEq R]

structure Subject (R : Type) where
  authenticated : Bool
  groups : List (List R)
  deriving DecidableEq, Repr

def Subject.hasApplication (subject : Subject R) (application : Application R) : Bool :=
  subject.groups.any fun roles => roles.any (application.roles.contains ·)

structure Environment (R : Type) where
  subject : Option (Subject R)
  sites : List (String × Site R)

def Environment.getSiteByName (env : Environment R) (name : String) : Option (Site R) :=
  env.sites.lookup name

/-- A redirect, or the application of a site in the hands of the request processor. -/
inductive Answer (R : Type) where
  | redirect (target : String)
  | processed (site : Site R) (application : Application R)

/-- The path of an application of the site that the subject may see, else the manager path. -/
def getForwardTargetForSite (managerPath : String) (site : Site R) (subject : Subject R) :
    String :=
  let visible (application : Application R) : Bool :=
    !application.hidden && subject.hasApplication application
  let targetApp :=
    match (site.getApplication site.defaultApplication).filter visible with
    | some defaultApp => some defaultApp
    | none => site.applications.find? visible
  match targetApp with
  | none => managerPath
  | some app => managerPath ++ "/" ++ site.name ++ "/" ++ app.name

def getForwardTarget (managerPath : String) (subject : Subject R) : List (Site R) → String
  | [] => managerPath
  | site :: rest =>
    let target := getForwardTargetForSite managerPath site subject
    if target = managerPath then getForwardTarget managerPath subject rest else target

/-- `AbstractRequestProcessor.getApplicationProvider`; the site is that of the
`InvalidConfigurationException`. -/
def getApplicationProvider (site : Site R) (pathInfo : PathInfo) :
    Except (Site R) (Application R) :=
  match site.getSiteApplication pathInfo.getApplicationName with
  | some application => .ok application
  | none => .error site

/-- The path with the default application, unless it names one of the site. -/
def withApplication (applicationSite : Site R) (pathInfo : PathInfo) : PathInfo :=
  if applicationSite.hasApplication pathInfo.getApplicationName then pathInfo
  else pathInfo.setApplicationName applicationSite.defaultApplication

/-- What `processGui` does once the site of the application is known. -/
def processSite (env : Environment R) (applicationSite : Site R) (isShortPath : Bool)
    (pathInfo : PathInfo) : Except (Site R) (Answer R) :=
  let pathInfo := withApplication applicationSite pathInfo
  let targetApp := applicationSite.getApplication pathInfo.getApplicationName
  match env.subject.filter (·.authenticated) with
  | some subject =>
    if !isShortPath && !(targetApp.any subject.hasApplication) then
      let managerPath := applicationSite.managerPath
      let target := getForwardTargetForSite managerPath applicationSite subject
      let remaining := (env.sites.filter (·.1 != applicationSite.name)).map (·.2)
      .ok (.redirect (if target = managerPath then
        getForwardTarget managerPath subject remaining else target))
    else (getApplicationProvider applicationSite pathInfo).map (.processed applicationSite)
  | none => (getApplicationProvider applicationSite pathInfo).map (.processed applicationSite)

def processGui (env : Environment R) (site : Site R) (pathInfo : PathInfo) :
    Except (Site R) (Answer R) :=
  match env.subject.filter (·.authenticated) with
  | some subject =>
    if pathInfo.hasSite || pathInfo.hasApplication then
      match env.getSiteByName pathInfo.getSiteName with
      | some applicationSite => processSite env applicationSite false pathInfo
      | none => processSite env site true pathInfo
    else .ok (.redirect (getForwardTargetForSite site.managerPath site subject))
  | none =>
    match env.getSiteByName pathInfo.getSiteName with
    | some applicationSite => processSite env applicationSite false pathInfo
    | none => processSite env site true pathInfo

/-- `handle`: an application that is missing on another site leads back to the manager, one that
is missing on this site to nothing but a log message. -/
def handle (env : Environment R) (site : Site R) (pathInfo : PathInfo) : Option (Answer R) :=
  match processGui env site pathInfo with
  | .ok answer => some answer
  | .error errorSite =>
    if errorSite.name = site.name then none else some (.redirect site.managerPath)

/-! ## Access -/

variable {env : Environment R} {site : Site R} {pathInfo : PathInfo} {subject : Subject R}

def targetApplication (site : Site R) (pathInfo : PathInfo) : Option (Application R) :=
  site.getApplication (withApplication site pathInfo).getApplicationName

omit [DecidableEq R] in
theorem getApplicationProvider_eq :
    getApplicationProvider site (withApplication site pathInfo) =
      match targetApplication site pathInfo with
      | some application => .ok application
      | none => .error site := by
  rw [getApplicationProvider, ← Site.getApplication_eq, targetApplication]

/-- The site a path is answered with: the one it names, or the current one. -/
def applicationSite (env : Environment R) (site : Site R) (pathInfo : PathInfo) : Site R :=
  (env.getSiteByName pathInfo.getSiteName).getD site

theorem processSite_processed {s₀ s : Site R} {app : Application R} {isShortPath : Bool}
    (hsub : env.subject.filter (·.authenticated) = some subject) :
    processSite env s₀ isShortPath pathInfo = .ok (.processed s app) ↔
      s = s₀ ∧ targetApplication s₀ pathInfo = some app ∧
        (isShortPath = false → subject.hasApplication app = true) := by
  simp only [processSite, hsub, getApplicationProvider_eq]
  rw [← targetApplication]
  cases htarget : targetApplication s₀ pathInfo with
  | none =>
    cases isShortPath <;> simp [Except.map]
  | some target =>
    cases hshort : isShortPath with
    | true =>
      simp only [Except.map, Bool.not_true, Bool.false_and, Bool.false_eq_true, if_false,
        Except.ok.injEq, Answer.processed.injEq, Option.some.injEq, reduceCtorEq,
        false_implies, and_true]
      exact and_congr_left fun _ => eq_comm
    | false =>
      by_cases happ : subject.hasApplication target = true
      · simp only [happ, Option.any_some, Bool.not_true, Bool.not_false, Bool.and_false,
          Bool.false_eq_true, if_false, Except.map, Except.ok.injEq, Answer.processed.injEq,
          Option.some.injEq, forall_const]
        constructor
        · rintro ⟨rfl, rfl⟩
          exact ⟨rfl, rfl, happ⟩
        · rintro ⟨rfl, rfl, -⟩
          exact ⟨rfl, rfl⟩
      · simp only [happ, Option.any_some, Bool.not_false, Bool.and_true, if_true, Except.ok.injEq,
          reduceCtorEq, Option.some.injEq, forall_const, false_iff]
        rintro ⟨-, rfl, h⟩
        exact happ h

/-- What is handed to the request processor is the target on the site of the application, and the
subject was asked for unless the path names no known site. -/
theorem processGui_processed {s : Site R} {app : Application R}
    (hsub : env.subject.filter (·.authenticated) = some subject) :
    processGui env site pathInfo = .ok (.processed s app) ↔
      (pathInfo.hasSite || pathInfo.hasApplication) = true ∧
        s = applicationSite env site pathInfo ∧ targetApplication s pathInfo = some app ∧
        ((env.getSiteByName pathInfo.getSiteName).isSome = true →
          subject.hasApplication app = true) := by
  simp only [processGui, hsub, applicationSite]
  by_cases hnamed : (pathInfo.hasSite || pathInfo.hasApplication) = true
  · rw [if_pos hnamed]
    cases hsite : env.getSiteByName pathInfo.getSiteName with
    | none =>
      simp only [processSite_processed hsub]
      constructor
      · rintro ⟨rfl, htarget, -⟩
        exact ⟨hnamed, rfl, htarget, fun h => by cases h⟩
      · rintro ⟨-, rfl, htarget, -⟩
        exact ⟨rfl, htarget, fun h => by cases h⟩
    | some known =>
      simp only [processSite_processed hsub]
      constructor
      · rintro ⟨rfl, htarget, happ⟩
        exact ⟨hnamed, rfl, htarget, fun _ => happ trivial⟩
      · rintro ⟨-, rfl, htarget, happ⟩
        exact ⟨rfl, htarget, fun _ => happ rfl⟩
  · rw [if_neg hnamed]
    simp [hnamed]

def Guarded (env : Environment R) (site : Site R) (pathInfo : PathInfo) (subject : Subject R) :
    Prop :=
  ∀ s app, processGui env site pathInfo = .ok (.processed s app) →
    subject.hasApplication app = true

/-- The path names a site of the platform, or no site and no application at all. -/
def NamesSite (env : Environment R) (pathInfo : PathInfo) : Prop :=
  (env.getSiteByName pathInfo.getSiteName).isSome = true ∨
    (pathInfo.hasSite || pathInfo.hasApplication) = false

/-- A path is guarded if it names a site, or if the subject happens to have the application that
it leads to on the current site. -/
theorem guarded_iff (env : Environment R) (site : Site R) (pathInfo : PathInfo)
    (subject : Subject R) (hsub : env.subject.filter (·.authenticated) = some subject) :
    Guarded env site pathInfo subject ↔ NamesSite env pathInfo ∨
      ∀ app, targetApplication site pathInfo = some app → subject.hasApplication app = true := by
  simp only [Guarded, processGui_processed hsub]
  constructor
  · intro h
    by_cases hnames : NamesSite env pathInfo
    · exact .inl hnames
    · simp only [NamesSite, not_or, Bool.not_eq_false, Option.not_isSome_iff_eq_none] at hnames
      refine .inr fun app htarget => h site app ⟨hnames.2, ?_, htarget, ?_⟩
      · rw [applicationSite, hnames.1, Option.getD_none]
      · rw [hnames.1]
        intro hsome
        cases hsome
  · rintro (hknown | hnone) s app ⟨hnamed, rfl, htarget, happ⟩
    · rcases hknown with hknown | hnot
      · exact happ hknown
      · rw [hnot] at hnamed
        cases hnamed
    · cases hsite : env.getSiteByName pathInfo.getSiteName with
      | some known => exact happ (by rw [hsite]; rfl)
      | none =>
        rw [applicationSite, hsite, Option.getD_none] at htarget
        exact hnone app htarget

end

/-! ## Two applications of one site -/

def samplePaths : SitePaths := ⟨"/manager", "/service", by decide, by decide⟩

def editor : Subject Nat := ⟨true, [[1]]⟩

def mainSite : Site Nat where
  name := "main"
  managerPath := "/manager"
  defaultApplication := some "news"
  applications := [⟨"news", [1], false⟩, ⟨"accounts", [2], false⟩]
  distinct := by decide

def mainEnvironment : Environment Nat := ⟨some editor, [("main", mainSite)]⟩

theorem known_site_guarded :
    ∃ pathInfo, PathInfo.parse samplePaths "main" "/manager/main/accounts" = some pathInfo ∧
      Guarded mainEnvironment mainSite pathInfo editor :=
  ⟨_, rfl, (guarded_iff mainEnvironment mainSite _ editor rfl).mpr (.inl (.inl rfl))⟩

/-- With an unknown site in its path the editor gets an application of role 2. -/
theorem unknown_site_unguarded :
    ∃ pathInfo, PathInfo.parse samplePaths "main" "/manager/nowhere/accounts" = some pathInfo ∧
      ¬ Guarded mainEnvironment mainSite pathInfo editor := by
  refine ⟨_, rfl, fun h => ?_⟩
  have happ := h mainSite ⟨"accounts", [2], false⟩ rfl
  exact absurd happ (by decide)

end Gui
end AppNG
