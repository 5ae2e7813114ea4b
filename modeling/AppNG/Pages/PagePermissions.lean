import AppNG.Pages.Provider
import Mathlib.Tactic.ByContra

/-!
# Pages.PagePermissions

Which page `process` and `processPage` show.

The permissions are checked once, on the selected page. If they are missing the default page is
built unchecked, under the id, the type, the configuration and the URL schema of the page that
was refused (`finishPage_guarded_iff`). So the two methods keep `PageGuarded` exactly when the
selected page is permitted, or, in `process`, when a redirect comes first.
-/

namespace AppNG
namespace Pages

def Permitted (rq : Request) (page : PageDefinition) : Prop :=
  rq.hasPermissions (.ofPage page) = true

/-- Neither the requested page nor the default page exists and is permitted. -/
structure NonePermitted (rq : Request) (pageId : Option String) : Prop where
  requested : ∀ id page, pageId = some id → rq.config.getPage (some id) = some page →
    ¬ Permitted rq page
  default : ∀ page, rq.config.getPage rq.config.getDefaultPage = some page → ¬ Permitted rq page

/-- A structure is only built of a permitted page, under the data of that page; if there is no
permitted page, none is built and nothing is thrown. -/
structure PageGuarded (rq : Request) (pageId : Option String)
    (outcome : Except Failure Processed) : Prop where
  permitted : ∀ pr page, outcome = .ok pr → pr.builtFrom = some page → Permitted rq page
  belongs : ∀ pr page, outcome = .ok pr → pr.builtFrom = some page →
    pr.urlSchema = some page.config.urlSchema ∧
      ∃ ref, pr.pageReference = some ref ∧ ref.id = page.id ∧ ref.type = page.type ∧
        ref.config = some page.config
  refused : NonePermitted rq pageId → ∃ pr, outcome = .ok pr ∧ pr.builtFrom = none

variable {rq : Request} {pageId id : Option String} {page : PageDefinition} {isDefault : Bool}

/-- What the selection knows: the page is registered under the selected id, which is the requested
one or that of the default page. -/
theorem selectPage_some {config : ApplicationConfigProvider}
    (h : selectPage config pageId = (some page, id, isDefault)) :
    config.getPage id = some page ∧ page.id = id ∧
      ((isDefault = false ∧ pageId = id ∧ id.isSome) ∨
        (isDefault = true ∧ id = config.getDefaultPage)) := by
  have key : config.getPage id = some page ∧
      ((isDefault = false ∧ pageId = id ∧ id.isSome) ∨
        (isDefault = true ∧ id = config.getDefaultPage)) := by
    cases pageId with
    | none =>
      simp only [selectPage, Prod.mk.injEq] at h
      obtain ⟨hp, rfl, rfl⟩ := h
      exact ⟨hp, .inr ⟨rfl, rfl⟩⟩
    | some requested =>
      simp only [selectPage] at h
      split at h
      · rename_i hfound
        simp only [Prod.mk.injEq] at h
        obtain ⟨hp, rfl, rfl⟩ := h
        exact ⟨hfound.trans hp, .inl ⟨rfl, rfl, rfl⟩⟩
      · simp only [Prod.mk.injEq] at h
        obtain ⟨hp, rfl, rfl⟩ := h
        exact ⟨hp, .inr ⟨rfl, rfl⟩⟩
  exact ⟨key.1, config.page_id key.1, key.2⟩

theorem selected_refused (h : selectPage rq.config pageId = (some page, id, isDefault))
    (hnone : NonePermitted rq pageId) : ¬ Permitted rq page := by
  obtain ⟨hpage, _, ⟨_, rfl, hsome⟩ | ⟨_, rfl⟩⟩ := selectPage_some h
  · obtain ⟨requested, rfl⟩ := Option.isSome_iff_exists.mp hsome
    exact hnone.requested requested page rfl hpage
  · exact hnone.default page hpage

theorem guarded_of_unbuilt {pr : Processed} (h : pr.builtFrom = none) :
    PageGuarded rq pageId (.ok pr) where
  permitted := by
    rintro _ page ⟨⟩ hb
    rw [h] at hb
    cases hb
  belongs := by
    rintro _ page ⟨⟩ hb
    rw [h] at hb
    cases hb
  refused := fun _ => ⟨pr, rfl, h⟩

theorem finishPage_permitted {inc : Included}
    (h : selectPage rq.config pageId = (some page, id, isDefault)) (hp : Permitted rq page) :
    PageGuarded rq pageId (finishPage rq inc (referenceTo page) page.config.urlSchema
      (permittedOrDefault rq page)) := by
  have hpage : permittedOrDefault rq page = some page := if_pos hp
  rw [hpage]
  constructor
  · rintro _ _ ⟨⟩ ⟨⟩
    exact hp
  · rintro _ _ ⟨⟩ ⟨⟩
    exact ⟨rfl, _, rfl, rfl, rfl, rfl⟩
  · intro hnone
    exact absurd hp (selected_refused h hnone)

theorem finishPage_forbidden {inc : Included}
    (h : selectPage rq.config pageId = (some page, id, isDefault)) (hp : ¬ Permitted rq page) :
    ¬ PageGuarded rq pageId (finishPage rq inc (referenceTo page) page.config.urlSchema
      (permittedOrDefault rq page)) := by
  intro hg
  have hpage : permittedOrDefault rq page = rq.config.getPage rq.config.getDefaultPage := if_neg hp
  rw [hpage] at hg
  obtain ⟨hreg, hid, hsel⟩ := selectPage_some h
  cases hd : rq.config.getPage rq.config.getDefaultPage with
  | none =>
    rw [hd] at hg
    -- the requested page is refused and there is no default page, yet the method throws
    have hnone : NonePermitted rq pageId := by
      refine ⟨?_, fun p hp' => by rw [hd] at hp'; cases hp'⟩
      rintro requested p rfl hp'
      rcases hsel with ⟨_, rfl, _⟩ | ⟨_, rfl⟩
      · rw [hreg] at hp'
        cases hp'
        exact hp
      · rw [hd] at hreg
        cases hreg
    obtain ⟨pr, hpr, _⟩ := hg.refused hnone
    cases hpr
  | some dflt =>
    rw [hd] at hg
    -- the default page is built under the id of the refused page
    have hperm : Permitted rq dflt := hg.permitted _ dflt rfl rfl
    obtain ⟨_, ref, href, hrefId, _⟩ := hg.belongs _ dflt rfl rfl
    cases href
    have hsame : id = rq.config.getDefaultPage := by
      rw [← hid, ← rq.config.page_id hd]
      exact hrefId
    rw [hsame, hd] at hreg
    cases hreg
    exact hp hperm

theorem finishPage_guarded_iff {inc : Included}
    (h : selectPage rq.config pageId = (some page, id, isDefault)) :
    PageGuarded rq pageId (finishPage rq inc (referenceTo page) page.config.urlSchema
      (permittedOrDefault rq page)) ↔ Permitted rq page :=
  ⟨fun hg => by_contra fun hp => finishPage_forbidden h hp hg, finishPage_permitted h⟩

def SelectedPermitted (rq : Request) (pageId : Option String) : Prop :=
  ∀ page, (selectPage rq.config pageId).1 = some page → Permitted rq page

/-- `process` answers with a redirect before anything is built: the default page was taken, or a
URL parameter came out of the session. -/
def RedirectsFirst (rq : Request) (params : PageParams) (pageId : Option String) : Prop :=
  (selectPage rq.config pageId).2.2 = true ∨
    ∃ page, (selectPage rq.config pageId).1 = some page ∧
      params.urlParamsAdded page.config.urlSchema = true

theorem process_guarded_iff (params : PageParams) :
    PageGuarded rq pageId (process rq params pageId) ↔
      SelectedPermitted rq pageId ∨ RedirectsFirst rq params pageId := by
  rcases hsel : selectPage rq.config pageId with ⟨_ | page, id, isDefault⟩
  · simp only [process, hsel, SelectedPermitted, reduceCtorEq, false_implies, implies_true,
      true_or, iff_true]
    exact guarded_of_unbuilt rfl
  · by_cases hr : params.urlParamsAdded page.config.urlSchema || isDefault
    · have hfirst : RedirectsFirst rq params pageId := by
        rcases Bool.or_eq_true _ _ |>.mp hr with ha | hd
        · exact .inr ⟨page, by rw [hsel], ha⟩
        · exact .inl (by rw [hsel]; exact hd)
      simp only [process, hsel, hr, if_true, hfirst, or_true, iff_true]
      exact guarded_of_unbuilt rfl
    · have hnot : ¬ RedirectsFirst rq params pageId := by
        simp only [RedirectsFirst, hsel, Option.some.injEq, exists_eq_left']
        simpa [or_comm] using hr
      simp only [process, hsel, hr, Bool.false_eq_true, if_false, hnot, or_false]
      rw [finishPage_guarded_iff hsel]
      simp [SelectedPermitted, hsel]

theorem processPage_guarded_iff (sectionIds : List String) :
    PageGuarded rq pageId (processPage rq pageId sectionIds) ↔ SelectedPermitted rq pageId := by
  rcases hsel : selectPage rq.config pageId with ⟨_ | page, id, isDefault⟩
  · simp only [processPage, hsel, SelectedPermitted, reduceCtorEq, false_implies, implies_true,
      iff_true]
    exact guarded_of_unbuilt rfl
  · simp only [processPage, hsel]
    rw [finishPage_guarded_iff hsel]
    simp [SelectedPermitted, hsel]

/-- When the two methods show permitted pages only, under their own data. -/
theorem page_guarded_iff (rq : Request) (params : PageParams) (pageId : Option String)
    (sectionIds : List String) :
    (PageGuarded rq pageId (process rq params pageId) ↔
        SelectedPermitted rq pageId ∨ RedirectsFirst rq params pageId) ∧
      (PageGuarded rq pageId (processPage rq pageId sectionIds) ↔
        SelectedPermitted rq pageId) :=
  ⟨process_guarded_iff params, processPage_guarded_iff sectionIds⟩

/-! ## A page nobody may see -/

def forbiddenPage (id : String) : PageDefinition where
  id := some id
  type := none
  config := { permissions := [⟨id, none⟩], urlSchema := ⟨[]⟩ }
  structureDef := []

def twoPages : ApplicationConfigProvider where
  getDefaultPage := some "index"
  getPage id :=
    if id = some "index" then some (forbiddenPage "index")
    else if id = some "admin" then some (forbiddenPage "admin") else none
  getEvent _ := none
  getAction _ _ := none
  getDatasource _ := none
  page_id := by
    intro id page h
    split at h
    · cases h; exact (‹id = _›).symm
    · split at h
      · cases h; exact (‹id = some "admin"›).symm
      · cases h

/-- A request without parameters to an application whose beans do nothing. -/
def quietRequest (config : ApplicationConfigProvider) (hasPermissions : PermissionOwner → Bool) :
    Request where
  config
  hasPermissions
  parameters := []
  evaluate _ _ := true
  evaluateString _ s := s
  actionParameters _ _ := []
  processConfig _ := .ok ()
  applicationName := "app"
  replaceParameters s := s
  getData _ _ := .ok true
  performBean _ := .ok false

/-- Nothing is permitted, and the structure of the default page is built all the same, by both
methods. -/
theorem forbidden_default_built :
    let rq := quietRequest twoPages fun _ => false
    ¬ (PageGuarded rq (some "admin") (process rq ⟨fun _ => false, fun s => s⟩ (some "admin")) ∨
      PageGuarded rq (some "admin") (processPage rq (some "admin") [])) := by
  rintro rq (h | h)
  · exact Bool.false_ne_true (h.permitted _ (forbiddenPage "index") rfl rfl)
  · exact Bool.false_ne_true (h.permitted _ (forbiddenPage "index") rfl rfl)

end Pages
end AppNG
