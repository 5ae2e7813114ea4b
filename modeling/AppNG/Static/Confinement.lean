import AppNG.Static.TemplateResource
import Mathlib.Order.MinMax

/-!
# Static.Confinement

What an anonymous client reaches through `serveTemplateResource`.

* `serve_confined`: the paths that are served from one of the folders of the site, on every
  configuration.
* `serveTemplateResource_confined_iff`: there are no others.
-/

namespace AppNG
namespace Static

open FilePath

variable {regex : Regex} {apps : Applications} {cfg : SiteConfig} {request : TemplateRequest}
  {name : String}

/-- Nothing, or a whole element. -/
def AtBoundary (rest : String) : Prop := rest = "" ∨ ∃ path, rest = "/" ++ path

/-- The second element is there. If the first one has an underscore with something behind it, this
is an application of the site, and the first element, read as a regular expression, is found from
the root of the path on to the end of an element. Otherwise the second element is a folder of the
site, or the template prefix ends where an element does. -/
def Serves (regex : Regex) (apps : Applications) (request : TemplateRequest) : Prop :=
  match request.elements with
  | first :: folder :: _ =>
    match Java.split '_' first with
    | _ :: name :: _ =>
      name ∈ apps.names ∧ ∃ before after,
        regex.find ("/" ++ first) request.servletPath = some (some (before, after)) ∧
          resolve [] (segments false before) = [] ∧ AtBoundary after
    | _ => folder ∈ templateFolders ∨ AtBoundary request.rest
  | _ => False

/-! ## The segments of a request -/

theorem segments_elements :
    segments false ("/".intercalate request.elements) =
      if request.elements = [] then [.here] else request.elements.map .name := by
  split
  · rename_i hnil
    rw [hnil]
    rfl
  · rename_i hne
    have hfree : ∀ element ∈ request.elements.map String.toList, '/' ∉ element := by
      intro element helement
      obtain ⟨e, he, rfl⟩ := List.mem_map.mp helement
      exact (request.normal e he).2.2.2
    rw [segments_posix, String.toList_intercalate]
    rw [show "/".toList = ['/'] from rfl, List.splitOn_intercalate '/' hfree (by simpa using hne),
      List.map_map]
    apply List.map_congr_left
    intro element helement
    obtain ⟨hempty, hdot, hdots, -⟩ := request.normal element helement
    exact readSegment_name ⟨hempty, hdot, hdots⟩

theorem up_not_mem_servletPath : .up ∉ segments false request.servletPath := by
  have hsplit : request.servletPath = "" ++ "/" ++ "/".intercalate request.elements := by
    simp [TemplateRequest.servletPath]
  rw [hsplit, segments_append, segments_elements]
  split <;> simp [segments, readSegment]

/-- What follows a slash in the path does not go up. -/
theorem up_not_mem_of_servletPath {before path : String}
    (h : request.servletPath = before ++ "/" ++ path) : .up ∉ segments false path := by
  have hno := @up_not_mem_servletPath request
  rw [h, segments_append, List.mem_append, not_or] at hno
  exact hno.2

theorem split_servletPath {first : String} {elements : List String}
    (h : request.elements = first :: elements) :
    Java.split '/' request.servletPath = "" :: first :: elements := by
  have hne : first :: elements ≠ [] := List.cons_ne_nil _ _
  have hconcat := List.dropLast_concat_getLast hne
  have hmem : ∀ element ∈ first :: elements, IsElement element := h ▸ request.normal
  have hparts : "" :: first :: elements =
      ("" :: (first :: elements).dropLast) ++ [(first :: elements).getLast hne] := by
    rw [List.cons_append, hconcat]
  rw [hparts]
  apply Java.split_join (hmem _ (List.getLast_mem hne)).1 (k := 0)
  · rw [← hparts]
    intro part hpart
    rcases List.mem_cons.mp hpart with rfl | hpart
    · simp
    · exact (hmem part hpart).2.2.2
  · rw [← hparts, TemplateRequest.servletPath, h]
    simp [String.toList_intercalate, List.intercalate_cons_cons]

/-! ## Directories -/

theorem Applications.name_ne (h : name ∈ apps.names) :
    (name ≠ "" ∧ name ≠ "." ∧ name ≠ "..") ∧ '/' ∉ name.toList ∧ '$' ∉ name.toList ∧
      '\\' ∉ name.toList := by
  have hstrict := apps.strict name h
  rw [isStrictName, Bool.and_eq_true, decide_eq_true_eq, List.all_eq_true] at hstrict
  obtain ⟨hlength, hchars⟩ := hstrict
  refine ⟨⟨?_, ?_, ?_⟩, fun hc => ?_, fun hc => ?_, fun hc => ?_⟩
  · rintro rfl; exact absurd hlength (by decide)
  · rintro rfl; exact absurd hlength (by decide)
  · rintro rfl; exact absurd hlength (by decide)
  · exact absurd (hchars _ hc) (by decide)
  · exact absurd (hchars _ hc) (by decide)
  · exact absurd (hchars _ hc) (by decide)

theorem IsPlainReplacement.append {s t : String} (hs : IsPlainReplacement s)
    (ht : IsPlainReplacement t) : IsPlainReplacement (s ++ t) := by
  unfold IsPlainReplacement
  simp [hs.1, hs.2, ht.1, ht.2]

theorem cacheRoot_plain : IsPlainReplacement cfg.cacheRoot := by
  have hslash : IsPlainReplacement "/" := by unfold IsPlainReplacement; decide
  have hwebInf : IsPlainReplacement "/WEB-INF/" := by unfold IsPlainReplacement; decide
  exact ((((hwebInf.append cfg.cacheFolder_plain).append hslash).append
    cfg.platformCacheFolder_plain).append hslash).append cfg.siteName_plain

theorem applicationRoot_plain (h : name ∈ apps.names) :
    IsPlainReplacement (cfg.applicationRoot name) := by
  have hslash : IsPlainReplacement "/" := by unfold IsPlainReplacement; decide
  have hresources : IsPlainReplacement "resources" := by unfold IsPlainReplacement; decide
  exact (((cacheRoot_plain.append hslash).append (Applications.name_ne h).2.2).append
    hslash).append hresources

/-- For an application of the site the path of the cache has no backslashes to replace. -/
theorem getRelativePlatformCache_eq (h : name ∈ apps.names) :
    getRelativePlatformCache cfg name ++ "/" ++ "resources" = cfg.applicationRoot name := by
  obtain ⟨⟨hempty, -⟩, -, -, hback⟩ := Applications.name_ne h
  have hfile : newFile cfg.cacheRoot name = cfg.cacheRoot ++ "/" ++ name := by
    rw [newFile, if_neg hempty]
  have hnone : '\\' ∉ (cfg.cacheRoot ++ "/" ++ name).toList := by
    have hroot : '\\' ∉ cfg.cacheRoot.toList := cacheRoot_plain.2
    simp [hroot, hback]
  have hmap : (cfg.cacheRoot ++ "/" ++ name).toList.map (fun c => if c = '\\' then '/' else c) =
      (cfg.cacheRoot ++ "/" ++ name).toList := by
    refine (List.map_congr_left fun c hc => ?_).trans (List.map_id _)
    have hne : c ≠ '\\' := fun hback => hnone (hback ▸ hc)
    exact if_neg hne
  have hcache : getRelativePlatformCache cfg name = cfg.cacheRoot ++ "/" ++ name := by
    rw [← String.toList_inj, ← hmap, ← hfile]
    exact String.toList_ofList
  rw [hcache]
  rfl

/-- Where the resources of an application are. -/
theorem resolve_applicationRoot (h : name ∈ apps.names) (dir : List String) :
    resolve dir (segments false (cfg.applicationRoot name)) =
      resolve dir (segments false cfg.cacheRoot) ++ [name, "resources"] := by
  obtain ⟨hname, hslash, -⟩ := Applications.name_ne h
  have hresources : segments false "resources" = [.name "resources"] :=
    segments_name (by decide) (by decide)
  unfold SiteConfig.applicationRoot
  rw [segments_append, segments_append, segments_name hname hslash, hresources, resolve_append,
    resolve_append]
  simp [resolve]

theorem inside_application_unique {path : String} (h : name ∈ apps.names)
    (hinside : Inside (cfg.applicationRoot name) path) {name' : String} (h' : name' ∈ apps.names)
    (hinside' : Inside (cfg.applicationRoot name') path) : name' = name := by
  unfold Inside at hinside hinside'
  rw [resolve_applicationRoot h] at hinside
  rw [resolve_applicationRoot h'] at hinside'
  have hlength : (resolve [] (segments false cfg.cacheRoot) ++ [name', "resources"]).length =
      (resolve [] (segments false cfg.cacheRoot) ++ [name, "resources"]).length := by simp
  have heq := (List.prefix_of_prefix_length_le hinside' hinside hlength.le).eq_of_length hlength
  have hlast := List.append_cancel_left heq
  exact (List.cons.inj hlast).1

/-- Whole elements behind a directory stay in it, if none of them is `..`. -/
theorem inside_append {directory rest : String} (hrest : AtBoundary rest)
    (hup : ∀ path, rest = "/" ++ path → .up ∉ segments false path) :
    Inside directory (directory ++ rest) := by
  unfold Inside
  rcases hrest with rfl | ⟨path, rfl⟩
  · rw [String.append_empty]
  · rw [← String.append_assoc, segments_append, resolve_append]
    exact prefix_resolve_of_no_up (hup path rfl)

theorem segments_slash (path : String) : segments false ("/" ++ path) = .here :: segments false path :=
  segments_append false "" path

/-- An absolute path behind another one. -/
theorem resolve_behind (before path : String) (dir : List String) :
    resolve dir (segments false (before ++ ("/" ++ path))) =
      resolve (resolve dir (segments false before)) (segments false ("/" ++ path)) := by
  rw [segments_slash, ← String.append_assoc, segments_append, resolve_append]
  rfl

theorem exists_cacheRoot (cfg : SiteConfig) : ∃ path, cfg.cacheRoot = "/" ++ path := by
  have hwebInf : "/WEB-INF/" = "/" ++ "WEB-INF/" := rfl
  refine ⟨"WEB-INF/" ++ (cfg.cacheFolder ++ ("/" ++ (cfg.platformCacheFolder ++ ("/" ++
    cfg.siteName)))), ?_⟩
  unfold SiteConfig.cacheRoot
  rw [hwebInf]
  simp only [String.append_assoc]

theorem exists_applicationRoot (cfg : SiteConfig) (name : String) :
    ∃ path, cfg.applicationRoot name = "/" ++ path := by
  obtain ⟨path, hpath⟩ := exists_cacheRoot cfg
  refine ⟨path ++ ("/" ++ (name ++ ("/" ++ "resources"))), ?_⟩
  unfold SiteConfig.applicationRoot
  rw [hpath]
  simp only [String.append_assoc]

/-! ## The paths that stay in the site -/

/-- A request for an application of the site. -/
theorem application_confined {first folder : String} {elements : List String} {before after : String}
    (helements : request.elements = first :: folder :: elements) {parts : List String}
    {front : String} (hsplit : Java.split '_' first = front :: name :: parts)
    (hname : name ∈ apps.names)
    (hfind : regex.find ("/" ++ first) request.servletPath = some (some (before, after)))
    (hbefore : resolve [] (segments false before) = []) (hafter : AtBoundary after) :
    Confined apps cfg
      (serveTemplateResource regex cfg request.templatePrefix request.servletPath) := by
  obtain ⟨matched, hpath⟩ := regex.find_parts hfind
  have hup : ∀ path, after = "/" ++ path → .up ∉ segments false path := by
    rintro path rfl
    have hslash : request.servletPath = (before ++ matched) ++ "/" ++ path := by
      simp only [hpath, String.append_assoc]
    exact up_not_mem_of_servletPath hslash
  have hserved : serveTemplateResource regex cfg request.templatePrefix request.servletPath =
      { created := [name], path := some (before ++ cfg.applicationRoot name ++ after) } := by
    simp only [serveTemplateResource, split_servletPath helements, hsplit,
      getRelativePlatformCache_eq hname,
      Regex.replaceFirst_matched (applicationRoot_plain hname) hfind]
  have hroot : Inside (cfg.applicationRoot name) (before ++ cfg.applicationRoot name) := by
    obtain ⟨path, hroot⟩ := exists_applicationRoot cfg name
    rw [Inside, hroot, resolve_behind, hbefore]
  have hinside : Inside (cfg.applicationRoot name) (before ++ cfg.applicationRoot name ++ after) :=
    hroot.trans (inside_append hafter hup)
  rw [hserved]
  exact ⟨fun n hn => List.mem_singleton.mp hn ▸ hname, _, rfl, .inr (.inr ⟨name, hname, hinside,
    fun name' hname' hinside' => inside_application_unique hname hinside hname' hinside'⟩)⟩

/-- What is done for a first element without a name of an application in it. -/
theorem serveTemplateResource_template {first folder : String} {elements : List String}
    (helements : request.elements = first :: folder :: elements)
    (hsplit : ∀ front name parts, Java.split '_' first ≠ front :: name :: parts) :
    serveTemplateResource regex cfg request.templatePrefix request.servletPath =
      { created := []
        path := some (if folder ∈ templateFolders then cfg.wwwRoot ++ request.servletPath
          else cfg.templateRoot ++ request.rest) } := by
  have hplain : IsPlainReplacement cfg.templateRoot :=
    (cfg.templateFolder_plain.append (by unfold IsPlainReplacement; decide)).append
      cfg.templateName_plain
  have hfind : regex.find request.templatePrefix request.servletPath =
      some (some ("", request.rest)) := by
    rw [TemplateRequest.servletPath, request.starts]
    exact regex.find_literal fun c hc => (request.plain c hc).2
  have hreplace : regex.replaceFirst request.templatePrefix cfg.templateRoot request.servletPath =
      some (cfg.templateRoot ++ request.rest) := by
    rw [Regex.replaceFirst_matched hplain hfind, String.empty_append]
  have hfall : serveTemplateResource regex cfg request.templatePrefix request.servletPath =
      if folder ∈ templateFolders then
        { created := [], path := some (cfg.wwwRoot ++ request.servletPath) }
      else
        { created := [], path := regex.replaceFirst request.templatePrefix cfg.templateRoot
            request.servletPath } := by
    simp only [serveTemplateResource, split_servletPath helements]
    cases hs : Java.split '_' first with
    | nil => rfl
    | cons front rest =>
      cases rest with
      | nil => rfl
      | cons name parts => exact absurd hs (hsplit front name parts)
  rw [hfall, hreplace]
  split <;> rfl

theorem template_confined {first folder : String} {elements : List String}
    (helements : request.elements = first :: folder :: elements)
    (hsplit : ∀ front name parts, Java.split '_' first ≠ front :: name :: parts)
    (hserves : folder ∈ templateFolders ∨ AtBoundary request.rest) :
    Confined apps cfg
      (serveTemplateResource regex cfg request.templatePrefix request.servletPath) := by
  rw [serveTemplateResource_template helements hsplit]
  refine ⟨fun n hn => absurd hn List.not_mem_nil, _, rfl, ?_⟩
  split
  · refine .inr (.inl (inside_append (.inr ⟨_, rfl⟩) fun path hpath => ?_))
    have hslash : request.servletPath = "" ++ "/" ++ path := by rw [hpath]; rfl
    exact up_not_mem_of_servletPath hslash
  · rename_i hfolder
    refine .inl (inside_append (hserves.resolve_left hfolder) fun path hpath => ?_)
    have hslash : request.servletPath = request.templatePrefix ++ "/" ++ path := by
      rw [TemplateRequest.servletPath, request.starts, hpath, String.append_assoc]
    exact up_not_mem_of_servletPath hslash

theorem serve_confined (h : Serves regex apps request) (cfg : SiteConfig) :
    Confined apps cfg
      (serveTemplateResource regex cfg request.templatePrefix request.servletPath) := by
  unfold Serves at h
  split at h
  · rename_i first folder elements helements
    split at h
    · rename_i front name parts hsplit
      obtain ⟨hname, before, after, hfind, hbefore, hafter⟩ := h
      exact application_confined helements hsplit hname hfind hbefore hafter
    · rename_i hsplit
      exact template_confined helements hsplit h
  · exact h.elim

/-! ## A site whose folders have names of their own -/

def fresh (n : Nat) : String := String.ofList (List.replicate (n + 1) 'a')

theorem mem_fresh {n : Nat} {c : Char} (h : c ∈ (fresh n).toList) : c = 'a' := by
  rw [fresh, String.toList_ofList] at h
  exact List.eq_of_mem_replicate h

theorem fresh_inj {n m : Nat} (h : fresh n = fresh m) : n = m := by
  have hlength := congrArg (fun s => s.toList.length) h
  simp only [fresh, String.toList_ofList, List.length_replicate] at hlength
  omega

theorem fresh_ne {n : Nat} {s : String} (h : s.toList.head? ≠ some 'a') : fresh n ≠ s := by
  rintro rfl
  exact h (by simp [fresh, List.replicate_succ])

theorem fresh_plain (n : Nat) : IsPlainReplacement (fresh n) :=
  ⟨fun h => absurd (mem_fresh h) (by decide), fun h => absurd (mem_fresh h) (by decide)⟩

theorem segments_fresh (n : Nat) : segments false (fresh n) = [.name (fresh n)] :=
  segments_name ⟨fresh_ne (by decide), fresh_ne (by decide), fresh_ne (by decide)⟩
    fun h => absurd (mem_fresh h) (by decide)

theorem exists_fresh (used : List String) : ∃ n, ∀ m, n ≤ m → fresh m ∉ used := by
  induction used with
  | nil => exact ⟨0, fun m _ => List.not_mem_nil⟩
  | cons s used ih =>
    obtain ⟨n, hn⟩ := ih
    refine ⟨max n s.toList.length, fun m hm hmem => ?_⟩
    rcases List.mem_cons.mp hmem with rfl | hmem
    · simp only [fresh, String.toList_ofList, List.length_replicate] at hm
      omega
    · exact hn m (le_of_max_le_left hm) hmem

def probe (n : Nat) : SiteConfig where
  repoPath := fresh (n + 1)
  siteName := fresh (n + 1)
  wwwDir := "/" ++ fresh (n + 1)
  templateFolder := "/" ++ fresh n
  templateName := fresh n
  cacheFolder := fresh (n + 2)
  platformCacheFolder := fresh (n + 2)
  templateFolder_plain :=
    IsPlainReplacement.append (by unfold IsPlainReplacement; decide) (fresh_plain n)
  templateName_plain := fresh_plain n
  siteName_plain := fresh_plain (n + 1)
  cacheFolder_plain := fresh_plain (n + 2)
  platformCacheFolder_plain := fresh_plain (n + 2)

theorem resolve_templateRoot (n : Nat) :
    resolve [] (segments false (probe n).templateRoot) = [fresh n, fresh n] := by
  simp only [SiteConfig.templateRoot, probe]
  rw [segments_append, segments_slash, segments_fresh]
  rfl

theorem resolve_wwwRoot (n : Nat) :
    resolve [] (segments false (probe n).wwwRoot) =
      [fresh (n + 1), fresh (n + 1), fresh (n + 1)] := by
  simp only [SiteConfig.wwwRoot, probe]
  rw [← String.append_assoc, segments_append, segments_append, segments_slash, segments_fresh]
  rfl

theorem resolve_cacheRoot (n : Nat) (dir : List String) :
    resolve dir (segments false (probe n).cacheRoot) =
      dir ++ ["WEB-INF", fresh (n + 2), fresh (n + 2), fresh (n + 1)] := by
  have hwebInf : segments false ("/WEB-INF/" ++ fresh (n + 2)) =
      [.here, .name "WEB-INF", .name (fresh (n + 2))] := by
    have hslash : "/WEB-INF/" ++ fresh (n + 2) = "/WEB-INF" ++ "/" ++ fresh (n + 2) := by
      rw [show "/WEB-INF/" = "/WEB-INF" ++ "/" from rfl]
    rw [hslash, segments_append, segments_fresh]
    rfl
  simp only [SiteConfig.cacheRoot, probe]
  rw [segments_append, segments_append, hwebInf, segments_fresh, segments_fresh]
  simp [resolve]

/-- What is confined on this site is below one of these directories. -/
theorem confined_probe {n : Nat} {served : Served} (h : Confined apps (probe n) served) :
    ∃ path, served.path = some path ∧
      ([fresh n, fresh n] <+: resolve [] (segments false path) ∨
        [fresh (n + 1)] <+: resolve [] (segments false path) ∨
        ∃ name ∈ apps.names,
          ["WEB-INF", fresh (n + 2), fresh (n + 2), fresh (n + 1), name, "resources"] <+:
            resolve [] (segments false path)) := by
  obtain ⟨-, path, hpath, hinside⟩ := h
  refine ⟨path, hpath, ?_⟩
  rcases hinside with htemplate | hwww | ⟨name, hname, happlication, -⟩
  · rw [Inside, resolve_templateRoot] at htemplate
    exact .inl htemplate
  · rw [Inside, resolve_wwwRoot] at hwww
    exact .inr (.inl ((List.prefix_append [_] _).trans hwww))
  · rw [Inside, resolve_applicationRoot hname, resolve_cacheRoot] at happlication
    exact .inr (.inr ⟨name, hname, happlication⟩)

/-! ## The paths that leave it -/

theorem resolve_names {path : List String} :
    ∀ {dir : List String}, resolve dir (path.map .name) = dir ++ path := by
  induction path with
  | nil => intro dir; simp [resolve]
  | cons name path ih => intro dir; simp [resolve, ih]

/-- Text behind a name goes on with the name as far as its first slash. -/
theorem partial_name {s after : String} {c : Char} (hs : s.toList.head? = some c) (hc : c ≠ '.')
    (hslash : '/' ∉ s.toList)
    (hup : ∀ {before path}, after = before ++ "/" ++ path → .up ∉ segments false path) :
    ∃ x, (x = "" → AtBoundary after) ∧
      ∀ dir, dir ++ [s ++ x] <+: resolve dir (segments false (s ++ after)) := by
  have hname : ∀ {x : String}, '/' ∉ x.toList → segments false (s ++ x) = [.name (s ++ x)] := by
    intro x hx
    have hhead : (s ++ x).toList.head? = some c := by
      rw [String.toList_append, List.head?_append, hs]
      rfl
    refine segments_name ⟨?_, ?_, ?_⟩ (by simp [hslash, hx])
    · intro heq
      rw [heq] at hhead
      cases hhead
    · intro heq
      rw [heq] at hhead
      exact hc (Option.some.inj hhead).symm
    · intro heq
      rw [heq] at hhead
      exact hc (Option.some.inj hhead).symm
  by_cases hmem : '/' ∈ after.toList
  · obtain ⟨xs, ps, hsplit, hxs⟩ := List.eq_append_cons_of_mem hmem
    have hafter : after = String.ofList xs ++ "/" ++ String.ofList ps := by
      rw [← String.toList_inj, hsplit]
      simp
    refine ⟨String.ofList xs, fun h => .inr ⟨String.ofList ps, ?_⟩, fun dir => ?_⟩
    · rw [hafter, h]
      rfl
    · have hx : '/' ∉ (String.ofList xs).toList := by rwa [String.toList_ofList]
      have hwhole : s ++ after = (s ++ String.ofList xs) ++ "/" ++ String.ofList ps := by
        rw [hafter]
        simp only [String.append_assoc]
      rw [hwhole, segments_append, hname hx]
      exact prefix_resolve_of_no_up (hup hafter)
  · refine ⟨after, fun h => .inl h, fun dir => ?_⟩
    rw [hname hmem]
    exact List.prefix_refl _

theorem eq_empty_of_append {s x : String} (h : s = s ++ x) : x = "" := by
  have hlist := congrArg String.toList h
  rw [String.toList_append, List.self_eq_append_right] at hlist
  exact String.toList_eq_nil_iff.mp hlist

theorem resolve_servletPath {first : String} {elements : List String}
    (h : request.elements = first :: elements) :
    resolve [] (segments false request.servletPath) = first :: elements := by
  have hne : ¬ request.elements = [] := by simp [h]
  rw [TemplateRequest.servletPath, segments_slash, segments_elements, if_neg hne]
  rw [show ∀ path : List (Segment String), resolve [] (.here :: path) = resolve [] path from
    fun _ => rfl, resolve_names, h]
  rfl

/-- A path that is served as it is. -/
theorem not_confined_unmatched {first : String} {elements : List String} {n : Nat}
    {created : List String} (helements : request.elements = first :: elements)
    (hwebInf : first ≠ "WEB-INF") (hfresh : ∀ m, n ≤ m → fresh m ∉ [first]) :
    ¬ Confined apps (probe n) { created, path := some request.servletPath } := by
  intro h
  obtain ⟨path, hpath, hinside⟩ := confined_probe h
  cases hpath
  rw [resolve_servletPath helements] at hinside
  rcases hinside with htemplate | hwww | ⟨name, -, happlication⟩
  · exact hfresh n le_rfl (List.mem_singleton.mpr (List.cons_prefix_cons.mp htemplate).1)
  · exact hfresh (n + 1) (by omega) (List.mem_singleton.mpr (List.cons_prefix_cons.mp hwww).1)
  · exact hwebInf (List.cons_prefix_cons.mp happlication).1.symm

/-- Where a path leads into which the root of an application has been put. -/
theorem resolve_with_applicationRoot {before after : String} {n : Nat} (hname : name ∈ apps.names) :
    resolve [] (segments false (before ++ (probe n).applicationRoot name ++ after)) =
      resolve (resolve [] (segments false before) ++
        ["WEB-INF", fresh (n + 2), fresh (n + 2), fresh (n + 1), name])
        (segments false ("resources" ++ after)) := by
  obtain ⟨⟨hempty, hdot, hdots⟩, hslash, -⟩ := Applications.name_ne hname
  obtain ⟨path, hcache⟩ := exists_cacheRoot (probe n)
  have htext : before ++ (probe n).applicationRoot name ++ after =
      (before ++ (probe n).cacheRoot) ++ "/" ++ name ++ "/" ++ ("resources" ++ after) := by
    unfold SiteConfig.applicationRoot
    simp only [String.append_assoc]
  rw [htext, segments_append, segments_append, resolve_append, resolve_append, hcache,
    resolve_behind, ← hcache, resolve_cacheRoot, segments_name ⟨hempty, hdot, hdots⟩ hslash]
  simp [resolve]

/-- The folder of an application between two parts of the path. -/
theorem boundaries_of_confined {before after : String} {n : Nat} {created : List String}
    (hfresh : ∀ m, n ≤ m → fresh m ∉ names (segments false before))
    (hname : name ∈ apps.names)
    (hup : ∀ {before path}, after = before ++ "/" ++ path → .up ∉ segments false path)
    (h : Confined apps (probe n)
      { created, path := some (before ++ (probe n).applicationRoot name ++ after) }) :
    resolve [] (segments false before) = [] ∧ AtBoundary after := by
  obtain ⟨path, hpath, hinside⟩ := confined_probe h
  cases hpath
  obtain ⟨x, hx, hprefix⟩ := partial_name (s := "resources") rfl (by decide) (by decide) hup
  have hlonger : resolve [] (segments false before) ++
      ["WEB-INF", fresh (n + 2), fresh (n + 2), fresh (n + 1), name, "resources" ++ x] <+:
        resolve [] (segments false (before ++ (probe n).applicationRoot name ++ after)) := by
    rw [resolve_with_applicationRoot hname]
    simpa using hprefix (resolve [] (segments false before) ++
      ["WEB-INF", fresh (n + 2), fresh (n + 2), fresh (n + 1), name])
  have hmem : ∀ d ∈ resolve [] (segments false before), d ∈ names (segments false before) :=
    fun d hd => (resolve_mem hd).resolve_left List.not_mem_nil
  generalize hfinal : resolve [] (segments false (before ++ (probe n).applicationRoot name ++ after)) =
    final at hinside hlonger
  generalize hdir : resolve [] (segments false before) = dir at hlonger hmem ⊢
  -- the directory of the site and the path served are both beginnings of where it leads
  have hcompare : ∀ {directory : List String}, directory.length ≤ 6 → directory <+: final →
      directory <+: dir ++
        ["WEB-INF", fresh (n + 2), fresh (n + 2), fresh (n + 1), name, "resources" ++ x] := by
    intro directory hlength hdirectory
    refine List.prefix_of_prefix_length_le hdirectory hlonger ?_
    rw [List.length_append]
    exact hlength.trans (Nat.le_add_left 6 _)
  have hwebInf : ∀ m, fresh m ≠ "WEB-INF" := fun m => fresh_ne (by decide)
  cases dir with
  | nil =>
    rcases hinside with htemplate | hwww | ⟨name', -, happlication⟩
    · exact absurd (List.cons_prefix_cons.mp (hcompare (by simp) htemplate)).1 (hwebInf n)
    · exact absurd (List.cons_prefix_cons.mp (hcompare (by simp) hwww)).1 (hwebInf (n + 1))
    · have heq := (hcompare (by simp) happlication).eq_of_length (by simp)
      simp only [List.nil_append, List.cons.injEq, and_true, true_and] at heq
      exact ⟨rfl, hx (eq_empty_of_append heq.2)⟩
  | cons d dir =>
    rcases hinside with htemplate | hwww | ⟨name', -, happlication⟩
    · obtain ⟨rfl, -⟩ := List.cons_prefix_cons.mp (hcompare (by simp) htemplate)
      exact absurd (hmem _ List.mem_cons_self) (hfresh n le_rfl)
    · obtain ⟨rfl, -⟩ := List.cons_prefix_cons.mp (hcompare (by simp) hwww)
      exact absurd (hmem _ List.mem_cons_self) (hfresh (n + 1) (by omega))
    · obtain ⟨-, hrest⟩ := List.cons_prefix_cons.mp (hcompare (by simp) happlication)
      cases dir with
      | nil => exact absurd (List.cons_prefix_cons.mp hrest).1 (hwebInf (n + 2))
      | cons d' dir =>
        obtain ⟨rfl, -⟩ := List.cons_prefix_cons.mp hrest
        exact absurd (hmem _ (by simp)) (hfresh (n + 2) (by omega))

/-- A name of an application in the first element, which is not found as a whole from the root. -/
theorem application_serves {first folder : String} {elements : List String}
    (helements : request.elements = first :: folder :: elements) {parts : List String}
    {front : String} (hsplit : Java.split '_' first = front :: name :: parts)
    (h : ∀ cfg, Confined apps cfg
      (serveTemplateResource regex cfg request.templatePrefix request.servletPath)) :
    name ∈ apps.names ∧ ∃ before after,
      regex.find ("/" ++ first) request.servletPath = some (some (before, after)) ∧
        resolve [] (segments false before) = [] ∧ AtBoundary after := by
  have hserved : ∀ cfg, serveTemplateResource regex cfg request.templatePrefix request.servletPath =
      { created := [name]
        path := regex.replaceFirst ("/" ++ first)
          (getRelativePlatformCache cfg name ++ "/" ++ "resources") request.servletPath } := by
    intro cfg
    simp only [serveTemplateResource, split_servletPath helements, hsplit]
  have hname : name ∈ apps.names := by
    have hcreated := (h (probe 0)).created
    rw [hserved] at hcreated
    exact hcreated name List.mem_cons_self
  have hplain : ∀ n, IsPlainReplacement ((probe n).applicationRoot name) :=
    fun n => applicationRoot_plain hname
  refine ⟨hname, ?_⟩
  cases hfind : regex.find ("/" ++ first) request.servletPath with
  | none =>
    -- not a pattern
    obtain ⟨path, hpath, -⟩ := confined_probe (h (probe 0))
    rw [hserved, getRelativePlatformCache_eq hname, Regex.replaceFirst_invalid (hplain 0) hfind]
      at hpath
    cases hpath
  | some found =>
    cases found with
    | none =>
      -- no match: the path itself is served
      obtain ⟨n, hn⟩ := exists_fresh [first]
      have hconfined := h (probe n)
      rw [hserved, getRelativePlatformCache_eq hname,
        Regex.replaceFirst_unmatched (hplain n) hfind] at hconfined
      have hwebInf : first ≠ "WEB-INF" := by
        rintro rfl
        rw [show Java.split '_' "WEB-INF" = ["WEB-INF"] by decide +kernel] at hsplit
        cases hsplit
      exact absurd hconfined (not_confined_unmatched helements hwebInf hn)
    | some found =>
      obtain ⟨before, after⟩ := found
      obtain ⟨n, hn⟩ := exists_fresh (names (segments false before))
      have hconfined := h (probe n)
      rw [hserved, getRelativePlatformCache_eq hname,
        Regex.replaceFirst_matched (hplain n) hfind] at hconfined
      obtain ⟨matched, hpath⟩ := regex.find_parts hfind
      have hup : ∀ {front path}, after = front ++ "/" ++ path → .up ∉ segments false path := by
        intro front path hafter
        have hslash : request.servletPath = (before ++ matched ++ front) ++ "/" ++ path := by
          simp only [hpath, hafter, String.append_assoc]
        exact up_not_mem_of_servletPath hslash
      obtain ⟨hbefore, hafter⟩ := boundaries_of_confined hn hname hup hconfined
      exact ⟨before, after, rfl, hbefore, hafter⟩

/-- Text between the template prefix and the next slash becomes part of the name of the template. -/
theorem template_serves {first folder : String} {elements : List String}
    (helements : request.elements = first :: folder :: elements)
    (hsplit : ∀ front name parts, Java.split '_' first ≠ front :: name :: parts)
    (h : Confined apps (probe 0)
      (serveTemplateResource regex (probe 0) request.templatePrefix request.servletPath)) :
    folder ∈ templateFolders ∨ AtBoundary request.rest := by
  by_cases hfolder : folder ∈ templateFolders
  · exact .inl hfolder
  refine .inr ?_
  rw [serveTemplateResource_template helements hsplit, if_neg hfolder] at h
  obtain ⟨path, hpath, hinside⟩ := confined_probe h
  cases hpath
  have hup : ∀ {before path}, request.rest = before ++ "/" ++ path → .up ∉ segments false path := by
    intro before path hrest
    have hslash : request.servletPath = (request.templatePrefix ++ before) ++ "/" ++ path := by
      rw [TemplateRequest.servletPath, request.starts, hrest]
      simp only [String.append_assoc]
    exact up_not_mem_of_servletPath hslash
  obtain ⟨x, hx, hprefix⟩ := partial_name (s := fresh 0) rfl (by decide) (by decide) hup
  have htext : (probe 0).templateRoot ++ request.rest =
      "/" ++ fresh 0 ++ "/" ++ (fresh 0 ++ request.rest) := by
    simp only [SiteConfig.templateRoot, probe, String.append_assoc]
  have hlonger : [fresh 0, fresh 0 ++ x] <+:
      resolve [] (segments false ((probe 0).templateRoot ++ request.rest)) := by
    rw [htext, segments_append, segments_slash, segments_fresh, resolve_append]
    exact hprefix [fresh 0]
  have hfirst : ∀ {d : String} {directory : List String},
      d :: directory <+: resolve [] (segments false ((probe 0).templateRoot ++ request.rest)) →
        d = fresh 0 := by
    intro d directory hd
    obtain ⟨rest, hrest⟩ := hlonger
    rw [← hrest] at hd
    exact (List.cons_prefix_cons.mp hd).1
  rcases hinside with htemplate | hwww | ⟨name, -, happlication⟩
  · have heq := (List.prefix_of_prefix_length_le htemplate hlonger le_rfl).eq_of_length rfl
    simp only [List.cons.injEq, and_true, true_and] at heq
    exact hx (eq_empty_of_append heq)
  · exact absurd (fresh_inj (hfirst hwww)) (by decide)
  · exact absurd (hfirst happlication).symm (fresh_ne (by decide))

/-- The paths that an anonymous client may ask for without leaving the folders of the site. -/
theorem serveTemplateResource_confined_iff (regex : Regex) (apps : Applications)
    (request : TemplateRequest) :
    (∀ cfg, Confined apps cfg
        (serveTemplateResource regex cfg request.templatePrefix request.servletPath)) ↔
      Serves regex apps request := by
  refine ⟨fun h => ?_, fun h cfg => serve_confined h cfg⟩
  unfold Serves
  split
  · rename_i first folder elements helements
    split
    · rename_i front name parts hsplit
      exact application_serves helements hsplit h
    · rename_i hsplit
      exact template_serves helements hsplit (h (probe 0))
  · rename_i hshort
    have hnone : (serveTemplateResource regex (probe 0) request.templatePrefix
        request.servletPath).path = none := by
      cases helements : request.elements with
      | nil =>
        have hroot : Java.split '/' request.servletPath = [] := by
          rw [TemplateRequest.servletPath, helements]
          decide +kernel
        simp only [serveTemplateResource, hroot]
      | cons first elements =>
        cases elements with
        | nil => simp only [serveTemplateResource, split_servletPath helements]
        | cons folder elements => exact absurd helements (hshort first folder elements)
    obtain ⟨path, hpath, -⟩ := confined_probe (h (probe 0))
    rw [hnone] at hpath
    cases hpath

/-! ## A sibling of the template -/

/-- Text without special characters, at the start of the input. -/
def literalRegex : Regex where
  find := fun regex input =>
    if regex.toList.any isRegexChar then none
    else if regex.toList <+: input.toList then
      some (some ("", String.ofList (input.toList.drop regex.toList.length)))
    else some none
  replaceFirst := fun regex replacement input =>
    if regex.toList.any isRegexChar then none
    else if regex.toList <+: input.toList then
      some (replacement ++ String.ofList (input.toList.drop regex.toList.length))
    else some input
  find_parts := by
    intro regex input before after h
    split at h
    · cases h
    split at h
    · rename_i hprefix
      cases h
      refine ⟨regex, ?_⟩
      rw [← String.toList_inj]
      obtain ⟨rest, hrest⟩ := hprefix
      simp [← hrest]
    · cases h
  find_literal := by
    intro regex rest hplain
    have hany : ¬ regex.toList.any isRegexChar = true := by simpa using hplain
    simp [hany]
  replaceFirst_plain := by
    intro regex replacement input _
    by_cases hany : regex.toList.any isRegexChar = true
    · simp only [hany, if_true]
    · by_cases hprefix : regex.toList <+: input.toList
      · simp only [if_neg hany, if_pos hprefix, String.empty_append]
      · simp only [if_neg hany, if_neg hprefix]

theorem default_plain : ∀ s ∈ ["localhost", "/templates", "appng", "cache", "platform"],
    IsPlainReplacement s := by
  unfold IsPlainReplacement
  decide +kernel

def defaultConfig : SiteConfig where
  repoPath := "repository"
  siteName := "localhost"
  wwwDir := "/www"
  templateFolder := "/templates"
  templateName := "appng"
  cacheFolder := "cache"
  platformCacheFolder := "platform"
  templateFolder_plain := default_plain _ (by simp)
  templateName_plain := default_plain _ (by simp)
  siteName_plain := default_plain _ (by simp)
  cacheFolder_plain := default_plain _ (by simp)
  platformCacheFolder_plain := default_plain _ (by simp)

theorem sibling_normal : ∀ element ∈ ["template2", "style.css"], IsElement element := by
  unfold IsElement
  decide +kernel

theorem sibling_plain : ∀ c ∈ "/template".toList, c ≠ '_' ∧ isRegexChar c = false := by
  have hall : "/template".toList.all (fun c => c != '_' && !isRegexChar c) = true := by
    decide +kernel
  simpa using hall

theorem sibling_starts :
    "/" ++ "/".intercalate ["template2", "style.css"] = "/template" ++ "2/style.css" := by
  decide +kernel

def siblingRequest : TemplateRequest where
  templatePrefix := "/template"
  elements := ["template2", "style.css"]
  normal := sibling_normal
  plain := sibling_plain
  rest := "2/style.css"
  starts := sibling_starts

/-- The file of another template is served. -/
theorem sibling_served :
    (serveTemplateResource literalRegex defaultConfig siblingRequest.templatePrefix
        siblingRequest.servletPath).path = some "/templates/appng2/style.css" ∧
      ¬ Confined ⟨[], fun _ h => nomatch h⟩ defaultConfig
        (serveTemplateResource literalRegex defaultConfig siblingRequest.templatePrefix
          siblingRequest.servletPath) := by
  have hserved : (serveTemplateResource literalRegex defaultConfig siblingRequest.templatePrefix
      siblingRequest.servletPath).path = some "/templates/appng2/style.css" := by
    decide +kernel
  refine ⟨hserved, fun ⟨_, path, hpath, hinside⟩ => ?_⟩
  rw [hserved] at hpath
  cases hpath
  rcases hinside with htemplate | hwww | ⟨name, hname, -⟩
  · revert htemplate
    unfold Inside
    decide +kernel
  · revert hwww
    unfold Inside
    decide +kernel
  · cases hname

end Static
end AppNG
