import AppNG.Gui.PathInfo
import Mathlib.Data.List.DropRight

/-!
# Gui.PathParts

The parts that a `PathInfo` tells of a path below the manager path, and the path itself.

* `parse_eq_none_iff`: no `PathInfo` can be made if and only if there is a single element behind the
  manager path, and this is an output.
* `parts_eq`: the parts are the elements, each once and in order.
* `path_parts_iff`: a `PathInfo` is made whose parts reassemble to the path, if and only if the path
  is no such one.
-/

namespace AppNG
namespace Gui

/-- One segment of a path. -/
structure Segment where
  name : String
  nonempty : name ≠ ""
  single : '/' ∉ name.toList

def Segment.path (segment : Segment) : String := "/" ++ segment.name

theorem Segment.path_ne (segment : Segment) : segment.path ≠ "" := by
  intro h
  have hlist := congrArg String.toList h
  simp [Segment.path] at hlist

/-- The manager path and the service path of a site are single segments. -/
structure SegmentPaths where
  manager : Segment
  service : Segment

def SegmentPaths.toSitePaths (paths : SegmentPaths) : SitePaths where
  guiPath := paths.manager.path
  servicePath := paths.service.path
  guiPath_ne := paths.manager.path_ne
  servicePath_ne := paths.service.path_ne

def Below (path servletPath : String) : Prop :=
  servletPath = path ∨ ∃ rest, servletPath = path ++ "/" ++ rest

/-- Behind the manager path is a single element, and it is an output. -/
def LoneOutput (paths : SitePaths) (servletPath : String) : Prop :=
  let elements := splitPath servletPath
  elements[1]? = some (Java.tail paths.guiPath) ∧ ∃ output,
    elements.drop (elements.idxOf (Java.tail paths.guiPath) + 1) = [output] ∧
      Java.startsWith output '_' = true

/-- Manager path, output format and type, site, application, page, and its parameters. -/
def PathInfo.parts (paths : SitePaths) (p : PathInfo) : List String :=
  [Java.tail paths.guiPath] ++
    ((p.getOutputFormat paths).toList ++ (p.getOutputType paths).toList).map ("_" ++ ·) ++
    (if p.hasSite then [p.getSiteName] else []) ++ p.getApplicationName.toList ++ p.getPage.toList ++
    p.getApplicationUrlParameters paths

/-- Behind the parts are only what follows a `#` in the last one, and slashes. -/
structure Reassembles (paths : SitePaths) (p : PathInfo) (servletPath : String) : Prop where
  single : ∀ part ∈ p.parts paths, '/' ∉ part.toList
  joined : ∃ anchor slashes, servletPath =
      String.join ((p.parts paths).map ("/" ++ ·)) ++ anchor ++ slashes ∧
    (anchor = "" ∨ Java.startsWith anchor '#' = true ∧ '/' ∉ anchor.toList) ∧
    ∀ c ∈ slashes.toList, c = '/'

/-! ## When it throws -/

theorem siteIndex_eq_none {elements : List String} {idx : Nat} (h : idx < elements.length) :
    PathInfo.siteIndex elements idx = none ↔
      ∃ output, elements.drop idx = [output] ∧ Java.startsWith output '_' = true := by
  have hget := List.getElem?_eq_getElem h
  have hdrop := List.drop_eq_getElem_cons h
  generalize elements[idx] = output at hget hdrop
  unfold PathInfo.siteIndex
  simp only [hget, hdrop]
  cases hout : Java.startsWith output '_' with
  | false => simp [hout]
  | true =>
    cases hnext : elements[idx + 1]? with
    | none =>
      have hnil : elements.drop (idx + 1) = [] :=
        List.drop_eq_nil_iff.mpr (List.getElem?_eq_none_iff.mp hnext)
      simp [hnil, hout]
    | some next =>
      have hlt : idx + 1 < elements.length := (List.getElem?_eq_some_iff.mp hnext).1
      have hne : elements.drop (idx + 1) ≠ [] := fun hnil =>
        absurd (List.drop_eq_nil_iff.mp hnil) (Nat.not_le.mpr hlt)
      simp [hne]

theorem hasElementAt_some (p : PathInfo) (idx : Nat) :
    p.hasElementAt (some idx) = true ↔ idx < p.pathElements.length := by
  simp [PathInfo.hasElementAt, PathInfo.getElementAt]

theorem parse_eq_none_iff (paths : SitePaths) (currentSite servletPath : String) :
    PathInfo.parse paths currentSite servletPath = none ↔ LoneOutput paths servletPath := by
  unfold PathInfo.parse LoneOutput
  simp only [hasElementAt_some]
  generalize splitPath servletPath = elements
  by_cases hgui : elements[1]? = some (Java.tail paths.guiPath)
  · simp only [hgui, if_true, true_and]
    generalize elements.idxOf (Java.tail paths.guiPath) + 1 = idx
    by_cases hidx : idx < elements.length
    · rw [if_pos hidx, ← siteIndex_eq_none hidx]
      cases PathInfo.siteIndex elements idx <;> simp
    · rw [if_neg hidx, List.drop_eq_nil_iff.mpr (Nat.le_of_not_lt hidx)]
      simp
  · simp only [hgui, if_false, false_and, iff_false]
    split <;> exact Option.some_ne_none _

/-! ## The parts -/

/-- What is found with the site at an index. -/
def PathInfo.located (currentSite : String) (elements : List String) (siteIdx : Nat) : PathInfo where
  currentSite := currentSite
  pathElements := elements
  siteIdx := some siteIdx
  applicationIdx := if siteIdx + 1 < elements.length then some (siteIdx + 1) else none
  pageIdx := if siteIdx + 2 < elements.length then some (siteIdx + 2) else none

theorem Segment.tail_path (segment : Segment) : Java.tail segment.path = segment.name := by
  simp [Java.tail, Segment.path]

theorem isGui_iff {paths : SegmentPaths} {p : PathInfo} :
    p.isGui paths.toSitePaths = true ↔ p.pathElements[1]? = some paths.manager.name := by
  rw [← paths.manager.tail_path]
  exact beq_iff_eq

section Gui

variable {paths : SegmentPaths} {currentSite servletPath : String} {more : List String}

/-- Nothing but the manager path. -/
theorem fresh_parts (elements : List String) :
    PathInfo.parts paths.toSitePaths { currentSite, pathElements := elements } =
      [paths.manager.name] := by
  have hparams : PathInfo.getApplicationUrlParameters paths.toSitePaths
      { currentSite, pathElements := elements } = [] := by
    unfold PathInfo.getApplicationUrlParameters
    split
    · rfl
    · split <;> rfl
  rw [PathInfo.parts, hparams]
  exact congrArg (· :: []) paths.manager.tail_path

theorem parse_manager (h : splitPath servletPath = "" :: paths.manager.name :: more) :
    PathInfo.parse paths.toSitePaths currentSite servletPath =
      if more = [] then some { currentSite, pathElements := splitPath servletPath }
      else (PathInfo.siteIndex (splitPath servletPath) 2).map
        (PathInfo.located currentSite (splitPath servletPath)) := by
  have htail : Java.tail paths.toSitePaths.guiPath = paths.manager.name := paths.manager.tail_path
  have hindex : (splitPath servletPath).idxOf paths.manager.name = 1 := by
    rw [h, List.idxOf_cons_ne _ (Ne.symm paths.manager.nonempty), List.idxOf_cons_self]
  have hgui : (splitPath servletPath)[1]? = some paths.manager.name := by rw [h]; rfl
  have hlength : 2 < (splitPath servletPath).length ↔ more ≠ [] := by
    rw [h, ← List.length_pos_iff]
    simp only [List.length_cons]
    omega
  unfold PathInfo.parse
  simp only [hasElementAt_some, htail, hindex, hgui, if_true, hlength]
  by_cases hmore : more = []
  · rw [if_neg (not_not.mpr hmore), if_pos hmore]
  · rw [if_pos hmore, if_neg hmore]
    cases PathInfo.siteIndex (splitPath servletPath) 2 with
    | none => rfl
    | some siteIdx =>
      simp only [Option.map_some, Option.some.injEq, PathInfo.located, PathInfo.mk.injEq, true_and,
        and_true]
      by_cases happlication : siteIdx + 1 < (splitPath servletPath).length
      · rw [if_pos happlication]
        rfl
      · rw [if_neg happlication, if_neg fun hpage => happlication (by omega)]
        rfl

theorem located_getPage (currentSite : String) (siteIdx : Nat) (elements : List String) :
    (PathInfo.located currentSite elements siteIdx).getPage = elements[siteIdx + 2]? := by
  simp only [PathInfo.getPage, PathInfo.getElementAt, PathInfo.located]
  split <;> simp_all

theorem located_params (currentSite : String) (siteIdx : Nat) {elements : List String}
    (hgui : elements[1]? = some paths.manager.name) :
    (PathInfo.located currentSite elements siteIdx).getApplicationUrlParameters paths.toSitePaths =
      elements.drop (siteIdx + 3) := by
  have hisGui : (PathInfo.located currentSite elements siteIdx).isGui paths.toSitePaths = true :=
    isGui_iff.mpr hgui
  rw [PathInfo.getApplicationUrlParameters, if_pos hisGui]
  simp only [PathInfo.elementsFrom, PathInfo.located, Bool.and_eq_true, hasElementAt_some]
  by_cases hlt : siteIdx + 3 < elements.length
  · rw [if_pos (by omega)]
    exact if_pos ⟨by omega, hlt⟩
  · rw [List.drop_eq_nil_iff.mpr (Nat.le_of_not_lt hlt)]
    by_cases hpage : siteIdx + 2 < elements.length
    · rw [if_pos hpage]
      exact if_neg fun h => hlt h.2
    · rw [if_neg hpage]

/-- Site, application, page and its parameters. -/
theorem located_parts (currentSite : String) (siteIdx : Nat) {elements : List String}
    (hgui : elements[1]? = some paths.manager.name) :
    let p := PathInfo.located currentSite elements siteIdx
    (if p.hasSite then [p.getSiteName] else []) ++ p.getApplicationName.toList ++ p.getPage.toList ++
        p.getApplicationUrlParameters paths.toSitePaths = elements.drop siteIdx := by
  intro p
  have hsite : (if p.hasSite then [p.getSiteName] else []) = elements[siteIdx]?.toList := by
    change (if elements[siteIdx]?.isSome then [elements[siteIdx]?.getD currentSite] else []) = _
    cases elements[siteIdx]? <;> rfl
  have happlication : p.getApplicationName = elements[siteIdx + 1]? := by
    simp only [p, PathInfo.getApplicationName, PathInfo.getElementAt, PathInfo.located]
    split <;> simp_all
  rw [hsite, happlication, located_getPage, located_params currentSite siteIdx hgui,
    List.append_assoc, List.append_assoc, ← List.drop_eq_getElem?_toList_append,
    ← List.drop_eq_getElem?_toList_append, ← List.drop_eq_getElem?_toList_append]

theorem output_eq {output : String} (h : Java.startsWith output '_' = true) :
    "_" ++ Java.tail output = output := by
  have hhead : output.toList.head? = some '_' := by simpa [Java.startsWith] using h
  obtain ⟨rest, hrest⟩ := List.head?_eq_some_iff.mp hhead
  apply String.toList_injective
  simp [Java.tail, hrest]

/-- The elements for the output, and the others. -/
theorem output_parts (currentSite : String) {elements : List String} {siteIdx : Nat}
    (hgui : elements[1]? = some paths.manager.name)
    (h : PathInfo.siteIndex elements 2 = some siteIdx) :
    let p := PathInfo.located currentSite elements siteIdx
    ((p.getOutputFormat paths.toSitePaths).toList ++ (p.getOutputType paths.toSitePaths).toList).map
      ("_" ++ ·) ++ elements.drop siteIdx = elements.drop 2 := by
  intro p
  have hisGui : p.isGui paths.toSitePaths = true := isGui_iff.mpr hgui
  have hget (offset : Nat) : p.getOutput paths.toSitePaths offset =
      if offset < siteIdx - 1 then elements[1 + offset]?.map Java.tail else none := by
    simp only [p, PathInfo.getOutput, PathInfo.located, PathInfo.getElementAt] at hisGui ⊢
    simp [hisGui]
  rw [PathInfo.getOutputFormat, PathInfo.getOutputType, hget, hget]
  have hdrop : ∀ {i : Nat} {output : String}, elements[i]? = some output →
      elements.drop i = output :: elements.drop (i + 1) := by
    intro i output hi
    rw [List.drop_eq_getElem?_toList_append, hi]
    rfl
  unfold PathInfo.siteIndex at h
  cases hfirst : elements[2]? with
  | none => simp [hfirst] at h
  | some first =>
    simp only [hfirst] at h
    by_cases hout : Java.startsWith first '_' = true
    · rw [if_pos hout] at h
      cases hsecond : elements[3]? with
      | none => simp [hsecond] at h
      | some second =>
        simp only [hsecond, Option.some.injEq] at h
        by_cases hout' : Java.startsWith second '_' = true
        · rw [if_pos hout'] at h
          subst h
          simp [hfirst, hsecond, hdrop, output_eq hout, output_eq hout']
        · rw [if_neg hout'] at h
          subst h
          simp [hdrop hfirst, output_eq hout]
    · rw [if_neg hout, Option.some.injEq] at h
      subst h
      simp

/-- The parts are the elements behind the first. -/
theorem parts_eq {p : PathInfo} (h : splitPath servletPath = "" :: paths.manager.name :: more)
    (hp : PathInfo.parse paths.toSitePaths currentSite servletPath = some p) :
    p.parts paths.toSitePaths = paths.manager.name :: more := by
  have hgui : (splitPath servletPath)[1]? = some paths.manager.name := by rw [h]; rfl
  rw [parse_manager h] at hp
  by_cases hmore : more = []
  · rw [if_pos hmore, Option.some.injEq] at hp
    rw [← hp, fresh_parts, hmore]
  · rw [if_neg hmore] at hp
    obtain ⟨siteIdx, hindex, rfl⟩ := Option.map_eq_some_iff.mp hp
    have hrest := located_parts currentSite siteIdx hgui
    have hout := output_parts currentSite hgui hindex
    have hmanager : Java.tail paths.toSitePaths.guiPath = paths.manager.name :=
      paths.manager.tail_path
    simp only [PathInfo.parts, hmanager, List.append_assoc] at hrest hout ⊢
    rw [hrest, hout, h]
    rfl

end Gui

/-! ## The path -/

/-- What is cut off. -/
theorem cutAnchor_append (element : String) : ∃ anchor, element = cutAnchor element ++ anchor ∧
    (anchor = "" ∨ Java.startsWith anchor '#' = true) := by
  unfold cutAnchor
  cases hidx : element.toList.idxOf? '#' with
  | none => exact ⟨"", by simp, .inl rfl⟩
  | some i =>
    cases i with
    | zero => exact ⟨"", by simp, .inl rfl⟩
    | succ i =>
      obtain ⟨hlt, hget, -⟩ := List.idxOf?_eq_some_iff.mp hidx
      refine ⟨String.ofList (element.toList.drop (i + 1)), ?_, .inr ?_⟩
      · apply String.toList_injective
        simp
      · simp [Java.startsWith, List.drop_eq_getElem_cons hlt, hget]

theorem splitPath_of_split (init : List String) {path last : String}
    (h : Java.split '/' path = init ++ [last]) : splitPath path = init ++ [cutAnchor last] := by
  simp [splitPath, h]

theorem getElem?_splitPath {path part : String} {i : Nat} (h : (Java.split '/' path)[i]? = some part) :
    (splitPath path)[i]? = some part ∨ (splitPath path)[i]? = some (cutAnchor part) := by
  cases hsplit : Java.split '/' path using List.reverseRecOn with
  | nil => rw [hsplit] at h; cases h
  | append_singleton init last =>
    rw [hsplit] at h
    rw [splitPath_of_split init hsplit]
    by_cases hi : i < init.length
    · rw [List.getElem?_append_left hi] at h ⊢
      exact .inl h
    · rw [List.getElem?_append_right (Nat.le_of_not_lt hi)] at h ⊢
      obtain ⟨hlt, hlast⟩ := List.getElem?_eq_some_iff.mp h
      have hzero : i - init.length = 0 := by
        rw [List.length_singleton] at hlt
        omega
      simp only [hzero, List.getElem_cons_zero] at hlast
      simp [hzero, hlast]

theorem cutAnchor_ne {part : String} (h : part ≠ "") : cutAnchor part ≠ "" := by
  intro hcut
  unfold cutAnchor at hcut
  split at hcut
  · have htake := congrArg String.toList hcut
    have hne : part.toList ≠ [] := by simpa using h
    simp [hne] at htake
  · exact h hcut

theorem cutAnchor_subset (part : String) : (cutAnchor part).toList ⊆ part.toList := by
  obtain ⟨anchor, heq, -⟩ := cutAnchor_append part
  intro c hc
  rw [heq, String.toList_append]
  exact List.mem_append_left _ hc

theorem cutAnchor_of_not_mem {value : String} (h : '#' ∉ value.toList) : cutAnchor value = value := by
  unfold cutAnchor
  rw [List.idxOf?_eq_none_iff.mpr h]

/-- The path of a segment, or one below it. -/
theorem split_below {segment : Segment} {servletPath : String} (h : Below segment.path servletPath) :
    servletPath ≠ "" ∧ ∃ more, Java.split '/' servletPath = "" :: segment.name :: more := by
  have hname : segment.name.toList ≠ [] := by simpa using segment.nonempty
  obtain ⟨rest, hpath, hsplit⟩ : ∃ rest, servletPath.toList = '/' :: (segment.name.toList ++ rest) ∧
      ∃ more, (segment.name.toList ++ rest).splitOn '/' = segment.name.toList :: more := by
    rcases h with rfl | ⟨rest, rfl⟩
    · exact ⟨[], by simp [Segment.path], [], by
        rw [List.append_nil, List.splitOn_eq_singleton segment.single]⟩
    · exact ⟨'/' :: rest.toList, by simp [Segment.path], _,
        List.splitOn_append_cons_self_of_not_mem segment.single _⟩
  obtain ⟨more, hmore⟩ := hsplit
  have hne : servletPath ≠ "" := by
    rintro rfl
    simp at hpath
  have hsplit : servletPath.toList.splitOn '/' = [[], segment.name.toList] ++ more := by
    have hcons := List.splitOn_append_cons_self_of_not_mem (a := '/') List.not_mem_nil
      (segment.name.toList ++ rest)
    rw [hpath]
    rw [List.nil_append] at hcons
    rw [hcons, hmore]
    rfl
  have hkept : [[], segment.name.toList].rdropWhile List.isEmpty = [[], segment.name.toList] := by
    rw [List.rdropWhile_eq_self_iff]
    simpa using segment.nonempty
  refine ⟨hne, (more.rdropWhile List.isEmpty).map String.ofList, ?_⟩
  rw [Java.split_of_ne hne, hsplit, Java.rdropWhile_append hkept]
  simp

theorem join_eq (parts : List String) (first : String) :
    ['/'].intercalate ((first :: parts).map String.toList) =
      first.toList ++ (String.join (parts.map ("/" ++ ·))).toList := by
  induction parts generalizing first with
  | nil => simp
  | cons part parts ih =>
    have hjoin : (first :: part :: parts).map String.toList =
        first.toList :: part.toList :: parts.map String.toList := rfl
    rw [hjoin, List.intercalate_cons_cons, ← List.map_cons, ih]
    simp

/-- The path is the parts, but for what is cut off the last one, and slashes. -/
theorem reassembles_of (init : List String) {paths : SitePaths} {p : PathInfo}
    {servletPath last part anchor : String} (hsplit : Java.split '/' servletPath = ("" :: init) ++ [last])
    (hne : servletPath ≠ "") (hlast : last = part ++ anchor)
    (hanchor : anchor = "" ∨ Java.startsWith anchor '#' = true)
    (hparts : p.parts paths = init ++ [part]) : Reassembles paths p servletPath := by
  obtain ⟨hsingle, k, hjoin⟩ := Java.of_split (Java.last_of_split hne hsplit) hsplit
  have hlastSingle : '/' ∉ part.toList ∧ '/' ∉ anchor.toList := by
    have hmem := hsingle last (by simp)
    rw [hlast, String.toList_append, List.mem_append] at hmem
    exact not_or.mp hmem
  refine ⟨fun q hq => ?_, anchor, String.ofList (List.replicate k '/'), ?_, ?_, ?_⟩
  · rw [hparts] at hq
    rcases List.mem_append.mp hq with hq | hq
    · exact hsingle q (by simp [hq])
    · rw [List.mem_singleton.mp hq]
      exact hlastSingle.1
  · apply String.toList_injective
    rw [hjoin, List.cons_append, join_eq, hparts, hlast]
    simp [String.join_append]
  · rcases hanchor with rfl | hanchor
    · exact .inl rfl
    · exact .inr ⟨hanchor, hlastSingle.2⟩
  · intro c hc
    rw [String.toList_ofList] at hc
    exact List.eq_of_mem_replicate hc

/-- The manager path itself. -/
theorem parts_of_manager {paths : SegmentPaths} {currentSite servletPath : String} {p : PathInfo}
    (h : Java.split '/' servletPath = [""] ++ [paths.manager.name])
    (hp : PathInfo.parse paths.toSitePaths currentSite servletPath = some p) :
    p.parts paths.toSitePaths = [paths.manager.name] := by
  have helements := splitPath_of_split [""] h
  by_cases hcut : cutAnchor paths.manager.name = paths.manager.name
  · rw [hcut] at helements
    exact parts_eq helements hp
  · have hmanager : Java.tail paths.toSitePaths.guiPath = paths.manager.name :=
      paths.manager.tail_path
    have hservice : Java.tail paths.toSitePaths.servicePath = paths.service.name :=
      paths.service.tail_path
    have hfresh : p = { currentSite, pathElements := splitPath servletPath } := by
      unfold PathInfo.parse at hp
      simp only [helements, hmanager, hservice, hasElementAt_some, List.cons_append,
        List.nil_append, List.getElem?_cons_succ, List.getElem?_cons_zero] at hp ⊢
      rw [if_neg fun hgui => hcut (Option.some.inj hgui)] at hp
      split at hp
      · rename_i hname
        have hindex : List.idxOf paths.service.name ["", paths.service.name] = 1 := by
          rw [List.idxOf_cons_ne _ (Ne.symm paths.service.nonempty), List.idxOf_cons_self]
        rw [Option.some.inj hname, hindex] at hp
        rw [Option.some.inj hname]
        exact (Option.some.inj hp).symm
      · exact (Option.some.inj hp).symm
    rw [hfresh, fresh_parts]

theorem path_parts_iff (paths : SegmentPaths) (currentSite servletPath : String) :
    (∃ p, PathInfo.parse paths.toSitePaths currentSite servletPath = some p ∧
      (Below paths.manager.path servletPath → Reassembles paths.toSitePaths p servletPath)) ↔
      ¬ LoneOutput paths.toSitePaths servletPath := by
  rw [← parse_eq_none_iff _ currentSite]
  constructor
  · rintro ⟨p, hp, -⟩ hnone
    rw [hp] at hnone
    cases hnone
  · intro h
    obtain ⟨p, hp⟩ := Option.ne_none_iff_exists'.mp h
    refine ⟨p, hp, fun hbelow => ?_⟩
    obtain ⟨hne, more, hsplit⟩ := split_below hbelow
    cases more using List.reverseRecOn with
    | nil =>
      exact reassembles_of [] hsplit hne (String.append_empty).symm (.inl rfl)
        (parts_of_manager hsplit hp)
    | append_singleton more last =>
      obtain ⟨anchor, hlast, hanchor⟩ := cutAnchor_append last
      have helements := splitPath_of_split ("" :: paths.manager.name :: more) hsplit
      exact reassembles_of (paths.manager.name :: more) hsplit hne hlast hanchor
        (parts_eq helements hp)

section Example

def samplePathSegments : SegmentPaths where
  manager := ⟨"manager", by decide, by decide⟩
  service := ⟨"service", by decide, by decide⟩

/-- Nothing follows the output format. -/
theorem lone_output_throws :
    PathInfo.parse samplePathSegments.toSitePaths "main" "/manager/_html" = none ∧
    ¬ ∀ (paths : SegmentPaths) (currentSite servletPath : String), ∃ p,
      PathInfo.parse paths.toSitePaths currentSite servletPath = some p ∧
        (Below paths.manager.path servletPath → Reassembles paths.toSitePaths p servletPath) := by
  have hnone : PathInfo.parse samplePathSegments.toSitePaths "main" "/manager/_html" = none := by
    decide
  refine ⟨hnone, fun h => ?_⟩
  obtain ⟨p, hp, -⟩ := h samplePathSegments "main" "/manager/_html"
  rw [hnone] at hp
  cases hp

end Example

end Gui
end AppNG
