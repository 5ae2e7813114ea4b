import AppNG.Lib.Utf16
import Mathlib.Data.List.Sort

/-!
# Sites.NameConflicts

`CoreService.checkSiteNameConflicts`: whether a name, host or domain is taken by another site.

The queries are parameters; those for hosts return the stored sites that use one of them, as their host
or as an alias. The code compares the objects that hold two ids, not the ids.

* `host_problems_iff`, `alias_problems_iff`: the sites that are reported are those with another id,
  if and only if no site that was found holds the id of the checked one in another object.
* `own_record_conflicts`: from 128 on a site is in conflict with itself.
-/

namespace AppNG
namespace Sites
namespace NameConflicts

/-! ## The code -/

/-- An `Integer`: a number, in an object. -/
structure Boxed where
  value : Int
  object : Nat
  deriving DecidableEq, Repr

/-- The numbers for which there is one object only. -/
def cached (value : Int) : Bool := decide (-128 ≤ value ∧ value ≤ 127)

/-- `==` of two references. None: null. -/
def sameReference : Option Boxed → Option Boxed → Bool
  | none, none => true
  | some a, some b => decide (a.value = b.value) && (cached a.value || decide (a.object = b.object))
  | _, _ => false

structure Site where
  id : Option Boxed
  name : String
  host : String
  hostAliases : List String
  distinct : hostAliases.Nodup
  domain : String
  deriving DecidableEq

/-- A message and its arguments. -/
structure Problem where
  key : String
  args : List String
  deriving DecidableEq, Repr

def Site.Uses (site : Site) (hostName : String) : Prop :=
  site.host = hostName ∨ hostName ∈ site.hostAliases

/-- The stored sites, and what the queries make of them. -/
structure SiteRepository where
  sites : List Site
  findByName : String → Option Site
  findSitesForHostName : String → List Site
  findSitesForHostNames : List String → List Site
  isUnique : Option Boxed → String → String → Bool
  forHostName : ∀ {hostName site}, site ∈ findSitesForHostName hostName ↔
    site ∈ sites ∧ site.Uses hostName
  forHostNames : ∀ {hostNames site}, site ∈ findSitesForHostNames hostNames ↔
    site ∈ sites ∧ ∃ hostName ∈ hostNames, site.Uses hostName
  /-- `select distinct` -/
  distinct : (∀ hostName, (findSitesForHostName hostName).Nodup) ∧
    ∀ hostNames, (findSitesForHostNames hostNames).Nodup

variable (repository : SiteRepository) (site : Site)

def nameProblems : List Problem :=
  match repository.findByName site.name with
  | none => []
  | some _ => [⟨"site.name.exists", [site.name]⟩]

/-- The sites that pass `site.getId() != ovlpSite.getId()`. -/
def conflicting (overlapSites : List Site) : List Site :=
  overlapSites.filter fun ovlpSite => !sameReference site.id ovlpSite.id

def hostInUse (ovlpSite : Site) : Problem := ⟨"site.host.inUse", [site.host, ovlpSite.name]⟩

def hostProblems : List Problem :=
  (conflicting site (repository.findSitesForHostName site.host)).map (hostInUse site)

/-- The names of the other site, of which those that are aliases of this one are retained. -/
def intersection (ovlpSite : Site) : List String :=
  (ovlpSite.hostAliases.insert ovlpSite.host).filter fun a => decide (a ∈ site.hostAliases)

def conflictAliases (ovlpSite : Site) : String :=
  ", ".intercalate
    ((intersection site ovlpSite).insertionSort fun a b => (Java.compareTo a b).isLE)

def aliasInUse (ovlpSite : Site) : Problem :=
  ⟨"site.hostalias.inUse", [ovlpSite.name, conflictAliases site ovlpSite]⟩

def aliasProblems : List Problem :=
  (conflicting site (repository.findSitesForHostNames site.hostAliases)).map (aliasInUse site)

def domainProblems : List Problem :=
  if repository.isUnique site.id "domain" site.domain then []
  else [⟨"site.domain.exists", [site.domain]⟩]

/-- The problems that are added, of which one is enough for `true`. None: an
`UnsupportedOperationException`. -/
def checkSiteNameConflicts (check : String) : Option (Bool × List Problem) :=
  let spotted (problems : List Problem) := some (!problems.isEmpty, problems)
  match check with
  | "all" => spotted (nameProblems repository site ++ hostProblems repository site ++
      aliasProblems repository site ++ domainProblems repository site)
  | "name" => spotted (nameProblems repository site)
  | "host" => spotted (hostProblems repository site)
  | "hostAliases" => spotted (aliasProblems repository site)
  | "domain" => spotted (domainProblems repository site)
  | _ => none

/-! ## What is to be reported -/

def Site.number (site : Site) : Option Int := site.id.map Boxed.value

def NamesHost (ovlpSite : Site) (problem : Problem) : Prop :=
  problem = ⟨"site.host.inUse", [site.host, ovlpSite.name]⟩

/-- The site is named, along with the aliases that it uses and with no others. -/
def NamesAliases (ovlpSite : Site) (problem : Problem) : Prop :=
  ∃ aliases : List String, aliases.Nodup ∧
    (∀ a, a ∈ aliases ↔ a ∈ site.hostAliases ∧ ovlpSite.Uses a) ∧
    problem = ⟨"site.hostalias.inUse", [ovlpSite.name, ", ".intercalate aliases]⟩

/-- Each of the stored sites that are in conflict and have another id is named once. -/
def Reported (InConflict : Site → Prop) (Names : Site → Problem → Prop)
    (answer : Option (Bool × List Problem)) : Prop :=
  ∃ spotted problems others, answer = some (spotted, problems) ∧
    (spotted = true ↔
      ∃ s ∈ repository.sites, s.number ≠ site.number ∧ InConflict s) ∧
    others.Nodup ∧
    (∀ s, s ∈ others ↔ s ∈ repository.sites ∧ s.number ≠ site.number ∧ InConflict s) ∧
    List.Forall₂ Names others problems

/-! ## What is reported -/

section

variable {repository : SiteRepository} {site : Site}

theorem sameReference_value {a b : Option Boxed} (h : sameReference a b = true) :
    a.map Boxed.value = b.map Boxed.value := by
  cases a with
  | none =>
    cases b with
    | none => rfl
    | some b => cases h
  | some a =>
    cases b with
    | none => cases h
    | some b =>
      simp only [sameReference, Bool.and_eq_true, decide_eq_true_eq] at h
      exact congrArg some h.1

/-- The sites that are left have another id, but for those that hold the same id in another
object. -/
theorem mem_conflicting {found : List Site} {s : Site} (hs : s.number ≠ site.number) :
    s ∈ conflicting site found ↔ s ∈ found := by
  have hother : sameReference site.id s.id = false :=
    Bool.eq_false_iff.mpr fun h => hs (sameReference_value h).symm
  simp [conflicting, hother]

theorem forall₂_map_right {α β : Type} {R : α → β → Prop} {f : α → β} {l : List α}
    (h : ∀ a ∈ l, R a (f a)) : List.Forall₂ R l (l.map f) :=
  List.forall₂_map_right_iff.mpr (List.forall₂_same.mpr h)

/-- The problems that the result of a query leads to. -/
theorem reported_iff {found : List Site} {InConflict : Site → Prop}
    {Names : Site → Problem → Prop} {problemOf : Site → Problem} (hnodup : found.Nodup)
    (hfound : ∀ s, s ∈ found ↔ s ∈ repository.sites ∧ InConflict s)
    (hnames : ∀ s ∈ found, Names s (problemOf s)) :
    Reported repository site InConflict Names
        (some (!((conflicting site found).map problemOf).isEmpty,
          (conflicting site found).map problemOf)) ↔
      ∀ s ∈ repository.sites, InConflict s → s.number = site.number →
        sameReference site.id s.id = true := by
  have hleft : (conflicting site found).Nodup := hnodup.filter _
  constructor
  · rintro ⟨_, _, others, heq, _, hothersNodup, hothers, hproblems⟩ s hs hconflict hnumber
    cases heq
    by_contra hsame
    have hmem : s ∈ conflicting site found :=
      List.mem_filter.mpr ⟨(hfound s).mpr ⟨hs, hconflict⟩, by simpa using hsame⟩
    have hsub : s :: others ⊆ conflicting site found := by
      refine List.cons_subset.mpr ⟨hmem, fun t ht => ?_⟩
      obtain ⟨hstored, hnumber, hconflict⟩ := (hothers t).mp ht
      exact (mem_conflicting hnumber).mpr ((hfound t).mpr ⟨hstored, hconflict⟩)
    have hnew : s ∉ others := fun h => ((hothers s).mp h).2.1 hnumber
    have hle := (List.subperm_of_subset (hothersNodup.cons hnew) hsub).length_le
    have hlength := hproblems.length_eq
    simp only [List.length_map, List.length_cons] at hle hlength
    omega
  · intro h
    have hmem (s : Site) : s ∈ conflicting site found ↔
        s ∈ repository.sites ∧ s.number ≠ site.number ∧ InConflict s := by
      by_cases hnumber : s.number = site.number
      · have hout : s ∉ conflicting site found := by
          intro hs
          obtain ⟨hs, hsame⟩ := List.mem_filter.mp hs
          obtain ⟨hstored, hconflict⟩ := (hfound s).mp hs
          simp [h s hstored hconflict hnumber] at hsame
        simp [hout, hnumber]
      · rw [mem_conflicting hnumber, hfound]
        tauto
    refine ⟨_, _, conflicting site found, rfl, ?_, hleft, hmem, forall₂_map_right fun s hs => ?_⟩
    · rw [List.isEmpty_map, Bool.not_eq_true', List.isEmpty_eq_false_iff_exists_mem]
      exact exists_congr hmem
    · exact hnames s (List.mem_filter.mp hs).1

theorem mem_intersection {ovlpSite : Site} {a : String} :
    a ∈ intersection site ovlpSite ↔ a ∈ site.hostAliases ∧ ovlpSite.Uses a := by
  simp only [intersection, List.mem_filter, List.mem_insert_iff, decide_eq_true_eq, Site.Uses]
  tauto

theorem names_aliases (ovlpSite : Site) : NamesAliases site ovlpSite (aliasInUse site ovlpSite) := by
  let le (a b : String) : Prop := (Java.compareTo a b).isLE
  have hperm : ((intersection site ovlpSite).insertionSort le).Perm (intersection site ovlpSite) :=
    List.perm_insertionSort le _
  refine ⟨(intersection site ovlpSite).insertionSort le, ?_, fun a => ?_, rfl⟩
  · exact hperm.nodup_iff.mpr ((ovlpSite.distinct.insert).filter _)
  · rw [hperm.mem_iff, mem_intersection]

theorem host_problems_iff :
    Reported repository site (fun s => s.Uses site.host) (NamesHost site)
        (checkSiteNameConflicts repository site "host") ↔
      ∀ s ∈ repository.sites, s.Uses site.host → s.number = site.number →
        sameReference site.id s.id = true :=
  reported_iff (repository.distinct.1 _) (fun _ => repository.forHostName) fun _ _ => rfl

theorem alias_problems_iff :
    Reported repository site (fun s => ∃ a ∈ site.hostAliases, s.Uses a) (NamesAliases site)
        (checkSiteNameConflicts repository site "hostAliases") ↔
      ∀ s ∈ repository.sites, (∃ a ∈ site.hostAliases, s.Uses a) → s.number = site.number →
        sameReference site.id s.id = true :=
  reported_iff (repository.distinct.2 _) (fun _ => repository.forHostNames)
    fun s _ => names_aliases s

end

/-- Both checks report what they are for, if and only if the stored record of the checked site is
not found or holds its id in the same object. -/
theorem name_conflicts_reported_iff (repository : SiteRepository) (site : Site) :
    (Reported repository site (fun s => s.Uses site.host) (NamesHost site)
        (checkSiteNameConflicts repository site "host") ↔
      ∀ s ∈ repository.sites, s.Uses site.host → s.number = site.number →
        sameReference site.id s.id = true) ∧
    (Reported repository site (fun s => ∃ a ∈ site.hostAliases, s.Uses a) (NamesAliases site)
        (checkSiteNameConflicts repository site "hostAliases") ↔
      ∀ s ∈ repository.sites, (∃ a ∈ site.hostAliases, s.Uses a) → s.number = site.number →
        sameReference site.id s.id = true) :=
  ⟨host_problems_iff, alias_problems_iff⟩

/-! ## A site in conflict with itself -/

/-- The queries, for sites that are stored in this order. -/
def stored (sites : List Site) (distinct : sites.Nodup) : SiteRepository where
  sites
  findByName name := sites.find? fun s => s.name = name
  findSitesForHostName hostName := sites.filter fun s => decide (s.host = hostName ∨ hostName ∈ s.hostAliases)
  findSitesForHostNames hostNames := sites.filter fun s =>
    hostNames.any fun hostName => decide (s.host = hostName ∨ hostName ∈ s.hostAliases)
  isUnique id _ domain := sites.all fun s => s.domain ≠ domain || s.id = id
  forHostName := by simp [Site.Uses]
  forHostNames := by simp [Site.Uses]
  distinct := ⟨fun _ => distinct.filter _, fun _ => distinct.filter _⟩

/-- A site that was read from the database, with its id in an object of its own. -/
def shopSite (id : Int) (object : Nat) : Site where
  id := some ⟨id, object⟩
  name := "shop"
  host := "shop.example.com"
  hostAliases := ["www.example.com"]
  distinct := List.nodup_singleton _
  domain := "https://shop.example.com"

def shops : SiteRepository := stored [shopSite 128 0] (List.nodup_singleton _)

/-- The site with the id 128, checked as it is. -/
theorem own_record_conflicts :
    ¬ (Reported shops (shopSite 128 1) (fun s => s.Uses "shop.example.com")
          (NamesHost (shopSite 128 1)) (checkSiteNameConflicts shops (shopSite 128 1) "host") ∨
        Reported shops (shopSite 128 1) (fun s => ∃ a ∈ ["www.example.com"], s.Uses a)
          (NamesAliases (shopSite 128 1))
          (checkSiteNameConflicts shops (shopSite 128 1) "hostAliases")) := by
  have hstored : shopSite 128 0 ∈ shops.sites := List.mem_singleton_self _
  rintro (h | h)
  · have hsame := host_problems_iff.mp h (shopSite 128 0) hstored (.inl rfl) rfl
    cases hsame
  · have halias : "www.example.com" ∈ ["www.example.com"] := List.mem_singleton_self _
    have hsame := alias_problems_iff.mp h (shopSite 128 0) hstored ⟨_, halias, .inr halias⟩ rfl
    cases hsame

end NameConflicts
end Sites
end AppNG
