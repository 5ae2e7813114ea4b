import AppNG.Lib.Machine
import Mathlib.Data.List.Nodup
import Mathlib.Logic.Function.Basic

/-!
# Groups.Associations

Which subjects belong to which groups: `CoreService.assignGroupsToSubject`, `addGroupsToSubject` and `deleteGroup`.

A subject has a list of groups, and a group a set of subjects. Where a subject gets a group, both are told; where
groups are taken from it, only the subject is.

* `mem_linkAll`: what both sides are after some groups were added.
* `associated_next_iff`: after which operations both sides still say the same.
* `associated_iff`: they say the same throughout a run, no subject has a group twice, and a subject whose groups are
  cleared has those asked for, if and only if no operation takes a group from a subject that it does not give back.
-/

namespace AppNG
namespace Groups
namespace Associations

open Machine

/-! ## The code -/

variable {S G : Type}

/-- What is stored of subjects and groups and does not change. -/
structure Directory (S G : Type) where
  subjectNamed : String → Option S
  groupName : G → String
  isDefaultAdmin : G → Bool

/-- The subjects and groups in memory. A group stays there when it is deleted. -/
structure State (S G : Type) where
  /-- None: there is no such subject. -/
  getGroups : S → Option (List G)
  getSubjects : G → List S
  /-- The groups that exist. -/
  groups : List G
  nodup : groups.Nodup

variable [DecidableEq S] [DecidableEq G]

namespace State

variable (t : State S G)

def clear (subject : S) : State S G :=
  { t with getGroups := Function.update t.getGroups subject ((t.getGroups subject).map fun _ => []) }

/-- `groupRepository.findAllById`, each group once. -/
def findAllById (groupIds : List G) : List G := t.groups.filter fun group => groupIds.contains group

def getGroupIdsForNames (directory : Directory S G) (groupNames : List String) : List G :=
  t.groups.filter fun group => groupNames.contains (directory.groupName group)

def findByName (directory : Directory S G) (userName : String) : Option S :=
  (directory.subjectNamed userName).filter fun subject => (t.getGroups subject).isSome

/-- The body of the loop in `assignGroupsToSubject`. -/
def link (subject : S) (group : G) : State S G :=
  let groups := (t.getGroups subject).getD []
  if group ∈ groups then t
  else { t with
    getGroups := Function.update t.getGroups subject (some (groups ++ [group]))
    getSubjects := Function.update t.getSubjects group ((t.getSubjects group).insert subject) }

def linkAll (subject : S) (groups : List G) : State S G := groups.foldl (link · subject) t

/-- None: a `NullPointerException`, there is no such subject. -/
def assignGroupsToSubject (subjectId : S) (groupIds : Option (List G)) (clear : Bool) : Option (State S G) :=
  let groups := t.findAllById (groupIds.getD [])
  if (t.getGroups subjectId).isSome then
    some (linkAll (if clear then t.clear subjectId else t) subjectId groups)
  else if clear || !groups.isEmpty then none
  else some t

def addGroupsToSubject (directory : Directory S G) (userName : String) (groupNames : List String) (clear : Bool) :
    Option (State S G) :=
  (t.findByName directory userName).bind fun subject =>
    t.assignGroupsToSubject subject
      (if groupNames.isEmpty then none else some (t.getGroupIdsForNames directory groupNames)) clear

def deleteGroup (directory : Directory S G) (group : G) : State S G :=
  if directory.isDefaultAdmin group then t
  else
    { getGroups := fun subject => (t.getGroups subject).map fun groups => groups.erase group
      getSubjects := t.getSubjects
      groups := t.groups.erase group
      nodup := t.nodup.erase group }

end State

inductive Operation (S G : Type) where
  | assignGroupsToSubject (subjectId : S) (groupIds : Option (List G)) (clear : Bool)
  | addGroupsToSubject (userName : String) (groupNames : List String) (clear : Bool)
  | deleteGroup (group : G)

/-- An operation that throws has changed nothing. -/
def next (directory : Directory S G) (t : State S G) : Operation S G → State S G
  | .assignGroupsToSubject subjectId groupIds clear => (t.assignGroupsToSubject subjectId groupIds clear).getD t
  | .addGroupsToSubject userName groupNames clear =>
    (t.addGroupsToSubject directory userName groupNames clear).getD t
  | .deleteGroup group => t.deleteGroup directory group

/-! ## What should hold -/

/-- Both sides say the same, and no group occurs twice. -/
structure Associated (t : State S G) : Prop where
  same : ∀ subject groups, t.getGroups subject = some groups →
    ∀ group, group ∈ groups ↔ subject ∈ t.getSubjects group
  known : ∀ subject group, subject ∈ t.getSubjects group → (t.getGroups subject).isSome
  once : ∀ subject groups, t.getGroups subject = some groups → groups.Nodup

/-- What is requested for a subject. -/
structure Request (S G : Type) where
  subject : S
  groups : List G
  clear : Bool

def request (directory : Directory S G) (t : State S G) : Operation S G → Option (Request S G)
  | .assignGroupsToSubject subjectId groupIds clear => some ⟨subjectId, t.findAllById (groupIds.getD []), clear⟩
  | .addGroupsToSubject userName groupNames clear =>
    (t.findByName directory userName).map fun subject =>
      ⟨subject, t.findAllById (t.getGroupIdsForNames directory groupNames), clear⟩
  | .deleteGroup _ => none

/-- After groups were cleared the subject has those requested that exist. -/
def Cleared (directory : Directory S G) (t : State S G) (operation : Operation S G) : Prop :=
  ∀ r groups, request directory t operation = some r → r.clear = true → t.getGroups r.subject = some groups →
    ∃ groups', (next directory t operation).getGroups r.subject = some groups' ∧
      ∀ group, group ∈ groups' ↔ group ∈ r.groups

/-- No group is taken from a subject but to be given back. -/
def Harmless (directory : Directory S G) (t : State S G) : Operation S G → Prop
  | .deleteGroup group => directory.isDefaultAdmin group = true ∨
      ∀ subject groups, t.getGroups subject = some groups → group ∉ groups
  | operation => ∀ r groups, request directory t operation = some r → r.clear = true →
      t.getGroups r.subject = some groups → ∀ group ∈ groups, group ∈ r.groups

/-! ## Groups that are added -/

variable {directory : Directory S G} {t : State S G} {subject : S}

/-- What `linkAll` makes of a state in which the subject has some groups. -/
structure Linked (t t' : State S G) (subject : S) (groups added : List G) : Prop where
  own : ∃ groups', t'.getGroups subject = some groups' ∧ (∀ group, group ∈ groups' ↔ group ∈ groups ∨ group ∈ added) ∧
    (groups.Nodup → groups'.Nodup)
  others : ∀ subject', subject' ≠ subject → t'.getGroups subject' = t.getGroups subject'
  subjects : ∀ subject' group, subject' ∈ t'.getSubjects group ↔
    subject' ∈ t.getSubjects group ∨ subject' = subject ∧ group ∈ added ∧ group ∉ groups

theorem linked_link {groups : List G} (h : t.getGroups subject = some groups) (group : G) :
    Linked t (t.link subject group) subject groups [group] := by
  rw [State.link, h, Option.getD_some]
  by_cases hmem : group ∈ groups
  · rw [if_pos hmem]
    refine ⟨⟨groups, h, fun group' => ?_, fun hnodup => hnodup⟩, fun _ _ => rfl, fun subject' group' => ?_⟩
    · rw [List.mem_singleton, or_iff_left_of_imp]
      rintro rfl
      exact hmem
    · rw [List.mem_singleton, or_iff_left_of_imp]
      rintro ⟨_, rfl, hnot⟩
      exact absurd hmem hnot
  · rw [if_neg hmem]
    refine ⟨⟨groups ++ [group], Function.update_self .., fun group' => by simp, fun hnodup => ?_⟩,
      fun subject' hne => Function.update_of_ne hne .., fun subject' group' => ?_⟩
    · rw [List.nodup_append]
      refine ⟨hnodup, List.nodup_singleton group, fun group' hgroup' added hadded heq => hmem ?_⟩
      rwa [← List.mem_singleton.mp hadded, ← heq]
    · show subject' ∈ Function.update t.getSubjects group _ group' ↔ _
      by_cases hgroup : group' = group
      · subst hgroup
        rw [Function.update_self, List.mem_insert_iff, List.mem_singleton, or_comm]
        simp [hmem]
      · rw [Function.update_of_ne hgroup]
        simp [hgroup]

theorem mem_linkAll {added : List G} : ∀ {t : State S G} {groups : List G}, t.getGroups subject = some groups →
    Linked t (t.linkAll subject added) subject groups added := by
  induction added with
  | nil =>
    intro t groups h
    refine ⟨⟨groups, h, fun group => by simp, fun hnodup => hnodup⟩, fun _ _ => rfl, fun subject' group => ?_⟩
    show subject' ∈ t.getSubjects group ↔ _
    simp
  | cons group added ih =>
    intro t groups h
    have hfirst := linked_link h group
    obtain ⟨groups₁, hgroups₁, hmem₁, hnodup₁⟩ := hfirst.own
    have hrest := ih hgroups₁
    obtain ⟨groups', hgroups', hmem', hnodup'⟩ := hrest.own
    refine ⟨⟨groups', hgroups', fun group' => ?_, fun hnodup => hnodup' (hnodup₁ hnodup)⟩,
      fun subject' hne => (hrest.others subject' hne).trans (hfirst.others subject' hne), fun subject' group' => ?_⟩
    · rw [hmem', hmem₁, List.mem_singleton, List.mem_cons, or_assoc]
    · show subject' ∈ ((t.link subject group).linkAll subject added).getSubjects group' ↔ _
      rw [hrest.subjects, hfirst.subjects, hmem₁, List.mem_singleton, List.mem_cons, or_assoc]
      by_cases hgroup : group' = group
      · simp [hgroup]
      · simp [hgroup]

/-! ## Each operation -/

/-- Adding groups to a subject keeps both sides the same if and only if it leaves no group that the subject had
before it lost some of them. -/
theorem associated_linked_iff {t₀ t' : State S G} {groups groups₀ added : List G} (h : Associated t)
    (hgroups : t.getGroups subject = some groups) (hothers : ∀ subject', subject' ≠ subject →
      t₀.getGroups subject' = t.getGroups subject') (hsubjects : t₀.getSubjects = t.getSubjects)
    (hsublist : groups₀.Sublist groups) (hlinked : Linked t₀ t' subject groups₀ added) :
    Associated t' ↔ ∀ group ∈ groups, group ∈ groups₀ ∨ group ∈ added := by
  obtain ⟨groups', hgroups', hmem, hnodup⟩ := hlinked.own
  have hown := h.same subject groups hgroups
  constructor
  · intro h' group hgroup
    rw [← hmem, h'.same subject groups' hgroups', hlinked.subjects, hsubjects]
    exact .inl ((hown group).mp hgroup)
  · intro hall
    refine ⟨fun subject' groups'' hgroups'' group => ?_, fun subject' group hsubject' => ?_,
      fun subject' groups'' hgroups'' => ?_⟩
    · rw [hlinked.subjects, hsubjects]
      by_cases hne : subject' = subject
      · subst hne
        rw [hgroups'] at hgroups''
        rw [← Option.some.inj hgroups'', hmem, ← hown group]
        constructor
        · rintro (hgroup | hgroup)
          · exact .inl (hsublist.subset hgroup)
          · by_cases hgroup₀ : group ∈ groups₀
            · exact .inl (hsublist.subset hgroup₀)
            · exact .inr ⟨rfl, hgroup, hgroup₀⟩
        · rintro (hgroup | ⟨_, hgroup, _⟩)
          · exact hall group hgroup
          · exact .inr hgroup
      · rw [hlinked.others subject' hne, hothers subject' hne] at hgroups''
        rw [h.same subject' groups'' hgroups'']
        simp [hne]
    · by_cases hne : subject' = subject
      · rw [hne, hgroups']
        rfl
      · rw [hlinked.others subject' hne, hothers subject' hne]
        rw [hlinked.subjects, hsubjects] at hsubject'
        exact h.known subject' group (hsubject'.resolve_right fun hadded => hne hadded.1)
    · by_cases hne : subject' = subject
      · rw [hne, hgroups'] at hgroups''
        rw [← Option.some.inj hgroups'']
        exact hnodup ((h.once subject groups hgroups).sublist hsublist)
      · rw [hlinked.others subject' hne, hothers subject' hne] at hgroups''
        exact h.once subject' groups'' hgroups''

theorem assigned (t : State S G) (groupIds : Option (List G)) (clear : Bool) {groups : List G}
    (hgroups : t.getGroups subject = some groups) :
    (t.assignGroupsToSubject subject groupIds clear).getD t =
      (if clear then t.clear subject else t).linkAll subject (t.findAllById (groupIds.getD [])) := by
  rw [State.assignGroupsToSubject, hgroups, Option.isSome_some, if_pos rfl, Option.getD_some]

theorem assigned_unknown (t : State S G) (groupIds : Option (List G)) (clear : Bool)
    (hnone : t.getGroups subject = none) : (t.assignGroupsToSubject subject groupIds clear).getD t = t := by
  rw [State.assignGroupsToSubject, hnone, Option.isSome_none, if_neg Bool.false_ne_true]
  split
  · rfl
  · rfl

/-- An operation on a subject, as the request that it makes. -/
theorem next_request {operation : Operation S G} {r : Request S G} (hr : request directory t operation = some r)
    {groups : List G} (hgroups : t.getGroups r.subject = some groups) :
    next directory t operation = (if r.clear then t.clear r.subject else t).linkAll r.subject r.groups := by
  cases operation with
  | assignGroupsToSubject subjectId groupIds clear =>
    obtain rfl := Option.some.inj hr
    exact assigned t groupIds clear hgroups
  | addGroupsToSubject userName groupNames clear =>
    rw [request] at hr
    obtain ⟨subject, hfound, rfl⟩ := Option.map_eq_some_iff.mp hr
    rw [next, State.addGroupsToSubject, hfound, Option.bind_some, assigned t _ clear hgroups]
    cases groupNames with
    | nil => simp [State.findAllById, State.getGroupIdsForNames]
    | cons name names => rfl
  | deleteGroup group => cases hr

/-- An operation that makes no request changes nothing, or deletes a group. -/
theorem next_idle {operation : Operation S G}
    (hidle : ∀ r groups, request directory t operation = some r → t.getGroups r.subject ≠ some groups)
    (hdelete : ∀ group, operation ≠ .deleteGroup group) : next directory t operation = t := by
  cases operation with
  | assignGroupsToSubject subjectId groupIds clear =>
    exact assigned_unknown t groupIds clear
      (Option.eq_none_iff_forall_ne_some.mpr fun groups => hidle _ groups rfl)
  | addGroupsToSubject userName groupNames clear =>
    rw [next, State.addGroupsToSubject]
    cases hfound : t.findByName directory userName with
    | none => rfl
    | some subject =>
      refine assigned_unknown t _ clear (Option.eq_none_iff_forall_ne_some.mpr fun groups => ?_)
      exact hidle ⟨subject, _, clear⟩ groups (by rw [request, hfound]; rfl)
  | deleteGroup group => exact absurd rfl (hdelete group)

theorem linked_request (t : State S G) (r : Request S G) {groups : List G} (hgroups : t.getGroups r.subject = some groups) :
    Linked (if r.clear then t.clear r.subject else t)
      ((if r.clear then t.clear r.subject else t).linkAll r.subject r.groups) r.subject
      (if r.clear then [] else groups) r.groups := by
  cases r.clear with
  | false => exact mem_linkAll hgroups
  | true =>
    refine mem_linkAll ?_
    show Function.update t.getGroups r.subject _ r.subject = _
    rw [Function.update_self, hgroups]
    rfl

theorem associated_request_iff (h : Associated t) {r : Request S G} {groups : List G}
    (hgroups : t.getGroups r.subject = some groups) :
    Associated ((if r.clear then t.clear r.subject else t).linkAll r.subject r.groups) ↔
      (r.clear = true → ∀ group ∈ groups, group ∈ r.groups) := by
  have hlinked := linked_request t r hgroups
  rw [associated_linked_iff h hgroups ?_ ?_ ?_ hlinked]
  · cases r.clear with
    | false => simp +contextual
    | true => simp
  · intro subject' hne
    split
    · exact Function.update_of_ne hne ..
    · rfl
  · split
    · rfl
    · rfl
  · split
    · exact List.nil_sublist groups
    · exact List.Sublist.refl groups

omit [DecidableEq S] in
theorem associated_deleteGroup_iff (h : Associated t) (group : G) :
    Associated (t.deleteGroup directory group) ↔ directory.isDefaultAdmin group = true ∨
      ∀ subject groups, t.getGroups subject = some groups → group ∉ groups := by
  rw [State.deleteGroup]
  split
  · rename_i hadmin
    exact iff_of_true h (.inl hadmin)
  · rename_i hadmin
    rw [or_iff_right hadmin]
    constructor
    · intro h' subject groups hgroups hgroup
      have hnot : group ∉ groups.erase group := (h.once subject groups hgroups).not_mem_erase
      rw [h'.same subject (groups.erase group) (by simp [hgroups])] at hnot
      exact hnot ((h.same subject groups hgroups group).mp hgroup)
    · intro hnone
      refine ⟨fun subject groups hgroups group' => ?_, fun subject group' hsubject => ?_, fun subject groups hgroups => ?_⟩
      · obtain ⟨groups', hgroups', rfl⟩ := Option.map_eq_some_iff.mp hgroups
        rw [List.erase_of_not_mem (hnone subject groups' hgroups')]
        exact h.same subject groups' hgroups' group'
      · show ((t.getGroups subject).map _).isSome
        rw [Option.isSome_map]
        exact h.known subject group' hsubject
      · obtain ⟨groups', hgroups', rfl⟩ := Option.map_eq_some_iff.mp hgroups
        exact (h.once subject groups' hgroups').erase group

omit [DecidableEq S] in
theorem harmless_iff {operation : Operation S G} (hdelete : ∀ group, operation ≠ .deleteGroup group) :
    Harmless directory t operation ↔ ∀ r groups, request directory t operation = some r →
      t.getGroups r.subject = some groups → r.clear = true → ∀ group ∈ groups, group ∈ r.groups := by
  cases operation with
  | assignGroupsToSubject subjectId groupIds clear =>
    exact ⟨fun h r groups hr hgroups hclear => h r groups hr hclear hgroups,
      fun h r groups hr hclear hgroups => h r groups hr hgroups hclear⟩
  | addGroupsToSubject userName groupNames clear =>
    exact ⟨fun h r groups hr hgroups hclear => h r groups hr hclear hgroups,
      fun h r groups hr hclear hgroups => h r groups hr hgroups hclear⟩
  | deleteGroup group => exact absurd rfl (hdelete group)

theorem associated_next_iff (h : Associated t) (operation : Operation S G) :
    Associated (next directory t operation) ↔ Harmless directory t operation := by
  by_cases hdelete : ∀ group, operation ≠ .deleteGroup group
  · rw [harmless_iff hdelete]
    by_cases hrequest : ∃ r groups, request directory t operation = some r ∧ t.getGroups r.subject = some groups
    · obtain ⟨r, groups, hr, hgroups⟩ := hrequest
      rw [next_request hr hgroups, associated_request_iff h hgroups]
      constructor
      · intro hall r' groups' hr' hgroups'
        obtain rfl := Option.some.inj (hr.symm.trans hr')
        obtain rfl := Option.some.inj (hgroups.symm.trans hgroups')
        exact hall
      · exact fun hall => hall r groups hr hgroups
    · have hidle : ∀ r groups, request directory t operation = some r → t.getGroups r.subject ≠ some groups :=
        fun r groups hr hgroups => hrequest ⟨r, groups, hr, hgroups⟩
      rw [next_idle hidle hdelete]
      exact iff_of_true h fun r groups hr hgroups => absurd hgroups (hidle r groups hr)
  · simp only [not_forall, not_not] at hdelete
    obtain ⟨group, rfl⟩ := hdelete
    exact associated_deleteGroup_iff h group

theorem cleared (directory : Directory S G) (t : State S G) (operation : Operation S G) :
    Cleared directory t operation := by
  intro r groups hr hclear hgroups
  obtain ⟨groups', hgroups', hmem, _⟩ := (linked_request t r hgroups).own
  rw [next_request hr hgroups]
  refine ⟨groups', hgroups', fun group => ?_⟩
  rw [hmem, hclear]
  simp

/-! ## Runs -/

/-- Throughout a run, and after every operation that clears. -/
theorem associated_iff (directory : Directory S G) (h : Associated t) (operations : List (Operation S G)) :
    ((∀ pre post, operations = pre ++ post → Associated (pre.foldl (next directory) t)) ∧
        ∀ pre operation post, operations = pre ++ operation :: post →
          Cleared directory (pre.foldl (next directory) t) operation) ↔
      ∀ pre operation post, operations = pre ++ operation :: post →
        Harmless directory (pre.foldl (next directory) t) operation := by
  have hcleared : ∀ pre operation post, operations = pre ++ operation :: post →
      Cleared directory (pre.foldl (next directory) t) operation :=
    fun pre operation post _ => cleared directory (pre.foldl (next directory) t) operation
  rw [and_iff_left hcleared]
  exact foldl_inv_iff h (fun t operation h => associated_next_iff h operation) operations

def sampleDirectory : Directory Unit Bool where
  subjectNamed _ := some ()
  groupName
    | false => "editors"
    | true => "authors"
  isDefaultAdmin _ := false

def oneGroup : State Unit Bool where
  getGroups _ := some [true]
  getSubjects group := if group then [()] else []
  groups := [false, true]
  nodup := by decide

theorem associated_oneGroup : Associated oneGroup := by
  refine ⟨fun _ groups hgroups group => ?_, fun _ _ _ => rfl, fun _ groups hgroups => ?_⟩
  · obtain rfl := Option.some.inj hgroups
    cases group with
    | false => simp [oneGroup]
    | true => simp [oneGroup]
  · obtain rfl := Option.some.inj hgroups
    exact List.nodup_singleton true

theorem stays_associated :
    Associated oneGroup ∧ ∀ pre post, [Operation.addGroupsToSubject "jane" ["editors"] false] = pre ++ post →
      Associated (pre.foldl (next sampleDirectory) oneGroup) := by
  refine ⟨associated_oneGroup, ((associated_iff sampleDirectory associated_oneGroup _).mpr ?_).1⟩
  intro pre operation post hsplit
  obtain ⟨rfl, rfl⟩ : pre = [] ∧ operation = .addGroupsToSubject "jane" ["editors"] false := by
    cases pre with
    | nil => exact ⟨rfl, (List.cons.inj hsplit).1.symm⟩
    | cons _ pre => simp at hsplit
  intro r groups hr hclear _
  obtain rfl := Option.some.inj hr
  cases hclear

/-- Groups that are cleared, and a group that is deleted, keep the subject. -/
theorem keeps_subject :
    (¬ Associated (next sampleDirectory oneGroup (.assignGroupsToSubject () (some [false]) true)) ∧
      ¬ Associated (next sampleDirectory oneGroup (.deleteGroup true))) := by
  constructor
  · intro h
    have hiff := (h.same () [false] rfl true).mpr (by decide)
    exact absurd hiff (by decide)
  · intro h
    have hiff := (h.same () [] rfl true).mpr (by decide)
    exact absurd hiff (by decide)

end Associations
end Groups
end AppNG
