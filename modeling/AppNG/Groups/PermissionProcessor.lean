import Mathlib.Data.List.Basic

/-!
# Groups.PermissionProcessor

`DefaultPermissionProcessor`: whether a subject has the permissions that a definition asks for.

A subject has the permissions of its roles in the current application. Those whose name starts with `anonymous` are
not checked. Of the permissions of a field, those in the first block for the type of access are checked.

* `hasPermissionList_eq`: the answer, and what is written into the permissions.
* `hasPermissionOf_eq`: the answer for a field.
* `decides_iff`: the answer is the right one, again and again, if and only if the groups of the subject are not null or
  there is nothing to check. The answer for a field is safe for all subjects if and only if the first block asks for all
  that the later ones do.
-/

namespace AppNG
namespace Groups
namespace PermissionProcessor

/-! ## The code -/

inductive PermissionMode where
  | set
  | read
  deriving DecidableEq, Repr

structure Permission where
  ref : String
  mode : Option PermissionMode := none
  value : Option String := none
  deriving DecidableEq, Repr

inductive FieldPermissionType where
  | read
  | write
  deriving DecidableEq, Repr

structure FieldPermissions where
  mode : Option FieldPermissionType := none
  permission : List Permission
  deriving DecidableEq, Repr

structure FieldDef where
  readonly : Option String := none
  permissions : Option (List FieldPermissions)
  deriving DecidableEq, Repr

structure Role where
  /-- The name; none if there is no application. -/
  application : Option String
  permissions : List String
  deriving DecidableEq, Repr

structure Group where
  roles : List Role
  deriving DecidableEq, Repr

structure Subject where
  /-- None: null. -/
  groups : Option (List Group)
  deriving DecidableEq, Repr

structure DefaultPermissionProcessor where
  subject : Option Subject
  application : String
  deriving DecidableEq, Repr

def prefixAnonymous : String := "anonymous"

def Permission.isAnonymous (permission : Permission) : Bool :=
  prefixAnonymous.toList.isPrefixOf permission.ref.toList

/-- `"true".equalsIgnoreCase` -/
def FieldDef.isReadonly (field : FieldDef) : Bool :=
  field.readonly.any fun readonly => readonly.toList.map Char.toLower == ['t', 'r', 'u', 'e']

def FieldPermissions.appliesTo (fieldPermissions : FieldPermissions) (type : FieldPermissionType) : Bool :=
  fieldPermissions.mode == none || fieldPermissions.mode == some type

namespace DefaultPermissionProcessor

variable (processor : DefaultPermissionProcessor)

/-- One role of the loop. -/
def hasRole (ref : String) (role : Role) : Bool :=
  match role.application with
  | none => false
  | some applicationFromRole => processor.application == applicationFromRole && role.permissions.contains ref

/-- None: a `NullPointerException`, as in what follows. -/
def hasPermission (ref : String) : Option Bool :=
  match processor.subject with
  | none => some false
  | some subject => subject.groups.map fun groups => groups.any fun group => group.roles.any (processor.hasRole ref)

/-- One permission of the loop. -/
def checkPermission (hasAccess : Bool) (permission : Permission) : Option (Bool × Permission) :=
  if permission.isAnonymous then some (hasAccess, permission)
  else (processor.hasPermission permission.ref).map fun hasPermission =>
    let permission' := { permission with value := some (if hasPermission then "true" else "false") }
    match permission.mode with
    | some .set => (hasAccess && hasPermission, permission')
    | some .read => (hasAccess, permission')
    | none => (hasAccess, { permission' with mode := some .read })

def hasPermissionList : Bool → List Permission → Option (Bool × List Permission)
  | hasAccess, [] => some (hasAccess, [])
  | hasAccess, permission :: permissionList => do
    let (hasAccess, permission) ← processor.checkPermission hasAccess permission
    let (hasAccess, permissionList) ← hasPermissionList hasAccess permissionList
    return (hasAccess, permission :: permissionList)

/-- With the permissions of the `PermissionOwner`, none if they are null. -/
def hasPermissions : Option (List Permission) → Option (Bool × Option (List Permission))
  | none => some (true, none)
  | some permissionList => (processor.hasPermissionList true permissionList).map fun (hasAccess, permissionList) =>
    (hasAccess, some permissionList)

/-- The second `hasPermission` for a field: the loop over its blocks. -/
def hasBlockPermission (type : FieldPermissionType) (precondition : Bool) :
    List FieldPermissions → Option (Bool × List FieldPermissions)
  | [] => some (precondition, [])
  | fieldPermissions :: permissions =>
    if fieldPermissions.appliesTo type then
      if precondition then
        (processor.hasPermissionList true fieldPermissions.permission).map fun (hasAccess, permission) =>
          (hasAccess, { fieldPermissions with permission } :: permissions)
      else some (false, fieldPermissions :: permissions)
    else (hasBlockPermission type precondition permissions).map fun (hasAccess, permissions) =>
      (hasAccess, fieldPermissions :: permissions)

def hasFieldPermission (field : FieldDef) (type : FieldPermissionType) (precondition : Bool) :
    Option (Bool × FieldDef) :=
  match field.permissions with
  | none => some (precondition, field)
  | some permissions => (processor.hasBlockPermission type precondition permissions).map fun (hasAccess, permissions) =>
    (hasAccess, { field with permissions := some permissions })

def hasWritePermission (field : FieldDef) : Option (Bool × FieldDef) :=
  processor.hasFieldPermission field .write (!field.isReadonly)

def hasReadPermission (field : FieldDef) : Option (Bool × FieldDef) := processor.hasFieldPermission field .read true

end DefaultPermissionProcessor

/-! ## What is asked for -/

/-- The blocks for a type of access. -/
def FieldDef.blocks (field : FieldDef) (type : FieldPermissionType) : List FieldPermissions :=
  (field.permissions.getD []).filter fun block => block.appliesTo type

/-- With mode `set`, and not anonymous. -/
def Permission.isRequired (permission : Permission) : Bool :=
  permission.mode == some .set && !permission.isAnonymous

namespace DefaultPermissionProcessor

variable (processor : DefaultPermissionProcessor)

/-- All roles of the subject. -/
def roles : List Role :=
  ((processor.subject.bind Subject.groups).getD []).flatMap Group.roles

def Held (ref : String) : Prop :=
  ∃ role ∈ processor.roles, role.application = some processor.application ∧ ref ∈ role.permissions

/-- All permissions that a list asks for. -/
def AllHeld (permissionList : List Permission) : Prop :=
  ∀ permission ∈ permissionList, permission.isRequired = true → processor.Held permission.ref

/-- Asked again a number of times, about the same permissions. -/
def ask : Nat → Option (List Permission) → Option (Bool × Option (List Permission))
  | 0, permissions => processor.hasPermissions permissions
  | n + 1, permissions => do
    let (_, permissions) ← processor.hasPermissions permissions
    ask n permissions

def Grants (permissions : Option (List Permission)) : Prop :=
  ∃ after, processor.hasPermissions permissions = some (true, after)

/-- The subject without its roles in other applications. -/
def ownRoles : DefaultPermissionProcessor :=
  { processor with subject := processor.subject.map fun subject =>
      { groups := subject.groups.map fun groups => groups.map fun group =>
          { roles := group.roles.filter fun role => role.application == some processor.application } } }

structure Decides (permissions : Option (List Permission)) : Prop where
  answers : ∀ n, ∃ access after, processor.ask n permissions = some (access, after) ∧
    (access = true ↔ processor.AllHeld (permissions.getD []))
  monotone : ∀ fewer : DefaultPermissionProcessor, fewer.application = processor.application →
    fewer.roles ⊆ processor.roles → fewer.Grants permissions → processor.Grants permissions
  independent : processor.ownRoles.Grants permissions ↔ processor.Grants permissions

/-- The groups are not null, or only anonymous permissions are given. -/
def Checkable (permissions : Option (List Permission)) : Prop :=
  (∀ subject, processor.subject = some subject → subject.groups ≠ none) ∨
    ∀ permission ∈ permissions.getD [], permission.isAnonymous = true

structure FieldSafe (field : FieldDef) : Prop where
  write : ∀ after, processor.hasWritePermission field = some (true, after) → field.isReadonly = false ∧
    ∀ block ∈ field.blocks .write, processor.AllHeld block.permission
  read : ∀ after, processor.hasReadPermission field = some (true, after) →
    ∀ block ∈ field.blocks .read, processor.AllHeld block.permission

end DefaultPermissionProcessor

/-- What the blocks ask for is asked for by the first one. -/
def FirstDecides : List FieldPermissions → Prop
  | [] => True
  | first :: later => ∀ block ∈ later, ∀ permission ∈ block.permission, permission.isRequired = true →
    ∃ checked ∈ first.permission, checked.isRequired = true ∧ checked.ref = permission.ref

/-! ## One answer -/

namespace DefaultPermissionProcessor

variable (processor : DefaultPermissionProcessor)

def holds (ref : String) : Bool := processor.roles.any (processor.hasRole ref)

/-- What is written into a permission. -/
def mark (permission : Permission) : Permission :=
  if permission.isAnonymous then permission
  else
    { permission with
      value := some (if processor.holds permission.ref then "true" else "false")
      mode := some (permission.mode.getD .read) }

variable {processor}

theorem hasRole_iff {ref : String} {role : Role} : processor.hasRole ref role = true ↔
    role.application = some processor.application ∧ ref ∈ role.permissions := by
  rw [hasRole]
  cases role.application with
  | none => simp
  | some application =>
    show (processor.application == application && role.permissions.contains ref) = true ↔ _
    rw [Bool.and_eq_true, beq_iff_eq, List.contains_iff_mem, Option.some.injEq, eq_comm]

theorem holds_iff {ref : String} : processor.holds ref = true ↔ processor.Held ref := by
  rw [holds, List.any_eq_true]
  exact exists_congr fun role => and_congr_right fun _ => hasRole_iff

/-- The groups are not null. -/
def HasGroups (processor : DefaultPermissionProcessor) : Prop :=
  ∀ subject, processor.subject = some subject → subject.groups ≠ none

theorem hasPermission_eq (h : processor.HasGroups) (ref : String) :
    processor.hasPermission ref = some (processor.holds ref) := by
  rw [hasPermission, holds, roles]
  cases hsubject : processor.subject with
  | none => rfl
  | some subject =>
    obtain ⟨groups, hgroups⟩ := Option.ne_none_iff_exists'.mp (h subject hsubject)
    simp [hgroups]

theorem hasPermission_null (h : ¬ processor.HasGroups) (ref : String) : processor.hasPermission ref = none := by
  simp only [HasGroups, not_forall, not_not] at h
  obtain ⟨subject, hsubject, hgroups⟩ := h
  rw [hasPermission, hsubject]
  simp [hgroups]

theorem checkPermission_eq (h : processor.HasGroups) (hasAccess : Bool) (permission : Permission) :
    processor.checkPermission hasAccess permission =
      some (hasAccess && (!permission.isRequired || processor.holds permission.ref), processor.mark permission) := by
  rw [checkPermission, mark, Permission.isRequired, hasPermission_eq h]
  cases permission.isAnonymous with
  | true => simp
  | false =>
    cases hmode : permission.mode with
    | none => simp
    | some mode => cases mode <;> simp

theorem hasPermissionList_eq (h : processor.HasGroups) (hasAccess : Bool) (permissionList : List Permission) :
    processor.hasPermissionList hasAccess permissionList =
      some (hasAccess && permissionList.all fun permission => !permission.isRequired || processor.holds permission.ref,
        permissionList.map processor.mark) := by
  induction permissionList generalizing hasAccess with
  | nil => simp [hasPermissionList]
  | cons permission permissionList ih =>
    rw [hasPermissionList, checkPermission_eq h]
    show (processor.hasPermissionList _ _).bind _ = _
    rw [ih, List.all_cons, ← Bool.and_assoc]
    rfl

theorem hasPermissionList_null (h : ¬ processor.HasGroups) (hasAccess : Bool) (permissionList : List Permission) :
    processor.hasPermissionList hasAccess permissionList =
      if permissionList.all Permission.isAnonymous then some (hasAccess, permissionList) else none := by
  induction permissionList with
  | nil => rfl
  | cons permission permissionList ih =>
    rw [hasPermissionList, checkPermission, hasPermission_null h, List.all_cons]
    cases permission.isAnonymous with
    | false => rfl
    | true =>
      show (processor.hasPermissionList _ _).bind _ = _
      rw [ih]
      cases permissionList.all Permission.isAnonymous <;> rfl

/-! ## Every answer -/

theorem isRequired_mark (permission : Permission) :
    (processor.mark permission).isRequired = permission.isRequired ∧
      (processor.mark permission).isAnonymous = permission.isAnonymous ∧
      (processor.mark permission).ref = permission.ref := by
  cases hanonymous : permission.isAnonymous with
  | true => simp [mark, hanonymous]
  | false =>
    have hmark : (processor.mark permission).isAnonymous = false := by
      rw [mark, hanonymous]
      exact hanonymous
    rw [Permission.isRequired, Permission.isRequired, hmark, hanonymous, mark, hanonymous]
    cases hmode : permission.mode with
    | none => simp
    | some mode => cases mode <;> simp

theorem all_iff (permissionList : List Permission) :
    (permissionList.all fun permission => !permission.isRequired || processor.holds permission.ref) = true ↔
      processor.AllHeld permissionList := by
  rw [List.all_eq_true]
  refine forall₂_congr fun permission _ => ?_
  rw [← holds_iff]
  cases permission.isRequired <;> simp

/-- What is asked about is the same for the permissions that an answer was written into. -/
theorem hasPermissions_eq {permissions : Option (List Permission)} (h : processor.Checkable permissions) :
    ∃ access after, processor.hasPermissions permissions = some (access, after) ∧
      (access = true ↔ processor.AllHeld (permissions.getD [])) ∧ processor.Checkable after ∧
      (processor.AllHeld (after.getD []) ↔ processor.AllHeld (permissions.getD [])) := by
  cases permissions with
  | none => exact ⟨true, none, rfl, iff_of_true rfl nofun, h, Iff.rfl⟩
  | some permissionList =>
    by_cases hgroups : processor.HasGroups
    · refine ⟨_, some (permissionList.map processor.mark), ?_, all_iff permissionList, .inl hgroups, ?_⟩
      · rw [hasPermissions, hasPermissionList_eq hgroups, Bool.true_and]
        rfl
      · show (∀ permission ∈ permissionList.map processor.mark, _) ↔ _
        rw [List.forall_mem_map]
        refine forall₂_congr fun permission _ => ?_
        rw [(isRequired_mark permission).1, (isRequired_mark permission).2.2]
    · have hanonymous : ∀ permission ∈ permissionList, permission.isAnonymous = true := h.resolve_left hgroups
      refine ⟨true, some permissionList, ?_, iff_of_true rfl ?_, h, Iff.rfl⟩
      · rw [hasPermissions, hasPermissionList_null hgroups, if_pos (List.all_eq_true.mpr hanonymous)]
        rfl
      · intro permission hpermission hrequired
        rw [Permission.isRequired, hanonymous permission hpermission] at hrequired
        simp at hrequired

theorem hasPermissions_null {permissions : Option (List Permission)} (h : ¬ processor.Checkable permissions) :
    processor.hasPermissions permissions = none := by
  obtain ⟨hgroups, hanonymous⟩ := not_or.mp h
  cases permissions with
  | none => exact absurd nofun hanonymous
  | some permissionList =>
    have hsome : ¬ permissionList.all Permission.isAnonymous = true := fun hall => hanonymous (List.all_eq_true.mp hall)
    rw [hasPermissions, hasPermissionList_null hgroups, if_neg hsome]
    rfl

theorem ask_eq {n : Nat} : ∀ {permissions : Option (List Permission)}, processor.Checkable permissions →
    ∃ access after, processor.ask n permissions = some (access, after) ∧
      (access = true ↔ processor.AllHeld (permissions.getD [])) := by
  induction n with
  | zero =>
    intro permissions h
    obtain ⟨access, after, heq, hiff, _, _⟩ := hasPermissions_eq h
    exact ⟨access, after, heq, hiff⟩
  | succ n ih =>
    intro permissions h
    obtain ⟨_, marked, heq, _, hcheckable, hsame⟩ := hasPermissions_eq h
    obtain ⟨access, after, hask, hiff⟩ := ih hcheckable
    refine ⟨access, after, ?_, hiff.trans hsame⟩
    rw [ask, heq]
    exact hask

theorem grants_iff {permissions : Option (List Permission)} :
    processor.Grants permissions ↔ processor.Checkable permissions ∧ processor.AllHeld (permissions.getD []) := by
  by_cases h : processor.Checkable permissions
  · obtain ⟨access, after, heq, hiff, _⟩ := hasPermissions_eq h
    rw [Grants, heq, ← hiff]
    simp [h]
  · rw [Grants, hasPermissions_null h]
    simp [h]

theorem Held.mono {fewer : DefaultPermissionProcessor} (happlication : fewer.application = processor.application)
    (h : fewer.roles ⊆ processor.roles) {ref : String} : fewer.Held ref → processor.Held ref := by
  rintro ⟨role, hrole, heq, hmem⟩
  exact ⟨role, h hrole, heq.trans (congrArg some happlication), hmem⟩

theorem roles_ownRoles : processor.ownRoles.roles =
    processor.roles.filter fun role => role.application == some processor.application := by
  obtain ⟨subject, application⟩ := processor
  cases subject with
  | none => rfl
  | some subject =>
    obtain ⟨groups⟩ := subject
    cases groups with
    | none => rfl
    | some groups => simp [roles, ownRoles, List.filter_flatMap, List.flatMap_map]

theorem held_ownRoles (ref : String) : processor.ownRoles.Held ref ↔ processor.Held ref := by
  show (∃ role ∈ processor.ownRoles.roles, role.application = some processor.application ∧ _) ↔ _
  rw [roles_ownRoles]
  refine exists_congr fun role => ?_
  rw [List.mem_filter, beq_iff_eq, and_assoc, and_self_left]

theorem checkable_ownRoles (permissions : Option (List Permission)) :
    processor.ownRoles.Checkable permissions ↔ processor.Checkable permissions := by
  refine or_congr_left' fun _ => ?_
  rw [ownRoles]
  simp

theorem decides_of_checkable {permissions : Option (List Permission)} (h : processor.Checkable permissions) :
    processor.Decides permissions where
  answers _ := ask_eq h
  monotone fewer happlication hroles hgrants :=
    grants_iff.mpr ⟨h, fun permission hpermission hrequired =>
      ((grants_iff.mp hgrants).2 permission hpermission hrequired).mono happlication hroles⟩
  independent := by
    rw [grants_iff, grants_iff, checkable_ownRoles]
    refine and_congr_right fun _ => forall₂_congr fun permission _ => ?_
    rw [held_ownRoles]

theorem decides_subject_iff (permissions : Option (List Permission)) :
    processor.Decides permissions ↔ processor.Checkable permissions := by
  refine ⟨fun h => ?_, decides_of_checkable⟩
  by_contra hnull
  obtain ⟨access, after, hask, _⟩ := h.answers 0
  rw [ask, hasPermissions_null hnull] at hask
  cases hask

/-! ## Fields -/

/-- The first block for the type of access is what the answer is for. -/
theorem hasBlockPermission_eq (type : FieldPermissionType) (precondition : Bool) (permissions : List FieldPermissions) :
    (processor.hasBlockPermission type precondition permissions).map Prod.fst =
      match permissions.filter fun block => block.appliesTo type with
      | [] => some precondition
      | first :: _ =>
        if precondition then (processor.hasPermissionList true first.permission).map Prod.fst else some false := by
  induction permissions with
  | nil => rfl
  | cons fieldPermissions permissions ih =>
    rw [hasBlockPermission, List.filter_cons]
    cases fieldPermissions.appliesTo type with
    | true => cases precondition <;> simp [Function.comp_def]
    | false =>
      rw [if_neg Bool.false_ne_true, if_neg Bool.false_ne_true, Option.map_map]
      exact ih

theorem hasFieldPermission_iff (field : FieldDef) (type : FieldPermissionType) (precondition : Bool) :
    (∃ after, processor.hasFieldPermission field type precondition = some (true, after)) ↔ precondition = true ∧
      ∀ first ∈ (field.blocks type).head?, processor.Grants (some first.permission) := by
  have hblocks : (processor.hasFieldPermission field type precondition).map Prod.fst =
      match field.blocks type with
      | [] => some precondition
      | first :: _ =>
        if precondition then (processor.hasPermissionList true first.permission).map Prod.fst else some false := by
    rw [hasFieldPermission, FieldDef.blocks]
    cases field.permissions with
    | none => rfl
    | some permissions =>
      show Option.map Prod.fst (Option.map _ _) = _
      rw [Option.map_map]
      exact hasBlockPermission_eq type precondition permissions
  have hfst : (∃ after, processor.hasFieldPermission field type precondition = some (true, after)) ↔
      (processor.hasFieldPermission field type precondition).map Prod.fst = some true := by
    simp
  rw [hfst, hblocks]
  cases field.blocks type with
  | nil => simp
  | cons first later =>
    cases precondition with
    | false => simp
    | true =>
      show (processor.hasPermissionList true first.permission).map Prod.fst = some true ↔ _
      simp [Grants, hasPermissions]

/-- A subject with one role, which has certain permissions. -/
def withPermissions (application : String) (names : List String) : DefaultPermissionProcessor where
  subject := some { groups := some [{ roles := [{ application := some application, permissions := names }] }] }
  application := application

theorem held_withPermissions {application : String} {names : List String} {ref : String} :
    (withPermissions application names).Held ref ↔ ref ∈ names := by
  simp [Held, withPermissions, roles]

theorem checkable_withPermissions (application : String) (names : List String) (permissions : Option (List Permission)) :
    (withPermissions application names).Checkable permissions := by
  refine .inl fun subject hsubject => ?_
  cases hsubject
  exact Option.some_ne_none _

theorem firstDecides_iff (application : String) (blocks : List FieldPermissions) :
    (∀ subject, (∀ first ∈ blocks.head?, Grants ⟨subject, application⟩ (some first.permission)) →
      ∀ block ∈ blocks, AllHeld ⟨subject, application⟩ block.permission) ↔ FirstDecides blocks := by
  cases blocks with
  | nil => exact iff_of_true (fun _ _ => nofun) trivial
  | cons first later =>
    simp only [List.head?_cons, Option.mem_some_iff, forall_eq', List.forall_mem_cons]
    constructor
    · intro h
      -- the subject that has what the first block asks for, and nothing else
      have hsubject := h (withPermissions application
        ((first.permission.filter Permission.isRequired).map Permission.ref)).subject
      have hfirst : (withPermissions application ((first.permission.filter Permission.isRequired).map
          Permission.ref)).AllHeld first.permission := by
        intro permission hpermission hrequired
        exact held_withPermissions.mpr (List.mem_map_of_mem (List.mem_filter.mpr ⟨hpermission, hrequired⟩))
      intro block hblock permission hpermission hrequired
      have hheld := (hsubject (grants_iff.mpr ⟨checkable_withPermissions _ _ _, hfirst⟩)).2 block hblock permission
        hpermission hrequired
      obtain ⟨checked, hchecked, href⟩ := List.mem_map.mp (held_withPermissions.mp hheld)
      obtain ⟨hmem, hreq⟩ := List.mem_filter.mp hchecked
      exact ⟨checked, hmem, hreq, href⟩
    · intro h subject hgrants
      have hfirst : AllHeld ⟨subject, application⟩ first.permission := (grants_iff.mp hgrants).2
      refine ⟨hfirst, fun block hblock permission hpermission hrequired => ?_⟩
      obtain ⟨checked, hchecked, hreq, href⟩ := h block hblock permission hpermission hrequired
      rw [← href]
      exact hfirst checked hchecked hreq

theorem fieldSafe_iff (application : String) (field : FieldDef) :
    (∀ subject, FieldSafe ⟨subject, application⟩ field) ↔
      (field.isReadonly = true ∨ FirstDecides (field.blocks .write)) ∧ FirstDecides (field.blocks .read) := by
  have hwrite : ∀ processor : DefaultPermissionProcessor,
      (∃ after, processor.hasWritePermission field = some (true, after)) ↔ field.isReadonly = false ∧
        ∀ first ∈ (field.blocks .write).head?, processor.Grants (some first.permission) := by
    intro processor
    rw [hasWritePermission, hasFieldPermission_iff, Bool.not_eq_true']
  have hread : ∀ processor : DefaultPermissionProcessor,
      (∃ after, processor.hasReadPermission field = some (true, after)) ↔
        ∀ first ∈ (field.blocks .read).head?, processor.Grants (some first.permission) := by
    intro processor
    rw [hasReadPermission, hasFieldPermission_iff]
    exact and_iff_right rfl
  rw [← firstDecides_iff application, ← firstDecides_iff application]
  constructor
  · intro h
    constructor
    · cases hreadonly : field.isReadonly with
      | true => exact .inl rfl
      | false =>
        refine .inr fun subject hgrants => ?_
        obtain ⟨after, hafter⟩ := (hwrite ⟨subject, application⟩).mpr ⟨hreadonly, hgrants⟩
        exact ((h subject).write after hafter).2
    · intro subject hgrants
      obtain ⟨after, hafter⟩ := (hread ⟨subject, application⟩).mpr hgrants
      exact (h subject).read after hafter
  · rintro ⟨hblocks, hreadBlocks⟩ subject
    constructor
    · intro after hafter
      obtain ⟨hreadonly, hgrants⟩ := (hwrite ⟨subject, application⟩).mp ⟨after, hafter⟩
      have hsafe := hblocks.resolve_left fun htrue => Bool.noConfusion (hreadonly.symm.trans htrue)
      exact ⟨hreadonly, hsafe subject hgrants⟩
    · exact fun after hafter => hreadBlocks subject ((hread ⟨subject, application⟩).mp ⟨after, hafter⟩)

theorem decides_iff (application : String) :
    (∀ subject permissions, Decides ⟨subject, application⟩ permissions ↔ Checkable ⟨subject, application⟩ permissions) ∧
      ∀ field, (∀ subject, FieldSafe ⟨subject, application⟩ field) ↔
        (field.isReadonly = true ∨ FirstDecides (field.blocks .write)) ∧ FirstDecides (field.blocks .read) :=
  ⟨fun _ permissions => decides_subject_iff permissions, fieldSafe_iff application⟩

def setPermission (ref : String) : Permission := { ref, mode := some .set }

/-- The second block is never looked at. -/
def twoBlocks : FieldDef where
  permissions := some [{ permission := [] }, { mode := some .write, permission := [setPermission "salary.write"] }]

/-- That the groups are null is only logged. -/
theorem skips_block : hasPermissions ⟨some { groups := none }, "hr"⟩ (some [setPermission "salary.read"]) = none ∧
    hasWritePermission ⟨none, "hr"⟩ twoBlocks = some (true, twoBlocks) ∧ ¬ FieldSafe ⟨none, "hr"⟩ twoBlocks := by
  refine ⟨by decide, by decide, fun h => ?_⟩
  have hheld := (h.write twoBlocks (by decide)).2 { mode := some .write, permission := [setPermission "salary.write"] }
    (by decide) (setPermission "salary.write") (by decide) (by decide)
  obtain ⟨role, hrole, _⟩ := hheld
  cases hrole

end DefaultPermissionProcessor

end PermissionProcessor
end Groups
end AppNG
