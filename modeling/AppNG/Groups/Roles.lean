import AppNG.Lib.Loop
import Mathlib.Data.List.Nodup

/-!
# Groups.Roles

The roles of a group: `CoreService.assignRolesToGroup` and `addApplicationRolesToGroup`.

Both look up the roles to add. The first one adds what it finds, the second one throws where it finds nothing.

* `mem_removed`, `mem_added`: what is left of the roles, and what comes to them.
* `rolesAssigned_iff`: after the first one, the roles are the ones that were asked for and those of other applications, if
  and only if every id that is given is the id of a role.
* `addApplicationRolesToGroup_exact`: the second one adds roles only, and all that were asked for unless it throws.
-/

namespace AppNG
namespace Groups

open Loop

/-! ## The code -/

structure Role where
  id : Nat
  name : String
  application : String
  deriving DecidableEq, Repr

/-- A set of roles may hold null. -/
abbrev RoleSet := List (Option Role)

structure Group where
  roles : List Role
  distinct : roles.Nodup

structure RoleRepository where
  findById : Nat → Option Role
  findByApplicationIdAndName : String → String → Option Role

/-- A role is removed if its application is one of the site. None: it is null, and a `NullPointerException` is
thrown. -/
def removeRole (hasApplication : String → Bool) (applicationRoles : RoleSet) : Option Role → Option RoleSet
  | none => none
  | some applicationRole =>
    if hasApplication applicationRole.application then some (applicationRoles.erase (some applicationRole))
    else some applicationRoles

def addRole (roleRepository : RoleRepository) (applicationRoles : RoleSet) (roleId : Nat) : RoleSet :=
  applicationRoles.insert (roleRepository.findById roleId)

/-- The roles that are removed are looked for in a copy. -/
def assignRolesToGroup (roleRepository : RoleRepository) (hasApplication : String → Bool) (roles : RoleSet)
    (applicationRoleIds : List Nat) : Option RoleSet :=
  (roles.foldlM (removeRole hasApplication) roles).map fun applicationRoles =>
    applicationRoleIds.foldl (addRole roleRepository) applicationRoles

/-- `NoResultException` -/
structure NoResult where
  message : String
  deriving DecidableEq, Repr

def addApplicationRole (roleRepository : RoleRepository) (applicationName : String) (roles : RoleSet)
    (applicationRoleName : String) : RoleSet × Option NoResult :=
  match roleRepository.findByApplicationIdAndName applicationName applicationRoleName with
  | some applicationRole => (roles.insert (some applicationRole), none)
  | none => (roles, some ⟨"Application '" ++ applicationName ++ "' has no role '" ++ applicationRoleName ++ "'"⟩)

def addApplicationRolesToGroup (roleRepository : RoleRepository) (roles : RoleSet) (applicationName : String)
    (applicationRoleNames : List String) (clear : Bool) : RoleSet × Option NoResult :=
  foldUntil (addApplicationRole roleRepository applicationName) (if clear then [] else roles) applicationRoleNames

/-- The role was asked for, or the group had it and its application is not assigned to the site. -/
def Wanted (roleRepository : RoleRepository) (hasApplication : String → Bool) (group : Group)
    (applicationRoleIds : List Nat) (role : Role) : Prop :=
  (∃ roleId ∈ applicationRoleIds, roleRepository.findById roleId = some role) ∨
    role ∈ group.roles ∧ hasApplication role.application = false

/-- The set holds the roles with a property, and nothing else. -/
def Exact (P : Role → Prop) (roles : RoleSet) : Prop :=
  roles.Nodup ∧ ∀ entry, entry ∈ roles ↔ ∃ role, entry = some role ∧ P role

variable {roleRepository : RoleRepository} {hasApplication : String → Bool}

/-! ## Roles that are assigned -/

theorem mem_removed (hasApplication : String → Bool) {roles : List Role} : ∀ {applicationRoles : RoleSet}, applicationRoles.Nodup →
    ∃ kept, (roles.map some).foldlM (removeRole hasApplication) applicationRoles = some kept ∧ kept.Nodup ∧
      ∀ entry, entry ∈ kept ↔ entry ∈ applicationRoles ∧
        ∀ role ∈ roles, entry = some role → hasApplication role.application = false := by
  induction roles with
  | nil => exact fun hnodup => ⟨_, rfl, hnodup, by simp⟩
  | cons role roles ih =>
    intro applicationRoles hnodup
    rw [List.map_cons, List.foldlM_cons, removeRole]
    cases happlication : hasApplication role.application with
    | true =>
      obtain ⟨kept, hkept, hkeptNodup, hmem⟩ := ih (hnodup.erase (some role))
      refine ⟨kept, hkept, hkeptNodup, fun entry => ?_⟩
      rw [hmem, hnodup.mem_erase_iff, List.forall_mem_cons]
      constructor
      · rintro ⟨⟨hne, hentry⟩, hall⟩
        exact ⟨hentry, fun heq => absurd heq hne, hall⟩
      · rintro ⟨hentry, hrole, hall⟩
        refine ⟨⟨fun heq => ?_, hentry⟩, hall⟩
        rw [hrole heq] at happlication
        cases happlication
    | false =>
      obtain ⟨kept, hkept, hkeptNodup, hmem⟩ := ih hnodup
      refine ⟨kept, hkept, hkeptNodup, fun entry => ?_⟩
      rw [hmem, List.forall_mem_cons]
      simp [happlication]

theorem nodup_added {ids : List Nat} : ∀ {roles : RoleSet}, roles.Nodup →
    (ids.foldl (addRole roleRepository) roles).Nodup := by
  induction ids with
  | nil => exact fun hnodup => hnodup
  | cons id ids ih => exact fun hnodup => ih (hnodup.insert)

theorem mem_added {ids : List Nat} {entry : Option Role} : ∀ {roles : RoleSet},
    entry ∈ ids.foldl (addRole roleRepository) roles ↔
      entry ∈ roles ∨ ∃ roleId ∈ ids, entry = roleRepository.findById roleId := by
  induction ids with
  | nil => simp
  | cons id ids ih =>
    intro roles
    rw [List.foldl_cons, ih, addRole, List.mem_insert_iff, List.exists_mem_cons_iff]
    constructor
    · rintro ((hid | hentry) | hids)
      · exact .inr (.inl hid)
      · exact .inl hentry
      · exact .inr (.inr hids)
    · rintro (hentry | hid | hids)
      · exact .inl (.inr hentry)
      · exact .inl (.inl hid)
      · exact .inr hids

theorem nodup_roles (group : Group) : (group.roles.map some).Nodup :=
  group.distinct.map fun _ _ heq => Option.some.inj heq

/-- What is in the set of roles afterwards. -/
theorem mem_assigned (roleRepository : RoleRepository) (hasApplication : String → Bool) (group : Group) (ids : List Nat) :
    ∃ roles, assignRolesToGroup roleRepository hasApplication (group.roles.map some) ids = some roles ∧ roles.Nodup ∧
      ∀ entry, entry ∈ roles ↔ (∃ role ∈ group.roles, entry = some role ∧ hasApplication role.application = false) ∨
        ∃ roleId ∈ ids, entry = roleRepository.findById roleId := by
  obtain ⟨kept, hkept, hnodup, hmem⟩ := mem_removed hasApplication (nodup_roles group)
  refine ⟨ids.foldl (addRole roleRepository) kept, by rw [assignRolesToGroup, hkept]; rfl, nodup_added hnodup,
    fun entry => ?_⟩
  have hold : entry ∈ kept ↔ ∃ role ∈ group.roles, entry = some role ∧ hasApplication role.application = false := by
    rw [hmem, List.mem_map]
    constructor
    · rintro ⟨⟨role, hrole, rfl⟩, hall⟩
      exact ⟨role, hrole, rfl, hall role hrole rfl⟩
    · rintro ⟨role, hrole, rfl, happlication⟩
      refine ⟨⟨role, hrole, rfl⟩, fun role' _ heq => ?_⟩
      rw [← Option.some.inj heq]
      exact happlication
  rw [mem_added, hold]

theorem rolesAssigned_iff (roleRepository : RoleRepository) (hasApplication : String → Bool) (group : Group) (ids : List Nat) :
    (∃ roles, assignRolesToGroup roleRepository hasApplication (group.roles.map some) ids = some roles ∧
      Exact (Wanted roleRepository hasApplication group ids) roles) ↔
      ∀ roleId ∈ ids, (roleRepository.findById roleId).isSome := by
  obtain ⟨roles, hroles, hnodup, hmem⟩ := mem_assigned roleRepository hasApplication group ids
  constructor
  · rintro ⟨roles', hroles', _, hexact⟩ roleId hid
    obtain rfl := Option.some.inj (hroles.symm.trans hroles')
    have hfound : roleRepository.findById roleId ∈ roles := (hmem _).mpr (.inr ⟨roleId, hid, rfl⟩)
    obtain ⟨role, hrole, _⟩ := (hexact _).mp hfound
    rw [hrole]
    rfl
  · intro hall
    refine ⟨roles, hroles, hnodup, fun entry => ?_⟩
    rw [hmem]
    constructor
    · rintro (⟨role, hrole, rfl, happlication⟩ | ⟨roleId, hid, rfl⟩)
      · exact ⟨role, rfl, .inr ⟨hrole, happlication⟩⟩
      · obtain ⟨role, hrole⟩ := Option.isSome_iff_exists.mp (hall roleId hid)
        exact ⟨role, hrole, .inl ⟨roleId, hid, hrole⟩⟩
    · rintro ⟨role, rfl, ⟨roleId, hid, hrole⟩ | ⟨hrole, happlication⟩⟩
      · exact .inr ⟨roleId, hid, hrole.symm⟩
      · exact .inl ⟨role, hrole, rfl, happlication⟩

def emptyRepository : RoleRepository where
  findById _ := none
  findByApplicationIdAndName _ _ := none

/-- For an id that is none of a role, null is added. -/
theorem adds_null :
    assignRolesToGroup emptyRepository (fun _ => true) [] [4711] = some [none] ∧
      ¬ Exact (Wanted emptyRepository (fun _ => true) ⟨[], List.nodup_nil⟩ [4711]) [none] := by
  refine ⟨rfl, fun h => ?_⟩
  obtain ⟨role, hrole, _⟩ := (h.2 none).mp List.mem_cons_self
  cases hrole

/-! ## Roles of an application -/

variable {applicationName : String}

theorem addApplicationRole_eq (roleRepository : RoleRepository) (applicationName : String) (roles : RoleSet)
    (name : String) :
    (∃ role, roleRepository.findByApplicationIdAndName applicationName name = some role ∧
      addApplicationRole roleRepository applicationName roles name = (roles.insert (some role), none)) ∨
    roleRepository.findByApplicationIdAndName applicationName name = none ∧
      ∃ e, addApplicationRole roleRepository applicationName roles name = (roles, some e) := by
  rw [addApplicationRole]
  cases roleRepository.findByApplicationIdAndName applicationName name with
  | some role => exact .inl ⟨role, rfl, rfl⟩
  | none => exact .inr ⟨rfl, _, rfl⟩

theorem Exact.congr {P Q : Role → Prop} {roles : RoleSet} (h : Exact P roles) (hiff : ∀ role, P role ↔ Q role) :
    Exact Q roles := by
  refine ⟨h.1, fun entry => ?_⟩
  simp only [h.2, hiff]

theorem Exact.insert {P : Role → Prop} {roles : RoleSet} (h : Exact P roles) (role : Role) :
    Exact (fun role' => P role' ∨ role' = role) (roles.insert (some role)) := by
  refine ⟨h.1.insert, fun entry => ?_⟩
  rw [List.mem_insert_iff, h.2]
  constructor
  · rintro (rfl | ⟨role', rfl, hP⟩)
    · exact ⟨role, rfl, .inr rfl⟩
    · exact ⟨role', rfl, .inl hP⟩
  · rintro ⟨role', rfl, hP | rfl⟩
    · exact .inr ⟨role', rfl, hP⟩
    · exact .inl rfl

theorem foldUntil_addApplicationRole {names : List String} : ∀ {P : Role → Prop} {roles : RoleSet}, Exact P roles →
    ((foldUntil (addApplicationRole roleRepository applicationName) roles names).2 = none ↔
      ∀ name ∈ names, (roleRepository.findByApplicationIdAndName applicationName name).isSome) ∧
    ((foldUntil (addApplicationRole roleRepository applicationName) roles names).2 = none →
      Exact (fun role => P role ∨
          ∃ name ∈ names, roleRepository.findByApplicationIdAndName applicationName name = some role)
        (foldUntil (addApplicationRole roleRepository applicationName) roles names).1) := by
  induction names with
  | nil => exact fun h => ⟨by simp [foldUntil], fun _ => h.congr fun role => by simp⟩
  | cons name names ih =>
    intro P roles hexact
    rcases addApplicationRole_eq roleRepository applicationName roles name with ⟨role, hrole, hok⟩ | ⟨hnone, e, hthrew⟩
    · rw [foldUntil_cons_ok hok]
      obtain ⟨hiff, hafter⟩ := ih (hexact.insert role)
      refine ⟨hiff.trans (by simp [hrole]), fun hnone => (hafter hnone).congr fun role' => ?_⟩
      simp [hrole, or_assoc, eq_comm]
    · rw [foldUntil_cons_threw hthrew]
      simp [hnone]

/-- It ends normally if and only if all roles exist, and then has added them. -/
theorem addApplicationRolesToGroup_exact (group : Group) (names : List String) (clear : Bool) :
    ((addApplicationRolesToGroup roleRepository (group.roles.map some) applicationName names clear).2 = none ↔
      ∀ name ∈ names, (roleRepository.findByApplicationIdAndName applicationName name).isSome) ∧
    ((addApplicationRolesToGroup roleRepository (group.roles.map some) applicationName names clear).2 = none →
      Exact (fun role => (clear = false ∧ role ∈ group.roles) ∨
          ∃ name ∈ names, roleRepository.findByApplicationIdAndName applicationName name = some role)
        (addApplicationRolesToGroup roleRepository (group.roles.map some) applicationName names clear).1) := by
  refine foldUntil_addApplicationRole ?_
  cases clear with
  | true => exact ⟨List.nodup_nil, by simp⟩
  | false =>
    refine ⟨nodup_roles group, fun entry => ?_⟩
    simp only [Bool.false_eq_true, if_false, List.mem_map, true_and]
    constructor
    · rintro ⟨role, hrole, rfl⟩
      exact ⟨role, rfl, hrole⟩
    · rintro ⟨role, rfl, hrole⟩
      exact ⟨role, hrole, rfl⟩

end Groups
end AppNG
