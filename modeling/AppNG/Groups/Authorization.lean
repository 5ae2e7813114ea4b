import AppNG.Groups.PermissionProcessor
import AppNG.Groups.Roles
import AppNG.Lib.Keyed
import AppNG.Lib.Machine

/-!
# Groups.Authorization

The tables behind the permissions of a subject: the installation, the update and the deletion of applications, their
roles and permissions, and who is given which, in `CoreService`.

Every row has an identity that is never used again. What throws is rolled back.

* `Database`: the tables.
* `Event`, `Step`: the operations, in any order.
-/

namespace AppNG
namespace Groups
namespace Authorization

open Machine

/-! ## The tables -/

structure ApplicationRow where
  id : Nat
  name : String
  deriving DecidableEq

structure PermissionRow where
  id : Nat
  name : String
  description : Option String
  application : Nat
  deriving DecidableEq

structure RoleRow where
  id : Nat
  name : String
  description : Option String
  application : Nat
  permissions : List Nat
  deriving DecidableEq

structure GroupRow where
  id : Nat
  name : String
  defaultAdmin : Bool
  roles : List Nat
  deriving DecidableEq

/-- What a group of administrators gets. -/
def GroupRow.addAdminRoles (adminRoles : List Nat) (group : GroupRow) : GroupRow :=
  if group.defaultAdmin then { group with roles := group.roles ∪ adminRoles } else group

theorem GroupRow.id_addAdminRoles {adminRoles : List Nat} (group : GroupRow) :
    (group.addAdminRoles adminRoles).id = group.id := by
  unfold GroupRow.addAdminRoles
  split <;> rfl

/-- A group without the role. -/
def GroupRow.without (roleId : Nat) (group : GroupRow) : GroupRow :=
  { group with roles := group.roles.filter fun role => role != roleId }

theorem GroupRow.id_without (roleId : Nat) (group : GroupRow) : (group.without roleId).id = group.id := rfl

structure SubjectRow where
  id : Nat
  name : String
  groups : List Nat
  deriving DecidableEq

/-- A subject without the group. -/
def SubjectRow.without (groupId : Nat) (subject : SubjectRow) : SubjectRow :=
  { subject with groups := subject.groups.filter fun group => group != groupId }

theorem SubjectRow.id_without (groupId : Nat) (subject : SubjectRow) :
    (subject.without groupId).id = subject.id := rfl

/-- `next` is the identity of the next row, of whatever table. -/
structure Database where
  next : Nat
  applications : Keyed ApplicationRow.id
  permissions : Keyed PermissionRow.id
  roles : Keyed RoleRow.id
  groups : Keyed GroupRow.id
  subjects : Keyed SubjectRow.id

inductive Failure where
  | nonUniqueResult
  | noResult
  | nullPointer
  | business
  | constraintViolation
  deriving DecidableEq, Repr

/-- A query for one row at most. -/
def findUnique {R : Type} (rows : List R) (p : R → Bool) : Except Failure (Option R) :=
  match rows.filter p with
  | [] => .ok none
  | [row] => .ok (some row)
  | _ => .error .nonUniqueResult

/-! ## `application.xml` -/

structure PermissionInfo where
  id : String
  value : Option String

structure RoleInfo where
  name : String
  description : Option String
  isAdminRole : Bool
  permission : List String

structure ApplicationInfo where
  name : String
  permissions : Option (List PermissionInfo)
  roles : Option (List RoleInfo)

def ApplicationInfo.getPermissions (info : ApplicationInfo) : List PermissionInfo := info.permissions.getD []

def ApplicationInfo.getRoles (info : ApplicationInfo) : List RoleInfo := info.roles.getD []

/-! ## What is edited -/

/-- A role with the permissions that it should have: a new one of an application, or one that is stored. -/
inductive RoleEdit where
  | create (applicationId : Nat) (name : String) (description : Option String) (permissions : List Nat)
  | update (roleId : Nat) (name : String) (description : Option String) (permissions : List Nat)

def RoleEdit.permissions : RoleEdit → List Nat
  | .create _ _ _ permissions => permissions
  | .update _ _ _ permissions => permissions

/-- A new permission of an application, or one that is stored, with the name that it should have. -/
inductive PermissionEdit where
  | create (applicationId : Nat) (permission : PermissionInfo)
  | update (permissionId : Nat) (permission : PermissionInfo)

/-! ## Applications -/

namespace Database

variable (db : Database)

def empty : Database := ⟨0, Keyed.empty, Keyed.empty, Keyed.empty, Keyed.empty, Keyed.empty⟩

/-- The name of an application is unique. -/
def findApplication (name : String) : Option ApplicationRow :=
  db.applications.values.find? fun application => application.name == name

/-- `permissionRepository.findByNameAndApplicationId` -/
def findPermission (name : String) (applicationId : Nat) : Except Failure (Option PermissionRow) :=
  findUnique db.permissions.values fun p => p.name == name && p.application == applicationId

/-- `roleRepository.findByApplicationIdAndName` -/
def findRole (applicationId : Nat) (name : String) : Except Failure (Option RoleRow) :=
  findUnique db.roles.values fun r => r.application == applicationId && r.name == name

def createPermission (applicationId : Nat) (permission : PermissionInfo) : Database :=
  { db with
    next := db.next + 1
    permissions := db.permissions.put ⟨db.next, permission.id, permission.value, applicationId⟩ }

/-- `applicationRole.getPermissions().add(p)`, for a role that is stored. -/
def addPermission (roleId permissionId : Nat) : Database :=
  match db.roles.get roleId with
  | none => db
  | some role => { db with roles := db.roles.put { role with permissions := role.permissions.insert permissionId } }

/-- A permission that does not exist is skipped. -/
def addPermissionToRole (applicationId roleId : Nat) (permissionName : String) : Except Failure Database := do
  match ← db.findPermission permissionName applicationId with
  | none => return db
  | some p => return db.addPermission roleId p.id

def addPermissionsToRole (applicationId : Nat) (role : RoleInfo) (applicationRole : Nat) :
    Except Failure Database :=
  role.permission.foldlM (fun db permissionName => db.addPermissionToRole applicationId applicationRole permissionName)
    db

/-- The row of a new role. -/
def insertRole (applicationId : Nat) (role : RoleInfo) : Database :=
  { db with
    next := db.next + 1
    roles := db.roles.put ⟨db.next, role.name, role.description, applicationId, []⟩ }

def createApplicationRole (applicationId : Nat) (role : RoleInfo) : Except Failure Database :=
  (db.insertRole applicationId role).addPermissionsToRole applicationId role db.next

/-- One role of a new application, with the admin roles so far. -/
def createRole (applicationId : Nat) (created : Database × List Nat) (role : RoleInfo) :
    Except Failure (Database × List Nat) := do
  let db ← created.1.createApplicationRole applicationId role
  return (db, if role.isAdminRole then created.1.next :: created.2 else created.2)

def addToAdminGroups (adminRoles : List Nat) : Database :=
  { db with groups := db.groups.mapValues (GroupRow.addAdminRoles adminRoles) GroupRow.id_addAdminRoles }

def insertApplication (name : String) : Database :=
  { db with next := db.next + 1, applications := db.applications.put ⟨db.next, name⟩ }

/-- With `db.next` as its identity. -/
def createApplication (info : ApplicationInfo) : Except Failure Database := do
  let created := info.getPermissions.foldl (fun created => created.createPermission db.next)
    (db.insertApplication info.name)
  let (created, adminRoles) ← info.getRoles.foldlM (createRole db.next) (created, [])
  return created.addToAdminGroups adminRoles

def updatePermission (applicationId : Nat) (permission : PermissionInfo) : Except Failure Database := do
  match ← db.findPermission permission.id applicationId with
  | none => return db.createPermission applicationId permission
  | some _ => return db

def setDescription (roleId : Nat) (description : Option String) : Database :=
  match db.roles.get roleId with
  | none => db
  | some role => { db with roles := db.roles.put { role with description } }

def updateRole (applicationId : Nat) (role : RoleInfo) : Except Failure Database := do
  match ← db.findRole applicationId role.name with
  | none => db.createApplicationRole applicationId role
  | some applicationRole => do
    let db ← db.addPermissionsToRole applicationId role applicationRole.id
    return db.setDescription applicationRole.id role.description

/-- `valid` is what becomes of the resources in the archive. -/
def updateApplication (applicationId : Nat) (info : ApplicationInfo) (valid : Bool) : Except Failure Database := do
  if valid then
    let db ← info.getPermissions.foldlM (fun db => updatePermission db applicationId) db
    info.getRoles.foldlM (fun db => updateRole db applicationId) db
  else throw .business

def provideApplication (info : ApplicationInfo) (valid : Bool) : Except Failure Database := do
  match db.findApplication info.name with
  | none => do
    let created ← db.createApplication info
    created.updateApplication db.next info valid
  | some application => db.updateApplication application.id info valid

/-! ## Roles and permissions that go -/

/-- Each group with the role loses it first. -/
def deleteRole (roleId : Nat) : Except Failure Database :=
  match db.roles.get roleId with
  | none => .error .business
  | some _ => .ok { db with
      groups := db.groups.mapValues (GroupRow.without roleId) (GroupRow.id_without roleId)
      roles := db.roles.erase roleId }

/-- The table of the roles refers to that of the permissions. -/
def deletePermission (permissionId : Nat) : Except Failure Database :=
  if db.roles.values.any fun role => role.permissions.contains permissionId then .error .constraintViolation
  else .ok { db with permissions := db.permissions.erase permissionId }

/-- `linked` is whether the application belongs to an active site. -/
def deleteApplication (applicationId : Nat) (linked : Bool) : Except Failure Database := do
  match db.applications.get applicationId with
  | none => throw .business
  | some _ =>
    if linked then throw .business
    else
      let roles := (db.roles.values.filter fun role => role.application == applicationId).map RoleRow.id
      let permissions := (db.permissions.values.filter fun p => p.application == applicationId).map PermissionRow.id
      let db ← roles.foldlM deleteRole db
      let db ← permissions.foldlM deletePermission db
      return { db with applications := db.applications.erase applicationId }

def saveRole (edit : RoleEdit) : Except Failure Database :=
  if edit.permissions.all fun p => (db.permissions.get p).isSome then
    match edit with
    | .create applicationId name description permissions =>
      if (db.applications.get applicationId).isSome then
        .ok { db with
          next := db.next + 1
          roles := db.roles.put ⟨db.next, name, description, applicationId, permissions⟩ }
      else .error .constraintViolation
    | .update roleId name description permissions =>
      match db.roles.get roleId with
      | none => .error .nullPointer
      | some role => .ok { db with roles := db.roles.put { role with name, description, permissions } }
  else .error .constraintViolation

def savePermission : PermissionEdit → Except Failure Database
  | .create applicationId permission =>
    if (db.applications.get applicationId).isSome then .ok (db.createPermission applicationId permission)
    else .error .constraintViolation
  | .update permissionId permission =>
    match db.permissions.get permissionId with
    | none => .error .nullPointer
    | some p => .ok { db with
        permissions := db.permissions.put { p with name := permission.id, description := permission.value } }

/-! ## The permissions of one role -/

def getApplicationRole (applicationName roleName : String) : Except Failure RoleRow := do
  match db.findApplication applicationName with
  | none => throw .business
  | some application =>
    match ← db.findRole application.id roleName with
    | none => throw .business
    | some role => return role

/-- `role.getPermissions().contains(permission)` -/
def hasStored (roleId permissionId : Nat) : Bool :=
  (db.roles.get roleId).any fun role => role.permissions.contains permissionId

/-- `role.getPermissions().remove(permission)`, for a role that is stored. -/
def removePermission (roleId permissionId : Nat) : Database :=
  match db.roles.get roleId with
  | none => db
  | some role => { db with
      roles := db.roles.put { role with permissions := role.permissions.filter fun p => p != permissionId } }

/-- One permission by its name. It is edited if the role has it, or if it has not, and counted then. -/
def editPermission (edit : Database → Nat → Nat → Database) (contained : Bool) (role : RoleRow)
    (edited : Database × Nat) (permissionName : String) : Except Failure (Database × Nat) := do
  match ← edited.1.findPermission permissionName role.application with
  | none => throw .business
  | some p =>
    if edited.1.hasStored role.id p.id == contained then return (edit edited.1 role.id p.id, edited.2 + 1)
    else return edited

/-- The loop that `addPermissions` and `removePermissions` have in common. -/
def editPermissions (edit : Database → Nat → Nat → Database) (contained : Bool) (applicationName roleName : String)
    (permissionNames : List String) : Except Failure (Database × Nat) := do
  let role ← db.getApplicationRole applicationName roleName
  permissionNames.foldlM (editPermission edit contained role) (db, 0)

def addPermissions (applicationName roleName : String) (permissionNames : List String) :
    Except Failure (Database × Nat) :=
  db.editPermissions addPermission false applicationName roleName permissionNames

def removePermissions (applicationName roleName : String) (permissionNames : List String) :
    Except Failure (Database × Nat) :=
  db.editPermissions removePermission true applicationName roleName permissionNames

/-! ## Groups -/

def findGroup (name : String) : Option GroupRow := db.groups.values.find? fun group => group.name == name

def areRoles (roles : List Nat) : Bool := roles.all fun role => (db.roles.get role).isSome

/-- With the roles that the caller has given it. -/
def createGroup (name : String) (defaultAdmin : Bool) (roles : List Nat) : Except Failure Database :=
  match db.findGroup name with
  | some _ => .error .constraintViolation
  | none =>
    if db.areRoles roles then
      .ok { db with next := db.next + 1, groups := db.groups.put ⟨db.next, name, defaultAdmin, roles⟩ }
    else .error .constraintViolation

/-- A group that the caller has read, and changed. -/
def updateGroup (groupId : Nat) (name : String) (defaultAdmin : Bool) (roles : List Nat) :
    Except Failure Database :=
  match db.groups.get groupId with
  | none => .error .nullPointer
  | some group =>
    if (db.groups.values.any fun other => other.name == name && other.id != groupId) || !db.areRoles roles then
      .error .constraintViolation
    else .ok { db with groups := db.groups.put { group with name, defaultAdmin, roles } }

def deleteGroup (groupId : Nat) : Except Failure Database :=
  match db.groups.get groupId with
  | none => .error .nullPointer
  | some group =>
    if group.defaultAdmin then .ok db
    else .ok { db with
      subjects := db.subjects.mapValues (SubjectRow.without groupId) (SubjectRow.id_without groupId)
      groups := db.groups.erase groupId }

/-- The role, with the name of its application. -/
def toRole (role : RoleRow) : Role :=
  ⟨role.id, role.name, ((db.applications.get role.application).map ApplicationRow.name).getD ""⟩

/-- Where there are several roles of a name, the query throws, as it does where there is none. -/
def roleRepository : RoleRepository where
  findById roleId := (db.roles.get roleId).map db.toRole
  findByApplicationIdAndName applicationName name :=
    (db.findApplication applicationName).bind fun application =>
      match db.findRole application.id name with
      | .ok role => role.map db.toRole
      | .error _ => none

def roleSet (group : GroupRow) : RoleSet := group.roles.map db.roleRepository.findById

/-- What is stored of a set: a null is not. -/
def storeRoles (group : GroupRow) (roles : RoleSet) : Database :=
  { db with groups := db.groups.put { group with roles := (roles.filterMap id).map Role.id } }

def assignRolesToGroup (groupId : Nat) (hasApplication : String → Bool) (applicationRoleIds : List Nat) :
    Except Failure Database :=
  match db.groups.get groupId with
  | none => .error .nullPointer
  | some group =>
    match Groups.assignRolesToGroup db.roleRepository hasApplication (db.roleSet group) applicationRoleIds with
    | none => .error .nullPointer
    | some roles => .ok (db.storeRoles group roles)

def addApplicationRolesToGroup (groupName applicationName : String) (applicationRoleNames : List String)
    (clear : Bool) : Except Failure Database :=
  match db.findGroup groupName with
  | none => .error .nullPointer
  | some group =>
    match Groups.addApplicationRolesToGroup db.roleRepository (db.roleSet group) applicationName applicationRoleNames
      clear with
    | (_, some _) => .error .noResult
    | (roles, none) => .ok (db.storeRoles group roles)

/-! ## Subjects -/

def findSubject (name : String) : Option SubjectRow := db.subjects.values.find? fun subject => subject.name == name

def areGroups (groups : List Nat) : Bool := groups.all fun group => (db.groups.get group).isSome

/-- With the groups that the caller has given it. -/
def createSubject (name : String) (groups : List Nat) : Except Failure Database :=
  match db.findSubject name with
  | some _ => .error .constraintViolation
  | none =>
    if db.areGroups groups then
      .ok { db with next := db.next + 1, subjects := db.subjects.put ⟨db.next, name, groups⟩ }
    else .error .constraintViolation

/-- A subject that the caller has read, and changed. -/
def updateSubject (subjectId : Nat) (name : String) (groups : List Nat) : Except Failure Database :=
  match db.subjects.get subjectId with
  | none => .error .nullPointer
  | some subject =>
    if (db.subjects.values.any fun other => other.name == name && other.id != subjectId) || !db.areGroups groups then
      .error .constraintViolation
    else .ok { db with subjects := db.subjects.put { subject with name, groups } }

def deleteSubject (subjectId : Nat) : Except Failure Database :=
  match db.subjects.get subjectId with
  | none => .error .noResult
  | some _ => .ok { db with subjects := db.subjects.erase subjectId }

/-- Groups that do not exist are not found. -/
def assignGroupsToSubject (subjectId : Nat) (groupIds : Option (List Nat)) (clear : Bool) :
    Except Failure Database :=
  match db.subjects.get subjectId with
  | none => .error .nullPointer
  | some subject =>
    let found := (db.groups.values.map GroupRow.id).filter fun group => (groupIds.getD []).contains group
    .ok { db with
      subjects := db.subjects.put { subject with groups := (if clear then [] else subject.groups) ∪ found } }

def addGroupsToSubject (userName : String) (groupNames : List String) (clear : Bool) : Except Failure Database :=
  match db.findSubject userName with
  | none => .error .nullPointer
  | some subject =>
    let groupIds := (db.groups.values.filter fun group => groupNames.contains group.name).map GroupRow.id
    db.assignGroupsToSubject subject.id (if groupNames.isEmpty then none else some groupIds) clear

/-! ## What a subject may do -/

def roleOf (role : RoleRow) : PermissionProcessor.Role where
  application := (db.applications.get role.application).map ApplicationRow.name
  permissions := (role.permissions.filterMap db.permissions.get).map PermissionRow.name

def groupOf (group : GroupRow) : PermissionProcessor.Group where
  roles := (group.roles.filterMap db.roles.get).map db.roleOf

def subjectOf (subject : SubjectRow) : PermissionProcessor.Subject where
  groups := some ((subject.groups.filterMap db.groups.get).map db.groupOf)

def processor (subject : SubjectRow) (application : String) : PermissionProcessor.DefaultPermissionProcessor where
  subject := some (db.subjectOf subject)
  application := application

end Database

/-! ## Runs -/

inductive Event where
  | provideApplication (info : ApplicationInfo) (valid : Bool)
  | deleteApplication (applicationId : Nat) (linked : Bool)
  | deleteRole (roleId : Nat)
  | deletePermission (permissionId : Nat)
  | saveRole (edit : RoleEdit)
  | savePermission (edit : PermissionEdit)
  | addPermissions (applicationName roleName : String) (permissionNames : List String)
  | removePermissions (applicationName roleName : String) (permissionNames : List String)
  | createGroup (name : String) (defaultAdmin : Bool) (roles : List Nat)
  | updateGroup (groupId : Nat) (name : String) (defaultAdmin : Bool) (roles : List Nat)
  | deleteGroup (groupId : Nat)
  | assignRolesToGroup (groupId : Nat) (hasApplication : String → Bool) (applicationRoleIds : List Nat)
  | addApplicationRolesToGroup (groupName applicationName : String) (applicationRoleNames : List String) (clear : Bool)
  | createSubject (name : String) (groups : List Nat)
  | updateSubject (subjectId : Nat) (name : String) (groups : List Nat)
  | deleteSubject (subjectId : Nat)
  | assignGroupsToSubject (subjectId : Nat) (groupIds : Option (List Nat)) (clear : Bool)
  | addGroupsToSubject (userName : String) (groupNames : List String) (clear : Bool)

def perform (db : Database) : Event → Except Failure Database
  | .provideApplication info valid => db.provideApplication info valid
  | .deleteApplication applicationId linked => db.deleteApplication applicationId linked
  | .deleteRole roleId => db.deleteRole roleId
  | .deletePermission permissionId => db.deletePermission permissionId
  | .saveRole edit => db.saveRole edit
  | .savePermission edit => db.savePermission edit
  | .addPermissions applicationName roleName permissionNames => do
    let edited ← db.addPermissions applicationName roleName permissionNames
    return edited.1
  | .removePermissions applicationName roleName permissionNames => do
    let edited ← db.removePermissions applicationName roleName permissionNames
    return edited.1
  | .createGroup name defaultAdmin roles => db.createGroup name defaultAdmin roles
  | .updateGroup groupId name defaultAdmin roles => db.updateGroup groupId name defaultAdmin roles
  | .deleteGroup groupId => db.deleteGroup groupId
  | .assignRolesToGroup groupId hasApplication applicationRoleIds =>
    db.assignRolesToGroup groupId hasApplication applicationRoleIds
  | .addApplicationRolesToGroup groupName applicationName applicationRoleNames clear =>
    db.addApplicationRolesToGroup groupName applicationName applicationRoleNames clear
  | .createSubject name groups => db.createSubject name groups
  | .updateSubject subjectId name groups => db.updateSubject subjectId name groups
  | .deleteSubject subjectId => db.deleteSubject subjectId
  | .assignGroupsToSubject subjectId groupIds clear => db.assignGroupsToSubject subjectId groupIds clear
  | .addGroupsToSubject userName groupNames clear => db.addGroupsToSubject userName groupNames clear

/-- What throws changes nothing. -/
def Step (db : Database) (e : Event) (db' : Database) : Prop :=
  perform db e = .ok db' ∨ db' = db ∧ ∃ failure, perform db e = .error failure

end Authorization
end Groups
end AppNG
