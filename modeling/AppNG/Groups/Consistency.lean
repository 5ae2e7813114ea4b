import AppNG.Groups.Authorization
import AppNG.Lib.Loop

/-!
# Groups.Consistency

What the tables of `Groups.Authorization` have in common after any run: what a row refers to is there, whatever was
deleted, and no identity is used twice.

* `Consistent`: the invariant.
* `Consistent.provideApplication`, `Consistent.deleteApplication`: the operations that consist of many.
* `consistent_of_run`: every run keeps it.
-/

namespace AppNG
namespace Groups
namespace Authorization

open Machine Loop

/-- No identity is used yet from `n` on. -/
def Below {ν : Type} {key : ν → Nat} (m : Keyed key) (n : Nat) : Prop := ∀ v ∈ m.values, key v < n

structure Consistent (db : Database) : Prop where
  names : ∀ a ∈ db.applications.values, ∀ b ∈ db.applications.values, a.name = b.name → a = b
  permission : ∀ p ∈ db.permissions.values, db.applications.Has p.application
  role : ∀ r ∈ db.roles.values, db.applications.Has r.application
  rolePermission : ∀ r ∈ db.roles.values, ∀ p ∈ r.permissions, db.permissions.Has p
  groupRole : ∀ g ∈ db.groups.values, ∀ r ∈ g.roles, db.roles.Has r
  subjectGroup : ∀ s ∈ db.subjects.values, ∀ g ∈ s.groups, db.groups.Has g
  applicationsBelow : Below db.applications db.next
  permissionsBelow : Below db.permissions db.next
  rolesBelow : Below db.roles db.next
  groupsBelow : Below db.groups db.next
  subjectsBelow : Below db.subjects db.next

section Below

variable {ν : Type} {key : ν → Nat} {m : Keyed key} {n k : Nat} {v : ν}

theorem Below.mono (h : Below m n) (hle : n ≤ k) : Below m k := fun v hv => Nat.lt_of_lt_of_le (h v hv) hle

theorem Below.succ (h : Below m n) : Below m (n + 1) := h.mono (Nat.le_succ n)

theorem Below.put (h : Below m n) (hv : key v < n) : Below (m.put v) n := by
  intro w hw
  rcases Keyed.mem_put.mp hw with rfl | ⟨hw, -⟩
  · exact hv
  · exact h w hw

theorem Below.erase (h : Below m n) : Below (m.erase k) n := fun w hw => h w (Keyed.mem_erase.mp hw).1

theorem Below.mapValues {f : ν → ν} (h : Below m n) (hf : ∀ v, key (f v) = key v) : Below (m.mapValues f hf) n := by
  intro w hw
  obtain ⟨v, hv, rfl⟩ := (Keyed.mem_mapValues hf).mp hw
  rw [hf]
  exact h v hv

/-- A new row takes the place of none. -/
theorem mem_put_new (h : Below m n) (hv : key v = n) {w : ν} : w ∈ (m.put v).values ↔ w = v ∨ w ∈ m.values := by
  rw [Keyed.mem_put]
  refine or_congr_right (and_iff_left_of_imp fun hw heq => ?_)
  have hlt : key w < n := h w hw
  omega

end Below

variable {db db' : Database} {applicationId roleId permissionId groupId subjectId : Nat}

theorem consistent_empty : Consistent .empty := by
  constructor <;> intro x hx <;> cases hx

/-! ## One row -/

theorem Consistent.createPermission (h : Consistent db) (ha : db.applications.Has applicationId)
    (permission : PermissionInfo) : Consistent (db.createPermission applicationId permission) where
  names := h.names
  permission := by
    intro p hp
    rcases Keyed.mem_put.mp hp with rfl | ⟨hp, -⟩
    · exact ha
    · exact h.permission p hp
  role := h.role
  rolePermission := fun r hr p hp => Keyed.has_put.mpr (.inr (h.rolePermission r hr p hp))
  groupRole := h.groupRole
  subjectGroup := h.subjectGroup
  applicationsBelow := h.applicationsBelow.succ
  permissionsBelow := h.permissionsBelow.succ.put (Nat.lt_succ_self _)
  rolesBelow := h.rolesBelow.succ
  groupsBelow := h.groupsBelow.succ
  subjectsBelow := h.subjectsBelow.succ

/-- A row of a role, new or not. -/
theorem Consistent.putRole (h : Consistent db) {role : RoleRow} {next : Nat} (hle : db.next ≤ next)
    (hid : role.id < next) (ha : db.applications.Has role.application)
    (hp : ∀ p ∈ role.permissions, db.permissions.Has p) :
    Consistent { db with next, roles := db.roles.put role } where
  names := h.names
  permission := h.permission
  role := by
    intro r hr
    rcases Keyed.mem_put.mp hr with rfl | ⟨hr, -⟩
    · exact ha
    · exact h.role r hr
  rolePermission := by
    intro r hr
    rcases Keyed.mem_put.mp hr with rfl | ⟨hr, -⟩
    · exact hp
    · exact h.rolePermission r hr
  groupRole := fun g hg r hr => Keyed.has_put.mpr (.inr (h.groupRole g hg r hr))
  subjectGroup := h.subjectGroup
  applicationsBelow := h.applicationsBelow.mono hle
  permissionsBelow := h.permissionsBelow.mono hle
  rolesBelow := (h.rolesBelow.mono hle).put hid
  groupsBelow := h.groupsBelow.mono hle
  subjectsBelow := h.subjectsBelow.mono hle

theorem Consistent.insertRole (h : Consistent db) (ha : db.applications.Has applicationId) (role : RoleInfo) :
    Consistent (db.insertRole applicationId role) :=
  h.putRole (Nat.le_succ _) (Nat.lt_succ_self _) ha nofun

theorem Consistent.addPermission (h : Consistent db) (hp : db.permissions.Has permissionId) :
    Consistent (db.addPermission roleId permissionId) := by
  unfold Database.addPermission
  split
  · exact h
  · rename_i role hrole
    obtain ⟨hmem, -⟩ := Keyed.get_eq_some.mp hrole
    refine h.putRole (Nat.le_refl _) (h.rolesBelow role hmem) (h.role role hmem) fun p hmem' => ?_
    rcases List.mem_insert_iff.mp hmem' with rfl | hold
    · exact hp
    · exact h.rolePermission role hmem p hold

theorem Consistent.removePermission (h : Consistent db) : Consistent (db.removePermission roleId permissionId) := by
  unfold Database.removePermission
  split
  · exact h
  · rename_i role hrole
    obtain ⟨hmem, -⟩ := Keyed.get_eq_some.mp hrole
    exact h.putRole (Nat.le_refl _) (h.rolesBelow role hmem) (h.role role hmem) fun p hp =>
      h.rolePermission role hmem p (List.mem_of_mem_filter hp)

/-- A row of a permission takes the place of one of the same application. -/
theorem Consistent.putPermission (h : Consistent db) {p p' : PermissionRow} (hp : p ∈ db.permissions.values)
    (hid : p'.id = p.id) (happlication : p'.application = p.application) :
    Consistent { db with permissions := db.permissions.put p' } :=
  { h with
    permission := by
      intro q hq
      rcases Keyed.mem_put.mp hq with rfl | ⟨hq, -⟩
      · exact happlication ▸ h.permission p hp
      · exact h.permission q hq
    rolePermission := fun r hr q hq => Keyed.has_put.mpr (.inr (h.rolePermission r hr q hq))
    permissionsBelow := h.permissionsBelow.put (hid ▸ h.permissionsBelow p hp) }

theorem Consistent.setDescription (h : Consistent db) (description : Option String) :
    Consistent (db.setDescription roleId description) := by
  unfold Database.setDescription
  split
  · exact h
  · rename_i role hrole
    obtain ⟨hmem, -⟩ := Keyed.get_eq_some.mp hrole
    exact h.putRole (Nat.le_refl _) (h.rolesBelow role hmem) (h.role role hmem) (h.rolePermission role hmem)

/-- A name that is not taken. -/
theorem Consistent.insertApplication (h : Consistent db) {name : String} (hname : db.findApplication name = none) :
    Consistent (db.insertApplication name) where
  names := by
    have hfree : ∀ a ∈ db.applications.values, a.name ≠ name := by
      intro a ha
      simpa using List.find?_eq_none.mp hname a ha
    intro a ha b hb heq
    rcases Keyed.mem_put.mp ha with rfl | ⟨ha, -⟩
    · rcases Keyed.mem_put.mp hb with rfl | ⟨hb, -⟩
      · rfl
      · exact absurd heq.symm (hfree b hb)
    · rcases Keyed.mem_put.mp hb with rfl | ⟨hb, -⟩
      · exact absurd heq (hfree a ha)
      · exact h.names a ha b hb heq
  permission := fun p hp => Keyed.has_put.mpr (.inr (h.permission p hp))
  role := fun r hr => Keyed.has_put.mpr (.inr (h.role r hr))
  rolePermission := h.rolePermission
  groupRole := h.groupRole
  subjectGroup := h.subjectGroup
  applicationsBelow := h.applicationsBelow.succ.put (Nat.lt_succ_self _)
  permissionsBelow := h.permissionsBelow.succ
  rolesBelow := h.rolesBelow.succ
  groupsBelow := h.groupsBelow.succ
  subjectsBelow := h.subjectsBelow.succ

theorem Consistent.addToAdminGroups (h : Consistent db) {adminRoles : List Nat}
    (hroles : ∀ r ∈ adminRoles, db.roles.Has r) : Consistent (db.addToAdminGroups adminRoles) where
  names := h.names
  permission := h.permission
  role := h.role
  rolePermission := h.rolePermission
  groupRole := by
    intro g hg r hr
    obtain ⟨group, hgroup, rfl⟩ := (Keyed.mem_mapValues GroupRow.id_addAdminRoles).mp hg
    unfold GroupRow.addAdminRoles at hr
    split at hr
    · rcases List.mem_union_iff.mp hr with hold | hadmin
      · exact h.groupRole group hgroup r hold
      · exact hroles r hadmin
    · exact h.groupRole group hgroup r hr
  subjectGroup := fun s hs g hg => (Keyed.has_mapValues GroupRow.id_addAdminRoles).mpr (h.subjectGroup s hs g hg)
  applicationsBelow := h.applicationsBelow
  permissionsBelow := h.permissionsBelow
  rolesBelow := h.rolesBelow
  groupsBelow := h.groupsBelow.mapValues GroupRow.id_addAdminRoles
  subjectsBelow := h.subjectsBelow

/-! ## Roles and permissions of an application -/

theorem findUnique_mem {R : Type} {rows : List R} {p : R → Bool} {row : R}
    (h : findUnique rows p = .ok (some row)) : row ∈ rows ∧ p row = true := by
  unfold findUnique at h
  split at h
  · cases h
  · rename_i r hrows
    cases h
    exact List.mem_filter.mp (by rw [hrows]; exact List.mem_singleton_self _)
  · cases h

theorem findPermission_some {name : String} {p : PermissionRow}
    (h : db.findPermission name applicationId = .ok (some p)) :
    p ∈ db.permissions.values ∧ p.name = name ∧ p.application = applicationId := by
  obtain ⟨hmem, hp⟩ := findUnique_mem h
  simpa using And.intro hmem hp

theorem findRole_some {name : String} {role : RoleRow} (h : db.findRole applicationId name = .ok (some role)) :
    role ∈ db.roles.values ∧ role.application = applicationId ∧ role.name = name := by
  obtain ⟨hmem, hp⟩ := findUnique_mem h
  simpa using And.intro hmem hp

theorem addPermissionToRole_ok {name : String} (h : db.addPermissionToRole applicationId roleId name = .ok db') :
    db' = db ∨ ∃ p ∈ db.permissions.values, p.name = name ∧ p.application = applicationId ∧
      db' = db.addPermission roleId p.id := by
  unfold Database.addPermissionToRole at h
  obtain ⟨found, hfound, hok⟩ := bind_eq_ok.mp h
  cases found with
  | none =>
    cases hok
    exact .inl rfl
  | some p =>
    cases hok
    obtain ⟨hmem, hname, happlication⟩ := findPermission_some hfound
    exact .inr ⟨p, hmem, hname, happlication, rfl⟩

/-- The tables of applications and groups are left alone, and no role goes. -/
structure Kept (db db' : Database) : Prop where
  applications : db'.applications = db.applications
  groups : db'.groups = db.groups
  subjects : db'.subjects = db.subjects
  next : db.next ≤ db'.next
  roles : ∀ r, db.roles.Has r → db'.roles.Has r

theorem Kept.refl (db : Database) : Kept db db := ⟨rfl, rfl, rfl, Nat.le_refl _, fun _ h => h⟩

theorem Kept.trans {db'' : Database} (h : Kept db db') (h' : Kept db' db'') : Kept db db'' :=
  ⟨h'.applications.trans h.applications, h'.groups.trans h.groups, h'.subjects.trans h.subjects,
    Nat.le_trans h.next h'.next, fun r hr => h'.roles r (h.roles r hr)⟩

theorem kept_addPermission : Kept db (db.addPermission roleId permissionId) := by
  unfold Database.addPermission
  split
  · exact .refl db
  · exact ⟨rfl, rfl, rfl, Nat.le_refl _, fun r hr => Keyed.has_put.mpr (.inr hr)⟩

theorem kept_insertRole {role : RoleInfo} : Kept db (db.insertRole applicationId role) :=
  ⟨rfl, rfl, rfl, Nat.le_succ _, fun _ hr => Keyed.has_put.mpr (.inr hr)⟩

theorem kept_createPermission {permission : PermissionInfo} :
    Kept db (db.createPermission applicationId permission) :=
  ⟨rfl, rfl, rfl, Nat.le_succ _, fun _ hr => hr⟩

theorem kept_setDescription {description : Option String} : Kept db (db.setDescription roleId description) := by
  unfold Database.setDescription
  split
  · exact .refl db
  · exact ⟨rfl, rfl, rfl, Nat.le_refl _, fun r hr => Keyed.has_put.mpr (.inr hr)⟩

/-- What the operations on one application have in common. -/
def Provides (applicationId : Nat) (db db' : Database) : Prop :=
  Kept db db' ∧ (Consistent db → db.applications.Has applicationId → Consistent db')

theorem Provides.refl (db : Database) : Provides applicationId db db := ⟨.refl db, fun h _ => h⟩

theorem Provides.trans {db'' : Database} (h : Provides applicationId db db') (h' : Provides applicationId db' db'') :
    Provides applicationId db db'' :=
  ⟨h.1.trans h'.1, fun hdb ha => h'.2 (h.2 hdb ha) (by rw [h.1.applications]; exact ha)⟩

/-- A loop of such operations. -/
theorem Provides.foldlM {α : Type} {f : Database → α → Except Failure Database} {as : List α}
    (hf : ∀ s a t, a ∈ as → f s a = .ok t → Provides applicationId s t) (h : as.foldlM f db = .ok db') :
    Provides applicationId db db' :=
  foldlM_inv (P := Provides applicationId db) (fun s a t ha hs ht => hs.trans (hf s a t ha ht)) (.refl db) h

theorem provides_addPermissionsToRole {role : RoleInfo}
    (h : db.addPermissionsToRole applicationId role roleId = .ok db') : Provides applicationId db db' := by
  refine Provides.foldlM (fun s name t _ ht => ?_) h
  rcases addPermissionToRole_ok ht with rfl | ⟨p, hmem, -, -, rfl⟩
  · exact .refl _
  · exact ⟨kept_addPermission, fun hs _ => hs.addPermission (Keyed.has_of_mem hmem)⟩

theorem provides_createApplicationRole {role : RoleInfo}
    (h : db.createApplicationRole applicationId role = .ok db') : Provides applicationId db db' :=
  Provides.trans ⟨kept_insertRole, fun hdb ha => hdb.insertRole ha role⟩ (provides_addPermissionsToRole h)

theorem provides_updatePermission {permission : PermissionInfo}
    (h : db.updatePermission applicationId permission = .ok db') : Provides applicationId db db' := by
  unfold Database.updatePermission at h
  obtain ⟨found, -, hok⟩ := bind_eq_ok.mp h
  cases found with
  | none =>
    cases hok
    exact ⟨kept_createPermission, fun hdb ha => hdb.createPermission ha permission⟩
  | some p =>
    cases hok
    exact .refl db

theorem provides_updateRole {role : RoleInfo} (h : db.updateRole applicationId role = .ok db') :
    Provides applicationId db db' := by
  unfold Database.updateRole at h
  obtain ⟨found, -, hok⟩ := bind_eq_ok.mp h
  cases found with
  | none => exact provides_createApplicationRole hok
  | some applicationRole =>
    obtain ⟨added, hadded, hok⟩ := bind_eq_ok.mp hok
    cases hok
    exact (provides_addPermissionsToRole hadded).trans
      ⟨kept_setDescription, fun hdb _ => hdb.setDescription role.description⟩

theorem provides_updateApplication {info : ApplicationInfo} {valid : Bool}
    (h : db.updateApplication applicationId info valid = .ok db') : Provides applicationId db db' := by
  unfold Database.updateApplication at h
  split at h
  · obtain ⟨updated, hupdated, hok⟩ := bind_eq_ok.mp h
    exact (Provides.foldlM (fun _ _ _ _ => provides_updatePermission) hupdated).trans
      (Provides.foldlM (fun _ _ _ _ => provides_updateRole) hok)
  · cases h

theorem provides_createPermissions {permissions : List PermissionInfo} : Provides applicationId db
    (permissions.foldl (fun created => created.createPermission applicationId) db) := by
  induction permissions generalizing db with
  | nil => exact .refl db
  | cons permission permissions ih =>
    exact Provides.trans ⟨kept_createPermission, fun hdb ha => hdb.createPermission ha permission⟩ ih

theorem createRole_ok {created created' : Database × List Nat} {role : RoleInfo}
    (h : Database.createRole applicationId created role = .ok created') :
    created.1.createApplicationRole applicationId role = .ok created'.1 ∧
      created'.2 = if role.isAdminRole then created.1.next :: created.2 else created.2 := by
  unfold Database.createRole at h
  obtain ⟨db, hdb, hok⟩ := bind_eq_ok.mp h
  cases hok
  exact ⟨hdb, rfl⟩

/-- The new row is there. -/
theorem createApplicationRole_has {role : RoleInfo} (h : db.createApplicationRole applicationId role = .ok db') :
    db'.roles.Has db.next :=
  (provides_addPermissionsToRole h).1.roles _ (Keyed.has_put.mpr (.inl rfl))

theorem provides_createRoles {roles : List RoleInfo} {created : Database × List Nat}
    (h : roles.foldlM (Database.createRole applicationId) (db, []) = .ok created) :
    Provides applicationId db created.1 ∧ ∀ r ∈ created.2, created.1.roles.Has r := by
  refine foldlM_inv (P := fun c : Database × List Nat =>
    Provides applicationId db c.1 ∧ ∀ r ∈ c.2, c.1.roles.Has r) ?_ ⟨.refl db, by simp⟩ h
  rintro c role c' - ⟨hprovides, hadmin⟩ hok
  obtain ⟨hcreated, hroles⟩ := createRole_ok hok
  have hstep : Provides applicationId c.1 c'.1 := provides_createApplicationRole hcreated
  refine ⟨hprovides.trans hstep, fun r hr => ?_⟩
  rw [hroles] at hr
  split at hr
  · rcases List.mem_cons.mp hr with rfl | hr
    · exact createApplicationRole_has hcreated
    · exact hstep.1.roles r (hadmin r hr)
  · exact hstep.1.roles r (hadmin r hr)

/-- The steps of `createApplication`. -/
theorem createApplication_ok {info : ApplicationInfo} (h : db.createApplication info = .ok db') :
    ∃ created, info.getRoles.foldlM (Database.createRole db.next)
      (info.getPermissions.foldl (fun created => created.createPermission db.next)
        (db.insertApplication info.name), []) = .ok created ∧ db' = created.1.addToAdminGroups created.2 := by
  unfold Database.createApplication at h
  obtain ⟨created, hcreated, hok⟩ := bind_eq_ok.mp h
  cases hok
  exact ⟨created, hcreated, rfl⟩

theorem Consistent.createApplication {info : ApplicationInfo} (hdb : Consistent db)
    (hname : db.findApplication info.name = none) (h : db.createApplication info = .ok db') :
    Consistent db' ∧ db'.applications.Has db.next := by
  obtain ⟨created, hcreated, rfl⟩ := createApplication_ok h
  obtain ⟨hprovides, hadmin⟩ := provides_createRoles hcreated
  have hall : Provides db.next (db.insertApplication info.name) created.1 :=
    provides_createPermissions.trans hprovides
  have hnew : (db.insertApplication info.name).applications.Has db.next := Keyed.has_put.mpr (.inl rfl)
  refine ⟨(hall.2 (hdb.insertApplication hname) hnew).addToAdminGroups hadmin, ?_⟩
  show created.1.applications.Has db.next
  rw [hall.1.applications]
  exact hnew

theorem Consistent.provideApplication {info : ApplicationInfo} {valid : Bool} (hdb : Consistent db)
    (h : db.provideApplication info valid = .ok db') : Consistent db' := by
  unfold Database.provideApplication at h
  cases hname : db.findApplication info.name with
  | none =>
    rw [hname] at h
    obtain ⟨created, hcreated, hok⟩ := bind_eq_ok.mp h
    obtain ⟨hconsistent, hnew⟩ := hdb.createApplication hname hcreated
    exact (provides_updateApplication hok).2 hconsistent hnew
  | some application =>
    rw [hname] at h
    exact (provides_updateApplication h).2 hdb (Keyed.has_of_mem (List.mem_of_find?_eq_some hname))

/-! ## Roles and permissions that go -/

theorem deleteRole_ok (h : db.deleteRole roleId = .ok db') : db' = { db with
    groups := db.groups.mapValues (GroupRow.without roleId) (GroupRow.id_without roleId)
    roles := db.roles.erase roleId } := by
  unfold Database.deleteRole at h
  split at h
  · cases h
  · exact (Except.ok.inj h).symm

theorem Consistent.deleteRole (hdb : Consistent db) (h : db.deleteRole roleId = .ok db') : Consistent db' := by
  rw [deleteRole_ok h]
  exact {
    names := hdb.names
    permission := hdb.permission
    role := fun r hr => hdb.role r (Keyed.mem_erase.mp hr).1
    rolePermission := fun r hr => hdb.rolePermission r (Keyed.mem_erase.mp hr).1
    groupRole := by
      intro g hg r hr
      obtain ⟨group, hgroup, rfl⟩ := (Keyed.mem_mapValues (GroupRow.id_without roleId)).mp hg
      obtain ⟨hr, hne⟩ := List.mem_filter.mp hr
      exact Keyed.has_erase.mpr ⟨hdb.groupRole group hgroup r hr, by simpa using hne⟩
    subjectGroup := fun s hs g hg => (Keyed.has_mapValues (GroupRow.id_without roleId)).mpr (hdb.subjectGroup s hs g hg)
    applicationsBelow := hdb.applicationsBelow
    permissionsBelow := hdb.permissionsBelow
    rolesBelow := hdb.rolesBelow.erase
    groupsBelow := hdb.groupsBelow.mapValues (GroupRow.id_without roleId)
    subjectsBelow := hdb.subjectsBelow }

theorem Consistent.deletePermission (hdb : Consistent db) (h : db.deletePermission permissionId = .ok db') :
    Consistent db' ∧ db' = { db with permissions := db.permissions.erase permissionId } := by
  unfold Database.deletePermission at h
  split at h
  · cases h
  · rename_i hunused
    cases h
    refine ⟨{ hdb with
      permission := fun p hp => hdb.permission p (Keyed.mem_erase.mp hp).1
      rolePermission := ?_
      permissionsBelow := hdb.permissionsBelow.erase }, rfl⟩
    intro r hr p hp
    refine Keyed.has_erase.mpr ⟨hdb.rolePermission r hr p hp, ?_⟩
    rintro rfl
    exact hunused (List.any_eq_true.mpr ⟨r, hr, by simpa using hp⟩)

theorem Consistent.deleteRoles {ids : List Nat} (hdb : Consistent db)
    (h : ids.foldlM Database.deleteRole db = .ok db') : Consistent db' ∧ db'.applications = db.applications ∧
      db'.permissions = db.permissions ∧ ∀ r ∈ db'.roles.values, r ∈ db.roles.values ∧ r.id ∉ ids := by
  induction ids generalizing db with
  | nil =>
    cases h
    exact ⟨hdb, rfl, rfl, fun r hr => ⟨hr, List.not_mem_nil⟩⟩
  | cons id ids ih =>
    rw [List.foldlM_cons, bind_eq_ok] at h
    obtain ⟨next, hnext, hrest⟩ := h
    obtain ⟨hconsistent, happlications, hpermissions, hroles⟩ := ih (hdb.deleteRole hnext) hrest
    rw [deleteRole_ok hnext] at happlications hpermissions hroles
    refine ⟨hconsistent, happlications, hpermissions, fun r hr => ?_⟩
    obtain ⟨hmem, hnot⟩ := hroles r hr
    obtain ⟨hmem, hne⟩ := Keyed.mem_erase.mp hmem
    exact ⟨hmem, List.not_mem_cons_of_ne_of_not_mem hne hnot⟩

theorem Consistent.deletePermissions {ids : List Nat} (hdb : Consistent db)
    (h : ids.foldlM Database.deletePermission db = .ok db') : Consistent db' ∧
      db'.applications = db.applications ∧ db'.roles = db.roles ∧
      ∀ p ∈ db'.permissions.values, p ∈ db.permissions.values ∧ p.id ∉ ids := by
  induction ids generalizing db with
  | nil =>
    cases h
    exact ⟨hdb, rfl, rfl, fun p hp => ⟨hp, List.not_mem_nil⟩⟩
  | cons id ids ih =>
    rw [List.foldlM_cons, bind_eq_ok] at h
    obtain ⟨next, hnext, hrest⟩ := h
    obtain ⟨hnextConsistent, hdeleted⟩ := hdb.deletePermission hnext
    obtain ⟨hconsistent, happlications, hroles, hpermissions⟩ := ih hnextConsistent hrest
    rw [hdeleted] at happlications hroles hpermissions
    refine ⟨hconsistent, happlications, hroles, fun p hp => ?_⟩
    obtain ⟨hmem, hnot⟩ := hpermissions p hp
    obtain ⟨hmem, hne⟩ := Keyed.mem_erase.mp hmem
    exact ⟨hmem, List.not_mem_cons_of_ne_of_not_mem hne hnot⟩

/-- The roles and permissions of an application are gone before its row is. -/
theorem Consistent.deleteApplication {linked : Bool} (hdb : Consistent db)
    (h : db.deleteApplication applicationId linked = .ok db') : Consistent db' := by
  unfold Database.deleteApplication at h
  split at h
  · cases h
  · split at h
    · cases h
    · obtain ⟨mid, hmid, h⟩ := bind_eq_ok.mp h
      obtain ⟨last, hlast, hok⟩ := bind_eq_ok.mp h
      cases hok
      obtain ⟨hmidConsistent, hmidApplications, hmidPermissions, hmidRoles⟩ := hdb.deleteRoles hmid
      obtain ⟨hconsistent, happlications, hroles, hpermissions⟩ := hmidConsistent.deletePermissions hlast
      refine { hconsistent with
        names := fun a ha b hb => hconsistent.names a (Keyed.mem_erase.mp ha).1 b (Keyed.mem_erase.mp hb).1
        permission := fun p hp => Keyed.has_erase.mpr ⟨hconsistent.permission p hp, fun heq => ?_⟩
        role := fun r hr => Keyed.has_erase.mpr ⟨hconsistent.role r hr, fun heq => ?_⟩
        applicationsBelow := hconsistent.applicationsBelow.erase }
      · obtain ⟨hmem, hnot⟩ := hpermissions p hp
        rw [hmidPermissions] at hmem
        exact hnot (List.mem_map.mpr ⟨p, List.mem_filter.mpr ⟨hmem, by simpa using heq⟩, rfl⟩)
      · obtain ⟨hmem, hnot⟩ := hmidRoles r (hroles ▸ hr)
        exact hnot (List.mem_map.mpr ⟨r, List.mem_filter.mpr ⟨hmem, by simpa using heq⟩, rfl⟩)

/-! ## What is edited -/

theorem Consistent.saveRole {edit : RoleEdit} (hdb : Consistent db) (h : db.saveRole edit = .ok db') :
    Consistent db' := by
  unfold Database.saveRole at h
  split at h
  · rename_i hall
    have hpermissions : ∀ p ∈ edit.permissions, db.permissions.Has p := fun p hp =>
      Keyed.has_iff_isSome.mpr (List.all_eq_true.mp hall p hp)
    split at h
    · split at h
      · rename_i happlication
        cases h
        exact hdb.putRole (Nat.le_succ _) (Nat.lt_succ_self _) (Keyed.has_iff_isSome.mpr happlication) hpermissions
      · cases h
    · split at h
      · cases h
      · rename_i role hrole
        cases h
        obtain ⟨hmem, -⟩ := Keyed.get_eq_some.mp hrole
        exact hdb.putRole (Nat.le_refl _) (hdb.rolesBelow role hmem) (hdb.role role hmem) hpermissions
  · cases h

theorem Consistent.savePermission {edit : PermissionEdit} (hdb : Consistent db)
    (h : db.savePermission edit = .ok db') : Consistent db' := by
  cases edit with
  | create applicationId permission =>
    simp only [Database.savePermission] at h
    split at h
    · rename_i happlication
      cases h
      exact hdb.createPermission (Keyed.has_iff_isSome.mpr happlication) permission
    · cases h
  | update permissionId permission =>
    simp only [Database.savePermission] at h
    split at h
    · cases h
    · rename_i p hp
      cases h
      exact hdb.putPermission (Keyed.get_eq_some.mp hp).1 rfl rfl

theorem getApplicationRole_ok {applicationName roleName : String} {role : RoleRow}
    (h : db.getApplicationRole applicationName roleName = .ok role) :
    role ∈ db.roles.values ∧ role.name = roleName ∧
      ∃ application ∈ db.applications.values, application.id = role.application ∧
        application.name = applicationName := by
  unfold Database.getApplicationRole at h
  split at h
  · cases h
  · rename_i application happlication
    obtain ⟨found, hfound, hok⟩ := bind_eq_ok.mp h
    cases found with
    | none => cases hok
    | some role =>
      cases hok
      obtain ⟨hmem, hown, hname⟩ := findRole_some hfound
      exact ⟨hmem, hname, application, List.mem_of_find?_eq_some happlication, hown.symm,
        by simpa using List.find?_some happlication⟩

/-- The loop edits the permissions of one role only, by permissions of its application that were named. -/
theorem editPermissions_ok {edit : Database → Nat → Nat → Database} {contained : Bool}
    {applicationName roleName : String} {names : List String} {edited : Database × Nat}
    (h : db.editPermissions edit contained applicationName roleName names = .ok edited) :
    ∃ role ∈ db.roles.values, role.name = roleName ∧
      (∃ application ∈ db.applications.values, application.id = role.application ∧
        application.name = applicationName) ∧
      ∀ P : Database → Prop, P db → (∀ s p, P s → p ∈ s.permissions.values → p.name ∈ names →
        p.application = role.application → P (edit s role.id p.id)) → P edited.1 := by
  unfold Database.editPermissions at h
  obtain ⟨role, hrole, hloop⟩ := bind_eq_ok.mp h
  obtain ⟨hmem, hname, happlication⟩ := getApplicationRole_ok hrole
  refine ⟨role, hmem, hname, happlication, fun P hdb hedit => ?_⟩
  refine foldlM_inv (P := fun edited : Database × Nat => P edited.1) ?_ hdb hloop
  intro s name t hname hs ht
  obtain ⟨found, hfound, hok⟩ := bind_eq_ok.mp ht
  cases found with
  | none => cases hok
  | some p =>
    obtain ⟨hp, rfl, hown⟩ := findPermission_some hfound
    simp only at hok
    split at hok
    · cases hok
      exact hedit s.1 p hs hp hname hown
    · cases hok
      exact hs

theorem Consistent.addPermissions {applicationName roleName : String} {names : List String} {edited : Database × Nat}
    (hdb : Consistent db) (h : db.addPermissions applicationName roleName names = .ok edited) :
    Consistent edited.1 := by
  obtain ⟨role, -, -, -, hinv⟩ := editPermissions_ok h
  exact hinv Consistent hdb fun s p hs hp _ _ => hs.addPermission (Keyed.has_of_mem hp)

theorem Consistent.removePermissions {applicationName roleName : String} {names : List String}
    {edited : Database × Nat} (hdb : Consistent db)
    (h : db.removePermissions applicationName roleName names = .ok edited) : Consistent edited.1 := by
  obtain ⟨role, -, -, -, hinv⟩ := editPermissions_ok h
  exact hinv Consistent hdb fun s p hs _ _ _ => hs.removePermission

/-! ## Groups -/

/-- A row of a group, new or not. -/
theorem Consistent.putGroup (h : Consistent db) {group : GroupRow} {next : Nat} (hle : db.next ≤ next)
    (hid : group.id < next) (hroles : ∀ r ∈ group.roles, db.roles.Has r) :
    Consistent { db with next, groups := db.groups.put group } where
  names := h.names
  permission := h.permission
  role := h.role
  rolePermission := h.rolePermission
  groupRole := by
    intro g hg
    rcases Keyed.mem_put.mp hg with rfl | ⟨hg, -⟩
    · exact hroles
    · exact h.groupRole g hg
  subjectGroup := fun s hs g hg => Keyed.has_put.mpr (.inr (h.subjectGroup s hs g hg))
  applicationsBelow := h.applicationsBelow.mono hle
  permissionsBelow := h.permissionsBelow.mono hle
  rolesBelow := h.rolesBelow.mono hle
  groupsBelow := (h.groupsBelow.mono hle).put hid
  subjectsBelow := h.subjectsBelow.mono hle

theorem Database.areRoles_iff {roles : List Nat} : db.areRoles roles = true ↔ ∀ r ∈ roles, db.roles.Has r := by
  simp only [Database.areRoles, List.all_eq_true, Keyed.has_iff_isSome]

/-- A new group has the roles that it was given. -/
theorem createGroup_ok {name : String} {defaultAdmin : Bool} {roles : List Nat}
    (h : db.createGroup name defaultAdmin roles = .ok db') : (∀ r ∈ roles, db.roles.Has r) ∧
      db' = { db with next := db.next + 1, groups := db.groups.put ⟨db.next, name, defaultAdmin, roles⟩ } := by
  unfold Database.createGroup at h
  split at h
  · cases h
  · split at h
    · rename_i hroles
      cases h
      exact ⟨Database.areRoles_iff.mp hroles, rfl⟩
    · cases h

theorem Consistent.createGroup {name : String} {defaultAdmin : Bool} {roles : List Nat} (hdb : Consistent db)
    (h : db.createGroup name defaultAdmin roles = .ok db') : Consistent db' := by
  obtain ⟨hroles, rfl⟩ := createGroup_ok h
  exact hdb.putGroup (Nat.le_succ _) (Nat.lt_succ_self _) hroles

/-- A group is stored with the roles that it was given. -/
theorem updateGroup_ok {name : String} {defaultAdmin : Bool} {roles : List Nat}
    (h : db.updateGroup groupId name defaultAdmin roles = .ok db') :
    (∃ group ∈ db.groups.values, group.id = groupId) ∧ (∀ r ∈ roles, db.roles.Has r) ∧
      db' = { db with groups := db.groups.put ⟨groupId, name, defaultAdmin, roles⟩ } := by
  unfold Database.updateGroup at h
  split at h
  · cases h
  · rename_i group hgroup
    obtain ⟨hmem, rfl⟩ := Keyed.get_eq_some.mp hgroup
    split at h
    · cases h
    · rename_i hfree
      cases h
      rw [Bool.or_eq_true, not_or, Bool.not_eq_true', Bool.not_eq_false] at hfree
      exact ⟨⟨group, hmem, rfl⟩, Database.areRoles_iff.mp hfree.2, rfl⟩

theorem Consistent.updateGroup {name : String} {defaultAdmin : Bool} {roles : List Nat} (hdb : Consistent db)
    (h : db.updateGroup groupId name defaultAdmin roles = .ok db') : Consistent db' := by
  obtain ⟨⟨group, hgroup, rfl⟩, hroles, rfl⟩ := updateGroup_ok h
  exact hdb.putGroup (Nat.le_refl _) (hdb.groupsBelow group hgroup) hroles

theorem Consistent.deleteGroup (hdb : Consistent db) (h : db.deleteGroup groupId = .ok db') : Consistent db' := by
  unfold Database.deleteGroup at h
  split at h
  · cases h
  · split at h
    · cases h
      exact hdb
    · cases h
      exact { hdb with
        groupRole := fun g hg => hdb.groupRole g (Keyed.mem_erase.mp hg).1
        subjectGroup := by
          intro s hs g hg
          obtain ⟨subject, hsubject, rfl⟩ := (Keyed.mem_mapValues (SubjectRow.id_without groupId)).mp hs
          obtain ⟨hg, hne⟩ := List.mem_filter.mp hg
          exact Keyed.has_erase.mpr ⟨hdb.subjectGroup subject hsubject g hg, by simpa using hne⟩
        groupsBelow := hdb.groupsBelow.erase
        subjectsBelow := hdb.subjectsBelow.mapValues (SubjectRow.id_without groupId) }

section Assigned

variable {repository : RoleRepository} {roles result : RoleSet} {entry : Option Role}

/-- A role of the result was there before, or was found by its id. -/
theorem mem_assignRolesToGroup {hasApplication : String → Bool} {ids : List Nat}
    (h : Groups.assignRolesToGroup repository hasApplication roles ids = some result) (hentry : entry ∈ result) :
    entry ∈ roles ∨ ∃ id ∈ ids, entry = repository.findById id := by
  obtain ⟨kept, hkept, rfl⟩ := Option.map_eq_some_iff.mp h
  have hsubset : ∀ (from' : RoleSet) {set kept : RoleSet},
      from'.foldlM (removeRole hasApplication) set = some kept → kept ⊆ set := by
    intro from'
    induction from' with
    | nil =>
      intro set kept h
      cases h
      exact List.Subset.refl _
    | cons role from' ih =>
      intro set kept h
      rw [List.foldlM_cons] at h
      obtain ⟨mid, hmid, hrest⟩ := Option.bind_eq_some_iff.mp h
      refine List.Subset.trans (ih hrest) ?_
      unfold removeRole at hmid
      split at hmid
      · cases hmid
      · split at hmid <;> cases hmid
        · exact List.erase_subset
        · exact List.Subset.refl _
  have hadded : ∀ {ids : List Nat} {set : RoleSet}, entry ∈ ids.foldl (addRole repository) set →
      entry ∈ set ∨ ∃ id ∈ ids, entry = repository.findById id := by
    intro ids
    induction ids with
    | nil => exact fun h => .inl h
    | cons id ids ih =>
      intro set h
      rcases ih h with hset | ⟨other, hother, heq⟩
      · rcases List.mem_insert_iff.mp hset with heq | hset
        · exact .inr ⟨id, List.mem_cons_self, heq⟩
        · exact .inl hset
      · exact .inr ⟨other, List.mem_cons_of_mem id hother, heq⟩
  exact (hadded hentry).imp_left fun hmem => hsubset roles hkept hmem

/-- A role of the result was there before, or was found by its name. -/
theorem mem_addApplicationRolesToGroup {applicationName : String} {names : List String} {clear : Bool}
    {failure : Option NoResult}
    (h : Groups.addApplicationRolesToGroup repository roles applicationName names clear = (result, failure))
    (hentry : entry ∈ result) : entry ∈ roles ∨ ∃ name ∈ names, ∃ role, entry = some role ∧
      repository.findByApplicationIdAndName applicationName name = some role := by
  have hinv : ∀ entry ∈ (foldUntil (addApplicationRole repository applicationName) (if clear then [] else roles)
      names).1, entry ∈ roles ∨ ∃ name ∈ names, ∃ role, entry = some role ∧
        repository.findByApplicationIdAndName applicationName name = some role := by
    refine foldUntil_inv (P := fun set : RoleSet => ∀ entry ∈ set, entry ∈ roles ∨ ∃ name ∈ names, ∃ role,
      entry = some role ∧ repository.findByApplicationIdAndName applicationName name = some role) ?_ ?_
    · intro set name hname hset entry hentry
      unfold addApplicationRole at hentry
      split at hentry
      · rename_i role hrole
        rcases List.mem_insert_iff.mp hentry with rfl | hold
        · exact .inr ⟨name, hname, role, rfl, hrole⟩
        · exact hset entry hold
      · exact hset entry hentry
    · intro entry hentry
      split at hentry
      · cases hentry
      · exact .inl hentry
  refine hinv entry ?_
  have hresult : (foldUntil (addApplicationRole repository applicationName) (if clear then [] else roles) names).1 =
    result := congrArg Prod.fst h
  rw [hresult]
  exact hentry

end Assigned

theorem findById_some {id : Nat} {role : Role} (h : db.roleRepository.findById id = some role) :
    role.id = id ∧ db.roles.Has id := by
  obtain ⟨row, hrow, rfl⟩ := Option.map_eq_some_iff.mp h
  exact ⟨(Keyed.get_eq_some.mp hrow).2, Keyed.has_of_get hrow⟩

theorem findByName_some {applicationName name : String} {role : Role}
    (h : db.roleRepository.findByApplicationIdAndName applicationName name = some role) :
    ∃ row ∈ db.roles.values, row.id = role.id ∧ row.name = name ∧
      ∃ application ∈ db.applications.values, application.id = row.application ∧ application.name = applicationName := by
  obtain ⟨application, happlication, h⟩ := Option.bind_eq_some_iff.mp h
  split at h
  · rename_i found hfound
    obtain ⟨row, rfl, rfl⟩ := Option.map_eq_some_iff.mp h
    obtain ⟨hmem, happ, hname⟩ := findRole_some hfound
    refine ⟨row, hmem, rfl, hname, application, List.mem_of_find?_eq_some happlication, happ.symm, ?_⟩
    simpa using List.find?_some happlication
  · cases h

theorem mem_storeRoles {roles : RoleSet} : roleId ∈ (roles.filterMap id).map Role.id ↔
    ∃ role, some role ∈ roles ∧ role.id = roleId := by
  simp [List.mem_map, List.mem_filterMap]

/-- What is stored of the roles of a group are roles, if they were found in the tables. -/
theorem Consistent.storeRoles {group : GroupRow} {roles : RoleSet} (hdb : Consistent db)
    (hgroup : group ∈ db.groups.values)
    (hroles : ∀ role, some role ∈ roles → db.roles.Has role.id) : Consistent (db.storeRoles group roles) := by
  refine hdb.putGroup (Nat.le_refl _) (hdb.groupsBelow group hgroup) fun r hr => ?_
  obtain ⟨role, hrole, rfl⟩ := mem_storeRoles.mp hr
  exact hroles role hrole

theorem roleSet_some {group : GroupRow} {role : Role} (h : some role ∈ db.roleSet group) :
    role.id ∈ group.roles ∧ db.roles.Has role.id := by
  obtain ⟨id, hid, heq⟩ := List.mem_map.mp h
  obtain ⟨rfl, hhas⟩ := findById_some heq
  exact ⟨hid, hhas⟩

/-- The roles that a group is left with. -/
theorem assignRolesToGroup_ok {hasApplication : String → Bool} {ids : List Nat}
    (h : db.assignRolesToGroup groupId hasApplication ids = .ok db') : ∃ group ∈ db.groups.values, group.id = groupId ∧
      ∃ roles, db' = db.storeRoles group roles ∧
        ∀ role, some role ∈ roles → db.roles.Has role.id ∧ (role.id ∈ group.roles ∨ role.id ∈ ids) := by
  unfold Database.assignRolesToGroup at h
  split at h
  · cases h
  · rename_i group hgroup
    obtain ⟨hmem, hid⟩ := Keyed.get_eq_some.mp hgroup
    split at h
    · cases h
    · rename_i roles hroles
      cases h
      refine ⟨group, hmem, hid, roles, rfl, fun role hrole => ?_⟩
      rcases mem_assignRolesToGroup hroles hrole with hold | ⟨id, hid, hfound⟩
      · obtain ⟨hbefore, hhas⟩ := roleSet_some hold
        exact ⟨hhas, .inl hbefore⟩
      · obtain ⟨rfl, hhas⟩ := findById_some hfound.symm
        exact ⟨hhas, .inr hid⟩

theorem addApplicationRolesToGroup_ok {groupName applicationName : String} {names : List String} {clear : Bool}
    (h : db.addApplicationRolesToGroup groupName applicationName names clear = .ok db') :
    ∃ group ∈ db.groups.values, group.name = groupName ∧ ∃ roles, db' = db.storeRoles group roles ∧
      ∀ role, some role ∈ roles → db.roles.Has role.id ∧ (role.id ∈ group.roles ∨
        ∃ row ∈ db.roles.values, row.id = role.id ∧ row.name ∈ names ∧
          ∃ application ∈ db.applications.values, application.id = row.application ∧
            application.name = applicationName) := by
  unfold Database.addApplicationRolesToGroup at h
  split at h
  · cases h
  · rename_i group hgroup
    split at h
    · cases h
    · rename_i roles hroles
      cases h
      refine ⟨group, List.mem_of_find?_eq_some hgroup, by simpa using List.find?_some hgroup, roles, rfl,
        fun role hrole => ?_⟩
      rcases mem_addApplicationRolesToGroup hroles hrole with hold | ⟨name, hname, found, heq, hfound⟩
      · obtain ⟨hbefore, hhas⟩ := roleSet_some hold
        exact ⟨hhas, .inl hbefore⟩
      · cases heq
        obtain ⟨row, hrow, hid, rfl, happlication⟩ := findByName_some hfound
        exact ⟨⟨row, hrow, hid⟩, .inr ⟨row, hrow, hid, hname, happlication⟩⟩

/-! ## Subjects -/

theorem Consistent.putSubject (h : Consistent db) {subject : SubjectRow} {next : Nat} (hle : db.next ≤ next)
    (hid : subject.id < next) (hgroups : ∀ g ∈ subject.groups, db.groups.Has g) :
    Consistent { db with next, subjects := db.subjects.put subject } :=
  { h with
    subjectGroup := by
      intro s hs
      rcases Keyed.mem_put.mp hs with rfl | ⟨hs, -⟩
      · exact hgroups
      · exact h.subjectGroup s hs
    applicationsBelow := h.applicationsBelow.mono hle
    permissionsBelow := h.permissionsBelow.mono hle
    rolesBelow := h.rolesBelow.mono hle
    groupsBelow := h.groupsBelow.mono hle
    subjectsBelow := (h.subjectsBelow.mono hle).put hid }

theorem Database.areGroups_iff {groups : List Nat} :
    db.areGroups groups = true ↔ ∀ g ∈ groups, db.groups.Has g := by
  simp only [Database.areGroups, List.all_eq_true, Keyed.has_iff_isSome]

theorem createSubject_ok {name : String} {groups : List Nat} (h : db.createSubject name groups = .ok db') :
    (∀ g ∈ groups, db.groups.Has g) ∧
      db' = { db with next := db.next + 1, subjects := db.subjects.put ⟨db.next, name, groups⟩ } := by
  unfold Database.createSubject at h
  split at h
  · cases h
  · split at h
    · rename_i hgroups
      cases h
      exact ⟨Database.areGroups_iff.mp hgroups, rfl⟩
    · cases h

theorem Consistent.createSubject {name : String} {groups : List Nat} (hdb : Consistent db)
    (h : db.createSubject name groups = .ok db') : Consistent db' := by
  obtain ⟨hgroups, rfl⟩ := createSubject_ok h
  exact hdb.putSubject (Nat.le_succ _) (Nat.lt_succ_self _) hgroups

/-- A subject is stored with the groups that it was given. -/
theorem updateSubject_ok {name : String} {groups : List Nat}
    (h : db.updateSubject subjectId name groups = .ok db') :
    (∃ subject ∈ db.subjects.values, subject.id = subjectId) ∧ (∀ g ∈ groups, db.groups.Has g) ∧
      db' = { db with subjects := db.subjects.put ⟨subjectId, name, groups⟩ } := by
  unfold Database.updateSubject at h
  split at h
  · cases h
  · rename_i subject hsubject
    obtain ⟨hmem, rfl⟩ := Keyed.get_eq_some.mp hsubject
    split at h
    · cases h
    · rename_i hfree
      cases h
      rw [Bool.or_eq_true, not_or, Bool.not_eq_true', Bool.not_eq_false] at hfree
      exact ⟨⟨subject, hmem, rfl⟩, Database.areGroups_iff.mp hfree.2, rfl⟩

theorem Consistent.updateSubject {name : String} {groups : List Nat} (hdb : Consistent db)
    (h : db.updateSubject subjectId name groups = .ok db') : Consistent db' := by
  obtain ⟨⟨subject, hsubject, rfl⟩, hgroups, rfl⟩ := updateSubject_ok h
  exact hdb.putSubject (Nat.le_refl _) (hdb.subjectsBelow subject hsubject) hgroups

theorem Consistent.deleteSubject (hdb : Consistent db) (h : db.deleteSubject subjectId = .ok db') :
    Consistent db' := by
  unfold Database.deleteSubject at h
  split at h
  · cases h
  · cases h
    exact { hdb with
      subjectGroup := fun s hs => hdb.subjectGroup s (Keyed.mem_erase.mp hs).1
      subjectsBelow := hdb.subjectsBelow.erase }

theorem Consistent.assignGroupsToSubject {groupIds : Option (List Nat)} {clear : Bool} (hdb : Consistent db)
    (h : db.assignGroupsToSubject subjectId groupIds clear = .ok db') : Consistent db' := by
  unfold Database.assignGroupsToSubject at h
  split at h
  · cases h
  · rename_i subject hsubject
    obtain ⟨hmem, -⟩ := Keyed.get_eq_some.mp hsubject
    cases h
    refine hdb.putSubject (Nat.le_refl _) (hdb.subjectsBelow subject hmem) fun g hg => ?_
    rcases List.mem_union_iff.mp hg with hold | hfound
    · split at hold
      · cases hold
      · exact hdb.subjectGroup subject hmem g hold
    · obtain ⟨group, hgroup, rfl⟩ := List.mem_map.mp (List.mem_filter.mp hfound).1
      exact Keyed.has_of_mem hgroup

theorem Consistent.addGroupsToSubject {userName : String} {groupNames : List String} {clear : Bool}
    (hdb : Consistent db) (h : db.addGroupsToSubject userName groupNames clear = .ok db') : Consistent db' := by
  unfold Database.addGroupsToSubject at h
  split at h
  · cases h
  · exact hdb.assignGroupsToSubject h

/-! ## Runs -/

theorem Consistent.perform {e : Event} (hdb : Consistent db) (h : perform db e = .ok db') : Consistent db' := by
  cases e with
  | provideApplication info valid => exact hdb.provideApplication h
  | deleteApplication applicationId linked => exact hdb.deleteApplication h
  | deleteRole roleId => exact hdb.deleteRole h
  | deletePermission permissionId => exact (hdb.deletePermission h).1
  | saveRole edit => exact hdb.saveRole h
  | savePermission edit => exact hdb.savePermission h
  | addPermissions applicationName roleName names =>
    obtain ⟨edited, hedited, hok⟩ := bind_eq_ok.mp h
    cases hok
    exact hdb.addPermissions hedited
  | removePermissions applicationName roleName names =>
    obtain ⟨edited, hedited, hok⟩ := bind_eq_ok.mp h
    cases hok
    exact hdb.removePermissions hedited
  | createGroup name defaultAdmin roles => exact hdb.createGroup h
  | updateGroup groupId name defaultAdmin roles => exact hdb.updateGroup h
  | deleteGroup groupId => exact hdb.deleteGroup h
  | assignRolesToGroup groupId hasApplication ids =>
    obtain ⟨group, hgroup, -, roles, rfl, hroles⟩ := assignRolesToGroup_ok h
    exact hdb.storeRoles hgroup fun role hrole => (hroles role hrole).1
  | addApplicationRolesToGroup groupName applicationName names clear =>
    obtain ⟨group, hgroup, -, roles, rfl, hroles⟩ := addApplicationRolesToGroup_ok h
    exact hdb.storeRoles hgroup fun role hrole => (hroles role hrole).1
  | createSubject name groups => exact hdb.createSubject h
  | updateSubject subjectId name groups => exact hdb.updateSubject h
  | deleteSubject subjectId => exact hdb.deleteSubject h
  | assignGroupsToSubject subjectId groupIds clear => exact hdb.assignGroupsToSubject h
  | addGroupsToSubject userName groupNames clear => exact hdb.addGroupsToSubject h

theorem Step.consistent {e : Event} (hdb : Consistent db) (h : Step db e db') : Consistent db' := by
  rcases h with hok | ⟨rfl, -⟩
  · exact hdb.perform hok
  · exact hdb

theorem consistent_of_run {es : List Event} (h : Run Step .empty es db) : Consistent db :=
  h.inv (P := fun _ db => Consistent db) consistent_empty fun _ _ _ _ hdb hstep => Step.consistent hdb hstep

end Authorization
end Groups
end AppNG
