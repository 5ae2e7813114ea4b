import AppNG.Groups.Consistency

/-!
# Groups.Provenance

Where the permissions of a subject come from, after any run of the operations of `Groups.Authorization`.

* `Granting`, `Declaring`: how a group gets a role, and how a role gets a permission.
* `Grown`: what the installation or the update of an application adds.
* `joined_of_perform`, `granted_of_perform`, `declared_of_perform`: one operation gives nothing to anybody but so.
* `permission_explained`: `DefaultPermissionProcessor` finds a permission if and only if it belongs to a role of the
  application as it is installed now; the subject came into the group, the group got the role, and the role the
  permission, by operations of the run, and none of it was taken away since.
-/

namespace AppNG
namespace Groups
namespace Authorization

open Machine Loop

/-! ## What is given -/

def HasRole (groupId roleId : Nat) (db : Database) : Prop :=
  ∃ group ∈ db.groups.values, group.id = groupId ∧ roleId ∈ group.roles

def HasPermission (roleId permissionId : Nat) (db : Database) : Prop :=
  ∃ role ∈ db.roles.values, role.id = roleId ∧ permissionId ∈ role.permissions

def InGroup (subjectId groupId : Nat) (db : Database) : Prop :=
  ∃ subject ∈ db.subjects.values, subject.id = subjectId ∧ groupId ∈ subject.groups

/-- The application declares the role and the permission in it. -/
def Declared (info : ApplicationInfo) (applicationId : Nat) (db : Database) (row : RoleRow) (permissionId : Nat) :
    Prop :=
  row.application = applicationId ∧ ∃ role ∈ info.getRoles, row.name = role.name ∧
    ∃ p ∈ db.permissions.values, p.id = permissionId ∧ p.name ∈ role.permission ∧ p.application = applicationId

/-- How a group gets a role: it is one of administrators, and the role one for them of an application that is new, or
somebody has asked for it. -/
def Granting (groupId roleId : Nat) (db : Database) (e : Event) (db' : Database) : Prop :=
  match e with
  | .provideApplication info _ => db.findApplication info.name = none ∧
      (∃ group ∈ db.groups.values, group.id = groupId ∧ group.defaultAdmin = true) ∧
      ∃ role ∈ info.getRoles, role.isAdminRole = true ∧ ∃ row ∈ db'.roles.values,
        row.id = roleId ∧ row.name = role.name ∧ row.application = db.next ∧ db.next ≤ roleId
  | .assignRolesToGroup id _ applicationRoleIds => id = groupId ∧ roleId ∈ applicationRoleIds
  | .addApplicationRolesToGroup groupName applicationName applicationRoleNames _ =>
      (∃ group ∈ db.groups.values, group.id = groupId ∧ group.name = groupName) ∧
      ∃ role ∈ db.roles.values, role.id = roleId ∧ role.name ∈ applicationRoleNames ∧
        ∃ application ∈ db.applications.values, application.id = role.application ∧
          application.name = applicationName
  | .createGroup _ _ roles => groupId = db.next ∧ roleId ∈ roles
  | .updateGroup id _ _ roles => id = groupId ∧ roleId ∈ roles
  | _ => False

/-- How a role gets a permission: its application declares both, or somebody has asked for it. -/
def Declaring (roleId permissionId : Nat) (db : Database) (e : Event) (db' : Database) : Prop :=
  match e with
  | .provideApplication info _ => ∃ application ∈ db'.applications.values, application.name = info.name ∧
      ∃ row ∈ db'.roles.values, row.id = roleId ∧ Declared info application.id db' row permissionId
  | .saveRole (.create _ _ _ permissions) => roleId = db.next ∧ permissionId ∈ permissions
  | .saveRole (.update id _ _ permissions) => roleId = id ∧ permissionId ∈ permissions
  | .addPermissions applicationName roleName permissionNames =>
      ∃ role ∈ db.roles.values, role.id = roleId ∧ role.name = roleName ∧
        (∃ application ∈ db.applications.values, application.id = role.application ∧
          application.name = applicationName) ∧
        ∃ p ∈ db.permissions.values, p.id = permissionId ∧ p.name ∈ permissionNames ∧
          p.application = role.application
  | _ => False

/-- How a subject comes into a group: somebody has asked for it. -/
def Joining (subjectId groupId : Nat) (db : Database) (e : Event) (_ : Database) : Prop :=
  match e with
  | .assignGroupsToSubject id groupIds _ => id = subjectId ∧ groupId ∈ groupIds.getD []
  | .addGroupsToSubject userName groupNames _ =>
      (∃ subject ∈ db.subjects.values, subject.id = subjectId ∧ subject.name = userName) ∧
      ∃ group ∈ db.groups.values, group.id = groupId ∧ group.name ∈ groupNames
  | .createSubject _ groups => subjectId = db.next ∧ groupId ∈ groups
  | .updateSubject id _ groups => id = subjectId ∧ groupId ∈ groups
  | _ => False

variable {info : ApplicationInfo} {db db' : Database} {applicationId roleId permissionId groupId subjectId : Nat}

/-! ## What an application adds -/

/-- A row, as it was before. -/
def SameRole (row row' : RoleRow) : Prop :=
  row.id = row'.id ∧ row.name = row'.name ∧ row.application = row'.application

structure Grown (info : ApplicationInfo) (applicationId : Nat) (db db' : Database) : Prop where
  next : db.next ≤ db'.next
  permission : ∀ p ∈ db.permissions.values, p ∈ db'.permissions.values
  kept : ∀ row ∈ db.roles.values, ∃ row' ∈ db'.roles.values, SameRole row row' ∧ row.permissions ⊆ row'.permissions
  origin : ∀ row' ∈ db'.roles.values,
    (∃ row ∈ db.roles.values, SameRole row row' ∧
      ∀ p ∈ row'.permissions, p ∈ row.permissions ∨ Declared info applicationId db' row' p) ∨
    (db.next ≤ row'.id ∧ row'.application = applicationId ∧
      ∀ p ∈ row'.permissions, Declared info applicationId db' row' p)

theorem SameRole.refl (row : RoleRow) : SameRole row row := ⟨rfl, rfl, rfl⟩

theorem SameRole.trans {row row' row'' : RoleRow} (h : SameRole row row') (h' : SameRole row' row'') :
    SameRole row row'' :=
  ⟨h.1.trans h'.1, h.2.1.trans h'.2.1, h.2.2.trans h'.2.2⟩

theorem Declared.grown {db'' : Database} {row row' : RoleRow} (h : Declared info applicationId db row permissionId)
    (hsame : SameRole row row') (hgrown : ∀ p ∈ db.permissions.values, p ∈ db''.permissions.values) :
    Declared info applicationId db'' row' permissionId := by
  obtain ⟨happlication, role, hrole, hname, p, hp, hrest⟩ := h
  exact ⟨hsame.2.2.symm.trans happlication, role, hrole, hsame.2.1.symm.trans hname, p, hgrown p hp, hrest⟩

theorem Grown.refl (db : Database) : Grown info applicationId db db where
  next := Nat.le_refl _
  permission := fun _ hp => hp
  kept := fun row hrow => ⟨row, hrow, .refl row, List.Subset.refl _⟩
  origin := fun row hrow => .inl ⟨row, hrow, .refl row, fun _ hp => .inl hp⟩

theorem Grown.trans {db'' : Database} (h : Grown info applicationId db db')
    (h' : Grown info applicationId db' db'') : Grown info applicationId db db'' where
  next := Nat.le_trans h.next h'.next
  permission := fun p hp => h'.permission p (h.permission p hp)
  kept := by
    intro row hrow
    obtain ⟨row', hrow', hsame, hsubset⟩ := h.kept row hrow
    obtain ⟨row'', hrow'', hsame', hsubset'⟩ := h'.kept row' hrow'
    exact ⟨row'', hrow'', hsame.trans hsame', List.Subset.trans hsubset hsubset'⟩
  origin := by
    intro row'' hrow''
    rcases h'.origin row'' hrow'' with ⟨row', hrow', hsame', hpermissions'⟩ | ⟨hnew, happlication, hdeclared⟩
    · rcases h.origin row' hrow' with ⟨row, hrow, hsame, hpermissions⟩ | ⟨hnew, happlication, hdeclared⟩
      · refine .inl ⟨row, hrow, hsame.trans hsame', fun p hp => ?_⟩
        rcases hpermissions' p hp with hp | hp
        · exact (hpermissions p hp).imp_right fun hd => hd.grown hsame' h'.permission
        · exact .inr hp
      · refine .inr ⟨hsame'.1 ▸ hnew, hsame'.2.2.symm.trans happlication, fun p hp => ?_⟩
        rcases hpermissions' p hp with hp | hp
        · exact (hdeclared p hp).grown hsame' h'.permission
        · exact hp
    · exact .inr ⟨Nat.le_trans h.next hnew, happlication, hdeclared⟩

/-- What the operations on one application add. -/
def Grows (info : ApplicationInfo) (applicationId : Nat) (db db' : Database) : Prop :=
  Provides applicationId db db' ∧
    (Consistent db → db.applications.Has applicationId → Grown info applicationId db db')

theorem Grows.refl (db : Database) : Grows info applicationId db db := ⟨.refl db, fun _ _ => .refl db⟩

theorem Grows.trans {db'' : Database} (h : Grows info applicationId db db')
    (h' : Grows info applicationId db' db'') : Grows info applicationId db db'' :=
  ⟨h.1.trans h'.1, fun hdb ha => (h.2 hdb ha).trans
    (h'.2 (h.1.2 hdb ha) (by rw [h.1.1.applications]; exact ha))⟩

theorem Grows.foldlM {α : Type} {f : Database → α → Except Failure Database} {as : List α}
    (hf : ∀ s a t, a ∈ as → f s a = .ok t → Grows info applicationId s t) (h : as.foldlM f db = .ok db') :
    Grows info applicationId db db' :=
  foldlM_inv (P := Grows info applicationId db) (fun s a t ha hs ht => hs.trans (hf s a t ha ht)) (.refl db) h

theorem grows_createPermission {permission : PermissionInfo} :
    Grows info applicationId db (db.createPermission applicationId permission) := by
  refine ⟨⟨kept_createPermission, fun hdb ha => hdb.createPermission ha permission⟩, fun hdb _ => ?_⟩
  exact { next := Nat.le_succ _
          permission := fun p hp => (mem_put_new hdb.permissionsBelow rfl).mpr (.inr hp)
          kept := fun row hrow => ⟨row, hrow, .refl row, List.Subset.refl _⟩
          origin := fun row hrow => .inl ⟨row, hrow, .refl row, fun _ hp => .inl hp⟩ }

theorem grows_insertRole {role : RoleInfo} : Grows info applicationId db (db.insertRole applicationId role) := by
  refine ⟨⟨kept_insertRole, fun hdb ha => hdb.insertRole ha role⟩, fun hdb _ => ?_⟩
  exact { next := Nat.le_succ _
          permission := fun p hp => hp
          kept := fun row hrow =>
            ⟨row, (mem_put_new hdb.rolesBelow rfl).mpr (.inr hrow), .refl row, List.Subset.refl _⟩
          origin := by
            intro row hrow
            rcases (mem_put_new hdb.rolesBelow rfl).mp hrow with rfl | hrow
            · exact .inr ⟨Nat.le_refl _, rfl, by simp⟩
            · exact .inl ⟨row, hrow, .refl row, fun _ hp => .inl hp⟩ }

/-- A row takes the place of one with its identity, name and application. -/
theorem grown_putRole {row row' : RoleRow} (hrow : row ∈ db.roles.values) (hsame : SameRole row row')
    (hsubset : row.permissions ⊆ row'.permissions)
    (hadded : ∀ p ∈ row'.permissions, p ∈ row.permissions ∨ Declared info applicationId db row' p) :
    Grown info applicationId db { db with roles := db.roles.put row' } where
  next := Nat.le_refl _
  permission := fun _ hp => hp
  kept := by
    intro other hother
    by_cases hid : other.id = row'.id
    · obtain rfl := Keyed.eq_of_key_eq hother hrow (hid.trans hsame.1.symm)
      exact ⟨row', Keyed.mem_put.mpr (.inl rfl), hsame, hsubset⟩
    · exact ⟨other, Keyed.mem_put.mpr (.inr ⟨hother, hid⟩), .refl other, List.Subset.refl _⟩
  origin := by
    intro other hother
    rcases Keyed.mem_put.mp hother with rfl | ⟨hother, -⟩
    · exact .inl ⟨row, hrow, hsame, hadded⟩
    · exact .inl ⟨other, hother, .refl other, fun _ hp => .inl hp⟩

theorem grown_addPermission {row : RoleRow} (hrow : row ∈ db.roles.values)
    (hdeclared : Declared info applicationId db row permissionId) :
    Grown info applicationId db (db.addPermission row.id permissionId) := by
  rw [Database.addPermission, Keyed.get_key hrow]
  refine grown_putRole hrow ⟨rfl, rfl, rfl⟩ (fun p hp => List.mem_insert_of_mem hp) fun p hp => ?_
  rcases List.mem_insert_iff.mp hp with rfl | hold
  · exact .inr (hdeclared.grown ⟨rfl, rfl, rfl⟩ fun _ hp => hp)
  · exact .inl hold

theorem grows_setDescription {description : Option String} :
    Grows info applicationId db (db.setDescription roleId description) := by
  refine ⟨⟨kept_setDescription, fun hdb _ => hdb.setDescription description⟩, fun _ _ => ?_⟩
  unfold Database.setDescription
  split
  · exact .refl db
  · rename_i role hrole
    exact grown_putRole (Keyed.get_eq_some.mp hrole).1 ⟨rfl, rfl, rfl⟩ (List.Subset.refl _) fun _ hp => .inl hp

/-- The loop over the permissions of a role, for a row of the role. -/
theorem grows_addPermissionsToRole {role : RoleInfo} (row : RoleRow) (hrole : role ∈ info.getRoles)
    (hrow : row ∈ db.roles.values) (hname : row.name = role.name) (happlication : row.application = applicationId)
    (h : db.addPermissionsToRole applicationId role row.id = .ok db') : Grows info applicationId db db' := by
  refine ⟨provides_addPermissionsToRole h, fun hdb ha => ?_⟩
  refine foldlM_inv (P := Grown info applicationId db) (fun s name t hmem hs ht => hs.trans ?_) (.refl db) h
  rcases addPermissionToRole_ok ht with rfl | ⟨p, hp, rfl, hpApplication, rfl⟩
  · exact .refl _
  · obtain ⟨row', hrow', hsame, -⟩ := hs.kept row hrow
    rw [hsame.1]
    exact grown_addPermission hrow' ⟨hsame.2.2.symm.trans happlication, role, hrole, hsame.2.1.symm.trans hname,
      p, hp, rfl, hmem, hpApplication⟩

theorem grows_createApplicationRole {role : RoleInfo} (hrole : role ∈ info.getRoles)
    (h : db.createApplicationRole applicationId role = .ok db') : Grows info applicationId db db' :=
  grows_insertRole.trans (grows_addPermissionsToRole ⟨db.next, role.name, role.description, applicationId, []⟩ hrole
    (Keyed.mem_put.mpr (.inl rfl)) rfl rfl h)

theorem grows_updatePermission {permission : PermissionInfo}
    (h : db.updatePermission applicationId permission = .ok db') : Grows info applicationId db db' := by
  unfold Database.updatePermission at h
  obtain ⟨found, -, hok⟩ := bind_eq_ok.mp h
  cases found with
  | none =>
    cases hok
    exact grows_createPermission
  | some p =>
    cases hok
    exact .refl db

theorem grows_updateRole {role : RoleInfo} (hrole : role ∈ info.getRoles)
    (h : db.updateRole applicationId role = .ok db') : Grows info applicationId db db' := by
  unfold Database.updateRole at h
  obtain ⟨found, hfound, hok⟩ := bind_eq_ok.mp h
  cases found with
  | none => exact grows_createApplicationRole hrole hok
  | some applicationRole =>
    obtain ⟨added, hadded, hok⟩ := bind_eq_ok.mp hok
    obtain ⟨hmem, happlication, hname⟩ := findRole_some hfound
    cases hok
    exact (grows_addPermissionsToRole applicationRole hrole hmem hname happlication hadded).trans grows_setDescription

theorem grows_updateApplication {valid : Bool} (h : db.updateApplication applicationId info valid = .ok db') :
    Grows info applicationId db db' := by
  unfold Database.updateApplication at h
  split at h
  · obtain ⟨updated, hupdated, hok⟩ := bind_eq_ok.mp h
    exact (Grows.foldlM (fun _ _ _ _ => grows_updatePermission) hupdated).trans
      (Grows.foldlM (fun _ _ _ hrole => grows_updateRole hrole) hok)
  · cases h

theorem grows_createPermissions (info : ApplicationInfo) (applicationId : Nat) (db : Database)
    (permissions : List PermissionInfo) : Grows info applicationId db
    (permissions.foldl (fun created => created.createPermission applicationId) db) := by
  induction permissions generalizing db with
  | nil => exact .refl db
  | cons permission permissions ih => exact grows_createPermission.trans (ih _)

/-! ## A new application -/

/-- A row of a role for administrators. -/
def AdminRow (info : ApplicationInfo) (applicationId next : Nat) (db : Database) (roleId : Nat) : Prop :=
  ∃ role ∈ info.getRoles, role.isAdminRole = true ∧ ∃ row ∈ db.roles.values,
    row.id = roleId ∧ row.name = role.name ∧ row.application = applicationId ∧ next ≤ roleId

theorem AdminRow.grown {next : Nat} (h : AdminRow info applicationId next db roleId)
    (hgrown : Grown info applicationId db db') : AdminRow info applicationId next db' roleId := by
  obtain ⟨role, hrole, hadmin, row, hrow, rfl, hname, happlication, hle⟩ := h
  obtain ⟨row', hrow', hsame, -⟩ := hgrown.kept row hrow
  exact ⟨role, hrole, hadmin, row', hrow', hsame.1.symm, hsame.2.1.symm.trans hname,
    hsame.2.2.symm.trans happlication, hle⟩

theorem AdminRow.mono {next next' : Nat} (h : AdminRow info applicationId next db roleId) (hle : next' ≤ next) :
    AdminRow info applicationId next' db roleId := by
  obtain ⟨role, hrole, hadmin, row, hrow, hid, hname, happlication, hnext⟩ := h
  exact ⟨role, hrole, hadmin, row, hrow, hid, hname, happlication, Nat.le_trans hle hnext⟩

theorem adminRow_createApplicationRole {role : RoleInfo} {next : Nat} (hrole : role ∈ info.getRoles)
    (hadmin : role.isAdminRole = true) (hle : next ≤ db.next) (hdb : Consistent db)
    (ha : db.applications.Has applicationId) (h : db.createApplicationRole applicationId role = .ok db') :
    AdminRow info applicationId next db' db.next := by
  have hinserted : AdminRow info applicationId next (db.insertRole applicationId role) db.next :=
    ⟨role, hrole, hadmin, _, Keyed.mem_put.mpr (.inl rfl), rfl, rfl, rfl, hle⟩
  have hgrows : Grows info applicationId (db.insertRole applicationId role) db' :=
    grows_addPermissionsToRole ⟨db.next, role.name, role.description, applicationId, []⟩ hrole
      (Keyed.mem_put.mpr (.inl rfl)) rfl rfl h
  exact hinserted.grown (hgrows.2 (hdb.insertRole ha role) ha)

/-- The loop over the roles of a new application, with those for administrators. -/
theorem grows_createRoles {created : Database × List Nat}
    (h : info.getRoles.foldlM (Database.createRole applicationId) (db, []) = .ok created) :
    Grows info applicationId db created.1 ∧ (Consistent db → db.applications.Has applicationId →
      ∀ r ∈ created.2, AdminRow info applicationId db.next created.1 r) := by
  refine foldlM_inv (P := fun c : Database × List Nat => Grows info applicationId db c.1 ∧
    (Consistent db → db.applications.Has applicationId →
      ∀ r ∈ c.2, AdminRow info applicationId db.next c.1 r)) ?_ ⟨.refl db, by simp⟩ h
  rintro c role c' hrole ⟨hgrows, hadmin⟩ hok
  obtain ⟨hcreated, hroles⟩ := createRole_ok hok
  have hstep : Grows info applicationId c.1 c'.1 := grows_createApplicationRole hrole hcreated
  refine ⟨hgrows.trans hstep, fun hdb ha r hr => ?_⟩
  have hconsistent : Consistent c.1 := hgrows.1.2 hdb ha
  have hhas : c.1.applications.Has applicationId := by rw [hgrows.1.1.applications]; exact ha
  have hold : ∀ r ∈ c.2, AdminRow info applicationId db.next c'.1 r := fun r hr =>
    (hadmin hdb ha r hr).grown (hstep.2 hconsistent hhas)
  rw [hroles] at hr
  split at hr
  · rename_i hisAdmin
    rcases List.mem_cons.mp hr with rfl | hr
    · exact adminRow_createApplicationRole hrole hisAdmin (hgrows.2 hdb ha).next hconsistent hhas hcreated
    · exact hold r hr
  · exact hold r hr

/-- What an installation or an update gives. -/
structure Given (info : ApplicationInfo) (db db' : Database) : Prop where
  roles : ∀ g r, HasRole g r db' → HasRole g r db ∨ db.findApplication info.name = none ∧
    (∃ group ∈ db.groups.values, group.id = g ∧ group.defaultAdmin = true) ∧ AdminRow info db.next db.next db' r
  permissions : ∀ r p, HasPermission r p db' → HasPermission r p db ∨
    ∃ application ∈ db'.applications.values, application.name = info.name ∧
      ∃ row ∈ db'.roles.values, row.id = r ∧ Declared info application.id db' row p

/-- What a new row has, it has been given. -/
theorem Grown.permissions (h : Grown info applicationId db db') (hgiven : HasPermission roleId permissionId db') :
    HasPermission roleId permissionId db ∨
      ∃ row ∈ db'.roles.values, row.id = roleId ∧ Declared info applicationId db' row permissionId := by
  obtain ⟨row', hrow', rfl, hp⟩ := hgiven
  rcases h.origin row' hrow' with ⟨row, hrow, hsame, hpermissions⟩ | ⟨-, -, hdeclared⟩
  · rcases hpermissions _ hp with hold | hdeclared
    · exact .inl ⟨row, hrow, hsame.1, hold⟩
    · exact .inr ⟨row', hrow', rfl, hdeclared⟩
  · exact .inr ⟨row', hrow', rfl, hdeclared _ hp⟩

theorem Grown.addToAdminGroups {adminRoles : List Nat} (h : Grown info applicationId db db') :
    Grown info applicationId db (db'.addToAdminGroups adminRoles) :=
  ⟨h.next, h.permission, h.kept, h.origin⟩

theorem mem_addAdminRoles {adminRoles : List Nat} {group : GroupRow}
    (h : roleId ∈ (group.addAdminRoles adminRoles).roles) :
    roleId ∈ group.roles ∨ group.defaultAdmin = true ∧ roleId ∈ adminRoles := by
  unfold GroupRow.addAdminRoles at h
  split at h
  · rename_i hadmin
    exact (List.mem_union_iff.mp h).imp_right fun hr => ⟨hadmin, hr⟩
  · exact .inl h

theorem given_provideApplication {valid : Bool} (hdb : Consistent db)
    (h : db.provideApplication info valid = .ok db') : Given info db db' := by
  unfold Database.provideApplication at h
  cases hname : db.findApplication info.name with
  | some application =>
    rw [hname] at h
    have hmem : application ∈ db.applications.values := List.mem_of_find?_eq_some hname
    have happ : application.name = info.name := by simpa using List.find?_some hname
    have hgrows : Grows info application.id db db' := grows_updateApplication h
    have hgrown := hgrows.2 hdb (Keyed.has_of_mem hmem)
    refine ⟨fun g r hgiven => .inl ?_, fun r p hgiven => ?_⟩
    · unfold HasRole at hgiven ⊢
      rw [hgrows.1.1.groups] at hgiven
      exact hgiven
    · refine (hgrown.permissions hgiven).imp_right fun hdeclared => ⟨application, ?_, happ, hdeclared⟩
      rw [hgrows.1.1.applications]
      exact hmem
  | none =>
    rw [hname] at h
    obtain ⟨db₁, hcreate, hupdate⟩ := bind_eq_ok.mp h
    obtain ⟨hconsistent, hnew⟩ := hdb.createApplication hname hcreate
    obtain ⟨created, hcreated, rfl⟩ := createApplication_ok hcreate
    obtain ⟨hroles, hadmin⟩ := grows_createRoles hcreated
    have hinserted : (db.insertApplication info.name).applications.Has db.next := Keyed.has_put.mpr (.inl rfl)
    have hinsert := hdb.insertApplication hname
    have hpermissions := grows_createPermissions info db.next (db.insertApplication info.name) info.getPermissions
    have hbefore := hpermissions.trans hroles
    have hcreatedGrown := hbefore.2 hinsert hinserted
    have hgrows : Grows info db.next (created.1.addToAdminGroups created.2) db' := grows_updateApplication hupdate
    have hlast := hgrows.2 hconsistent hnew
    have hall : Grown info db.next (db.insertApplication info.name) db' := hcreatedGrown.addToAdminGroups.trans hlast
    refine ⟨fun g r hgiven => ?_, fun r p hgiven => ?_⟩
    · obtain ⟨group, hgroup, rfl, hr⟩ := hgiven
      rw [hgrows.1.1.groups] at hgroup
      obtain ⟨old, hold, rfl⟩ := (Keyed.mem_mapValues GroupRow.id_addAdminRoles).mp hgroup
      rw [hbefore.1.1.groups] at hold
      rcases mem_addAdminRoles hr with hr | ⟨hdefaultAdmin, hr⟩
      · exact .inl ⟨old, hold, (old.id_addAdminRoles).symm, hr⟩
      · have hrow : AdminRow info db.next db.next (created.1.addToAdminGroups created.2) r :=
          (hadmin (hpermissions.1.2 hinsert hinserted) (hpermissions.1.1.applications ▸ hinserted) r hr).mono
            (Nat.le_trans (Nat.le_succ _) hpermissions.1.1.next)
        exact .inr ⟨hname, ⟨old, hold, old.id_addAdminRoles.symm, hdefaultAdmin⟩, hrow.grown hlast⟩
    · refine (hall.permissions hgiven).imp_right fun hdeclared => ⟨⟨db.next, info.name⟩, ?_, rfl, hdeclared⟩
      rw [hgrows.1.1.applications]
      show _ ∈ created.1.applications.values
      rw [hbefore.1.1.applications]
      exact Keyed.mem_put.mpr (.inl rfl)

theorem subjects_provideApplication {valid : Bool} (h : db.provideApplication info valid = .ok db') :
    db'.subjects = db.subjects := by
  unfold Database.provideApplication at h
  split at h
  · obtain ⟨db₁, hcreate, hupdate⟩ := bind_eq_ok.mp h
    obtain ⟨created, hcreated, rfl⟩ := createApplication_ok hcreate
    have hpermissions := (grows_createPermissions info db.next (db.insertApplication info.name) info.getPermissions).1.1
    have hroles : Kept _ created.1 := (grows_createRoles hcreated).1.1.1
    have hgrows : Grows info db.next (created.1.addToAdminGroups created.2) db' := grows_updateApplication hupdate
    calc db'.subjects = created.1.subjects := hgrows.1.1.subjects
      _ = (db.insertApplication info.name).subjects := (hpermissions.trans hroles).subjects
      _ = db.subjects := rfl
  · rename_i application _
    have hgrows : Grows info application.id db db' := grows_updateApplication h
    exact hgrows.1.1.subjects

/-! ## What is taken away -/

structure Shrunk (db db' : Database) : Prop where
  roles : ∀ g r, HasRole g r db' → HasRole g r db
  permissions : ∀ r p, HasPermission r p db' → HasPermission r p db
  groups : ∀ s g, InGroup s g db' → InGroup s g db

theorem Shrunk.refl (db : Database) : Shrunk db db := ⟨fun _ _ h => h, fun _ _ h => h, fun _ _ h => h⟩

theorem Shrunk.trans {db'' : Database} (h : Shrunk db db') (h' : Shrunk db' db'') : Shrunk db db'' where
  roles := fun g r hr => h.roles g r (h'.roles g r hr)
  permissions := fun r p hp => h.permissions r p (h'.permissions r p hp)
  groups := fun s g hg => h.groups s g (h'.groups s g hg)

theorem Shrunk.foldlM {f : Database → Nat → Except Failure Database} {ids : List Nat}
    (hf : ∀ s id t, f s id = .ok t → Shrunk s t) (h : ids.foldlM f db = .ok db') : Shrunk db db' :=
  foldlM_inv (P := Shrunk db) (fun s id t _ hs ht => hs.trans (hf s id t ht)) (.refl db) h

theorem shrunk_deleteRole (h : db.deleteRole roleId = .ok db') : Shrunk db db' := by
  rw [deleteRole_ok h]
  refine ⟨?_, ?_, fun _ _ h => h⟩
  · rintro g r ⟨group, hgroup, rfl, hr⟩
    obtain ⟨old, hold, rfl⟩ := (Keyed.mem_mapValues (GroupRow.id_without roleId)).mp hgroup
    exact ⟨old, hold, rfl, List.mem_of_mem_filter hr⟩
  · rintro r p ⟨row, hrow, hid, hp⟩
    exact ⟨row, (Keyed.mem_erase.mp hrow).1, hid, hp⟩

theorem shrunk_deletePermission (h : db.deletePermission permissionId = .ok db') : Shrunk db db' := by
  unfold Database.deletePermission at h
  split at h
  · cases h
  · cases h
    exact ⟨fun _ _ h => h, fun _ _ h => h, fun _ _ h => h⟩

theorem shrunk_deleteApplication {linked : Bool} (h : db.deleteApplication applicationId linked = .ok db') :
    Shrunk db db' := by
  unfold Database.deleteApplication at h
  split at h
  · cases h
  · split at h
    · cases h
    · obtain ⟨mid, hmid, h⟩ := bind_eq_ok.mp h
      obtain ⟨last, hlast, hok⟩ := bind_eq_ok.mp h
      cases hok
      have hroles : Shrunk db mid := .foldlM (fun _ _ _ => shrunk_deleteRole) hmid
      have hpermissions : Shrunk mid last := .foldlM (fun _ _ _ => shrunk_deletePermission) hlast
      exact (hroles.trans hpermissions).trans ⟨fun _ _ h => h, fun _ _ h => h, fun _ _ h => h⟩

theorem shrunk_deleteGroup (h : db.deleteGroup groupId = .ok db') : Shrunk db db' := by
  unfold Database.deleteGroup at h
  split at h
  · cases h
  · split at h
    · cases h
      exact .refl db
    · cases h
      refine ⟨?_, fun _ _ h => h, ?_⟩
      · rintro g r ⟨group, hgroup, hid, hr⟩
        exact ⟨group, (Keyed.mem_erase.mp hgroup).1, hid, hr⟩
      · rintro s g ⟨subject, hsubject, rfl, hg⟩
        obtain ⟨old, hold, rfl⟩ := (Keyed.mem_mapValues (SubjectRow.id_without groupId)).mp hsubject
        exact ⟨old, hold, rfl, List.mem_of_mem_filter hg⟩

theorem shrunk_savePermission {edit : PermissionEdit} (h : db.savePermission edit = .ok db') : Shrunk db db' := by
  cases edit with
  | create applicationId permission =>
    simp only [Database.savePermission] at h
    split at h
    · cases h
      exact ⟨fun _ _ h => h, fun _ _ h => h, fun _ _ h => h⟩
    · cases h
  | update permissionId permission =>
    simp only [Database.savePermission] at h
    split at h
    · cases h
    · cases h
      exact ⟨fun _ _ h => h, fun _ _ h => h, fun _ _ h => h⟩

theorem shrunk_removePermission : Shrunk db (db.removePermission roleId permissionId) := by
  unfold Database.removePermission
  split
  · exact .refl db
  · rename_i role hrole
    obtain ⟨hmem, -⟩ := Keyed.get_eq_some.mp hrole
    refine ⟨fun _ _ h => h, ?_, fun _ _ h => h⟩
    rintro r p ⟨row, hrow, rfl, hp⟩
    rcases Keyed.mem_put.mp hrow with rfl | ⟨hrow, -⟩
    · exact ⟨role, hmem, rfl, List.mem_of_mem_filter hp⟩
    · exact ⟨row, hrow, rfl, hp⟩

theorem shrunk_removePermissions {applicationName roleName : String} {names : List String} {edited : Database × Nat}
    (h : db.removePermissions applicationName roleName names = .ok edited) : Shrunk db edited.1 := by
  obtain ⟨role, -, -, -, hinv⟩ := editPermissions_ok h
  exact hinv (Shrunk db) (.refl db) fun s p hs _ _ _ => hs.trans shrunk_removePermission

theorem shrunk_deleteSubject (h : db.deleteSubject subjectId = .ok db') : Shrunk db db' := by
  unfold Database.deleteSubject at h
  split at h
  · cases h
  · cases h
    refine ⟨fun _ _ h => h, fun _ _ h => h, ?_⟩
    rintro s g ⟨subject, hsubject, hid, hg⟩
    exact ⟨subject, (Keyed.mem_erase.mp hsubject).1, hid, hg⟩

/-! ## What is asked for -/

/-- The roles of the others stay as they are. -/
theorem hasRole_put {row : GroupRow} (hgroups : db'.groups = db.groups.put row) (hr : HasRole groupId roleId db') :
    HasRole groupId roleId db ∨ row.id = groupId ∧ roleId ∈ row.roles := by
  obtain ⟨group, hgroup, rfl, hr⟩ := hr
  rw [hgroups] at hgroup
  rcases Keyed.mem_put.mp hgroup with rfl | ⟨hgroup, -⟩
  · exact .inr ⟨rfl, hr⟩
  · exact .inl ⟨group, hgroup, rfl, hr⟩

/-- The roles of one group are stored. -/
theorem hasRole_storeRoles {group : GroupRow} {roles : RoleSet}
    (h : HasRole groupId roleId (db.storeRoles group roles)) :
    HasRole groupId roleId db ∨ group.id = groupId ∧ ∃ role, some role ∈ roles ∧ role.id = roleId :=
  (hasRole_put rfl h).imp_right fun ⟨hid, hr⟩ => ⟨hid, mem_storeRoles.mp hr⟩

theorem hasPermission_addPermission {id added : Nat}
    (h : HasPermission roleId permissionId (db.addPermission id added)) :
    HasPermission roleId permissionId db ∨ roleId = id ∧ permissionId = added := by
  unfold Database.addPermission at h
  split at h
  · exact .inl h
  · rename_i role hrole
    obtain ⟨hmem, rfl⟩ := Keyed.get_eq_some.mp hrole
    obtain ⟨row, hrow, rfl, hp⟩ := h
    rcases Keyed.mem_put.mp hrow with rfl | ⟨hrow, -⟩
    · rcases List.mem_insert_iff.mp hp with rfl | hp
      · exact .inr ⟨rfl, rfl⟩
      · exact .inl ⟨role, hmem, rfl, hp⟩
    · exact .inl ⟨row, hrow, rfl, hp⟩

/-- One role gets the permissions that were named. -/
theorem addPermissions_ok {applicationName roleName : String} {names : List String} {edited : Database × Nat}
    (h : db.addPermissions applicationName roleName names = .ok edited) :
    edited.1.groups = db.groups ∧ edited.1.subjects = db.subjects ∧
      ∀ r p, HasPermission r p edited.1 → HasPermission r p db ∨
        Declaring r p db (.addPermissions applicationName roleName names) edited.1 := by
  obtain ⟨role, hrole, hname, happlication, hinv⟩ := editPermissions_ok h
  -- what a role gets is a permission of the tables as they were
  have hadded := hinv (fun s => Kept db s ∧ s.permissions = db.permissions ∧
    ∀ r p, HasPermission r p s → HasPermission r p db ∨ r = role.id ∧
      ∃ row ∈ db.permissions.values, row.id = p ∧ row.name ∈ names ∧ row.application = role.application)
    ⟨.refl db, rfl, fun _ _ h => .inl h⟩ ?_
  · obtain ⟨hkept, -, hpermissions⟩ := hadded
    refine ⟨hkept.groups, hkept.subjects, fun r p hp => ?_⟩
    refine (hpermissions r p hp).imp_right ?_
    rintro ⟨rfl, hrow⟩
    exact ⟨role, hrole, rfl, hname, happlication, hrow⟩
  · rintro s row ⟨hkept, hsame, hpermissions⟩ hrow hnamed hown
    refine ⟨hkept.trans kept_addPermission, ?_, fun r p hp => ?_⟩
    · rw [← hsame]
      unfold Database.addPermission
      split <;> rfl
    · rcases hasPermission_addPermission hp with hp | ⟨rfl, rfl⟩
      · exact hpermissions r p hp
      · exact .inr ⟨rfl, row, hsame ▸ hrow, rfl, hnamed, hown⟩

/-- One row of a role is stored. -/
theorem saveRole_ok {edit : RoleEdit} (h : db.saveRole edit = .ok db') :
    db'.groups = db.groups ∧ db'.subjects = db.subjects ∧ ∃ row, db'.roles = db.roles.put row ∧
      ∀ p ∈ row.permissions, Declaring row.id p db (.saveRole edit) db' := by
  unfold Database.saveRole at h
  split at h
  · split at h
    · split at h
      · cases h
        exact ⟨rfl, rfl, _, rfl, fun p hp => ⟨rfl, hp⟩⟩
      · cases h
    · split at h
      · cases h
      · rename_i role hrole
        cases h
        exact ⟨rfl, rfl, _, rfl, fun p hp => ⟨(Keyed.get_eq_some.mp hrole).2, hp⟩⟩
  · cases h

/-- The groups of one subject are stored. -/
theorem assignGroupsToSubject_ok {groupIds : Option (List Nat)} {clear : Bool}
    (h : db.assignGroupsToSubject subjectId groupIds clear = .ok db') :
    db'.groups = db.groups ∧ db'.roles = db.roles ∧ ∃ row, db'.subjects = db.subjects.put row ∧
      row.id = subjectId ∧ ∀ g ∈ row.groups, InGroup subjectId g db ∨ g ∈ groupIds.getD [] := by
  unfold Database.assignGroupsToSubject at h
  split at h
  · cases h
  · rename_i subject hsubject
    cases h
    obtain ⟨hmem, hid⟩ := Keyed.get_eq_some.mp hsubject
    refine ⟨rfl, rfl, _, rfl, hid, fun g hg => ?_⟩
    rcases List.mem_union_iff.mp hg with hold | hfound
    · split at hold
      · cases hold
      · exact .inl ⟨subject, hmem, hid, hold⟩
    · exact .inr (by simpa using (List.mem_filter.mp hfound).2)

theorem addGroupsToSubject_ok {userName : String} {groupNames : List String} {clear : Bool}
    (h : db.addGroupsToSubject userName groupNames clear = .ok db') :
    ∃ subject ∈ db.subjects.values, subject.name = userName ∧ ∃ groupIds,
      db.assignGroupsToSubject subject.id groupIds clear = .ok db' ∧
        ∀ g ∈ groupIds.getD [], ∃ group ∈ db.groups.values, group.id = g ∧ group.name ∈ groupNames := by
  unfold Database.addGroupsToSubject at h
  split at h
  · cases h
  · rename_i subject hsubject
    refine ⟨subject, List.mem_of_find?_eq_some hsubject, by simpa using List.find?_some hsubject, _, h, fun g hg => ?_⟩
    split at hg
    · cases hg
    · obtain ⟨group, hgroup, rfl⟩ := List.mem_map.mp hg
      obtain ⟨hgroup, hname⟩ := List.mem_filter.mp hgroup
      exact ⟨group, hgroup, rfl, by simpa using hname⟩

/-! ## Runs -/

theorem granted_of_perform {e : Event} (hdb : Consistent db) (h : perform db e = .ok db')
    (hr : HasRole groupId roleId db') : HasRole groupId roleId db ∨ Granting groupId roleId db e db' := by
  cases e with
  | provideApplication info valid => exact (given_provideApplication hdb h).roles groupId roleId hr
  | deleteApplication applicationId linked => exact .inl ((shrunk_deleteApplication h).roles _ _ hr)
  | deleteRole roleId => exact .inl ((shrunk_deleteRole h).roles _ _ hr)
  | deletePermission permissionId => exact .inl ((shrunk_deletePermission h).roles _ _ hr)
  | saveRole edit =>
    unfold HasRole at hr
    rw [(saveRole_ok h).1] at hr
    exact .inl hr
  | savePermission edit => exact .inl ((shrunk_savePermission h).roles _ _ hr)
  | addPermissions applicationName roleName names =>
    obtain ⟨edited, hedited, hok⟩ := bind_eq_ok.mp h
    cases hok
    unfold HasRole at hr
    rw [(addPermissions_ok hedited).1] at hr
    exact .inl hr
  | removePermissions applicationName roleName names =>
    obtain ⟨edited, hedited, hok⟩ := bind_eq_ok.mp h
    cases hok
    exact .inl ((shrunk_removePermissions hedited).roles _ _ hr)
  | createGroup name defaultAdmin roles =>
    obtain ⟨-, rfl⟩ := createGroup_ok h
    exact (hasRole_put rfl hr).imp_right fun ⟨hid, hmem⟩ => ⟨hid.symm, hmem⟩
  | updateGroup id name defaultAdmin roles =>
    obtain ⟨-, -, rfl⟩ := updateGroup_ok h
    exact hasRole_put rfl hr
  | deleteGroup groupId => exact .inl ((shrunk_deleteGroup h).roles _ _ hr)
  | assignRolesToGroup id hasApplication ids =>
    obtain ⟨group, hgroup, rfl, roles, rfl, hroles⟩ := assignRolesToGroup_ok h
    rcases hasRole_storeRoles hr with hold | ⟨rfl, role, hrole, rfl⟩
    · exact .inl hold
    · exact (hroles role hrole).2.imp (fun hold => ⟨group, hgroup, rfl, hold⟩) fun hnew => ⟨rfl, hnew⟩
  | addApplicationRolesToGroup groupName applicationName names clear =>
    obtain ⟨group, hgroup, hname, roles, rfl, hroles⟩ := addApplicationRolesToGroup_ok h
    rcases hasRole_storeRoles hr with hold | ⟨rfl, role, hrole, rfl⟩
    · exact .inl hold
    · exact (hroles role hrole).2.imp (fun hold => ⟨group, hgroup, rfl, hold⟩)
        fun hnew => ⟨⟨group, hgroup, rfl, hname⟩, hnew⟩
  | createSubject name groups =>
    obtain ⟨-, rfl⟩ := createSubject_ok h
    exact .inl hr
  | updateSubject id name groups =>
    obtain ⟨-, -, rfl⟩ := updateSubject_ok h
    exact .inl hr
  | deleteSubject subjectId => exact .inl ((shrunk_deleteSubject h).roles _ _ hr)
  | assignGroupsToSubject subjectId groupIds clear =>
    unfold HasRole at hr
    rw [(assignGroupsToSubject_ok h).1] at hr
    exact .inl hr
  | addGroupsToSubject userName groupNames clear =>
    obtain ⟨subject, -, -, groupIds, hassigned, -⟩ := addGroupsToSubject_ok h
    unfold HasRole at hr
    rw [(assignGroupsToSubject_ok hassigned).1] at hr
    exact .inl hr

theorem declared_of_perform {e : Event} (hdb : Consistent db) (h : perform db e = .ok db')
    (hp : HasPermission roleId permissionId db') :
    HasPermission roleId permissionId db ∨ Declaring roleId permissionId db e db' := by
  cases e with
  | provideApplication info valid => exact (given_provideApplication hdb h).permissions roleId permissionId hp
  | deleteApplication applicationId linked => exact .inl ((shrunk_deleteApplication h).permissions _ _ hp)
  | deleteRole roleId => exact .inl ((shrunk_deleteRole h).permissions _ _ hp)
  | deletePermission permissionId => exact .inl ((shrunk_deletePermission h).permissions _ _ hp)
  | saveRole edit =>
    obtain ⟨-, -, row, hroles, hdeclared⟩ := saveRole_ok h
    obtain ⟨other, hother, rfl, hp⟩ := hp
    rw [hroles] at hother
    rcases Keyed.mem_put.mp hother with rfl | ⟨hother, -⟩
    · exact .inr (hdeclared _ hp)
    · exact .inl ⟨other, hother, rfl, hp⟩
  | savePermission edit => exact .inl ((shrunk_savePermission h).permissions _ _ hp)
  | addPermissions applicationName roleName names =>
    obtain ⟨edited, hedited, hok⟩ := bind_eq_ok.mp h
    cases hok
    exact (addPermissions_ok hedited).2.2 roleId permissionId hp
  | removePermissions applicationName roleName names =>
    obtain ⟨edited, hedited, hok⟩ := bind_eq_ok.mp h
    cases hok
    exact .inl ((shrunk_removePermissions hedited).permissions _ _ hp)
  | createGroup name defaultAdmin roles =>
    obtain ⟨-, rfl⟩ := createGroup_ok h
    exact .inl hp
  | updateGroup id name defaultAdmin roles =>
    obtain ⟨-, -, rfl⟩ := updateGroup_ok h
    exact .inl hp
  | deleteGroup groupId => exact .inl ((shrunk_deleteGroup h).permissions _ _ hp)
  | assignRolesToGroup id hasApplication ids =>
    obtain ⟨group, -, -, roles, rfl, -⟩ := assignRolesToGroup_ok h
    exact .inl hp
  | addApplicationRolesToGroup groupName applicationName names clear =>
    obtain ⟨group, -, -, roles, rfl, -⟩ := addApplicationRolesToGroup_ok h
    exact .inl hp
  | createSubject name groups =>
    obtain ⟨-, rfl⟩ := createSubject_ok h
    exact .inl hp
  | updateSubject id name groups =>
    obtain ⟨-, -, rfl⟩ := updateSubject_ok h
    exact .inl hp
  | deleteSubject subjectId => exact .inl ((shrunk_deleteSubject h).permissions _ _ hp)
  | assignGroupsToSubject subjectId groupIds clear =>
    unfold HasPermission at hp
    rw [(assignGroupsToSubject_ok h).2.1] at hp
    exact .inl hp
  | addGroupsToSubject userName groupNames clear =>
    obtain ⟨subject, -, -, groupIds, hassigned, -⟩ := addGroupsToSubject_ok h
    unfold HasPermission at hp
    rw [(assignGroupsToSubject_ok hassigned).2.1] at hp
    exact .inl hp

/-- The groups of the others stay as they are. -/
theorem inGroup_put {row : SubjectRow} (hsubjects : db'.subjects = db.subjects.put row)
    (hg : InGroup subjectId groupId db') :
    InGroup subjectId groupId db ∨ row.id = subjectId ∧ groupId ∈ row.groups := by
  obtain ⟨subject, hsubject, rfl, hg⟩ := hg
  rw [hsubjects] at hsubject
  rcases Keyed.mem_put.mp hsubject with rfl | ⟨hsubject, -⟩
  · exact .inr ⟨rfl, hg⟩
  · exact .inl ⟨subject, hsubject, rfl, hg⟩

theorem joined_of_perform {e : Event} (h : perform db e = .ok db') (hg : InGroup subjectId groupId db') :
    InGroup subjectId groupId db ∨ Joining subjectId groupId db e db' := by
  cases e with
  | provideApplication info valid =>
    unfold InGroup at hg
    rw [subjects_provideApplication h] at hg
    exact .inl hg
  | deleteApplication applicationId linked => exact .inl ((shrunk_deleteApplication h).groups _ _ hg)
  | deleteRole roleId => exact .inl ((shrunk_deleteRole h).groups _ _ hg)
  | deletePermission permissionId => exact .inl ((shrunk_deletePermission h).groups _ _ hg)
  | saveRole edit =>
    unfold InGroup at hg
    rw [(saveRole_ok h).2.1] at hg
    exact .inl hg
  | savePermission edit => exact .inl ((shrunk_savePermission h).groups _ _ hg)
  | addPermissions applicationName roleName names =>
    obtain ⟨edited, hedited, hok⟩ := bind_eq_ok.mp h
    cases hok
    unfold InGroup at hg
    rw [(addPermissions_ok hedited).2.1] at hg
    exact .inl hg
  | removePermissions applicationName roleName names =>
    obtain ⟨edited, hedited, hok⟩ := bind_eq_ok.mp h
    cases hok
    exact .inl ((shrunk_removePermissions hedited).groups _ _ hg)
  | createGroup name defaultAdmin roles =>
    obtain ⟨-, rfl⟩ := createGroup_ok h
    exact .inl hg
  | updateGroup id name defaultAdmin roles =>
    obtain ⟨-, -, rfl⟩ := updateGroup_ok h
    exact .inl hg
  | deleteGroup groupId => exact .inl ((shrunk_deleteGroup h).groups _ _ hg)
  | assignRolesToGroup id hasApplication ids =>
    obtain ⟨group, -, -, roles, rfl, -⟩ := assignRolesToGroup_ok h
    exact .inl hg
  | addApplicationRolesToGroup groupName applicationName names clear =>
    obtain ⟨group, -, -, roles, rfl, -⟩ := addApplicationRolesToGroup_ok h
    exact .inl hg
  | createSubject name groups =>
    obtain ⟨-, rfl⟩ := createSubject_ok h
    exact (inGroup_put rfl hg).imp_right fun ⟨hid, hmem⟩ => ⟨hid.symm, hmem⟩
  | updateSubject id name groups =>
    obtain ⟨-, -, rfl⟩ := updateSubject_ok h
    exact inGroup_put rfl hg
  | deleteSubject subjectId => exact .inl ((shrunk_deleteSubject h).groups _ _ hg)
  | assignGroupsToSubject id groupIds clear =>
    obtain ⟨-, -, row, hsubjects, rfl, hgroups⟩ := assignGroupsToSubject_ok h
    rcases inGroup_put hsubjects hg with hold | ⟨rfl, hnew⟩
    · exact .inl hold
    · exact (hgroups _ hnew).imp_right fun hmem => ⟨rfl, hmem⟩
  | addGroupsToSubject userName groupNames clear =>
    obtain ⟨subject, hsubject, hname, groupIds, hassigned, hfound⟩ := addGroupsToSubject_ok h
    obtain ⟨-, -, row, hsubjects, hid, hgroups⟩ := assignGroupsToSubject_ok hassigned
    rcases inGroup_put hsubjects hg with hold | ⟨rfl, hnew⟩
    · exact .inl hold
    · rw [← hid] at hgroups
      exact (hgroups _ hnew).imp_right fun hmem => ⟨⟨subject, hsubject, hid.symm, hname⟩, hfound _ hmem⟩

/-- What one step of a run does not give was there before it. -/
theorem broughtAbout_of_perform {F : Database → Prop} {G : Database → Event → Database → Prop} {es : List Event}
    (hempty : ¬ F .empty)
    (hperform : ∀ db e db', Consistent db → perform db e = .ok db' → F db' → F db ∨ G db e db')
    (h : Run Step .empty es db) (hF : F db) : BroughtAbout Step .empty es db F G := by
  refine h.broughtAbout hempty (fun es db e db' hrun hstep hF => ?_) hF
  rcases hstep with hok | ⟨rfl, -⟩
  · exact hperform db e db' (consistent_of_run hrun) hok hF
  · exact .inl hF

/-! ## What a subject may do -/

/-- The rows that give the permission to the subject. -/
structure Path (db : Database) (subject : SubjectRow) (application ref : String) (group : GroupRow) (role : RoleRow)
    (permission : PermissionRow) : Prop where
  joined : group ∈ db.groups.values ∧ group.id ∈ subject.groups
  granted : role ∈ db.roles.values ∧ role.id ∈ group.roles
  declared : permission ∈ db.permissions.values ∧ permission.id ∈ role.permissions ∧ permission.name = ref
  own : ∃ row ∈ db.applications.values, row.id = role.application ∧ row.name = application

theorem hasRole_roleOf {subject : SubjectRow} {application ref : String} {role : RoleRow} :
    (db.processor subject application).hasRole ref (db.roleOf role) = true ↔
      (∃ row ∈ db.applications.values, row.id = role.application ∧ row.name = application) ∧
        ∃ permission ∈ db.permissions.values, permission.id ∈ role.permissions ∧ permission.name = ref := by
  have hpermissions : ref ∈ (db.roleOf role).permissions ↔
      ∃ permission ∈ db.permissions.values, permission.id ∈ role.permissions ∧ permission.name = ref := by
    simp only [Database.roleOf, List.mem_map, List.mem_filterMap, Keyed.get_eq_some]
    constructor
    · rintro ⟨permission, ⟨id, hid, hmem, rfl⟩, hname⟩
      exact ⟨permission, hmem, hid, hname⟩
    · rintro ⟨permission, hmem, hid, hname⟩
      exact ⟨permission, ⟨permission.id, hid, hmem, rfl⟩, hname⟩
  rw [← hpermissions]
  unfold PermissionProcessor.DefaultPermissionProcessor.hasRole
  cases happlication : db.applications.get role.application with
  | none =>
    have hnone : ∀ row ∈ db.applications.values, row.id ≠ role.application := Keyed.get_eq_none.mp happlication
    simp only [Database.roleOf, happlication, Option.map_none]
    refine iff_of_false (by simp) ?_
    rintro ⟨⟨row, hrow, hid, -⟩, -⟩
    exact hnone row hrow hid
  | some row =>
    obtain ⟨hrow, hid⟩ := Keyed.get_eq_some.mp happlication
    have hown : (∃ row ∈ db.applications.values, row.id = role.application ∧ row.name = application) ↔
        application = row.name := by
      constructor
      · rintro ⟨other, hother, hotherId, rfl⟩
        rw [Keyed.eq_of_key_eq hother hrow (hotherId.trans hid.symm)]
      · rintro rfl
        exact ⟨row, hrow, hid, rfl⟩
    rw [hown]
    simp [Database.roleOf, Database.processor, happlication]

/-- The loops over the groups and over their roles. -/
theorem hasPermission_iff {subject : SubjectRow} {application ref : String} :
    (db.processor subject application).hasPermission ref = some true ↔
      ∃ group role permission, Path db subject application ref group role permission := by
  have hloops : (db.processor subject application).hasPermission ref = some true ↔
      ∃ group ∈ subject.groups.filterMap db.groups.get, ∃ role ∈ group.roles.filterMap db.roles.get,
        (db.processor subject application).hasRole ref (db.roleOf role) = true := by
    simp only [PermissionProcessor.DefaultPermissionProcessor.hasPermission, Database.processor, Database.subjectOf,
      Database.groupOf, Option.map_some, Option.some.injEq, List.any_map, List.any_eq_true, Function.comp_apply]
  rw [hloops]
  simp only [hasRole_roleOf, List.mem_filterMap, Keyed.get_eq_some]
  constructor
  · rintro ⟨group, ⟨_, hgroupId, hgroup, rfl⟩, role, ⟨_, hroleId, hrole, rfl⟩, hown, permission, hpermission⟩
    exact ⟨group, role, permission, ⟨hgroup, hgroupId⟩, ⟨hrole, hroleId⟩, hpermission, hown⟩
  · rintro ⟨group, role, permission, ⟨hgroup, hgroupId⟩, ⟨hrole, hroleId⟩, hpermission, hown⟩
    exact ⟨group, ⟨_, hgroupId, hgroup, rfl⟩, role, ⟨_, hroleId, hrole, rfl⟩, hown, permission, hpermission⟩

theorem permission_explained {es : List Event} (h : Run Step .empty es db) {subject : SubjectRow}
    (hsubject : subject ∈ db.subjects.values) (application ref : String) :
    ((db.processor subject application).hasPermission ref = some true ↔
      ∃ group role permission, Path db subject application ref group role permission) ∧
    ∀ group role permission, Path db subject application ref group role permission →
      BroughtAbout Step .empty es db (InGroup subject.id group.id) (Joining subject.id group.id) ∧
      BroughtAbout Step .empty es db (HasRole group.id role.id) (Granting group.id role.id) ∧
      BroughtAbout Step .empty es db (HasPermission role.id permission.id) (Declaring role.id permission.id) := by
  refine ⟨hasPermission_iff, fun group role permission path => ⟨?_, ?_, ?_⟩⟩
  · exact broughtAbout_of_perform (by rintro ⟨_, hnone, -⟩; cases hnone)
      (fun _ _ _ _ hok hF => joined_of_perform hok hF) h ⟨subject, hsubject, rfl, path.joined.2⟩
  · exact broughtAbout_of_perform (by rintro ⟨_, hnone, -⟩; cases hnone)
      (fun _ _ _ hdb hok hF => granted_of_perform hdb hok hF) h ⟨group, path.joined.1, rfl, path.granted.2⟩
  · exact broughtAbout_of_perform (by rintro ⟨_, hnone, -⟩; cases hnone)
      (fun _ _ _ hdb hok hF => declared_of_perform hdb hok hF) h ⟨role, path.granted.1, rfl, path.declared.2.1⟩

theorem run_of_foldlM {es : List Event} (h : es.foldlM perform db = .ok db') : Run Step db es db' := by
  induction es generalizing db with
  | nil =>
    cases h
    exact .nil
  | cons e es ih =>
    rw [List.foldlM_cons, bind_eq_ok] at h
    obtain ⟨next, hnext, hrest⟩ := h
    exact (Run.single (.inl hnext)).append (ih hrest)

/-- A shop, and one who administers it. -/
def opening : List Event :=
  [.createGroup "admins" true [],
    .provideApplication ⟨"shop", some [⟨"orders.edit", none⟩], some [⟨"manager", none, true, ["orders.edit"]⟩]⟩ true,
    .createSubject "anna" [], .addGroupsToSubject "anna" ["admins"] true]

def opened : Database where
  next := 5
  applications := Keyed.empty.put ⟨1, "shop"⟩
  permissions := Keyed.empty.put ⟨2, "orders.edit", none, 1⟩
  roles := Keyed.empty.put ⟨3, "manager", none, 1, [2]⟩
  groups := Keyed.empty.put ⟨0, "admins", true, [3]⟩
  subjects := Keyed.empty.put ⟨4, "anna", [0]⟩

theorem run_opening : Run Step .empty opening opened := run_of_foldlM rfl

theorem anna_explained : ∃ group role permission,
    Path opened ⟨4, "anna", [0]⟩ "shop" "orders.edit" group role permission ∧
      BroughtAbout Step .empty opening opened (InGroup 4 group.id) (Joining 4 group.id) ∧
      BroughtAbout Step .empty opening opened (HasRole group.id role.id) (Granting group.id role.id) ∧
      BroughtAbout Step .empty opening opened (HasPermission role.id permission.id)
        (Declaring role.id permission.id) := by
  obtain ⟨hiff, horigin⟩ := permission_explained run_opening (Keyed.mem_put.mpr (.inl rfl)) "shop" "orders.edit"
  obtain ⟨group, role, permission, path⟩ := hiff.mp (by decide)
  exact ⟨group, role, permission, path, horigin group role permission path⟩

end Authorization
end Groups
end AppNG
