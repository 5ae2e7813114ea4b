import AppNG.Groups.Provenance

/-!
# Groups.Deletion

An application is deleted with its roles and permissions.

* `Deletable`: when that does not throw.
* `Removed`: what is left.
* `applicationDeleted_exact`: it succeeds if and only if the application is deletable. It takes away all that the
  application gave, and nothing else: every subject keeps what it may do in the other applications.
-/

namespace AppNG
namespace Groups
namespace Authorization

open Machine Loop

variable {db db' : Database} {applicationId roleId permissionId : Nat} {linked : Bool}

/-! ## What is left -/

/-- A permission of it that a role of another application has is one that cannot be deleted. -/
def Deletable (db : Database) (applicationId : Nat) (linked : Bool) : Prop :=
  linked = false ∧ db.applications.Has applicationId ∧
    ∀ role ∈ db.roles.values, role.application ≠ applicationId →
      ∀ permission ∈ db.permissions.values, permission.application = applicationId →
        permission.id ∉ role.permissions

/-- The roles of an application. -/
def Database.rolesOf (db : Database) (applicationId : Nat) : List Nat :=
  (db.roles.values.filter fun role => role.application == applicationId).map RoleRow.id

def Database.permissionsOf (db : Database) (applicationId : Nat) : List Nat :=
  (db.permissions.values.filter fun p => p.application == applicationId).map PermissionRow.id

/-- A group without some roles. -/
def GroupRow.withoutAll (roles : List Nat) (group : GroupRow) : GroupRow :=
  { group with roles := group.roles.filter fun role => !roles.contains role }

structure Removed (applicationId : Nat) (db db' : Database) : Prop where
  next : db'.next = db.next
  applications : db'.applications = db.applications.erase applicationId
  permissions : ∀ p, p ∈ db'.permissions.values ↔ p ∈ db.permissions.values ∧ p.application ≠ applicationId
  roles : ∀ r, r ∈ db'.roles.values ↔ r ∈ db.roles.values ∧ r.application ≠ applicationId
  groups : db'.groups.values = db.groups.values.map (GroupRow.withoutAll (db.rolesOf applicationId))
  subjects : db'.subjects = db.subjects

theorem mem_rolesOf {role : RoleRow} (hrole : role ∈ db.roles.values) :
    role.id ∈ db.rolesOf applicationId ↔ role.application = applicationId := by
  simp only [Database.rolesOf, List.mem_map, List.mem_filter, beq_iff_eq]
  constructor
  · rintro ⟨other, ⟨hother, rfl⟩, hid⟩
    rw [Keyed.eq_of_key_eq hother hrole hid]
  · intro happlication
    exact ⟨role, ⟨hrole, happlication⟩, rfl⟩

theorem mem_permissionsOf {p : PermissionRow} (hp : p ∈ db.permissions.values) :
    p.id ∈ db.permissionsOf applicationId ↔ p.application = applicationId := by
  simp only [Database.permissionsOf, List.mem_map, List.mem_filter, beq_iff_eq]
  constructor
  · rintro ⟨other, ⟨hother, rfl⟩, hid⟩
    rw [Keyed.eq_of_key_eq hother hp hid]
  · intro happlication
    exact ⟨p, ⟨hp, happlication⟩, rfl⟩

theorem nodup_rolesOf : (db.rolesOf applicationId).Nodup :=
  db.roles.nodup.sublist (List.filter_sublist.map RoleRow.id)

/-! ## The loops -/

theorem GroupRow.withoutAll_nil (group : GroupRow) : group.withoutAll [] = group := by
  simp [GroupRow.withoutAll]

theorem GroupRow.withoutAll_without (roles : List Nat) (group : GroupRow) :
    (group.without roleId).withoutAll roles = group.withoutAll (roleId :: roles) := by
  simp only [GroupRow.withoutAll, GroupRow.without, List.filter_filter]
  congr 1
  refine List.filter_congr fun role _ => ?_
  rw [List.contains_cons, Bool.not_or, Bool.and_comm]
  rfl

/-- The loop over the roles. Each of them is there when its turn comes. -/
theorem deleteRoles_ok {ids : List Nat} (hnodup : ids.Nodup) (hhas : ∀ id ∈ ids, db.roles.Has id) :
    ∃ db', ids.foldlM Database.deleteRole db = .ok db' ∧ db'.next = db.next ∧
      db'.applications = db.applications ∧ db'.permissions = db.permissions ∧ db'.subjects = db.subjects ∧
      (∀ r, r ∈ db'.roles.values ↔ r ∈ db.roles.values ∧ r.id ∉ ids) ∧
      db'.groups.values = db.groups.values.map (GroupRow.withoutAll ids) := by
  induction ids generalizing db with
  | nil =>
    refine ⟨db, rfl, rfl, rfl, rfl, rfl, fun r => by simp, ?_⟩
    rw [funext GroupRow.withoutAll_nil]
    exact (List.map_id _).symm
  | cons id ids ih =>
    obtain ⟨hnot, hrest⟩ := List.nodup_cons.mp hnodup
    obtain ⟨role, hrole⟩ := Option.isSome_iff_exists.mp (Keyed.has_iff_isSome.mp (hhas id List.mem_cons_self))
    let next : Database := { db with
      groups := db.groups.mapValues (GroupRow.without id) (GroupRow.id_without id)
      roles := db.roles.erase id }
    have hdelete : db.deleteRole id = .ok next := by
      unfold Database.deleteRole
      rw [hrole]
    have hleft : ∀ other ∈ ids, next.roles.Has other := fun other hother =>
      Keyed.has_erase.mpr ⟨hhas other (List.mem_cons_of_mem id hother), fun heq => hnot (heq ▸ hother)⟩
    obtain ⟨db', hdb', hnext, happlications, hpermissions, hsubjects, hroles, hgroups⟩ := ih hrest hleft
    refine ⟨db', ?_, hnext, happlications, hpermissions, hsubjects, fun r => ?_, ?_⟩
    · rw [List.foldlM_cons, hdelete]
      exact hdb'
    · rw [hroles, Keyed.mem_erase, List.mem_cons, not_or, and_assoc]
    · rw [hgroups]
      show (db.groups.values.map (GroupRow.without id)).map (GroupRow.withoutAll ids) = _
      rw [List.map_map]
      exact List.map_congr_left fun group _ => group.withoutAll_without ids

/-- The loop over the permissions. -/
theorem deletePermissions_iff {ids : List Nat} :
    ids.foldlM Database.deletePermission db = .ok db' ↔
      (∀ role ∈ db.roles.values, ∀ p ∈ ids, p ∉ role.permissions) ∧
        db' = { db with permissions := ids.foldl Keyed.erase db.permissions } := by
  induction ids generalizing db with
  | nil =>
    rw [List.foldlM_nil]
    show Except.ok db = .ok db' ↔ _
    rw [Except.ok.injEq, eq_comm]
    simp
  | cons id ids ih =>
    rw [List.foldlM_cons, bind_eq_ok]
    simp only [Database.deletePermission]
    split
    · rename_i hused
      obtain ⟨role, hrole, hp⟩ := List.any_eq_true.mp hused
      refine iff_of_false (by simp) fun h => ?_
      exact h.1 role hrole id List.mem_cons_self (by simpa using hp)
    · rename_i hunused
      have hfree : ∀ role ∈ db.roles.values, id ∉ role.permissions := by
        intro role hrole hp
        exact hunused (List.any_eq_true.mpr ⟨role, hrole, by simpa using hp⟩)
      simp only [Except.ok.injEq, exists_eq_left', ih, List.foldl_cons, List.forall_mem_cons]
      refine and_congr_left fun _ => ?_
      exact forall₂_congr fun role hrole => (and_iff_right (hfree role hrole)).symm

theorem mem_foldl_erase {ids : List Nat} {m : Keyed PermissionRow.id} {p : PermissionRow} :
    p ∈ (ids.foldl Keyed.erase m).values ↔ p ∈ m.values ∧ p.id ∉ ids := by
  induction ids generalizing m with
  | nil => simp
  | cons id ids ih => rw [List.foldl_cons, ih, Keyed.mem_erase, List.mem_cons, not_or, and_assoc]

/-! ## The application -/

/-- The roles of the other applications are those that are there when it is the turn of the permissions. -/
theorem deletable_iff (hhas : db.applications.Has applicationId) {mid : Database}
    (hroles : ∀ r, r ∈ mid.roles.values ↔ r ∈ db.roles.values ∧ r.id ∉ db.rolesOf applicationId) :
    Deletable db applicationId false ↔
      ∀ role ∈ mid.roles.values, ∀ p ∈ db.permissionsOf applicationId, p ∉ role.permissions := by
  constructor
  · rintro ⟨-, -, hfree⟩ role hrole id hid
    obtain ⟨hrole, hnot⟩ := (hroles role).mp hrole
    rw [mem_rolesOf hrole] at hnot
    obtain ⟨p, hp, rfl⟩ := List.mem_map.mp hid
    obtain ⟨hp, happlication⟩ := List.mem_filter.mp hp
    exact hfree role hrole hnot p hp (by simpa using happlication)
  · intro hfree
    refine ⟨rfl, hhas, fun role hrole happlication p hp hpApplication => ?_⟩
    refine hfree role ((hroles role).mpr ⟨hrole, ?_⟩) p.id ((mem_permissionsOf hp).mpr hpApplication)
    rw [mem_rolesOf hrole]
    exact happlication

/-- What the two loops do where there is such an application. -/
theorem deleteApplication_eq (hhas : db.applications.Has applicationId) : ∃ left, Removed applicationId db left ∧
    ∀ db', db.deleteApplication applicationId false = .ok db' ↔
      Deletable db applicationId false ∧ db' = left := by
  have hroleIds : ∀ id ∈ db.rolesOf applicationId, db.roles.Has id := by
    intro id hid
    obtain ⟨role, hrole, rfl⟩ := List.mem_map.mp hid
    exact Keyed.has_of_mem (List.mem_of_mem_filter hrole)
  obtain ⟨mid, hmid, hnext, happlications, hpermissions, hsubjects, hroles, hgroups⟩ :=
    deleteRoles_ok nodup_rolesOf hroleIds
  obtain ⟨row, hrow⟩ := Option.isSome_iff_exists.mp (Keyed.has_iff_isSome.mp hhas)
  refine ⟨{ mid with
    permissions := (db.permissionsOf applicationId).foldl Keyed.erase mid.permissions
    applications := mid.applications.erase applicationId }, ?_, fun db' => ?_⟩
  · refine ⟨hnext, by rw [happlications], fun p => ?_, fun r => ?_, hgroups, hsubjects⟩
    · rw [mem_foldl_erase, hpermissions]
      exact and_congr_right fun hp => not_congr (mem_permissionsOf hp)
    · rw [hroles]
      exact and_congr_right fun hr => not_congr (mem_rolesOf hr)
  · rw [deletable_iff hhas hroles]
    have hcode : db.deleteApplication applicationId false = .ok db' ↔
        ∃ last, (db.permissionsOf applicationId).foldlM Database.deletePermission mid = .ok last ∧
          db' = { last with applications := last.applications.erase applicationId } := by
      unfold Database.deleteApplication
      rw [hrow]
      simp only [Bool.false_eq_true, if_false]
      rw [show ((db.roles.values.filter fun role => role.application == applicationId).map RoleRow.id).foldlM
        Database.deleteRole db = .ok mid from hmid]
      show (do
        let last ← (db.permissionsOf applicationId).foldlM Database.deletePermission mid
        Except.ok { last with applications := last.applications.erase applicationId }) = .ok db' ↔ _
      rw [bind_eq_ok]
      simp only [Except.ok.injEq, eq_comm]
    simp only [hcode, deletePermissions_iff]
    constructor
    · rintro ⟨last, ⟨hfree, rfl⟩, rfl⟩
      exact ⟨hfree, rfl⟩
    · rintro ⟨hfree, rfl⟩
      exact ⟨_, ⟨hfree, rfl⟩, rfl⟩

theorem deleteApplication_ok (h : db.deleteApplication applicationId linked = .ok db') :
    Deletable db applicationId linked ∧ Removed applicationId db db' := by
  have hexists : linked = false ∧ db.applications.Has applicationId := by
    unfold Database.deleteApplication at h
    split at h
    · cases h
    · rename_i row hrow
      split at h
      · cases h
      · exact ⟨by simpa using ‹¬linked = true›, Keyed.has_of_get hrow⟩
  obtain ⟨rfl, hhas⟩ := hexists
  obtain ⟨left, hleft, hiff⟩ := deleteApplication_eq hhas
  obtain ⟨hdeletable, rfl⟩ := (hiff db').mp h
  exact ⟨hdeletable, hleft⟩

theorem deleteApplication_succeeds (h : Deletable db applicationId linked) :
    ∃ db', db.deleteApplication applicationId linked = .ok db' := by
  obtain ⟨rfl, hhas, -⟩ := id h
  obtain ⟨left, -, hiff⟩ := deleteApplication_eq hhas
  exact ⟨left, (hiff left).mpr ⟨h, rfl⟩⟩

/-! ## What the subjects may still do -/

theorem Removed.path_iff (hdb : Consistent db) (hdeletable : Deletable db applicationId linked)
    (h : Removed applicationId db db') {row : ApplicationRow} (hrow : row ∈ db.applications.values)
    (hid : row.id = applicationId) {subject : SubjectRow} {application ref : String} :
    (∃ group role permission, Path db' subject application ref group role permission) ↔
      application ≠ row.name ∧ ∃ group role permission, Path db subject application ref group role permission := by
  constructor
  · rintro ⟨group, role, permission, ⟨hgroup, hgroupId⟩, ⟨hrole, hroleId⟩, ⟨hpermission, hrest⟩, other, hother, hown,
      rfl⟩
    rw [h.groups] at hgroup
    obtain ⟨old, hold, rfl⟩ := List.mem_map.mp hgroup
    rw [h.applications] at hother
    obtain ⟨hother, hne⟩ := Keyed.mem_erase.mp hother
    refine ⟨fun hname => hne (hdb.names other hother row hrow hname ▸ hid), old, role, permission, ⟨hold, hgroupId⟩,
      ⟨((h.roles role).mp hrole).1, List.mem_of_mem_filter hroleId⟩,
      ⟨((h.permissions permission).mp hpermission).1, hrest⟩, other, hother, hown, rfl⟩
  · rintro ⟨hname, group, role, permission, ⟨hgroup, hgroupId⟩, ⟨hrole, hroleId⟩, ⟨hpermission, hused, href⟩, other,
      hother, hown, rfl⟩
    have hne : other.id ≠ applicationId := fun heq =>
      hname (Keyed.eq_of_key_eq hother hrow (heq.trans hid.symm) ▸ rfl)
    have hkept : role.application ≠ applicationId := hown ▸ hne
    refine ⟨group.withoutAll (db.rolesOf applicationId), role, permission, ⟨?_, hgroupId⟩,
      ⟨(h.roles role).mpr ⟨hrole, hkept⟩, ?_⟩, ⟨(h.permissions permission).mpr ⟨hpermission, fun heq => ?_⟩, hused, href⟩,
      other, ?_, hown, rfl⟩
    · rw [h.groups]
      exact List.mem_map_of_mem hgroup
    · refine List.mem_filter.mpr ⟨hroleId, ?_⟩
      have hnot : role.id ∉ db.rolesOf applicationId := by
        rw [mem_rolesOf hrole]
        exact hkept
      simpa using hnot
    · exact hdeletable.2.2 role hrole hkept permission hpermission heq hused
    · rw [h.applications]
      exact Keyed.mem_erase.mpr ⟨hother, hne⟩

theorem applicationDeleted_exact {es : List Event} (h : Run Step .empty es db) (applicationId : Nat) (linked : Bool) :
    ((∃ db', db.deleteApplication applicationId linked = .ok db') ↔ Deletable db applicationId linked) ∧
      ∀ db', db.deleteApplication applicationId linked = .ok db' →
        Removed applicationId db db' ∧ Consistent db' ∧
        ∀ row ∈ db.applications.values, row.id = applicationId → ∀ subject application ref,
          (db'.processor subject application).hasPermission ref = some true ↔
            application ≠ row.name ∧ (db.processor subject application).hasPermission ref = some true := by
  have hdb : Consistent db := consistent_of_run h
  refine ⟨⟨fun ⟨db', hok⟩ => (deleteApplication_ok hok).1, deleteApplication_succeeds⟩, fun db' hok => ?_⟩
  obtain ⟨hdeletable, hremoved⟩ := deleteApplication_ok hok
  refine ⟨hremoved, hdb.deleteApplication hok, fun row hrow hid subject application ref => ?_⟩
  rw [hasPermission_iff, hasPermission_iff]
  exact hremoved.path_iff hdb hdeletable hrow hid

/-- Who administered the shop does so no more. -/
theorem shop_deleted : ∃ db', opened.deleteApplication 1 false = .ok db' ∧ Consistent db' ∧
    (db'.processor ⟨4, "anna", [0]⟩ "shop").hasPermission "orders.edit" ≠ some true := by
  have hexact := applicationDeleted_exact run_opening 1 false
  have hdeletable : Deletable opened 1 false := by
    refine ⟨rfl, Keyed.has_put.mpr (.inl rfl), fun role hrole happlication => ?_⟩
    obtain rfl := List.mem_singleton.mp hrole
    exact absurd rfl happlication
  obtain ⟨db', hok⟩ := hexact.1.mpr hdeletable
  obtain ⟨-, hconsistent, hsubjects⟩ := hexact.2 db' hok
  refine ⟨db', hok, hconsistent, fun hp => ?_⟩
  have hnot := (hsubjects ⟨1, "shop"⟩ (Keyed.mem_put.mpr (.inl rfl)) rfl _ _ _).mp hp
  exact hnot.1 rfl

end Authorization
end Groups
end AppNG
