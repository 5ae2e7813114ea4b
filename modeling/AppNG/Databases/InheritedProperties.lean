import AppNG.Databases.Assignments
import AppNG.Properties.Values

/-!
# Databases.InheritedProperties

The properties that an application has on a site when it is assigned there with `createProperties`:
copies of its own ones.

Only the default of a copy is kept from the two single-line values, and its type is determined from the
text when it is created, whatever type it was given before.

* `same_inherit_iff`: when a copy is like the original.
* `assigned_same_iff`: the copies of an application are, if and only if each of its properties has no
  value but the default, and a type that the text says anyway.
-/

namespace AppNG
namespace Databases

open Properties

/-- What a property of an application becomes on a site. -/
def inherit (original : SimpleProperty) : SimpleProperty :=
  let value := original.getString
  let property : SimpleProperty :=
    { actualString := none
      defaultString := value
      clob := none
      description := original.description
      type := original.type }
  if Java.isEmpty original.clob then
    { property with defaultString := original.defaultString }.determineType
  else { property with clob := original.clob }.determineType

/-! ## One property -/

/-- The type and the description are the same, and so is what is read. -/
structure Same (a b : SimpleProperty) : Prop where
  type : b.type = a.type
  description : b.description = a.description
  read : b.read = a.read

/-- No value is set but the default, and the type is the one that is determined. -/
def Determined (original : SimpleProperty) : Prop :=
  if Java.isEmpty original.clob then
    original.type = .forString original.defaultString ∧
      if original.type = .multiline then original.clob = none
      else Java.isEmpty original.actualString = true ∨
        original.actualString = original.defaultString
  else original.type =
    if Java.isBlank original.clob then .forString original.getString else .multiline

instance (original : SimpleProperty) : Decidable (Determined original) := by
  unfold Determined; infer_instance

section Property

variable {original : SimpleProperty}

theorem description_inherit : (inherit original).description = original.description := by
  unfold inherit
  split <;> rfl

theorem getString_eq_default_iff : original.getString = original.defaultString ↔
    Java.isEmpty original.actualString = true ∨ original.actualString = original.defaultString := by
  unfold SimpleProperty.getString
  split
  · simp [*]
  · simp [*]

/-- A copy with a text of several lines. -/
theorem same_of_clob (hclob : ¬ Java.isEmpty original.clob = true) :
    Same original (inherit original) ↔ original.type =
      if Java.isBlank original.clob then .forString original.getString else .multiline := by
  have htype : (inherit original).type =
      if Java.isBlank original.clob then .forString original.getString else .multiline := by
    rw [inherit, if_neg hclob]
    rfl
  constructor
  · intro h
    rw [← h.type, htype]
  · intro h
    have hsame : (inherit original).type = original.type := htype.trans h.symm
    refine ⟨hsame, description_inherit, ?_⟩
    by_cases hmultiline : original.type = .multiline
    · rw [SimpleProperty.read_multiline hmultiline,
        SimpleProperty.read_multiline (hsame.trans hmultiline), inherit, if_neg hclob]
      rfl
    · rw [SimpleProperty.read_single hmultiline,
        SimpleProperty.read_single (hsame.trans_ne hmultiline), inherit, if_neg hclob]
      rfl

/-- A copy with a default only. -/
theorem same_of_no_clob (hclob : Java.isEmpty original.clob = true) :
    Same original (inherit original) ↔ original.type = .forString original.defaultString ∧
      if original.type = .multiline then original.clob = none
      else Java.isEmpty original.actualString = true ∨
        original.actualString = original.defaultString := by
  have hcopy : inherit original = ⟨none, original.defaultString, none, original.description,
      .forString original.defaultString⟩ := by
    rw [inherit, if_pos hclob]
    rfl
  have hread : original.type = .forString original.defaultString →
      ((inherit original).read = original.read ↔
        if original.type = .multiline then original.clob = none
        else Java.isEmpty original.actualString = true ∨
          original.actualString = original.defaultString) := by
    intro htype
    have hsame : (inherit original).type = original.type := by rw [hcopy, htype]
    split
    · rename_i hmultiline
      rw [SimpleProperty.read_multiline hmultiline,
        SimpleProperty.read_multiline (hsame.trans hmultiline), hcopy]
      exact eq_comm
    · rename_i hsingle
      rw [SimpleProperty.read_single hsingle,
        SimpleProperty.read_single (hsame.trans_ne hsingle), ← getString_eq_default_iff, hcopy]
      exact eq_comm
  constructor
  · intro h
    have htype : original.type = .forString original.defaultString := by
      rw [← h.type, hcopy]
    exact ⟨htype, (hread htype).mp h.read⟩
  · rintro ⟨htype, h⟩
    exact ⟨by rw [hcopy, htype], description_inherit, (hread htype).mpr h⟩

theorem same_inherit_iff : Same original (inherit original) ↔ Determined original := by
  unfold Determined
  split
  · exact same_of_no_clob ‹_›
  · exact same_of_clob ‹_›

/-- A password never is. -/
theorem not_determined_password (h : original.type = .password) : ¬ Determined original := by
  unfold Determined
  rw [h]
  intro hdetermined
  split at hdetermined
  · exact PropertyType.forString_ne_password _ hdetermined.1.symm
  · split at hdetermined
    · exact PropertyType.forString_ne_password _ hdetermined.symm
    · cases hdetermined

end Property

/-! ## All properties -/

section Assigned

variable {created after : CreatedProperties SimpleProperty} {pair : Pair}
  {original : Created SimpleProperty}

/-- The properties of the application itself. -/
def applicationProperties (created : CreatedProperties SimpleProperty) (pair : Pair) :
    List (Created SimpleProperty) :=
  created.values.filter fun c => selected (getPropertyPrefix none (some pair.application)) c.row

/-- What is promised: the site has one property for every one of the application, and it is the same. -/
structure Inherited (pair : Pair) (originals : List (Created SimpleProperty))
    (properties : List (PropertyImpl SimpleProperty)) : Prop where
  one : ((getPropertiesList pair.propertyPrefix properties).map PropertyImpl.name).Perm
    (originals.map fun original => pair.propertyPrefix ++ original.id.value)
  same : ∀ original ∈ originals, ∃ copy,
    (getProperties pair.scope properties).getProperty original.id.value = some copy ∧
      Same original.value copy.value

theorem mem_applicationProperties : original ∈ applicationProperties created pair ↔
    original ∈ created.values ∧ original.scope = .properties none (some pair.application) :=
  List.mem_filter.trans (and_congr_right fun _ => selected_properties)

/-- After the copies are made, they are what the site has. -/
theorem getPropertiesList_copies
    (hafter : after.values = ((applicationProperties created pair).map (copyOf inherit pair)).reverse ++
      created.values.filter fun c => !selected pair.propertyPrefix c.row) :
    getPropertiesList pair.propertyPrefix after.rows =
      ((applicationProperties created pair).map fun original =>
        (copyOf inherit pair original).row).reverse := by
  have hcopies : (((applicationProperties created pair).map (copyOf inherit pair)).reverse.filter
      fun c => selected pair.propertyPrefix c.row) =
        ((applicationProperties created pair).map (copyOf inherit pair)).reverse := by
    rw [List.filter_eq_self]
    intro copy hcopy
    obtain ⟨original, -, rfl⟩ := List.mem_map.mp (List.mem_reverse.mp hcopy)
    exact selected_properties.mpr rfl
  have hothers : ((created.values.filter fun c => !selected pair.propertyPrefix c.row).filter
      fun c => selected pair.propertyPrefix c.row) = [] := by
    rw [List.filter_filter, List.filter_eq_nil_iff]
    simp
  have hrows : getPropertiesList pair.propertyPrefix after.rows =
      (after.values.filter fun c => selected pair.propertyPrefix c.row).map Created.row :=
    List.filter_map ..
  rw [hrows, hafter, List.filter_append, hcopies, hothers, List.append_nil, List.map_reverse,
    List.map_map]
  rfl

theorem inherited_iff
    (hafter : after.values = ((applicationProperties created pair).map (copyOf inherit pair)).reverse ++
      created.values.filter fun c => !selected pair.propertyPrefix c.row) :
    Inherited pair (applicationProperties created pair) after.rows ↔
      ∀ original ∈ applicationProperties created pair, Determined original.value := by
  have hfound : ∀ original ∈ applicationProperties created pair,
      (getProperties pair.scope after.rows).getProperty original.id.value =
        some (copyOf inherit pair original).row := by
    intro original horiginal
    have hmem : copyOf inherit pair original ∈ after.values := by
      rw [hafter]
      exact List.mem_append_left _ (List.mem_reverse.mpr (List.mem_map_of_mem horiginal))
    exact getProperty_own hmem rfl
  constructor
  · intro h original horiginal
    obtain ⟨copy, hcopy, hsame⟩ := h.same original horiginal
    rw [hfound original horiginal, Option.some.injEq] at hcopy
    rw [← hcopy] at hsame
    exact same_inherit_iff.mp hsame
  · intro h
    constructor
    · rw [getPropertiesList_copies hafter, List.map_reverse, List.map_map]
      exact List.reverse_perm _
    · intro original horiginal
      exact ⟨_, hfound original horiginal, same_inherit_iff.mpr (h original horiginal)⟩

/-- What is stored with an assignment. -/
theorem assign_properties {s : State SimpleProperty} {setUp : SetUp}
    (hcreated : created.rows = s.properties) (hhas : s.has pair = true)
    (hok : (createDatabaseConnection setUp).1.isErroneous = false) :
    ∃ after : CreatedProperties SimpleProperty,
      (assignApplicationToSite inherit pair true setUp s).properties = after.rows ∧
      after.values = ((applicationProperties created pair).map (copyOf inherit pair)).reverse ++
        created.values.filter fun c => !selected pair.propertyPrefix c.row := by
  obtain ⟨after, hcopy, hafter⟩ := copyProperties_eq inherit pair created
  refine ⟨after, ?_, hafter⟩
  rw [hcreated] at hcopy
  simp only [assignApplicationToSite, hhas, hok, hcopy, if_true, Bool.false_eq_true, if_false]

/-- Where an assignment is stored, the site has the properties of the application with their types and
values if and only if each of them has a type that is determined by what it says, and no value but its
default. -/
theorem assigned_same_iff (s : State SimpleProperty) (pair : Pair) (setUp : SetUp)
    (created : CreatedProperties SimpleProperty) (hcreated : created.rows = s.properties)
    (hhas : s.has pair = true) (hok : (createDatabaseConnection setUp).1.isErroneous = false) :
    Inherited pair (applicationProperties created pair)
        (assignApplicationToSite inherit pair true setUp s).properties ↔
      ∀ original ∈ applicationProperties created pair, Determined original.value := by
  obtain ⟨after, hproperties, hafter⟩ := assign_properties hcreated hhas hok
  rw [hproperties]
  exact inherited_iff hafter

section Example

def pageSize : PropertyId := ⟨"pageSize", List.all_eq_true.mp (by decide +kernel), by decide +kernel⟩

/-- The application `blog` has one property. -/
def blogProperties (value : SimpleProperty) : CreatedProperties SimpleProperty :=
  ⟨[⟨.properties none (some blog), pageSize, value⟩], List.nodup_singleton _⟩

def blogState (value : SimpleProperty) : State SimpleProperty :=
  ⟨[(shop, true)], [blog], .empty, .empty, (blogProperties value).rows, 0⟩

theorem blogState_has (value : SimpleProperty) : (blogState value).has ⟨shop, blog⟩ = true := by
  simp [State.has, blogState]

/-- A number with its default. -/
def tenPerPage : SimpleProperty := ⟨none, some "10", none, some "entries on a page", .int⟩

theorem assigned_same_iff_tenPerPage :
    Inherited ⟨shop, blog⟩ (applicationProperties (blogProperties tenPerPage) ⟨shop, blog⟩)
        (assignApplicationToSite inherit ⟨shop, blog⟩ true (setUp true)
          (blogState tenPerPage)).properties ↔
      ∀ original ∈ applicationProperties (blogProperties tenPerPage) ⟨shop, blog⟩,
        Determined original.value :=
  assigned_same_iff (blogState tenPerPage) ⟨shop, blog⟩ (setUp true) (blogProperties tenPerPage) rfl
    (blogState_has tenPerPage) rfl

theorem not_inherited_of_not_determined {value : SimpleProperty} (h : ¬ Determined value) :
    ¬ Inherited ⟨shop, blog⟩ (applicationProperties (blogProperties value) ⟨shop, blog⟩)
      (assignApplicationToSite inherit ⟨shop, blog⟩ true (setUp true)
        (blogState value)).properties := by
  have hcreated : (blogProperties value).rows = (blogState value).properties := rfl
  have hok : (createDatabaseConnection (setUp true)).1.isErroneous = false := rfl
  obtain ⟨after, hproperties, hafter⟩ := assign_properties hcreated (blogState_has value) hok
  rw [hproperties, inherited_iff hafter]
  intro hall
  exact h (hall ⟨.properties none (some blog), pageSize, value⟩
    (mem_applicationProperties.mpr ⟨.head _, rfl⟩))

def secret : SimpleProperty := { tenPerPage with type := .password }

def twentyPerPage : SimpleProperty := { tenPerPage with actualString := some "20" }

/-- A password becomes a text, and a number that was changed has its default again. -/
theorem password_not_inherited :
    ¬ Inherited ⟨shop, blog⟩ (applicationProperties (blogProperties secret) ⟨shop, blog⟩)
        (assignApplicationToSite inherit ⟨shop, blog⟩ true (setUp true)
          (blogState secret)).properties ∧
      ¬ Inherited ⟨shop, blog⟩ (applicationProperties (blogProperties twentyPerPage) ⟨shop, blog⟩)
        (assignApplicationToSite inherit ⟨shop, blog⟩ true (setUp true)
          (blogState twentyPerPage)).properties := by
  constructor
  · exact not_inherited_of_not_determined (not_determined_password rfl)
  · exact not_inherited_of_not_determined (by decide +kernel)

end Example

end Assigned

end Databases
end AppNG
