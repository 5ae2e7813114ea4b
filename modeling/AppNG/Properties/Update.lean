import AppNG.Properties.Scopes
import AppNG.Properties.Values

/-!
# Properties.Update

What the update of an application does to the properties it declares: those of the application, and
those of the sites it is assigned to.

A value that was set on a site is kept. A text of several lines is kept as well, set or not: one that
was copied from an earlier declaration is not told apart from one that was set.

* `foldl_updateProperty`: what becomes of a row of a site, whatever the list of declarations.
* `updateProperties_reads`: what is read afterwards.
-/

namespace AppNG
namespace Properties

/-- A property that an application declares. -/
structure DeclaredProperty where
  id : String
  value : String
  description : Option String
  clob : Option Bool
  type : Option PropertyType
  deriving DecidableEq, Repr

/-- The rows by their names. -/
abbrev Table := String → Option SimpleProperty

/-! ## The code -/

def DeclaredProperty.newType (prop : DeclaredProperty) : PropertyType :=
  prop.type.getD (.forString (some prop.value))

def DeclaredProperty.isMultiline (prop : DeclaredProperty) : Bool :=
  prop.clob == some true || prop.newType == .multiline

def setPropertyValue (prop : DeclaredProperty) (property : SimpleProperty) (forceMultiline : Bool) :
    SimpleProperty :=
  let property := { property with description := prop.description, type := prop.newType }
  if prop.isMultiline then
    let property :=
      if forceMultiline || property.clob.isNone then { property with clob := some prop.value }
      else property
    { property with defaultString := none, actualString := none, type := .multiline }
  else if Java.isBlank property.clob then
    { property with defaultString := some prop.value, clob := none }
  else property

/-- A property that is created without a value. -/
def newProperty : SimpleProperty := SimpleProperty.determineType ⟨none, none, none, none, .text⟩

def getPropertyName (site : Option StrictName) (application : StrictName) (id : String) : String :=
  getPropertyPrefix site (some application) ++ id

/-- One round of the loop over the sites: a row that is missing is created. -/
def updateSite (application : StrictName) (prop : DeclaredProperty) (table : Table)
    (site : StrictName) : Table :=
  let name := getPropertyName (some site) application prop.id
  Function.update table name
    (some (setPropertyValue prop ((table name).getD newProperty) (table name).isNone))

def updateProperty (application : StrictName) (sites : List StrictName) (table : Table)
    (prop : DeclaredProperty) : Table :=
  let name := getPropertyName none application prop.id
  let table := Function.update table name
    (some (setPropertyValue prop ((table name).getD newProperty) true))
  sites.foldl (updateSite application prop) table

def updateProperties (application : StrictName) (sites : List StrictName)
    (declared : List DeclaredProperty) (table : Table) : Table :=
  declared.foldl (updateProperty application sites) table

/-! ## What is promised -/

/-- What is read of the row of a site after one declaration. -/
inductive Reads (prop : DeclaredProperty) : Option SimpleProperty → Option String → Prop where
  /-- a row that was missing -/
  | created : Reads prop none (some prop.value)
  /-- a single line, where there is no text of several, and it has not been set -/
  | default {old : SimpleProperty} (clob : Java.isBlank old.clob = true) (declared : prop.isMultiline = false)
      (unset : Java.isEmpty old.actualString = true) : Reads prop (some old) (some prop.value)
  /-- it has been set -/
  | actual {old : SimpleProperty} (clob : Java.isBlank old.clob = true) (declared : prop.isMultiline = false)
      (set : Java.isEmpty old.actualString = false) : Reads prop (some old) old.actualString
  /-- a text of several lines stays one, whoever it is from -/
  | clob {old : SimpleProperty} (multiline : old.type = .multiline)
      (declared : prop.isMultiline = true) : Reads prop (some old) (old.clob.or (some prop.value))
  /-- a single line that was not set becomes a text of several -/
  | lines {old : SimpleProperty} (single : old.type ≠ .multiline)
      (clob : old.clob = none) (declared : prop.isMultiline = true)
      (unset : Java.isEmpty old.actualString = true) : Reads prop (some old) (some prop.value)

/-- What one declaration makes of the row of a site. -/
def updated (stored : Option SimpleProperty) (prop : DeclaredProperty) : Option SimpleProperty :=
  some (setPropertyValue prop (stored.getD newProperty) stored.isNone)

/-- What an update does on the sites. -/
structure Updated (application : StrictName) (sites : List StrictName)
    (declared : List DeclaredProperty) (before after : Table) : Prop where
  /-- a property that is declared once -/
  reads : ∀ site ∈ sites, ∀ prop, declared.filter (fun other => other.id = prop.id) = [prop] →
    ∃ property, after (getPropertyName (some site) application prop.id) = some property ∧
      ∀ value, Reads prop (before (getPropertyName (some site) application prop.id)) value →
        property.read = value
  /-- any other row -/
  frame : ∀ name, (∀ prop ∈ declared, name ≠ getPropertyName none application prop.id ∧
    ∀ site ∈ sites, name ≠ getPropertyName (some site) application prop.id) →
      after name = before name

/-! ## One property -/

section Property

variable {prop : DeclaredProperty} {property : SimpleProperty} {stored : Option SimpleProperty}
  {forceMultiline : Bool} {value : Option String}

theorem setPropertyValue_multiline (h : prop.isMultiline = true) :
    setPropertyValue prop property forceMultiline =
      ⟨none, none, if forceMultiline || property.clob.isNone then some prop.value else property.clob,
        prop.description, .multiline⟩ := by
  simp only [setPropertyValue, h, if_true]
  split <;> rfl

theorem setPropertyValue_single (h : prop.isMultiline = false)
    (hclob : Java.isBlank property.clob = true) :
    setPropertyValue prop property forceMultiline =
      ⟨property.actualString, some prop.value, none, prop.description, prop.newType⟩ := by
  simp [setPropertyValue, h, hclob]

theorem newType_single (h : prop.isMultiline = false) : prop.newType ≠ .multiline := by
  intro heq
  simp [DeclaredProperty.isMultiline, heq] at h

theorem read_single (h : prop.isMultiline = false) (hclob : Java.isBlank property.clob = true) :
    (setPropertyValue prop property forceMultiline).read =
      if Java.isEmpty property.actualString then some prop.value else property.actualString := by
  rw [setPropertyValue_single h hclob, SimpleProperty.read_single (newType_single h)]
  rfl

theorem read_multiline (h : prop.isMultiline = true) :
    (setPropertyValue prop property forceMultiline).read =
      if forceMultiline || property.clob.isNone then some prop.value else property.clob := by
  rw [setPropertyValue_multiline h]
  rfl

theorem read_updated (h : Reads prop stored value) :
    (setPropertyValue prop (stored.getD newProperty) stored.isNone).read = value := by
  cases h with
  | created =>
    cases hdeclared : prop.isMultiline with
    | true => exact read_multiline hdeclared
    | false =>
      have hclob : Java.isBlank newProperty.clob = true := rfl
      exact read_single hdeclared hclob
  | default clob declared unset =>
    exact (read_single declared clob).trans (if_pos unset)
  | actual clob declared set =>
    exact (read_single declared clob).trans (if_neg (by simp [set]))
  | clob multiline declared =>
    rename_i old
    rw [read_multiline declared]
    show (if false || old.clob.isNone then _ else old.clob) = _
    cases old.clob <;> rfl
  | lines single clob declared unset =>
    rename_i old
    rw [read_multiline declared]
    show (if false || old.clob.isNone then _ else old.clob) = _
    rw [clob]
    rfl

/-- A declaration that is applied once more changes nothing. -/
theorem updated_updated (stored : Option SimpleProperty) (prop : DeclaredProperty) :
    updated (updated stored prop) prop = updated stored prop := by
  unfold updated
  generalize stored.getD newProperty = property
  simp only [Option.getD_some, Option.isNone_some]
  congr 1
  cases hdeclared : prop.isMultiline with
  | true =>
    rw [setPropertyValue_multiline hdeclared, setPropertyValue_multiline hdeclared]
    cases property.clob <;> cases stored.isNone <;> rfl
  | false =>
    cases hclob : Java.isBlank property.clob with
    | true => rw [setPropertyValue_single hdeclared hclob, setPropertyValue_single hdeclared rfl]
    | false => simp [setPropertyValue, hdeclared, hclob]

end Property

/-! ## Names -/

section Names

variable {site site' application : StrictName} {id id' : String}

theorem getPropertyName_site : (getPropertyName (some site) application id).toList =
    prefixPlatform.toList ++ (prefixSite.toList ++ (site.value.toList ++
      '.' :: (prefixApplication.toList ++ (application.value.toList ++ '.' :: id.toList)))) := by
  simp [getPropertyName, getPropertyPrefix]

theorem getPropertyName_injective
    (h : getPropertyName (some site) application id = getPropertyName (some site') application id') :
    site = site' ∧ id = id' := by
  have hlist := congrArg String.toList h
  rw [getPropertyName_site, getPropertyName_site, List.append_cancel_left_eq,
    List.append_cancel_left_eq] at hlist
  obtain ⟨hsite, hrest⟩ := Java.append_sep_inj site.no_dot site'.no_dot hlist
  rw [List.append_cancel_left_eq, List.append_cancel_left_eq, List.cons.injEq] at hrest
  exact ⟨StrictName.ext (String.toList_inj.mp hsite), String.toList_inj.mp hrest.2⟩

/-- The row of a site is not that of the application. -/
theorem getPropertyName_site_ne :
    getPropertyName (some site) application id ≠ getPropertyName none application id' := by
  intro h
  have hlist := congrArg String.toList h
  have hnone : (getPropertyName none application id').toList = prefixPlatform.toList ++
      (prefixApplication.toList ++ (application.value.toList ++ '.' :: id'.toList)) := by
    simp [getPropertyName, getPropertyPrefix]
  rw [getPropertyName_site, hnone, List.append_cancel_left_eq] at hlist
  have hheads := congrArg List.head? hlist
  rw [List.head?_append_of_ne_nil _ (by decide +kernel),
    List.head?_append_of_ne_nil _ (by decide +kernel)] at hheads
  exact absurd hheads (by decide +kernel)

end Names

/-! ## The loops -/

section Loops

variable {application site : StrictName} {sites : List StrictName} {prop : DeclaredProperty}
  {table : Table} {name id : String} {declared : List DeclaredProperty}

theorem foldl_updateSite_of_ne
    (h : ∀ site ∈ sites, name ≠ getPropertyName (some site) application prop.id) :
    sites.foldl (updateSite application prop) table name = table name := by
  induction sites generalizing table with
  | nil => rfl
  | cons site sites ih =>
    obtain ⟨hsite, hsites⟩ := List.forall_mem_cons.mp h
    rw [List.foldl_cons, ih hsites, updateSite, Function.update_of_ne hsite]

/-- A site that comes twice is no different. -/
theorem foldl_updateSite (h : site ∈ sites) :
    sites.foldl (updateSite application prop) table
        (getPropertyName (some site) application prop.id) =
      updated (table (getPropertyName (some site) application prop.id)) prop := by
  induction sites generalizing table with
  | nil => cases h
  | cons first sites ih =>
    rw [List.foldl_cons]
    have hstep : updateSite application prop table first
        (getPropertyName (some site) application prop.id) =
          if first = site then updated (table (getPropertyName (some site) application prop.id)) prop
          else table (getPropertyName (some site) application prop.id) := by
      split
      · rename_i heq
        rw [heq]
        exact Function.update_self ..
      · rename_i hne
        exact Function.update_of_ne (fun heq => hne (getPropertyName_injective heq).1.symm) ..
    by_cases hlater : site ∈ sites
    · rw [ih hlater, hstep]
      split
      · exact updated_updated _ prop
      · rfl
    · have hfirst : first = site := ((List.mem_cons.mp h).resolve_right hlater).symm
      rw [foldl_updateSite_of_ne, hstep, if_pos hfirst]
      intro other hother heq
      exact hlater ((getPropertyName_injective heq).1 ▸ hother)

theorem updateProperty_of_ne (h : name ≠ getPropertyName none application prop.id)
    (hsites : ∀ site ∈ sites, name ≠ getPropertyName (some site) application prop.id) :
    updateProperty application sites table prop name = table name := by
  rw [updateProperty, foldl_updateSite_of_ne hsites, Function.update_of_ne h]

theorem updateProperty_site (h : site ∈ sites) :
    updateProperty application sites table prop (getPropertyName (some site) application id) =
      if prop.id = id then updated (table (getPropertyName (some site) application id)) prop
      else table (getPropertyName (some site) application id) := by
  split
  · rename_i hid
    rw [← hid, updateProperty, foldl_updateSite h, Function.update_of_ne getPropertyName_site_ne]
  · rename_i hid
    refine updateProperty_of_ne getPropertyName_site_ne fun other _ heq => ?_
    exact hid (getPropertyName_injective heq).2.symm

/-- What becomes of the row of a site: the declarations of its id are applied one after another. -/
theorem foldl_updateProperty (h : site ∈ sites) :
    updateProperties application sites declared table
        (getPropertyName (some site) application id) =
      (declared.filter fun prop => prop.id = id).foldl updated
        (table (getPropertyName (some site) application id)) := by
  induction declared generalizing table with
  | nil => rfl
  | cons prop declared ih =>
    have hcons : updateProperties application sites (prop :: declared) table =
        updateProperties application sites declared (updateProperty application sites table prop) :=
      rfl
    rw [hcons, ih, updateProperty_site h]
    by_cases hid : prop.id = id
    · rw [if_pos hid, List.filter_cons_of_pos (by simpa using hid), List.foldl_cons]
    · rw [if_neg hid, List.filter_cons_of_neg (by simpa using hid)]

theorem updateProperties_of_ne (h : ∀ prop ∈ declared,
    name ≠ getPropertyName none application prop.id ∧
      ∀ site ∈ sites, name ≠ getPropertyName (some site) application prop.id) :
    updateProperties application sites declared table name = table name := by
  induction declared generalizing table with
  | nil => rfl
  | cons prop declared ih =>
    obtain ⟨hprop, hdeclared⟩ := List.forall_mem_cons.mp h
    have hcons : updateProperties application sites (prop :: declared) table =
        updateProperties application sites declared (updateProperty application sites table prop) :=
      rfl
    rw [hcons, ih hdeclared, updateProperty_of_ne hprop.1 hprop.2]

/-- On a site a single line that was set is kept and one that was not set is the declared one, a text of
several lines stays as it is, and a row that is missing is created. -/
theorem updateProperties_reads (application : StrictName) (sites : List StrictName)
    (declared : List DeclaredProperty) (table : Table) :
    Updated application sites declared table (updateProperties application sites declared table) := by
  constructor
  · intro site hsite prop honce
    refine ⟨setPropertyValue prop
      ((table (getPropertyName (some site) application prop.id)).getD newProperty)
      (table (getPropertyName (some site) application prop.id)).isNone, ?_, ?_⟩
    · rw [foldl_updateProperty hsite, honce]
      rfl
    · intro value hreads
      exact read_updated hreads
  · intro name hname
    exact updateProperties_of_ne hname

end Loops

section Example

def demoSite : StrictName := ⟨"example", List.all_eq_true.mp (by decide +kernel), by decide +kernel⟩

def demoApplication : StrictName :=
  ⟨"demo-application", List.all_eq_true.mp (by decide +kernel), by decide +kernel⟩

/-- What a site has from an earlier declaration. -/
def declaredBefore : Table := fun _ => some ⟨none, none, some "a\nb\nc", none, .multiline⟩

/-- A text of several lines that no one has set on the site does not become the new one. -/
theorem clob_not_updated :
    (updateProperties demoApplication [demoSite] [⟨"clobValue", "d\ne\nf", none, some true, none⟩]
      declaredBefore (getPropertyName (some demoSite) demoApplication "clobValue")).bind
        SimpleProperty.read ≠ some "d\ne\nf" := by
  decide +kernel

end Example

end Properties
end AppNG
