import AppNG.Lib.JavaString

/-!
# Config.Datasource

Datasource definitions: the bindings of their fields, and what one inherits from another
(`DatasourceInheritanceHelper.inherit`).

`C` is what is copied without being looked at: texts, conditions, attributes.

* `setBindings_idem`: bindings that are set stay.
* `inherit_eq_some`: a definition inherits what it should, unless a part is missing on one side.
-/

namespace AppNG
namespace Config

inductive FieldType where
  | text | longtext | richtext | password | url | int | long | decimal | checkbox | coordinate
  | date | file | fileMultiple | image | linkpanel | listCheckbox | listRadio | listSelect
  | listText | object | listObject
  deriving DecidableEq, Repr

structure Label where
  id : Option String
  value : Option String
  params : Option String
  deriving DecidableEq, Repr

structure Param (C : Type) where
  name : String
  content : C

structure BeanOption (C : Type) where
  name : Option String
  attributes : C

structure Bean (C : Type) where
  id : Option String
  options : List (BeanOption C)

structure Linkpanel (C : Type) where
  id : String
  content : C

inductive FieldDef (C : Type) where
  | mk (name : String) (type : FieldType) (binding : Option String) (fields : List (FieldDef C))
      (content : C)

structure MetaData (C : Type) where
  bindClass : Option String
  binding : Option String
  fields : List (FieldDef C)
  content : C

structure DataConfig (C : Type) where
  title : Option Label
  description : Option Label
  labels : Option (List Label)
  permissions : Option C
  params : Option (List (Param C))
  metaData : Option (MetaData C)
  linkpanel : List (Linkpanel C)
  content : C

/-- A static datasource has data in place of a bean. -/
structure Datasource (C : Type) where
  id : String
  config : DataConfig C
  bean : Option (Bean C)
  content : C

variable {C : Type}

def FieldDef.name : FieldDef C → String
  | mk name _ _ _ _ => name

def FieldDef.type : FieldDef C → FieldType
  | mk _ type _ _ _ => type

/-! ## Bindings -/

/-- The binding of a field that has none of its own. -/
def bindingOf (binding : Option String) (name : String) : String :=
  match binding with
  | some binding => binding ++ "." ++ name
  | none => name

mutual

/-- What `setBindings` does to one field. -/
def setBinding (binding : Option String) : FieldDef C → FieldDef C
  | .mk name type own fields content =>
    let own := own.getD (bindingOf binding name)
    .mk name type (some own) (setBindings (some own) fields) content

def setBindings (binding : Option String) : List (FieldDef C) → List (FieldDef C)
  | [] => []
  | field :: fields => setBinding binding field :: setBindings binding fields

end

def Datasource.withMetaData (datasource : Datasource C) (metaData : MetaData C) : Datasource C :=
  { datasource with config := { datasource.config with metaData := some metaData } }

def MetaData.bound (metaData : MetaData C) : MetaData C :=
  { metaData with fields := setBindings metaData.binding metaData.fields }

/-- None: it throws. -/
def initMetaData (datasource : Datasource C) : Option (Datasource C) :=
  datasource.config.metaData.map fun metaData => datasource.withMetaData metaData.bound

mutual

theorem setBinding_idem (b c : Option String) :
    ∀ field : FieldDef C, setBinding c (setBinding b field) = setBinding b field
  | .mk name type own fields content => by
    simp only [setBinding, Option.getD_some]
    rw [setBindings_idem]

theorem setBindings_idem (b c : Option String) :
    ∀ fields : List (FieldDef C), setBindings c (setBindings b fields) = setBindings b fields
  | [] => rfl
  | field :: fields => by
    simp only [setBindings]
    rw [setBinding_idem b c field, setBindings_idem b c fields]

end

theorem initMetaData_idem {d d' : Datasource C} (h : initMetaData d = some d') :
    initMetaData d' = some d' := by
  obtain ⟨metaData, -, rfl⟩ := Option.map_eq_some_iff.mp h
  simp [initMetaData, Datasource.withMetaData, MetaData.bound, setBindings_idem]

/-! ## Ids -/

/-- What stands before the first `::`, and what stands behind it. -/
def cut : List Char → Option (List Char × List Char)
  | ':' :: ':' :: cs => some ([], cs)
  | c :: cs => (cut cs).map fun (before, behind) => (c :: before, behind)
  | [] => none

/-- `StringUtils.countMatches(id, "::")` -/
def countMatches : List Char → Nat
  | ':' :: ':' :: cs => countMatches cs + 1
  | _ :: cs => countMatches cs
  | [] => 0

/-- One separator, neither at the start nor at the end. -/
def isInheriting (datasourceId : String) : Bool :=
  let id := datasourceId.toList
  countMatches id = 1 && !decide ([':', ':'] <+: id) && !decide ([':', ':'] <:+ id)

/-- Of an id that inherits. -/
def getDescendantId (datasourceId : String) : String :=
  String.ofList (((cut datasourceId.toList).map Prod.fst).getD [])

/-- Of an id that inherits. -/
def getAncestorId (datasourceId : String) : String :=
  String.ofList (((cut datasourceId.toList).map Prod.snd).getD [])

/-! ## The code of `inherit` -/

/-- The first element with a key; the key of every element before it is asked whether it equals
`k`. None: one of them is null. -/
def findBy {α : Type} (key : α → Option String) (k : Option String) : List α → Option (Option α)
  | [] => some none
  | a :: as =>
    match key a with
    | none => none
    | some own => if some own = k then some (some a) else findBy key k as

/-- Elements are added behind the inherited ones, of which the first with the same key goes.
None: it throws. -/
def addAll {α : Type} (key : α → Option String) : List α → List α → Option (List α)
  | inherited, [] => some inherited
  | inherited, a :: as =>
    match findBy key (key a) inherited with
    | none => none
    | some none => addAll key (inherited ++ [a]) as
    | some (some _) => addAll key (inherited.eraseP (fun b => key b = key a) ++ [a]) as

/-- The first element with the key of `a` is replaced. None: there is no such element. -/
def replaceBy {α : Type} (key : α → String) (a : α) : List α → Option (List α)
  | [] => none
  | b :: bs => if key b = key a then some (a :: bs) else (replaceBy key a bs).map (b :: ·)

/-- A new field is placed before the first panel of links, or in front of all fields. -/
def placeField (field : FieldDef C) (fields : List (FieldDef C)) : List (FieldDef C) :=
  if fields.any (fun f => f.type = .linkpanel) then
    fields.takeWhile (fun f => f.type ≠ .linkpanel) ++
      field :: fields.dropWhile (fun f => f.type ≠ .linkpanel)
  else field :: fields

def overrideFields (fields inheritedFields : List (FieldDef C)) : List (FieldDef C) :=
  fields.foldl (fun inherited field =>
    (replaceBy FieldDef.name field inherited).getD (placeField field inherited)) inheritedFields

def overridePanels (panels inheritedLinkPanels : List (Linkpanel C)) : List (Linkpanel C) :=
  panels.foldl (fun inherited panel =>
    (replaceBy Linkpanel.id panel inherited).getD (inherited ++ [panel])) inheritedLinkPanels

def overrideTitle (title inherited : Option Label) : Option Label :=
  match title with
  | some title =>
    if !Java.isBlank title.id || !Java.isBlank title.value then some title else inherited
  | none => inherited

def overrideMetaData (metaData inherited : MetaData C) : MetaData C :=
  { inherited with
    bindClass := metaData.bindClass
    binding := if Java.isEmpty metaData.binding then inherited.binding else metaData.binding
    fields := overrideFields metaData.fields inherited.fields }

/-- The bean of the ancestor with what the definition overrides. None: it throws. -/
def overrideBean (bean inherited : Bean C) : Option (Bean C) :=
  let inherited := if Java.isBlank bean.id then inherited else ⟨bean.id, []⟩
  (addAll BeanOption.name inherited.options bean.options).map fun options =>
    { inherited with options }

/-- What a list of the configuration becomes that is added to an inherited one. None: it throws. -/
def addTo {α : Type} (key : α → Option String) (inherited : Option (List α)) :
    Option (List α) → Option (Option (List α))
  | none => some inherited
  | some as => do
    let inherited ← inherited
    let merged ← addAll key inherited as
    return some merged

/-- Marshalling and unmarshalling give a copy of the ancestor. None: it throws. -/
def inherit (definition ancestor : Datasource C) : Option (Datasource C) := do
  let labels ← addTo Label.id ancestor.config.labels definition.config.labels
  let params ← addTo (fun p => some p.name) ancestor.config.params definition.config.params
  let definitionMetaData ← definition.config.metaData
  let ancestorMetaData ← ancestor.config.metaData
  let definitionBean ← definition.bean
  let ancestorBean ← ancestor.bean
  let bean ← overrideBean definitionBean ancestorBean
  return {
    ancestor with
    id := getDescendantId definition.id
    config := {
      ancestor.config with
      title := overrideTitle definition.config.title ancestor.config.title
      description := definition.config.description.or ancestor.config.description
      labels := labels
      permissions := definition.config.permissions.or ancestor.config.permissions
      params := params
      metaData := some (overrideMetaData definitionMetaData ancestorMetaData)
      linkpanel := overridePanels definition.config.linkpanel ancestor.config.linkpanel }
    bean := some bean }

/-! ## What is inherited -/

section Lists

variable {α : Type} {key : α → Option String}

/-- The inherited elements, without the first with the key of `a`, and `a` behind them. -/
def addedOne (key : α → Option String) (inherited : List α) (a : α) : List α :=
  inherited.eraseP (fun b => (key a).isSome && key b = key a) ++ [a]

def added (key : α → Option String) (inherited as : List α) : List α :=
  as.foldl (addedOne key) inherited

/-- No key is null, or `k` is found before the first that is. -/
def Searchable (key : α → Option String) (k : Option String) (as : List α) : Prop :=
  (∀ a ∈ as, (key a).isSome) ∨ k ∈ (as.map key).takeWhile Option.isSome

def Addable (key : α → Option String) : List α → List α → Prop
  | _, [] => True
  | inherited, a :: as =>
    Searchable key (key a) inherited ∧ Addable key (addedOne key inherited a) as

instance (k : Option String) (as : List α) : Decidable (Searchable key k as) :=
  inferInstanceAs (Decidable ((∀ a ∈ as, (key a).isSome) ∨ k ∈ (as.map key).takeWhile Option.isSome))

theorem searchable_nil {k : Option String} : Searchable key k [] := .inl (by simp)

theorem searchable_cons {k : Option String} {a : α} {as : List α} :
    Searchable key k (a :: as) ↔ (key a).isSome = true ∧ (key a = k ∨ Searchable key k as) := by
  unfold Searchable
  cases hkey : key a with
  | none => simp [hkey]
  | some own =>
    have hall : (∀ b ∈ a :: as, (key b).isSome = true) ↔ ∀ b ∈ as, (key b).isSome = true := by
      simp [hkey]
    rw [hall]
    simp only [List.map_cons, hkey, Option.isSome_some, List.takeWhile_cons, if_true, List.mem_cons,
      true_and]
    constructor
    · rintro (h | h | h)
      · exact .inr (.inl h)
      · exact .inl h.symm
      · exact .inr (.inr h)
    · rintro (h | h | h)
      · exact .inr (.inl h.symm)
      · exact .inl h
      · exact .inr (.inr h)

/-- A search that ends without an exception finds the first element with the key. -/
theorem findBy_spec (key : α → Option String) (k : Option String) (as : List α) :
    (Searchable key k as ↔ (findBy key k as).isSome = true) ∧
      ∀ o, findBy key k as = some o → o = as.find? (fun b => k.isSome && key b = k) := by
  induction as with
  | nil => exact ⟨by simp [findBy, searchable_nil], fun o h => by cases h; rfl⟩
  | cons a as ih =>
    obtain ⟨hiff, hfound⟩ := ih
    rw [searchable_cons]
    cases hkey : key a with
    | none => simp [findBy, hkey]
    | some own =>
      by_cases hk : some own = k
      · subst hk
        simp [findBy, hkey]
      · simp only [findBy, hkey, Option.isSome_some, hk, false_or, true_and, if_false]
        refine ⟨hiff, fun o ho => ?_⟩
        rw [hfound o ho, List.find?_cons_of_neg]
        simp [hkey, hk]

theorem addAll_eq_some {as r : List α} :
    ∀ {inherited : List α}, addAll key inherited as = some r ↔
      Addable key inherited as ∧ r = added key inherited as := by
  induction as with
  | nil => intro inherited; simp [addAll, Addable, added, eq_comm]
  | cons a as ih =>
    intro inherited
    obtain ⟨hiff, hfound⟩ := findBy_spec key (key a) inherited
    have hadded : added key inherited (a :: as) = added key (addedOne key inherited a) as := rfl
    rw [addAll, Addable, hiff, hadded]
    cases hfind : findBy key (key a) inherited with
    | none => simp
    | some o =>
      have ho := hfound o hfind
      cases o with
      | none =>
        have hnone : addedOne key inherited a = inherited ++ [a] := by
          rw [addedOne, List.eraseP_of_forall_not]
          intro b hb
          exact List.find?_eq_none.mp ho.symm b hb
        rw [hnone]
        simp [ih]
      | some b =>
        have hb := List.find?_some ho.symm
        have hsome : (key a).isSome = true := by
          simp only [Bool.and_eq_true] at hb
          exact hb.1
        have hone : addedOne key inherited a =
            inherited.eraseP (fun b => key b = key a) ++ [a] := by
          simp [addedOne, hsome]
        rw [hone]
        simp [ih]

/-- Where every key is there, elements can always be added. -/
theorem addable_of_isSome (h : ∀ a : α, (key a).isSome = true) :
    ∀ (as inherited : List α), Addable key inherited as := by
  intro as
  induction as with
  | nil => intro inherited; trivial
  | cons a as ih =>
    intro inherited
    exact ⟨.inl fun b _ => h b, ih _⟩

end Lists

def addedTo {α : Type} (key : α → Option String) (inherited : Option (List α)) :
    Option (List α) → Option (List α)
  | none => inherited
  | some as => some (added key (inherited.getD []) as)

/-- The options of an overridden bean are not kept. -/
def keptOptions (bean inherited : Bean C) : List (BeanOption C) :=
  if Java.isBlank bean.id then inherited.options else []

def mergedBean (bean inherited : Bean C) : Bean C where
  id := if Java.isBlank bean.id then inherited.id else bean.id
  options := added BeanOption.name (keptOptions bean inherited) bean.options

/-- A part of the definition put over that of the ancestor; where one has none, it is the other's. -/
def overriding {α : Type} (merge : α → α → α) : Option α → Option α → Option α
  | some a, some inherited => some (merge a inherited)
  | some a, none => some a
  | none, inherited => inherited

/-- The datasource that a definition makes of its ancestor. -/
def inherited (definition ancestor : Datasource C) : Datasource C where
  id := getDescendantId definition.id
  config := {
    title := overrideTitle definition.config.title ancestor.config.title
    description := definition.config.description.or ancestor.config.description
    labels := addedTo Label.id ancestor.config.labels definition.config.labels
    permissions := definition.config.permissions.or ancestor.config.permissions
    params := addedTo (fun p => some p.name) ancestor.config.params definition.config.params
    metaData := overriding overrideMetaData definition.config.metaData ancestor.config.metaData
    linkpanel := overridePanels definition.config.linkpanel ancestor.config.linkpanel
    content := ancestor.config.content }
  bean := overriding mergedBean definition.bean ancestor.bean
  content := ancestor.content

/-- What the code relies on without asking: both sides have metadata and a bean, the ancestor has
labels and parameters if the definition has, and no search comes to a label or an option that has
no name. -/
structure Inheritable (definition ancestor : Datasource C) : Prop where
  metaData : definition.config.metaData.isSome ∧ ancestor.config.metaData.isSome
  bean : definition.bean.isSome ∧ ancestor.bean.isSome
  labels : ∀ as ∈ definition.config.labels, ∃ inherited ∈ ancestor.config.labels,
    Addable Label.id inherited as
  params : definition.config.params.isSome → ancestor.config.params.isSome
  options : ∀ bean ∈ definition.bean, ∀ inherited ∈ ancestor.bean,
    Addable BeanOption.name (keptOptions bean inherited) bean.options

theorem addTo_eq_some {α : Type} {key : α → Option String} {inherited as r : Option (List α)} :
    addTo key inherited as = some r ↔
      (∀ a ∈ as, ∃ i ∈ inherited, Addable key i a) ∧ r = addedTo key inherited as := by
  cases as with
  | none => simp [addTo, addedTo, eq_comm]
  | some as =>
    cases inherited with
    | none => simp [addTo]
    | some inherited =>
      simp only [addTo, addedTo, Option.bind_eq_bind, Option.bind_some, Option.bind_eq_some_iff,
        addAll_eq_some, Option.getD_some, Option.pure_def, Option.some.injEq, Option.mem_def]
      constructor
      · rintro ⟨merged, ⟨hadd, rfl⟩, rfl⟩
        refine ⟨?_, rfl⟩
        rintro _ rfl
        exact ⟨inherited, rfl, hadd⟩
      · rintro ⟨hadd, rfl⟩
        obtain ⟨_, rfl, hadd⟩ := hadd as rfl
        exact ⟨_, ⟨hadd, rfl⟩, rfl⟩

theorem overrideBean_eq (bean ancestorBean : Bean C) :
    overrideBean bean ancestorBean =
      (addAll BeanOption.name (keptOptions bean ancestorBean) bean.options).map fun options =>
        { mergedBean bean ancestorBean with options } := by
  unfold overrideBean mergedBean keptOptions
  cases Java.isBlank bean.id with
  | true => rfl
  | false => rfl

theorem overrideBean_eq_some {bean ancestorBean r : Bean C} :
    overrideBean bean ancestorBean = some r ↔
      Addable BeanOption.name (keptOptions bean ancestorBean) bean.options ∧
        r = mergedBean bean ancestorBean := by
  simp only [overrideBean_eq, Option.map_eq_some_iff, addAll_eq_some]
  constructor
  · rintro ⟨options, ⟨hadd, rfl⟩, rfl⟩
    exact ⟨hadd, rfl⟩
  · rintro ⟨hadd, rfl⟩
    exact ⟨_, ⟨hadd, rfl⟩, rfl⟩

theorem inherit_eq_some {definition ancestor r : Datasource C} :
    inherit definition ancestor = some r ↔
      Inheritable definition ancestor ∧ r = inherited definition ancestor := by
  simp only [inherit, Option.bind_eq_bind, Option.bind_eq_some_iff, addTo_eq_some,
    overrideBean_eq_some, Option.pure_def, Option.some.injEq]
  constructor
  · rintro ⟨labels, ⟨hlabels, rfl⟩, params, ⟨hparams, rfl⟩, metaData, hmeta, ancestorMeta, hmeta',
      bean, hbean, ancestorBean, hbean', merged, ⟨hoptions, rfl⟩, rfl⟩
    refine ⟨⟨?_, ?_, hlabels, ?_, ?_⟩, ?_⟩
    · simp [hmeta, hmeta']
    · simp [hbean, hbean']
    · intro hsome
      obtain ⟨as, has⟩ := Option.isSome_iff_exists.mp hsome
      obtain ⟨inherited, hinherited, -⟩ := hparams as has
      exact Option.isSome_iff_exists.mpr ⟨inherited, hinherited⟩
    · intro b hb b' hb'
      obtain rfl := Option.some.inj (hbean.symm.trans hb)
      obtain rfl := Option.some.inj (hbean'.symm.trans hb')
      exact hoptions
    · simp [inherited, overriding, hmeta, hmeta', hbean, hbean']
  · rintro ⟨h, rfl⟩
    obtain ⟨metaData, hmeta⟩ := Option.isSome_iff_exists.mp h.metaData.1
    obtain ⟨ancestorMeta, hmeta'⟩ := Option.isSome_iff_exists.mp h.metaData.2
    obtain ⟨bean, hbean⟩ := Option.isSome_iff_exists.mp h.bean.1
    obtain ⟨ancestorBean, hbean'⟩ := Option.isSome_iff_exists.mp h.bean.2
    refine ⟨_, ⟨h.labels, rfl⟩, _, ⟨?_, rfl⟩, metaData, hmeta, ancestorMeta, hmeta', bean, hbean,
      ancestorBean, hbean', _, ⟨h.options bean hbean ancestorBean hbean', rfl⟩, ?_⟩
    · intro as has
      obtain ⟨inherited, hinherited⟩ := Option.isSome_iff_exists.mp
        (h.params (Option.isSome_iff_exists.mpr ⟨as, has⟩))
      exact ⟨inherited, hinherited, addable_of_isSome (fun _ => rfl) as inherited⟩
    · simp [inherited, overriding, hmeta, hmeta', hbean, hbean']

end Config
end AppNG
