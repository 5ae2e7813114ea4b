import AppNG.Lib.JavaString
import AppNG.Lib.Keyed
import AppNG.Lib.Like
import AppNG.Properties.Names

/-!
# Properties.Scopes

The properties of the platform, of its nodes, sites and applications in one table, told apart by the
prefix of their names: `CoreService`, `PropertySupport` and `PropertyHolder`.

A scope's properties are selected by two patterns, the prefix followed by anything and not the prefix
followed by anything with a dot in it. The prefix is not escaped, and the id of a node goes into it
with every dot replaced.

* `selected_literal`: the prefix of a site or an application selects what follows it without a dot.
* `selected_node`: the prefix of a node selects the properties of the nodes whose name it matches as a
  pattern.
* `isolated_iff`: the properties of a scope are kept apart from all others if and only if the scope is
  not that of a node, or its name matches that of no other node with a property.
-/

namespace AppNG
namespace Properties

open Like

/-! ## Prefixes -/

def prefixPlatform : String := "platform."
def prefixSite : String := "site."
def prefixApplication : String := "application."
def prefixNode : String := "platform.node."

def getPropertyPrefix (site application : Option StrictName) : String :=
  let sitePart := match site with
    | none => ""
    | some site => prefixSite ++ site.value ++ "."
  let applicationPart := match application with
    | none => ""
    | some application => prefixApplication ++ application.value ++ "."
  prefixPlatform ++ sitePart ++ applicationPart

/-- `nodeId.replace('.', '_')` -/
def escape (nodeId : String) : List Char :=
  nodeId.toList.map fun c => if c = '.' then '_' else c

def getNodePrefix (nodeId : String) : String := prefixNode ++ String.ofList (escape nodeId) ++ "."

/-- What a property is created for: `createProperty` and `createNodeProperty`. -/
inductive Scope where
  | properties (site application : Option StrictName)
  | node (nodeId : String)
  deriving DecidableEq

def Scope.propertyPrefix : Scope → String
  | properties site application => getPropertyPrefix site application
  | node nodeId => getNodePrefix nodeId

/-! ## The table -/

/-- A row, with all but the name in one value. -/
structure PropertyImpl (V : Type) where
  name : String
  value : V
  deriving DecidableEq, Repr

variable {V : Type}

/-- `createProperty`: saving a second row of the same name is an exception, as the name is the key and
a new property has no version. -/
def createProperty (propertyPrefix : String) (property : PropertyImpl V)
    (table : List (PropertyImpl V)) : Option (List (PropertyImpl V)) :=
  let property := { property with name := propertyPrefix ++ property.name }
  if property.name ∈ table.map PropertyImpl.name then none else some (property :: table)

/-- The two patterns of the search. -/
def selected (propertyPrefix : String) (property : PropertyImpl V) : Bool :=
  like (propertyPrefix.toList ++ ['%']) property.name.toList &&
    !like (propertyPrefix.toList ++ ['%', '.', '%']) property.name.toList

def getPropertiesList (propertyPrefix : String) (table : List (PropertyImpl V)) :
    List (PropertyImpl V) :=
  table.filter (selected propertyPrefix)

def deleteProperties (properties table : List (PropertyImpl V)) : List (PropertyImpl V) :=
  table.filter fun property => property.name ∉ properties.map PropertyImpl.name

/-- The map of a `PropertyHolder`: a later property takes the place of one with the same name. -/
structure PropertyHolder (V : Type) where
  propertyPrefix : String
  propMap : String → Option (PropertyImpl V)

def PropertyHolder.create (propertyPrefix : String) (properties : List (PropertyImpl V)) :
    PropertyHolder V where
  propertyPrefix
  propMap := Keyed.overlay PropertyImpl.name (fun _ => none) properties

def PropertyHolder.getProperty (holder : PropertyHolder V) (name : String) :
    Option (PropertyImpl V) :=
  if holder.propertyPrefix.toList <+: name.toList then holder.propMap name
  else holder.propMap (holder.propertyPrefix ++ name)

def getProperties (scope : Scope) (table : List (PropertyImpl V)) : PropertyHolder V :=
  .create scope.propertyPrefix (getPropertiesList scope.propertyPrefix table)

/-! ## Names and patterns -/

variable {site application : Option StrictName} {nodeId nodeId' : String} {scope scope' : Scope}
  {id id' : PropertyId} {property : PropertyImpl V} {table : List (PropertyImpl V)}

theorem escape_no_dot : '.' ∉ escape nodeId := by
  intro h
  obtain ⟨c, -, hc⟩ := List.mem_map.mp h
  split at hc
  · exact absurd hc (by decide)
  · exact absurd hc ‹_›

theorem literal_append {p q : List Char} : Literal (p ++ q) ↔ Literal p ∧ Literal q := by
  unfold Literal
  exact List.forall_mem_append

theorem StrictName.literal (name : StrictName) : Literal name.value.toList :=
  fun _ hc => (name.ne_of_mem hc).2

theorem getPropertyPrefix_literal : Literal (getPropertyPrefix site application).toList := by
  have hplatform : Literal prefixPlatform.toList := by decide +kernel
  have hsite : Literal prefixSite.toList := by decide +kernel
  have happlication : Literal prefixApplication.toList := by decide +kernel
  have hdot : Literal ".".toList := by decide +kernel
  have hnil : Literal "".toList := by decide +kernel
  unfold getPropertyPrefix
  cases site <;> cases application <;>
    simp only [String.toList_append, literal_append, hplatform, hsite, happlication, hdot, hnil,
      StrictName.literal, and_self]

/-- A literal prefix selects what follows it without a dot. -/
theorem selected_literal {p : String} (h : Literal p.toList) :
    selected p property = true ↔ ∃ rest, '.' ∉ rest ∧ property.name.toList = p.toList ++ rest := by
  have hdot : '.' ≠ '_' ∧ '.' ≠ '%' := by decide
  unfold selected
  rw [Bool.and_eq_true, Bool.not_eq_true', ← Bool.not_eq_true, like_prefix h,
    like_prefix_sep h hdot]
  constructor
  · rintro ⟨⟨rest, hrest⟩, hnot⟩
    exact ⟨rest, fun hmem => hnot ⟨rest, hrest.symm, hmem⟩, hrest.symm⟩
  · rintro ⟨rest, hmem, hrest⟩
    refine ⟨⟨rest, hrest.symm⟩, ?_⟩
    rintro ⟨rest', hrest', hmem'⟩
    rw [hrest, List.append_cancel_left_eq] at hrest'
    exact hmem (hrest' ▸ hmem')

/-! ## The names of the scopes -/

theorem StrictName.no_dot (name : StrictName) : '.' ∉ name.value.toList :=
  fun h => (name.ne_of_mem h).1 rfl

/-- What stands before the dots of a prefix. -/
def Scope.parts : Scope → List (List Char)
  | properties none none => ["platform".toList]
  | properties (some site) none => ["platform".toList, "site".toList, site.value.toList]
  | properties none (some application) =>
    ["platform".toList, "application".toList, application.value.toList]
  | properties (some site) (some application) =>
    ["platform".toList, "site".toList, site.value.toList, "application".toList,
      application.value.toList]
  | node nodeId => ["platform".toList, "node".toList, escape nodeId]

theorem propertyPrefix_toList (scope : Scope) :
    scope.propertyPrefix.toList = scope.parts.flatMap (· ++ ['.']) := by
  rcases scope with ⟨_ | site, _ | application⟩ | nodeId <;>
    simp [Scope.propertyPrefix, Scope.parts, getPropertyPrefix, getNodePrefix, prefixPlatform,
      prefixSite, prefixApplication, prefixNode]

theorem parts_no_dot : ∀ part ∈ scope.parts, '.' ∉ part := by
  rcases scope with ⟨_ | site, _ | application⟩ | nodeId <;>
    simp [Scope.parts, StrictName.no_dot, escape_no_dot]

theorem propertyPrefix_injective (h : scope.propertyPrefix.toList = scope'.propertyPrefix.toList) :
    scope.parts = scope'.parts := by
  rw [propertyPrefix_toList, propertyPrefix_toList] at h
  exact Java.flatMap_sep_injective parts_no_dot parts_no_dot h

/-- A scope that is not that of a node has parts of its own. -/
theorem parts_injective (h : (Scope.properties site application).parts = scope.parts) :
    scope = .properties site application := by
  rcases scope with ⟨_ | site', _ | application'⟩ | nodeId <;> cases site <;> cases application <;>
    simp only [Scope.parts, List.cons.injEq, String.toList_inj, and_true, true_and, reduceCtorEq,
      and_false] at h <;>
    first
    | rfl
    | simp at h
    | rw [StrictName.ext h]
    | rw [StrictName.ext h.1, StrictName.ext h.2]

/-! ## What a prefix selects -/

/-- A property, with the scope and the id it was created for. -/
structure Created (V : Type) where
  scope : Scope
  id : PropertyId
  value : V

def Created.row (created : Created V) : PropertyImpl V :=
  ⟨created.scope.propertyPrefix ++ created.id.value, created.value⟩

variable {created : Created V}

theorem row_toList : created.row.name.toList =
    created.scope.propertyPrefix.toList ++ created.id.value.toList := by
  simp [Created.row]

theorem propertyPrefix_eq_dot (scope : Scope) :
    ∃ text, scope.propertyPrefix.toList = text ++ ['.'] := by
  have hne : scope.parts ≠ [] := by
    rcases scope with ⟨_ | site, _ | application⟩ | nodeId <;> simp [Scope.parts]
  obtain ⟨parts, last, hparts⟩ := (List.eq_nil_or_concat' _).resolve_left hne
  refine ⟨parts.flatMap (· ++ ['.']) ++ last, ?_⟩
  rw [propertyPrefix_toList, hparts]
  simp

/-- The prefix of a property is cut off at the last dot of its name. -/
theorem row_prefix (scope : Scope) {rest : List Char} (hrest : '.' ∉ rest)
    (h : created.row.name.toList = scope.propertyPrefix.toList ++ rest) :
    scope.propertyPrefix.toList = created.scope.propertyPrefix.toList ∧
      rest = created.id.value.toList := by
  obtain ⟨text, htext⟩ := propertyPrefix_eq_dot scope
  obtain ⟨text', htext'⟩ := propertyPrefix_eq_dot created.scope
  rw [row_toList, htext, htext', List.append_assoc, List.append_assoc] at h
  obtain ⟨rfl, rfl⟩ := Java.append_last_sep_inj (PropertyId.no_dot _) hrest h
  exact ⟨htext.trans htext'.symm, rfl⟩

theorem selected_properties :
    selected (getPropertyPrefix site application) created.row = true ↔
      created.scope = .properties site application := by
  rw [selected_literal getPropertyPrefix_literal]
  constructor
  · rintro ⟨rest, hrest, h⟩
    obtain ⟨heq, -⟩ := row_prefix (.properties site application) hrest h
    exact parts_injective (propertyPrefix_injective heq)
  · intro h
    exact ⟨created.id.value.toList, created.id.no_dot, by rw [row_toList, h]; rfl⟩

theorem getNodePrefix_toList :
    (getNodePrefix nodeId).toList = prefixNode.toList ++ (escape nodeId ++ ['.']) := by
  simp [getNodePrefix]

theorem prefixNode_literal : Literal prefixNode.toList := by decide +kernel

theorem like_append_left {p pattern text : List Char} (h : Literal p) :
    like (p ++ pattern) (p ++ text) = true ↔ like pattern text = true := by
  simp only [like_append, like_literal h]
  constructor
  · rintro ⟨_, rest, heq, rfl, hrest⟩
    rwa [List.append_cancel_left heq]
  · intro hrest
    exact ⟨p, text, rfl, rfl, hrest⟩

/-- Only properties of nodes begin as those of nodes do. -/
theorem row_prefixNode {rest : List Char} (h : created.row.name.toList = prefixNode.toList ++ rest) :
    ∃ nodeId, created.scope = .node nodeId := by
  rw [row_toList, propertyPrefix_toList] at h
  rcases hscope : created.scope with ⟨_ | site, _ | application⟩ | nodeId
  · rw [hscope] at h
    simp only [Scope.parts, List.flatMap_cons, List.flatMap_nil, List.append_assoc,
      List.append_nil] at h
    have hid : created.id.value.toList = "node.".toList ++ rest := by
      simpa [prefixNode] using h
    have hdot : '.' ∈ created.id.value.toList := by simp [hid]
    exact absurd hdot (PropertyId.no_dot _)
  · rw [hscope] at h
    simp [Scope.parts, prefixNode] at h
  · rw [hscope] at h
    simp [Scope.parts, prefixNode] at h
  · rw [hscope] at h
    simp [Scope.parts, prefixNode] at h
  · exact ⟨nodeId, rfl⟩

theorem row_node (h : created.scope = .node nodeId') :
    created.row.name.toList =
      prefixNode.toList ++ (escape nodeId' ++ '.' :: created.id.value.toList) := by
  rw [row_toList, h]
  simp [Scope.propertyPrefix, getNodePrefix]

theorem selected_node :
    selected (getNodePrefix nodeId) created.row = true ↔
      ∃ nodeId', created.scope = .node nodeId' ∧ like (escape nodeId) (escape nodeId') = true := by
  have hdot : '.' ≠ '_' ∧ '.' ≠ '%' := by decide
  unfold selected
  rw [getNodePrefix_toList, Bool.and_eq_true, Bool.not_eq_true', List.append_assoc,
    List.append_assoc, List.append_assoc]
  constructor
  · rintro ⟨hlike, -⟩
    obtain ⟨text, rest, hname, htext, hrest⟩ := like_append.mp hlike
    obtain rfl := (like_literal prefixNode_literal).mp htext
    obtain ⟨nodeId', hscope⟩ := row_prefixNode hname
    refine ⟨nodeId', hscope, ?_⟩
    rw [row_node hscope, like_append_left prefixNode_literal] at hlike
    exact ((like_sep hdot escape_no_dot (PropertyId.no_dot _)).mp hlike).1
  · rintro ⟨nodeId', hscope, hnode⟩
    rw [row_node hscope]
    refine ⟨(like_append_left prefixNode_literal).mpr
      ((like_sep hdot escape_no_dot (PropertyId.no_dot _)).mpr ⟨hnode, like_any⟩), ?_⟩
    -- the second pattern has a dot more than the name
    rw [← Bool.not_eq_true, like_append_left prefixNode_literal]
    intro hlike
    have hcount := count_le_of_like hdot hlike
    simp [List.count_eq_zero_of_not_mem escape_no_dot,
      List.count_eq_zero_of_not_mem created.id.no_dot] at hcount

/-! ## Isolation -/

/-- The properties created so far; the name is the key of the table. -/
abbrev CreatedProperties (V : Type) := Keyed fun created : Created V => created.row.name

def CreatedProperties.rows (properties : CreatedProperties V) : List (PropertyImpl V) :=
  properties.values.map Created.row

variable {properties : CreatedProperties V}

/-- What keeps the properties of a scope apart from all others. -/
structure Isolated (properties : CreatedProperties V) (scope : Scope) : Prop where
  loads : ∀ property, property ∈ getPropertiesList scope.propertyPrefix properties.rows ↔
    ∃ created ∈ properties.values, created.scope = scope ∧ created.row = property
  found : ∀ created ∈ properties.values, created.scope = scope →
    (getProperties scope properties.rows).getProperty created.id.value = some created.row
  keeps : ∀ created ∈ properties.values, created.scope ≠ scope →
    created.row ∈
      deleteProperties (getPropertiesList scope.propertyPrefix properties.rows) properties.rows

/-- The name of a node, read as a pattern, matches that of no other node with a property. -/
def Apart (properties : CreatedProperties V) (scope : Scope) : Prop :=
  ∀ nodeId, scope = .node nodeId → ∀ created ∈ properties.values, ∀ nodeId',
    created.scope = .node nodeId' → like (escape nodeId) (escape nodeId') = true →
      nodeId' = nodeId

theorem selected_own (h : created.scope = scope) :
    selected scope.propertyPrefix created.row = true := by
  cases scope with
  | properties site application => exact selected_properties.mpr h
  | node nodeId => exact selected_node.mpr ⟨nodeId, h, like_self _⟩

theorem selected_iff (h : Apart properties scope) (hcreated : created ∈ properties.values) :
    selected scope.propertyPrefix created.row = true ↔ created.scope = scope := by
  refine ⟨fun hselected => ?_, selected_own⟩
  cases scope with
  | properties site application => exact selected_properties.mp hselected
  | node nodeId =>
    obtain ⟨nodeId', hscope, hlike⟩ := selected_node.mp hselected
    rw [hscope, h nodeId rfl created hcreated nodeId' hscope hlike]

theorem mem_getPropertiesList {p : String} :
    property ∈ getPropertiesList p properties.rows ↔
      ∃ created ∈ properties.values, created.row = property ∧ selected p created.row = true := by
  simp only [getPropertiesList, CreatedProperties.rows, List.mem_filter, List.mem_map]
  constructor
  · rintro ⟨⟨created, hcreated, rfl⟩, hselected⟩
    exact ⟨created, hcreated, rfl, hselected⟩
  · rintro ⟨created, hcreated, rfl, hselected⟩
    exact ⟨⟨created, hcreated, rfl⟩, hselected⟩

theorem not_propertyPrefix_prefix : ¬ scope.propertyPrefix.toList <+: id.value.toList := by
  obtain ⟨text, htext⟩ := propertyPrefix_eq_dot scope
  intro h
  rw [htext] at h
  exact id.no_dot (h.subset (List.mem_append_right _ List.mem_cons_self))

/-- Under its id a property of the scope is always found, whatever else is loaded. -/
theorem getProperty_own (hcreated : created ∈ properties.values) (h : created.scope = scope) :
    (getProperties scope properties.rows).getProperty created.id.value = some created.row := by
  have hname : scope.propertyPrefix ++ created.id.value = created.row.name := by
    rw [← h]
    rfl
  have hmem : created.row ∈ getPropertiesList scope.propertyPrefix properties.rows :=
    mem_getPropertiesList.mpr ⟨created, hcreated, rfl, selected_own h⟩
  unfold PropertyHolder.getProperty
  rw [if_neg (show ¬ (getProperties scope properties.rows).propertyPrefix.toList <+: _ from
    not_propertyPrefix_prefix)]
  show Keyed.overlay PropertyImpl.name (fun _ => none)
    (getPropertiesList scope.propertyPrefix properties.rows)
    (scope.propertyPrefix ++ created.id.value) = some created.row
  rw [hname]
  obtain ⟨row, hrow, hkey, heq⟩ := Keyed.overlay_of_present (m := fun _ => none)
    ⟨created.row, hmem, (rfl : PropertyImpl.name created.row = created.row.name)⟩
  obtain ⟨other, hother, rfl, -⟩ := mem_getPropertiesList.mp hrow
  rw [heq, Keyed.eq_of_key_eq hother hcreated hkey]

/-- A scope is isolated exactly if it is not that of a node or its name stands apart. -/
theorem isolated_iff (properties : CreatedProperties V) (scope : Scope) :
    Isolated properties scope ↔ Apart properties scope := by
  constructor
  · rintro ⟨hloads, -, -⟩ nodeId rfl created hcreated nodeId' hscope hlike
    have hselected : selected (Scope.node nodeId).propertyPrefix created.row = true :=
      selected_node.mpr ⟨nodeId', hscope, hlike⟩
    obtain ⟨other, hother, hown, hrow⟩ := (hloads created.row).mp
      (mem_getPropertiesList.mpr ⟨created, hcreated, rfl, hselected⟩)
    rw [Keyed.eq_of_key_eq hother hcreated (congrArg PropertyImpl.name hrow), hscope] at hown
    exact Scope.node.inj hown
  · intro h
    refine ⟨fun property => ?_, fun created => getProperty_own, ?_⟩
    · rw [mem_getPropertiesList]
      constructor
      · rintro ⟨created, hcreated, hrow, hselected⟩
        exact ⟨created, hcreated, (selected_iff h hcreated).mp hselected, hrow⟩
      · rintro ⟨created, hcreated, hscope, hrow⟩
        exact ⟨created, hcreated, hrow, selected_own hscope⟩
    · intro created hcreated hscope
      simp only [deleteProperties, List.mem_filter, List.mem_map, decide_eq_true_eq]
      refine ⟨List.mem_map_of_mem hcreated, ?_⟩
      rintro ⟨row, hrow, hname⟩
      obtain ⟨other, hother, rfl, hselected⟩ := mem_getPropertiesList.mp hrow
      rw [Keyed.eq_of_key_eq hother hcreated hname] at hselected
      exact hscope ((selected_iff h hcreated).mp hselected)

/-! ## Prefixes of pairs -/

theorem count_dot_parts : (scope.parts.flatMap (· ++ ['.'])).count '.' = scope.parts.length := by
  have hcount : ∀ parts : List (List Char), (∀ part ∈ parts, '.' ∉ part) →
      (parts.flatMap (· ++ ['.'])).count '.' = parts.length := by
    intro parts
    induction parts with
    | nil => intro _; rfl
    | cons part parts ih =>
      intro h
      obtain ⟨hpart, hparts⟩ := List.forall_mem_cons.mp h
      rw [List.flatMap_cons, List.count_append, List.count_append, ih hparts,
        List.count_eq_zero_of_not_mem hpart, List.length_cons]
      simp
      omega
  exact hcount scope.parts parts_no_dot

/-- No name begins with the prefix of a site and an application but those of its properties. -/
theorem pair_prefix_iff {site application : StrictName} :
    (getPropertyPrefix (some site) (some application)).toList <+: created.row.name.toList ↔
      created.scope = .properties (some site) (some application) := by
  constructor
  · rintro ⟨rest, hrest⟩
    by_cases hdot : '.' ∈ rest
    · -- the name would have more than five dots
      have hcount := congrArg (List.count '.') hrest
      have hpair := propertyPrefix_toList (.properties (some site) (some application))
      rw [row_toList, List.count_append, List.count_append, propertyPrefix_toList, count_dot_parts,
        List.count_eq_zero_of_not_mem (PropertyId.no_dot _)] at hcount
      have hpairCount : (getPropertyPrefix (some site) (some application)).toList.count '.' = 5 := by
        show (Scope.properties (some site) (some application)).propertyPrefix.toList.count '.' = 5
        rw [hpair, count_dot_parts]
        rfl
      have hlength : created.scope.parts.length ≤ 5 := by
        rcases created.scope with ⟨_ | site, _ | application⟩ | nodeId <;> simp [Scope.parts]
      have hpos : 0 < rest.count '.' := List.count_pos_iff.mpr hdot
      omega
    · exact selected_properties.mp
        ((selected_literal getPropertyPrefix_literal).mpr ⟨rest, hdot, hrest.symm⟩)
  · intro h
    rw [row_toList, h]
    exact List.prefix_append _ _

section Example

def maxHeap : PropertyId := ⟨"maxHeap", List.all_eq_true.mp (by decide +kernel), by decide +kernel⟩

/-- A property of one node. -/
def underscoreNode : CreatedProperties Nat where
  values := [⟨.node "app_1", maxHeap, 2048⟩]
  nodup := List.nodup_singleton _

/-- It is loaded for two others as well, one of which has no property. -/
theorem underscoreNode_not_isolated :
    ¬ Isolated underscoreNode (.node "app.1") ∧ ¬ Isolated underscoreNode (.node "%") := by
  refine ⟨fun h => ?_, fun h => ?_⟩
  · obtain ⟨created, hcreated, hscope, -⟩ :=
      (h.loads ⟨"platform.node.app_1.maxHeap", 2048⟩).mp (by decide +kernel)
    obtain rfl := List.mem_singleton.mp hcreated
    exact absurd hscope (by decide)
  · obtain ⟨created, hcreated, hscope, -⟩ :=
      (h.loads ⟨"platform.node.app_1.maxHeap", 2048⟩).mp (by decide +kernel)
    obtain rfl := List.mem_singleton.mp hcreated
    exact absurd hscope (by decide)

end Example

end Properties
end AppNG
