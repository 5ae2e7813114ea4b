import AppNG.Lib.JavaString
import AppNG.Lib.Loop
import AppNG.Lib.StableSort
import Mathlib.Data.List.Induction

/-!
# Fields.DefaultSort

`FieldProcessorImpl`: the sort that the fields declare, where a page is asked for without one.

What a field declares is used up: the fields have no sort of their own after a call, and the next one
returns the page as it was asked for.

An order is put into the list at the index that is its priority. So there is a place for each in turn
if the priorities are `0, 1, 2, …`.

* `foldUntil_addOrder`: what the loop over the fields does then.
* `getPageable_default`: the first call, and those that follow.
-/

namespace AppNG
namespace Fields
namespace DefaultSort

open Loop

inductive SortOrder where
  | asc
  | desc
  deriving DecidableEq, Repr

/-- `org.appng.xml.platform.Sort` -/
structure FieldSort where
  order : Option SortOrder := none
  name : Option String := none
  prio : Option Int := none
  ignoreCase : Option Bool := none
  deriving DecidableEq, Repr

structure FieldDef where
  name : String
  binding : Option String
  sort : Option FieldSort
  deriving DecidableEq, Repr

structure MetaData where
  binding : Option String
  fields : List FieldDef
  deriving DecidableEq, Repr

/-- An `Order` of Spring Data: its constructor throws without a text. -/
structure Order where
  direction : SortOrder
  property : String
  ignoreCase : Bool
  hasText : Java.isBlank (some property) = false
  deriving DecidableEq

structure PageRequest where
  pageNumber : Int
  pageSize : Int
  sort : List Order
  page_ok : 0 ≤ pageNumber
  size_ok : 1 ≤ pageSize
  deriving DecidableEq

structure FieldProcessor where
  metaData : Option MetaData
  pageable : Option PageRequest
  deriving DecidableEq

inductive Exception where
  | illegalArgument
  | indexOutOfBounds
  deriving DecidableEq, Repr

/-! ## The code -/

def Order.new (direction : SortOrder) (property : String) (ignoreCase : Bool) : Option Order :=
  if h : Java.isBlank (some property) = false then some ⟨direction, property, ignoreCase, h⟩ else none

/-- Of two fields with one binding the last one is found. -/
def getField (fields : List FieldDef) (binding : String) : Option (FieldDef × Nat) :=
  fields.zipIdx.reverse.find? fun field => field.1.binding == some binding

/-- One round of the loop. -/
def markOrder (binding : Option String) (marked : List FieldDef × Int) (order : Order) :
    List FieldDef × Int :=
  let (fields, prio) := marked
  match getField fields ((binding.map (· ++ ".")).getD "" ++ order.property) with
  | some (field, index) =>
    match field.sort with
    | some sort =>
      (fields.set index { field with sort := some { sort with
        prio := some prio
        ignoreCase := if order.ignoreCase then some true else sort.ignoreCase
        order := some order.direction } }, prio + 1)
    | none => marked
  | none => marked

def FieldProcessor.setPageable (processor : FieldProcessor) (pageable : Option PageRequest) :
    FieldProcessor where
  metaData := match pageable, processor.metaData with
    | some pageable, some metaData =>
      some { metaData with fields := (pageable.sort.foldl (markOrder metaData.binding) (metaData.fields, 0)).1 }
    | _, metaData => metaData
  pageable

def FieldDef.clear (field : FieldDef) : FieldDef := { field with sort := field.sort.map fun _ => {} }

/-- The order by a field, under the name it has in a query. -/
def fieldOrder (fields : List FieldDef) (order : Order) : Order :=
  match (getField fields order.property).bind (·.1.sort) with
  | some sort =>
    let ignoreCase := sort.ignoreCase == some true
    match sort.name with
    | some name =>
      if h : Java.isBlank (some name) = false then ⟨order.direction, name, ignoreCase, h⟩
      else ⟨order.direction, order.property, ignoreCase, order.hasText⟩
    | none => ⟨order.direction, order.property, ignoreCase, order.hasText⟩
  | none => ⟨order.direction, order.property, false, order.hasText⟩

/-- What is asked for; the other fields lose their sort. -/
def getActiveSort (fields : List FieldDef) (sort : List Order) : List FieldDef × List Order :=
  let active := sort.filterMap fun order => (getField fields order.property).map (·.2)
  (fields.mapIdx fun index field => if index ∈ active then field else field.clear,
    sort.map (fieldOrder fields))

def FieldDef.prio (field : FieldDef) : Option Int := field.sort.bind (·.prio)

/-- `SortComparator` -/
def sortComparator (a b : FieldDef × Nat) : Ordering :=
  StableSort.nullsFirst compare a.1.prio b.1.prio

def sortFields (fields : List FieldDef) : List (FieldDef × Nat) :=
  StableSort.sort sortComparator (fields.zipIdx.filter fun field => field.1.sort.isSome)

/-- `isValidSort`: the priority, the direction and what else the sort says. -/
def FieldDef.validSort (field : FieldDef) : Option (Int × SortOrder × FieldSort) :=
  match field.sort with
  | some sort =>
    match sort.prio, sort.order with
    | some prio, some order => some (prio, order, sort)
    | _, _ => none
  | none => none

/-- The name of the sort, or that of the field. -/
def FieldDef.property (field : FieldDef) (sort : FieldSort) : String := sort.name.getD field.name

/-- One round of the loop. -/
def addOrder (state : List FieldDef × List Order) (field : FieldDef × Nat) :
    (List FieldDef × List Order) × Option Exception :=
  let (fields, orders) := state
  match field.1.validSort with
  | some (prio, direction, sort) =>
    match Order.new direction (field.1.property sort) (sort.ignoreCase == some true) with
    | some order =>
      if 0 ≤ prio ∧ prio ≤ orders.length then
        ((fields.modify field.2 FieldDef.clear, orders.insertIdx prio.toNat order), none)
      else (state, some .indexOutOfBounds)
    | none => (state, some .illegalArgument)
  | none => ((fields.modify field.2 FieldDef.clear, orders), none)

def getDefaultSort (fields : List FieldDef) : (List FieldDef × List Order) × Option Exception :=
  foldUntil addOrder (fields, []) (sortFields fields)

/-- The fields afterwards, and the sort, which is empty in place of `null`. -/
def getSort (fields : List FieldDef) (pageable : PageRequest) :
    (List FieldDef × List Order) × Option Exception :=
  if pageable.sort = [] then getDefaultSort fields
  else (getActiveSort fields pageable.sort, none)

def FieldProcessor.getPageable (processor : FieldProcessor) :
    FieldProcessor × Except Exception (Option PageRequest) :=
  match processor.pageable, processor.metaData with
  | none, _ => (processor, .ok none)
  | some pageable, none => (processor, .ok (some { pageable with
      sort := if pageable.sort = [] then [] else (getActiveSort [] pageable.sort).2 }))
  | some pageable, some metaData =>
    match getSort metaData.fields pageable with
    | ((fields, sort), none) =>
      ({ processor with metaData := some { metaData with fields } },
        .ok (some { pageable with sort }))
    | ((fields, _), some exception) =>
      ({ processor with metaData := some { metaData with fields } }, .error exception)

/-! ## What is promised -/

/-- The fields that declare an order, with its priority. -/
def declared (fields : List FieldDef) : List FieldDef :=
  fields.filter fun field => field.validSort.isSome

def FieldDef.priority (field : FieldDef) : Int := ((field.validSort).map (·.1)).getD 0

/-- The order that a field declares. -/
def FieldDef.order (field : FieldDef) : Option Order :=
  field.validSort.bind fun (_, direction, sort) =>
    Order.new direction (field.property sort) (sort.ignoreCase == some true)

/-- The priorities are `0, 1, 2, …`, in whatever order. -/
def Numbered (fields : List FieldDef) : Prop :=
  ((declared fields).map FieldDef.priority).Perm
    ((List.range (declared fields).length).map Int.ofNat)

instance (fields : List FieldDef) : Decidable (Numbered fields) := by
  unfold Numbered; infer_instance

/-- Every name that is sorted by has a text. -/
def Named (fields : List FieldDef) : Prop := ∀ field ∈ declared fields, field.order.isSome = true

instance (fields : List FieldDef) : Decidable (Named fields) := by unfold Named; infer_instance

/-- The orders that the fields declare, by their priority. -/
structure IsDefaultSort (fields : List FieldDef) (orders : List Order) : Prop where
  sorted : ∃ sorted : List FieldDef, sorted.Perm (declared fields) ∧
    (sorted.Pairwise fun a b => a.priority < b.priority) ∧
      orders.map some = sorted.map FieldDef.order

def FieldProcessor.fields (processor : FieldProcessor) : List FieldDef :=
  (processor.metaData.map (·.fields)).getD []

/-- A page is asked for without a sort, and calls have been made since. -/
def FieldProcessor.afterCalls (processor : FieldProcessor) (pageable : PageRequest) :
    Nat → FieldProcessor
  | 0 => processor.setPageable (some pageable)
  | calls + 1 => (processor.afterCalls pageable calls).getPageable.1

/-! ## Sorting the fields -/

section Sorting

variable {fields : List FieldDef} {field : FieldDef × Nat}

theorem prio_of_validSort {field : FieldDef} {prio : Int} {direction : SortOrder} {sort : FieldSort}
    (h : field.validSort = some (prio, direction, sort)) :
    field.prio = some prio ∧ field.sort = some sort := by
  unfold FieldDef.validSort at h
  split at h
  · rename_i hsort
    split at h
    · rename_i hprio horder
      cases h
      rw [FieldDef.prio, hsort]
      exact ⟨hprio, rfl⟩
    · cases h
  · cases h

theorem prio_eq {field : FieldDef} (h : field.validSort.isSome = true) :
    field.prio = some field.priority := by
  obtain ⟨⟨prio, direction, sort⟩, hvalid⟩ := Option.isSome_iff_exists.mp h
  rw [(prio_of_validSort hvalid).1, FieldDef.priority, hvalid]
  rfl

theorem sort_of_validSort {field : FieldDef} (h : field.validSort.isSome = true) :
    field.sort.isSome = true := by
  obtain ⟨⟨prio, direction, sort⟩, hvalid⟩ := Option.isSome_iff_exists.mp h
  rw [(prio_of_validSort hvalid).2]
  rfl

theorem sortFields_perm :
    (sortFields fields).Perm (fields.zipIdx.filter fun field => field.1.sort.isSome) :=
  List.perm_insertionSort _ _

theorem sortComparator_trans : Std.TransCmp sortComparator :=
  StableSort.comap_trans (StableSort.nullsFirst_trans inferInstance) fun field : FieldDef × Nat =>
    field.1.prio

/-- The fields that declare an order, as the loop comes across them. -/
def inOrder (fields : List FieldDef) : List FieldDef :=
  ((sortFields fields).filter fun field => field.1.validSort.isSome).map Prod.fst

theorem inOrder_perm : (inOrder fields).Perm (declared fields) := by
  have hvalid : ((fields.zipIdx.filter fun field => field.1.sort.isSome).filter
      fun field => field.1.validSort.isSome) =
        fields.zipIdx.filter fun field => field.1.validSort.isSome := by
    rw [List.filter_filter]
    refine List.filter_congr fun field _ => ?_
    cases h : field.1.validSort.isSome
    · rfl
    · simp [sort_of_validSort h]
  have hfst : (fields.zipIdx.filter fun field => field.1.validSort.isSome).map Prod.fst =
      declared fields := by
    rw [declared, ← List.zipIdx_map_fst 0 fields, List.filter_map]
    simp [Function.comp_def]
  exact (((sortFields_perm.filter _).trans (.of_eq hvalid)).map Prod.fst).trans (.of_eq hfst)

theorem inOrder_pairwise :
    (inOrder fields).Pairwise fun a b => a.priority ≤ b.priority := by
  rw [inOrder, List.pairwise_map]
  have hsorted := (StableSort.pairwise_sort sortComparator_trans
    (fields.zipIdx.filter fun field => field.1.sort.isSome)).filter
      fun field => field.1.validSort.isSome
  refine hsorted.imp_of_mem fun {a b} ha hb hle => ?_
  rw [sortComparator, prio_eq (List.mem_filter.mp ha).2, prio_eq (List.mem_filter.mp hb).2] at hle
  exact Std.isLE_compare.mp hle

/-- Then the loop finds the priorities as it counts. -/
theorem priorities_inOrder (h : Numbered fields) :
    (inOrder fields).map FieldDef.priority =
      (List.range (declared fields).length).map Int.ofNat := by
  have hleft : ((inOrder fields).map FieldDef.priority).Pairwise (· ≤ ·) :=
    List.pairwise_map.mpr inOrder_pairwise
  have hright : ((List.range (declared fields).length).map Int.ofNat).Pairwise (· ≤ ·) :=
    List.pairwise_map.mpr (List.pairwise_le_range.imp fun h => Int.ofNat_le.mpr h)
  exact List.Perm.eq_of_pairwise (fun a b _ _ => Int.le_antisymm) hleft hright
    ((inOrder_perm.map _).trans h)

end Sorting

/-! ## The loop -/

section Looping

variable {fields : List FieldDef} {orders : List Order} {entries : List (FieldDef × Nat)}

def clearAll (fields : List FieldDef) (entries : List (FieldDef × Nat)) : List FieldDef :=
  entries.foldl (fun fields field => fields.modify field.2 FieldDef.clear) fields

theorem clear_clear (field : FieldDef) : field.clear.clear = field.clear := by
  unfold FieldDef.clear
  cases field.sort <;> rfl

theorem validSort_clear (field : FieldDef) : field.clear.validSort = none := by
  unfold FieldDef.clear FieldDef.validSort
  cases field.sort <;> rfl

theorem getElem?_clearAll (index : Nat) : (clearAll fields entries)[index]? =
    fields[index]?.map fun field => if index ∈ entries.map Prod.snd then field.clear else field := by
  induction entries generalizing fields with
  | nil => simp [clearAll]
  | cons entry entries ih =>
    have hstep : clearAll fields (entry :: entries) =
        clearAll (fields.modify entry.2 FieldDef.clear) entries := rfl
    rw [hstep, ih, List.getElem?_modify, Option.map_eq_map, Option.map_map]
    congr 1
    funext field
    by_cases hentry : entry.2 = index <;> by_cases hlater : index ∈ entries.map Prod.snd <;>
      simp_all [clear_clear, eq_comm]

/-- After the loop every field has lost its sort. -/
theorem clearAll_sortFields (fields : List FieldDef) :
    clearAll fields (sortFields fields) = fields.map FieldDef.clear := by
  refine List.ext_getElem? fun index => ?_
  rw [getElem?_clearAll, List.getElem?_map]
  cases hfield : fields[index]? with
  | none => rfl
  | some field =>
    simp only [Option.map_some]
    split
    · rfl
    · rename_i hnot
      have hsort : field.sort = none := by
        by_contra hsort
        refine hnot (List.mem_map.mpr ⟨(field, index), ?_, rfl⟩)
        rw [sortFields_perm.mem_iff, List.mem_filter]
        exact ⟨List.mk_mem_zipIdx_iff_getElem?.mpr hfield, Option.isSome_iff_ne_none.mpr hsort⟩
      rw [FieldDef.clear, hsort, Option.map_none, ← hsort]

theorem addOrder_none {field : FieldDef × Nat} (h : field.1.validSort = none) :
    addOrder (fields, orders) field = ((fields.modify field.2 FieldDef.clear, orders), none) := by
  simp [addOrder, h]

/-- There is a place for an order behind all the others. -/
theorem addOrder_last {field : FieldDef × Nat} {order : Order} (h : field.1.order = some order)
    (hpriority : field.1.priority = orders.length) :
    addOrder (fields, orders) field =
      ((fields.modify field.2 FieldDef.clear, orders ++ [order]), none) := by
  obtain ⟨⟨prio, direction, sort⟩, hvalid, hnew⟩ := Option.bind_eq_some_iff.mp h
  have hprio : prio = orders.length := by simpa [FieldDef.priority, hvalid] using hpriority
  simp only [addOrder, hvalid, hnew, hprio, Int.toNat_natCast, List.insertIdx_length_self]
  rw [if_pos ⟨Int.natCast_nonneg _, Int.le_refl _⟩]

/-- The loop over fields that declare the priorities it counts. -/
theorem foldUntil_addOrder
    (hnamed : ∀ field ∈ entries, field.1.validSort.isSome = true → field.1.order.isSome = true)
    (hpriorities : ((entries.filter fun field => field.1.validSort.isSome).map
      fun field => field.1.priority) =
        (List.range' orders.length (entries.filter fun field => field.1.validSort.isSome).length).map
          Int.ofNat) :
    foldUntil addOrder (fields, orders) entries =
      ((clearAll fields entries, orders ++ entries.filterMap (·.1.order)), none) := by
  induction entries generalizing fields orders with
  | nil => simp [foldUntil, clearAll]
  | cons field entries ih =>
    have hlater := fun other hother => hnamed other (List.mem_cons_of_mem field hother)
    cases hvalid : field.1.validSort with
    | none =>
      have horder : field.1.order = none := by rw [FieldDef.order, hvalid]; rfl
      rw [foldUntil_cons_ok (addOrder_none hvalid), ih hlater]
      · rw [List.filterMap_cons, horder]
        rfl
      · simpa [hvalid] using hpriorities
    | some valid =>
      obtain ⟨order, horder⟩ := Option.isSome_iff_exists.mp
        (hnamed field List.mem_cons_self (by rw [hvalid]; rfl))
      rw [List.filter_cons_of_pos (by rw [hvalid]; rfl), List.map_cons, List.length_cons,
        List.range'_succ, List.map_cons, List.cons.injEq] at hpriorities
      rw [foldUntil_cons_ok (addOrder_last horder hpriorities.1), ih hlater]
      · rw [List.filterMap_cons, horder, List.append_assoc]
        rfl
      · rw [hpriorities.2, List.length_append, List.length_singleton]

end Looping

/-! ## The calls -/

section Calls

variable {fields : List FieldDef} {pageable : PageRequest}

theorem filterMap_order (entries : List (FieldDef × Nat)) : entries.filterMap (·.1.order) =
    ((entries.filter fun field => field.1.validSort.isSome).map Prod.fst).filterMap
      FieldDef.order := by
  rw [List.filterMap_map, List.filterMap_filter]
  refine List.filterMap_congr fun field _ => ?_
  cases hvalid : field.1.validSort with
  | none => simp [FieldDef.order, hvalid]
  | some valid => rfl

theorem getDefaultSort_eq (hnumbered : Numbered fields) (hnamed : Named fields) :
    getDefaultSort fields =
      ((fields.map FieldDef.clear, (inOrder fields).filterMap FieldDef.order), none) := by
  have hentry : ∀ entry ∈ sortFields fields, entry.1.validSort.isSome = true →
      entry.1.order.isSome = true := by
    intro entry hentry hvalid
    refine hnamed entry.1 (inOrder_perm.mem_iff.mp (List.mem_map.mpr ⟨entry, ?_, rfl⟩))
    exact List.mem_filter.mpr ⟨hentry, hvalid⟩
  have hlength : ((sortFields fields).filter fun field => field.1.validSort.isSome).length =
      (declared fields).length := by
    rw [← inOrder_perm.length_eq, inOrder, List.length_map]
  have hpriorities := priorities_inOrder hnumbered
  rw [inOrder, List.map_map, ← hlength, List.range_eq_range'] at hpriorities
  have hloop : foldUntil addOrder (fields, []) (sortFields fields) =
      ((clearAll fields (sortFields fields), [] ++ (sortFields fields).filterMap (·.1.order)), none) :=
    foldUntil_addOrder hentry hpriorities
  rw [getDefaultSort, hloop, clearAll_sortFields, List.nil_append, filterMap_order]
  rfl

theorem isDefaultSort (hnumbered : Numbered fields) (hnamed : Named fields) :
    IsDefaultSort fields ((inOrder fields).filterMap FieldDef.order) := by
  refine ⟨inOrder fields, inOrder_perm, ?_, ?_⟩
  · rw [← List.pairwise_map (f := FieldDef.priority) (R := fun a b => a < b),
      priorities_inOrder hnumbered, List.pairwise_map]
    exact List.pairwise_lt_range.imp Int.ofNat_lt.mpr
  · have horder : ∀ field ∈ inOrder fields, field.order.isSome = true :=
      fun field hfield => hnamed field (inOrder_perm.mem_iff.mp hfield)
    generalize inOrder fields = sorted at horder
    induction sorted with
    | nil => rfl
    | cons field later ih =>
      obtain ⟨order, hfield⟩ := Option.isSome_iff_exists.mp (horder field List.mem_cons_self)
      rw [List.filterMap_cons, hfield, List.map_cons, List.map_cons, hfield,
        ih fun other hother => horder other (List.mem_cons_of_mem field hother)]

/-- What was used up declares nothing. -/
theorem getDefaultSort_clear : getDefaultSort (fields.map FieldDef.clear) =
    ((fields.map FieldDef.clear, []), none) := by
  have hdeclared : declared (fields.map FieldDef.clear) = [] := by
    rw [declared, List.filter_eq_nil_iff]
    intro field hfield
    obtain ⟨field, -, rfl⟩ := List.mem_map.mp hfield
    simp [validSort_clear]
  have hempty : inOrder (fields.map FieldDef.clear) = [] :=
    List.perm_nil.mp (hdeclared ▸ inOrder_perm)
  rw [getDefaultSort_eq, hempty, List.map_map]
  · have hclear : FieldDef.clear ∘ FieldDef.clear = FieldDef.clear := funext clear_clear
    rw [hclear]
    rfl
  · rw [Numbered, hdeclared]
    exact .nil
  · rw [Named, hdeclared]
    intro field hfield
    cases hfield

/-- A page without a sort marks no field. -/
theorem setPageable_unsorted (h : pageable.sort = []) (processor : FieldProcessor) :
    processor.setPageable (some pageable) = ⟨processor.metaData, some pageable⟩ := by
  unfold FieldProcessor.setPageable
  cases processor.metaData with
  | none => rfl
  | some metaData => simp [h]

/-- One call. -/
theorem getPageable_eq {metaData : MetaData} {cleared : List FieldDef} {orders : List Order}
    (h : pageable.sort = []) (hsort : getDefaultSort metaData.fields = ((cleared, orders), none)) :
    FieldProcessor.getPageable ⟨some metaData, some pageable⟩ =
      (⟨some { metaData with fields := cleared }, some pageable⟩,
        .ok (some { pageable with sort := orders })) := by
  simp only [FieldProcessor.getPageable, getSort, if_pos h, hsort]

/-- The calls that follow leave everything as it is. -/
theorem afterCalls_succ {processor : FieldProcessor} {metaData : MetaData}
    (h : pageable.sort = [])
    (hfirst : (processor.afterCalls pageable 1) = ⟨some { metaData with
      fields := metaData.fields.map FieldDef.clear }, some pageable⟩) (calls : Nat) :
    processor.afterCalls pageable (calls + 1) = ⟨some { metaData with
      fields := metaData.fields.map FieldDef.clear }, some pageable⟩ := by
  induction calls with
  | zero => exact hfirst
  | succ calls ih =>
    rw [FieldProcessor.afterCalls, ih, getPageable_eq h getDefaultSort_clear]

/-- Where the fields declare the priorities `0, 1, 2, …`, the first call returns the sort that they
declare, and every other one the page as it was asked for. -/
theorem getPageable_default (processor : FieldProcessor) (pageable : PageRequest)
    (hunsorted : pageable.sort = []) (hnumbered : Numbered processor.fields)
    (hnamed : Named processor.fields) :
    ∃ orders, IsDefaultSort processor.fields orders ∧
      (processor.afterCalls pageable 0).getPageable.2 = .ok (some { pageable with sort := orders }) ∧
      ∀ calls, (processor.afterCalls pageable (calls + 1)).getPageable.2 = .ok (some pageable) := by
  have hpage : ({ pageable with sort := [] } : PageRequest) = pageable := by
    cases pageable
    cases hunsorted
    rfl
  have hstart : processor.afterCalls pageable 0 = ⟨processor.metaData, some pageable⟩ :=
    setPageable_unsorted hunsorted processor
  refine ⟨_, isDefaultSort hnumbered hnamed, ?_⟩
  cases hmetaData : processor.metaData with
  | none =>
    have hfields : processor.fields = [] := by rw [FieldProcessor.fields, hmetaData]; rfl
    have hcalls : ∀ calls, processor.afterCalls pageable calls = ⟨none, some pageable⟩ := by
      intro calls
      induction calls with
      | zero => rw [hstart, hmetaData]
      | succ calls ih => rw [FieldProcessor.afterCalls, ih]; rfl
    simp only [hcalls, hfields, FieldProcessor.getPageable, if_pos hunsorted, hpage]
    exact ⟨by rw [← hpage]; rfl, fun _ => trivial⟩
  | some metaData =>
    have hfields : processor.fields = metaData.fields := by
      rw [FieldProcessor.fields, hmetaData]; rfl
    rw [hfields] at hnumbered hnamed ⊢
    have hsort := getDefaultSort_eq hnumbered hnamed
    have hfirst : processor.afterCalls pageable 1 = ⟨some { metaData with
        fields := metaData.fields.map FieldDef.clear }, some pageable⟩ := by
      rw [FieldProcessor.afterCalls, hstart, hmetaData, getPageable_eq hunsorted hsort]
    constructor
    · rw [hstart, hmetaData, getPageable_eq hunsorted hsort]
    · intro calls
      rw [afterCalls_succ hunsorted hfirst, getPageable_eq hunsorted getDefaultSort_clear, hpage]

section Example

def sortedField (name : String) (order : SortOrder) (prio : Int) : FieldDef where
  name
  binding := some name
  sort := some { order := some order, prio := some prio }

def processor (fields : List FieldDef) : FieldProcessor := ⟨some ⟨none, fields⟩, none⟩

def firstPage : PageRequest := ⟨0, 20, [], by decide, by decide⟩

theorem getPageable_default_persons : ∃ orders,
    IsDefaultSort [sortedField "name" .desc 1, sortedField "firstname" .asc 0] orders ∧
      ((processor [sortedField "name" .desc 1, sortedField "firstname" .asc 0]).afterCalls
        firstPage 0).getPageable.2 = .ok (some { firstPage with sort := orders }) ∧
      ∀ calls, ((processor [sortedField "name" .desc 1, sortedField "firstname" .asc 0]).afterCalls
        firstPage (calls + 1)).getPageable.2 = .ok (some firstPage) :=
  getPageable_default (processor [sortedField "name" .desc 1, sortedField "firstname" .asc 0])
    firstPage rfl (by decide +kernel) (by decide +kernel)

/-- A priority that leaves a gap is an exception, and a second call knows of no sort. -/
theorem sort_not_returned_again :
    ((processor [sortedField "name" .asc 1]).afterCalls firstPage 0).getPageable.2 =
        .error .indexOutOfBounds ∧
      ((processor [sortedField "name" .asc 0]).afterCalls firstPage 1).getPageable.2 ≠
        ((processor [sortedField "name" .asc 0]).afterCalls firstPage 0).getPageable.2 := by
  decide +kernel

end Example

end Calls

end DefaultSort
end Fields
end AppNG
