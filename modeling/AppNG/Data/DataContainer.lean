import AppNG.Lib.JavaInt
import AppNG.Lib.Paging
import AppNG.Lib.StableSort

/-!
# Data.DataContainer

`DataContainer.setPage`: the items are sorted by a chain of comparators, and a page is cut out.

The values of one property can be compared with each other, as `Beans` has it. All numbers of the
code are an `int`, but for the offset of a page, which is a `long`.

* `chain_sign`: the chain says what the orders say where the first of them that tells two items apart
  is respected.
* `sort_iff`: no multiplication overflows and the items are sorted as ordered if and only if that is
  so for all items.
* `setPage_eq`: the page that is cut out.
* `setsPages_iff`: both together.
-/

namespace AppNG
namespace Data

open StableSort

/-- A sort order of Spring Data. -/
structure Order (P : Type) where
  property : P
  ascending : Bool
  ignoreCase : Bool

structure Pageable (P : Type) where
  pageNumber : Nat
  pageSize : Nat
  sort : List (Order P)

/-- A `PageImpl` with what its `PageRequest` says. -/
structure Page (I : Type) where
  content : List I
  number : Nat
  size : Nat
  total : Nat
  deriving DecidableEq, Repr

def minInt : Int := -2147483648

/-- The order of a result of `compareTo`. -/
def sign (n : Int) : Ordering := compare n 0

/-- What items have to say for their properties, and how `compareTo` compares two values of one. -/
structure Beans (I P V : Type) where
  /-- none: null, or no readable property -/
  getPropertyValue : I → P → Option V
  /-- the values of the property are strings -/
  isString : P → Bool
  compareTo : P → V → V → Int
  compareToIgnoreCase : P → V → V → Int
  compareTo_int : ∀ p a b, minInt ≤ compareTo p a b ∧ compareTo p a b ≤ Java.maxInt
  compareTo_trans : ∀ p, Std.TransCmp fun a b => sign (compareTo p a b)
  compareToIgnoreCase_trans : ∀ p, Std.TransCmp fun a b => sign (compareToIgnoreCase p a b)

variable {I P V : Type} (beans : Beans I P V)

/-! ## The code -/

def Order.factor (order : Order P) : Int := if order.ascending then 1 else -1

/-- The strings are compared without their case. -/
def Order.Folds (order : Order P) : Bool := order.ignoreCase && beans.isString order.property

/-- The comparator that is added to the chain for an order. -/
def Order.compare (order : Order P) (o1 o2 : I) : Int :=
  match beans.getPropertyValue o1 order.property, beans.getPropertyValue o2 order.property with
  | some p1, some p2 =>
    if order.Folds beans then beans.compareToIgnoreCase order.property p1 p2
    else Java.wrap (beans.compareTo order.property p1 p2 * order.factor)
  | none, some _ => -1 * order.factor
  | some _, none => 1 * order.factor
  | none, none => 0

/-- `ComparatorChain.compare` -/
def chain : List (Order P) → I → I → Int
  | [], _, _ => 0
  | order :: orders, o1, o2 =>
    let retval := order.compare beans o1 o2
    if retval ≠ 0 then retval else chain orders o1 o2

/-- `Collections.sort` is stable. -/
def doSort (items : List I) (orders : List (Order P)) : List I :=
  if !orders.isEmpty && !items.isEmpty then sort (fun a b => sign (chain beans orders a b)) items
  else items

/-- None: `subList` throws. -/
def setPage (items : List I) (pageable : Pageable P) (skipSort : Bool) : Option (Page I) :=
  let sortedItems := if skipSort then items else doSort beans items pageable.sort
  let size : Int := sortedItems.length
  let offset : Int := (pageable.pageNumber * pageable.pageSize : Nat)
  let fromIndex := Java.wrap (if offset < size then offset else 0)
  let toIndex := Java.wrap (fromIndex + pageable.pageSize)
  let toIndex := if size < toIndex then size else toIndex
  (Paging.subList sortedItems fromIndex toIndex).map fun content =>
    { content
      number := if fromIndex = 0 then 0 else pageable.pageNumber
      size := pageable.pageSize
      total := sortedItems.length }

/-! ## What it should do -/

/-- The items by the value of a property, those without one first. -/
def Order.ascendingBy (order : Order P) (a b : I) : Ordering :=
  nullsFirst
    (fun p1 p2 => sign <|
      if order.Folds beans then beans.compareToIgnoreCase order.property p1 p2
      else beans.compareTo order.property p1 p2)
    (beans.getPropertyValue a order.property) (beans.getPropertyValue b order.property)

def Order.cmp (order : Order P) (a b : I) : Ordering :=
  if order.ascending then order.ascendingBy beans a b else order.ascendingBy beans b a

/-- The stable lexicographic sort. -/
def sorted (orders : List (Order P)) (items : List I) : List I :=
  sort (lex (orders.map (Order.cmp beans))) items

/-- The comparator of the order multiplies without an overflow. -/
def Order.Exact (order : Order P) (a b : I) : Prop :=
  ∀ p1 p2, beans.getPropertyValue a order.property = some p1 →
    beans.getPropertyValue b order.property = some p2 → order.Folds beans = false →
      Java.wrap (beans.compareTo order.property p1 p2 * order.factor) =
        beans.compareTo order.property p1 p2 * order.factor

/-- So do all comparators that the chain comes to. -/
def ComparesExactly : List (Order P) → I → I → Prop
  | [], _, _ => True
  | order :: orders, a, b =>
    order.Exact beans a b ∧ (order.compare beans a b = 0 → ComparesExactly orders a b)

/-- Items that fit into a list, and a page size that is allowed. -/
structure Listing (I P : Type) where
  items : List I
  pageSize : Nat
  orders : List (Order P)
  items_le : (items.length : Int) ≤ Java.maxInt
  pageSize_pos : 0 < pageSize
  pageSize_le : (pageSize : Int) ≤ Java.maxInt

def Listing.getPage (listing : Listing I P) (page : Nat) : Option (Page I) :=
  setPage beans listing.items ⟨page, listing.pageSize, listing.orders⟩ false

/-- A page of the sorted items. -/
def Listing.page (listing : Listing I P) (page : Nat) : Page I :=
  ⟨Paging.chunk listing.pageSize page (sorted beans listing.orders listing.items), page,
    listing.pageSize, listing.items.length⟩

structure SetsPages (listing : Listing I P) : Prop where
  compares_exactly :
    ∀ a ∈ listing.items, ∀ b ∈ listing.items, ComparesExactly beans listing.orders a b
  in_range : ∀ page, page * listing.pageSize < listing.items.length →
    listing.getPage beans page = some (listing.page beans page)
  out_of_range : ∀ page, listing.items.length ≤ page * listing.pageSize →
    listing.getPage beans page = some (listing.page beans 0)
  partition : (List.range (Paging.count listing.pageSize listing.items)).flatMap
      (fun page => ((listing.getPage beans page).map (·.content)).getD []) =
    sorted beans listing.orders listing.items

/-- The first order that tells two items apart. -/
def deciding (orders : List (Order P)) (a b : I) : Option (Order P) :=
  orders.find? fun order => order.cmp beans a b != .eq

/-- The direction of the order is respected: it is ascending, or a value is missing, or it is turned
around without an overflow, which is not done for strings without their case. -/
def Order.Respected (order : Order P) (a b : I) : Prop :=
  order.ascending = true ∨
    ∀ p1 p2, beans.getPropertyValue a order.property = some p1 →
      beans.getPropertyValue b order.property = some p2 →
        order.Folds beans = false ∧ beans.compareTo order.property p1 p2 ≠ minInt

/-! ## Signs -/

theorem sign_eq_iff {n : Int} : sign n = .eq ↔ n = 0 := compare_eq_iff_eq

theorem sign_neg (n : Int) : sign (-n) = (sign n).swap := by
  unfold sign
  rcases lt_trichotomy n 0 with h | rfl | h
  · rw [compare_lt_iff_lt.mpr h, compare_gt_iff_gt.mpr (by omega : -n > 0)]
    rfl
  · rfl
  · rw [compare_gt_iff_gt.mpr h, compare_lt_iff_lt.mpr (by omega : -n < 0)]
    rfl

theorem swap_ne_eq {o : Ordering} (h : o ≠ .eq) : o.swap.isLE ≠ o.isLE := by
  cases o with
  | lt => decide
  | eq => exact absurd rfl h
  | gt => decide

theorem wrap_neg {n : Int} (h₁ : minInt ≤ n) (h₂ : n ≤ Java.maxInt) :
    Java.wrap (-n) = if n = minInt then minInt else -n := by
  unfold minInt at *
  unfold Java.maxInt at h₂
  by_cases hmin : n = -2147483648
  · rw [if_pos hmin, hmin]
    rfl
  · rw [if_neg hmin]
    exact Java.wrap_of_range (by omega) (by unfold Java.maxInt; omega)

section Comparators

variable {beans} {order : Order P} {orders : List (Order P)} {a b : I}

/-! ## One order -/

theorem ascendingBy_trans (order : Order P) : Std.TransCmp (order.ascendingBy beans) := by
  have hvalues : Std.TransCmp fun p1 p2 => sign <|
      if order.Folds beans then beans.compareToIgnoreCase order.property p1 p2
      else beans.compareTo order.property p1 p2 := by
    cases order.Folds beans with
    | true => exact beans.compareToIgnoreCase_trans order.property
    | false => exact beans.compareTo_trans order.property
  exact comap_trans (nullsFirst_trans hvalues) fun a => beans.getPropertyValue a order.property

theorem cmp_trans (order : Order P) : Std.TransCmp (order.cmp beans) := by
  have h : Std.TransCmp (order.ascendingBy beans) := ascendingBy_trans order
  unfold Order.cmp
  cases order.ascending with
  | true => exact h
  | false => exact h.opposite

/-- A descending order turns the comparison around. -/
theorem cmp_eq (order : Order P) (a b : I) :
    order.cmp beans a b =
      if order.ascending then order.ascendingBy beans a b else (order.ascendingBy beans a b).swap := by
  unfold Order.cmp
  rw [(ascendingBy_trans order).eq_swap (a := b)]

/-- The comparator of an order without an overflow: strings without their case are never turned
around. -/
def Order.said (beans : Beans I P V) (order : Order P) (a b : I) : Ordering :=
  if order.ascending = true ∨ order.Folds beans = true ∧
      (beans.getPropertyValue a order.property).isSome ∧
      (beans.getPropertyValue b order.property).isSome then
    order.ascendingBy beans a b
  else (order.ascendingBy beans a b).swap

theorem compare_sign (h : order.Exact beans a b) :
    sign (order.compare beans a b) = order.said beans a b := by
  unfold Order.compare Order.said Order.ascendingBy
  cases ha : beans.getPropertyValue a order.property with
  | none =>
    cases hb : beans.getPropertyValue b order.property with
    | none => cases order.ascending <;> simp [nullsFirst, sign]
    | some p2 => cases hasc : order.ascending <;> simp [nullsFirst, Order.factor, hasc] <;> rfl
  | some p1 =>
    cases hb : beans.getPropertyValue b order.property with
    | none => cases hasc : order.ascending <;> simp [nullsFirst, Order.factor, hasc] <;> rfl
    | some p2 =>
      cases hfolds : order.Folds beans with
      | true => simp [nullsFirst]
      | false =>
        have hexact := h p1 p2 ha hb hfolds
        cases hasc : order.ascending with
        | true =>
          simp only [Order.factor, hasc, if_true, Int.mul_one] at hexact
          simp [nullsFirst, hexact, Order.factor, hasc]
        | false =>
          simp only [Order.factor, hasc, Bool.false_eq_true, if_false, Int.mul_neg, Int.mul_one] at hexact
          simp [nullsFirst, hexact, Order.factor, hasc, sign_neg]

theorem said_trans (order : Order P) : Std.TransCmp (order.said beans) := by
  cases hasc : order.ascending with
  | true =>
    have hsaid : order.said beans = order.ascendingBy beans := by
      funext a b
      exact if_pos (Or.inl hasc)
    rw [hsaid]
    exact ascendingBy_trans order
  | false =>
    cases hfolds : order.Folds beans with
    | false =>
      have hsaid : order.said beans = order.cmp beans := by
        funext a b
        simp [Order.said, cmp_eq, hasc, hfolds]
      rw [hsaid]
      exact cmp_trans order
    | true =>
      -- the values are in order, those without one last
      have hlast : Std.TransCmp fun p1 p2 => nullsFirst
          (fun p1 p2 => sign (beans.compareToIgnoreCase order.property p2 p1)) p2 p1 :=
        (nullsFirst_trans (beans.compareToIgnoreCase_trans order.property).opposite).opposite
      have hsaid : order.said beans = fun a b => nullsFirst
          (fun p1 p2 => sign (beans.compareToIgnoreCase order.property p2 p1))
          (beans.getPropertyValue b order.property) (beans.getPropertyValue a order.property) := by
        funext a b
        unfold Order.said Order.ascendingBy
        cases beans.getPropertyValue a order.property <;>
          cases beans.getPropertyValue b order.property <;> simp [nullsFirst, hasc, hfolds]
      rw [hsaid]
      exact comap_trans hlast fun a => beans.getPropertyValue a order.property

theorem said_eq_iff : order.said beans a b = .eq ↔ order.cmp beans a b = .eq := by
  rw [cmp_eq]
  unfold Order.said
  split <;> split <;> simp

/-- The comparator says what was ordered, or the opposite. -/
theorem said_eq_cmp_iff (h : order.cmp beans a b ≠ .eq) :
    ((order.said beans a b).isLE = (order.cmp beans a b).isLE) ↔
      (order.ascending = true ∨ ∀ p1 p2, beans.getPropertyValue a order.property = some p1 →
        beans.getPropertyValue b order.property = some p2 → order.Folds beans = false) := by
  rw [cmp_eq] at h ⊢
  unfold Order.said
  cases hasc : order.ascending with
  | true => simp
  | false =>
    have hne : order.ascendingBy beans a b ≠ .eq := by
      intro heq
      rw [hasc, heq] at h
      exact h rfl
    have hopposite := swap_ne_eq hne
    cases hfolds : order.Folds beans with
    | false => simp
    | true =>
      cases ha : beans.getPropertyValue a order.property with
      | none => simp
      | some p1 =>
        cases hb : beans.getPropertyValue b order.property with
        | none => simp
        | some p2 => simpa using hopposite.symm

/-- A multiplication overflows where the least number is turned around. -/
theorem exact_iff :
    order.Exact beans a b ↔ (order.ascending = true ∨
      ∀ p1 p2, beans.getPropertyValue a order.property = some p1 →
        beans.getPropertyValue b order.property = some p2 → order.Folds beans = false →
          beans.compareTo order.property p1 p2 ≠ minInt) := by
  unfold Order.Exact Order.factor
  cases order.ascending with
  | true =>
    refine iff_of_true (fun p1 p2 _ _ _ => ?_) (Or.inl rfl)
    obtain ⟨hmin, hmax⟩ := beans.compareTo_int order.property p1 p2
    rw [if_pos rfl, Int.mul_one]
    exact Java.wrap_of_range hmin hmax
  | false =>
    simp only [Bool.false_eq_true, if_false, false_or, Int.mul_neg, Int.mul_one]
    refine forall₂_congr fun p1 p2 => forall₃_congr fun _ _ _ => ?_
    obtain ⟨hmin, hmax⟩ := beans.compareTo_int order.property p1 p2
    rw [wrap_neg hmin hmax]
    unfold minInt
    split
    · omega
    · simp [*]

/-- An order that does not tell two items apart multiplies zero. -/
theorem exact_of_eq (h : order.cmp beans a b = .eq) : order.Exact beans a b := by
  refine exact_iff.mpr (or_iff_not_imp_left.mpr fun hasc p1 p2 ha hb hfolds hmin => ?_)
  rw [cmp_eq, if_neg hasc] at h
  simp [Order.ascendingBy, ha, hb, nullsFirst, hfolds, hmin, minInt, sign] at h

theorem compare_eq_zero_iff (h : order.Exact beans a b) :
    order.compare beans a b = 0 ↔ order.cmp beans a b = .eq := by
  rw [← said_eq_iff, ← compare_sign h, sign_eq_iff]

/-! ## All orders -/

theorem comparesExactly_iff :
    ComparesExactly beans orders a b ↔
      ∀ order, deciding beans orders a b = some order → order.Exact beans a b := by
  induction orders with
  | nil => exact iff_of_true trivial (by rintro _ ⟨⟩)
  | cons order orders ih =>
    rw [ComparesExactly, deciding, List.find?_cons]
    by_cases heq : order.cmp beans a b = .eq
    · have hexact : order.Exact beans a b := exact_of_eq heq
      rw [and_iff_right hexact, imp_iff_right ((compare_eq_zero_iff hexact).mpr heq), ih, heq]
      exact Iff.rfl
    · have hfound : (order.cmp beans a b != .eq) = true := bne_iff_ne.mpr heq
      rw [hfound]
      constructor
      · rintro ⟨hexact, -⟩ _ ⟨rfl⟩
        exact hexact
      · intro h
        have hexact : order.Exact beans a b := h order rfl
        exact ⟨hexact, fun hzero => absurd ((compare_eq_zero_iff hexact).mp hzero) heq⟩

/-- What all orders say is what the first says that tells two items apart. -/
theorem lex_cmp (orders : List (Order P)) (a b : I) :
    lex (orders.map (Order.cmp beans)) a b =
      ((deciding beans orders a b).map fun order => order.cmp beans a b).getD .eq := by
  rw [lex_eq, List.find?_map, Option.map_map]
  rfl

theorem lex_said (orders : List (Order P)) (a b : I) :
    lex (orders.map (Order.said beans)) a b =
      ((deciding beans orders a b).map fun order => order.said beans a b).getD .eq := by
  have hsame : ((fun cmp => cmp a b != .eq) ∘ Order.said beans) =
      fun order : Order P => order.cmp beans a b != .eq := by
    funext order
    rw [Function.comp, Bool.eq_iff_iff, bne_iff_ne, bne_iff_ne, ne_eq, said_eq_iff]
  rw [lex_eq, List.find?_map, Option.map_map, hsame]
  rfl

theorem chain_sign (h : ComparesExactly beans orders a b) :
    sign (chain beans orders a b) = lex (orders.map (Order.said beans)) a b := by
  induction orders with
  | nil => rfl
  | cons order orders ih =>
    obtain ⟨hexact, hrest⟩ := h
    rw [chain, List.map_cons, lex, compareLex, ← compare_sign hexact]
    by_cases hzero : order.compare beans a b = 0
    · simp only [hzero, ne_eq, not_true_eq_false, if_false]
      exact ih (hrest hzero)
    · have hne : sign (order.compare beans a b) ≠ .eq := mt sign_eq_iff.mp hzero
      simp only [ne_eq, hzero, not_false_eq_true, if_true]
      cases hsign : sign (order.compare beans a b) with
      | eq => exact absurd hsign hne
      | _ => rfl

theorem lex_said_trans (orders : List (Order P)) :
    Std.TransCmp (lex (orders.map (Order.said beans))) := by
  refine lex_trans fun cmp hcmp => ?_
  obtain ⟨order, -, rfl⟩ := List.mem_map.mp hcmp
  exact said_trans order

theorem lex_cmp_trans (orders : List (Order P)) :
    Std.TransCmp (lex (orders.map (Order.cmp beans))) := by
  refine lex_trans fun cmp hcmp => ?_
  obtain ⟨order, -, rfl⟩ := List.mem_map.mp hcmp
  exact cmp_trans order

theorem deciding_swap (orders : List (Order P)) (a b : I) :
    deciding beans orders a b = deciding beans orders b a := by
  have hsame : (fun order : Order P => order.cmp beans a b != .eq) =
      fun order => order.cmp beans b a != .eq := by
    funext order
    rw [(cmp_trans order).eq_swap (a := b)]
    cases order.cmp beans a b <;> rfl
  rw [deciding, hsame]
  rfl

theorem cmp_of_deciding (h : deciding beans orders a b = some order) :
    order.cmp beans a b ≠ .eq := by
  have hfound := List.find?_some h
  exact bne_iff_ne.mp hfound

theorem ne_of_deciding (h : deciding beans orders a b = some order) : a ≠ b := by
  rintro rfl
  have htrans : Std.TransCmp (order.cmp beans) := cmp_trans order
  exact cmp_of_deciding h Std.ReflCmp.compare_self

theorem respected_iff :
    order.Respected beans a b ↔ order.Exact beans a b ∧
      (order.ascending = true ∨ ∀ p1 p2, beans.getPropertyValue a order.property = some p1 →
        beans.getPropertyValue b order.property = some p2 → order.Folds beans = false) := by
  rw [exact_iff, ← or_and_left, Order.Respected]
  refine or_congr_right ⟨fun h => ⟨?_, ?_⟩, ?_⟩
  · intro p1 p2 ha hb _
    exact (h p1 p2 ha hb).2
  · intro p1 p2 ha hb
    exact (h p1 p2 ha hb).1
  · rintro ⟨hmin, hfolds⟩ p1 p2 ha hb
    exact ⟨hfolds p1 p2 ha hb, hmin p1 p2 ha hb (hfolds p1 p2 ha hb)⟩

/-- What the orders say in the code is what they should say. -/
theorem lex_isLE_iff (h : deciding beans orders a b = some order) :
    ((lex (orders.map (Order.said beans)) a b).isLE =
        (lex (orders.map (Order.cmp beans)) a b).isLE) ↔
      (order.ascending = true ∨ ∀ p1 p2, beans.getPropertyValue a order.property = some p1 →
        beans.getPropertyValue b order.property = some p2 → order.Folds beans = false) := by
  rw [lex_said, lex_cmp, h]
  exact said_eq_cmp_iff (cmp_of_deciding h)

end Comparators

section Sorting

variable {beans} {orders : List (Order P)} {items : List I}

/-! ## Sorting -/

theorem doSort_eq (items : List I) (orders : List (Order P)) :
    doSort beans items orders = sort (fun a b => sign (chain beans orders a b)) items := by
  cases orders with
  | nil =>
    have hsame : (sort (fun a b => sign (chain beans [] a b)) items) = items :=
      List.Pairwise.insertionSort_eq (List.pairwise_of_forall fun _ _ => rfl)
    exact hsame.symm
  | cons order orders =>
    cases items with
    | nil => rfl
    | cons a items => rfl

theorem length_doSort (items : List I) (orders : List (Order P)) :
    (doSort beans items orders).length = items.length := by
  rw [doSort_eq]
  exact List.length_insertionSort _ items

theorem length_sorted (items : List I) (orders : List (Order P)) :
    (sorted beans orders items).length = items.length :=
  List.length_insertionSort _ items

theorem mem_of_pair {a b : I} (h : [a, b].Sublist items) : a ∈ items ∧ b ∈ items :=
  ⟨h.subset List.mem_cons_self, h.subset (List.mem_cons_of_mem a List.mem_cons_self)⟩

/-- Without an overflow the code sorts by what its comparators say. -/
theorem doSort_said
    (h : ∀ a ∈ items, ∀ b ∈ items, ComparesExactly beans orders a b) :
    doSort beans items orders = sort (lex (orders.map (Order.said beans))) items := by
  rw [doSort_eq]
  refine sort_congr fun a b hab => ?_
  obtain ⟨ha, hb⟩ := mem_of_pair hab
  rw [chain_sign (h a ha b hb)]

theorem sort_iff :
    ((∀ a ∈ items, ∀ b ∈ items, ComparesExactly beans orders a b) ∧
        doSort beans items orders = sorted beans orders items) ↔
      ∀ a ∈ items, ∀ b ∈ items, ∀ order, deciding beans orders a b = some order →
        order.Respected beans a b := by
  constructor
  · rintro ⟨hexact, hsort⟩ a ha b hb order hdeciding
    rw [doSort_said hexact] at hsort
    have hagree := (sort_eq_iff (lex_said_trans orders) (lex_cmp_trans orders)).mp hsort
    refine respected_iff.mpr ⟨comparesExactly_iff.mp (hexact a ha b hb) order hdeciding, ?_⟩
    rcases pair_sublist_of_ne ha hb (ne_of_deciding hdeciding) with hab | hba
    · exact (lex_isLE_iff hdeciding).mp (hagree a b hab)
    · rw [deciding_swap] at hdeciding
      rcases (lex_isLE_iff hdeciding).mp (hagree b a hba) with hasc | hfolds
      · exact Or.inl hasc
      · exact Or.inr fun p1 p2 h₁ h₂ => hfolds p2 p1 h₂ h₁
  · intro h
    have hexact : ∀ a ∈ items, ∀ b ∈ items, ComparesExactly beans orders a b := by
      intro a ha b hb
      exact comparesExactly_iff.mpr fun order hdeciding =>
        (respected_iff.mp (h a ha b hb order hdeciding)).1
    refine ⟨hexact, ?_⟩
    rw [doSort_said hexact]
    refine sort_congr fun a b hab => ?_
    obtain ⟨ha, hb⟩ := mem_of_pair hab
    cases hdeciding : deciding beans orders a b with
    | none => rw [lex_said, lex_cmp, hdeciding]; rfl
    | some order =>
      exact (lex_isLE_iff hdeciding).mpr (respected_iff.mp (h a ha b hb order hdeciding)).2

end Sorting

section Pages

variable {beans} {listing : Listing I P}

/-! ## Pages -/

/-- The page that is cut out of the items in the order they were sorted in. A page that does not start
among them is the first one. -/
theorem setPage_eq (listing : Listing I P) (page : Nat) :
    listing.getPage beans page =
      if page * listing.pageSize < listing.items.length then
        if ((page * listing.pageSize : Nat) : Int) + listing.pageSize ≤ Java.maxInt then
          some ⟨Paging.chunk listing.pageSize page (doSort beans listing.items listing.orders), page,
            listing.pageSize, listing.items.length⟩
        else none
      else some ⟨Paging.chunk listing.pageSize 0 (doSort beans listing.items listing.orders), 0,
        listing.pageSize, listing.items.length⟩ := by
  obtain ⟨items, size, orders, hitems, hpos, hsize⟩ := listing
  have hlength : (doSort beans items orders).length = items.length := length_doSort items orders
  unfold Listing.getPage setPage
  simp only [Bool.false_eq_true, if_false, hlength, Int.ofNat_lt]
  by_cases hrange : page * size < items.length
  · have hstart : Java.wrap ((page * size : Nat) : Int) = (page * size : Nat) :=
      Java.wrap_of_range (by omega) (by omega)
    simp only [if_pos hrange, hstart]
    by_cases hstop : ((page * size : Nat) : Int) + size ≤ Java.maxInt
    · have hsub : Paging.subList (doSort beans items orders) (page * size : Nat)
          (if (items.length : Int) < ((page * size : Nat) : Int) + size then (items.length : Int)
            else ((page * size : Nat) : Int) + size) =
          some (Paging.chunk size page (doSort beans items orders)) :=
        Paging.subList_chunk (by omega) (by split <;> omega)
      have hnumber : (if ((page * size : Nat) : Int) = 0 then 0 else page) = page := by
        split
        · rename_i hzero
          have hor : page = 0 ∨ size = 0 := Nat.mul_eq_zero.mp (by omega)
          omega
        · rfl
      rw [if_pos hstop, Java.wrap_of_range (by omega) hstop, hsub]
      simp only [Option.map_some, hnumber]
    · have hneg : Java.wrap (((page * size : Nat) : Int) + size) < 0 := by
        unfold Java.wrap
        unfold Java.maxInt at *
        omega
      have hstart' : ¬ (items.length : Int) < Java.wrap (((page * size : Nat) : Int) + size) := by omega
      rw [if_neg hstop, if_neg hstart', Paging.subList_neg (by omega) hneg, Option.map_none]
  · have hsub : Paging.subList (doSort beans items orders) 0
        (if (items.length : Int) < (size : Int) then (items.length : Int) else (size : Int)) =
        some (Paging.chunk size 0 (doSort beans items orders)) := by
      have hchunk : Paging.subList (doSort beans items orders) (0 * size : Nat)
          (if (items.length : Int) < (size : Int) then (items.length : Int) else (size : Int)) =
          some (Paging.chunk size 0 (doSort beans items orders)) :=
        Paging.subList_chunk (by omega) (by split <;> omega)
      simpa using hchunk
    have hstop : Java.wrap (0 + (size : Int)) = size := by
      rw [Int.zero_add]
      exact Java.wrap_of_range (by omega) hsize
    simp only [if_neg hrange, Java.wrap_zero, hstop, hsub, Option.map_some, if_true]

/-- The last page ends at an `int` even if it is filled up. -/
def Listing.Fits (listing : Listing I P) : Prop :=
  Paging.count listing.pageSize listing.items ≤ 1 ∨
    ((Paging.count listing.pageSize listing.items * listing.pageSize : Nat) : Int) ≤ Java.maxInt

theorem fits_iff (listing : Listing I P) :
    listing.Fits ↔ ∀ page, page * listing.pageSize < listing.items.length →
      ((page * listing.pageSize : Nat) : Int) + listing.pageSize ≤ Java.maxInt := by
  have hpages : ∀ page, page * listing.pageSize < listing.items.length ↔
      page < Paging.count listing.pageSize listing.items :=
    fun page => (Paging.lt_count_iff listing.pageSize_pos).symm
  have hsize := listing.pageSize_le
  unfold Listing.Fits
  constructor
  · intro h page hpage
    rw [hpages] at hpage
    rcases h with hone | hfits
    · obtain rfl : page = 0 := by omega
      omega
    · have hle : (page + 1) * listing.pageSize ≤
          Paging.count listing.pageSize listing.items * listing.pageSize :=
        Nat.mul_le_mul_right _ hpage
      rw [Nat.succ_mul] at hle
      omega
  · intro h
    by_cases hone : Paging.count listing.pageSize listing.items ≤ 1
    · exact Or.inl hone
    · obtain ⟨page, hpage⟩ : ∃ page, Paging.count listing.pageSize listing.items = page + 1 :=
        ⟨_, (Nat.sub_add_cancel (by omega)).symm⟩
      have hlast := h page ((hpages page).mpr (by omega))
      rw [hpage, Nat.succ_mul]
      exact Or.inr (by omega)

theorem getPage_of_sorted (h : listing.Fits)
    (hsort : doSort beans listing.items listing.orders = sorted beans listing.orders listing.items)
    {page : Nat} (hpage : page * listing.pageSize < listing.items.length) :
    listing.getPage beans page = some (listing.page beans page) := by
  rw [setPage_eq, if_pos hpage, if_pos ((fits_iff listing).mp h page hpage), hsort]
  rfl

theorem setsPages_iff (beans : Beans I P V) (listing : Listing I P) :
    SetsPages beans listing ↔
      (∀ a ∈ listing.items, ∀ b ∈ listing.items, ∀ order,
          deciding beans listing.orders a b = some order → order.Respected beans a b) ∧
        listing.Fits := by
  rw [← sort_iff]
  constructor
  · intro h
    have hpage : ∀ page, page * listing.pageSize < listing.items.length →
        ((page * listing.pageSize : Nat) : Int) + listing.pageSize ≤ Java.maxInt ∧
          Paging.chunk listing.pageSize page (doSort beans listing.items listing.orders) =
            Paging.chunk listing.pageSize page (sorted beans listing.orders listing.items) := by
      intro page hpage
      have hresult := h.in_range page hpage
      rw [setPage_eq, if_pos hpage] at hresult
      split at hresult
      · rename_i hfits
        exact ⟨hfits, congrArg Page.content (Option.some.inj hresult)⟩
      · cases hresult
    refine ⟨⟨h.compares_exactly, ?_⟩, (fits_iff listing).mpr fun page hrange => (hpage page hrange).1⟩
    have hlength : (sorted beans listing.orders listing.items).length = listing.items.length :=
      length_sorted listing.items listing.orders
    refine Paging.eq_of_chunks listing.pageSize_pos ((length_doSort _ _).trans hlength.symm) ?_
    intro page hrange
    exact (hpage page (hlength ▸ hrange)).2
  · rintro ⟨⟨hexact, hsort⟩, hfits⟩
    refine ⟨hexact, fun page hpage => getPage_of_sorted hfits hsort hpage, ?_, ?_⟩
    · intro page hpage
      rw [setPage_eq, if_neg (by omega), hsort]
      rfl
    · have hlength : (sorted beans listing.orders listing.items).length = listing.items.length :=
        length_sorted listing.items listing.orders
      have hcount : Paging.count listing.pageSize listing.items =
          Paging.count listing.pageSize (sorted beans listing.orders listing.items) := by
        rw [Paging.count, Paging.count, hlength]
      rw [hcount]
      refine Paging.flatMap_of_chunks listing.pageSize_pos fun page hpage => ?_
      rw [getPage_of_sorted hfits hsort (hlength ▸ hpage)]
      rfl

end Pages

section Example

theorem sub_sign (f : Char → Int) : Std.TransCmp fun a b => sign (f a - f b) := by
  have hsign : (fun a b => sign (f a - f b)) = fun a b => compare (f a) (f b) := by
    funext a b
    unfold sign
    rcases lt_trichotomy (f a) (f b) with h | h | h
    · rw [compare_lt_iff_lt.mpr h, compare_lt_iff_lt.mpr (by omega)]
    · rw [h, Int.sub_self, compare_eq_iff_eq.mpr rfl, compare_eq_iff_eq.mpr rfl]
    · rw [compare_gt_iff_gt.mpr h, compare_gt_iff_gt.mpr (by omega)]
  rw [hsign]
  exact comap_trans inferInstance f

theorem toNat_lt (c : Char) : c.toNat < 0x110000 := by
  have hvalid := c.valid
  unfold UInt32.isValidChar Nat.isValidChar at hvalid
  unfold Char.toNat
  omega

/-- Strings of one letter, compared as Java compares them. -/
def letters : Beans Char Unit Char where
  getPropertyValue c _ := some c
  isString _ := true
  compareTo _ a b := (a.toNat : Int) - b.toNat
  compareToIgnoreCase _ a b := (a.toLower.toNat : Int) - b.toLower.toNat
  compareTo_int _ a b := by
    have ha : a.toNat < 0x110000 := toNat_lt a
    have hb : b.toNat < 0x110000 := toNat_lt b
    unfold minInt Java.maxInt
    omega
  compareTo_trans _ := sub_sign fun c => c.toNat
  compareToIgnoreCase_trans _ := sub_sign fun c => c.toLower.toNat

/-- Two items by their name, descending and ignoring case. -/
def descending : Listing Char Unit where
  items := ['a', 'b']
  pageSize := 10
  orders := [⟨(), false, true⟩]
  items_le := by decide
  pageSize_pos := by decide
  pageSize_le := by decide

theorem ascending_anyway :
    descending.getPage letters 0 = some ⟨['a', 'b'], 0, 10, 2⟩ ∧
      sorted letters descending.orders descending.items = ['b', 'a'] ∧
      ¬ SetsPages letters descending := by
  have hpage : descending.getPage letters 0 = some ⟨['a', 'b'], 0, 10, 2⟩ := by decide
  have hsorted : sorted letters descending.orders descending.items = ['b', 'a'] := by decide
  refine ⟨hpage, hsorted, fun h => ?_⟩
  have hresult := h.in_range 0 (by decide)
  rw [hpage, Listing.page, hsorted] at hresult
  exact absurd hresult (by decide)

end Example

end Data
end AppNG
