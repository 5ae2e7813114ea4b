import AppNG.Lib.Keyed
import AppNG.Lib.Loop
import AppNG.Sorting.SortParams
import Mathlib.Data.List.Induction

/-!
# Sorting.SortMerge

`SortParamSupport.getPageable`: what a user asks for is merged with the sort that the session holds
for one page and datasource.

A new `SortParamSupport` serves every request. The session holds the text of the request before, and
what is merged are the orders that are read from the two texts.

* `mergeOrders_eq`: the loops over the current and the new orders do what should be done, if they
  keep what they should and no new property comes twice.
* `getPageable_merges`: what one request does to a session that holds a sort.
* `run_merges`: no request throws, and every sort is merged from the one before, in every run whose
  requests all meet the condition.
-/

namespace AppNG
namespace Sorting

open Scan

/-- What decides whether a property is among others. -/
local instance instLawfulBEqProperty : LawfulBEq (List Char) := inferInstance

/-! ## The code -/

def MODE_RESET : List Char := ['r', 'e', 's', 'e', 't']

/-- `MODE_RESET.equals(string) || StringUtils.endsWith(string, MODE_RESET)` -/
def reset (string : List Char) : Bool := decide (MODE_RESET <:+ string)

/-- The properties without a direction. -/
def removedProperties (string : List Char) : List (List Char) :=
  (params string).filterMap fun (property, direction) =>
    if direction = none then some property else none

/-- The first loop of `mergeOrderParams`: the positions of the properties, and the orders. -/
def keepOrders (removed : List (List Char)) (currentSort : List Order) :
    (List Char → Option Nat) × List Order :=
  currentSort.foldl (fun (positions, mergedOrders) order =>
    if order.property ∈ removed then (positions, mergedOrders)
    else (Function.update positions order.property (some mergedOrders.length),
      mergedOrders ++ [order])) (fun _ => none, [])

/-- Its second loop. -/
def addOrders (positions : List Char → Option Nat) (mergedOrders parsedSort : List Order) :
    List Order :=
  parsedSort.foldl (fun mergedOrders order =>
    match positions order.property with
    | some index => mergedOrders.set index order
    | none => mergedOrders ++ [order]) mergedOrders

def mergeOrders (reset : Bool) (removed : List (List Char)) (currentSort parsedSort : List Order) :
    List Order :=
  let (positions, mergedOrders) := keepOrders removed (if reset then [] else currentSort)
  addOrders positions mergedOrders parsedSort

/-- None: it throws. `string` is none where the request has no such parameter. -/
def mergeOrderParams (string : Option (List Char)) (currentParams parseParams : PageRequest) :
    Option PageRequest :=
  let isPageSet := (string.bind (findGroup PARAM_PAGE)).isSome
  let isPageSizeSet := (string.bind (findGroup PARAM_PAGE_SIZE)).isSome
  PageRequest.of
    (if isPageSet then parseParams.pageNumber else currentParams.pageNumber)
    (if isPageSizeSet then parseParams.pageSize else currentParams.pageSize)
    (mergeOrders (string.any reset) ((string.map removedProperties).getD [])
      currentParams.sort parseParams.sort)

/-- The result, and the text that the session holds then. None: it throws. -/
def getPageable (defaultPagesize : Int) (session string : Option (List Char)) :
    Option (PageRequest × List Char) := do
  let currentParams ← parseParamsToPageable defaultPagesize session
  let parseParams ← parseParamsToPageable defaultPagesize string
  let mergeOrderParams ← mergeOrderParams string currentParams parseParams
  return (mergeOrderParams, getSortString mergeOrderParams)

/-- A request that throws leaves the session as it is. -/
def step (defaultPagesize : Int) (session string : Option (List Char)) : Option (List Char) :=
  match getPageable defaultPagesize session string with
  | some (_, sortString) => some sortString
  | none => session

def sessionAfter (defaultPagesize : Int) (strings : List (Option (List Char))) :
    Option (List Char) :=
  strings.foldl (step defaultPagesize) none

/-! ## The merge that is meant -/

/-- A property without a direction, or the name of a number that follows. -/
def partAt (text : List Char) : Option ((List Char × Option Direction × Bool) × Nat) :=
  (paramAt text).map fun ((property, direction), n) =>
    ((property, direction,
      decide (property ∈ [PARAM_PAGE, PARAM_PAGE_SIZE] ∧ numberAt property text ≠ none)), n)

/-- The properties that are sent without a direction. -/
def withoutDirection (string : List Char) : List (List Char) :=
  (items (scan partAt 0 string)).filterMap fun (property, direction, isNumber) =>
    if direction = none ∧ isNumber = false then some property else none

/-- `reset` stands alone, or behind a separator. -/
def asksReset (string : List Char) : Bool :=
  decide (string = MODE_RESET ∨ ';' :: MODE_RESET <:+ string)

/-- Whether the order by a property of the sort so far is to go. -/
def asksDrop (string : List Char) (property : List Char) : Bool :=
  asksReset string || decide (property ∈ withoutDirection string)

/-- Whether it goes. -/
def drops (string : List Char) (property : List Char) : Bool :=
  reset string || decide (property ∈ removedProperties string)

/-- Every property once. -/
abbrev Orders := Keyed Order.property

/-- What a request makes of the orders of a session. -/
def merge (current : Orders) : Option (List Char) → Orders
  | none => current
  | some string =>
    (orders string).foldl Keyed.place (current.filter fun o => !asksDrop string o.property)

/-- The orders that a text of a session or a request holds. -/
def sortOf (string : Option (List Char)) : List Order := (string.map orders).getD []

/-- What a request does, if it does what it should: the session holds a request before and after,
and the orders are merged. -/
def Merges (defaultPagesize : Int) (session string : Option (List Char)) : Prop :=
  ∃ before after sortString,
    parseParamsToPageable defaultPagesize session = some before ∧
    getPageable defaultPagesize session string = some (after, sortString) ∧
    parseParamsToPageable defaultPagesize (some sortString) = some after ∧
    ∃ current : Orders, current.values = before.sort ∧ after.sort = (merge current string).values

structure Allowed (defaultPagesize : Int) (session string : Option (List Char)) : Prop where
  default_ok : 1 ≤ defaultPagesize ∧ defaultPagesize ≤ Java.maxInt
  page_ok : ∀ digits ∈ string.bind (findGroup PARAM_PAGE),
    (Nat.ofDigitChars 10 digits 0 : Int) ≤ Java.maxInt
  pageSize_ok : ∀ digits ∈ string.bind (findGroup PARAM_PAGE_SIZE),
    1 ≤ (Nat.ofDigitChars 10 digits 0 : Int) ∧ (Nat.ofDigitChars 10 digits 0 : Int) ≤ Java.maxInt
  /-- No order of the session goes that should stay. -/
  drops_asked : ∀ s ∈ string, ∀ order ∈ sortOf session,
    drops s order.property = true → asksDrop s order.property = true
  /-- No property comes twice, unless the session has an order by it that stays. -/
  once : ∀ s ∈ string, (orders s).Pairwise fun a b => a.property = b.property →
    ∃ order ∈ sortOf session, order.property = a.property ∧ drops s a.property = false

/-! ## The loops -/

/-- The positions of the properties among the orders. -/
def Locates (positions : List Char → Option Nat) (os : List Order) : Prop :=
  ∀ p, match positions p with
    | some i => (os.map Order.property)[i]? = some p
    | none => p ∉ os.map Order.property

theorem Locates.snoc {positions : List Char → Option Nat} {os : List Order}
    (h : Locates positions os) (order : Order) :
    Locates (Function.update positions order.property (some os.length)) (os ++ [order]) := by
  intro p
  by_cases hp : p = order.property
  · subst hp
    simp [Function.update_self]
  · rw [Function.update_of_ne hp]
    have hold := h p
    cases hpos : positions p with
    | none =>
      rw [hpos] at hold
      simpa [hp] using hold
    | some i =>
      rw [hpos] at hold
      have hlt : i < (os.map Order.property).length := (List.getElem?_eq_some_iff.mp hold).1
      show ((os ++ [order]).map Order.property)[i]? = some p
      rw [List.map_append, List.getElem?_append_left hlt]
      exact hold

theorem keepOrders_spec (removed : List (List Char)) (currentSort : List Order) :
    Locates (keepOrders removed currentSort).1 (keepOrders removed currentSort).2 ∧
      (keepOrders removed currentSort).2 =
        currentSort.filter fun o => !decide (o.property ∈ removed) := by
  -- along the orders that are left, from the positions and orders so far
  suffices h : ∀ (os : List Order) (state : (List Char → Option Nat) × List Order),
      Locates state.1 state.2 →
      let state' := os.foldl (fun (positions, mergedOrders) order =>
        if order.property ∈ removed then (positions, mergedOrders)
        else (Function.update positions order.property (some mergedOrders.length),
          mergedOrders ++ [order])) state
      Locates state'.1 state'.2 ∧
        state'.2 = state.2 ++ os.filter fun o => !decide (o.property ∈ removed) from
    h currentSort (fun _ => none, []) (fun p => List.not_mem_nil)
  intro os
  induction os with
  | nil => intro state h; exact ⟨h, (List.append_nil _).symm⟩
  | cons order os ih =>
    intro state h
    by_cases hremoved : order.property ∈ removed
    · have hrest := ih state h
      simp only [List.foldl_cons, if_pos hremoved]
      simpa [hremoved] using hrest
    · have hrest := ih (Function.update state.1 order.property (some state.2.length),
        state.2 ++ [order]) (h.snoc order)
      simp only [List.foldl_cons, if_neg hremoved]
      simpa [hremoved] using hrest

theorem addOrders_eq {positions : List Char → Option Nat} {kept : Orders}
    (hpos : Locates positions kept.values) :
    ∀ (os : List Order) (m : Orders),
      kept.values.map Order.property <+: m.values.map Order.property →
      (∀ o ∈ os, o.property ∈ m.values.map Order.property →
        o.property ∈ kept.values.map Order.property) →
      (os.Pairwise fun a b => a.property = b.property →
        a.property ∈ kept.values.map Order.property) →
      addOrders positions m.values os = (os.foldl Keyed.place m).values := by
  intro os
  induction os with
  | nil => intro m _ _ _; rfl
  | cons order os ih =>
    intro m hkeys hnew honce
    obtain ⟨horder, honce⟩ := List.pairwise_cons.mp honce
    have hplace : (match positions order.property with
        | some index => m.values.set index order
        | none => m.values ++ [order]) = (m.place order).values := by
      have hloc := hpos order.property
      cases hp : positions order.property with
      | some i =>
        rw [hp] at hloc
        obtain ⟨later, hlater⟩ := hkeys
        have hlt : i < (kept.values.map Order.property).length :=
          (List.getElem?_eq_some_iff.mp hloc).1
        refine (Keyed.place_of_getElem? ?_).symm
        rw [← hlater, List.getElem?_append_left hlt]
        exact hloc
      | none =>
        rw [hp] at hloc
        exact (Keyed.place_of_not_mem fun hmem =>
          hloc (hnew order List.mem_cons_self hmem)).symm
    have hmoves : m.values.map Order.property <+: (m.place order).values.map Order.property :=
      Keyed.keys_place m order
    have hrest := ih (m.place order) (hkeys.trans hmoves) ?_ honce
    · rw [List.foldl_cons, ← hrest, ← hplace]
      rfl
    · intro o ho hmem
      rcases Keyed.mem_keys_place hmem with hmem | hsame
      · exact hnew o (List.mem_cons_of_mem order ho) hmem
      · rw [hsame]
        exact horder o ho hsame.symm

/-- The two loops together. -/
theorem mergeOrders_eq {current : Orders} {removed : List (List Char)} {reset : Bool}
    {parsedSort : List Order}
    (honce : parsedSort.Pairwise fun a b => a.property = b.property →
      ∃ order ∈ current.values, order.property = a.property ∧
        (reset || decide (a.property ∈ removed)) = false) :
    mergeOrders reset removed current.values parsedSort =
      (parsedSort.foldl Keyed.place
        (current.filter fun o => !(reset || decide (o.property ∈ removed)))).values := by
  have hspec := keepOrders_spec removed (if reset then [] else current.values)
  have hkept : (keepOrders removed (if reset then [] else current.values)).2 =
      (current.filter fun o => !(reset || decide (o.property ∈ removed))).values := by
    rw [hspec.2]
    cases reset <;> simp [Keyed.filter]
  obtain ⟨hloc, -⟩ := hspec
  unfold mergeOrders
  rw [hkept] at hloc
  show addOrders _ (keepOrders removed (if reset then [] else current.values)).2 parsedSort = _
  rw [hkept]
  refine addOrders_eq hloc parsedSort _ List.prefix_rfl (fun _ _ h => h) (honce.imp ?_)
  intro a b hab hsame
  obtain ⟨order, horder, hproperty, hstays⟩ := hab hsame
  rw [← hproperty] at hstays ⊢
  exact List.mem_map.mpr ⟨order, Keyed.mem_filter.mpr ⟨horder, by rw [hstays]; rfl⟩, rfl⟩

/-! ## What is to go -/

theorem params_eq (string : List Char) :
    params string =
      (items (scan partAt 0 string)).map fun (property, direction, _) => (property, direction) := by
  refine items_scan_map (fun as => ?_) string 0
  cases h : paramAt as with
  | none => rw [partAt, h]; rfl
  | some m => rw [partAt, h]; rfl

theorem removed_of_withoutDirection {string property : List Char}
    (h : property ∈ withoutDirection string) : property ∈ removedProperties string := by
  obtain ⟨⟨name, direction, isNumber⟩, hmem, hpart⟩ := List.mem_filterMap.mp h
  simp only at hpart
  split at hpart
  · rename_i hdir
    cases hpart
    refine List.mem_filterMap.mpr ⟨(property, direction), ?_, if_pos hdir.1⟩
    rw [params_eq]
    exact List.mem_map_of_mem hmem
  · cases hpart

/-- What is asked to go does go. -/
theorem drops_of_asksDrop {string property : List Char} (h : asksDrop string property = true) :
    drops string property = true := by
  unfold asksDrop at h
  unfold drops
  rw [Bool.or_eq_true] at h ⊢
  rcases h with h | h
  · left
    refine decide_eq_true ?_
    rcases of_decide_eq_true h with h | h
    · exact h ▸ List.suffix_rfl
    · exact (List.suffix_cons ';' MODE_RESET).trans h
  · right
    exact decide_eq_true (removed_of_withoutDirection (of_decide_eq_true h))

/-! ## One request -/

variable {defaultPagesize : Int} {session string : Option (List Char)}

theorem parseInt_of_le {digits : List Char}
    (h : (Nat.ofDigitChars 10 digits 0 : Int) ≤ Java.maxInt) :
    parseInt digits = some (Nat.ofDigitChars 10 digits 0 : Int) := if_pos h

theorem of_isSome {page pageSize : Int} (sort : List Order) (hpage : 0 ≤ page ∧ page ≤ Java.maxInt)
    (hsize : 1 ≤ pageSize ∧ pageSize ≤ Java.maxInt) :
    PageRequest.of page pageSize sort = some ⟨page, pageSize, sort, hpage, hsize⟩ :=
  dif_pos ⟨hpage, hsize⟩

/-- A text whose numbers are in range is read. -/
theorem parse_of_allowed (hdefault : 1 ≤ defaultPagesize ∧ defaultPagesize ≤ Java.maxInt)
    (hpage : ∀ digits ∈ string.bind (findGroup PARAM_PAGE),
      (Nat.ofDigitChars 10 digits 0 : Int) ≤ Java.maxInt)
    (hsize : ∀ digits ∈ string.bind (findGroup PARAM_PAGE_SIZE),
      1 ≤ (Nat.ofDigitChars 10 digits 0 : Int) ∧
        (Nat.ofDigitChars 10 digits 0 : Int) ≤ Java.maxInt) :
    ∃ pageable, parseParamsToPageable defaultPagesize string = some pageable ∧
      pageable.sort = sortOf string := by
  cases string with
  | none => exact ⟨_, of_isSome [] (by decide) hdefault, rfl⟩
  | some s =>
    have hpageNumber : ∃ page : Int, 0 ≤ page ∧ page ≤ Java.maxInt ∧
        ((findGroup PARAM_PAGE s).map parseInt).getD (some 0) = some page := by
      cases hfound : findGroup PARAM_PAGE s with
      | none => exact ⟨0, by decide, by decide, rfl⟩
      | some digits =>
        have hle := hpage digits hfound
        exact ⟨_, Int.natCast_nonneg _, hle, parseInt_of_le hle⟩
    have hpageSize : ∃ pageSize : Int, 1 ≤ pageSize ∧ pageSize ≤ Java.maxInt ∧
        ((findGroup PARAM_PAGE_SIZE s).map parseInt).getD (some defaultPagesize) =
          some pageSize := by
      cases hfound : findGroup PARAM_PAGE_SIZE s with
      | none => exact ⟨defaultPagesize, hdefault.1, hdefault.2, rfl⟩
      | some digits =>
        have hle := hsize digits hfound
        exact ⟨_, hle.1, hle.2, parseInt_of_le hle.2⟩
    obtain ⟨page, h0, hmax, hread⟩ := hpageNumber
    obtain ⟨pageSize, h1, hmax', hread'⟩ := hpageSize
    refine ⟨⟨page, pageSize, orders s, ⟨h0, hmax⟩, ⟨h1, hmax'⟩⟩, ?_, rfl⟩
    simp only [parseParamsToPageable, hread, hread']
    exact of_isSome _ ⟨h0, hmax⟩ ⟨h1, hmax'⟩

/-- The session holds orders by distinct properties. -/
def Holds (defaultPagesize : Int) (session : Option (List Char)) : Prop :=
  ∃ pageable, parseParamsToPageable defaultPagesize session = some pageable ∧
    pageable.sort = sortOf session ∧ (pageable.sort.map Order.property).Nodup

theorem isProperty_of_mem_sortOf {string : Option (List Char)} {order : Order}
    (h : order ∈ sortOf string) : IsProperty order.property := by
  cases string with
  | none => cases h
  | some s => exact isProperty_of_mem_orders h

/-- Everything in the new orders was in the old ones or asked for. -/
theorem mem_of_mem_merge {current : Orders} {order : Order}
    (h : order ∈ (merge current string).values) : order ∈ current.values ∨ order ∈ sortOf string := by
  cases string with
  | none => exact .inl h
  | some s =>
    rcases Keyed.mem_of_mem_foldl_place h with h | h
    · exact .inl (Keyed.mem_filter.mp h).1
    · exact .inr h

/-- The loops merge as they should. -/
theorem mergeOrders_merge {current : Orders} (hcurrent : current.values = sortOf session)
    (h : Allowed defaultPagesize session string) :
    mergeOrders (string.any reset) ((string.map removedProperties).getD []) current.values
      (sortOf string) = (merge current string).values := by
  cases string with
  | none =>
    rw [mergeOrders_eq (by simp [sortOf])]
    simp [sortOf, merge, Keyed.filter]
  | some s =>
    have hkeep : (current.filter fun o => !drops s o.property) =
        current.filter fun o => !asksDrop s o.property := by
      refine Keyed.filter_congr fun order horder => ?_
      have hiff : drops s order.property = asksDrop s order.property := by
        rw [Bool.eq_iff_iff]
        exact ⟨h.drops_asked s rfl order (hcurrent ▸ horder), drops_of_asksDrop⟩
      rw [hiff]
    have honce := h.once s rfl
    rw [← hcurrent] at honce
    show mergeOrders (reset s) (removedProperties s) current.values (orders s) = _
    rw [mergeOrders_eq honce]
    exact congrArg (fun kept => ((orders s).foldl Keyed.place kept).values) hkeep

theorem getPageable_merges (hsession : Holds defaultPagesize session)
    (h : Allowed defaultPagesize session string) : Merges defaultPagesize session string := by
  obtain ⟨before, hbefore, hsort, hnodup⟩ := hsession
  obtain ⟨parsed, hparsed, hparsedSort⟩ := parse_of_allowed h.default_ok h.page_ok h.pageSize_ok
  let current : Orders := ⟨before.sort, hnodup⟩
  have horders : mergeOrders (string.any reset) ((string.map removedProperties).getD [])
      before.sort parsed.sort = (merge current string).values := by
    rw [hparsedSort]
    show mergeOrders _ _ current.values _ = _
    exact mergeOrders_merge hsort h
  obtain ⟨after, hafter, hafterSort⟩ : ∃ after, mergeOrderParams string before parsed = some after ∧
      after.sort = (merge current string).values := by
    unfold mergeOrderParams
    rw [horders]
    refine ⟨_, of_isSome _ ?_ ?_, rfl⟩
    · split
      · exact parsed.page_ok
      · exact before.page_ok
    · split
      · exact parsed.size_ok
      · exact before.size_ok
  refine ⟨before, after, getSortString after, hbefore, ?_, ?_, current, rfl, hafterSort⟩
  · simp only [getPageable, hbefore, hparsed]
    show (mergeOrderParams string before parsed).bind _ = _
    rw [hafter]
    rfl
  · refine parse_getSortString defaultPagesize fun order horder => ?_
    rw [hafterSort] at horder
    rcases mem_of_mem_merge horder with horder | horder
    · have hmem : order ∈ before.sort := horder
      rw [hsort] at hmem
      exact isProperty_of_mem_sortOf hmem
    · exact isProperty_of_mem_sortOf horder

/-! ## Runs -/

theorem step_of_merges (h : Merges defaultPagesize session string) :
    Holds defaultPagesize (step defaultPagesize session string) := by
  obtain ⟨before, after, sortString, -, hget, hafter, current, -, hmerge⟩ := h
  have hstep : step defaultPagesize session string = some sortString := by rw [step, hget]
  rw [hstep]
  refine ⟨after, hafter, sort_of_parse hafter, ?_⟩
  rw [hmerge]
  exact (merge current string).nodup

/-- Before the first request. -/
theorem holds_none (h : 1 ≤ defaultPagesize ∧ defaultPagesize ≤ Java.maxInt) :
    Holds defaultPagesize none :=
  ⟨_, of_isSome [] (by decide) h, rfl, List.nodup_nil⟩

/-- The session, after every part of a run whose requests all meet the condition. -/
theorem run_holds {strings : List (Option (List Char))}
    (hdefault : 1 ≤ defaultPagesize ∧ defaultPagesize ≤ Java.maxInt)
    (h : ∀ pre string post, strings = pre ++ string :: post →
      Allowed defaultPagesize (sessionAfter defaultPagesize pre) string) :
    ∀ pre post, strings = pre ++ post →
      Holds defaultPagesize (sessionAfter defaultPagesize pre) := by
  intro pre
  induction pre using List.reverseRecOn with
  | nil => intro post _; exact holds_none hdefault
  | append_singleton pre string ih =>
    intro post hsplit
    have hlast : strings = pre ++ string :: post := by rw [hsplit, List.append_assoc]; rfl
    have hholds : Holds defaultPagesize (sessionAfter defaultPagesize pre) :=
      ih (string :: post) hlast
    have hstep := step_of_merges (getPageable_merges hholds (h pre string post hlast))
    unfold sessionAfter at hstep ⊢
    rw [List.foldl_append]
    exact hstep

/-- In every run whose requests all meet the condition, none throws, and each of them merges what
it asks for with the orders of the one before. -/
theorem run_merges {strings : List (Option (List Char))}
    (h : ∀ pre string post, strings = pre ++ string :: post →
      Allowed defaultPagesize (sessionAfter defaultPagesize pre) string) :
    ∀ pre string post, strings = pre ++ string :: post →
      Merges defaultPagesize (sessionAfter defaultPagesize pre) string := by
  intro pre string post hsplit
  have hallowed := h pre string post hsplit
  exact getPageable_merges (run_holds hallowed.default_ok h pre (string :: post) hsplit) hallowed

section Example

def sortA : List Char := Order.text ⟨['a'], .asc⟩

/-- By `a` the other way round, and by `b`. -/
def sortAB : List Char := Order.text ⟨['a'], .desc⟩ ++ Order.text ⟨['b'], .asc⟩

theorem run_merges_ab : Merges 10 (sessionAfter 10 [some sortA]) (some sortAB) := by
  have hrun : ∀ pre string post, [some sortA, some sortAB] = pre ++ string :: post →
      Allowed 10 (sessionAfter 10 pre) string := by
    refine Loop.forall_split_cons.mpr ⟨?_, Loop.forall_split_cons.mpr ⟨?_, by simp⟩⟩
    · exact ⟨by decide, by decide, by decide, by decide, by decide⟩
    · exact ⟨by decide, by decide, by decide, by decide, by decide⟩
  exact run_merges hrun [some sortA] (some sortAB) [] rfl

/-- `a:asc;a:desc;` gives two orders by `a`. -/
theorem property_twice :
    (getPageable 10 none (some (sortA ++ Order.text ⟨['a'], .desc⟩))).map (fun p => p.1.sort) =
      some [⟨['a'], .asc⟩, ⟨['a'], .desc⟩] ∧
    ¬ ∀ (strings : List (Option (List Char))) pre string post, strings = pre ++ string :: post →
      Merges 10 (sessionAfter 10 pre) string := by
  have hsort : (getPageable 10 none (some (sortA ++ Order.text ⟨['a'], .desc⟩))).map
      (fun p => p.1.sort) = some [⟨['a'], .asc⟩, ⟨['a'], .desc⟩] := by decide
  refine ⟨hsort, fun h => ?_⟩
  obtain ⟨-, after, sortString, -, hget, -, current, -, hmerge⟩ :=
    h [some (sortA ++ Order.text ⟨['a'], .desc⟩)] [] _ [] rfl
  have hafter : after.sort = [⟨['a'], .asc⟩, ⟨['a'], .desc⟩] := by
    have hboth := hsort
    rw [show getPageable 10 none _ = _ from hget] at hboth
    exact Option.some.inj hboth
  have hnodup := (merge current (some (sortA ++ Order.text ⟨['a'], .desc⟩))).nodup
  rw [← hmerge, hafter] at hnodup
  exact absurd hnodup (by decide)

end Example

end Sorting
end AppNG
