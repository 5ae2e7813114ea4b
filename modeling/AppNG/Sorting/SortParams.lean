import AppNG.Lib.JavaInt
import AppNG.Lib.JavaString
import AppNG.Lib.Scan

/-!
# Sorting.SortParams

The text that `SortParamSupport` writes for a page request, and what it reads from one.

The reader looks for the page, for the page size and for the orders in the whole text, with one
regular expression each.

* `propertyAt_append`: a property is read up to its end.
* `orders_getSortString`: the orders that are read from the text of a request.
* `parse_getSortString_iff`: the request that was written is read back if and only if its properties
  consist of letters, with single dots between them.
-/

namespace AppNG
namespace Sorting

open Scan

inductive Direction where
  | asc
  | desc
  deriving DecidableEq, Repr

structure Order where
  property : List Char
  direction : Direction
  deriving DecidableEq, Repr

/-- A `PageRequest` of Spring Data: what its constructor lets through. -/
structure PageRequest where
  pageNumber : Int
  pageSize : Int
  sort : List Order
  page_ok : 0 ≤ pageNumber ∧ pageNumber ≤ Java.maxInt
  size_ok : 1 ≤ pageSize ∧ pageSize ≤ Java.maxInt
  deriving DecidableEq

/-- For two values of an `int`. None: it throws. -/
def PageRequest.of (page pageSize : Int) (sort : List Order) : Option PageRequest :=
  if h : (0 ≤ page ∧ page ≤ Java.maxInt) ∧ (1 ≤ pageSize ∧ pageSize ≤ Java.maxInt) then
    some ⟨page, pageSize, sort, h.1, h.2⟩
  else none

def PARAM_PAGE : List Char := ['p', 'a', 'g', 'e']

def PARAM_PAGE_SIZE : List Char := ['p', 'a', 'g', 'e', 'S', 'i', 'z', 'e']

def Direction.text : Direction → List Char
  | .asc => ['a', 's', 'c']
  | .desc => ['d', 'e', 's', 'c']

/-! ## Reading -/

/-- `ALPHA_NUM` -/
def isAlphaNum (c : Char) : Bool := c.isAlpha

/-- What the longest property goes on with behind one of its letters. -/
def propertyRest : List Char → List Char
  | '.' :: c :: cs => if isAlphaNum c then '.' :: c :: propertyRest cs else []
  | c :: cs => if isAlphaNum c then c :: propertyRest cs else []
  | [] => []

def propertyAt : List Char → List Char
  | c :: cs => if isAlphaNum c then c :: propertyRest cs else []
  | [] => []

/-- The direction behind a property, and how many characters it takes. -/
def directionAt (text : List Char) : Option Direction × Nat :=
  if ':' :: Direction.asc.text <+: text then (some .asc, 4)
  else if ':' :: Direction.desc.text <+: text then (some .desc, 5)
  else (none, 0)

/-- `paramPattern`: a property, a direction if there is one, and a separator if there is one. -/
def paramAt (text : List Char) : Option ((List Char × Option Direction) × Nat) :=
  let property := propertyAt text
  let rest := text.drop property.length
  let (direction, n) := directionAt rest
  let separator := if [';'] <+: rest.drop n then 1 else 0
  if property = [] then none
  else some ((property, direction), property.length + n + separator - 1)

def params (string : List Char) : List (List Char × Option Direction) :=
  items (scan paramAt 0 string)

def orders (string : List Char) : List Order :=
  (params string).filterMap fun (property, direction) => direction.map (Order.mk property)

/-- `pagePattern` and `pageSizePattern`: the digits behind the name of the parameter. -/
def numberAt (param text : List Char) : Option (List Char) :=
  let digits := (text.drop (param.length + 1)).takeWhile Char.isDigit
  if param ++ [':'] <+: text ∧ digits ≠ [] then some digits else none

/-- The first match of the pattern. -/
def findGroup (param : List Char) : List Char → Option (List Char)
  | [] => none
  | c :: cs => (numberAt param (c :: cs)).or (findGroup param cs)

/-- Of digits. None: it throws. -/
def parseInt (digits : List Char) : Option Int :=
  let n : Int := Nat.ofDigitChars 10 digits 0
  if n ≤ Java.maxInt then some n else none

/-- None: it throws. -/
def parseParamsToPageable (defaultPagesize : Int) : Option (List Char) → Option PageRequest
  | none => PageRequest.of 0 defaultPagesize []
  | some string => do
    let page ← ((findGroup PARAM_PAGE string).map parseInt).getD (some 0)
    let pageSize ← ((findGroup PARAM_PAGE_SIZE string).map parseInt).getD (some defaultPagesize)
    PageRequest.of page pageSize (orders string)

/-! ## Writing -/

def Order.text (order : Order) : List Char :=
  order.property ++ ':' :: (order.direction.text ++ [';'])

def numberText (param : List Char) (n : Int) : List Char := param ++ ':' :: Nat.toDigits 10 n.toNat

def getSortString (pageable : PageRequest) : List Char :=
  pageable.sort.flatMap Order.text ++
    (numberText PARAM_PAGE pageable.pageNumber ++
      ';' :: numberText PARAM_PAGE_SIZE pageable.pageSize)

/-- Letters, with single dots between them. -/
def IsProperty (name : List Char) : Prop := name ≠ [] ∧ propertyAt name = name

instance (name : List Char) : Decidable (IsProperty name) :=
  inferInstanceAs (Decidable (name ≠ [] ∧ propertyAt name = name))

/-! ## Properties -/

theorem isProperty_cons {c : Char} {cs : List Char} :
    IsProperty (c :: cs) ↔ isAlphaNum c = true ∧ propertyRest cs = cs := by
  simp only [IsProperty, propertyAt]
  split
  · rename_i hc
    simp [hc]
  · rename_i hc
    simp [hc]

theorem propertyRest_letter {c : Char} (hc : isAlphaNum c = true) (cs : List Char) :
    propertyRest (c :: cs) = c :: propertyRest cs := by
  have hne : c ≠ '.' := by
    rintro rfl
    exact absurd hc (by decide)
  rw [propertyRest, if_pos hc]
  intro d ds hcd
  exact absurd hcd hne

theorem propertyRest_append {cs : List Char} (rest : List Char) (h : propertyRest cs = cs) :
    propertyRest (cs ++ ':' :: rest) = cs := by
  fun_induction propertyRest cs with
  | case1 c cs hc ih =>
    simp only [List.cons.injEq, true_and] at h
    show propertyRest ('.' :: c :: (cs ++ ':' :: rest)) = _
    rw [propertyRest, if_pos hc, ih h]
  | case2 => cases h
  | case3 c cs hdot hc ih =>
    simp only [List.cons.injEq, true_and] at h
    rw [List.cons_append, propertyRest_letter hc, ih h]
  | case4 => cases h
  | case5 => rfl

theorem propertyAt_append {name : List Char} (rest : List Char) (h : IsProperty name) :
    propertyAt (name ++ ':' :: rest) = name := by
  cases name with
  | nil => exact absurd rfl h.1
  | cons c cs =>
    obtain ⟨hc, hcs⟩ := isProperty_cons.mp h
    rw [List.cons_append, propertyAt, if_pos hc, propertyRest_append rest hcs]

theorem propertyRest_idem (cs : List Char) : propertyRest (propertyRest cs) = propertyRest cs := by
  fun_induction propertyRest cs with
  | case1 c cs hc ih => rw [propertyRest, if_pos hc, ih]
  | case2 => rfl
  | case3 c cs hdot hc ih =>
    rw [propertyRest_letter hc, ih]
  | case4 => rfl
  | case5 => rfl

theorem isProperty_propertyAt {text : List Char} (h : propertyAt text ≠ []) :
    IsProperty (propertyAt text) := by
  refine ⟨h, ?_⟩
  cases text with
  | nil => rfl
  | cons c cs =>
    by_cases hc : isAlphaNum c = true
    · simp only [propertyAt, hc, if_true, propertyRest_idem]
    · simp [propertyAt, hc] at h

theorem isAlphaNum_or_dot {cs : List Char} (h : propertyRest cs = cs) :
    ∀ c ∈ cs, isAlphaNum c = true ∨ c = '.' := by
  fun_induction propertyRest cs with
  | case1 c cs hc ih =>
    simp only [List.cons.injEq, true_and] at h
    simpa [hc] using ih h
  | case2 => cases h
  | case3 c cs hdot hc ih =>
    simp only [List.cons.injEq, true_and] at h
    simpa [hc] using ih h
  | case4 => cases h
  | case5 => simp

theorem colon_not_mem {name : List Char} (h : IsProperty name) : ':' ∉ name := by
  cases name with
  | nil => exact absurd rfl h.1
  | cons c cs =>
    obtain ⟨hc, hcs⟩ := isProperty_cons.mp h
    intro hmem
    rcases List.mem_cons.mp hmem with rfl | hmem
    · exact absurd hc (by decide)
    · have hcolon := isAlphaNum_or_dot hcs ':' hmem
      revert hcolon
      decide

/-- All properties that are read are written with letters and dots. -/
theorem isProperty_of_mem_orders {string : List Char} {order : Order}
    (h : order ∈ orders string) : IsProperty order.property := by
  obtain ⟨⟨property, direction⟩, hparam, horder⟩ := List.mem_filterMap.mp h
  obtain ⟨text, n, hread⟩ := of_item_mem_scan (mem_items.mp hparam)
  simp only [paramAt] at hread
  split at hread
  · cases hread
  · rename_i hne
    cases hread
    cases hdir : (directionAt (text.drop (propertyAt text).length)).1 with
    | none => rw [hdir] at horder; cases horder
    | some d =>
      rw [hdir] at horder
      cases horder
      exact isProperty_propertyAt hne

/-! ## One order -/

theorem directionAt_order (direction : Direction) (rest : List Char) :
    directionAt (':' :: (direction.text ++ ';' :: rest)) =
      (some direction, direction.text.length + 1) := by
  cases direction <;> simp [directionAt, Direction.text, List.cons_prefix_cons]

theorem paramAt_order {order : Order} (h : IsProperty order.property) (rest : List Char) :
    paramAt (order.text ++ rest) =
      some ((order.property, some order.direction), order.text.length - 1) := by
  have htext : order.text ++ rest =
      order.property ++ ':' :: (order.direction.text ++ ';' :: rest) := by
    simp [Order.text]
  have hproperty : propertyAt (order.text ++ rest) = order.property := by
    rw [htext, propertyAt_append _ h]
  simp only [paramAt, hproperty, if_neg h.1]
  rw [htext, List.drop_left, directionAt_order]
  simp [Order.text, List.cons_prefix_cons]

theorem paramAt_of_not_alphaNum {c : Char} {cs : List Char} (h : isAlphaNum c = false) :
    paramAt (c :: cs) = none := by
  simp [paramAt, propertyAt, h]

/-! ## A number -/

theorem isDigit_toDigits (n : Nat) : ∀ c ∈ Nat.toDigits 10 n, c.isDigit = true :=
  fun _ hc => Nat.isDigit_of_mem_toDigits (by decide) (by decide) hc

theorem not_isAlphaNum_of_isDigit {c : Char} (h : c.isDigit = true) : isAlphaNum c = false := by
  rw [Bool.eq_false_iff]
  intro halpha
  have hletter := Java.toNat_of_isAlpha halpha
  have hdigit : c.toNat ≤ 57 := of_decide_eq_true ((Bool.and_eq_true _ _).mp h).2
  omega

/-- A digit stands behind the name of a parameter. -/
theorem numberText_eq (param : List Char) (n : Int) :
    ∃ d ds, Nat.toDigits 10 n.toNat = d :: ds ∧ d.isDigit = true ∧
      numberText param n = param ++ ':' :: d :: ds := by
  cases hdigits : Nat.toDigits 10 n.toNat with
  | nil => exact absurd hdigits Nat.toDigits_ne_nil
  | cons d ds =>
    refine ⟨d, ds, rfl, ?_, by rw [numberText, hdigits]⟩
    exact isDigit_toDigits n.toNat d (by rw [hdigits]; exact List.mem_cons_self)

theorem directionAt_digit {d : Char} (hd : d.isDigit = true) (rest : List Char) :
    directionAt (':' :: d :: rest) = (none, 0) := by
  have ha : ¬ 'a' = d := by
    rintro rfl
    exact absurd hd (by decide)
  have hd' : ¬ 'd' = d := by
    rintro rfl
    exact absurd hd (by decide)
  simp [directionAt, Direction.text, List.cons_prefix_cons, ha, hd']

theorem paramAt_number {param : List Char} (h : IsProperty param) (n : Int) (rest : List Char) :
    paramAt (numberText param n ++ rest) = some ((param, none), param.length - 1) := by
  obtain ⟨d, ds, -, hd, htext⟩ := numberText_eq param n
  have hsplit : numberText param n ++ rest = param ++ ':' :: d :: (ds ++ rest) := by
    rw [htext]
    simp
  simp only [paramAt, hsplit, propertyAt_append _ h, if_neg h.1, List.drop_left,
    directionAt_digit hd]
  simp [List.cons_prefix_cons]

/-! ## The orders of a text -/

theorem params_of_not_alphaNum {w : List Char} (h : ∀ c ∈ w, isAlphaNum c = false)
    (rest : List Char) : params (w ++ rest) = params rest := by
  unfold params
  rw [scan_unmatched, items_plain]
  intro w₁ w₂ hw hw₂
  cases w₂ with
  | nil => exact absurd rfl hw₂
  | cons c w₂ => exact paramAt_of_not_alphaNum (h c (by simp [hw]))

theorem params_order {order : Order} (h : IsProperty order.property) (rest : List Char) :
    params (order.text ++ rest) = (order.property, some order.direction) :: params rest := by
  have hne : order.text ≠ [] := by simp [Order.text]
  unfold params
  rw [scan_item_append hne (paramAt_order h rest)]
  rfl

/-- Of a number, the name of its parameter is read. -/
theorem params_number {param : List Char} (h : IsProperty param) (n : Int) (rest : List Char) :
    params (numberText param n ++ rest) = (param, none) :: params rest := by
  have hread := paramAt_number h n rest
  have hsplit : numberText param n ++ rest = param ++ (':' :: Nat.toDigits 10 n.toNat ++ rest) := by
    simp [numberText]
  rw [hsplit] at hread ⊢
  have hjunk := params_of_not_alphaNum (w := ':' :: Nat.toDigits 10 n.toNat) (by
    intro c hc
    rcases List.mem_cons.mp hc with rfl | hc
    · decide
    · exact not_isAlphaNum_of_isDigit (isDigit_toDigits _ c hc)) rest
  unfold params at hjunk ⊢
  rw [scan_item_append h.1 hread, ← hjunk]
  rfl

theorem isProperty_page : IsProperty PARAM_PAGE := by decide

theorem isProperty_pageSize : IsProperty PARAM_PAGE_SIZE := by decide

theorem orders_getSortString {pageable : PageRequest}
    (h : ∀ order ∈ pageable.sort, IsProperty order.property) :
    orders (getSortString pageable) = pageable.sort := by
  have hnumbers : params (numberText PARAM_PAGE pageable.pageNumber ++
      ';' :: numberText PARAM_PAGE_SIZE pageable.pageSize) =
        [(PARAM_PAGE, none), (PARAM_PAGE_SIZE, none)] := by
    have hend := params_number isProperty_pageSize pageable.pageSize []
    have hsemicolon : ∀ c ∈ [';'], isAlphaNum c = false := fun c hc => by
      rw [List.mem_singleton.mp hc]
      rfl
    have hsep := params_of_not_alphaNum hsemicolon
      (numberText PARAM_PAGE_SIZE pageable.pageSize)
    rw [List.append_nil] at hend
    rw [params_number isProperty_page]
    exact congrArg _ (hsep.trans hend)
  unfold orders getSortString
  generalize pageable.sort = os at h ⊢
  induction os with
  | nil => rw [List.flatMap_nil, List.nil_append, hnumbers]; rfl
  | cons order os ih =>
    have hrest := ih fun o ho => h o (List.mem_cons_of_mem order ho)
    rw [List.flatMap_cons, List.append_assoc, params_order (h order List.mem_cons_self)]
    exact congrArg (order :: ·) hrest

/-! ## The numbers of a text -/

section Numbers

variable {param : List Char}

/-- A match reaches up to the first colon of the text. -/
theorem numberAt_colon {u rest digits : List Char} (hu : ':' ∉ u) (hparam : ':' ∉ param)
    (h : numberAt param (u ++ ':' :: rest) = some digits) :
    u = param ∧ digits = rest.takeWhile Char.isDigit ∧ digits ≠ [] := by
  simp only [numberAt] at h
  split at h
  · rename_i hmatch
    obtain ⟨⟨t, ht⟩, hne⟩ := hmatch
    rw [List.append_assoc] at ht
    obtain ⟨rfl, hrest⟩ := Java.append_sep_inj hparam hu ht
    obtain rfl : t = rest := hrest
    have hdrop : (param ++ ':' :: t).drop (param.length + 1) = t := by
      rw [← List.drop_drop, List.drop_left]
      rfl
    cases h
    rw [hdrop] at hne ⊢
    exact ⟨rfl, rfl, hne⟩
  · cases h

theorem numberAt_head {c : Char} {cs : List Char} (hne : param ≠ []) (h : param.head? ≠ some c) :
    numberAt param (c :: cs) = none := by
  cases param with
  | nil => exact absurd rfl hne
  | cons p ps =>
    have hpc : ¬ p = c := fun hpc => h (by rw [hpc]; rfl)
    simp [numberAt, List.cons_prefix_cons, hpc]

theorem findGroup_append {rest : List Char} :
    ∀ {w : List Char}, (∀ w₁ w₂, w = w₁ ++ w₂ → w₂ ≠ [] → numberAt param (w₂ ++ rest) = none) →
      findGroup param (w ++ rest) = findGroup param rest := by
  intro w
  induction w with
  | nil => intro _; rfl
  | cons c w ih =>
    intro h
    have hc : numberAt param (c :: (w ++ rest)) = none := h [] (c :: w) rfl (List.cons_ne_nil c w)
    rw [List.cons_append, findGroup, hc, Option.none_or]
    exact ih fun w₁ w₂ hw => h (c :: w₁) w₂ (by rw [hw, List.cons_append])

/-- No match starts where the first letter of the parameter does not occur. -/
theorem findGroup_heads {w : List Char} (hne : param ≠ []) (h : ∀ c ∈ w, param.head? ≠ some c)
    (rest : List Char) : findGroup param (w ++ rest) = findGroup param rest := by
  refine findGroup_append fun w₁ w₂ hw hw₂ => ?_
  cases w₂ with
  | nil => exact absurd rfl hw₂
  | cons c w₂ => exact numberAt_head hne (h c (by simp [hw]))

/-- Nor does one in front of a colon that belongs to something else. -/
theorem findGroup_colon {w rest : List Char} (hparam : ':' ∉ param) (hw : ':' ∉ w)
    (h : ¬ param <:+ w ∨ rest.takeWhile Char.isDigit = []) :
    findGroup param (w ++ ':' :: rest) = findGroup param (':' :: rest) := by
  refine findGroup_append fun w₁ w₂ hsplit _ => ?_
  rw [← Option.not_isSome_iff_eq_none]
  intro hsome
  obtain ⟨digits, hdigits⟩ := Option.isSome_iff_exists.mp hsome
  have hw₂ : ':' ∉ w₂ := fun hmem => hw (by rw [hsplit]; exact List.mem_append_right w₁ hmem)
  obtain ⟨rfl, rfl, hne⟩ := numberAt_colon hw₂ hparam hdigits
  rcases h with h | h
  · exact h (by rw [hsplit]; exact List.suffix_append w₁ w₂)
  · exact hne h

theorem findGroup_order {order : Order} (hparam : ':' ∉ param) (hp : param.head? = some 'p')
    (h : IsProperty order.property) (rest : List Char) :
    findGroup param (order.text ++ rest) = findGroup param rest := by
  have hne : param ≠ [] := by
    rintro rfl
    cases hp
  have htext : order.text ++ rest =
      order.property ++ ':' :: (order.direction.text ++ ';' :: rest) := by
    simp [Order.text]
  have hend : ':' :: (order.direction.text ++ ';' :: rest) =
      ':' :: (order.direction.text ++ [';']) ++ rest := by
    simp
  rw [htext, findGroup_colon hparam (colon_not_mem h), hend, findGroup_heads hne]
  · rw [hp]
    cases order.direction <;> simp [Direction.text]
  · right
    cases order.direction <;> simp [Direction.text]

/-- What stands behind a number is not a digit. -/
theorem findGroup_number {n : Int} {rest : List Char} (hne : param ≠ [])
    (h : rest.takeWhile Char.isDigit = []) :
    findGroup param (numberText param n ++ rest) = some (Nat.toDigits 10 n.toNat) := by
  obtain ⟨d, ds, hdigits, hd, htext⟩ := numberText_eq param n
  have hall : ∀ c ∈ d :: ds, c.isDigit = true := by
    rw [← hdigits]
    exact isDigit_toDigits n.toNat
  have hread : numberAt param (numberText param n ++ rest) = some (Nat.toDigits 10 n.toNat) := by
    have hdrop : (param ++ ':' :: (d :: ds ++ rest)).drop (param.length + 1) = d :: ds ++ rest := by
      rw [← List.drop_drop, List.drop_left]
      rfl
    have htake : (d :: ds ++ rest).takeWhile Char.isDigit = d :: ds := by
      rw [List.takeWhile_append_of_pos hall, h, List.append_nil]
    have hmatch : param ++ [':'] <+: param ++ ':' :: (d :: ds ++ rest) :=
      ⟨d :: ds ++ rest, by simp⟩
    have hsplit : numberText param n ++ rest = param ++ ':' :: (d :: ds ++ rest) := by
      rw [htext]
      simp
    rw [hsplit, hdigits]
    simp only [numberAt, hdrop, htake]
    exact if_pos ⟨hmatch, List.cons_ne_nil d ds⟩
  cases param with
  | nil => exact absurd rfl hne
  | cons p ps =>
    rw [numberText, List.cons_append, List.cons_append, findGroup]
    rw [numberText, List.cons_append, List.cons_append] at hread
    rw [hread, Option.some_or]

theorem parseInt_toDigits {n : Int} (h : 0 ≤ n ∧ n ≤ Java.maxInt) :
    parseInt (Nat.toDigits 10 n.toNat) = some n := by
  have hn : ((n.toNat : Nat) : Int) = n := Int.toNat_of_nonneg h.1
  rw [parseInt, Nat.ofDigitChars_ten_toDigits]
  simp only [hn, if_pos h.2]

end Numbers

/-! ## The round trip -/

theorem findGroup_orders {param rest : List Char} {os : List Order} (hparam : ':' ∉ param)
    (hp : param.head? = some 'p') (h : ∀ order ∈ os, IsProperty order.property) :
    findGroup param (os.flatMap Order.text ++ rest) = findGroup param rest := by
  induction os with
  | nil => rfl
  | cons order os ih =>
    rw [List.flatMap_cons, List.append_assoc,
      findGroup_order hparam hp (h order List.mem_cons_self)]
    exact ih fun o ho => h o (List.mem_cons_of_mem order ho)

theorem findGroup_page {pageable : PageRequest}
    (h : ∀ order ∈ pageable.sort, IsProperty order.property) :
    findGroup PARAM_PAGE (getSortString pageable) =
      some (Nat.toDigits 10 pageable.pageNumber.toNat) := by
  rw [getSortString, findGroup_orders (by decide) rfl h]
  exact findGroup_number (by decide) rfl

theorem findGroup_pageSize {pageable : PageRequest}
    (h : ∀ order ∈ pageable.sort, IsProperty order.property) :
    findGroup PARAM_PAGE_SIZE (getSortString pageable) =
      some (Nat.toDigits 10 pageable.pageSize.toNat) := by
  have hpage : numberText PARAM_PAGE pageable.pageNumber ++
      ';' :: numberText PARAM_PAGE_SIZE pageable.pageSize =
        PARAM_PAGE ++ ':' :: (Nat.toDigits 10 pageable.pageNumber.toNat ++
          ';' :: numberText PARAM_PAGE_SIZE pageable.pageSize) := by
    simp [numberText]
  have hend : ':' :: (Nat.toDigits 10 pageable.pageNumber.toNat ++
      ';' :: numberText PARAM_PAGE_SIZE pageable.pageSize) =
        ':' :: Nat.toDigits 10 pageable.pageNumber.toNat ++ [';'] ++
          (numberText PARAM_PAGE_SIZE pageable.pageSize ++ []) := by
    simp
  rw [getSortString, findGroup_orders (by decide) rfl h, hpage,
    findGroup_colon (by decide) (by decide) (.inl (by decide)), hend, findGroup_heads (by decide)]
  · exact findGroup_number (by decide) rfl
  · intro c hc hp
    obtain rfl : 'p' = c := Option.some.inj hp
    have hdigit : 'p' ∈ Nat.toDigits 10 pageable.pageNumber.toNat := by simpa using hc
    exact absurd (isDigit_toDigits _ _ hdigit) (by decide)

theorem parse_getSortString {pageable : PageRequest} (defaultPagesize : Int)
    (h : ∀ order ∈ pageable.sort, IsProperty order.property) :
    parseParamsToPageable defaultPagesize (some (getSortString pageable)) = some pageable := by
  simp only [parseParamsToPageable, findGroup_page h, findGroup_pageSize h, Option.map_some,
    Option.getD_some, orders_getSortString h]
  have hsize : 0 ≤ pageable.pageSize ∧ pageable.pageSize ≤ Java.maxInt := by
    have hok := pageable.size_ok
    omega
  rw [parseInt_toDigits pageable.page_ok, parseInt_toDigits hsize]
  exact dif_pos ⟨pageable.page_ok, pageable.size_ok⟩

theorem sort_of_parse {defaultPagesize : Int} {string : List Char} {pageable : PageRequest}
    (h : parseParamsToPageable defaultPagesize (some string) = some pageable) :
    pageable.sort = orders string := by
  simp only [parseParamsToPageable, Option.bind_eq_bind, Option.bind_eq_some_iff,
    PageRequest.of] at h
  obtain ⟨page, -, pageSize, -, h⟩ := h
  split at h
  · cases h
    rfl
  · cases h

/-- The request that was written is read back if and only if its properties consist of letters,
with single dots between them. -/
theorem parse_getSortString_iff (defaultPagesize : Int) (pageable : PageRequest) :
    parseParamsToPageable defaultPagesize (some (getSortString pageable)) = some pageable ↔
      ∀ order ∈ pageable.sort, IsProperty order.property := by
  constructor
  · intro h order horder
    rw [sort_of_parse h] at horder
    exact isProperty_of_mem_orders horder
  · exact parse_getSortString defaultPagesize

section Example

/-- The fields `street2` and `page` of the second page. -/
def byStreet : PageRequest where
  pageNumber := 1
  pageSize := 20
  sort := [⟨['s', 't', 'r', 'e', 'e', 't', '2'], .desc⟩, ⟨PARAM_PAGE, .asc⟩]
  page_ok := by decide
  size_ok := by decide

/-- The digit takes the whole order along. -/
theorem street_vanishes :
    (parseParamsToPageable 10 (some (getSortString byStreet))).map PageRequest.sort =
      some [⟨PARAM_PAGE, .asc⟩] ∧
    ¬ ∀ pageable : PageRequest, (pageable.sort.map Order.property).Nodup →
      parseParamsToPageable 10 (some (getSortString pageable)) = some pageable := by
  have hread : (parseParamsToPageable 10 (some (getSortString byStreet))).map PageRequest.sort =
      some [⟨PARAM_PAGE, .asc⟩] := by decide
  refine ⟨hread, fun h => ?_⟩
  rw [h byStreet (by decide)] at hread
  exact absurd hread (by decide)

end Example

end Sorting
end AppNG
