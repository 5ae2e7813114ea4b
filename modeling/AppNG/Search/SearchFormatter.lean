import AppNG.Lib.JavaInt
import AppNG.Lib.Paging

/-!
# Search.SearchFormatter

`SearchFormatter.paginate`: the page of the sorted documents that a search returns.

The page and the page size are whatever `Integer.valueOf` made of a parameter.

* `paginate_none`: a page size below 1 makes it throw.
* `paginate_some`: what is returned for a page that starts among the documents.
* `paginate_overflow`: nothing if its end overflows.
* `paginates_iff`: the page that is returned is the one that is reported, and the first one past the
  end, if and only if the page is the first one or its end does not overflow.
-/

namespace AppNG
namespace Search

structure SearchFormatter where
  page : Nat
  pageParamName : String := "page"
  pageSize : Int
  pageSizeParamName : String := "pageSize"
  query : Option String
  queryParamName : String := "q"
  time : Int

structure Pagination where
  numberOfElements : Nat
  numberOfPages : Int
  page : Nat
  pageSize : Int
  pageParam : String
  pageSizeParam : String
  deriving DecidableEq, Repr

/-- A `Search` with its `Results` and the one value of its filter. -/
structure SearchResult (D : Type) where
  time : Int
  data : List D
  pagination : Pagination
  filterName : String
  filterValue : Option String
  filterActive : Bool
  deriving DecidableEq, Repr

variable {D : Type}

/-- A start past the last index is reset. -/
def startIdx (formatter : SearchFormatter) (numberOfItems : Int) : Int :=
  let startIdx := Java.wrap (formatter.page * formatter.pageSize)
  if numberOfItems < startIdx then 0 else startIdx

def toIndex (formatter : SearchFormatter) (numberOfItems : Int) : Int :=
  let toIndex := Java.wrap (startIdx formatter numberOfItems + formatter.pageSize)
  if numberOfItems < toIndex then numberOfItems else toIndex

/-- None: `subList` or a division by zero throws. -/
def paginate (formatter : SearchFormatter) (sortedDocs : List D) : Option (SearchResult D) :=
  let numberOfItems : Int := sortedDocs.length
  match Paging.subList sortedDocs (startIdx formatter numberOfItems)
      (toIndex formatter numberOfItems) with
  | none => none
  | some resultList =>
    if formatter.pageSize = 0 then none
    else
      let pages := Int.tdiv numberOfItems formatter.pageSize +
        if 0 < Int.tmod numberOfItems formatter.pageSize then 1 else 0
      some {
        time := formatter.time
        data := resultList
        pagination := {
          numberOfElements := sortedDocs.length
          numberOfPages := pages
          page := formatter.page
          pageSize := formatter.pageSize
          pageParam := formatter.pageParamName
          pageSizeParam := formatter.pageSizeParamName }
        filterName := formatter.queryParamName
        filterValue := formatter.query
        filterActive := true }

/-! ## What it should do -/

/-- The page to return: the first one past the end. -/
def SearchFormatter.pageIn (formatter : SearchFormatter) (docs : List D) : Nat :=
  if formatter.page * formatter.pageSize < docs.length then formatter.page else 0

/-- The documents of the page are returned, and the page is reported. -/
def Paginates (formatter : SearchFormatter) (docs : List D) : Prop :=
  ∃ result, paginate formatter docs = some result ∧
    result.data = Paging.chunk formatter.pageSize.toNat (formatter.pageIn docs) docs ∧
    result.pagination.page = formatter.pageIn docs

/-- The documents that are returned for a page. -/
def dataOf (formatter : SearchFormatter) (docs : List D) (page : Nat) : List D :=
  ((paginate { formatter with page := page } docs).map (·.data)).getD []

/-- A formatter and documents with numbers that fit. -/
structure Call (D : Type) where
  formatter : SearchFormatter
  docs : List D
  page_le : (formatter.page : Int) ≤ Java.maxInt
  pageSize_ge : -2147483648 ≤ formatter.pageSize
  pageSize_le : formatter.pageSize ≤ Java.maxInt
  docs_le : (docs.length : Int) ≤ Java.maxInt

/-! ## What is returned -/

variable {formatter : SearchFormatter} {docs : List D}

theorem startIdx_le (formatter : SearchFormatter) {n : Int} (h : 0 ≤ n) : startIdx formatter n ≤ n := by
  simp only [startIdx]
  split <;> omega

/-- With a page size below 1 the end comes before the start. -/
theorem toIndex_back {n : Int} (h₀ : 0 ≤ n) (h₁ : -2147483648 ≤ formatter.pageSize)
    (h₂ : formatter.pageSize < 0) (h₃ : n ≤ Java.maxInt) :
    startIdx formatter n < 0 ∨ toIndex formatter n < startIdx formatter n := by
  have hle := startIdx_le formatter h₀
  by_cases hneg : startIdx formatter n < 0
  · exact Or.inl hneg
  · have hend : Java.wrap (startIdx formatter n + formatter.pageSize) =
        startIdx formatter n + formatter.pageSize := Java.wrap_of_range (by omega) (by omega)
    have hback : toIndex formatter n = startIdx formatter n + formatter.pageSize := by
      simp only [toIndex, hend]
      exact if_neg (by omega)
    omega

theorem paginate_none (h₁ : -2147483648 ≤ formatter.pageSize) (h₂ : formatter.pageSize < 1)
    (h₃ : (docs.length : Int) ≤ Java.maxInt) : paginate formatter docs = none := by
  unfold paginate
  by_cases hzero : formatter.pageSize = 0
  · simp only [hzero, if_true]
    split <;> rfl
  · have hback := toIndex_back (by omega) h₁ (by omega) h₃
    have hnone : Paging.subList docs (startIdx formatter docs.length)
        (toIndex formatter docs.length) = none := if_neg fun hrange => by omega
    simp only [hnone]

theorem numberOfPages_eq {size n : Nat} (h : 0 < size) :
    Int.tdiv n size + (if 0 < Int.tmod n size then 1 else 0) = ((n + (size - 1)) / size : Nat) := by
  rw [← Int.ofNat_tdiv, ← Int.ofNat_tmod]
  have hdiv := Nat.div_add_mod n size
  have hmod := Nat.mod_lt n h
  by_cases hrest : 0 < n % size
  · have hquot : (n + (size - 1)) / size = n / size + 1 := by
      rw [Nat.div_eq_iff h, Nat.succ_mul, Nat.mul_comm]
      omega
    rw [hquot, if_pos (by omega)]
    rfl
  · have hquot : (n + (size - 1)) / size = n / size := by
      rw [Nat.div_eq_iff h, Nat.mul_comm]
      omega
    rw [hquot, if_neg (by omega), Int.add_zero]

theorem page_of_paginate {result : SearchResult D} (h : paginate formatter docs = some result) :
    result.pagination.page = formatter.page := by
  unfold paginate at h
  simp only at h
  split at h
  · cases h
  · split at h
    · cases h
    · cases h
      rfl

theorem startIdx_eq {n : Int} (h₀ : 0 ≤ formatter.page * formatter.pageSize)
    (h₁ : formatter.page * formatter.pageSize ≤ n) (h₂ : n ≤ Java.maxInt) :
    startIdx formatter n = formatter.page * formatter.pageSize := by
  simp only [startIdx]
  rw [Java.wrap_of_range (by omega) (by omega), if_neg (by omega)]

/-- The page is cut out if its end does not overflow. -/
theorem paginate_some {size : Nat} (hsize : formatter.pageSize = size) (hpos : 0 < size)
    (hstart : formatter.page * size ≤ docs.length) (hdocs : (docs.length : Int) ≤ Java.maxInt)
    (hend : ((formatter.page * size : Nat) : Int) + size ≤ Java.maxInt) :
    ∃ result, paginate formatter docs = some result ∧
      result.data = Paging.chunk size formatter.page docs ∧
      result.pagination.numberOfPages = Paging.count size docs := by
  have hmul : formatter.page * formatter.pageSize = (formatter.page * size : Nat) := by
    rw [hsize, Int.natCast_mul]
  have hfrom : startIdx formatter docs.length = (formatter.page * size : Nat) := by
    rw [← hmul]
    exact startIdx_eq (by omega) (by omega) hdocs
  have hto : toIndex formatter docs.length =
      min (((formatter.page * size : Nat) : Int) + size) docs.length := by
    simp only [toIndex, hfrom, hsize, Java.wrap_of_range (by omega) hend]
    omega
  have hsub : Paging.subList docs (startIdx formatter docs.length) (toIndex formatter docs.length) =
      some (Paging.chunk size formatter.page docs) := by
    rw [hfrom]
    exact Paging.subList_chunk hstart hto
  unfold paginate
  simp only [hsub]
  rw [if_neg (by omega)]
  refine ⟨_, rfl, rfl, ?_⟩
  rw [hsize]
  exact numberOfPages_eq hpos

theorem paginate_overflow {size : Nat} (hsize : formatter.pageSize = size)
    (hle : (size : Int) ≤ Java.maxInt)
    (hstart : formatter.page * size < docs.length) (hdocs : (docs.length : Int) ≤ Java.maxInt)
    (hend : Java.maxInt < ((formatter.page * size : Nat) : Int) + size) :
    paginate formatter docs = none := by
  have hmul : formatter.page * formatter.pageSize = (formatter.page * size : Nat) := by
    rw [hsize, Int.natCast_mul]
  have hfrom : startIdx formatter docs.length = (formatter.page * size : Nat) := by
    rw [← hmul]
    exact startIdx_eq (by omega) (by omega) hdocs
  have hneg : Java.wrap (((formatter.page * size : Nat) : Int) + size) < 0 := by
    unfold Java.wrap
    unfold Java.maxInt at *
    omega
  have hto : toIndex formatter docs.length < 0 := by
    simp only [toIndex, hfrom, hsize]
    rw [if_neg (by omega)]
    exact hneg
  have hsub := Paging.subList_neg (l := docs) (by omega : 0 ≤ startIdx formatter docs.length) hto
  unfold paginate
  simp only [hsub]

/-- The page is the first one, or it starts among the documents and its end does not overflow. -/
def Ends (formatter : SearchFormatter) (docs : List D) : Prop :=
  formatter.page = 0 ∨
    formatter.page * formatter.pageSize < docs.length ∧
      formatter.page * formatter.pageSize + formatter.pageSize ≤ Java.maxInt

theorem paginates_of_ends {size : Nat} (hsize : formatter.pageSize = size) (hpos : 0 < size)
    (hle : (size : Int) ≤ Java.maxInt) (hdocs : (docs.length : Int) ≤ Java.maxInt)
    (h : Ends formatter docs) : Paginates formatter docs := by
  have hmul : formatter.page * formatter.pageSize = (formatter.page * size : Nat) := by
    rw [hsize, Int.natCast_mul]
  have hin : formatter.pageIn docs = formatter.page := by
    unfold SearchFormatter.pageIn
    split
    · rfl
    · rename_i hnot
      exact (h.resolve_right fun hrange => hnot hrange.1).symm
  have hends : formatter.page * size ≤ docs.length ∧
      ((formatter.page * size : Nat) : Int) + size ≤ Java.maxInt := by
    rcases h with hzero | ⟨hstart, hend⟩
    · rw [hzero]
      omega
    · rw [hmul] at hstart hend
      omega
  obtain ⟨result, hresult, hdata, -⟩ := paginate_some hsize hpos hends.1 hdocs hends.2
  refine ⟨result, hresult, ?_, ?_⟩
  · rw [hdata, hin, hsize, Int.toNat_natCast]
  · rw [page_of_paginate hresult, hin]

theorem ends_of_paginates {size : Nat} (hsize : formatter.pageSize = size)
    (hle : (size : Int) ≤ Java.maxInt) (hdocs : (docs.length : Int) ≤ Java.maxInt)
    (h : Paginates formatter docs) : Ends formatter docs := by
  obtain ⟨result, hresult, -, hpage⟩ := h
  have hmul : formatter.page * formatter.pageSize = (formatter.page * size : Nat) := by
    rw [hsize, Int.natCast_mul]
  rw [page_of_paginate hresult, SearchFormatter.pageIn] at hpage
  by_cases hstart : formatter.page * formatter.pageSize < docs.length
  · refine Or.inr ⟨hstart, ?_⟩
    by_contra hend
    have hnone : paginate formatter docs = none :=
      paginate_overflow hsize hle (by omega) hdocs (by omega)
    rw [hnone] at hresult
    cases hresult
  · rw [if_neg hstart] at hpage
    exact Or.inl hpage

/-- Where the pages are right that start among the documents, they are all documents. -/
theorem flatMap_dataOf (formatter : SearchFormatter) (docs : List D)
    (hpos : 0 < formatter.pageSize)
    (h : ∀ page : Nat, page * formatter.pageSize < docs.length →
      Paginates { formatter with page := page } docs) :
    (List.range (Paging.count formatter.pageSize.toNat docs)).flatMap (dataOf formatter docs) =
      docs := by
  refine Paging.flatMap_of_chunks (by omega) fun page hpage => ?_
  have hstart : page * formatter.pageSize < docs.length := by
    have hcast : ((page * formatter.pageSize.toNat : Nat) : Int) = page * formatter.pageSize := by
      rw [Int.natCast_mul, Int.toNat_of_nonneg (by omega)]
    omega
  obtain ⟨result, hresult, hdata, -⟩ := h page hstart
  have hin : SearchFormatter.pageIn { formatter with page := page } docs = page := if_pos hstart
  rw [hin] at hdata
  simp only [dataOf, hresult]
  exact hdata

theorem paginates_iff (call : Call D) :
    (Paginates call.formatter call.docs ↔
      1 ≤ call.formatter.pageSize ∧ Ends call.formatter call.docs) ∧
      ((∀ page : Nat, page * call.formatter.pageSize < call.docs.length →
          Paginates { call.formatter with page := page } call.docs) →
        (List.range (Paging.count call.formatter.pageSize.toNat call.docs)).flatMap
          (dataOf call.formatter call.docs) = call.docs) := by
  have hle := call.pageSize_le
  have hdocs := call.docs_le
  have hpos : ∀ page, Paginates { call.formatter with page := page } call.docs →
      1 ≤ call.formatter.pageSize := by
    rintro page ⟨result, hresult, -⟩
    by_contra hnot
    have hnone : paginate { call.formatter with page := page } call.docs = none :=
      paginate_none call.pageSize_ge (by simpa using hnot) hdocs
    rw [hnone] at hresult
    cases hresult
  have hcast : ∀ size : Int, 1 ≤ size → ∃ n : Nat, size = n :=
    fun size h => Int.eq_ofNat_of_zero_le (by omega)
  refine ⟨⟨fun h => ?_, fun ⟨hsize, h⟩ => ?_⟩, fun h => ?_⟩
  · have hsize : 1 ≤ call.formatter.pageSize := hpos call.formatter.page h
    obtain ⟨size, heq⟩ := hcast _ hsize
    exact ⟨hsize, ends_of_paginates heq (by omega) hdocs h⟩
  · obtain ⟨size, heq⟩ := hcast _ hsize
    exact paginates_of_ends heq (by omega) (by omega) hdocs h
  · by_cases hnil : call.docs = []
    · simp [hnil]
    · have hfirst : ((0 : Nat) : Int) * call.formatter.pageSize < call.docs.length := by
        have hlength : 0 < call.docs.length := List.length_pos_iff.mpr hnil
        omega
      exact flatMap_dataOf call.formatter call.docs (hpos 0 (h 0 hfirst)) h

section Example

/-- The page after the last one, which ends with the list. -/
def secondOfOne : SearchFormatter := { page := 1, pageSize := 2, query := some "q", time := 0 }

/-- Nothing is returned, as page 1, instead of the first page. -/
theorem empty_second_page :
    ((paginate secondOfOne ['a', 'b']).map fun result => (result.data, result.pagination.page)) =
        some ([], 1) ∧
      secondOfOne.pageIn ['a', 'b'] = 0 ∧ ¬ Paginates secondOfOne ['a', 'b'] := by
  have hresult : ((paginate secondOfOne ['a', 'b']).map
      fun result => (result.data, result.pagination.page)) = some ([], 1) := by decide
  have hin : secondOfOne.pageIn ['a', 'b'] = 0 := by decide
  refine ⟨hresult, hin, ?_⟩
  rintro ⟨result, hsome, -, hpage⟩
  rw [hsome] at hresult
  have hone : result.pagination.page = 1 := congrArg Prod.snd (Option.some.inj hresult)
  rw [hone, hin] at hpage
  cases hpage

end Example

end Search
end AppNG
