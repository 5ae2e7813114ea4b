import Mathlib.Data.List.TakeDrop

/-!
# Lib.Paging

The pages of a list, counted from zero.

* `flatMap_chunk`: the first pages are the beginning of the list.
* `flatMap_of_chunks`: all pages are the list.
* `eq_of_chunks`: a list is known by its pages.
* `subList_chunk`: the part of a list between two indexes is a page if it starts where one starts and
  has its length, or ends with the list.
-/

namespace AppNG
namespace Paging

variable {α : Type}

def chunk (size page : Nat) (l : List α) : List α := (l.drop (page * size)).take size

/-- The number of pages with something on them. -/
def count (size : Nat) (l : List α) : Nat := (l.length + (size - 1)) / size

/-- The elements from one index up to another, `none` if there is no such part. -/
def subList (l : List α) (start stop : Int) : Option (List α) :=
  if 0 ≤ start ∧ start ≤ stop ∧ stop ≤ l.length then
    some ((l.drop start.toNat).take (stop - start).toNat)
  else none

variable {size page : Nat} {l : List α}

theorem flatMap_chunk (size : Nat) (l : List α) (pages : Nat) :
    (List.range pages).flatMap (fun page => chunk size page l) = l.take (pages * size) := by
  induction pages with
  | zero => simp
  | succ pages ih =>
    rw [List.range_succ, List.flatMap_append, ih, Nat.succ_mul, List.take_add]
    simp [chunk]

theorem lt_count_iff (h : 0 < size) : page < count size l ↔ page * size < l.length := by
  rw [count, Nat.lt_div_iff_mul_lt h]
  omega

theorem length_le_count_mul (h : 0 < size) : l.length ≤ count size l * size := by
  have hnot : ¬ count size l * size < l.length := by
    rw [← lt_count_iff h]
    exact Nat.lt_irrefl _
  omega

@[simp] theorem count_nil : count size ([] : List α) = 0 := by
  unfold count
  cases size with
  | zero => exact Nat.div_zero _
  | succ size => exact Nat.div_eq_of_lt (by simp)

theorem flatMap_of_chunks {f : Nat → List α} (h : 0 < size)
    (hchunks : ∀ page, page * size < l.length → f page = chunk size page l) :
    (List.range (count size l)).flatMap f = l := by
  have hmap : (List.range (count size l)).map f =
      (List.range (count size l)).map fun page => chunk size page l := by
    refine List.map_congr_left fun page hpage => hchunks page ?_
    exact (lt_count_iff h).mp (List.mem_range.mp hpage)
  rw [List.flatMap, hmap, ← List.flatMap, flatMap_chunk]
  exact List.take_of_length_le (length_le_count_mul h)

theorem eq_of_chunks {k : List α} (h : 0 < size) (hlength : k.length = l.length)
    (hchunks : ∀ page, page * size < l.length → chunk size page k = chunk size page l) : k = l := by
  have hcount : count size k = count size l := by rw [count, count, hlength]
  have hk : (List.range (count size k)).flatMap (fun page => chunk size page k) = k :=
    flatMap_of_chunks h fun _ _ => rfl
  rw [← hk, hcount]
  exact flatMap_of_chunks h hchunks

theorem subList_chunk (h : page * size ≤ l.length) {stop : Int}
    (hstop : stop = min ((page * size : Nat) + size : Int) l.length) :
    subList l (page * size : Nat) stop = some (chunk size page l) := by
  have hrange : 0 ≤ ((page * size : Nat) : Int) ∧ ((page * size : Nat) : Int) ≤ stop ∧
      stop ≤ l.length := by omega
  have hlength : (stop - (page * size : Nat)).toNat = min size (l.length - page * size) := by omega
  rw [subList, if_pos hrange, Int.toNat_natCast, hlength, chunk]
  rw [← List.length_drop, ← List.take_eq_take_min]

theorem subList_neg {start stop : Int} (h₁ : 0 ≤ start) (h₂ : stop < 0) : subList l start stop = none :=
  if_neg fun h => by omega

end Paging
end AppNG
