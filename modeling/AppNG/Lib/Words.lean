import Mathlib.Data.List.DropRight

/-!
# Lib.Words

The words of a text: what is left of it between separators, without empty parts.

* `words_append_sep`: a separator keeps words apart.
* `words_append_of_end`, `length_words_glued`: two texts keep their words when one is put behind the other, unless a
  word ends the first one and a word starts the second one.
* `words_strip`: separators at the ends make no difference.
* `words_joined_iff`: texts that are stripped and put behind a first one, with nothing between them, keep their
  words if and only if the first one ends in no word and only one of the others has words, or none has.
-/

namespace AppNG
namespace Words

variable {α : Type} (p : α → Bool)

def words (l : List α) : List (List α) := (l.splitOnP p).filter (!·.isEmpty)

def startsInWord (l : List α) : Bool := l.head?.any (!p ·)

def endsInWord (l : List α) : Bool := l.getLast?.any (!p ·)

def strip (l : List α) : List α := (l.dropWhile p).rdropWhile p

variable {p} {as bs l : List α} {c sep : α}

@[simp] theorem words_nil : words p [] = [] := rfl

theorem words_append_sep (hsep : p sep = true) (as bs : List α) :
    words p (as ++ sep :: bs) = words p as ++ words p bs := by
  rw [words, List.splitOnP_append_cons as bs hsep, List.filter_append]
  rfl

theorem words_cons_sep (hsep : p sep = true) (bs : List α) : words p (sep :: bs) = words p bs :=
  words_append_sep hsep [] bs

theorem words_of_word (hne : as ≠ []) (has : ∀ c ∈ as, p c = false) : words p as = [as] := by
  rw [words, List.splitOnP_eq_singleton has]
  simp [hne]

theorem mem_of_mem_splitOnP (h : as ∈ l.splitOnP p) (hc : c ∈ as) : c ∈ l := by
  induction l generalizing as with
  | nil =>
    rw [List.splitOnP_nil, List.mem_singleton] at h
    exact h ▸ hc
  | cons d l ih =>
    rw [List.splitOnP_cons_eq_if_modifyHead] at h
    split at h
    · rcases List.mem_cons.mp h with rfl | h
      · cases hc
      · exact List.mem_cons_of_mem d (ih h hc)
    · obtain ⟨first, others, hsplit⟩ := List.exists_cons_of_ne_nil (List.splitOnP_ne_nil p l)
      rw [hsplit, List.modifyHead_cons] at h
      rw [hsplit] at ih
      rcases List.mem_cons.mp h with rfl | h
      · rcases List.mem_cons.mp hc with rfl | hc
        · exact List.mem_cons_self
        · exact List.mem_cons_of_mem d (ih List.mem_cons_self hc)
      · exact List.mem_cons_of_mem d (ih (List.mem_cons_of_mem first h) hc)

theorem mem_of_mem_words (h : as ∈ words p l) (hc : c ∈ as) : c ∈ l :=
  mem_of_mem_splitOnP (List.mem_of_mem_filter h) hc

/-! ## Two texts -/

theorem words_append_of_end (h : endsInWord p as = false) (bs : List α) :
    words p (as ++ bs) = words p as ++ words p bs := by
  rcases List.eq_nil_or_concat' as with rfl | ⟨before, c, rfl⟩
  · rfl
  · have hc : p c = true := by simpa [endsInWord] using h
    rw [List.append_assoc, List.singleton_append, words_append_sep hc, words_append_sep hc, words_nil, List.append_nil]

theorem words_append_of_start (h : startsInWord p bs = false) (as : List α) :
    words p (as ++ bs) = words p as ++ words p bs := by
  cases bs with
  | nil => simp
  | cons c bs =>
    have hc : p c = true := by simpa [startsInWord] using h
    rw [words_append_sep hc, words_cons_sep hc]

/-- An element of a word starts one, or belongs to the one behind it. -/
theorem length_words_cons (hc : p c = false) (l : List α) :
    (words p (c :: l)).length = (words p l).length + if startsInWord p l = true then 0 else 1 := by
  rw [words, List.splitOnP_cons_eq_if_modifyHead, if_neg (Bool.eq_false_iff.mp hc), words]
  cases l with
  | nil => rfl
  | cons d l =>
    rw [List.splitOnP_cons_eq_if_modifyHead]
    obtain ⟨first, others, hsplit⟩ := List.exists_cons_of_ne_nil (List.splitOnP_ne_nil p l)
    rw [hsplit]
    by_cases hd : p d = true
    · simp [hd, startsInWord]
    · simp [hd, startsInWord]

theorem length_words_glued (hend : endsInWord p as = true) (hstart : startsInWord p bs = true) :
    (words p (as ++ bs)).length + 1 = (words p as).length + (words p bs).length := by
  induction as with
  | nil => cases hend
  | cons c as ih =>
    cases as with
    | nil =>
      have hc : p c = false := by simpa [endsInWord] using hend
      have hword : words p [c] = [[c]] := words_of_word (List.cons_ne_nil c []) (by simpa using hc)
      rw [List.singleton_append, length_words_cons hc, if_pos hstart, hword, List.length_singleton]
      omega
    | cons d as =>
      have hrest := ih (by simpa [endsInWord] using hend)
      by_cases hc : p c = true
      · rw [List.cons_append, words_cons_sep hc, words_cons_sep hc]
        exact hrest
      · have hc' : p c = false := Bool.eq_false_iff.mpr hc
        have hsame : startsInWord p (d :: as ++ bs) = startsInWord p (d :: as) := rfl
        rw [List.cons_append, length_words_cons hc', length_words_cons hc', hsame]
        omega

/-- Words are lost only where two of them become one. -/
theorem length_words_append_le (as bs : List α) :
    (words p (as ++ bs)).length ≤ (words p as).length + (words p bs).length := by
  by_cases hend : endsInWord p as = true
  · by_cases hstart : startsInWord p bs = true
    · have hglued := length_words_glued hend hstart
      omega
    · rw [words_append_of_start (Bool.eq_false_iff.mpr hstart), List.length_append]
  · rw [words_append_of_end (Bool.eq_false_iff.mpr hend), List.length_append]

/-! ## Separators only -/

theorem words_cons_ne_nil (hc : p c = false) (l : List α) : words p (c :: l) ≠ [] := by
  rw [words, List.splitOnP_cons_eq_if_modifyHead, if_neg (Bool.eq_false_iff.mp hc)]
  obtain ⟨first, others, hsplit⟩ := List.exists_cons_of_ne_nil (List.splitOnP_ne_nil p l)
  rw [hsplit]
  simp

theorem words_eq_nil_iff : words p l = [] ↔ ∀ c ∈ l, p c = true := by
  induction l with
  | nil => simp
  | cons c l ih =>
    by_cases hc : p c = true
    · rw [words_cons_sep hc, ih]
      simp [hc]
    · refine iff_of_false (words_cons_ne_nil (Bool.eq_false_iff.mpr hc) l) fun h => hc ?_
      exact h c List.mem_cons_self

theorem endsInWord_rdropWhile (h : l.rdropWhile p ≠ []) : endsInWord p (l.rdropWhile p) = true := by
  have hlast := List.rdropWhile_last_not p l h
  rw [endsInWord, List.getLast?_eq_some_getLast h]
  simpa using hlast

/-- The elements may be changed, as long as separators stay separators. -/
theorem words_map_strip {f : α → α} (hf : ∀ c, p c = true → p (f c) = true) (l : List α) :
    words p ((strip p l).map f) = words p (l.map f) := by
  have hleft : ∀ l : List α, words p ((l.dropWhile p).map f) = words p (l.map f) := by
    intro l
    induction l with
    | nil => rfl
    | cons c l ih =>
      by_cases hc : p c = true
      · rw [List.dropWhile_cons_of_pos hc, ih, List.map_cons, words_cons_sep (hf c hc)]
      · rw [List.dropWhile_cons_of_neg hc]
  have hright : ∀ l : List α, words p ((l.rdropWhile p).map f) = words p (l.map f) := by
    intro l
    induction l using List.reverseRecOn with
    | nil => rfl
    | append_singleton l c ih =>
      by_cases hc : p c = true
      · rw [List.rdropWhile_concat_pos p l c hc, ih, List.map_append, List.map_singleton, words_append_sep (hf c hc),
          words_nil, List.append_nil]
      · rw [List.rdropWhile_concat_neg p l c hc]
  rw [strip, hright, hleft]

theorem words_strip (l : List α) : words p (strip p l) = words p l := by
  have hmap := words_map_strip (p := p) (f := id) (fun _ hc => hc) l
  rwa [List.map_id, List.map_id] at hmap

theorem strip_eq_nil (h : words p l = []) : strip p l = [] := by
  rw [strip, List.dropWhile_eq_nil_iff.mpr (words_eq_nil_iff.mp h)]
  rfl

theorem strip_ne_nil (h : words p l ≠ []) : strip p l ≠ [] := by
  intro hnil
  refine h ?_
  rw [← words_strip, hnil, words_nil]

theorem endsInWord_strip (h : words p l ≠ []) : endsInWord p (strip p l) = true :=
  endsInWord_rdropWhile (strip_ne_nil h)

theorem startsInWord_strip (h : words p l ≠ []) : startsInWord p (strip p l) = true := by
  obtain ⟨c, rest, hstrip⟩ := List.exists_cons_of_ne_nil (strip_ne_nil h)
  obtain ⟨tail, htail⟩ := List.rdropWhile_prefix p (l.dropWhile p)
  have hdrop : l.dropWhile p = c :: (rest ++ tail) := by
    rw [← htail, show (l.dropWhile p).rdropWhile p = c :: rest from hstrip, List.cons_append]
  have hc : p c = false := by
    have hhead := List.head?_dropWhile_not p l
    rw [hdrop] at hhead
    exact hhead
  simp [hstrip, startsInWord, hc]

/-! ## Many texts -/

variable (p) in
/-- The texts, stripped, one behind the other. -/
def joined (first : List α) (others : List (List α)) : List α := others.foldl (fun text l => text ++ strip p l) first

theorem length_words_joined_le (others : List (List α)) (first : List α) :
    (words p (joined p first others)).length ≤ (words p first ++ others.flatMap (words p)).length := by
  induction others generalizing first with
  | nil => simp [joined]
  | cons l others ih =>
    have hstep := length_words_append_le (p := p) first (strip p l)
    have hrest := ih (first ++ strip p l)
    rw [words_strip] at hstep
    simp only [List.flatMap_cons, List.length_append] at hrest ⊢
    show (words p (joined p (first ++ strip p l) others)).length ≤ _
    omega

theorem words_joined_iff (others : List (List α)) (first : List α) :
    words p (joined p first others) = words p first ++ others.flatMap (words p) ↔
      others.countP (fun l => !(words p l).isEmpty) ≤ if endsInWord p first = true then 0 else 1 := by
  induction others generalizing first with
  | nil => simp [joined]
  | cons l others ih =>
    show words p (joined p (first ++ strip p l) others) = _ ↔ _
    rw [List.countP_cons, List.flatMap_cons]
    by_cases hl : words p l = []
    · rw [strip_eq_nil hl, List.append_nil, hl, List.nil_append, ih]
      rfl
    · have hlast : endsInWord p (first ++ strip p l) = true := by
        rw [endsInWord, List.getLast?_append_of_ne_nil _ (strip_ne_nil hl)]
        exact endsInWord_strip hl
      have hbusy : (!(words p l).isEmpty) = true := by simpa using hl
      rw [hbusy, if_pos rfl]
      by_cases hend : endsInWord p first = true
      · -- a word of the first text and one of this one have become one
        have hglued := length_words_glued hend (startsInWord_strip hl)
        have hle := length_words_joined_le (p := p) others (first ++ strip p l)
        rw [words_strip] at hglued
        rw [if_pos hend]
        refine iff_of_false (fun heq => ?_) (by omega)
        rw [heq] at hle
        simp only [List.length_append] at hle
        omega
      · have hkept : words p (first ++ strip p l) = words p first ++ words p l := by
          rw [words_append_of_end (Bool.eq_false_iff.mpr hend), words_strip]
        have hrest := ih (first ++ strip p l)
        rw [hkept, hlast, if_pos rfl, List.append_assoc] at hrest
        rw [hrest, if_neg hend]
        omega

end Words
end AppNG
