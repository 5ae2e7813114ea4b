import AppNG.Lib.Scan
import Mathlib.Data.List.TakeWhile
import Mathlib.Data.Nat.Find

/-!
# Lib.Removal

A word that is removed from a text, where a pattern finds it and where it should be removed.

The pattern looks at the text from left to right. A match starts somewhere in front of an occurrence of the
word, and ends with it; the occurrence is the last one before the next break. What is wanted is a set of
positions, each followed by something else than the head of the word.

* `keep`: the text without the elements at some positions.
* `Found`: a match ends here, no wanted occurrence lies in it, and no longer match goes over it.
* `render_scan_eq_keep_iff`: the pattern removes what is wanted if and only if these are the same positions.
-/

namespace AppNG
namespace Removal

variable {α : Type}

def At (word text : List α) (i : Nat) : Prop := word <+: text.drop i

instance [DecidableEq α] (word text : List α) (i : Nat) : Decidable (At word text i) :=
  inferInstanceAs (Decidable (word <+: text.drop i))

theorem drop_eq_cons {text : List α} {n : Nat} {c : α} (h : text[n]? = some c) :
    text.drop n = c :: text.drop (n + 1) := by
  obtain ⟨hlt, rfl⟩ := List.getElem?_eq_some_iff.mp h
  exact List.drop_eq_getElem_cons hlt

theorem exists_least {P : Nat → Prop} (h : ∃ n, P n) : ∃ n, P n ∧ ∀ k, k < n → ¬ P k := by
  classical
  exact ⟨Nat.find h, Nat.find_spec h, fun k hk => Nat.find_min h hk⟩

/-- The elements whose positions are not removed. -/
def keep (R : Nat → Prop) [DecidablePred R] : Nat → List α → List α
  | _, [] => []
  | n, c :: text => if R n then keep R (n + 1) text else c :: keep R (n + 1) text

section Keep

variable {R : Nat → Prop} [DecidablePred R]

theorem keep_append : ∀ (u v : List α) (n : Nat), keep R n (u ++ v) = keep R n u ++ keep R (n + u.length) v := by
  intro u
  induction u with
  | nil => exact fun _ _ => rfl
  | cons c u ih =>
    intro v n
    have hlen : n + (c :: u).length = n + 1 + u.length := by rw [List.length_cons]; omega
    rw [List.cons_append, keep, keep, ih, hlen]
    split
    · rfl
    · rfl

theorem keep_all : ∀ {u : List α} {n : Nat}, (∀ k, n ≤ k → k < n + u.length → ¬ R k) → keep R n u = u := by
  intro u
  induction u with
  | nil => exact fun _ => rfl
  | cons c u ih =>
    intro n h
    rw [List.length_cons] at h
    rw [keep, if_neg (h n (Nat.le_refl n) (by omega)), ih fun k hk hlt => h k (by omega) (by omega)]

theorem keep_none : ∀ {u : List α} {n : Nat}, (∀ k, n ≤ k → k < n + u.length → R k) → keep R n u = [] := by
  intro u
  induction u with
  | nil => exact fun _ => rfl
  | cons c u ih =>
    intro n h
    rw [List.length_cons] at h
    rw [keep, if_pos (h n (Nat.le_refl n) (by omega)), ih fun k hk hlt => h k (by omega) (by omega)]

end Keep

section Found

variable (word text : List α)

/-- No element from `i` up to `k` is a break. -/
def Unbroken (isBreak : α → Bool) (i k : Nat) : Prop :=
  ∀ m c, i ≤ m → m < k → text[m]? = some c → isBreak c = false

theorem unbroken_iff {isBreak : α → Bool} {i k : Nat} :
    Unbroken text isBreak i k ↔ ∀ c ∈ (text.drop i).take (k - i), isBreak c = false := by
  constructor
  · intro h c hc
    obtain ⟨m, hm⟩ := List.mem_iff_getElem?.mp hc
    have hlt : m < k - i := by
      by_contra hle
      rw [List.getElem?_eq_none (by rw [List.length_take]; omega)] at hm
      cases hm
    rw [List.getElem?_take_of_lt hlt, List.getElem?_drop] at hm
    exact h (i + m) c (by omega) (by omega) hm
  · intro h m c hle hlt hc
    refine h c (List.mem_of_getElem? (i := m - i) ?_)
    rw [List.getElem?_take_of_lt (by omega), List.getElem?_drop, show i + (m - i) = m by omega, hc]

instance (isBreak : α → Bool) (i k : Nat) : Decidable (Unbroken text isBreak i k) :=
  decidable_of_iff _ (unbroken_iff text).symm

/-- There is a break between the word at `i`, and any later one. -/
def Last (isBreak : α → Bool) (i : Nat) : Prop :=
  ∀ k, i < k → At word text k → ¬ Unbroken text isBreak i k

variable (wanted : Nat → Prop) (matched : Nat → Nat → Prop)

/-- What is wanted in front of `i` ends in front of `s`. -/
def Free (s i : Nat) : Prop := ∀ j, j < i → wanted j → j + word.length ≤ s

/-- A match ends with the word at `i`; none that begins before goes further. -/
def Found (i : Nat) : Prop :=
  ∃ s, matched s i ∧ Free word wanted s i ∧
    ¬ ∃ s' i', s' < s ∧ i < i' ∧ matched s' i' ∧ Free word wanted s' i

/-- The positions of the words that are wanted. -/
def Removed (k : Nat) : Prop := ∃ i, wanted i ∧ i ≤ k ∧ k < i + word.length

end Found

/-- A reader that removes a word: it returns what is in front of it. -/
structure Reader (isBreak : α → Bool) (word text : List α) where
  read : List α → Option (List α × Nat)
  matched : Nat → Nat → Prop
  lt_of_matched : ∀ {s i}, matched s i → s < i
  at_of_matched : ∀ {s i}, matched s i → At word text i
  last_of_matched : ∀ {s i}, matched s i → Last word text isBreak i
  unique : ∀ {s i i'}, matched s i → matched s i' → i = i'
  read_eq_none : ∀ {s}, (∀ i, ¬ matched s i) → read (text.drop s) = none
  read_eq_some : ∀ {s i}, matched s i →
    read (text.drop s) = some ((text.drop s).take (i - s), i + word.length - s - 1)

section Render

variable {isBreak : α → Bool} {head : α} {tail text : List α}
  (reader : Reader isBreak (head :: tail) text)

/-- The text from a position on, with the words that are found removed. -/
def Reader.output (n : Nat) : List α := Scan.render id (Scan.scan reader.read 0 (text.drop n))

theorem output_plain {n : Nat} {c : α} (hc : text[n]? = some c) (h : ∀ i, ¬ reader.matched n i) :
    reader.output n = c :: reader.output (n + 1) := by
  have hread := reader.read_eq_none h
  rw [drop_eq_cons hc] at hread
  rw [Reader.output, drop_eq_cons hc, Scan.scan_plain hread]
  rfl

theorem length_of_at {i : Nat} (h : At (head :: tail) text i) : i + tail.length < text.length := by
  have hle := h.length_le
  rw [List.length_cons, List.length_drop] at hle
  omega

theorem output_matched {n i : Nat} (h : reader.matched n i) :
    reader.output n = (text.drop n).take (i - n) ++ reader.output (i + tail.length + 1) := by
  have hlt := reader.lt_of_matched h
  have hlen := length_of_at (reader.at_of_matched h)
  have hread := reader.read_eq_some h
  obtain ⟨c, hc⟩ : ∃ c, text[n]? = some c := ⟨_, List.getElem?_eq_getElem (by omega)⟩
  have hsplit := drop_eq_cons hc
  have hend : n + 1 + (i + (head :: tail).length - n - 1) = i + tail.length + 1 := by
    rw [List.length_cons]
    omega
  rw [Reader.output, hsplit]
  rw [hsplit] at hread
  rw [Scan.scan_item hread, List.drop_drop, Scan.render_cons, hend]
  rfl

theorem output_end {n : Nat} (h : text.length ≤ n) : reader.output n = [] := by
  rw [Reader.output, List.drop_eq_nil_of_le h]
  rfl

/-! ## Words -/

theorem getElem?_of_at {i k : Nat} (h : At (head :: tail) text i) (hk : k < tail.length + 1) :
    text[i + k]? = (head :: tail)[k]? := by
  obtain ⟨rest, hrest⟩ := h
  rw [← List.getElem?_drop, ← hrest, List.getElem?_append_left (by simpa using hk)]

theorem head_of_at {i : Nat} (h : At (head :: tail) text i) : text[i]? = some head :=
  getElem?_of_at h (Nat.succ_pos _)

/-- The occurrences of a word that does not repeat its head do not overlap. -/
theorem not_at_of_at (hhead : head ∉ tail) {i j : Nat} (hi : At (head :: tail) text i) (hlt : i < j)
    (hle : j < i + tail.length + 1) : ¬ At (head :: tail) text j := by
  intro hj
  have hcolumn := getElem?_of_at hi (k := j - i) (by omega)
  rw [show i + (j - i) = j by omega, head_of_at hj] at hcolumn
  obtain ⟨k, hk⟩ : ∃ k, j - i = k + 1 := ⟨j - i - 1, by omega⟩
  rw [hk, List.getElem?_cons_succ] at hcolumn
  exact hhead (List.mem_of_getElem? hcolumn.symm)

theorem unbroken_of_at (hword : ∀ c ∈ head :: tail, isBreak c = false) {i : Nat}
    (h : At (head :: tail) text i) : Unbroken text isBreak i (i + tail.length + 1) := by
  intro m c hle hlt hc
  have hm := getElem?_of_at h (k := m - i) (by omega)
  rw [show i + (m - i) = m by omega, hc] at hm
  exact hword c (List.mem_of_getElem? hm.symm)

theorem Unbroken.append {i j k : Nat} (hij : Unbroken text isBreak i j) (hjk : Unbroken text isBreak j k) :
    Unbroken text isBreak i k := by
  intro m c hle hlt hc
  by_cases hm : m < j
  · exact hij m c hle hm hc
  · exact hjk m c (by omega) hlt hc

theorem Unbroken.cons {n k : Nat} {c : α} (hc : text[n]? = some c) (hbreak : isBreak c = false)
    (h : Unbroken text isBreak (n + 1) k) : Unbroken text isBreak n k := by
  refine Unbroken.append (j := n + 1) (fun m d hle hlt hd => ?_) h
  obtain rfl : m = n := by omega
  rw [hc, Option.some.injEq] at hd
  rw [← hd, hbreak]

/-- What is in front of the first break does not depend on what is behind a break. -/
theorem takeWhile_take {n i : Nat} (h : ¬ Unbroken text isBreak n i) (rest : List α) :
    ((text.drop n).take (i - n) ++ rest).takeWhile (fun c => !isBreak c) =
      (text.drop n).takeWhile fun c => !isBreak c := by
  have hnot : ((text.drop n).take (i - n)).takeWhile (fun c => !isBreak c) ≠ (text.drop n).take (i - n) := by
    intro hself
    refine h ((unbroken_iff text).mpr fun c hc => ?_)
    simpa using List.takeWhile_eq_self_iff.mp hself c hc
  have hlen : ¬ (((text.drop n).take (i - n)).takeWhile fun c => !isBreak c).length =
      ((text.drop n).take (i - n)).length :=
    fun heq => hnot ((List.takeWhile_prefix _).eq_of_length heq)
  conv =>
    rhs
    rw [← List.take_append_drop (i - n) (text.drop n)]
  rw [List.takeWhile_append, if_neg hlen, List.takeWhile_append, if_neg hlen]

/-- Up to the first break nothing is removed where there is no word. -/
theorem takeWhile_output {n : Nat} (h : ∀ k, n ≤ k → At (head :: tail) text k → ¬ Unbroken text isBreak n k) :
    (reader.output n).takeWhile (fun c => !isBreak c) = (text.drop n).takeWhile fun c => !isBreak c := by
  induction hlen : text.length - n generalizing n with
  | zero => rw [output_end reader (by omega), List.drop_eq_nil_of_le (by omega)]
  | succ len ih =>
    by_cases hmatched : ∃ i, reader.matched n i
    · obtain ⟨i, hi⟩ := hmatched
      rw [output_matched reader hi]
      exact takeWhile_take (h i (Nat.le_of_lt (reader.lt_of_matched hi)) (reader.at_of_matched hi)) _
    · simp only [not_exists] at hmatched
      obtain ⟨c, hc⟩ : ∃ c, text[n]? = some c := ⟨_, List.getElem?_eq_getElem (by omega)⟩
      rw [output_plain reader hc hmatched, drop_eq_cons hc, List.takeWhile_cons, List.takeWhile_cons]
      cases hbreak : isBreak c with
      | true => rfl
      | false =>
        exact congrArg (c :: ·) (ih (fun k hk hat hun => h k (by omega) hat (hun.cons hc hbreak)) (by omega))

theorem takeWhile_keep {R : Nat → Prop} [DecidablePred R] {n : Nat}
    (h : ∀ k, n ≤ k → Unbroken text isBreak n k → ¬ R k) :
    (keep R n (text.drop n)).takeWhile (fun c => !isBreak c) = (text.drop n).takeWhile fun c => !isBreak c := by
  induction hlen : text.length - n generalizing n with
  | zero =>
    rw [List.drop_eq_nil_of_le (by omega)]
    rfl
  | succ len ih =>
    obtain ⟨c, hc⟩ : ∃ c, text[n]? = some c := ⟨_, List.getElem?_eq_getElem (by omega)⟩
    have hkept : ¬ R n := h n (Nat.le_refl n) fun m d hle hlt _ => absurd hlt (by omega)
    rw [drop_eq_cons hc, keep, if_neg hkept, List.takeWhile_cons, List.takeWhile_cons]
    cases hbreak : isBreak c with
    | true => rfl
    | false =>
      exact congrArg (c :: ·) (ih (fun k hk hun => h k (by omega) (hun.cons hc hbreak)) (by omega))

/-! ## Agreement -/

/-- Up to a position the matches that were found are the wanted ones. -/
structure Agrees (wanted : Nat → Prop) (n : Nat) : Prop where
  before : ∀ j, wanted j → j < n → j + tail.length + 1 ≤ n
  blocked : ∀ s i, reader.matched s i → s < n → n ≤ i → ∃ j, wanted j ∧ j < n ∧ s < j + tail.length + 1

/-- What is wanted, and no other word, follows from the text. -/
structure Proper (wanted : Nat → Prop) (isBreak : α → Bool) (head : α) (tail text : List α) : Prop where
  word : ∀ c ∈ head :: tail, isBreak c = false
  head_not_mem : head ∉ tail
  at_of_wanted : ∀ {j}, wanted j → At (head :: tail) text j
  next : ∀ {j c}, wanted j → text[j + tail.length + 1]? = some c → c ≠ head

variable {reader} {wanted : Nat → Prop}

theorem Agrees.le_of_free {n s i i' : Nat} (h : Agrees reader wanted n)
    (hmatched : reader.matched s i') (hni' : n ≤ i') (hni : n ≤ i) (hfree : Free (head :: tail) wanted s i) :
    n ≤ s := by
  by_contra hlt
  obtain ⟨j, hj, hjn, hblocked⟩ := h.blocked s i' hmatched (by omega) hni'
  have hends := hfree j (by omega) hj
  rw [List.length_cons] at hends
  omega

theorem Agrees.not_found {n j : Nat} (h : Agrees reader wanted n) (hnj : n ≤ j)
    (hmatched : ∀ s, n ≤ s → s < j → ¬ reader.matched s j ∨ ∃ s' i', s' < s ∧ j < i' ∧ reader.matched s' i' ∧
      Free (head :: tail) wanted s' j) : ¬ Found (head :: tail) wanted reader.matched j := by
  rintro ⟨s, hs, hfree, hnot⟩
  rcases hmatched s (h.le_of_free hs hnj hnj hfree) (reader.lt_of_matched hs) with hno | hcovered
  · exact hno hs
  · exact hnot hcovered

theorem Agrees.succ {n : Nat} (h : Agrees reader wanted n) (hwanted : ¬ wanted n)
    (hmatched : ∀ i, ¬ reader.matched n i) : Agrees reader wanted (n + 1) := by
  refine ⟨fun j hj hlt => ?_, fun s i hs hlt hle => ?_⟩
  · have hne : j ≠ n := by
      rintro rfl
      exact hwanted hj
    have hends := h.before j hj (by omega)
    omega
  · have hne : s ≠ n := by
      rintro rfl
      exact hmatched i hs
    obtain ⟨j, hj, hjn, hblocked⟩ := h.blocked s i hs (by omega) (by omega)
    exact ⟨j, hj, by omega, hblocked⟩

theorem Agrees.not_removed {n j k : Nat} (h : Agrees reader wanted n)
    (hnone : ∀ k, n ≤ k → k < j → ¬ wanted k) (hnk : n ≤ k) (hkj : k < j) :
    ¬ Removed (head :: tail) wanted k := by
  rintro ⟨i, hi, hik, hlt⟩
  rw [List.length_cons] at hlt
  by_cases hin : i < n
  · have hends := h.before i hi hin
    omega
  · exact hnone i (by omega) (by omega) hi

/-- The text up to the first position that is wanted is kept. -/
theorem Agrees.keep_eq [DecidablePred (Removed (head :: tail) wanted)] {n j : Nat} (h : Agrees reader wanted n) (hnj : n ≤ j) (hj : j ≤ text.length)
    (hnone : ∀ k, n ≤ k → k < j → ¬ wanted k) :
    keep (Removed (head :: tail) wanted) n (text.drop n) =
      (text.drop n).take (j - n) ++ keep (Removed (head :: tail) wanted) j (text.drop j) := by
  have hlen : ((text.drop n).take (j - n)).length = j - n := by
    rw [List.length_take, List.length_drop]
    omega
  have hdrop : (text.drop n).drop (j - n) = text.drop j := by
    rw [List.drop_drop, show n + (j - n) = j by omega]
  rw [← hdrop]
  conv =>
    lhs
    rw [← List.take_append_drop (j - n) (text.drop n)]
  rw [keep_append, hlen, show n + (j - n) = j by omega, keep_all]
  intro k hnk hlt
  rw [hlen] at hlt
  exact h.not_removed hnone hnk (by omega)

section Proper

variable (hproper : Proper wanted isBreak head tail text)
include hproper

theorem Proper.not_wanted {i j : Nat} (hi : At (head :: tail) text i) (hlt : i < j)
    (hle : j < i + tail.length + 1) : ¬ wanted j := fun hj =>
  not_at_of_at hproper.head_not_mem hi hlt hle (hproper.at_of_wanted hj)

theorem Agrees.found {n i : Nat} (h : Agrees reader wanted n) (hmatched : reader.matched n i)
    (hnone : ∀ j, n ≤ j → j < i → ¬ wanted j) (hi : wanted i) :
    Agrees reader wanted (i + tail.length + 1) := by
  have hni := reader.lt_of_matched hmatched
  refine ⟨fun j hj hlt => ?_, fun s i' _ hlt hle => ⟨i, hi, by omega, hlt⟩⟩
  rcases Nat.lt_trichotomy j i with hji | rfl | hij
  · have hends := h.before j hj (Nat.lt_of_not_le fun hle => hnone j hle hji hj)
    omega
  · exact Nat.le_refl _
  · exact absurd hj (hproper.not_wanted (hproper.at_of_wanted hi) hij hlt)

variable [DecidablePred (Removed (head :: tail) wanted)]

theorem Proper.keep_wanted {j : Nat} (hj : wanted j) :
    keep (Removed (head :: tail) wanted) j (text.drop j) =
        keep (Removed (head :: tail) wanted) (j + tail.length + 1) (text.drop (j + tail.length + 1)) ∧
      (keep (Removed (head :: tail) wanted) (j + tail.length + 1)
        (text.drop (j + tail.length + 1))).head? ≠ some head := by
  obtain ⟨rest, hrest⟩ := hproper.at_of_wanted hj
  have hdrop : text.drop (j + tail.length + 1) = rest := by
    rw [Nat.add_assoc, ← List.drop_drop, ← hrest]
    simp
  constructor
  · rw [hdrop, ← hrest, keep_append, keep_none, List.nil_append]
    · rw [List.length_cons, Nat.add_assoc]
    · exact fun k hk hlt => ⟨j, hj, hk, hlt⟩
  · by_cases hend : text.length ≤ j + tail.length + 1
    · rw [List.drop_eq_nil_of_le hend]
      exact nofun
    · obtain ⟨c, hc⟩ : ∃ c, text[j + tail.length + 1]? = some c :=
        ⟨_, List.getElem?_eq_getElem (by omega)⟩
      have hkept : ¬ Removed (head :: tail) wanted (j + tail.length + 1) := by
        rintro ⟨i, hi, hle, hlt⟩
        rw [List.length_cons] at hlt
        rcases Nat.lt_trichotomy i (j + tail.length + 1) with hij | rfl | hij
        · exact hproper.not_wanted (hproper.at_of_wanted hj) (by omega) hij hi
        · exact hproper.next hj hc (Option.some.inj (hc.symm.trans (head_of_at (hproper.at_of_wanted hi))))
        · omega
      rw [drop_eq_cons hc, keep, if_neg hkept, List.head?_cons]
      exact fun heq => hproper.next hj hc (Option.some.inj heq)

/-- What is wanted first, and not found, is missing. -/
theorem Agrees.keep_ne {n j : Nat} (h : Agrees reader wanted n) (hnj : n ≤ j)
    (hnone : ∀ k, n ≤ k → k < j → ¬ wanted k) (hj : wanted j) (rest : List α) :
    (text.drop n).take (j - n) ++ head :: rest ≠ keep (Removed (head :: tail) wanted) n (text.drop n) := by
  have hlen := length_of_at (hproper.at_of_wanted hj)
  obtain ⟨hkeep, hhead⟩ := hproper.keep_wanted hj
  rw [h.keep_eq hnj (by omega) hnone, hkeep]
  intro heq
  rw [← List.append_cancel_left heq] at hhead
  exact hhead rfl

/-- What is found first, and not wanted, is missing. -/
theorem Agrees.output_ne {n i : Nat} (h : Agrees reader wanted n) (hmatched : reader.matched n i)
    (hnone : ∀ k, n ≤ k → k ≤ i → ¬ wanted k) :
    reader.output n ≠ keep (Removed (head :: tail) wanted) n (text.drop n) := by
  have hni := reader.lt_of_matched hmatched
  have hat := reader.at_of_matched hmatched
  have hlast := reader.last_of_matched hmatched
  have hlen := length_of_at hat
  rw [output_matched reader hmatched,
    h.keep_eq (Nat.le_of_lt hni) (by omega) fun k hnk hki => hnone k hnk (Nat.le_of_lt hki)]
  intro heq
  have htail := congrArg (List.takeWhile fun c => !isBreak c) (List.append_cancel_left heq)
  have hword := unbroken_of_at hproper.word hat
  rw [takeWhile_output, takeWhile_keep] at htail
  · obtain ⟨rest, hrest⟩ := hat
    have hdrop : text.drop (i + tail.length + 1) = rest := by
      rw [Nat.add_assoc, ← List.drop_drop, ← hrest]
      simp
    rw [hdrop, ← hrest, List.takeWhile_append_of_pos fun c hc => by simp [hproper.word c hc]] at htail
    have hlength := congrArg List.length htail
    rw [List.length_append, List.length_cons] at hlength
    omega
  · rintro k hik hun ⟨j, hj, hjk, hlt⟩
    rw [List.length_cons] at hlt
    by_cases hjn : j < n
    · have hends := h.before j hj hjn
      omega
    · have hij : i < j := Nat.lt_of_not_le fun hji => hnone j (by omega) hji hj
      exact hlast j hij (hproper.at_of_wanted hj) fun m c hle hm hc => hun m c hle (by omega) hc
  · exact fun k hk hkat hun => hlast k (by omega) hkat (hword.append hun)

/-- A word that is wanted in front of the first one that is found stays in the text. -/
theorem Agrees.earlier {n i j : Nat} (h : Agrees reader wanted n) (hi : reader.matched n i) (hnj : n ≤ j)
    (hji : j < i) (hj : wanted j) (hnone : ∀ k, n ≤ k → k < j → ¬ wanted k) :
    reader.output n ≠ keep (Removed (head :: tail) wanted) n (text.drop n) ∧
      ¬ Found (head :: tail) wanted reader.matched j := by
  have hhead := head_of_at (hproper.at_of_wanted hj)
  have hsplit : (text.drop n).take (i - n) =
      (text.drop n).take (j - n) ++ head :: (text.drop (j + 1)).take (i - j - 1) := by
    rw [show i - n = (j - n) + (i - j) by omega, List.take_add, List.drop_drop,
      show n + (j - n) = j by omega, drop_eq_cons hhead, show i - j = i - j - 1 + 1 by omega,
      List.take_succ_cons]
    rfl
  refine ⟨?_, h.not_found hnj fun s hns hsj => ?_⟩
  · rw [output_matched reader hi, hsplit, List.append_assoc, List.cons_append]
    exact h.keep_ne hproper hnj hnone hj _
  · by_cases hs : s = n
    · subst hs
      exact .inl fun hmatched => absurd (reader.unique hmatched hi) (by omega)
    · refine .inr ⟨n, i, by omega, hji, hi, fun k hkj hk => ?_⟩
      exact h.before k hk (Nat.lt_of_not_le fun hnk => hnone k hnk hkj hk)

omit hproper [DecidablePred (Removed (head :: tail) wanted)] in
/-- Where nothing is wanted before, the first word that is found is found, and none in front of it. -/
theorem Agrees.first {n i : Nat} (h : Agrees reader wanted n) (hi : reader.matched n i)
    (hnone : ∀ k, n ≤ k → k < i → ¬ wanted k) :
    Found (head :: tail) wanted reader.matched i ∧
      ∀ k, n ≤ k → k < i → ¬ Found (head :: tail) wanted reader.matched k := by
  have hni := reader.lt_of_matched hi
  refine ⟨⟨n, hi, fun k hki hk => ?_, ?_⟩, fun k hnk hki => h.not_found hnk fun s hns hsk => ?_⟩
  · exact h.before k hk (Nat.lt_of_not_le fun hnk => hnone k hnk hki hk)
  · rintro ⟨s, i', hsn, hii', hs, hsfree⟩
    have hns := h.le_of_free hs (by omega) (Nat.le_of_lt hni) hsfree
    omega
  · by_cases hs : s = n
    · subst hs
      exact .inl fun hmatched => absurd (reader.unique hmatched hi) (by omega)
    · refine .inr ⟨n, i, by omega, hki, hi, fun j hjk hj => ?_⟩
      exact h.before j hj (Nat.lt_of_not_le fun hnj => hnone j hnj (by omega) hj)

/-- From where they agree, what is found and what is wanted give the same text if and only if they are
the same. -/
theorem output_eq_keep_iff {n : Nat} (h : Agrees reader wanted n) :
    reader.output n = keep (Removed (head :: tail) wanted) n (text.drop n) ↔
      ∀ i, n ≤ i → At (head :: tail) text i → (wanted i ↔ Found (head :: tail) wanted reader.matched i) := by
  induction hlen : text.length - n using Nat.strong_induction_on generalizing n with
  | _ len ih =>
    by_cases hend : text.length ≤ n
    · rw [output_end reader hend, List.drop_eq_nil_of_le hend]
      refine iff_of_true rfl fun i hi hat => ?_
      have hlt := length_of_at hat
      omega
    · obtain ⟨c, hc⟩ : ∃ c, text[n]? = some c := ⟨_, List.getElem?_eq_getElem (by omega)⟩
      by_cases hex : ∃ i, reader.matched n i
      · obtain ⟨i, hi⟩ := hex
        have hni := reader.lt_of_matched hi
        by_cases hearlier : ∃ j, n ≤ j ∧ j < i ∧ wanted j
        · obtain ⟨j, ⟨hnj, hji, hj⟩, hleast⟩ := exists_least hearlier
          have hnone : ∀ k, n ≤ k → k < j → ¬ wanted k := fun k hnk hkj hk => hleast k hkj ⟨hnk, by omega, hk⟩
          obtain ⟨hne, hnot⟩ := h.earlier hproper hi hnj hji hj hnone
          exact iff_of_false hne fun hall => hnot ((hall j hnj (hproper.at_of_wanted hj)).mp hj)
        · have hnone : ∀ k, n ≤ k → k < i → ¬ wanted k := fun k hnk hki hk => hearlier ⟨k, hnk, hki, hk⟩
          obtain ⟨hfound, hbelow⟩ := h.first hi hnone
          by_cases hiwanted : wanted i
          · obtain ⟨hkeep, _⟩ := hproper.keep_wanted hiwanted
            have hlt := length_of_at (reader.at_of_matched hi)
            rw [output_matched reader hi, h.keep_eq (Nat.le_of_lt hni) (by omega) hnone, hkeep,
              List.append_cancel_left_eq,
              ih (text.length - (i + tail.length + 1)) (by omega) (h.found hproper hi hnone hiwanted) rfl]
            constructor
            · intro hall k hnk hat
              rcases Nat.lt_trichotomy k i with hki | rfl | hik
              · exact iff_of_false (hnone k hnk hki) (hbelow k hnk hki)
              · exact iff_of_true hiwanted hfound
              · refine hall k (Nat.le_of_not_lt fun hlt => ?_) hat
                exact not_at_of_at hproper.head_not_mem (reader.at_of_matched hi) hik hlt hat
            · exact fun hall k hk hat => hall k (by omega) hat
          · refine iff_of_false (h.output_ne hproper hi fun k hnk hki hk => ?_) fun hall =>
              hiwanted ((hall i (Nat.le_of_lt hni) (reader.at_of_matched hi)).mpr hfound)
            by_cases hk' : k = i
            · subst hk'
              exact hiwanted hk
            · exact hnone k hnk (by omega) hk
      · simp only [not_exists] at hex
        have hnot : ¬ Found (head :: tail) wanted reader.matched n :=
          h.not_found (Nat.le_refl n) fun s hle hlt => absurd hlt (by omega)
        by_cases hn : wanted n
        · refine iff_of_false ?_ fun hall => hnot ((hall n (Nat.le_refl n) (hproper.at_of_wanted hn)).mp hn)
          have hhead := head_of_at (hproper.at_of_wanted hn)
          rw [hc, Option.some.injEq] at hhead
          have hne := h.keep_ne hproper (Nat.le_refl n) (fun k hnk hkn => absurd hkn (by omega)) hn
            (reader.output (n + 1))
          rw [Nat.sub_self, List.take_zero, List.nil_append] at hne
          rwa [output_plain reader hc hex, hhead]
        · have hkeep := h.keep_eq (j := n + 1) (by omega) (by omega) fun k hnk hkn => by
            rwa [show k = n by omega]
          have hone : (text.drop n).take (n + 1 - n) = [c] := by
            rw [drop_eq_cons hc, show n + 1 - n = 1 by omega]
            rfl
          rw [hkeep, hone, output_plain reader hc hex, List.singleton_append, List.cons_eq_cons, eq_self, true_and,
            ih (text.length - (n + 1)) (by omega) (h.succ hn hex) rfl]
          constructor
          · intro hall i hni hat
            by_cases heq : n = i
            · subst heq
              exact iff_of_false hn hnot
            · exact hall i (by omega) hat
          · exact fun hall i hni hat => hall i (by omega) hat

end Proper

/-- The pattern removes what is wanted if and only if it finds what is wanted. -/
theorem render_scan_eq_keep_iff (reader : Reader isBreak (head :: tail) text)
    (hproper : Proper wanted isBreak head tail text) [DecidablePred (Removed (head :: tail) wanted)] :
    Scan.render id (Scan.scan reader.read 0 text) = keep (Removed (head :: tail) wanted) 0 text ↔
      ∀ i, At (head :: tail) text i → (wanted i ↔ Found (head :: tail) wanted reader.matched i) := by
  have hstart : Agrees reader wanted 0 :=
    ⟨fun j _ hlt => absurd hlt (Nat.not_lt_zero j), fun s _ _ hlt => absurd hlt (Nat.not_lt_zero s)⟩
  have hiff := output_eq_keep_iff hproper hstart
  rw [Reader.output, List.drop_zero] at hiff
  rw [hiff]
  exact ⟨fun hall i => hall i (Nat.zero_le i), fun hall i _ => hall i⟩

end Render

/-! ## Greedy patterns -/

section Greedy

variable [DecidableEq α] (isBreak : α → Bool) (head : α) (tail : List α)

/-- At least one element, as many as possible without a break, and the word behind them. -/
def greedy : List α → Option (List α)
  | [] => none
  | c :: text =>
    if isBreak c then none
    else
      match greedy text with
      | some part => some (c :: part)
      | none => if head :: tail <+: text then some [c] else none

/-- The part from `e` up to the last word in front of a break. -/
def Ends (text : List α) (e i : Nat) : Prop :=
  e < i ∧ At (head :: tail) text i ∧ Unbroken text isBreak e i ∧ Last (head :: tail) text isBreak i

variable {isBreak head tail} {text : List α}

omit [DecidableEq α] in
theorem Ends.unique {e i i' : Nat} (h : Ends isBreak head tail text e i) (h' : Ends isBreak head tail text e i') :
    i = i' := by
  rcases Nat.lt_trichotomy i i' with hlt | heq | hlt
  · exact absurd (fun m c hle hm hc => h'.2.2.1 m c (Nat.le_trans (Nat.le_of_lt h.1) hle) hm hc)
      (h.2.2.2 i' hlt h'.2.1)
  · exact heq
  · exact absurd (fun m c hle hm hc => h.2.2.1 m c (Nat.le_trans (Nat.le_of_lt h'.1) hle) hm hc)
      (h'.2.2.2 i hlt h.2.1)

omit [DecidableEq α] in
/-- Where there is a word in front of a break, there is a last one. -/
theorem exists_ends {e k : Nat} (hek : e < k) (hat : At (head :: tail) text k) (hun : Unbroken text isBreak e k) :
    ∃ i, Ends isBreak head tail text e i := by
  induction hlen : text.length - k using Nat.strong_induction_on generalizing k with
  | _ len ih =>
    by_cases hlast : Last (head :: tail) text isBreak k
    · exact ⟨k, hek, hat, hun, hlast⟩
    · simp only [Last, not_forall, not_not] at hlast
      obtain ⟨k', hkk', hat', hun'⟩ := hlast
      have hlt := length_of_at hat'
      exact ih _ (by omega) (by omega) hat' (hun.append hun') rfl

omit [DecidableEq α] in
theorem Ends.cons {e i : Nat} {c : α} (hc : text[e]? = some c) (hbreak : isBreak c = false)
    (h : Ends isBreak head tail text (e + 1) i) : Ends isBreak head tail text e i :=
  ⟨Nat.lt_of_succ_lt h.1, h.2.1, h.2.2.1.cons hc hbreak, h.2.2.2⟩

theorem greedy_spec (text : List α) : ∀ e, (∀ i, Ends isBreak head tail text e i →
      greedy isBreak head tail (text.drop e) = some ((text.drop e).take (i - e))) ∧
    ((∀ i, ¬ Ends isBreak head tail text e i) → greedy isBreak head tail (text.drop e) = none) := by
  intro e
  induction hlen : text.length - e generalizing e with
  | zero =>
    rw [List.drop_eq_nil_of_le (by omega)]
    refine ⟨fun i hi => ?_, fun _ => rfl⟩
    have hlt := length_of_at hi.2.1
    have hei := hi.1
    omega
  | succ len ih =>
    obtain ⟨hsome, hnone⟩ := ih (e + 1) (by omega)
    obtain ⟨c, hc⟩ : ∃ c, text[e]? = some c := ⟨_, List.getElem?_eq_getElem (by omega)⟩
    rw [drop_eq_cons hc, greedy]
    cases hbreak : isBreak c with
    | true =>
      refine ⟨fun i hi => ?_, fun _ => rfl⟩
      have hfalse := hi.2.2.1 e c (Nat.le_refl e) hi.1 hc
      rw [hbreak] at hfalse
      cases hfalse
    | false =>
      simp only [Bool.false_eq_true, if_false]
      by_cases hlater : ∃ i, Ends isBreak head tail text (e + 1) i
      · obtain ⟨i, hi⟩ := hlater
        have hei := hi.1
        have hends := hi.cons hc hbreak
        rw [hsome i hi]
        refine ⟨fun i' hi' => ?_, fun hno => absurd hends (hno i)⟩
        rw [← hends.unique hi', show i - e = i - (e + 1) + 1 by omega, List.take_succ_cons]
      · rw [hnone fun i hi => hlater ⟨i, hi⟩]
        have hends : ∀ i, Ends isBreak head tail text e i → i = e + 1 := by
          intro i hi
          by_contra hne
          have hei := hi.1
          refine hlater (exists_ends (k := i) (by omega) hi.2.1 ?_)
          exact fun m d hle hm hd => hi.2.2.1 m d (by omega) hm hd
        by_cases hat : head :: tail <+: text.drop (e + 1)
        · dsimp only
          rw [if_pos hat]
          refine ⟨fun i hi => ?_, fun hno => ?_⟩
          · rw [hends i hi, show e + 1 - e = 1 by omega]
            rfl
          · have hun : Unbroken text isBreak e (e + 1) :=
              Unbroken.cons hc hbreak fun m d hle hm _ => absurd hm (by omega)
            obtain ⟨i, hi⟩ := exists_ends (Nat.lt_succ_self e) hat hun
            exact absurd hi (hno i)
        · dsimp only
          rw [if_neg hat]
          refine ⟨fun i hi => absurd ?_ hat, fun _ => rfl⟩
          rw [← hends i hi]
          exact hi.2.1

end Greedy

end Removal
end AppNG
