import AppNG.Lib.Removal
import Mathlib.Data.List.Infix

/-!
# Lib.Occurrences

Where a word occurs in a text, and the text with another word in its place everywhere.

* `first_eq_some`, `last_eq_some`: the first and the last position of a word.
* `replace_leftmost`: the word is replaced where it occurs first, and in what follows.
* `replace_append_sep`: texts between elements that are not in the word are handled one by one.
* `replace_eq_self_iff`: another word leaves a text as it is only if there is nothing to replace.
* `replace_inj`: where the word occurs, the result tells what was put in its place.
-/

namespace AppNG
namespace Occurrences

open Removal (At)

variable {α : Type} [DecidableEq α]

/-! ## Positions -/

def first (word text : List α) : Option Nat := (List.range (text.length + 1)).find? fun i => decide (At word text i)

/-- The last of the first `n` positions. -/
def lastBelow (word text : List α) : Nat → Option Nat
  | 0 => none
  | n + 1 => if At word text n then some n else lastBelow word text n

def last (word text : List α) : Option Nat := lastBelow word text (text.length + 1)

variable {word text : List α}

theorem first_eq_some {i : Nat} :
    first word text = some i ↔ i ≤ text.length ∧ At word text i ∧ ∀ k, k < i → ¬ At word text k := by
  rw [first, List.find?_range_eq_some]
  simp only [decide_eq_true_eq, List.mem_range, Bool.not_eq_eq_eq_not, Bool.not_true, decide_eq_false_iff_not]
  constructor
  · rintro ⟨hat, hlt, hnot⟩
    exact ⟨by omega, hat, hnot⟩
  · rintro ⟨hle, hat, hnot⟩
    exact ⟨hat, by omega, hnot⟩

theorem lastBelow_eq_some {i n : Nat} :
    lastBelow word text n = some i ↔ i < n ∧ At word text i ∧ ∀ k, i < k → k < n → ¬ At word text k := by
  induction n with
  | zero =>
    rw [lastBelow]
    exact iff_of_false nofun fun h => absurd h.1 (Nat.not_lt_zero i)
  | succ n ih =>
    rw [lastBelow]
    by_cases hat : At word text n
    · rw [if_pos hat, Option.some.injEq]
      constructor
      · rintro rfl
        exact ⟨Nat.lt_succ_self n, hat, fun k hlt hle => by omega⟩
      · rintro ⟨hlt, _, hnot⟩
        by_contra hne
        exact hnot n (by omega) (Nat.lt_succ_self n) hat
    · rw [if_neg hat, ih]
      constructor
      · rintro ⟨hlt, hi, hnot⟩
        refine ⟨by omega, hi, fun k hik hkn => ?_⟩
        by_cases hk : k = n
        · rwa [hk]
        · exact hnot k hik (by omega)
      · rintro ⟨hlt, hi, hnot⟩
        have hne : i ≠ n := fun heq => hat (heq ▸ hi)
        exact ⟨by omega, hi, fun k hik hkn => hnot k hik (by omega)⟩

theorem last_eq_some {i : Nat} :
    last word text = some i ↔ i ≤ text.length ∧ At word text i ∧ ∀ k, i < k → k ≤ text.length → ¬ At word text k := by
  rw [last, lastBelow_eq_some]
  constructor
  · rintro ⟨hlt, hat, hnot⟩
    exact ⟨by omega, hat, fun k hik hk => hnot k hik (by omega)⟩
  · rintro ⟨hle, hat, hnot⟩
    exact ⟨by omega, hat, fun k hik hk => hnot k hik (by omega)⟩

theorem exists_last {i : Nat} (hle : i ≤ text.length) (hat : At word text i) : ∃ j, i ≤ j ∧ last word text = some j := by
  have hbelow : ∀ n, i < n → ∃ j, i ≤ j ∧ lastBelow word text n = some j := by
    intro n
    induction n with
    | zero => exact fun hlt => absurd hlt (Nat.not_lt_zero i)
    | succ n ih =>
      intro hlt
      rw [lastBelow]
      by_cases hn : At word text n
      · exact ⟨n, by omega, if_pos hn⟩
      · rw [if_neg hn]
        refine ih (Nat.lt_of_le_of_ne (by omega) fun heq => hn (heq ▸ hat))
  exact hbelow _ (by omega)

omit [DecidableEq α] in
theorem at_append_right (as : List α) {i : Nat} : At word (as ++ text) (as.length + i) ↔ At word text i := by
  rw [At, At, List.drop_append, List.drop_eq_nil_of_le (by omega), List.nil_append, Nat.add_sub_cancel_left]

omit [DecidableEq α] in
theorem infix_iff_at : word <:+: text ↔ ∃ i, i ≤ text.length ∧ At word text i := by
  constructor
  · rintro ⟨before, behind, rfl⟩
    refine ⟨before.length, by simp, ?_⟩
    rw [List.append_assoc, ← Nat.add_zero before.length, at_append_right]
    exact List.prefix_append word behind
  · rintro ⟨i, _, hat⟩
    exact hat.isInfix.trans (List.drop_suffix i text).isInfix

omit [DecidableEq α] in
/-- A word without an element does not go over it. -/
theorem at_append_sep {sep : α} (hsep : sep ∉ word) {as bs : List α} {i : Nat} (hi : i ≤ as.length) :
    At word (as ++ sep :: bs) i ↔ At word as i := by
  rw [At, At, List.drop_append, Nat.sub_eq_zero_of_le hi, List.drop_zero]
  constructor
  · intro h
    rcases List.prefix_or_prefix_of_prefix h (List.prefix_append (as.drop i) (sep :: bs)) with hleft | ⟨rest, heq⟩
    · exact hleft
    · rw [← heq, List.prefix_append_right_inj] at h
      cases rest with
      | nil => rw [← heq, List.append_nil]
      | cons c rest =>
        obtain ⟨behind, hbehind⟩ := h
        obtain rfl : c = sep := (List.cons.inj hbehind).1
        exact absurd (heq ▸ List.mem_append_right _ List.mem_cons_self) hsep
  · intro h
    exact h.trans (List.prefix_append _ _)

/-! ## Replacement -/

open Scan (scan render)

/-- The matches are the occurrences of the word. -/
def readWord (word text : List α) : Option (Unit × Nat) :=
  if word <+: text then some ((), word.length - 1) else none

/-- All occurrences are replaced, from left to right. An empty word is found around every element. -/
def replace (word replacement text : List α) : List α :=
  if word = [] then replacement ++ text.flatMap fun c => c :: replacement
  else render (fun _ => replacement) (scan (readWord word) 0 text)

section Replace

variable (replacement : List α) (hword : word ≠ [])
include hword

theorem replace_at (rest : List α) :
    replace word replacement (word ++ rest) = replacement ++ replace word replacement rest := by
  have hread : readWord word (word ++ rest) = some ((), word.length - 1) := if_pos (List.prefix_append word rest)
  rw [replace, if_neg hword, replace, if_neg hword, Scan.scan_item_append hword hread]
  rfl

omit [DecidableEq α] hword in
theorem not_prefix_of_not_at {before rest : List α} (hnot : ∀ k, k < before.length → ¬ At word (before ++ rest) k)
    {w₁ w₂ : List α} (hsplit : before = w₁ ++ w₂) (hne : w₂ ≠ []) : ¬ word <+: w₂ ++ rest := by
  subst hsplit
  intro hprefix
  refine hnot w₁.length ?_ ?_
  · have hpos := List.length_pos_iff.mpr hne
    rw [List.length_append]
    omega
  · rw [List.append_assoc, ← Nat.add_zero w₁.length, at_append_right]
    exact hprefix

omit hword in
theorem scan_skip {before rest : List α} (hnot : ∀ k, k < before.length → ¬ At word (before ++ rest) k) :
    scan (readWord word) 0 (before ++ rest) = before.map .plain ++ scan (readWord word) 0 rest :=
  Scan.scan_unmatched fun _ _ hsplit hne => if_neg (not_prefix_of_not_at hnot hsplit hne)

theorem replace_skip (before : List α) (rest : List α) (hnot : ∀ k, k < before.length → ¬ At word (before ++ rest) k) :
    replace word replacement (before ++ rest) = before ++ replace word replacement rest := by
  rw [replace, if_neg hword, replace, if_neg hword, scan_skip hnot, Scan.render_append, Scan.render_plain]

theorem replace_of_absent (hnot : ¬ word <:+: text) : replace word replacement text = text := by
  have hskip := replace_skip replacement hword text [] fun k hk hat => hnot <| by
    rw [List.append_nil] at hat
    exact infix_iff_at.mpr ⟨k, Nat.le_of_lt hk, hat⟩
  rw [List.append_nil] at hskip
  rw [hskip, replace, if_neg hword]
  exact List.append_nil text

/-- Nothing is replaced in front of the first occurrence. -/
theorem replace_leftmost (hoccurs : word <:+: text) : ∃ before rest, text = before ++ (word ++ rest) ∧
    (∀ k, k < before.length → ¬ At word text k) ∧
    replace word replacement text = before ++ (replacement ++ replace word replacement rest) := by
  obtain ⟨i, ⟨rest, hrest⟩, hnot⟩ := Removal.exists_least <| (infix_iff_at.mp hoccurs).imp fun _ h => h.2
  have htext : text = text.take i ++ (word ++ rest) := by rw [hrest, List.take_append_drop]
  have hbefore : ∀ k, k < (text.take i).length → ¬ At word text k := by
    intro k hk
    rw [List.length_take] at hk
    exact hnot k (by omega)
  refine ⟨text.take i, rest, htext, hbefore, ?_⟩
  rw [← replace_at replacement hword, ← replace_skip replacement hword (text.take i), ← htext]
  rw [← htext]
  exact hbefore

omit replacement in
/-- The first occurrence is the first match of the scan. -/
theorem scan_leftmost (hoccurs : word <:+: text) : ∃ before rest : List α,
    scan (readWord word) 0 text = before.map .plain ++ .item () :: scan (readWord word) 0 rest := by
  obtain ⟨before, rest, rfl, hbefore, _⟩ := replace_leftmost [] hword hoccurs
  have hread : readWord word (word ++ rest) = some ((), word.length - 1) := if_pos (List.prefix_append word rest)
  rw [scan_skip hbefore, Scan.scan_item_append hword hread]
  exact ⟨before, rest, rfl⟩

/-- The induction on the occurrences. -/
theorem replace_induct {P : List α → Prop} (hplain : ∀ text, ¬ word <:+: text → P text)
    (hmatch : ∀ before rest, (∀ k, k < before.length → ¬ At word (before ++ (word ++ rest)) k) →
      replace word replacement (before ++ (word ++ rest)) =
        before ++ (replacement ++ replace word replacement rest) → P rest → P (before ++ (word ++ rest)))
    (text : List α) : P text := by
  induction hn : text.length using Nat.strongRecOn generalizing text with
  | ind n ih =>
    by_cases hoccurs : word <:+: text
    · obtain ⟨before, rest, rfl, hbefore, hreplace⟩ := replace_leftmost replacement hword hoccurs
      refine hmatch before rest hbefore hreplace (ih rest.length ?_ rest rfl)
      have hpos := List.length_pos_iff.mpr hword
      rw [List.length_append, List.length_append] at hn
      omega
    · exact hplain text hoccurs

theorem length_le_replace (hle : word.length ≤ replacement.length) (text : List α) :
    text.length ≤ (replace word replacement text).length := by
  induction text using replace_induct replacement hword with
  | hplain text hnot => rw [replace_of_absent replacement hword hnot]
  | hmatch before rest _ hreplace ih =>
    rw [hreplace]
    simp only [List.length_append]
    omega

theorem length_replace_le (hle : replacement.length ≤ word.length) (text : List α) :
    (replace word replacement text).length ≤ text.length := by
  induction text using replace_induct replacement hword with
  | hplain text hnot => rw [replace_of_absent replacement hword hnot]
  | hmatch before rest _ hreplace ih =>
    rw [hreplace]
    simp only [List.length_append]
    omega

theorem replace_eq_self_iff (hne : replacement ≠ word) : replace word replacement text = text ↔ ¬ word <:+: text := by
  constructor
  · intro heq hoccurs
    obtain ⟨before, rest, rfl, _, hreplace⟩ := replace_leftmost replacement hword hoccurs
    rw [hreplace, List.append_cancel_left_eq] at heq
    have hlen := congrArg List.length heq
    rw [List.length_append, List.length_append] at hlen
    have hsame : replacement.length = word.length := by
      rcases Nat.le_total word.length replacement.length with hle | hle
      · have hrest := length_le_replace replacement hword hle rest
        omega
      · have hrest := length_replace_le replacement hword hle rest
        omega
    exact hne (List.append_inj_left heq hsame)
  · exact replace_of_absent replacement hword

theorem length_replace_mono {other : List α} (hle : replacement.length ≤ other.length) (text : List α) :
    (replace word replacement text).length ≤ (replace word other text).length := by
  induction text using replace_induct replacement hword with
  | hplain text hnot => rw [replace_of_absent replacement hword hnot, replace_of_absent other hword hnot]
  | hmatch before rest hbefore hreplace ih =>
    rw [hreplace, replace_skip other hword before _ hbefore, replace_at other hword]
    simp only [List.length_append]
    omega

theorem replace_inj {other : List α} (hoccurs : word <:+: text)
    (heq : replace word replacement text = replace word other text) : replacement = other := by
  obtain ⟨before, rest, rfl, hbefore, hreplace⟩ := replace_leftmost replacement hword hoccurs
  rw [hreplace, replace_skip other hword before _ hbefore, replace_at other hword, List.append_cancel_left_eq] at heq
  have hlen := congrArg List.length heq
  rw [List.length_append, List.length_append] at hlen
  have hsame : replacement.length = other.length := by
    rcases Nat.le_total replacement.length other.length with hle | hle
    · have hrest := length_replace_mono replacement hword hle rest
      omega
    · have hrest := length_replace_mono other hword hle rest
      omega
  exact List.append_inj_left heq hsame

theorem replace_append_sep {sep : α} (hsep : sep ∉ word) (as bs : List α) :
    replace word replacement (as ++ sep :: bs) =
      replace word replacement as ++ sep :: replace word replacement bs := by
  have hsepAt : ∀ {rest : List α}, ¬ At word (sep :: rest) 0 := by
    intro rest hat
    obtain ⟨behind, hbehind⟩ := hat
    cases hcons : word with
    | nil => exact hword hcons
    | cons c tail =>
      rw [hcons] at hbehind hsep
      obtain rfl : c = sep := (List.cons.inj hbehind).1
      exact hsep List.mem_cons_self
  induction as using replace_induct replacement hword with
  | hplain as hnot =>
    have hbefore : ∀ k, k < (as ++ [sep]).length → ¬ At word (as ++ [sep] ++ bs) k := by
      intro k hk hat
      rw [List.length_append, List.length_singleton] at hk
      rw [List.append_assoc, List.singleton_append] at hat
      by_cases hlast : k = as.length
      · rw [hlast, ← Nat.add_zero as.length, at_append_right] at hat
        exact hsepAt hat
      · have hle : k ≤ as.length := by omega
        exact hnot (infix_iff_at.mpr ⟨k, hle, (at_append_sep hsep hle).mp hat⟩)
    have hskip := replace_skip replacement hword (as ++ [sep]) bs hbefore
    rw [List.append_assoc, List.singleton_append] at hskip
    rw [hskip, replace_of_absent replacement hword hnot, List.append_assoc, List.singleton_append]
  | hmatch before rest hbefore hreplace ih =>
    have hassoc : before ++ (word ++ rest) ++ sep :: bs = before ++ (word ++ (rest ++ sep :: bs)) := by simp
    have hbefore' : ∀ k, k < before.length → ¬ At word (before ++ (word ++ (rest ++ sep :: bs))) k := by
      intro k hk hat
      rw [← hassoc, at_append_sep hsep (by simp only [List.length_append]; omega)] at hat
      exact hbefore k hk hat
    rw [hassoc, replace_skip replacement hword before _ hbefore', replace_at replacement hword, ih, hreplace]
    simp

omit replacement in
theorem replace_self (text : List α) : replace word word text = text := by
  induction text using replace_induct word hword with
  | hplain text hnot => exact replace_of_absent word hword hnot
  | hmatch before rest _ hreplace ih => rw [hreplace, ih]

variable {replacement}

/-- Two texts stay as they are together only if each of them does. -/
theorem replace_both_iff (hne : replacement ≠ word) (as bs between : List α) :
    replace word replacement as ++ (between ++ replace word replacement bs) = as ++ (between ++ bs) ↔
      ¬ word <:+: as ∧ ¬ word <:+: bs := by
  rw [← replace_eq_self_iff replacement hword hne, ← replace_eq_self_iff replacement hword hne]
  constructor
  · intro heq
    have hlen := congrArg List.length heq
    simp only [List.length_append] at hlen
    have hsame : (replace word replacement as).length = as.length := by
      rcases Nat.le_total word.length replacement.length with hle | hle
      · have has := length_le_replace replacement hword hle as
        have hbs := length_le_replace replacement hword hle bs
        omega
      · have has := length_replace_le replacement hword hle as
        have hbs := length_replace_le replacement hword hle bs
        omega
    obtain ⟨has, hrest⟩ := List.append_inj heq hsame
    exact ⟨has, List.append_cancel_left hrest⟩
  · rintro ⟨has, hbs⟩
    rw [has, hbs]

end Replace

end Occurrences
end AppNG
