import AppNG.Lib.JavaString
import Std.Data.String.ToNat

/-!
# Lib.Indexed

Names with an index in brackets, such as `items[3]`, and what is read from them.

* `indexed_append_inj`: the index ends where the bracket does, so both it and what follows can be told.
* `readIndex_eq_some`: what a reader finds that looks for a name, an index of any digits, and the text
  behind it.
-/

namespace AppNG
namespace Indexed

theorem isDigit_of_mem {i : Nat} {c : Char} (h : c ∈ Nat.toDigits 10 i) : c.isDigit = true :=
  Nat.isDigit_of_mem_toDigits (by decide) (by decide) h

/-- The number that digits stand for, leading zeros included. -/
def value (digits : List Char) : Nat := Nat.ofDigitChars 10 digits 0

@[simp] theorem value_toDigits (i : Nat) : value (Nat.toDigits 10 i) = i :=
  Nat.ofDigitChars_toDigits (by decide) (by decide)

/-- `String.format("%s[%d]", name, i)` -/
def indexed (name : String) (i : Nat) : String := name ++ "[" ++ toString i ++ "]"

theorem toList_indexed (name : String) (i : Nat) :
    (indexed name i).toList = name.toList ++ '[' :: (Nat.toDigits 10 i ++ [']']) := by
  simp [indexed]

theorem bracket_not_mem {digits : List Char} (h : ∀ c ∈ digits, c.isDigit = true) :
    ']' ∉ digits := fun hmem => absurd (h _ hmem) (by decide)

theorem digits_append_inj {ds es us vs : List Char} (hds : ∀ c ∈ ds, c.isDigit = true)
    (hes : ∀ c ∈ es, c.isDigit = true) (h : ds ++ ']' :: us = es ++ ']' :: vs) :
    ds = es ∧ us = vs :=
  Java.append_sep_inj (bracket_not_mem hds) (bracket_not_mem hes) h

theorem toDigits_inj {i j : Nat} (h : Nat.toDigits 10 i = Nat.toDigits 10 j) : i = j := by
  rw [← value_toDigits i, h, value_toDigits]

theorem indexed_append_inj {name : String} {i j : Nat} {us vs : List Char}
    (h : (indexed name i).toList ++ us = (indexed name j).toList ++ vs) : i = j ∧ us = vs := by
  simp only [toList_indexed, List.append_assoc, List.cons_append, List.nil_append,
    List.append_cancel_left_eq, List.cons.injEq, true_and] at h
  obtain ⟨hdigits, hrest⟩ := digits_append_inj (fun _ => isDigit_of_mem) (fun _ => isDigit_of_mem) h
  exact ⟨toDigits_inj hdigits, hrest⟩

theorem indexed_inj {name : String} {i j : Nat} (h : indexed name i = indexed name j) : i = j := by
  have happend : (indexed name i).toList ++ [] = (indexed name j).toList ++ [] := by rw [h]
  exact (indexed_append_inj happend).1

/-- What is left of a text behind another one that it starts with. -/
def behind : List Char → List Char → Option (List Char)
  | [], cs => some cs
  | p :: ps, c :: cs => if p = c then behind ps cs else none
  | _ :: _, [] => none

theorem behind_eq_some {ps cs rest : List Char} : behind ps cs = some rest ↔ cs = ps ++ rest := by
  induction ps generalizing cs with
  | nil => simp [behind]
  | cons p ps ih =>
    cases cs with
    | nil => simp [behind]
    | cons c cs =>
      rw [behind]
      by_cases hpc : p = c
      · simp [hpc, ih]
      · simp [hpc, Ne.symm hpc]

/-- The digits of an index behind a name, and the text behind the index. -/
def readIndex (name : String) (cs : List Char) : Option (List Char × List Char) :=
  match behind (name.toList ++ ['[']) cs with
  | none => none
  | some cs =>
    match cs.takeWhile Char.isDigit, cs.dropWhile Char.isDigit with
    | d :: ds, ']' :: rest => some (d :: ds, rest)
    | _, _ => none

theorem span_digits {digits rest : List Char} (h : ∀ c ∈ digits, c.isDigit = true) :
    (digits ++ ']' :: rest).takeWhile Char.isDigit = digits ∧
      (digits ++ ']' :: rest).dropWhile Char.isDigit = ']' :: rest := by
  constructor
  · rw [List.takeWhile_append_of_pos h]
    simp
  · rw [List.dropWhile_append_of_pos h]
    rfl

theorem readIndex_eq_some {name : String} {cs digits rest : List Char} :
    readIndex name cs = some (digits, rest) ↔
      cs = name.toList ++ '[' :: (digits ++ ']' :: rest) ∧ digits ≠ [] ∧
        ∀ c ∈ digits, c.isDigit = true := by
  unfold readIndex
  constructor
  · intro h
    split at h
    · cases h
    · rename_i cs' hbehind
      split at h
      · rename_i d ds rest' htake hdrop
        cases h
        have hsplit := List.takeWhile_append_dropWhile (p := Char.isDigit) (l := cs')
        rw [htake, hdrop] at hsplit
        refine ⟨?_, List.cons_ne_nil _ _, fun c hc => ?_⟩
        · rw [behind_eq_some.mp hbehind, ← hsplit]
          simp
        · rw [← htake] at hc
          exact List.mem_takeWhile_imp hc
      · cases h
  · rintro ⟨rfl, hne, hdigits⟩
    have hbehind : behind (name.toList ++ ['[']) (name.toList ++ '[' :: (digits ++ ']' :: rest)) =
        some (digits ++ ']' :: rest) := behind_eq_some.mpr (by simp)
    obtain ⟨htake, hdrop⟩ : (digits ++ ']' :: rest).takeWhile Char.isDigit = digits ∧
        (digits ++ ']' :: rest).dropWhile Char.isDigit = ']' :: rest := span_digits hdigits
    simp only [hbehind, htake, hdrop]
    cases digits with
    | nil => exact absurd rfl hne
    | cons d ds => rfl

end Indexed
end AppNG
