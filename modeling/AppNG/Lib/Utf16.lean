import AppNG.Lib.JavaInt
import Mathlib.Data.List.Basic

/-!
# Lib.Utf16

The order of `String.compareTo`, that of the UTF-16 code units, and the hash code made of them.

`utf16_injective`: strings with the same code units are the same, so this order is a linear one.
-/

namespace AppNG
namespace Java

/-- The code units of a character; one beyond U+FFFF has two. -/
def units (c : Char) : List Nat :=
  if c.toNat < 0x10000 then [c.toNat]
  else [0xD800 + (c.toNat - 0x10000) / 0x400, 0xDC00 + (c.toNat - 0x10000) % 0x400]

def utf16 (s : String) : List Nat := s.toList.flatMap units

def hashCode (s : String) : Int := (utf16 s).foldl (fun hash unit => wrap (31 * hash + unit)) 0

/-- The sign of what `s.compareTo(t)` returns. -/
def compareTo (s t : String) : Ordering := compare (utf16 s) (utf16 t)

/-- No character is a surrogate. -/
theorem not_surrogate (c : Char) : c.toNat < 0xD800 ∨ 0xDFFF < c.toNat ∧ c.toNat < 0x110000 :=
  c.valid

theorem units_append_inj {c d : Char} {us vs : List Nat} (h : units c ++ us = units d ++ vs) :
    c = d ∧ us = vs := by
  have hc := not_surrogate c
  have hd := not_surrogate d
  suffices hnat : c.toNat = d.toNat ∧ us = vs from ⟨Char.toNat_inj.mp hnat.1, hnat.2⟩
  unfold units at h
  split at h <;> split at h <;>
    simp only [List.cons_append, List.nil_append, List.cons.injEq] at h
  · exact h
  · omega
  · omega
  · exact ⟨by omega, h.2.2⟩

theorem flatMap_units_injective :
    ∀ {cs ds : List Char}, cs.flatMap units = ds.flatMap units → cs = ds := by
  have hne : ∀ (c : Char) (us : List Nat), units c ++ us ≠ [] := by
    intro c us
    unfold units
    split <;> exact List.cons_ne_nil _ _
  intro cs
  induction cs with
  | nil =>
    intro ds h
    cases ds with
    | nil => rfl
    | cons d ds => exact absurd h.symm (hne d _)
  | cons c cs ih =>
    intro ds h
    cases ds with
    | nil => exact absurd h (hne c _)
    | cons d ds =>
      rw [List.flatMap_cons, List.flatMap_cons] at h
      obtain ⟨rfl, hrest⟩ := units_append_inj h
      rw [ih hrest]

theorem utf16_injective {s t : String} (h : utf16 s = utf16 t) : s = t :=
  String.toList_injective (flatMap_units_injective h)

instance : Std.TransCmp compareTo where
  eq_swap := Std.OrientedOrd.eq_swap
  isLE_trans := Std.TransOrd.isLE_trans

/-- Strings that compare equal are the same. -/
instance : Std.LawfulEqCmp compareTo where
  compare_self := Std.ReflOrd.compare_self
  eq_of_compare h := utf16_injective (Std.LawfulEqOrd.eq_of_compare h)

end Java
end AppNG
