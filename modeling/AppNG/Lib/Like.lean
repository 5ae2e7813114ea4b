import Mathlib.Data.List.Infix

/-!
# Lib.Like

The patterns of SQL: an underscore stands for one character, a percent sign for any text.

* `like_append`: a pattern of two parts matches a text of two parts.
* `like_literal`: without wildcards a pattern matches itself only.
* `like_prefix`, `like_prefix_sep`: a literal prefix, and a separator somewhere behind it.
* `count_le_of_like`: a text has a character as often as the pattern has it.
* `like_sep`: a separator that the text has only once is matched by itself.
-/

namespace AppNG
namespace Like

def like : List Char → List Char → Bool
  | [], text => text.isEmpty
  | '%' :: pattern, text => text.tails.any (like pattern)
  | _ :: _, [] => false
  | c :: pattern, d :: text => (c == '_' || c == d) && like pattern text

/-- No character of the pattern is a wildcard. -/
def Literal (pattern : List Char) : Prop := ∀ c ∈ pattern, c ≠ '_' ∧ c ≠ '%'

instance (pattern : List Char) : Decidable (Literal pattern) := List.decidableBAll _ pattern

variable {pattern pattern' text text' : List Char} {c d sep : Char}

@[simp] theorem like_nil : like [] text = true ↔ text = [] := by
  simp [like]

theorem like_percent :
    like ('%' :: pattern) text = true ↔ ∃ skipped rest, text = skipped ++ rest ∧
      like pattern rest = true := by
  simp only [like, List.any_eq_true, List.mem_tails]
  constructor
  · rintro ⟨rest, ⟨skipped, rfl⟩, h⟩
    exact ⟨skipped, rest, rfl, h⟩
  · rintro ⟨skipped, rest, rfl, h⟩
    exact ⟨rest, List.suffix_append skipped rest, h⟩

theorem like_cons (hc : c ≠ '%') :
    like (c :: pattern) text = true ↔ ∃ d rest, text = d :: rest ∧ (c = '_' ∨ c = d) ∧
      like pattern rest = true := by
  cases text with
  | nil =>
    have hnil : like (c :: pattern) [] = false := by
      unfold like
      split <;> simp_all
    simp [hnil]
  | cons d rest =>
    have hcons : like (c :: pattern) (d :: rest) = ((c == '_' || c == d) && like pattern rest) := by
      rw [like]
      exact hc
    simp [hcons]

@[simp] theorem like_any : like ['%'] text = true :=
  like_percent.mpr ⟨text, [], by simp, by simp⟩

theorem like_append :
    like (pattern ++ pattern') text = true ↔
      ∃ text₁ text₂, text = text₁ ++ text₂ ∧ like pattern text₁ = true ∧
        like pattern' text₂ = true := by
  induction pattern generalizing text with
  | nil => simp
  | cons c pattern ih =>
    rw [List.cons_append]
    by_cases hc : c = '%'
    · subst hc
      simp only [like_percent, ih]
      constructor
      · rintro ⟨skipped, _, rfl, text₁, text₂, rfl, h₁, h₂⟩
        exact ⟨skipped ++ text₁, text₂, by simp, ⟨skipped, text₁, rfl, h₁⟩, h₂⟩
      · rintro ⟨_, text₂, rfl, ⟨skipped, text₁, rfl, h₁⟩, h₂⟩
        exact ⟨skipped, text₁ ++ text₂, by simp, text₁, text₂, rfl, h₁, h₂⟩
    · simp only [like_cons hc, ih]
      constructor
      · rintro ⟨d, _, rfl, hcd, text₁, text₂, rfl, h₁, h₂⟩
        exact ⟨d :: text₁, text₂, rfl, ⟨d, text₁, rfl, hcd, h₁⟩, h₂⟩
      · rintro ⟨_, text₂, rfl, ⟨d, text₁, rfl, hcd, h₁⟩, h₂⟩
        exact ⟨d, text₁ ++ text₂, rfl, hcd, text₁, text₂, rfl, h₁, h₂⟩

theorem like_literal (h : Literal pattern) : like pattern text = true ↔ text = pattern := by
  induction pattern generalizing text with
  | nil => simp
  | cons c pattern ih =>
    obtain ⟨hc, hpattern⟩ := List.forall_mem_cons.mp h
    rw [like_cons hc.2]
    constructor
    · rintro ⟨d, rest, rfl, hcd, hrest⟩
      rw [(ih hpattern).mp hrest, hcd.resolve_left hc.1]
    · rintro rfl
      exact ⟨c, pattern, rfl, .inr rfl, (ih hpattern).mpr rfl⟩

/-- Every text matches itself, wildcards or not. -/
theorem like_self : ∀ pattern : List Char, like pattern pattern = true := by
  intro pattern
  induction pattern with
  | nil => simp
  | cons c pattern ih =>
    by_cases hc : c = '%'
    · subst hc
      exact like_percent.mpr ⟨['%'], pattern, rfl, ih⟩
    · exact (like_cons hc).mpr ⟨c, pattern, rfl, .inr rfl, ih⟩

theorem like_prefix (h : Literal pattern) :
    like (pattern ++ ['%']) text = true ↔ pattern <+: text := by
  simp only [like_append, like_literal h, like_any, and_true]
  constructor
  · rintro ⟨_, rest, rfl, rfl⟩
    exact List.prefix_append _ rest
  · rintro ⟨rest, rfl⟩
    exact ⟨pattern, rest, rfl, rfl⟩

theorem like_percent_sep (hsep : sep ≠ '_' ∧ sep ≠ '%') :
    like ['%', sep, '%'] text = true ↔ sep ∈ text := by
  rw [like_percent]
  constructor
  · rintro ⟨skipped, rest, rfl, h⟩
    obtain ⟨d, rest', rfl, hd, -⟩ := (like_cons hsep.2).mp h
    rw [hd.resolve_left hsep.1]
    simp
  · intro h
    obtain ⟨skipped, rest, rfl⟩ := List.append_of_mem h
    exact ⟨skipped, sep :: rest, rfl, (like_cons hsep.2).mpr ⟨sep, rest, rfl, .inr rfl, like_any⟩⟩

/-- A literal prefix, with a separator somewhere behind it. -/
theorem like_prefix_sep (h : Literal pattern) (hsep : sep ≠ '_' ∧ sep ≠ '%') :
    like (pattern ++ ['%', sep, '%']) text = true ↔ ∃ rest, text = pattern ++ rest ∧ sep ∈ rest := by
  simp only [like_append, like_literal h, like_percent_sep hsep]
  constructor
  · rintro ⟨_, rest, rfl, rfl, hrest⟩
    exact ⟨rest, rfl, hrest⟩
  · rintro ⟨rest, rfl, hrest⟩
    exact ⟨pattern, rest, rfl, rfl, hrest⟩

theorem count_le_of_like (hsep : sep ≠ '_' ∧ sep ≠ '%') :
    ∀ {pattern text : List Char}, like pattern text = true →
      pattern.count sep ≤ text.count sep := by
  intro pattern
  induction pattern with
  | nil => intro text _; simp
  | cons c pattern ih =>
    intro text h
    by_cases hc : c = '%'
    · subst hc
      obtain ⟨skipped, rest, rfl, hrest⟩ := like_percent.mp h
      have hcount := ih hrest
      rw [List.count_cons_of_ne (Ne.symm hsep.2), List.count_append]
      omega
    · obtain ⟨d, rest, rfl, hcd, hrest⟩ := (like_cons hc).mp h
      have hcount := ih hrest
      by_cases hs : c = sep
      · rw [← hcd.resolve_left (hs ▸ hsep.1), hs, List.count_cons_self, List.count_cons_self]
        omega
      · rw [List.count_cons_of_ne hs]
        exact hcount.trans (List.count_le_count_cons)

/-- A separator that the text has only once is matched by itself. -/
theorem like_sep (hsep : sep ≠ '_' ∧ sep ≠ '%') (htext : sep ∉ text) (htext' : sep ∉ text') :
    like (pattern ++ sep :: pattern') (text ++ sep :: text') = true ↔
      like pattern text = true ∧ like pattern' text' = true := by
  rw [like_append]
  constructor
  · rintro ⟨text₁, text₂, heq, h₁, h₂⟩
    obtain ⟨d, rest, rfl, hd, hrest⟩ := (like_cons hsep.2).mp h₂
    obtain rfl := hd.resolve_left hsep.1
    have hcount := congrArg (List.count sep) heq
    simp only [List.count_append, List.count_cons_self, List.count_eq_zero_of_not_mem htext,
      List.count_eq_zero_of_not_mem htext'] at hcount
    have htext₁ : sep ∉ text₁ := List.count_eq_zero.mp (by omega)
    have hrest' : sep ∉ rest := List.count_eq_zero.mp (by omega)
    obtain ⟨rfl, -, rfl⟩ := (List.append_cons_inj_of_notMem htext₁ hrest').mp heq.symm
    exact ⟨h₁, hrest⟩
  · rintro ⟨h₁, h₂⟩
    exact ⟨text, sep :: text', rfl, h₁,
      (like_cons hsep.2).mpr ⟨sep, text', rfl, .inr rfl, h₂⟩⟩

end Like
end AppNG
