import AppNG.Lib.Occurrences
import AppNG.Parameters.ReplaceParameters

/-!
# Search.StandardSearcher

`StandardSearcher.getSearchTerm`: what a visitor enters, escaped for the query parser and put into a pattern.

The pattern is filled in with `String.replaceAll`, for which the escaped text is a replacement string. Its
backslashes are doubled before, its dollar signs are not.

* `literals_escape`: the query parser reads an escaped text as the text.
* `appendReplacement_double`: the doubled backslashes stand for themselves.
* `insert_iff`: a dollar sign never does.
* `getSearchTerm_verbatim_iff`: when the pattern is returned with the escaped text in it.
-/

namespace AppNG
namespace Search
namespace StandardSearcher

open Occurrences (replace readWord)

/-- The characters of the query syntax. -/
def isQuerySyntax (c : Char) : Bool :=
  ['\\', '+', '-', '!', '(', ')', ':', '^', '[', ']', '"', '\x7b', '\x7d', '~', '*', '?', '|', '&', '/'].contains c

/-- `QueryParser.escape`. -/
def escape (text : List Char) : List Char := text.flatMap fun c => if isQuerySyntax c then ['\\', c] else [c]

/-- How a query parser reads characters that are to be literals. None: one of them is query syntax. -/
def literals : List Char → Option (List Char)
  | [] => some []
  | ['\\'] => none
  | '\\' :: c :: cs => (literals cs).map (c :: ·)
  | c :: cs => if isQuerySyntax c then none else (literals cs).map (c :: ·)

/-- `searchTerm.replace("\\", "\\\\")`. -/
def double (text : List Char) : List Char := text.flatMap fun c => if c == '\\' then ['\\', '\\'] else [c]

/-- What is replaced in a pattern. -/
def placeholder : List Char := ['t', 'e', 'r', 'm']

/-- `pattern.replaceAll("term", replacement)`. None: it throws. -/
def replaceAll (pattern replacement : List Char) : Option (List Char) :=
  Scan.renderM (fun _ => Parameters.appendReplacement placeholder false replacement)
    (Scan.scan (readWord placeholder) 0 pattern)

def defaultTermTransform : String := "term term*"

/-- None: it throws. -/
def getSearchTerm (searchTerm : String) (searchTermTransform : Option String) : Option (List Char) :=
  let searchTerm := escape (Java.trim searchTerm)
  match searchTermTransform with
  | some transform =>
    if Java.isBlank (some transform) then some searchTerm else replaceAll transform.toList (double searchTerm)
  | none => some searchTerm

/-- The pattern that `doSearch` takes: the one that is configured, unless it is blank. -/
def searchTermTransform (termTransform : Option String) : String :=
  match termTransform with
  | some transform => if Java.isBlank (some transform) then defaultTermTransform else transform
  | none => defaultTermTransform

/-- `transformedTerm` in `doSearch`. -/
def transformedTerm (term : String) (termTransform : Option String) : Option (List Char) :=
  getSearchTerm term (some (searchTermTransform termTransform))

/-- The pattern with the escaped text for each `term`, which the query parser reads as the text. -/
def Verbatim (term : String) (termTransform : Option String) : Prop :=
  transformedTerm term termTransform =
      some (replace placeholder (escape (Java.trim term)) (searchTermTransform termTransform).toList) ∧
    literals (escape (Java.trim term)) = some (Java.trim term)

/-! ## Escaping -/

theorem literals_escape (text : List Char) : literals (escape text) = some text := by
  induction text with
  | nil => rfl
  | cons c cs ih =>
    have hcons : escape (c :: cs) = (if isQuerySyntax c then ['\\', c] else [c]) ++ escape cs := rfl
    by_cases hc : isQuerySyntax c = true
    · rw [hcons, if_pos hc]
      show (literals (escape cs)).map (c :: ·) = some (c :: cs)
      rw [ih]
      rfl
    · have hne : c ≠ '\\' := by
        rintro rfl
        exact hc rfl
      rw [hcons, if_neg hc, List.singleton_append, literals, if_neg hc, ih]
      · rfl
      · exact fun heq _ => hne heq
      · exact fun _ _ heq _ => hne heq

/-- Escaping puts in backslashes only. -/
theorem dollar_mem_escape {text : List Char} : '$' ∈ escape text ↔ '$' ∈ text := by
  simp only [escape, List.mem_flatMap]
  constructor
  · rintro ⟨c, hc, hmem⟩
    split at hmem
    · rename_i hsyntax
      simp only [List.mem_cons, List.not_mem_nil, or_false] at hmem
      rcases hmem with heq | rfl
      · exact absurd heq (by decide)
      · exact hc
    · obtain rfl := List.mem_singleton.mp hmem
      exact hc
  · intro h
    exact ⟨'$', h, by decide⟩

/-! ## The replacement string -/

section Replacement

variable (whole : List Char) {escaped : List Char}

theorem appendReplacement_double (h : '$' ∉ escaped) (rest : List Char) :
    Parameters.appendReplacement whole false (double escaped ++ rest) =
      (Parameters.appendReplacement whole false rest).map (escaped ++ ·) := by
  induction escaped with
  | nil =>
    show Parameters.appendReplacement whole false rest = _
    simp
  | cons c cs ih =>
    simp only [List.mem_cons, not_or] at h
    have htail := ih h.2
    by_cases hc : c = '\\'
    · subst hc
      show (Parameters.appendReplacement whole false (double cs ++ rest)).map ('\\' :: ·) = _
      rw [htail, Option.map_map]
      rfl
    · have hcons : double (c :: cs) ++ rest = c :: (double cs ++ rest) := by simp [double, hc]
      have hdollar : c ≠ '$' := fun heq => h.1 heq.symm
      rw [hcons, Parameters.appendReplacement, htail, Option.map_map]
      · rfl
      all_goals simp [hc, hdollar]

/-- A dollar sign stands for the whole match, if for anything. -/
theorem prefix_of_dollar {rest result : List Char}
    (h : Parameters.appendReplacement whole false ('$' :: rest) = some result) : whole <+: result := by
  cases rest with
  | nil => cases h
  | cons d ds =>
    by_cases hd : d = '0'
    · subst hd
      have hzero : (Parameters.appendReplacement whole true ds).map (whole ++ ·) = some result := h
      obtain ⟨behind, _, rfl⟩ := Option.map_eq_some_iff.mp hzero
      exact List.prefix_append whole behind
    · rw [Parameters.appendReplacement] at h
      · cases h
      · rintro cs ⟨rfl, _⟩
        exact hd rfl

end Replacement

/-- What is inserted for the placeholder is the escaped text unless there is a dollar sign in it. -/
theorem insert_iff {escaped : List Char} :
    Parameters.appendReplacement placeholder false (double escaped) = some escaped ↔ '$' ∉ escaped := by
  constructor
  · intro h hmem
    obtain ⟨before, behind, rfl, hbefore⟩ := List.eq_append_cons_of_mem hmem
    have hdouble : double (before ++ '$' :: behind) = double before ++ '$' :: double behind := List.flatMap_append
    rw [hdouble, appendReplacement_double placeholder hbefore] at h
    obtain ⟨result, hresult, heq⟩ := Option.map_eq_some_iff.mp h
    obtain rfl : result = '$' :: behind := List.append_cancel_left heq
    -- it would have to start with the match
    obtain ⟨_, hfirst⟩ := prefix_of_dollar placeholder hresult
    exact absurd (List.cons.inj hfirst).1 (by decide)
  · intro h
    have hall := appendReplacement_double placeholder h []
    rw [List.append_nil] at hall
    rw [hall]
    show some (escaped ++ []) = some escaped
    rw [List.append_nil]

/-! ## The pattern -/

theorem renderM_some {α β : Type} {r : List α} (ts : List (Scan.Token α β)) :
    Scan.renderM (fun _ => some r) ts = some (Scan.render (fun _ => r) ts) := by
  induction ts with
  | nil => rfl
  | cons t ts ih =>
    cases t with
    | plain a => rw [Scan.renderM, ih]; rfl
    | item b =>
      rw [Scan.renderM_item (f := fun _ => some r) (b := b) rfl, ih]
      rfl

/-- A pattern without the placeholder is returned as it is, whatever there is to insert. -/
theorem replaceAll_absent {pattern : List Char} (h : ¬ placeholder <:+: pattern) (replacement : List Char) :
    replaceAll pattern replacement = some pattern := by
  have hscan : Scan.scan (readWord placeholder) 0 pattern = pattern.map .plain := by
    have hnot : ∀ k, k < pattern.length → ¬ Removal.At placeholder (pattern ++ []) k := by
      intro k hk hat
      rw [List.append_nil] at hat
      exact h (Occurrences.infix_iff_at.mpr ⟨k, Nat.le_of_lt hk, hat⟩)
    have hskip := Occurrences.scan_skip hnot
    rw [List.append_nil] at hskip
    rw [hskip]
    exact List.append_nil _
  have hplain := Scan.renderM_plain (f := fun _ : Unit => Parameters.appendReplacement placeholder false replacement)
    pattern []
  rw [List.append_nil] at hplain
  rw [replaceAll, hscan, hplain]
  show some (pattern ++ []) = some pattern
  rw [List.append_nil]

theorem replaceAll_iff {pattern escaped : List Char} (h : placeholder <:+: pattern) :
    replaceAll pattern (double escaped) = some (replace placeholder escaped pattern) ↔ '$' ∉ escaped := by
  have hword : placeholder ≠ [] := by decide
  rw [← insert_iff, replaceAll]
  cases hinsert : Parameters.appendReplacement placeholder false (double escaped) with
  | none =>
    obtain ⟨before, rest, hscan⟩ := Occurrences.scan_leftmost hword h
    rw [hscan, Scan.renderM_plain]
    refine iff_of_false ?_ ?_
    · intro h
      cases h
    · intro h
      cases h
  | some result =>
    have hreplace : Scan.render (fun _ => result) (Scan.scan (readWord placeholder) 0 pattern) =
        replace placeholder result pattern := rfl
    rw [renderM_some, Option.some.injEq, Option.some.injEq, hreplace]
    constructor
    · exact Occurrences.replace_inj result hword h
    · rintro rfl
      rfl

/-- A dollar sign in the text is all that goes wrong, where it is inserted at all. -/
theorem getSearchTerm_verbatim_iff (term : String) (termTransform : Option String) : Verbatim term termTransform ↔
    '$' ∉ Java.trim term ∨ ¬ placeholder <:+: (searchTermTransform termTransform).toList := by
  have hblank : Java.isBlank (some (searchTermTransform termTransform)) = false := by
    unfold searchTermTransform
    split
    · split
      · decide
      · rename_i hnot
        exact Bool.eq_false_iff.mpr hnot
    · decide
  have hterm : transformedTerm term termTransform =
      replaceAll (searchTermTransform termTransform).toList (double (escape (Java.trim term))) := by
    simp only [transformedTerm, getSearchTerm]
    rw [if_neg (Bool.eq_false_iff.mp hblank)]
  rw [Verbatim, and_iff_left (literals_escape _), hterm, ← dollar_mem_escape]
  by_cases h : placeholder <:+: (searchTermTransform termTransform).toList
  · rw [replaceAll_iff h, or_iff_left (fun hnot => hnot h)]
  · rw [replaceAll_absent h, Occurrences.replace_of_absent _ (by decide) h]
    exact iff_of_true rfl (Or.inr h)

/-- With the default pattern a dollar sign makes it throw, or stands for the placeholder. -/
theorem dollar_not_verbatim :
    transformedTerm "1 $" none = none ∧ transformedTerm "$1" none = none ∧
      transformedTerm "$0" none = some "term term*".toList ∧
      ¬ Verbatim "1 $" none ∧ ¬ Verbatim "$1" none ∧ ¬ Verbatim "$0" none := by
  refine ⟨by decide +kernel, by decide +kernel, by decide +kernel, ?_, ?_, ?_⟩
  all_goals
    rintro ⟨h, _⟩
    revert h
    decide +kernel

end StandardSearcher
end Search
end AppNG
