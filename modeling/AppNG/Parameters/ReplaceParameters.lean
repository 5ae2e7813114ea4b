import AppNG.Lib.JavaString
import AppNG.Lib.Scan
import Mathlib.Data.List.TakeWhile

/-!
# Parameters.ReplaceParameters

`ParameterSupportBase.replaceParameters`: the placeholders of a text and the values put in their
place.

The code finds the names in the source first and then runs one `replaceAll` for each of them, over
a text that already holds the values of the names before, with the name as a regular expression
and the value as a replacement string.

* `appendReplacement_quote`: a value without a backslash is inserted as it is.
* `replaceAll_fill`: one pass puts the value of its name where the source has that name, provided
  that nothing else in the text matches.
* `replaceParameters_clean`: if no value holds a backslash and no pass finds anything but
  placeholders of the source, the result is the simultaneous substitution.
-/

namespace AppNG
namespace Parameters

open Scan

/-- A `ParameterSupportBase` with affixes that match one text each: the texts they match, that is
the affixes without their escapes. -/
structure ParameterSupport where
  opening : List Char
  closing : List Char
  opening_ne : opening ≠ []
  closing_ne : closing ≠ []
  /-- A name cannot go on into the closing affix. -/
  closing_stops : ∀ c ∈ closing.head?, ¬ (c.isAlphanum || c == '_' || c == '.') = true
  /-- `allowDotInName` was called. -/
  dots : Bool
  parameters : List Char → Option (List Char)

/-- `DollarParameterSupport`. -/
def dollar (dots : Bool) (parameters : List Char → Option (List Char)) : ParameterSupport where
  opening := ['$', '\x7b']
  closing := ['\x7d']
  opening_ne := List.cons_ne_nil _ _
  closing_ne := List.cons_ne_nil _ _
  closing_stops := by simp
  dots := dots
  parameters := parameters

/-- `HashParameterSupport`. -/
def hash (dots : Bool) (parameters : List Char → Option (List Char)) : ParameterSupport where
  opening := ['#', '\x7b']
  closing := ['\x7d']
  opening_ne := List.cons_ne_nil _ _
  closing_ne := List.cons_ne_nil _ _
  closing_stops := by simp
  dots := dots
  parameters := parameters

/-- A character that may follow the first letter of a name. -/
def isNameChar (dots : Bool) (c : Char) : Bool := c.isAlphanum || c == '_' || (dots && c == '.')

def isLineTerminator (c : Char) : Bool :=
  c == '\n' || c == '\r' || c == '\u0085' || c == '\u2028' || c == '\u2029'

/-- What one character of a regular expression made of letters, digits, underscores, dots and
escaped signs matches. -/
def matchesChar (p c : Char) : Bool := if p == '.' then !isLineTerminator c else p == c

def matchesAll : List (Char → Bool) → List Char → Bool
  | [], _ => true
  | _ :: _, [] => false
  | p :: ps, c :: cs => p c && matchesAll ps cs

namespace ParameterSupport

variable (support : ParameterSupport)

def placeholder (name : List Char) : List Char := support.opening ++ name ++ support.closing

def nameAt (text : List Char) : List Char :=
  (text.drop support.opening.length).takeWhile (isNameChar support.dots)

/-- `pattern`: the longest name is the only one that the closing affix can follow. -/
def placeholderAt (text : List Char) : Option (List Char × Nat) :=
  let name := support.nameAt text
  if name.head?.any Char.isAlpha ∧ support.placeholder name <+: text then
    some (name, (support.placeholder name).length - 1)
  else none

def tokens (source : List Char) : List (Token Char (List Char)) :=
  scan support.placeholderAt 0 source

def getParameters (source : List Char) : List (List Char) := items (support.tokens source)

/-- The value of a parameter, with nothing for one that is absent. -/
def value (name : List Char) : List Char := (support.parameters name).getD []

/-- `prefix + match + suffix`, as a regular expression. -/
def pattern (name : List Char) : List (Char → Bool) :=
  support.opening.map (fun p c => p == c) ++ name.map matchesChar ++
    support.closing.map (fun p c => p == c)

def occurrenceAt (name text : List Char) : Option (List Char × Nat) :=
  let n := (support.pattern name).length
  if matchesAll (support.pattern name) text then some (text.take n, n - 1) else none

end ParameterSupport

/-- `value.replace("$", "\\$")`. -/
def quote (value : List Char) : List Char :=
  value.flatMap fun c => if c == '$' then ['\\', '$'] else [c]

/-- `Matcher.appendReplacement` for a pattern without groups, where `whole` was matched: what a
replacement string stands for. None: it throws. After `$0`, further zeros belong to the number of
the group. -/
def appendReplacement (whole : List Char) : Bool → List Char → Option (List Char)
  | _, [] => some []
  | _, ['\\'] => none
  | _, '\\' :: c :: cs => (appendReplacement whole false cs).map (c :: ·)
  | true, '0' :: cs => appendReplacement whole true cs
  | _, '$' :: '0' :: cs => (appendReplacement whole true cs).map (whole ++ ·)
  | _, '$' :: _ => none
  | _, c :: cs => (appendReplacement whole false cs).map (c :: ·)

namespace ParameterSupport

variable (support : ParameterSupport)

/-- `result.replaceAll(prefix + name + suffix, replacement)`. -/
def replaceAll (name replacement result : List Char) : Option (List Char) :=
  renderM (fun whole => appendReplacement whole false replacement)
    (scan (support.occurrenceAt name) 0 result)

/-- None: it throws. -/
def replaceParameters (source : List Char) : Option (List Char) :=
  if source.all Java.isWhitespace then some source
  else
    (support.getParameters source).foldlM
      (fun result name => support.replaceAll name (quote (support.value name)) result) source

/-! ## The specification -/

/-- Every placeholder of the source replaced by the value of its parameter, at once. -/
def substitute (source : List Char) : List Char := render support.value (support.tokens source)

/-- The same for some of the names only. -/
def fill (done : List (List Char)) (ts : List (Token Char (List Char))) : List Char :=
  render (fun name => if name ∈ done then support.value name else support.placeholder name) ts

/-- At `j`, once the names of `done` are filled in, there is a placeholder of `name` which is not
filled in yet. -/
def OwnAt (done : List (List Char)) (name : List Char) (ts : List (Token Char (List Char)))
    (j : Nat) : Prop :=
  name ∉ done ∧ ∃ k < ts.length,
    ts[k]? = some (.item name) ∧ (support.fill done (ts.take k)).length = j

instance (done : List (List Char)) (name : List Char) (ts : List (Token Char (List Char)))
    (j : Nat) : Decidable (support.OwnAt done name ts j) :=
  inferInstanceAs (Decidable (name ∉ done ∧ ∃ k < ts.length,
    ts[k]? = some (.item name) ∧ (support.fill done (ts.take k)).length = j))

/-- The regular expression of `name` matches nowhere else. -/
def FindsOwn (done : List (List Char)) (name : List Char) (ts : List (Token Char (List Char))) :
    Prop :=
  ∀ j < (support.fill done ts).length,
    (support.occurrenceAt name ((support.fill done ts).drop j)).isSome →
      support.OwnAt done name ts j

instance (done : List (List Char)) (name : List Char) (ts : List (Token Char (List Char))) :
    Decidable (support.FindsOwn done name ts) :=
  inferInstanceAs (Decidable (∀ j < (support.fill done ts).length,
    (support.occurrenceAt name ((support.fill done ts).drop j)).isSome →
      support.OwnAt done name ts j))

/-- No value that is inserted holds a backslash, and every pass finds its own placeholders only. -/
structure Clean (source : List Char) : Prop where
  no_backslash : ∀ name ∈ support.getParameters source, '\\' ∉ support.value name
  finds_own : ∀ i (h : i < (support.getParameters source).length),
    support.FindsOwn ((support.getParameters source).take i) (support.getParameters source)[i]
      (support.tokens source)

end ParameterSupport

/-! ## Inserting a value -/

theorem appendReplacement_quote (whole : List Char) :
    ∀ {value : List Char}, '\\' ∉ value →
      appendReplacement whole false (quote value) = some value := by
  intro value
  induction value with
  | nil => intro _; rfl
  | cons c cs ih =>
    intro h
    simp only [List.mem_cons, not_or] at h
    have hcs : appendReplacement whole false (quote cs) = some cs := ih h.2
    by_cases hc : c = '$'
    · subst hc
      show (appendReplacement whole false (quote cs)).map ('$' :: ·) = some ('$' :: cs)
      rw [hcs]
      rfl
    · have hquote : quote (c :: cs) = c :: quote cs := by simp [quote, hc]
      have hb : c ≠ '\\' := fun hb => h.1 hb.symm
      rw [hquote, appendReplacement, hcs]
      · rfl
      all_goals simp [hc, hb]

namespace ParameterSupport

variable {support : ParameterSupport}

theorem placeholder_ne (name : List Char) : support.placeholder name ≠ [] := by
  simp [placeholder, support.opening_ne]

@[simp] theorem length_pattern (name : List Char) :
    (support.pattern name).length = (support.placeholder name).length := by
  simp [pattern, placeholder]

/-! ## Occurrences -/

theorem matchesAll_append :
    ∀ {ps qs : List (Char → Bool)} {w text : List Char}, ps.length = w.length →
      (matchesAll (ps ++ qs) (w ++ text) = true ↔
        matchesAll ps w = true ∧ matchesAll qs text = true) := by
  intro ps
  induction ps with
  | nil =>
    intro qs w text h
    have hw : w = [] := List.length_eq_zero_iff.mp h.symm
    simp [hw, matchesAll]
  | cons p ps ih =>
    intro qs w text h
    cases w with
    | nil => simp at h
    | cons c w =>
      simp only [List.length_cons, Nat.add_right_cancel_iff] at h
      simp only [List.cons_append, matchesAll, Bool.and_eq_true]
      rw [ih h, and_assoc]

theorem matchesAll_literal (w : List Char) : matchesAll (w.map fun p c => p == c) w = true := by
  induction w with
  | nil => rfl
  | cons c w ih => simp [matchesAll, ih]

theorem matchesAll_name {name : List Char} (h : ∀ c ∈ name, isLineTerminator c = false) :
    matchesAll (name.map matchesChar) name = true := by
  induction name with
  | nil => rfl
  | cons c w ih =>
    have hc : matchesChar c c = true := by simp [matchesChar, h c List.mem_cons_self]
    have hw : matchesAll (w.map matchesChar) w = true :=
      ih fun d hd => h d (List.mem_cons_of_mem c hd)
    simp [matchesAll, hc, hw]

theorem matchesAll_nil (text : List Char) : matchesAll [] text = true := by
  cases text <;> rfl

/-- The regular expression of a name matches the placeholder of that name. -/
theorem occurrenceAt_placeholder {name : List Char} (h : ∀ c ∈ name, isLineTerminator c = false)
    (rest : List Char) :
    support.occurrenceAt name (support.placeholder name ++ rest) =
      some (support.placeholder name, (support.placeholder name).length - 1) := by
  have hself : matchesAll (support.pattern name) (support.placeholder name ++ rest) = true := by
    have hnil : support.pattern name = support.pattern name ++ [] := (List.append_nil _).symm
    rw [hnil, matchesAll_append (length_pattern name), pattern, placeholder,
      matchesAll_append (by simp), matchesAll_append (by simp)]
    exact ⟨⟨⟨matchesAll_literal _, matchesAll_name h⟩, matchesAll_literal _⟩, matchesAll_nil _⟩
  simp only [occurrenceAt]
  rw [if_pos hself, length_pattern, List.take_left]

/-! ## Placeholders -/

theorem not_isNameChar_closing {c : Char} (hc : c ∈ support.closing.head?) :
    isNameChar support.dots c = false := by
  rw [Bool.eq_false_iff]
  intro hname
  refine support.closing_stops c hc ?_
  unfold isNameChar at hname
  simp only [Bool.or_eq_true, Bool.and_eq_true] at hname ⊢
  exact hname.imp_right And.right

theorem nameAt_placeholder {name : List Char}
    (h : ∀ c ∈ name, isNameChar support.dots c = true) (rest : List Char) :
    support.nameAt (support.placeholder name ++ rest) = name := by
  have hdrop : (support.placeholder name ++ rest).drop support.opening.length =
      name ++ (support.closing ++ rest) := by
    simp [placeholder]
  unfold nameAt
  rw [hdrop, List.takeWhile_append_of_pos h]
  cases hclosing : support.closing with
  | nil => exact absurd hclosing support.closing_ne
  | cons c cs =>
    have hc : isNameChar support.dots c = false :=
      not_isNameChar_closing (by rw [hclosing]; rfl)
    rw [List.cons_append, List.takeWhile_cons_of_neg (by rw [hc]; exact Bool.false_ne_true),
      List.append_nil]

/-- What `pattern` matches: the longest name is the only one that it can. -/
theorem placeholderAt_eq_some {text name : List Char} {n : Nat} :
    support.placeholderAt text = some (name, n) ↔
      name.head?.any Char.isAlpha = true ∧ (∀ c ∈ name, isNameChar support.dots c = true) ∧
        support.placeholder name <+: text ∧ (support.placeholder name).length = n + 1 := by
  have hpos : 0 < (support.placeholder name).length := List.length_pos_iff.mpr (placeholder_ne _)
  simp only [placeholderAt]
  constructor
  · intro h
    split at h
    · rename_i hmatch
      simp only [Option.some.injEq, Prod.mk.injEq] at h
      obtain ⟨rfl, rfl⟩ := h
      exact ⟨hmatch.1, fun c => List.mem_takeWhile_imp, hmatch.2, (Nat.sub_add_cancel hpos).symm⟩
    · cases h
  · rintro ⟨hletter, hname, ⟨rest, rfl⟩, hn⟩
    rw [nameAt_placeholder hname, if_pos ⟨hletter, List.prefix_append _ _⟩, hn]
    rfl

theorem of_item_mem_tokens {source name : List Char} (h : .item name ∈ support.tokens source) :
    ∀ c ∈ name, isNameChar support.dots c = true := by
  obtain ⟨text, n, hread⟩ := of_item_mem_scan h
  exact (placeholderAt_eq_some.mp hread).2.1

theorem not_isLineTerminator {dots : Bool} {c : Char} (h : isNameChar dots c = true) :
    isLineTerminator c = false := by
  rw [Bool.eq_false_iff]
  intro hline
  simp only [isLineTerminator, Bool.or_eq_true, beq_iff_eq] at hline
  rcases hline with (((rfl | rfl) | rfl) | rfl) | rfl <;> cases dots <;> revert h <;> decide

/-- With no name filled in, the text is the source. -/
theorem fill_nil (source : List Char) :
    support.fill [] (support.tokens source) = source := by
  have hplain : support.fill [] (support.tokens source) =
      render support.placeholder (support.tokens source) := by
    refine render_congr fun name _ => ?_
    simp
  rw [hplain, tokens, render_scan]
  intro text name n h
  obtain ⟨-, -, hprefix, hlength⟩ := placeholderAt_eq_some.mp h
  rw [← hlength]
  exact List.prefix_iff_eq_take.mp hprefix

/-- With all names filled in, it is the substitution. -/
theorem fill_getParameters (source : List Char) :
    support.fill (support.getParameters source) (support.tokens source) =
      support.substitute source := by
  refine render_congr fun name hname => ?_
  exact if_pos (mem_items.mpr hname)

/-! ## One pass -/

variable {done : List (List Char)} {name : List Char}

/-- The text of a token does not change if it is not one that the pass is about. -/
theorem textOf_fill {t : Token Char (List Char)} (h : t = .item name → name ∈ done) :
    textOf (fun n => if n ∈ done ++ [name] then support.value n else support.placeholder n) t =
      textOf (fun n => if n ∈ done then support.value n else support.placeholder n) t := by
  cases t with
  | plain c => rfl
  | item n =>
    by_cases hn : n = name
    · subst hn
      simp [textOf, h rfl]
    · simp [textOf, hn]

theorem replaceAll_fill {ts : List (Token Char (List Char))} (hvalue : '\\' ∉ support.value name)
    (hname : ∀ c ∈ name, isLineTerminator c = false)
    (hown : support.FindsOwn done name ts) :
    support.replaceAll name (quote (support.value name)) (support.fill done ts) =
      some (support.fill (done ++ [name]) ts) := by
  -- along the tokens that are left, with those already written out before them
  suffices hrest : ∀ (ts₂ ts₁ : List (Token Char (List Char))), ts = ts₁ ++ ts₂ →
      support.replaceAll name (quote (support.value name)) (support.fill done ts₂) =
        some (support.fill (done ++ [name]) ts₂) from hrest ts [] rfl
  intro ts₂
  induction ts₂ with
  | nil => intro ts₁ _; rfl
  | cons t ts₂ ih =>
    intro ts₁ hts
    have hih := ih (ts₁ ++ [t]) (by rw [hts, List.append_assoc]; rfl)
    unfold replaceAll fill at hih ⊢
    rw [render_cons, render_cons]
    by_cases ht : t = .item name → name ∈ done
    · rw [textOf_fill ht, scan_unmatched, renderM_plain, hih]
      · rfl
      · intro w₁ w₂ hw hw₂
        rw [← Option.not_isSome_iff_eq_none]
        intro hocc
        have hdrop : (support.fill done ts).drop ((support.fill done ts₁).length + w₁.length) =
            w₂ ++ support.fill done ts₂ := by
          unfold fill
          rw [hts, render_append, render_cons, hw, ← List.drop_drop, List.drop_left,
            List.append_assoc, List.drop_left]
        have hlen : w₁.length < (textOf (fun n => if n ∈ done then support.value n
            else support.placeholder n) t).length := by
          rw [hw, List.length_append]
          have hpos : 0 < w₂.length := List.length_pos_iff.mpr hw₂
          omega
        have hj : (support.fill done ts₁).length + w₁.length < (support.fill done ts).length := by
          unfold fill
          rw [hts, render_append, render_cons, List.length_append, List.length_append]
          omega
        obtain ⟨hnot, k, -, hk, hklen⟩ := hown _ hj (by rw [hdrop]; exact hocc)
        subst hts
        have heq := eq_of_length_render hk (by simp [textOf, hnot, placeholder_ne]) hlen hklen
        exact hnot (ht heq.symm)
    · push Not at ht
      obtain ⟨rfl, hnot⟩ := ht
      have hold : textOf (fun n => if n ∈ done then support.value n else support.placeholder n)
          (.item name) = support.placeholder name := if_neg hnot
      have hnew : textOf (fun n => if n ∈ done ++ [name] then support.value n
          else support.placeholder n) (.item name) = support.value name := by
        simp [textOf]
      have hinsert := appendReplacement_quote (support.placeholder name) hvalue
      rw [hold, hnew, scan_item_append (placeholder_ne name) (occurrenceAt_placeholder hname _),
        renderM_item (f := fun whole => appendReplacement whole false _) hinsert, hih]
      rfl

/-! ## All passes -/

theorem foldlM_fill {source : List Char} (h : support.Clean source) :
    ∀ (later done : List (List Char)), support.getParameters source = done ++ later →
      later.foldlM (fun result name => support.replaceAll name (quote (support.value name)) result)
        (support.fill done (support.tokens source)) =
      some (support.fill (done ++ later) (support.tokens source)) := by
  intro later
  induction later with
  | nil => intro done _; rw [List.append_nil]; rfl
  | cons name later ih =>
    intro done hsplit
    have hmem : name ∈ support.getParameters source := by rw [hsplit]; simp
    have hpass : support.replaceAll name (quote (support.value name))
        (support.fill done (support.tokens source)) =
          some (support.fill (done ++ [name]) (support.tokens source)) := by
      refine replaceAll_fill (h.no_backslash name hmem) ?_ ?_
      · intro c hc
        exact not_isLineTerminator (of_item_mem_tokens (mem_items.mp hmem) c hc)
      · have hown := h.finds_own done.length (by rw [hsplit]; simp)
        simpa only [hsplit, List.take_left, List.getElem_append_right, Nat.le_refl, Nat.sub_self,
          List.getElem_cons_zero] using hown
    have hlater := ih (done ++ [name]) (by rw [hsplit, List.append_assoc]; rfl)
    rw [List.foldlM_cons, hpass]
    rw [List.append_assoc] at hlater
    exact hlater

/-- A blank source has no placeholders, as a name starts with a letter. -/
theorem substitute_blank {source : List Char} (h : source.all Java.isWhitespace = true) :
    support.substitute source = source := by
  have hnone : ∀ name, .item name ∉ support.tokens source := by
    intro name hname
    obtain ⟨text, n, hread⟩ := of_item_mem_scan hname
    obtain ⟨hletter, -⟩ := placeholderAt_eq_some.mp hread
    obtain ⟨c, hc, hletter⟩ := (Option.any_eq_true _ _).mp hletter
    have hmem : c ∈ support.fill [] (support.tokens source) := by
      refine List.mem_flatMap.mpr ⟨.item name, hname, ?_⟩
      simp [textOf, placeholder, List.mem_of_head? hc]
    rw [fill_nil] at hmem
    exact Java.not_isWhitespace_of_isAlpha hletter (List.all_eq_true.mp h c hmem)
  have hsame : support.substitute source = support.fill [] (support.tokens source) :=
    render_congr fun name hname => absurd hname (hnone name)
  rw [hsame, fill_nil]

theorem replaceParameters_clean {source : List Char} (h : support.Clean source) :
    support.replaceParameters source = some (support.substitute source) := by
  unfold replaceParameters
  split
  · rename_i hblank
    rw [substitute_blank hblank]
  · have hall := foldlM_fill h (support.getParameters source) [] rfl
    rw [fill_nil, List.nil_append, fill_getParameters] at hall
    exact hall

section Example

/-- `${a}-${b}`. -/
def twoPlaceholders : List Char := ['$', '\x7b', 'a', '\x7d', '-', '$', '\x7b', 'b', '\x7d']

def valuesOf (a b : List Char) : List Char → Option (List Char)
  | ['a'] => some a
  | ['b'] => some b
  | _ => none

/-- A `$` and the placeholder of another kind are inserted as they are. -/
theorem replaceParameters_clean_dollar :
    (dollar false (valuesOf ['$', '1'] ['#', '\x7b', 'a', '\x7d'])).replaceParameters
      twoPlaceholders = some ['$', '1', '-', '#', '\x7b', 'a', '\x7d'] :=
  replaceParameters_clean ⟨by decide, by decide⟩

/-- With the value `x\y` for `a` and `$` for `b`, the backslash is lost. -/
theorem backslash_lost :
    (dollar false (valuesOf ['x', '\\', 'y'] ['$'])).replaceParameters twoPlaceholders =
      some ['x', 'y', '-', '$'] ∧
    ¬ ∀ (support : ParameterSupport) (source : List Char),
      support.replaceParameters source = some (support.substitute source) := by
  refine ⟨by decide, fun h => ?_⟩
  have hlost := h (dollar false (valuesOf ['x', '\\', 'y'] ['$'])) twoPlaceholders
  revert hlost
  decide

/-- A value that is replaced again, by itself: not all that `FindsOwn` excludes does harm. -/
example :
    let support := dollar false (valuesOf ['$', '\x7b', 'a', '\x7d'] [])
    let source := support.placeholder ['a'] ++ support.placeholder ['a']
    support.replaceParameters source = some (support.substitute source) ∧
      ¬ support.FindsOwn [['a']] ['a'] (support.tokens source) := by
  decide

end Example

end ParameterSupport

end Parameters
end AppNG
