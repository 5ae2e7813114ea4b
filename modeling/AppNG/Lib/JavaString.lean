import Mathlib.Data.List.DropRight

/-!
# Lib.JavaString

The string functions of Java and of commons-lang that decide something in the code, with `none`
for `null`.

Upper case is compared with words of plain ASCII letters only. No other character has an upper
case made of the letters of `TRUE`, `GET` or `HEAD` alone, so `Char.toUpper`, which changes ASCII
letters only, decides these comparisons as Java does.
-/

namespace AppNG
namespace Java

/-- `Character.isWhitespace`: the Unicode space, line and paragraph separators without the
non-breaking ones, and the control characters from tab to carriage return and from FS to US. -/
def isWhitespace (c : Char) : Bool :=
  let n := c.toNat
  (0x09 ≤ n && n ≤ 0x0D) || (0x1C ≤ n && n ≤ 0x20) || n == 0x1680 ||
    (0x2000 ≤ n && n ≤ 0x2006) || (0x2008 ≤ n && n ≤ 0x200A) ||
    n == 0x2028 || n == 0x2029 || n == 0x205F || n == 0x3000

/-- The letters are the plain ASCII ones. -/
theorem toNat_of_isAlpha {c : Char} (h : c.isAlpha = true) :
    65 ≤ c.toNat ∧ c.toNat ≤ 90 ∨ 97 ≤ c.toNat ∧ c.toNat ≤ 122 := by
  rcases (Bool.or_eq_true _ _).mp h with hupper | hlower
  · left
    exact of_decide_eq_true hupper
  · right
    have hrange := (Bool.and_eq_true _ _).mp hlower
    exact ⟨of_decide_eq_true hrange.1, of_decide_eq_true hrange.2⟩

theorem not_isWhitespace_of_isAlpha {c : Char} (h : c.isAlpha = true) :
    ¬ isWhitespace c = true := by
  have hletter := toNat_of_isAlpha h
  intro hspace
  simp [isWhitespace] at hspace
  omega

def isBlank : Option String → Bool
  | none => true
  | some s => s.toList.all isWhitespace

def isEmpty : Option String → Bool
  | none => true
  | some s => s.isEmpty

def toUpperCase (s : String) : List Char := s.toList.map Char.toUpper

/-- What two names are compared by that may differ in case; such names are plain ASCII. -/
def toLowerCase (s : String) : List Char := s.toList.map Char.toLower

theorem toLower_toLower (c : Char) : c.toLower.toLower = c.toLower := by
  by_cases h : c.val ≥ 'A'.val ∧ c.val ≤ 'Z'.val
  · have hval : c.toLower.val = c.val + 32 := congrArg Char.val (dif_pos h)
    have hnot : ¬ (c.toLower.val ≥ 'A'.val ∧ c.toLower.val ≤ 'Z'.val) := by
      have h₁ : 65 ≤ c.val.toNat := h.1
      have h₂ : c.val.toNat ≤ 90 := h.2
      have hadd : (c.val + 32).toNat = (c.val.toNat + 32) % 2 ^ 32 := UInt32.toNat_add c.val 32
      rw [hval]
      rintro ⟨-, hle⟩
      have hle : (c.val + 32).toNat ≤ 90 := hle
      omega
    exact dif_neg hnot
  · have hsame : c.toLower = c := dif_neg h
    rw [hsame, hsame]

theorem toLowerCase_idem (s : String) :
    toLowerCase (String.ofList (toLowerCase s)) = toLowerCase s := by
  have hlower : Char.toLower ∘ Char.toLower = Char.toLower := funext toLower_toLower
  simp [toLowerCase, hlower]

def containsIgnoreCase (s : Option String) (part : String) : Bool :=
  match s with
  | none => false
  | some s => (toLowerCase s).tails.any (toLowerCase part).isPrefixOf

/-- `String.trim`: no control characters and spaces at both ends. -/
def trim (s : String) : List Char :=
  (s.toList.dropWhile (·.toNat ≤ 0x20)).rdropWhile (·.toNat ≤ 0x20)

def booleanValue : Option String → Bool
  | none => false
  | some s => toUpperCase s == ['T', 'R', 'U', 'E']

/-- `String.split` at one character: empty strings at the end are dropped, and a string without the
character is not split. -/
def split (sep : Char) (s : String) : List String :=
  if s.toList.contains sep then
    ((s.toList.splitOn sep).rdropWhile (·.isEmpty)).map String.ofList
  else [s]

def startsWith (s : String) (c : Char) : Bool := s.toList.head? == some c

/-- `String.substring(1)` of a string that is not empty. -/
def tail (s : String) : String := String.ofList s.toList.tail

/-- What is left of `cs` without its first `skip` characters, when every occurrence of `part` from
there on is removed, from left to right. -/
def removeFrom (part : List Char) : Nat → List Char → List Char
  | _, [] => []
  | skip + 1, _ :: cs => removeFrom part skip cs
  | 0, c :: cs =>
    if part ≠ [] ∧ part <+: c :: cs then removeFrom part (part.length - 1) cs
    else c :: removeFrom part 0 cs

/-- `s.replace(part, "")`. -/
def remove (part s : String) : String := String.ofList (removeFrom part.toList 0 s.toList)

theorem removeFrom_drop (part : List Char) :
    ∀ (skip : Nat) (cs : List Char), removeFrom part skip cs = removeFrom part 0 (cs.drop skip) := by
  intro skip
  induction skip with
  | zero => intro cs; rw [List.drop_zero]
  | succ skip ih =>
    intro cs
    cases cs with
    | nil => rfl
    | cons c cs => exact ih cs

/-- The occurrence that a string starts with is removed before anything else is. -/
theorem remove_append (part s : String) : remove part (part ++ s) = remove part s := by
  unfold remove
  rw [String.toList_append]
  cases part.toList with
  | nil => rw [List.nil_append]
  | cons p ps =>
    have hpre : p :: ps <+: p :: (ps ++ s.toList) := List.prefix_append (p :: ps) s.toList
    have hdrop : removeFrom (p :: ps) ps.length (ps ++ s.toList) =
        removeFrom (p :: ps) 0 s.toList := by
      rw [removeFrom_drop, List.drop_left]
    simp only [List.cons_append, removeFrom, List.length_cons, Nat.add_sub_cancel]
    rw [if_pos ⟨List.cons_ne_nil _ _, hpre⟩, hdrop]

theorem removeFrom_of_not_infix {part : List Char} :
    ∀ {cs : List Char}, (part ≠ [] → ¬ part <:+: cs) → removeFrom part 0 cs = cs := by
  intro cs
  induction cs with
  | nil => intro _; rfl
  | cons c cs ih =>
    intro h
    have hc : ¬ (part ≠ [] ∧ part <+: c :: cs) := fun hc => h hc.1 hc.2.isInfix
    have hcs : part ≠ [] → ¬ part <:+: cs := fun hne hin =>
      h hne (List.infix_cons hin)
    rw [removeFrom, if_neg hc, ih hcs]

/-- A string that does not contain `part` stays as it is, and so does every string if `part` is
empty. -/
theorem remove_of_not_infix {part s : String}
    (h : part ≠ "" → ¬ part.toList <:+: s.toList) : remove part s = s := by
  have hl : part.toList ≠ [] → ¬ part.toList <:+: s.toList := fun hne =>
    h fun hp => hne (String.toList_eq_nil_iff.mpr hp)
  rw [remove, removeFrom_of_not_infix hl, String.ofList_toList]

/-! ## Splitting and joining -/

section Split

variable {α : Type} [DecidableEq α] {sep : α}

omit [DecidableEq α] in
/-- A text is cut at its first separator in one way only. -/
theorem append_sep_inj {as bs cs ds : List α} (has : sep ∉ as) (hcs : sep ∉ cs)
    (h : as ++ sep :: bs = cs ++ sep :: ds) : as = cs ∧ bs = ds := by
  induction as generalizing cs with
  | nil =>
    cases cs with
    | nil => simpa using h
    | cons c cs =>
      simp only [List.nil_append, List.cons_append, List.cons.injEq] at h
      exact absurd (h.1 ▸ List.mem_cons_self) hcs
  | cons a as ih =>
    cases cs with
    | nil =>
      simp only [List.nil_append, List.cons_append, List.cons.injEq] at h
      exact absurd (h.1 ▸ List.mem_cons_self) has
    | cons c cs =>
      simp only [List.cons_append, List.cons.injEq] at h
      obtain ⟨rfl, h⟩ := h
      obtain ⟨rfl, rfl⟩ := ih (fun hmem => has (List.mem_cons_of_mem _ hmem))
        (fun hmem => hcs (List.mem_cons_of_mem _ hmem)) h
      exact ⟨rfl, rfl⟩

omit [DecidableEq α] in
/-- And at its last one. -/
theorem append_last_sep_inj {as bs cs ds : List α} (hbs : sep ∉ bs) (hds : sep ∉ ds)
    (h : as ++ sep :: bs = cs ++ sep :: ds) : as = cs ∧ bs = ds := by
  have hrev := congrArg List.reverse h
  simp only [List.reverse_append, List.reverse_cons, List.append_assoc, List.singleton_append] at hrev
  obtain ⟨h₁, h₂⟩ := append_sep_inj (by simpa using hbs) (by simpa using hds) hrev
  exact ⟨List.reverse_injective h₂, List.reverse_injective h₁⟩

omit [DecidableEq α] in
/-- Parts that all end with the separator. -/
theorem flatMap_sep_injective :
    ∀ {parts parts' : List (List α)}, (∀ part ∈ parts, sep ∉ part) → (∀ part ∈ parts', sep ∉ part) →
      parts.flatMap (· ++ [sep]) = parts'.flatMap (· ++ [sep]) → parts = parts' := by
  intro parts
  induction parts with
  | nil =>
    intro parts' _ _ h
    cases parts' with
    | nil => rfl
    | cons part' parts' => simp at h
  | cons part parts ih =>
    intro parts' hparts hparts' h
    cases parts' with
    | nil => simp at h
    | cons part' parts' =>
      obtain ⟨hpart, hlater⟩ := List.forall_mem_cons.mp hparts
      obtain ⟨hpart', hlater'⟩ := List.forall_mem_cons.mp hparts'
      simp only [List.flatMap_cons, List.append_assoc, List.singleton_append] at h
      obtain ⟨rfl, hrest⟩ := append_sep_inj hpart hpart' h
      rw [ih hlater hlater' hrest]

theorem not_mem_of_mem_splitOn : ∀ {cs : List α}, ∀ part ∈ cs.splitOn sep, sep ∉ part := by
  intro cs
  induction cs with
  | nil => simp
  | cons c cs ih =>
    intro part hpart
    rw [List.splitOn_cons_eq_if_modifyHead] at hpart
    split at hpart
    · rcases List.mem_cons.mp hpart with rfl | hpart
      · exact List.not_mem_nil
      · exact ih part hpart
    · rename_i hne
      obtain ⟨first, rest, hsplit⟩ := List.exists_cons_of_ne_nil (List.splitOn_ne_nil sep cs)
      rw [hsplit] at ih hpart
      rcases List.mem_cons.mp hpart with rfl | hpart
      · have hfirst : sep ∉ first := ih first List.mem_cons_self
        intro hmem
        rcases List.mem_cons.mp hmem with rfl | hmem
        · simp at hne
        · exact hfirst hmem
      · exact ih part (List.mem_cons_of_mem _ hpart)

theorem mem_of_mem_splitOn {cs : List α} : ∀ part ∈ cs.splitOn sep, part ⊆ cs := by
  induction cs with
  | nil => simp
  | cons c cs ih =>
    intro part hpart
    rw [List.splitOn_cons_eq_if_modifyHead] at hpart
    split at hpart
    · rcases List.mem_cons.mp hpart with rfl | hpart
      · exact List.nil_subset _
      · exact List.subset_cons_of_subset c (ih part hpart)
    · obtain ⟨first, rest, hsplit⟩ := List.exists_cons_of_ne_nil (List.splitOn_ne_nil sep cs)
      rw [hsplit] at ih hpart
      rcases List.mem_cons.mp hpart with rfl | hpart
      · exact List.cons_subset_cons c (ih first List.mem_cons_self)
      · exact List.subset_cons_of_subset c (ih part (List.mem_cons_of_mem _ hpart))

omit [DecidableEq α] in
theorem mem_intercalate {c : α} :
    ∀ {parts : List (List α)}, c ∈ [sep].intercalate parts → c = sep ∨ ∃ part ∈ parts, c ∈ part := by
  intro parts
  induction parts with
  | nil => simp
  | cons part parts ih =>
    cases parts with
    | nil =>
      intro h
      exact .inr ⟨part, List.mem_cons_self, by simpa using h⟩
    | cons next parts =>
      intro h
      rw [List.intercalate_cons_cons, List.append_assoc, List.mem_append, List.mem_append] at h
      rcases h with h | h | h
      · exact .inr ⟨part, List.mem_cons_self, h⟩
      · exact .inl (List.mem_singleton.mp h)
      · rcases ih h with rfl | ⟨other, hother, h⟩
        · exact .inl rfl
        · exact .inr ⟨other, List.mem_cons_of_mem _ hother, h⟩

omit [DecidableEq α] in
/-- Empty parts at the end are separators at the end. -/
theorem intercalate_append_empty (k : Nat) :
    ∀ {parts : List (List α)}, parts ≠ [] →
      [sep].intercalate (parts ++ List.replicate k []) =
        [sep].intercalate parts ++ List.replicate k sep := by
  intro parts
  induction parts with
  | nil => intro h; exact absurd rfl h
  | cons part parts ih =>
    intro _
    cases parts with
    | nil =>
      have hempty : ∀ k, [sep].intercalate (List.replicate (k + 1) []) = List.replicate k sep := by
        intro k
        induction k with
        | zero => rfl
        | succ k ih =>
          rw [List.replicate_succ, List.intercalate_cons_of_ne_nil (by simp), ih]
          rfl
      cases k with
      | zero => simp
      | succ k =>
        rw [List.singleton_append, List.intercalate_cons_of_ne_nil (by simp), hempty k]
        simp [List.replicate_succ]
    | cons next parts =>
      have hrest := ih (List.cons_ne_nil next parts)
      rw [List.cons_append] at hrest
      simp only [List.cons_append, List.intercalate_cons_cons, hrest, List.append_assoc]

end Split

theorem split_of_ne {sep : Char} {s : String} (h : s ≠ "") :
    split sep s = ((s.toList.splitOn sep).rdropWhile (·.isEmpty)).map String.ofList := by
  unfold split
  split
  · rfl
  · rename_i hmem
    have hsep : sep ∉ s.toList := by simpa using hmem
    have hne : s.toList ≠ [] := fun hnil => h (String.toList_eq_nil_iff.mp hnil)
    rw [List.splitOn_eq_singleton hsep, List.rdropWhile_singleton]
    simp [hne]

theorem rdropWhile_append_replicate {α : Type} {p : α → Bool} {a : α} (ha : p a = true)
    (l : List α) (k : Nat) : (l ++ List.replicate k a).rdropWhile p = l.rdropWhile p := by
  induction k with
  | zero => rw [List.replicate_zero, List.append_nil]
  | succ k ih =>
    rw [List.replicate_succ', ← List.append_assoc, List.rdropWhile_concat_pos _ _ _ ha, ih]

theorem rdropWhile_append {α : Type} {p : α → Bool} {l : List α} (hl : l.rdropWhile p = l)
    (as : List α) : (l ++ as).rdropWhile p = l ++ as.rdropWhile p := by
  induction as using List.reverseRecOn with
  | nil => rw [List.append_nil, hl, List.rdropWhile_nil, List.append_nil]
  | append_singleton as a ih =>
    rw [← List.append_assoc]
    by_cases ha : p a = true
    · rw [List.rdropWhile_concat_pos _ _ _ ha, List.rdropWhile_concat_pos _ _ _ ha, ih]
    · rw [List.rdropWhile_concat_neg _ _ _ ha, List.rdropWhile_concat_neg _ _ _ ha,
        List.append_assoc]

section Parts

variable {sep : Char} {s : String} {parts : List String} {last : String}

/-- What a string is split into: strings without the separator. Behind the last one are separators
only. -/
theorem of_split (hlast : last ≠ "") (h : split sep s = parts ++ [last]) :
    (∀ part ∈ parts ++ [last], sep ∉ part.toList) ∧
      ∃ k, s.toList =
        [sep].intercalate ((parts ++ [last]).map String.toList) ++ List.replicate k sep := by
  have hs : s ≠ "" := by
    rintro rfl
    have hsingle : [""] = parts ++ [last] := h
    have hgetLast := congrArg List.getLast? hsingle
    rw [List.getLast?_concat] at hgetLast
    exact hlast (Option.some.inj hgetLast).symm
  rw [split_of_ne hs] at h
  have hkept : (s.toList.splitOn sep).rdropWhile List.isEmpty =
      (parts ++ [last]).map String.toList := by
    rw [← h, List.map_map]
    simp [Function.comp_def]
  obtain ⟨k, hdropped⟩ : ∃ k, (s.toList.splitOn sep).rtakeWhile List.isEmpty =
      List.replicate k [] :=
    ⟨_, List.eq_replicate_of_mem fun x hx => List.isEmpty_iff.mp (List.mem_rtakeWhile_imp hx)⟩
  have hall := List.rdropWhile_append_rtakeWhile (l := s.toList.splitOn sep) (p := List.isEmpty)
  rw [hkept, hdropped] at hall
  refine ⟨fun part hpart => ?_, k, ?_⟩
  · apply not_mem_of_mem_splitOn
    rw [← hall]
    exact List.mem_append_left _ (List.mem_map_of_mem hpart)
  · rw [← intercalate_append_empty k (by simp), hall, List.intercalate_splitOn]

theorem last_of_split (hs : s ≠ "") (h : split sep s = parts ++ [last]) : last ≠ "" := by
  rintro rfl
  rw [split_of_ne hs, List.map_eq_append_iff] at h
  obtain ⟨init, end', hkept, -, hend⟩ := h
  obtain ⟨l, rfl, hl⟩ := List.map_eq_singleton_iff.mp hend
  have hempty : l.isEmpty = true := by simpa using hl
  have hidem := congrArg (List.rdropWhile List.isEmpty) hkept
  rw [List.rdropWhile_idempotent, hkept, List.rdropWhile_concat_pos _ _ _ hempty] at hidem
  have hlength := congrArg List.length hidem
  have hle := (List.rdropWhile_prefix List.isEmpty (l := init)).length_le
  rw [List.length_append, List.length_singleton] at hlength
  omega

theorem splitOn_join (hne : parts ≠ []) (hparts : ∀ part ∈ parts, sep ∉ part.toList) {k : Nat}
    (hs : s.toList = [sep].intercalate (parts.map String.toList) ++ List.replicate k sep) :
    s.toList.splitOn sep = parts.map String.toList ++ List.replicate k [] := by
  have hne : parts.map String.toList ≠ [] := by simpa using hne
  have hfree : ∀ part ∈ parts.map String.toList ++ List.replicate k [], sep ∉ part := by
    intro part hpart
    rcases List.mem_append.mp hpart with hpart | hpart
    · obtain ⟨p, hp, rfl⟩ := List.mem_map.mp hpart
      exact hparts p hp
    · rw [List.eq_of_mem_replicate hpart]
      exact List.not_mem_nil
  rw [hs, ← intercalate_append_empty k hne]
  exact List.splitOn_intercalate sep hfree (by simp [hne])

theorem split_join (hlast : last ≠ "") (hparts : ∀ part ∈ parts ++ [last], sep ∉ part.toList)
    {k : Nat} (hs : s.toList =
      [sep].intercalate ((parts ++ [last]).map String.toList) ++ List.replicate k sep) :
    split sep s = parts ++ [last] := by
  have hkept : (s.toList.splitOn sep).rdropWhile List.isEmpty =
      (parts ++ [last]).map String.toList := by
    rw [splitOn_join (by simp) hparts hs, rdropWhile_append_replicate rfl,
      List.rdropWhile_eq_self_iff]
    simp [hlast]
  have hnonempty : s ≠ "" := by
    rintro rfl
    rw [String.toList_empty, List.splitOn_nil] at hkept
    have hnil : (parts ++ [last]).map String.toList = [] := hkept.symm
    simp at hnil
  rw [split_of_ne hnonempty, hkept, List.map_map]
  simp [Function.comp_def]

/-- Strings without the separator, each with one behind it, and what follows them. -/
theorem splitOn_followed (hparts : ∀ part ∈ parts, sep ∉ part.toList) (rest : List Char) :
    ((parts.flatMap fun part => part.toList ++ [sep]) ++ rest).splitOn sep =
      parts.map String.toList ++ rest.splitOn sep := by
  induction parts with
  | nil => rfl
  | cons part parts ih =>
    have hpart : sep ∉ part.toList := hparts part List.mem_cons_self
    have hcons := List.splitOn_append_cons_self_of_not_mem hpart
      ((parts.flatMap fun part => part.toList ++ [sep]) ++ rest)
    rw [ih fun p hp => hparts p (List.mem_cons_of_mem part hp)] at hcons
    simpa using hcons

theorem intercalate_followed (parts : List String) {others : List String} (hne : others ≠ []) :
    [sep].intercalate ((parts ++ others).map String.toList) =
      (parts.flatMap fun part => part.toList ++ [sep]) ++
        [sep].intercalate (others.map String.toList) := by
  induction parts with
  | nil => rfl
  | cons part parts ih =>
    have hne : (parts ++ others).map String.toList ≠ [] := by simp [hne]
    rw [List.cons_append, List.map_cons, List.intercalate_cons_of_ne_nil hne, ih]
    simp

theorem split_followed (hlast : last ≠ "") (hparts : ∀ part ∈ parts ++ [last], sep ∉ part.toList)
    {rest : List Char}
    (hs : s.toList = ((parts ++ [last]).flatMap fun part => part.toList ++ [sep]) ++ rest) :
    split sep s = parts ++ [last] ++
      ((rest.splitOn sep).rdropWhile (·.isEmpty)).map String.ofList := by
  have hnonempty : s ≠ "" := by
    rintro rfl
    simp at hs
  have hkept : ((parts ++ [last]).map String.toList).rdropWhile (·.isEmpty) =
      (parts ++ [last]).map String.toList := by
    rw [List.rdropWhile_eq_self_iff]
    simp [hlast]
  rw [split_of_ne hnonempty, hs, splitOn_followed hparts, rdropWhile_append hkept, List.map_append,
    List.map_map]
  simp [Function.comp_def]

end Parts

end Java
end AppNG
