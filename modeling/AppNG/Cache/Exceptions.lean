import AppNG.Cache.Key

/-!
# Cache.Exceptions

A list of exceptions is a property with one prefix of a path on each line. `PageCacheFilter` reads one
to leave paths out of the cache, `XSSUtil` reads another one of the same kind to leave them unfiltered.

A line can be blank or a comment. `XSSUtil` skips those. `PageCacheFilter` trims every line, and every
path starts with what is left of a blank one.

* `exempts_iff`: what `XSSUtil` leaves out is what the list says.
* `exemptions_agree_iff`: so is what `PageCacheFilter` leaves out, if and only if no line is left
  empty or some other line is a prefix of the path.
-/

namespace AppNG
namespace Cache

/-! ## The filter against cross-site scripting -/

/-- `XSSUtil.doProcess`, for a request with or without the attribute that says it was done. -/
def doProcess (stripped : Bool) (exceptions : Option (List String)) (servletPath : String) : Bool :=
  if stripped then false
  else
    match exceptions with
    | none => true
    | some exceptions => !exceptions.any fun exception =>
        !(Java.isBlank (some exception) || Java.startsWith exception '#') &&
          (Java.trim exception).isPrefixOf servletPath.toList

/-- What `XSSFilter` hands over. -/
def filterExceptions (xssExceptions : String) : List String := Java.split '\n' xssExceptions

/-- What `RequestFactoryBean` hands over. -/
def requestExceptions (xssExceptions : String) : List String :=
  if Java.isBlank (some xssExceptions) then [] else Java.split '\n' xssExceptions

/-! ## What a list says -/

def lines (rules : String) : List String := (rules.toList.splitOn '\n').map String.ofList

def IsComment (line : String) : Prop := (Java.trim line).head? = some '#'

instance (line : String) : Decidable (IsComment line) := inferInstanceAs (Decidable (_ = _))

def Exempt (rules servletPath : String) : Prop :=
  ∃ line ∈ lines rules, ¬ Java.isBlank (some line) = true ∧ ¬ IsComment line ∧
    Java.trim line <+: servletPath.toList

instance (rules servletPath : String) : Decidable (Exempt rules servletPath) :=
  inferInstanceAs (Decidable (∃ line ∈ lines rules, _))

variable {rules line : String} {rq : Request} {lib : Library}

theorem mem_lines_of_mem_split (h : line ∈ Java.split '\n' rules) : line ∈ lines rules := by
  unfold Java.split at h
  split at h
  · obtain ⟨part, hpart, rfl⟩ := List.mem_map.mp h
    exact List.mem_map_of_mem ((List.rdropWhile_prefix _ _).subset hpart)
  · rename_i hsep
    have hfree : '\n' ∉ rules.toList := by simpa using hsep
    obtain rfl := List.mem_singleton.mp h
    unfold lines
    rw [List.splitOn_eq_singleton hfree]
    simp

/-- Only empty lines are dropped. -/
theorem mem_split_of_mem_lines (h : line ∈ lines rules) (hline : line ≠ "") :
    line ∈ Java.split '\n' rules := by
  obtain ⟨part, hpart, rfl⟩ := List.mem_map.mp h
  have hpart' : part ≠ [] := fun hnil => hline (hnil ▸ rfl)
  have hrules : rules ≠ "" := by
    rintro rfl
    simp at hpart
    exact hpart' hpart
  rw [Java.split_of_ne hrules]
  refine List.mem_map_of_mem ?_
  have hall := List.rdropWhile_append_rtakeWhile (l := rules.toList.splitOn '\n')
    (p := List.isEmpty)
  rw [← hall] at hpart
  rcases List.mem_append.mp hpart with hkept | hdropped
  · exact hkept
  · exact absurd (List.isEmpty_iff.mp (List.mem_rtakeWhile_imp hdropped)) hpart'

theorem head_trim {c : Char} (hline : line.toList.head? = some c) (hc : 0x20 < c.toNat) :
    (Java.trim line).head? = some c := by
  obtain ⟨cs, hcs⟩ : ∃ cs, line.toList = c :: cs := List.head?_eq_some_iff.mp hline
  have hkept : line.toList.dropWhile (·.toNat ≤ 0x20) = c :: cs := by
    rw [hcs, List.dropWhile_cons_of_neg (by simpa using hc)]
  unfold Java.trim
  rw [hkept]
  obtain ⟨rest, hrest⟩ := List.rdropWhile_prefix (fun d : Char => decide (d.toNat ≤ 0x20)) (c :: cs)
  cases htrim : (c :: cs).rdropWhile (fun d => decide (d.toNat ≤ 0x20)) with
  | nil =>
    have hall := List.rdropWhile_eq_nil_iff.mp htrim c List.mem_cons_self
    simp only [decide_eq_true_eq] at hall
    omega
  | cons d ds =>
    rw [htrim] at hrest
    obtain ⟨rfl, -⟩ := List.cons.inj hrest
    rfl

theorem trim_subset : Java.trim line ⊆ line.toList := by
  unfold Java.trim
  exact fun _ h => (List.dropWhile_suffix _).subset ((List.rdropWhile_prefix _ _).subset h)

/-- A prefix of a path is empty or starts with a slash. -/
theorem head_of_starts {cs : List Char} (h : cs <+: rq.servletPath.toList) (hcs : cs ≠ []) :
    cs.head? = some '/' := by
  obtain ⟨rest, hrest⟩ := h
  obtain ⟨c, cs, rfl⟩ := List.exists_cons_of_ne_nil hcs
  rcases rq.servletPath_slash with hempty | hslash
  · rw [hempty] at hrest
    cases hrest
  · rw [← hrest] at hslash
    exact hslash

theorem not_comment_of_prefix (h : Java.trim line <+: rq.servletPath.toList) : ¬ IsComment line := by
  intro hcomment
  have hne : Java.trim line ≠ [] := by
    intro hnil
    rw [IsComment, hnil] at hcomment
    cases hcomment
  have hslash := head_of_starts h hne
  rw [IsComment, hslash] at hcomment
  exact absurd hcomment (by decide)

/-- What is left of a blank line is no prefix, if something is. -/
theorem not_blank_of_prefix (h : Java.trim line <+: rq.servletPath.toList)
    (hne : Java.trim line ≠ []) : ¬ Java.isBlank (some line) = true := by
  intro hblank
  have hslash := List.mem_of_mem_head? (head_of_starts h hne)
  have hspace := List.all_eq_true.mp hblank '/' (trim_subset hslash)
  exact absurd hspace (by decide)

/-! ## What the filters leave out -/

theorem doProcess_iff {exceptions : List String}
    (hlines : ∀ line, line ≠ "" → (line ∈ exceptions ↔ line ∈ lines rules)) :
    doProcess false (some exceptions) rq.servletPath = false ↔ Exempt rules rq.servletPath := by
  have hempty : Java.isBlank (some "") = true := rfl
  unfold doProcess
  simp only [Bool.false_eq_true, if_false, Bool.not_eq_false', List.any_eq_true, Bool.and_eq_true,
    Bool.not_eq_true', Bool.or_eq_false_iff, List.isPrefixOf_iff_prefix]
  constructor
  · rintro ⟨line, hline, ⟨hblank, -⟩, hprefix⟩
    have hne : line ≠ "" := by
      rintro rfl
      rw [hempty] at hblank
      cases hblank
    exact ⟨line, (hlines line hne).mp hline, by simp [hblank], not_comment_of_prefix hprefix,
      hprefix⟩
  · rintro ⟨line, hline, hblank, hcomment, hprefix⟩
    have hne : line ≠ "" := fun hnil => hblank (hnil ▸ hempty)
    refine ⟨line, (hlines line hne).mpr hline, ⟨by simpa using hblank, ?_⟩, hprefix⟩
    by_contra hstarts
    have hhash : line.toList.head? = some '#' := by simpa [Java.startsWith] using hstarts
    exact hcomment (head_trim hhash (by decide))

theorem exempts_iff :
    (doProcess false (some (filterExceptions rules)) rq.servletPath = false ↔
        Exempt rules rq.servletPath) ∧
      (doProcess false (some (requestExceptions rules)) rq.servletPath = false ↔
        Exempt rules rq.servletPath) := by
  have hfilter : ∀ line, line ≠ "" → (line ∈ filterExceptions rules ↔ line ∈ lines rules) :=
    fun line hne => ⟨mem_lines_of_mem_split, fun h => mem_split_of_mem_lines h hne⟩
  refine ⟨doProcess_iff hfilter, ?_⟩
  unfold requestExceptions
  split
  · rename_i hblank
    -- Where the whole list is blank, so is every line of it.
    have hnone : ¬ Exempt rules rq.servletPath := by
      rintro ⟨line, hline, hline', -⟩
      obtain ⟨part, hpart, rfl⟩ := List.mem_map.mp hline
      refine hline' (List.all_eq_true.mpr fun c hc => ?_)
      rw [String.toList_ofList] at hc
      exact List.all_eq_true.mp hblank c (Java.mem_of_mem_splitOn part hpart hc)
    simpa [doProcess] using hnone
  · exact doProcess_iff hfilter

/-- Ant patterns stand in comments only, and a pattern that starts with a hash matches no path. -/
structure PlainRules (lib : Library) (rules : String) : Prop where
  patterns : ∀ line ∈ lines rules, lib.isPattern (Java.trim line) = true → IsComment line
  comments : ∀ (rule : List Char) (rq : Request), rule.head? = some '#' →
    lib.pathMatches rule rq.servletPath = false

theorem isException_eq_starts (hplain : PlainRules lib rules) :
    isException lib (some rules) rq.servletPath = true ↔
      ∃ line ∈ Java.split '\n' rules, Java.trim line <+: rq.servletPath.toList := by
  unfold isException
  rw [List.any_eq_true]
  refine exists_congr fun line => and_congr_right fun hline => ?_
  dsimp only
  split
  · rename_i hpattern
    have hcomment := hplain.patterns line (mem_lines_of_mem_split hline) hpattern
    rw [hplain.comments _ rq hcomment]
    exact iff_of_false Bool.false_ne_true fun hprefix => not_comment_of_prefix hprefix hcomment
  · exact List.isPrefixOf_iff_prefix

theorem isException_iff (hplain : PlainRules lib rules) :
    (isException lib (some rules) rq.servletPath = true ↔ Exempt rules rq.servletPath) ↔
      Exempt rules rq.servletPath ∨ ∀ line ∈ Java.split '\n' rules, Java.trim line ≠ [] := by
  have hempty : Java.isBlank (some "") = true := rfl
  rw [isException_eq_starts hplain]
  constructor
  · intro h
    by_cases hexempt : Exempt rules rq.servletPath
    · exact .inl hexempt
    · right
      intro line hline hnil
      exact hexempt (h.mp ⟨line, hline, hnil ▸ List.nil_prefix⟩)
  · intro h
    constructor
    · rintro ⟨line, hline, hprefix⟩
      rcases h with hexempt | hkept
      · exact hexempt
      · exact ⟨line, mem_lines_of_mem_split hline, not_blank_of_prefix hprefix (hkept line hline),
          not_comment_of_prefix hprefix, hprefix⟩
    · rintro ⟨line, hline, hblank, -, hprefix⟩
      have hne : line ≠ "" := fun hnil => hblank (hnil ▸ hempty)
      exact ⟨line, mem_split_of_mem_lines hline hne, hprefix⟩

theorem exemptions_agree_iff (lib : Library) (rules : String) (rq : Request)
    (hplain : PlainRules lib rules) :
    ((isException lib (some rules) rq.servletPath = true ↔ Exempt rules rq.servletPath) ∧
        (doProcess false (some (filterExceptions rules)) rq.servletPath = false ↔
          Exempt rules rq.servletPath) ∧
        (doProcess false (some (requestExceptions rules)) rq.servletPath = false ↔
          Exempt rules rq.servletPath)) ↔
      Exempt rules rq.servletPath ∨ ∀ line ∈ Java.split '\n' rules, Java.trim line ≠ [] := by
  rw [and_iff_left exempts_iff]
  exact isException_iff hplain

/-- A library whose patterns are those of Ant, of which it matches what equals them. -/
def literalLibrary : Library where
  knownStatus status := 100 ≤ status && status ≤ 599
  gzip := id
  shouldBodyBeZero status := [204, 304].contains status
  shouldGzippedBodyBeZero body := decide (body.length = 20)
  getLastModified _ := -1
  parseDate _ := none
  formatDate _ := ""
  isPattern rule :=
    rule.any (fun c => c == '*' || c == '?') ||
      (rule.dropWhile (· != '\x7b')).any (· == '\x7d')
  pathMatches rule path := rule == path.toList
  body_zero status := by
    simp only [List.contains_cons, List.contains_nil, Bool.or_false]
  gzipped_not_empty := rfl
  lastModified_get _ _ _ := rfl
  lastModified_none _ _ := rfl

/-- No pattern of it starts with a hash and matches. -/
theorem literalLibrary_plain
    (h : ∀ line ∈ lines rules, literalLibrary.isPattern (Java.trim line) = true → IsComment line) :
    PlainRules literalLibrary rules := by
  refine ⟨h, fun rule rq hhash => ?_⟩
  by_contra hmatch
  have hrule : rule = rq.servletPath.toList := by simpa [literalLibrary] using hmatch
  have hne : rule ≠ [] := by
    rintro rfl
    cases hhash
  have hprefix : rule <+: rq.servletPath.toList := ⟨[], by rw [List.append_nil, hrule]⟩
  have hslash := head_of_starts hprefix hne
  rw [hhash] at hslash
  exact absurd hslash (by decide)

def shopRequest : Request := getRequest "/shop" none (by decide)

theorem exemptions_agree_iff_shop :
    isException literalLibrary (some "# both\n /sh \r\n") shopRequest.servletPath = true ∧
      doProcess false (some (filterExceptions "# both\n /sh \r\n")) shopRequest.servletPath =
        false := by
  have hexempt : Exempt "# both\n /sh \r\n" shopRequest.servletPath := by decide +kernel
  have h := (exemptions_agree_iff literalLibrary "# both\n /sh \r\n" shopRequest
    (literalLibrary_plain (by decide +kernel))).mpr (.inl hexempt)
  exact ⟨h.1.mpr hexempt, h.2.1.mpr hexempt⟩

/-- A blank line between two prefixes leaves every path out of the cache. -/
theorem blank_line_exempts :
    ¬ Exempt "/health\n\n/manager" shopRequest.servletPath ∧
      isException literalLibrary (some "/health\n\n/manager") shopRequest.servletPath = true ∧
      doProcess false (some (filterExceptions "/health\n\n/manager")) shopRequest.servletPath =
        true := by
  decide +kernel

end Cache
end AppNG
