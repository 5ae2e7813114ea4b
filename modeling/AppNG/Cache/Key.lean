import AppNG.Cache.PageCacheFilter

/-!
# Cache.Key

When two requests of a site share a key of the cache.

The method ends where the path or the query begins, so it is part of the key
(`token_append_inj`). Between path and query there is only a question mark, which a decoded path
may hold as well: `calculateKey_inj_iff` says that two requests for different things share a key
exactly if the path of one runs into the query of the other.
-/

namespace AppNG
namespace Cache

/-- The query string, a blank one counting as none. -/
def effectiveQuery (rq : Request) : Option String :=
  rq.queryString.filter fun query => !Java.isBlank (some query)

theorem querySuffix_eq (rq : Request) :
    querySuffix rq = match effectiveQuery rq with
      | none => ""
      | some query => "?" ++ query := by
  unfold querySuffix effectiveQuery
  cases rq.queryString with
  | none => rfl
  | some query =>
    cases hb : Java.isBlank (some query) with
    | true => simp [Option.filter, hb]
    | false => simp [Option.filter, hb]

theorem querySuffix_inj {a b : Request} :
    querySuffix a = querySuffix b ↔ effectiveQuery a = effectiveQuery b := by
  rw [querySuffix_eq, querySuffix_eq]
  cases effectiveQuery a with
  | none =>
    cases effectiveQuery b with
    | none => simp
    | some q => simp [String.ext_iff]
  | some p =>
    cases effectiveQuery b with
    | none => simp [String.ext_iff]
    | some q => simp [String.ext_iff]

/-- What follows a servlet path in the key is nothing, or starts with a question mark. -/
theorem querySuffix_head (rq : Request) :
    (querySuffix rq).toList = [] ∨ (querySuffix rq).toList.head? = some '?' := by
  rw [querySuffix_eq]
  cases effectiveQuery rq with
  | none => exact .inl (by simp)
  | some query => exact .inr (by simp)

/-- Words without the characters in `P`, each followed by nothing or by such a character, end at
the same place. -/
theorem token_append_inj {P : Char → Bool} {m₁ m₂ r₁ r₂ : List Char}
    (h₁ : ∀ c ∈ m₁, P c = false) (h₂ : ∀ c ∈ m₂, P c = false)
    (hr₁ : ∀ c, r₁.head? = some c → P c = true) (hr₂ : ∀ c, r₂.head? = some c → P c = true)
    (h : m₁ ++ r₁ = m₂ ++ r₂) : m₁ = m₂ ∧ r₁ = r₂ := by
  have hm : m₁ = m₂ := by
    have ht : ∀ {m r : List Char}, (∀ c ∈ m, P c = false) →
        (∀ c, r.head? = some c → P c = true) → (m ++ r).takeWhile (fun c => !P c) = m := by
      intro m r hm hr
      rw [List.takeWhile_append_of_pos (by simpa using hm)]
      cases r with
      | nil => simp
      | cons c cs => simp [hr c rfl]
    rw [← ht h₁ hr₁, h, ht h₂ hr₂]
  subst hm
  exact ⟨rfl, List.append_cancel_left h⟩

/-- The path of `a` is the path of `b`, a question mark and the beginning of the query of `b`, and
what is left of that query is what `a` has. -/
def RunsInto (a b : Request) : Prop :=
  a.method = b.method ∧ ∃ rest, a.servletPath = b.servletPath ++ "?" ++ rest ∧
    effectiveQuery b = some (rest ++ querySuffix a)

def KeyDetermines (a b : Request) : Prop :=
  calculateKey a = calculateKey b →
    a.method = b.method ∧ a.servletPath = b.servletPath ∧ effectiveQuery a = effectiveQuery b

theorem RunsInto.key_eq {a b : Request} (h : RunsInto a b) :
    calculateKey a = calculateKey b ∧ a.servletPath ≠ b.servletPath := by
  obtain ⟨hm, rest, hp, hq⟩ := h
  constructor
  · rw [calculateKey, calculateKey, hm, hp, querySuffix_eq b, hq]
    simp only [String.append_assoc]
  · intro heq
    rw [hp] at heq
    have hlen := congrArg (fun s : String => s.toList.length) heq
    simp only [String.toList_append, List.length_append] at hlen
    have hmark : "?".toList.length = 1 := rfl
    omega

theorem method_of_key {a b : Request} (h : calculateKey a = calculateKey b) :
    a.method = b.method ∧
      a.servletPath.toList ++ (querySuffix a).toList =
        b.servletPath.toList ++ (querySuffix b).toList := by
  have hkey : a.method.toList ++ (a.servletPath.toList ++ (querySuffix a).toList) =
      b.method.toList ++ (b.servletPath.toList ++ (querySuffix b).toList) := by
    have := congrArg String.toList h
    simpa only [calculateKey, String.toList_append, List.append_assoc] using this
  have htoken : ∀ rq : Request, ∀ c ∈ rq.method.toList, (c == '/' || c == '?') = false := by
    intro rq c hc
    have hslash : c ≠ '/' := fun h => rq.method_token.1 (h ▸ hc)
    have hmark : c ≠ '?' := fun h => rq.method_token.2 (h ▸ hc)
    simp [hslash, hmark]
  have hrest : ∀ rq : Request, ∀ c,
      (rq.servletPath.toList ++ (querySuffix rq).toList).head? = some c →
        (c == '/' || c == '?') = true := by
    intro rq c hc
    rcases rq.servletPath_slash with hempty | hslash
    · rw [hempty, String.toList_empty, List.nil_append] at hc
      rcases querySuffix_head rq with hq | hq
      · rw [hq] at hc
        cases hc
      · rw [hq] at hc
        cases hc
        rfl
    · rw [List.head?_append, hslash] at hc
      cases hc
      rfl
  obtain ⟨hm, hr⟩ := token_append_inj (htoken a) (htoken b) (hrest a) (hrest b) hkey
  exact ⟨String.toList_inj.mp hm, hr⟩

/-- Of two ways to split one string into path and query the paths agree, or one runs into the query
of the other. -/
theorem split_cases {a b : Request} (hm : a.method = b.method) {more : List Char}
    (hp : a.servletPath.toList = b.servletPath.toList ++ more)
    (hq : (querySuffix b).toList = more ++ (querySuffix a).toList) :
    RunsInto a b ∨ (a.servletPath = b.servletPath ∧ querySuffix a = querySuffix b) := by
  cases more with
  | nil =>
    refine .inr ⟨String.toList_inj.mp ?_, String.toList_inj.mp ?_⟩
    · rw [hp, List.append_nil]
    · rw [hq, List.nil_append]
  | cons c rest =>
    refine .inl ⟨hm, String.ofList rest, String.toList_inj.mp ?_, ?_⟩
    · have hc : c = '?' := by
        rcases querySuffix_head b with h | h <;> rw [hq] at h
        · cases h
        · simpa using h
      rw [hp, hc]
      simp
    · rw [querySuffix_eq b] at hq
      cases hquery : effectiveQuery b with
      | none => rw [hquery] at hq; simp at hq
      | some query =>
        rw [hquery] at hq
        simp only [String.toList_append, List.cons_append] at hq
        have htail : query.toList = rest ++ (querySuffix a).toList := (List.cons.inj hq).2
        refine congrArg some (String.toList_inj.mp ?_)
        rw [htail]
        simp

/-- Different targets share a key exactly if one path runs into the other query. -/
theorem calculateKey_inj_iff (a b : Request) :
    KeyDetermines a b ↔ ¬ RunsInto a b ∧ ¬ RunsInto b a := by
  constructor
  · intro h
    constructor
    · intro hab
      obtain ⟨hkey, hne⟩ := hab.key_eq
      exact hne (h hkey).2.1
    · intro hba
      obtain ⟨hkey, hne⟩ := hba.key_eq
      exact hne (h hkey.symm).2.1.symm
  · rintro ⟨hab, hba⟩ hkey
    obtain ⟨hm, hr⟩ := method_of_key hkey
    rcases List.append_eq_append_iff.mp hr with ⟨more, hp, hq⟩ | ⟨more, hp, hq⟩
    · rcases split_cases hm.symm hp hq with h | ⟨h, hsuffix⟩
      · exact absurd h hba
      · exact ⟨hm, h.symm, (querySuffix_inj.mp hsuffix).symm⟩
    · rcases split_cases hm hp hq with h | ⟨h, hsuffix⟩
      · exact absurd h hab
      · exact ⟨hm, h, querySuffix_inj.mp hsuffix⟩

/-! ## A decoded question mark -/

def getRequest (servletPath : String) (queryString : Option String)
    (slash : servletPath = "" ∨ servletPath.toList.head? = some '/') : Request where
  method := "GET"
  servletPath
  queryString
  ifModifiedSince := none
  acceptEncoding := none
  roles := none
  method_token := by decide
  servletPath_slash := slash

/-- `/page%3Fid=1` and `/page?id=1` are one entry of the cache. -/
theorem encoded_question_mark :
    ¬ KeyDetermines (getRequest "/page?id=1" none (by decide))
      (getRequest "/page" (some "id=1") (by decide)) := by
  intro h
  exact absurd (h rfl).2.1 (by decide)

end Cache
end AppNG
