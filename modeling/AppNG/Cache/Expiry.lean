import AppNG.Lib.JavaInt
import AppNG.Lib.JavaString
import AppNG.Lib.Keyed

/-!
# Cache.Expiry

`PageCacheFilter.getExpiry`: how long a page stays in the cache and with the client. The rules map a
path to a number of seconds, with those of the client behind a comma.

Without Ant patterns the path of the request is split at its slashes and shortened one segment at a
time, until there is a rule for what is left. Java drops the empty segments at the end.

* `ruleFor_iff`: the loop stops at the rule with the longest path, if and only if no path with a rule
  goes into the segments that were dropped.
* `expiryFor_eq_ok`: a rule is read without an exception if and only if its numbers fit.
* `getExpiry_right_iff`: both together, and the same for Ant patterns.
-/

namespace AppNG
namespace Cache

/-- What a property file is read into, in the order of its key set. -/
abbrev CachingTimes := Keyed (Prod.fst : String × String → String)

inductive ExpiryFailure where
  | numberFormat
  | nullPointer
  | illegalArgument
  | patternSyntax
  deriving DecidableEq, Repr

/-- What is not in the repository. -/
structure ExpiryLibrary where
  /-- `AntPathMatcher.match` -/
  pathMatches : String → String → Except ExpiryFailure Bool
  /-- `new Duration` does not throw. -/
  isDuration : Int → Bool
  isDuration_iff : ∀ n, isDuration n = true ↔ 0 ≤ n

inductive ExpiryPolicy where
  | created (seconds : Int)
  | accessed (seconds : Int)
  deriving DecidableEq, Repr

structure Expiry where
  ttl : Int
  clientTtl : Int
  policy : ExpiryPolicy
  deriving DecidableEq, Repr

/-! ## The rule -/

def join (segments : List String) : String :=
  String.ofList (['/'].intercalate (segments.map String.toList))

/-- The loop: `len` segments are left. -/
def lookUp (cachingTimes : CachingTimes) (pathSegments : List String) :
    Nat → Option (String × String)
  | 0 => none
  | len + 1 => (cachingTimes.get (join (pathSegments.take (len + 1)))).or
      (lookUp cachingTimes pathSegments len)

def ruleFor (cachingTimes : CachingTimes) (servletPath : String) : Option (String × String) :=
  let pathSegments := Java.split '/' servletPath
  lookUp cachingTimes pathSegments pathSegments.length

def antRule (lib : ExpiryLibrary) (servletPath : String) :
    List (String × String) → Except ExpiryFailure (Option (String × String))
  | [] => .ok none
  | rule :: rules =>
    match lib.pathMatches rule.1 servletPath with
    | .error f => .error f
    | .ok true => .ok (some rule)
    | .ok false => antRule lib servletPath rules

/-! ## Its numbers -/

/-- The first and the third group of `^(\d+)(,(\d+)?)?$`; the third one is empty if it is missing. -/
def expiryGroups (entry : String) : Option (List Char × List Char) :=
  let ttl := entry.toList.takeWhile Char.isDigit
  if ttl = [] then none
  else
    match entry.toList.dropWhile Char.isDigit with
    | [] => some (ttl, [])
    | c :: clientTtl =>
      if c = ',' ∧ clientTtl.all Char.isDigit = true then some (ttl, clientTtl) else none

def number (digits : List Char) : Int := (Nat.ofDigitChars 10 digits 0 : Nat)

def valueOf (digits : List Char) : Except ExpiryFailure Int :=
  if number digits ≤ Java.maxInt then .ok (number digits) else .error .numberFormat

def newExpiry (lib : ExpiryLibrary) (expireByCreation : Bool) (ttl clientTtl : Option Int) :
    Except ExpiryFailure Expiry :=
  match ttl with
  | none => .error .nullPointer
  | some ttl =>
    if lib.isDuration ttl then
      match clientTtl with
      | none => .error .nullPointer
      | some clientTtl =>
        .ok ⟨ttl, clientTtl, if expireByCreation then .created ttl else .accessed ttl⟩
    else .error .illegalArgument

def expiryFor (lib : ExpiryLibrary) (expireByCreation : Bool) (defaultValue : Option Int)
    (rule : Option (String × String)) : Except ExpiryFailure Expiry :=
  match rule.bind fun rule => expiryGroups rule.2 with
  | none => newExpiry lib expireByCreation defaultValue defaultValue
  | some (ttl, clientTtl) => do
    let ttl ← valueOf ttl
    let clientTtl ← if clientTtl = [] then .ok ttl else valueOf clientTtl
    newExpiry lib expireByCreation (some ttl) (some clientTtl)

def getExpiry (lib : ExpiryLibrary) (cachingTimes : Option CachingTimes)
    (antStylePathMatching expireByCreation : Bool) (defaultValue : Option Int)
    (servletPath : String) : Except ExpiryFailure Expiry := do
  let rule ← match cachingTimes with
    | none => .ok none
    | some cachingTimes =>
      if antStylePathMatching then antRule lib servletPath cachingTimes.values
      else .ok (ruleFor cachingTimes servletPath)
  expiryFor lib expireByCreation defaultValue rule

/-! ## Which rule it should be -/

def segments (path : String) : List (List Char) := path.toList.splitOn '/'

/-- Such as `""`, `/foo` and `/foo/bar` for `/foo/bar`. -/
def IsSegmentPrefix (key path : String) : Prop := segments key <+: segments path

instance (key path : String) : Decidable (IsSegmentPrefix key path) :=
  inferInstanceAs (Decidable (_ <+: _))

structure IsLongest (rules : List (String × String)) (path : String) (rule : String × String) :
    Prop where
  mem : rule ∈ rules
  isPrefix : IsSegmentPrefix rule.1 path
  longest : ∀ r ∈ rules, IsSegmentPrefix r.1 path → r.1.length ≤ rule.1.length

def IsRuleFor (rules : List (String × String)) (path : String) :
    Option (String × String) → Prop
  | some rule => IsLongest rules path rule
  | none => ∀ rule ∈ rules, ¬ IsSegmentPrefix rule.1 path

/-- No path with a rule goes into the segments that `split` drops. -/
def WithinSplit (rules : List (String × String)) (path : String) : Prop :=
  ∀ rule ∈ rules, IsSegmentPrefix rule.1 path →
    (segments rule.1).length ≤ (Java.split '/' path).length

variable {key path : String} {times : CachingTimes} {rule : String × String}

theorem intercalate_segments (key : String) : ['/'].intercalate (segments key) = key.toList :=
  List.intercalate_splitOn '/'

theorem segments_injective {key' : String} (h : segments key = segments key') : key = key' := by
  rw [← String.toList_inj, ← intercalate_segments key, ← intercalate_segments key', h]

theorem length_lt_of_starts {key' : String} (h : segments key <+: segments key')
    (hlt : (segments key).length < (segments key').length) : key.length < key'.length := by
  obtain ⟨rest, hrest⟩ := h
  have hne : rest ≠ [] := by
    rintro rfl
    rw [← hrest, List.append_nil] at hlt
    exact Nat.lt_irrefl _ hlt
  have hjoin : ∀ parts : List (List Char), parts ≠ [] →
      (['/'].intercalate parts).length < (['/'].intercalate (parts ++ rest)).length := by
    intro parts
    induction parts with
    | nil => intro h; exact absurd rfl h
    | cons part parts ih =>
      intro _
      cases parts with
      | nil =>
        rw [List.singleton_append, List.intercalate_cons_of_ne_nil hne]
        simp
      | cons next parts =>
        have hrest := ih (List.cons_ne_nil next parts)
        rw [List.cons_append, List.cons_append, List.intercalate_cons_cons,
          List.intercalate_cons_cons, ← List.cons_append]
        simp only [List.length_append]
        omega
  have hlength := hjoin (segments key) (List.splitOn_ne_nil '/' key.toList)
  rw [hrest, intercalate_segments, intercalate_segments] at hlength
  rw [← String.length_toList, ← String.length_toList]
  exact hlength

/-! ## The loop -/

theorem segments_join {parts : List String} (hne : parts ≠ [])
    (hparts : ∀ part ∈ parts, '/' ∉ part.toList) :
    segments (join parts) = parts.map String.toList := by
  unfold segments join
  rw [String.toList_ofList]
  refine List.splitOn_intercalate '/' ?_ (by simpa using hne)
  intro part hpart
  obtain ⟨p, hp, rfl⟩ := List.mem_map.mp hpart
  exact hparts p hp

/-- Of the segments of a path, `split` keeps the first ones. -/
theorem split_starts (path : String) :
    (Java.split '/' path).map String.toList <+: segments path := by
  unfold Java.split
  split
  · rw [List.map_map]
    simpa [Function.comp_def, segments] using List.rdropWhile_prefix _ (path.toList.splitOn '/')
  · rename_i hsep
    have hfree : '/' ∉ path.toList := by simpa using hsep
    rw [segments, List.splitOn_eq_singleton hfree]
    exact List.prefix_rfl

theorem not_mem_of_mem_split : ∀ part ∈ Java.split '/' path, '/' ∉ part.toList := by
  intro part hpart
  exact Java.not_mem_of_mem_splitOn _ ((split_starts path).subset (List.mem_map_of_mem hpart))

/-- The paths that the loop looks up. -/
theorem segments_taken {len : Nat} (hlen : len + 1 ≤ (Java.split '/' path).length) :
    segments (join ((Java.split '/' path).take (len + 1))) = (segments path).take (len + 1) := by
  have hne : (Java.split '/' path).take (len + 1) ≠ [] := by
    intro hnil
    have hzero := congrArg List.length hnil
    rw [List.length_take_of_le hlen] at hzero
    cases hzero
  rw [segments_join hne fun part hpart => not_mem_of_mem_split part (List.mem_of_mem_take hpart),
    List.map_take]
  obtain ⟨rest, hrest⟩ := split_starts path
  rw [← hrest, List.take_append_of_le_length (by simpa using hlen)]

theorem get_taken {len : Nat} (hlen : len + 1 ≤ (Java.split '/' path).length) :
    times.get (join ((Java.split '/' path).take (len + 1))) = some rule ↔
      rule ∈ times.values ∧ segments rule.1 = (segments path).take (len + 1) := by
  rw [Keyed.get_eq_some]
  refine and_congr_right fun _ => ?_
  constructor
  · intro h
    rw [h]
    exact segments_taken hlen
  · intro h
    exact segments_injective (h.trans (segments_taken hlen).symm)

theorem eq_take {len : Nat} (h : IsSegmentPrefix key path) (hlen : (segments key).length = len) :
    segments key = (segments path).take len := by
  rw [List.prefix_iff_eq_take.mp h, hlen]

theorem lookUp_eq_none : ∀ {len : Nat}, len ≤ (Java.split '/' path).length →
    (lookUp times (Java.split '/' path) len = none ↔
      ∀ rule ∈ times.values, IsSegmentPrefix rule.1 path → len < (segments rule.1).length) := by
  intro len
  induction len with
  | zero =>
    intro _
    refine iff_of_true rfl fun rule _ _ => ?_
    exact List.length_pos_of_ne_nil (List.splitOn_ne_nil '/' rule.1.toList)
  | succ len ih =>
    intro hlen
    rw [lookUp, Option.or_eq_none_iff, ih (Nat.le_of_succ_le hlen)]
    constructor
    · rintro ⟨hget, hlater⟩ rule hrule hprefix
      refine Nat.lt_of_le_of_ne (hlater rule hrule hprefix) fun heq => ?_
      have hsome := (get_taken hlen).mpr ⟨hrule, eq_take hprefix heq.symm⟩
      rw [hget] at hsome
      cases hsome
    · intro h
      refine ⟨?_, fun rule hrule hprefix => Nat.lt_of_succ_lt (h rule hrule hprefix)⟩
      cases hget : times.get (join ((Java.split '/' path).take (len + 1))) with
      | none => rfl
      | some rule =>
        obtain ⟨hrule, hsegments⟩ := (get_taken hlen).mp hget
        have hprefix : IsSegmentPrefix rule.1 path := by
          rw [IsSegmentPrefix, hsegments]
          exact List.take_prefix _ _
        have hlt := h rule hrule hprefix
        rw [hsegments, List.length_take] at hlt
        omega

theorem lookUp_eq_some : ∀ {len : Nat}, len ≤ (Java.split '/' path).length →
    lookUp times (Java.split '/' path) len = some rule →
      rule ∈ times.values ∧ IsSegmentPrefix rule.1 path ∧ (segments rule.1).length ≤ len ∧
        ∀ r ∈ times.values, IsSegmentPrefix r.1 path → (segments r.1).length ≤ len →
          (segments r.1).length ≤ (segments rule.1).length := by
  intro len
  induction len with
  | zero => intro _ h; cases h
  | succ len ih =>
    intro hlen h
    rw [lookUp] at h
    cases hget : times.get (join ((Java.split '/' path).take (len + 1))) with
    | some found =>
      rw [hget, Option.some_or] at h
      obtain rfl := Option.some.inj h
      obtain ⟨hrule, hsegments⟩ := (get_taken hlen).mp hget
      have hfits : len + 1 ≤ (segments path).length := by
        have hle := (split_starts path).length_le
        rw [List.length_map] at hle
        omega
      have hlength : (segments found.1).length = len + 1 := by
        rw [hsegments, List.length_take_of_le hfits]
      refine ⟨hrule, ?_, Nat.le_of_eq hlength, fun r _ _ hr => hlength ▸ hr⟩
      rw [IsSegmentPrefix, hsegments]
      exact List.take_prefix _ _
    | none =>
      rw [hget, Option.none_or] at h
      obtain ⟨hrule, hprefix, hle, hlongest⟩ := ih (Nat.le_of_succ_le hlen) h
      refine ⟨hrule, hprefix, Nat.le_succ_of_le hle, fun r hr hrprefix hrle => ?_⟩
      refine hlongest r hr hrprefix (Nat.le_of_lt_succ (Nat.lt_of_le_of_ne hrle fun heq => ?_))
      have hsome := (get_taken hlen).mpr ⟨hr, eq_take hrprefix heq⟩
      rw [hget] at hsome
      cases hsome

/-- Of two prefixes of a path, the one with more segments is the longer one. -/
theorem length_le_iff {key' : String} (h : IsSegmentPrefix key path)
    (h' : IsSegmentPrefix key' path) :
    key.length ≤ key'.length ↔ (segments key).length ≤ (segments key').length := by
  rcases Nat.lt_or_ge (segments key').length (segments key).length with hlt | hle
  · have hprefix := List.prefix_of_prefix_length_le h' h (Nat.le_of_lt hlt)
    have hlength := length_lt_of_starts hprefix hlt
    omega
  · refine iff_of_true ?_ hle
    rcases Nat.lt_or_ge (segments key).length (segments key').length with hlt | hge
    · exact Nat.le_of_lt (length_lt_of_starts (List.prefix_of_prefix_length_le h h' hle) hlt)
    · have hsame := (List.prefix_of_prefix_length_le h h' hle).eq_of_length
        (Nat.le_antisymm hle hge)
      rw [segments_injective hsame]

theorem ruleFor_iff : IsRuleFor times.values path (ruleFor times path) ↔
    WithinSplit times.values path := by
  unfold ruleFor
  dsimp only
  cases hrule : lookUp times (Java.split '/' path) (Java.split '/' path).length with
  | none =>
    have hnone := (lookUp_eq_none Nat.le.refl).mp hrule
    constructor
    · intro h rule hmem hprefix
      exact absurd hprefix (h rule hmem)
    · intro h rule hmem hprefix
      exact Nat.lt_irrefl _ (Nat.lt_of_lt_of_le (hnone rule hmem hprefix) (h rule hmem hprefix))
  | some rule =>
    obtain ⟨hmem, hprefix, hle, hlongest⟩ := lookUp_eq_some Nat.le.refl hrule
    constructor
    · intro h r hr hrprefix
      exact Nat.le_trans ((length_le_iff hrprefix hprefix).mp (h.longest r hr hrprefix)) hle
    · intro h
      refine ⟨hmem, hprefix, fun r hr hrprefix => ?_⟩
      exact (length_le_iff hrprefix hprefix).mpr (hlongest r hr hrprefix (h r hr hrprefix))

/-! ## Reading it -/

/-- What a rule says, and the default where it says nothing. -/
def ttlsOf (defaultValue : Option Int) (rule : Option (String × String)) : Option Int × Option Int :=
  match rule.bind fun rule => expiryGroups rule.2 with
  | none => (defaultValue, defaultValue)
  | some (ttl, clientTtl) =>
    (some (number ttl), some (if clientTtl = [] then number ttl else number clientTtl))

/-- A rule that is read has numbers of 32 bits. Where none is, there is a default, which is not
negative. -/
def Fits (defaultValue : Option Int) (rule : Option (String × String)) : Prop :=
  match rule.bind fun rule => expiryGroups rule.2 with
  | none => ∃ n, defaultValue = some n ∧ 0 ≤ n
  | some (ttl, clientTtl) => number ttl ≤ Java.maxInt ∧ number clientTtl ≤ Java.maxInt

variable {lib : ExpiryLibrary} {expireByCreation : Bool} {defaultValue : Option Int}
  {found : Option (String × String)} {expiry : Expiry}

/-- The policy goes by the number of seconds in the cache. -/
def policyFor (expireByCreation : Bool) (ttl : Int) : ExpiryPolicy :=
  if expireByCreation then .created ttl else .accessed ttl

theorem newExpiry_eq_ok {ttl clientTtl : Int} :
    newExpiry lib expireByCreation (some ttl) (some clientTtl) = .ok expiry ↔
      0 ≤ ttl ∧ (some expiry.ttl, some expiry.clientTtl) = (some ttl, some clientTtl) ∧
        expiry.policy = policyFor expireByCreation expiry.ttl := by
  unfold newExpiry
  dsimp only
  split
  · rename_i hduration
    rw [and_iff_right ((lib.isDuration_iff ttl).mp hduration)]
    constructor
    · rintro ⟨⟩
      exact ⟨rfl, rfl⟩
    · rintro ⟨hsame, hpolicy⟩
      obtain ⟨ttl', clientTtl', policy'⟩ := expiry
      obtain ⟨rfl, rfl⟩ : ttl' = ttl ∧ clientTtl' = clientTtl := by simpa using hsame
      obtain rfl : policy' = policyFor expireByCreation ttl' := hpolicy
      rfl
  · rename_i hduration
    exact iff_of_false (by rintro ⟨⟩) fun h => hduration ((lib.isDuration_iff ttl).mpr h.1)

theorem number_nonneg (digits : List Char) : 0 ≤ number digits := Int.natCast_nonneg _

theorem valueOf_fits {digits : List Char} (h : number digits ≤ Java.maxInt) :
    valueOf digits = .ok (number digits) := if_pos h

theorem valueOf_overflow {digits : List Char} (h : ¬ number digits ≤ Java.maxInt) :
    valueOf digits = .error .numberFormat := if_neg h

/-- A rule is read without an exception if and only if its numbers fit, and gives what it says. -/
theorem expiryFor_eq_ok : expiryFor lib expireByCreation defaultValue found = .ok expiry ↔
    Fits defaultValue found ∧ (some expiry.ttl, some expiry.clientTtl) = ttlsOf defaultValue found ∧
      expiry.policy = policyFor expireByCreation expiry.ttl := by
  unfold expiryFor Fits ttlsOf
  cases found.bind fun rule => expiryGroups rule.2 with
  | none =>
    cases defaultValue with
    | none => simp [newExpiry]
    | some n =>
      dsimp only
      rw [newExpiry_eq_ok]
      simp
  | some groups =>
    obtain ⟨ttl, clientTtl⟩ := groups
    dsimp only
    by_cases httl : number ttl ≤ Java.maxInt
    · rw [valueOf_fits httl, and_iff_right httl]
      by_cases hclient : clientTtl = []
      · have hempty : number [] ≤ Java.maxInt := by decide
        simp only [bind, Except.bind, if_pos hclient]
        rw [hclient, and_iff_right hempty]
        exact newExpiry_eq_ok.trans (and_iff_right (number_nonneg ttl))
      · simp only [bind, Except.bind, if_neg hclient]
        by_cases hfits : number clientTtl ≤ Java.maxInt
        · rw [valueOf_fits hfits, and_iff_right hfits]
          exact newExpiry_eq_ok.trans (and_iff_right (number_nonneg ttl))
        · rw [valueOf_overflow hfits]
          exact iff_of_false (by rintro ⟨⟩) fun h => hfits h.1
    · rw [valueOf_overflow httl]
      exact iff_of_false (by rintro ⟨⟩) fun h => httl h.1.1

theorem exists_expiryFor (lib : ExpiryLibrary) :
    (∃ expiry, expiryFor lib expireByCreation defaultValue found = .ok expiry) ↔
      Fits defaultValue found := by
  simp only [expiryFor_eq_ok]
  constructor
  · rintro ⟨_, h, -⟩
    exact h
  · intro h
    have hsays : ∃ ttl clientTtl, ttlsOf defaultValue found = (some ttl, some clientTtl) := by
      unfold Fits at h
      unfold ttlsOf
      split at h
      · obtain ⟨n, hn, -⟩ := h
        exact ⟨n, n, by rw [hn]⟩
      · exact ⟨_, _, rfl⟩
    obtain ⟨ttl, clientTtl, hsays⟩ := hsays
    exact ⟨⟨ttl, clientTtl, policyFor expireByCreation ttl⟩, h, hsays.symm, rfl⟩

/-! ## Both together -/

/-- The first rule that matches. Up to it, no pattern is rejected. -/
inductive FirstMatch (lib : ExpiryLibrary) (path : String) :
    List (String × String) → Option (String × String) → Prop where
  | nil : FirstMatch lib path [] none
  | here {rule : String × String} {rules : List (String × String)} :
      lib.pathMatches rule.1 path = .ok true → FirstMatch lib path (rule :: rules) (some rule)
  | later {rule : String × String} {rules : List (String × String)}
      {found : Option (String × String)} : lib.pathMatches rule.1 path = .ok false →
      FirstMatch lib path rules found → FirstMatch lib path (rule :: rules) found

theorem antRule_eq_ok : ∀ {rules : List (String × String)},
    antRule lib path rules = .ok found ↔ FirstMatch lib path rules found := by
  intro rules
  constructor
  · intro h
    induction rules with
    | nil => cases h; exact .nil
    | cons rule rules ih =>
      rw [antRule] at h
      cases hmatch : lib.pathMatches rule.1 path with
      | error f => rw [hmatch] at h; cases h
      | ok matched =>
        rw [hmatch] at h
        cases matched with
        | true => cases h; exact .here hmatch
        | false => exact .later hmatch (ih h)
  · intro h
    induction h with
    | nil => rfl
    | here hmatch => rw [antRule, hmatch]
    | later hmatch _ ih => rw [antRule, hmatch]; exact ih

def rulesOf (cachingTimes : Option CachingTimes) : List (String × String) :=
  match cachingTimes with
  | none => []
  | some cachingTimes => cachingTimes.values

/-- Where the loop stops. -/
def taken (cachingTimes : Option CachingTimes) (servletPath : String) :
    Option (String × String) :=
  match cachingTimes with
  | none => none
  | some cachingTimes => ruleFor cachingTimes servletPath

theorem taken_iff {times : Option CachingTimes} :
    IsRuleFor (rulesOf times) path (taken times path) ↔ WithinSplit (rulesOf times) path := by
  cases times with
  | none =>
    have hnone : IsRuleFor [] path none := fun rule hrule => absurd hrule List.not_mem_nil
    have hwithin : WithinSplit [] path := fun rule hrule => absurd hrule List.not_mem_nil
    exact iff_of_true hnone hwithin
  | some times => exact ruleFor_iff

/-- There is one rule that it should be. -/
theorem IsRuleFor.unique {rules : List (String × String)} {found found' : Option (String × String)}
    (hkeys : (rules.map Prod.fst).Nodup) (h : IsRuleFor rules path found)
    (h' : IsRuleFor rules path found') : found = found' := by
  match found, found' with
  | none, none => rfl
  | none, some rule => exact absurd h'.isPrefix (h rule h'.mem)
  | some rule, none => exact absurd h.isPrefix (h' rule h.mem)
  | some rule, some rule' =>
    have hle := (length_le_iff h.isPrefix h'.isPrefix).mp (h'.longest rule h.mem h.isPrefix)
    have hge := (length_le_iff h'.isPrefix h.isPrefix).mp (h.longest rule' h'.mem h'.isPrefix)
    have hsame := (List.prefix_of_prefix_length_le h.isPrefix h'.isPrefix hle).eq_of_length
      (Nat.le_antisymm hle hge)
    have hrule := List.inj_on_of_nodup_map hkeys h.mem h'.mem (segments_injective hsame)
    rw [hrule]

theorem nodup_rulesOf (times : Option CachingTimes) : ((rulesOf times).map Prod.fst).Nodup := by
  cases times with
  | none => exact List.nodup_nil
  | some times => exact times.nodup

/-- The expiry of a request is that of the rule with the longest path. -/
structure ExpiryRight (lib : ExpiryLibrary) (times : Option CachingTimes) (expireByCreation : Bool)
    (defaultValue : Option Int) (path : String) : Prop where
  rule : IsRuleFor (rulesOf times) path (taken times path)
  expiry : ∃ expiry, getExpiry lib times false expireByCreation defaultValue path = .ok expiry ∧
    (some expiry.ttl, some expiry.clientTtl) = ttlsOf defaultValue (taken times path)

theorem getExpiry_segments {times : Option CachingTimes} :
    getExpiry lib times false expireByCreation defaultValue path =
      expiryFor lib expireByCreation defaultValue (taken times path) := by
  cases times <;> rfl

theorem getExpiry_ant {times : Option CachingTimes} :
    getExpiry lib times true expireByCreation defaultValue path = .ok expiry ↔
      ∃ found, FirstMatch lib path (rulesOf times) found ∧
        expiryFor lib expireByCreation defaultValue found = .ok expiry := by
  cases times with
  | none =>
    constructor
    · intro h
      exact ⟨none, .nil, h⟩
    · rintro ⟨found, hfound, h⟩
      cases hfound
      exact h
  | some times =>
    simp only [← antRule_eq_ok]
    unfold getExpiry rulesOf
    simp only [if_true]
    cases antRule lib path times.values with
    | error f => exact iff_of_false (by rintro ⟨⟩) fun ⟨_, hfound, _⟩ => by cases hfound
    | ok found => simp [bind, Except.bind]

theorem getExpiry_right_iff (lib : ExpiryLibrary) (times : Option CachingTimes)
    (expireByCreation : Bool) (defaultValue : Option Int) (path : String) :
    (ExpiryRight lib times expireByCreation defaultValue path ↔
      WithinSplit (rulesOf times) path ∧
        ∀ found, IsRuleFor (rulesOf times) path found → Fits defaultValue found) ∧
    ((∃ expiry, getExpiry lib times true expireByCreation defaultValue path = .ok expiry) ↔
      ∃ found, FirstMatch lib path (rulesOf times) found ∧ Fits defaultValue found) := by
  constructor
  · constructor
    · rintro ⟨hrule, expiry, hget, -⟩
      refine ⟨taken_iff.mp hrule, fun found hfound => ?_⟩
      rw [hfound.unique (nodup_rulesOf times) hrule]
      rw [getExpiry_segments, expiryFor_eq_ok] at hget
      exact hget.1
    · rintro ⟨hwithin, hfits⟩
      have hrule := taken_iff.mpr hwithin
      obtain ⟨expiry, hexpiry⟩ := (exists_expiryFor lib).mpr (hfits _ hrule)
      refine ⟨hrule, expiry, ?_, (expiryFor_eq_ok.mp hexpiry).2.1⟩
      rw [getExpiry_segments]
      exact hexpiry
  · simp only [getExpiry_ant]
    constructor
    · rintro ⟨expiry, found, hfound, h⟩
      exact ⟨found, hfound, (expiryFor_eq_ok.mp h).1⟩
    · rintro ⟨found, hfound, hfits⟩
      obtain ⟨expiry, hexpiry⟩ := (exists_expiryFor lib).mpr hfits
      exact ⟨expiry, found, hfound, hexpiry⟩

/-- A library whose patterns match what equals them. -/
def literalPatterns : ExpiryLibrary where
  pathMatches pattern path := .ok (pattern == path)
  isDuration n := 0 ≤ n
  isDuration_iff _ := decide_eq_true_iff

/-- The root of a site has a rule of its own that nobody looks up, and a number may be too large. -/
theorem root_rule_ignored :
    IsSegmentPrefix "" "/" ∧
      getExpiry literalPatterns (some ⟨[("", "60")], by decide⟩) false false (some 1800) "/" =
        .ok ⟨1800, 1800, .accessed 1800⟩ ∧
      getExpiry literalPatterns (some ⟨[("/foo", "3000000000")], by decide⟩) false false (some 1800)
        "/foo/bar" = .error .numberFormat := by
  refine ⟨by decide +kernel, by decide +kernel, by decide +kernel⟩

end Cache
end AppNG
