import AppNG.Login.PasswordPolicy
import Mathlib.Data.List.Nodup
import Mathlib.Data.List.Pairwise

/-!
# Login.PasswordNumbers

How many classes of characters reach their minimum in a generated password, where the classes have no characters
in common.

Then a character counts for one class at most, and what is drawn is told by numbers: those of each class, and how
the rest is shared out.

* `reaches_iff_shares`: the kinds that are drawn, as a way of sharing out the rest.
* `reaches_iff`: enough classes reach their minimum from what is generated for them, or one is enough, and the
  password is too long for all of them to stay below it.
* `generated_valid_iff`: the configurations whose generated passwords are valid, for separate classes by numbers.
-/

namespace AppNG
namespace Login
namespace PasswordPolicy

open Drawing

/-! ## Counting -/

section Counting

variable {α : Type} [DecidableEq α]

/-- Each element is counted once. -/
theorem sumBy_countP {as : List α} (has : as.Nodup) : ∀ kinds : List (List α), (∀ k ∈ kinds, ∃ a ∈ as, k = [a]) →
    sumBy (fun a => kinds.countP fun k => decide (a ∈ k)) as = kinds.length := by
  have hone : ∀ {as : List α} {b : α}, as.Nodup → b ∈ as → sumBy (fun a => if a ∈ [b] then 1 else 0) as = 1 := by
    intro as b has hb
    induction as with
    | nil => cases hb
    | cons a as ih =>
      obtain ⟨hnot, has⟩ := List.nodup_cons.mp has
      rw [sumBy_cons]
      by_cases hab : a = b
      · subst hab
        have hzero : sumBy (fun c => if c ∈ [a] then 1 else 0) as = 0 := by
          refine sumBy_eq_zero fun c hc => if_neg ?_
          rw [List.mem_singleton]
          rintro rfl
          exact hnot hc
        rw [if_pos (List.mem_singleton_self a), hzero]
      · have hrest := ih has ((List.mem_cons.mp hb).resolve_left fun heq => hab heq.symm)
        rw [if_neg (by simpa using hab), hrest]
  intro kinds
  induction kinds with
  | nil => exact fun _ => sumBy_eq_zero fun _ _ => rfl
  | cons k kinds ih =>
    intro h
    obtain ⟨b, hb, rfl⟩ := h k List.mem_cons_self
    have hkinds := ih fun k' hk' => h k' (List.mem_cons_of_mem _ hk')
    have hsplit : sumBy (fun a => ([b] :: kinds).countP fun k => decide (a ∈ k)) as =
        sumBy (fun a => (kinds.countP fun k => decide (a ∈ k)) + if a ∈ [b] then 1 else 0) as := by
      refine congrArg (sumBy · as) (funext fun a => ?_)
      rw [List.countP_cons]
      simp
    rw [hsplit, sumBy_add, hkinds, hone has hb, List.length_cons]

theorem countP_flatMap_replicate (f : α → Nat) {as : List α} (has : as.Nodup) (b : α) :
    (as.flatMap fun a => List.replicate (f a) [a]).countP (fun k => decide (b ∈ k)) ≤ f b := by
  induction as with
  | nil => simp
  | cons a as ih =>
    obtain ⟨hnot, has⟩ := List.nodup_cons.mp has
    rw [List.flatMap_cons, List.countP_append, List.countP_replicate]
    by_cases hab : b = a
    · subst hab
      have hzero : (as.flatMap fun a => List.replicate (f a) [a]).countP (fun k => decide (b ∈ k)) = 0 := by
        refine List.countP_eq_zero.mpr fun k hk => ?_
        obtain ⟨a, ha, hk⟩ := List.mem_flatMap.mp hk
        rw [List.eq_of_mem_replicate hk]
        simp only [List.mem_singleton, decide_eq_true_eq]
        rintro rfl
        exact hnot ha
      rw [hzero]
      simp
    · have hrest := ih has
      simpa [hab] using hrest

omit [DecidableEq α] in
theorem length_flatMap_replicate (f : α → Nat) (as : List α) :
    (as.flatMap fun a => List.replicate (f a) [a]).length = sumBy f as := by
  induction as with
  | nil => rfl
  | cons a as ih => rw [List.flatMap_cons, List.length_append, List.length_replicate, ih, sumBy_cons]

end Counting

/-! ## Shares -/

/-- What is generated of a class for itself. -/
def number (policy : Policy) (rule : CharacterRule) : Nat :=
  (min policy.generateLength rule.numberOfCharacters).toNat

def rest (policy : Policy) : Nat := policy.generateLength.toNat - total (ruleSources policy)

/-- The rule that counts the characters of a class, if there is one. -/
def counting (policy : Policy) (characters : Characters) : List CharacterRule :=
  policy.characteristicsRules.filter fun rule => decide (rule.validCharacters = characters)

/-- The classes have no characters in common. -/
structure Separate (policy : Policy) : Prop where
  nonempty : ∀ rule ∈ policy.generationRules, rule.validCharacters ≠ []
  same : ∀ rule ∈ policy.characteristicsRules, ∀ generated ∈ policy.generationRules,
    ∀ c ∈ generated.validCharacters, c ∈ rule.validCharacters → rule.validCharacters = generated.validCharacters
  distinct : policy.characteristicsRules.Pairwise fun rule rule' => rule.validCharacters ≠ rule'.validCharacters

def drawnFor (policy : Policy) (rule : CharacterRule) : Nat :=
  sumBy (fun generated => if generated.validCharacters = rule.validCharacters then number policy generated else 0)
    policy.generationRules

/-- What is generated for the classes themselves. -/
def own (policy : Policy) : List (List (List CharacterRule)) :=
  policy.generationRules.map fun rule =>
    List.replicate (number policy rule) (counting policy rule.validCharacters)

def isGenerated (policy : Policy) (rule : CharacterRule) : Bool :=
  policy.generationRules.any fun generated => decide (generated.validCharacters = rule.validCharacters)

def Shares (policy : Policy) (shares : List (List CharacterRule)) : Prop :=
  shares.length = rest policy ∧
    ∀ k ∈ shares, ∃ rule ∈ policy.generationRules, k = counting policy rule.validCharacters

/-- Enough classes have their minimum from what is generated for them; or one class is enough, all that are
generated have a minimum, and the password is too long for all of them to stay below it. -/
def ReachesByNumbers (policy : Policy) : Prop :=
  policy.minCharacteristics ≤ (policy.characteristicsRules.countP fun rule =>
    decide (rule.numberOfCharacters ≤ drawnFor policy rule)) ∨
  policy.minCharacteristics ≤ 1 ∧
    (∀ generated ∈ policy.generationRules, ∃ rule ∈ policy.characteristicsRules,
      rule.validCharacters = generated.validCharacters) ∧
    sumBy (fun rule => (rule.numberOfCharacters - 1).toNat)
      (policy.characteristicsRules.filter (isGenerated policy)) < policy.generateLength.toNat

theorem mem_counting {policy : Policy} {characters : Characters} {rule : CharacterRule} :
    rule ∈ counting policy characters ↔
      rule ∈ policy.characteristicsRules ∧ rule.validCharacters = characters := by
  simp [counting]

section Separate

variable {policy : Policy} (hseparate : Separate policy)
include hseparate

theorem kind_eq {rule : CharacterRule} (hrule : rule ∈ policy.generationRules) {c : Nat}
    (hc : c ∈ rule.validCharacters) : kind policy c = counting policy rule.validCharacters := by
  refine List.filter_congr fun rule' hrule' => ?_
  rw [decide_eq_decide]
  constructor
  · exact hseparate.same rule' hrule' rule hrule c hc
  · intro heq
    rwa [heq]

theorem map_kind {rule : CharacterRule} (hrule : rule ∈ policy.generationRules) {k : List CharacterRule} :
    k ∈ rule.validCharacters.map (kind policy) ↔ k = counting policy rule.validCharacters := by
  constructor
  · intro hk
    obtain ⟨c, hc, rfl⟩ := List.mem_map.mp hk
    exact kind_eq hseparate hrule hc
  · rintro rfl
    obtain ⟨c, hc⟩ := List.exists_mem_of_ne_nil _ (hseparate.nonempty rule hrule)
    rw [← kind_eq hseparate hrule hc]
    exact List.mem_map_of_mem hc

theorem nodup_rules : policy.characteristicsRules.Nodup :=
  hseparate.distinct.imp fun hne heq => hne (congrArg CharacterRule.validCharacters heq)

theorem counting_eq {rule : CharacterRule} (hrule : rule ∈ policy.characteristicsRules) :
    counting policy rule.validCharacters = [rule] := by
  have hall : ∀ rule' ∈ counting policy rule.validCharacters, rule' = rule := by
    intro rule' hrule'
    obtain ⟨hmem, heq⟩ := mem_counting.mp hrule'
    by_contra hne
    have hsymm : Std.Symm fun rule rule' : CharacterRule => rule.validCharacters ≠ rule'.validCharacters :=
      ⟨fun _ _ hne => hne.symm⟩
    exact hseparate.distinct.forall hmem hrule hne heq
  have hnodup : (counting policy rule.validCharacters).Nodup := (nodup_rules hseparate).filter _
  have hmem : rule ∈ counting policy rule.validCharacters := mem_counting.mpr ⟨hrule, rfl⟩
  cases hcounting : counting policy rule.validCharacters with
  | nil =>
    rw [hcounting] at hmem
    cases hmem
  | cons first others =>
    rw [hcounting] at hall hnodup
    obtain rfl := hall first List.mem_cons_self
    cases others with
    | nil => rfl
    | cons second others =>
      obtain rfl := hall second (by simp)
      simp at hnodup

theorem drawn_own {rules : List CharacterRule} (hrules : ∀ rule ∈ rules, rule ∈ policy.generationRules)
    (kinds : List (List (List CharacterRule))) :
    Drawn (mapped (kind policy) (rules.map fun rule => (rule.validCharacters, number policy rule))) kinds ↔
      kinds = rules.map fun rule => List.replicate (number policy rule) (counting policy rule.validCharacters) := by
  induction rules generalizing kinds with
  | nil =>
    constructor
    · intro h
      cases h
      rfl
    · rintro rfl
      exact .nil
  | cons rule rules ih =>
    have hrest := ih fun r hr => hrules r (List.mem_cons_of_mem _ hr)
    have hkind := fun k => map_kind hseparate (hrules rule List.mem_cons_self) (k := k)
    constructor
    · intro h
      cases h with
      | @cons _ draw _ kinds hdraw hdraws =>
        obtain ⟨hlen, hall⟩ := hdraw
        rw [(hrest kinds).mp hdraws, List.map_cons, List.cons.injEq, List.eq_replicate_iff]
        exact ⟨⟨hlen, fun k hk => (hkind k).mp (hall k hk)⟩, rfl⟩
    · rintro rfl
      refine .cons ⟨List.length_replicate, fun k hk => (hkind k).mpr (List.eq_of_mem_replicate hk)⟩ ?_
      exact (hrest _).mpr rfl

omit hseparate in
theorem countP_own {rules : List CharacterRule} {rule : CharacterRule} (hrule : rule ∈ policy.characteristicsRules) :
    (rules.map fun rule => List.replicate (number policy rule)
        (counting policy rule.validCharacters)).flatten.countP (fun k => decide (rule ∈ k)) =
      sumBy (fun generated =>
        if generated.validCharacters = rule.validCharacters then number policy generated else 0) rules := by
  induction rules with
  | nil => rfl
  | cons generated rules ih =>
    rw [List.map_cons, List.flatten_cons, List.countP_append, ih, sumBy_cons, List.countP_replicate]
    simp [mem_counting, hrule, eq_comm]

theorem reaches_iff_shares : Reaches policy ↔ ∀ shares, Shares policy shares →
    policy.minCharacteristics ≤ policy.characteristicsRules.countP fun rule =>
      decide (rule.numberOfCharacters ≤
        drawnFor policy rule + shares.countP fun k => decide (rule ∈ k)) := by
  have hcount : ∀ shares : List (List CharacterRule),
      (policy.characteristicsRules.countP fun rule => decide (rule.numberOfCharacters ≤
        (own policy ++ [shares]).flatten.countP fun k => decide (rule ∈ k))) =
      policy.characteristicsRules.countP fun rule => decide (rule.numberOfCharacters ≤
        drawnFor policy rule + shares.countP fun k => decide (rule ∈ k)) := by
    intro shares
    refine List.countP_congr fun rule hrule => ?_
    rw [List.flatten_append, List.flatten_singleton, List.countP_append, own, countP_own hrule]
    rfl
  have hrest : ∀ k : List CharacterRule,
      k ∈ (policy.generationRules.flatMap CharacterRule.validCharacters).map (kind policy) ↔
        ∃ rule ∈ policy.generationRules, k = counting policy rule.validCharacters := by
    intro k
    constructor
    · intro hk
      obtain ⟨c, hc, rfl⟩ := List.mem_map.mp hk
      obtain ⟨rule, hrule, hc⟩ := List.mem_flatMap.mp hc
      exact ⟨rule, hrule, kind_eq hseparate hrule hc⟩
    · rintro ⟨rule, hrule, rfl⟩
      obtain ⟨c, hc, hk⟩ := List.mem_map.mp ((map_kind hseparate hrule).mpr rfl)
      exact List.mem_map.mpr ⟨c, List.mem_flatMap.mpr ⟨rule, hrule, hc⟩, hk⟩
  have hshares : ∀ kinds, Drawn (mapped (kind policy) (sources policy)) kinds ↔
      ∃ shares, kinds = own policy ++ [shares] ∧ Shares policy shares := by
    intro kinds
    rw [sources, mapped, List.map_append, List.map_singleton, drawn_append_singleton]
    constructor
    · rintro ⟨before, shares, rfl, hbefore, hlen, hall⟩
      rw [((drawn_own hseparate fun _ hrule => hrule) _).mp hbefore]
      exact ⟨shares, rfl, hlen, fun k hk => (hrest k).mp (hall k hk)⟩
    · rintro ⟨shares, rfl, hlen, hall⟩
      exact ⟨own policy, shares, rfl, ((drawn_own hseparate fun _ hrule => hrule) _).mpr rfl, hlen,
        fun k hk => (hrest k).mpr (hall k hk)⟩
  constructor
  · intro h shares hmem
    rw [← hcount]
    exact h _ ((hshares _).mpr ⟨shares, rfl, hmem⟩)
  · intro h kinds hkinds
    obtain ⟨shares, rfl, hmem⟩ := (hshares kinds).mp hkinds
    rw [hcount]
    exact h shares hmem

/-! ## Enough classes -/

omit hseparate in
theorem length_own : (own policy).flatten.length = total (ruleSources policy) := by
  rw [own, ruleSources]
  induction policy.generationRules with
  | nil => rfl
  | cons rule rules ih =>
    rw [List.map_cons, List.flatten_cons, List.length_append, List.length_replicate, ih]
    rfl

omit hseparate in
theorem drawnFor_eq_zero {rule : CharacterRule} (h : isGenerated policy rule = false) : drawnFor policy rule = 0 := by
  refine sumBy_eq_zero fun generated hmem => if_neg fun heq => ?_
  rw [isGenerated, List.any_eq_false] at h
  exact h generated hmem (decide_eq_true heq)

theorem counting_generated (hcounted : ∀ generated ∈ policy.generationRules, ∃ rule ∈ policy.characteristicsRules,
    rule.validCharacters = generated.validCharacters) {k : List CharacterRule}
    (hk : ∃ generated ∈ policy.generationRules, k = counting policy generated.validCharacters) :
    ∃ rule ∈ policy.characteristicsRules.filter (isGenerated policy), k = [rule] := by
  obtain ⟨generated, hmem, rfl⟩ := hk
  obtain ⟨rule, hrule, heq⟩ := hcounted generated hmem
  refine ⟨rule, List.mem_filter.mpr ⟨hrule, ?_⟩, ?_⟩
  · exact List.any_eq_true.mpr ⟨generated, hmem, decide_eq_true heq.symm⟩
  · rw [← heq]
    exact counting_eq hseparate hrule

omit hseparate in
theorem mem_own {k : List CharacterRule} (hk : k ∈ (own policy).flatten) :
    ∃ generated ∈ policy.generationRules, k = counting policy generated.validCharacters := by
  obtain ⟨draw, hdraw, hk⟩ := List.mem_flatten.mp hk
  obtain ⟨generated, hmem, rfl⟩ := List.mem_map.mp hdraw
  exact ⟨generated, hmem, List.eq_of_mem_replicate hk⟩

/-- If every class that is generated is counted, the counts add up. -/
theorem sumBy_drawn (hcounted : ∀ generated ∈ policy.generationRules, ∃ rule ∈ policy.characteristicsRules,
    rule.validCharacters = generated.validCharacters) (shares : List (List CharacterRule))
    (hshares : ∀ k ∈ shares, ∃ generated ∈ policy.generationRules, k = counting policy generated.validCharacters) :
    sumBy (fun rule => drawnFor policy rule + shares.countP fun k => decide (rule ∈ k))
      (policy.characteristicsRules.filter (isGenerated policy)) = total (ruleSources policy) + shares.length := by
  have hsum := sumBy_countP ((nodup_rules hseparate).filter (isGenerated policy))
    ((own policy).flatten ++ shares) fun k hk => counting_generated hseparate hcounted <|
      (List.mem_append.mp hk).elim mem_own (hshares k)
  rw [List.length_append, length_own] at hsum
  rw [← hsum]
  refine sumBy_congr fun rule hrule => ?_
  rw [List.countP_append, own, countP_own (List.mem_filter.mp hrule).1]
  rfl

omit hseparate in
/-- The rest may come out as characters of one class. -/
theorem shares_replicate {generated : CharacterRule} (hmem : generated ∈ policy.generationRules) :
    Shares policy (List.replicate (rest policy) (counting policy generated.validCharacters)) :=
  ⟨List.length_replicate, fun _ hk => ⟨generated, hmem, List.eq_of_mem_replicate hk⟩⟩

omit hseparate in
/-- If no class is reached but by what is generated for it, none of the generated ones is. -/
theorem lacking {n : Int} (h : ∀ shares, Shares policy shares →
    n ≤ policy.characteristicsRules.countP fun rule =>
      decide (rule.numberOfCharacters ≤ drawnFor policy rule + shares.countP fun k => decide (rule ∈ k)))
    (hown : ¬ n ≤ policy.characteristicsRules.countP fun rule =>
      decide (rule.numberOfCharacters ≤ drawnFor policy rule))
    {generated : CharacterRule} (hmem : generated ∈ policy.generationRules) :
    ∃ rule ∈ policy.characteristicsRules, rule.validCharacters = generated.validCharacters ∧
      drawnFor policy rule < rule.numberOfCharacters := by
  by_contra hlack
  refine hown (Int.le_trans (h _ (shares_replicate hmem))
    (Int.ofNat_le.mpr (List.countP_mono_left fun rule hrule hreached => ?_)))
  rw [decide_eq_true_eq] at hreached ⊢
  by_contra hlt
  rw [List.countP_replicate] at hreached
  split at hreached
  · rename_i hmem
    rw [decide_eq_true_eq, mem_counting] at hmem
    exact hlack ⟨rule, hrule, hmem.2, by omega⟩
  · omega

/-- If the classes together have room for the rest, all of them may stay below their minimum. -/
theorem exists_shares_below (hcounted : ∀ generated ∈ policy.generationRules, ∃ rule ∈ policy.characteristicsRules,
    rule.validCharacters = generated.validCharacters)
    (hbelow : ∀ rule ∈ policy.characteristicsRules, drawnFor policy rule < rule.numberOfCharacters)
    (hroom : total (ruleSources policy) + rest policy ≤ sumBy (fun rule => (rule.numberOfCharacters - 1).toNat)
      (policy.characteristicsRules.filter (isGenerated policy))) :
    ∃ shares, Shares policy shares ∧ ∀ rule ∈ policy.characteristicsRules,
      (drawnFor policy rule + shares.countP fun k => decide (rule ∈ k) : Int) < rule.numberOfCharacters := by
  let room (rule : CharacterRule) : Nat := (rule.numberOfCharacters - 1).toNat - drawnFor policy rule
  let rules := policy.characteristicsRules.filter (isGenerated policy)
  have hnodup : rules.Nodup := (nodup_rules hseparate).filter _
  refine ⟨(rules.flatMap fun rule => List.replicate (room rule) [rule]).take (rest policy), ⟨?_, fun k hk => ?_⟩,
    fun rule hrule => ?_⟩
  · have hown : sumBy (fun rule => drawnFor policy rule + 0) rules = total (ruleSources policy) + 0 :=
      sumBy_drawn hseparate hcounted [] nofun
    have hsplit : sumBy (fun rule => room rule + (drawnFor policy rule + 0)) rules =
        sumBy (fun rule => (rule.numberOfCharacters - 1).toNat) rules := by
      refine sumBy_congr fun rule hrule => ?_
      have hlt := hbelow rule (List.mem_filter.mp hrule).1
      show (rule.numberOfCharacters - 1).toNat - drawnFor policy rule + (drawnFor policy rule + 0) = _
      omega
    rw [sumBy_add, hown] at hsplit
    have hroom' : total (ruleSources policy) + rest policy ≤
        sumBy (fun rule => (rule.numberOfCharacters - 1).toNat) rules := hroom
    rw [List.length_take, length_flatMap_replicate]
    omega
  · obtain ⟨rule, hrule, hk⟩ := List.mem_flatMap.mp (List.mem_of_mem_take hk)
    obtain ⟨hmem, hgenerated⟩ := List.mem_filter.mp hrule
    obtain ⟨generated, hgen, heq⟩ := List.any_eq_true.mp hgenerated
    refine ⟨generated, hgen, ?_⟩
    rw [List.eq_of_mem_replicate hk, of_decide_eq_true heq, counting_eq hseparate hmem]
  · have hcount := (List.take_sublist (rest policy)
      (rules.flatMap fun rule => List.replicate (room rule) [rule])).countP_le (p := fun k => decide (rule ∈ k))
    have hroomOf := countP_flatMap_replicate room hnodup rule
    have hlt := hbelow rule hrule
    have hroomEq : room rule = (rule.numberOfCharacters - 1).toNat - drawnFor policy rule := rfl
    omega

omit hseparate in
theorem exists_generated (hpos : 0 < policy.generateLength) (hdrawable : Drawable (sources policy)) :
    ∃ generated, generated ∈ policy.generationRules := by
  refine List.exists_mem_of_ne_nil _ fun hnil => ?_
  have hrest := hdrawable ([], policy.generateLength.toNat) (by simp [sources, ruleSources, hnil, total]) rfl
  dsimp only at hrest
  omega

/-- If every generated class stays below its minimum, so does every class. -/
theorem below_of_lacking (hlacking : ∀ generated ∈ policy.generationRules, ∃ rule ∈ policy.characteristicsRules,
    rule.validCharacters = generated.validCharacters ∧ drawnFor policy rule < rule.numberOfCharacters)
    {rule : CharacterRule} (hrule : rule ∈ policy.characteristicsRules) :
    drawnFor policy rule < rule.numberOfCharacters := by
  cases hgenerated : isGenerated policy rule with
  | false =>
    rw [drawnFor_eq_zero hgenerated]
    exact rule.positive
  | true =>
    obtain ⟨generated, hmem, heq⟩ := List.any_eq_true.mp hgenerated
    obtain ⟨rule', hrule', heq', hlt⟩ := hlacking generated hmem
    have hcounting : rule' ∈ counting policy rule.validCharacters :=
      mem_counting.mpr ⟨hrule', heq'.trans (of_decide_eq_true heq)⟩
    rw [counting_eq hseparate hrule, List.mem_singleton] at hcounting
    rwa [hcounting] at hlt

/-- If all classes stay below their minimum, a rest of one class reaches no other one. -/
theorem le_one_of_below {n : Int} (h : ∀ shares, Shares policy shares →
    n ≤ policy.characteristicsRules.countP fun rule =>
      decide (rule.numberOfCharacters ≤ drawnFor policy rule + shares.countP fun k => decide (rule ∈ k)))
    (hbelow : ∀ rule ∈ policy.characteristicsRules, drawnFor policy rule < rule.numberOfCharacters)
    {generated rule₀ : CharacterRule} (hmem : generated ∈ policy.generationRules)
    (hrule₀ : rule₀ ∈ policy.characteristicsRules) (heq₀ : rule₀.validCharacters = generated.validCharacters) :
    n ≤ 1 := by
  have hcounting : policy.characteristicsRules.countP (fun rule =>
      decide (rule.validCharacters = rule₀.validCharacters)) = 1 := by
    rw [List.countP_eq_length_filter, ← counting, counting_eq hseparate hrule₀, List.length_singleton]
  have hcast : (1 : Int) = policy.characteristicsRules.countP fun rule =>
      decide (rule.validCharacters = rule₀.validCharacters) := by
    rw [hcounting]
    rfl
  rw [hcast]
  refine Int.le_trans (h _ (shares_replicate hmem))
    (Int.ofNat_le.mpr (List.countP_mono_left fun rule hrule hreached => ?_))
  have hlt := hbelow rule hrule
  rw [decide_eq_true_eq] at hreached ⊢
  rw [List.countP_replicate] at hreached
  split at hreached
  · rename_i hcounted
    rw [decide_eq_true_eq, mem_counting] at hcounted
    exact hcounted.2.trans heq₀.symm
  · omega

omit hseparate in
theorem countP_eq_zero_of_below {count : CharacterRule → Int}
    (hbelow : ∀ rule ∈ policy.characteristicsRules, count rule < rule.numberOfCharacters) :
    policy.characteristicsRules.countP (fun rule => decide (rule.numberOfCharacters ≤ count rule)) = 0 := by
  refine List.countP_eq_zero.mpr fun rule hrule => ?_
  have hlt := hbelow rule hrule
  rw [decide_eq_true_eq]
  omega

/-- If the classes together have no room for the rest, one of them is reached. -/
theorem reached_of_no_room (hcounted : ∀ generated ∈ policy.generationRules, ∃ rule ∈ policy.characteristicsRules,
    rule.validCharacters = generated.validCharacters)
    (hroom : sumBy (fun rule => (rule.numberOfCharacters - 1).toNat)
      (policy.characteristicsRules.filter (isGenerated policy)) < total (ruleSources policy) + rest policy)
    {shares : List (List CharacterRule)} (hshares : Shares policy shares) :
    policy.characteristicsRules.countP (fun rule => decide (rule.numberOfCharacters ≤
      drawnFor policy rule + shares.countP fun k => decide (rule ∈ k))) ≠ 0 := by
  intro hnone
  have hsum := sumBy_drawn hseparate hcounted shares hshares.2
  have hbelow : sumBy (fun rule => drawnFor policy rule + shares.countP fun k => decide (rule ∈ k))
      (policy.characteristicsRules.filter (isGenerated policy)) ≤
      sumBy (fun rule => (rule.numberOfCharacters - 1).toNat)
        (policy.characteristicsRules.filter (isGenerated policy)) := by
    refine sumBy_le fun rule hrule => ?_
    have hrule' := List.countP_eq_zero.mp hnone rule (List.mem_filter.mp hrule).1
    rw [decide_eq_true_eq] at hrule'
    omega
  rw [hsum, hshares.1] at hbelow
  omega

/-- With what is generated for the classes themselves, and the rest as it may come out. -/
theorem reaches_iff (hpossible : ¬ Impossible policy) : Reaches policy ↔ ReachesByNumbers policy := by
  simp only [Impossible, not_or, not_not, Int.not_le, Nat.not_lt] at hpossible
  obtain ⟨hpos, hle, hdrawable⟩ := hpossible
  have hlength : total (ruleSources policy) + rest policy = policy.generateLength.toNat := by
    rw [rest]
    omega
  rw [reaches_iff_shares hseparate, ReachesByNumbers]
  constructor
  · intro h
    by_contra hnot
    rw [not_or] at hnot
    obtain ⟨hown, hone⟩ := hnot
    have hlacking := fun generated (hmem : generated ∈ policy.generationRules) => lacking h hown hmem
    have hcounted : ∀ generated ∈ policy.generationRules, ∃ rule ∈ policy.characteristicsRules,
        rule.validCharacters = generated.validCharacters := by
      intro generated hmem
      obtain ⟨rule, hrule, heq, _⟩ := hlacking generated hmem
      exact ⟨rule, hrule, heq⟩
    have hbelow : ∀ rule ∈ policy.characteristicsRules, drawnFor policy rule < rule.numberOfCharacters :=
      fun _ hrule => below_of_lacking hseparate hlacking hrule
    rw [countP_eq_zero_of_below hbelow] at hown
    have hle_one : policy.minCharacteristics ≤ 1 := by
      obtain ⟨generated, hmem⟩ := exists_generated hpos hdrawable
      obtain ⟨rule₀, hrule₀, heq₀, _⟩ := hlacking generated hmem
      exact le_one_of_below hseparate h hbelow hmem hrule₀ heq₀
    obtain ⟨shares, hshares, hall⟩ := exists_shares_below hseparate hcounted hbelow
      (by rw [hlength]; exact Nat.le_of_not_lt fun hlt => hone ⟨hle_one, hcounted, hlt⟩)
    have hshared := h shares hshares
    rw [countP_eq_zero_of_below hall] at hshared
    exact hown hshared
  · rintro (hown | ⟨hone, hcounted, hlt⟩) shares hshares
    · refine Int.le_trans hown (Int.ofNat_le.mpr (List.countP_mono_left fun rule _ hrule => ?_))
      rw [decide_eq_true_eq] at hrule ⊢
      omega
    · have hreached := reached_of_no_room hseparate hcounted (hlength ▸ hlt) hshares
      omega

end Separate

/-! ## The configurations -/

/-- What is generated is valid if and only if the configuration is consistent, which is a matter of numbers where
the classes have no characters in common. -/
theorem generated_valid_iff (special : Characters) (config : Configuration) :
    ((∀ policy, configure special config = some policy →
      ∀ password, generatePassword policy password → validatePassword policy password = true) ↔
      Consistent special config) ∧
    ∀ policy, configure special config = some policy → Separate policy → ¬ Impossible policy →
      (Reaches policy ↔ ReachesByNumbers policy) := by
  refine ⟨valid_iff_consistent special config, ?_⟩
  intro policy _ hseparate hpossible
  exact reaches_iff hseparate hpossible

/-- The default classes have no characters in common. -/
example : ∃ policy, configure (Java.utf16 "!") {} = some policy ∧ Separate policy := by
  refine ⟨_, rfl, ⟨?_, ?_, ?_⟩⟩ <;> decide +kernel

/-- Upper case letters are not required, and so not allowed, but they are generated. -/
def noUppercase : Configuration := { minUppercase := 0 }

/-- A password with upper case letters is generated, and is not valid. -/
theorem uppercase_not_valid : ∃ policy, configure (Java.utf16 "!") noUppercase = some policy ∧
    generatePassword policy (Java.utf16 "abcABC1!") ∧ validatePassword policy (Java.utf16 "abcABC1!") = false := by
  refine ⟨_, rfl, ⟨by decide, by decide +kernel, [Java.utf16 "abc", Java.utf16 "ABC", Java.utf16 "1", Java.utf16 "!", []],
    ?_, ?_⟩, by decide +kernel⟩
  · refine .cons ?_ (.cons ?_ (.cons ?_ (.cons ?_ (.cons ?_ .nil)))) <;> decide +kernel
  · decide +kernel

end PasswordPolicy
end Login
end AppNG
