import AppNG.Lib.Drawing
import AppNG.Lib.JavaString
import AppNG.Lib.Utf16

/-!
# Login.PasswordPolicy

`ConfigurablePasswordPolicy`: what it takes for a valid password, and the passwords that it generates.

Both are configured on their own: classes of characters with a minimum, which are allowed as well, and classes
to generate from. A class without a minimum is not allowed, though it may be generated.

* `generates_iff`: the passwords that are generated are those drawn from the classes.
* `valid_iff_consistent`: the configurations whose generated passwords are valid.
* `uppercase_not_valid`: one whose are not.
-/

namespace AppNG
namespace Login
namespace PasswordPolicy

open Drawing

/-! ## The code -/

/-- UTF-16 code units. -/
abbrev Characters := List Nat

structure CharacterRule where
  validCharacters : Characters
  numberOfCharacters : Int
  positive : 0 < numberOfCharacters
  deriving DecidableEq

/-- There are at least so many of its characters. -/
def CharacterRule.validate (rule : CharacterRule) (password : Characters) : Bool :=
  rule.numberOfCharacters ≤ password.countP fun c => decide (c ∈ rule.validCharacters)

namespace EnglishCharacterData

def LowerCase : Characters := Java.utf16 "abcdefghijklmnopqrstuvwxyz"

def UpperCase : Characters := Java.utf16 "ABCDEFGHIJKLMNOPQRSTUVWXYZ"

def Digit : Characters := Java.utf16 "0123456789"

end EnglishCharacterData

def PUNCT : String := "!\"#$%&'()*+,-./:;<=>?@[\\]^_\u0060\x7b|\x7d~"

/-- The property `configurablePasswordPolicy`, with its defaults. -/
structure Configuration where
  minLowerCase : Int := 1
  minUppercase : Int := 1
  minDigits : Int := 1
  minSpecialChars : Int := 1
  allowedSpecialChars : String := PUNCT
  minLength : Int := 8
  maxLength : Int := 255
  numCharacterGroups : Int := 4
  allowWhiteSpace : Bool := false
  allowOtherCharacters : Bool := false
  generateLowerCase : Int := 3
  generateUppercase : Int := 3
  generateDigits : Int := 1
  generateSpecialChars : Int := 1
  generateLength : Int := 8

/-- The rules of the validator, those about the history and the user name aside, and of the generator. -/
structure Policy where
  minCharacteristics : Int
  characteristicsRules : List CharacterRule
  minLength : Int
  maxLength : Int
  allowWhiteSpace : Bool
  /-- None: all are. -/
  allowedCharacters : Option Characters
  generationRules : List CharacterRule
  generateLength : Int

def addRule (rules : List CharacterRule) (characterData : Characters) (min : Int) :
    List CharacterRule × Characters :=
  if h : 0 < min then (rules ++ [⟨characterData, min, h⟩], characterData) else (rules, [])

/-- `special` are the special characters of `EnglishCharacterData`. -/
def getSpecialChars (special : Characters) (allowedSpecialChars : String) : Characters :=
  if Java.isBlank (some allowedSpecialChars) then special else Java.utf16 allowedSpecialChars

/-- The rules for the four classes of characters, and the characters of those with a rule. -/
def addRules (special : Characters) (config : Configuration) (lowerCase upperCase digits specialChars : Int) :
    List CharacterRule × Characters :=
  let (rules, allowed) := addRule [] EnglishCharacterData.LowerCase lowerCase
  let (rules, more) := addRule rules EnglishCharacterData.UpperCase upperCase
  let allowed := allowed ++ more
  let (rules, more) := addRule rules EnglishCharacterData.Digit digits
  let allowed := allowed ++ more
  let (rules, more) := addRule rules (getSpecialChars special config.allowedSpecialChars) specialChars
  (rules, allowed ++ more)

/-- None: an `IllegalArgumentException`. -/
def configure (special : Characters) (config : Configuration) : Option Policy :=
  let (characteristicsRules, allowedCharacters) := addRules special config config.minLowerCase
    config.minUppercase config.minDigits config.minSpecialChars
  let effectiveNumRules := characteristicsRules.length
  let minCharacteristics : Int :=
    if config.numCharacterGroups > effectiveNumRules then effectiveNumRules else config.numCharacterGroups
  let (generationRules, _) := addRules special config config.generateLowerCase config.generateUppercase
    config.generateDigits config.generateSpecialChars
  let allowedCharacters :=
    if config.allowWhiteSpace then allowedCharacters ++ Java.utf16 " " else allowedCharacters
  if minCharacteristics < 1 ∨ config.allowOtherCharacters = false ∧ allowedCharacters = [] then none
  else some {
    minCharacteristics, characteristicsRules
    minLength := config.minLength
    maxLength := config.maxLength
    allowWhiteSpace := config.allowWhiteSpace
    allowedCharacters := if config.allowOtherCharacters then none else some allowedCharacters
    generationRules
    generateLength := config.generateLength }

/-- What a `WhitespaceRule` takes for white space. -/
def isWhitespace (c : Nat) : Bool := (0x09 ≤ c && c ≤ 0x0D) || c == 0x20

def validatePassword (policy : Policy) (password : Characters) : Bool :=
  policy.minCharacteristics ≤ (policy.characteristicsRules.countP fun rule => rule.validate password) &&
    (policy.minLength ≤ password.length && password.length ≤ policy.maxLength) &&
    (policy.allowWhiteSpace || !password.any isWhitespace) &&
    policy.allowedCharacters.all fun allowed => password.all fun c => decide (c ∈ allowed)

/-- `Math.min(length, rule.getNumberOfCharacters())` characters of each rule. -/
def ruleSources (policy : Policy) : List (Source Nat) :=
  policy.generationRules.map fun rule =>
    (rule.validCharacters, (min policy.generateLength rule.numberOfCharacters).toNat)

/-- And characters of any rule for the rest. -/
def sources (policy : Policy) : List (Source Nat) :=
  ruleSources policy ++ [(policy.generationRules.flatMap CharacterRule.validCharacters,
    policy.generateLength.toNat - total (ruleSources policy))]

/-- The passwords that a `PasswordGenerator` may return: drawn at random, and shuffled. It throws if the length
is not positive, or less than the numbers of characters of the rules, and if there are no characters. -/
def generatePassword (policy : Policy) (password : Characters) : Prop :=
  0 < policy.generateLength ∧ total (ruleSources policy) ≤ policy.generateLength.toNat ∧
    ∃ draws, Drawn (sources policy) draws ∧ password.Perm draws.flatten

/-! ## Consistent configurations -/

/-- The rules that count a character. -/
def kind (policy : Policy) (c : Nat) : List CharacterRule :=
  policy.characteristicsRules.filter fun rule => decide (c ∈ rule.validCharacters)

/-- In whatever numbers the kinds of characters are drawn, enough classes reach their minimum. -/
def Reaches (policy : Policy) : Prop :=
  ∀ kinds, Drawn (mapped (kind policy) (sources policy)) kinds →
    policy.minCharacteristics ≤ policy.characteristicsRules.countP fun rule =>
      decide (rule.numberOfCharacters ≤ kinds.flatten.countP fun k => decide (rule ∈ k))

/-- No password can be generated. -/
def Impossible (policy : Policy) : Prop :=
  policy.generateLength ≤ 0 ∨ policy.generateLength.toNat < total (ruleSources policy) ∨
    ¬ Drawable (sources policy)

/-- The length that is generated is a valid one, all classes that are generated are allowed, and enough of
them reach their minimum. -/
structure Fits (policy : Policy) : Prop where
  length : policy.minLength ≤ policy.generateLength ∧ policy.generateLength ≤ policy.maxLength
  whitespace : policy.allowWhiteSpace = false →
    ∀ rule ∈ policy.generationRules, ∀ c ∈ rule.validCharacters, isWhitespace c = false
  allowed : ∀ allowed, policy.allowedCharacters = some allowed →
    ∀ rule ∈ policy.generationRules, ∀ c ∈ rule.validCharacters, c ∈ allowed
  reaches : Reaches policy

/-- If the configuration is accepted at all. -/
def Consistent (special : Characters) (config : Configuration) : Prop :=
  ∀ policy, configure special config = some policy → Impossible policy ∨ Fits policy

/-! ## Generated passwords -/

/-- What is drawn are characters of the rules. -/
theorem mem_rule_of_source {policy : Policy} {source : Source Nat} (h : source ∈ sources policy) {c : Nat}
    (hc : c ∈ source.1) : ∃ rule ∈ policy.generationRules, c ∈ rule.validCharacters := by
  rcases List.mem_append.mp h with h | h
  · obtain ⟨rule, hrule, rfl⟩ := List.mem_map.mp h
    exact ⟨rule, hrule, hc⟩
  · rw [List.mem_singleton.mp h] at hc
    exact List.mem_flatMap.mp hc

theorem total_sources {policy : Policy} (h : total (ruleSources policy) ≤ policy.generateLength.toNat) :
    total (sources policy) = policy.generateLength.toNat := by
  rw [sources, total, sumBy_append, sumBy_cons, sumBy_nil]
  rw [total] at h ⊢
  omega

/-- The kinds that are drawn have the counts of the characters. -/
theorem countP_kinds (policy : Policy) {rule : CharacterRule} (hrule : rule ∈ policy.characteristicsRules)
    (password : Characters) :
    (password.map (kind policy)).countP (fun k => decide (rule ∈ k)) =
      password.countP fun c => decide (c ∈ rule.validCharacters) := by
  rw [List.countP_map]
  refine List.countP_congr fun c _ => ?_
  simp [kind, hrule]

theorem generates_iff (policy : Policy) :
    (∃ password, generatePassword policy password) ↔ ¬ Impossible policy := by
  constructor
  · rintro ⟨password, hpos, hle, draws, hdraws, _⟩ (hnot | hlt | hno)
    · omega
    · omega
    · exact hno (drawable_of_drawn hdraws)
  · intro h
    simp only [Impossible, not_or, not_not, Int.not_le, Nat.not_lt] at h
    obtain ⟨hpos, hle, hdrawable⟩ := h
    obtain ⟨draws, hdraws⟩ := exists_drawn hdrawable
    exact ⟨draws.flatten, hpos, hle, draws, hdraws, List.Perm.refl _⟩

theorem length_of_generated {policy : Policy} {password : Characters} (h : generatePassword policy password) :
    (password.length : Int) = policy.generateLength := by
  obtain ⟨hpos, hle, draws, hdraws, hperm⟩ := h
  rw [hperm.length_eq, length_of_drawn hdraws, total_sources hle]
  omega

theorem rule_of_generated {policy : Policy} {password : Characters} (h : generatePassword policy password) {c : Nat}
    (hc : c ∈ password) : ∃ rule ∈ policy.generationRules, c ∈ rule.validCharacters := by
  obtain ⟨_, _, draws, hdraws, hperm⟩ := h
  obtain ⟨source, hsource, hmem⟩ := mem_of_drawn hdraws (hperm.mem_iff.mp hc)
  exact mem_rule_of_source hsource hmem

/-- Each character of a rule may be generated. -/
theorem exists_generated_mem {policy : Policy} (h : ¬ Impossible policy) {rule : CharacterRule}
    (hrule : rule ∈ policy.generationRules) {c : Nat} (hc : c ∈ rule.validCharacters) :
    ∃ password, generatePassword policy password ∧ c ∈ password := by
  simp only [Impossible, not_or, not_not, Int.not_le, Nat.not_lt] at h
  obtain ⟨hpos, hle, hdrawable⟩ := h
  have hsource : (rule.validCharacters, (min policy.generateLength rule.numberOfCharacters).toNat) ∈ sources policy :=
    List.mem_append_left _ (List.mem_map_of_mem hrule)
  have hcount : 0 < (min policy.generateLength rule.numberOfCharacters).toNat := by
    have hnumber := rule.positive
    omega
  obtain ⟨draws, hdraws, hmem⟩ := exists_drawn_mem hdrawable hsource hcount hc
  exact ⟨draws.flatten, ⟨hpos, hle, draws, hdraws, List.Perm.refl _⟩, hmem⟩

/-- The validator, as conditions on the length, the characters and their kinds. -/
theorem validatePassword_iff (policy : Policy) (password : Characters) :
    validatePassword policy password = true ↔
      (policy.minLength ≤ password.length ∧ (password.length : Int) ≤ policy.maxLength) ∧
      (policy.allowWhiteSpace = false → ∀ c ∈ password, isWhitespace c = false) ∧
      (∀ allowed, policy.allowedCharacters = some allowed → ∀ c ∈ password, c ∈ allowed) ∧
      policy.minCharacteristics ≤ policy.characteristicsRules.countP fun rule =>
        decide (rule.numberOfCharacters ≤
          (password.map (kind policy)).countP fun k => decide (rule ∈ k)) := by
  have hcount : policy.characteristicsRules.countP (fun rule => rule.validate password) =
      policy.characteristicsRules.countP fun rule => decide (rule.numberOfCharacters ≤
        (password.map (kind policy)).countP fun k => decide (rule ∈ k)) := by
    refine List.countP_congr fun rule hrule => ?_
    rw [countP_kinds policy hrule]
    rfl
  rw [validatePassword, hcount]
  simp only [Bool.and_eq_true, Bool.or_eq_true, decide_eq_true_eq, Bool.not_eq_true', List.any_eq_false,
    Option.all_eq_true, List.all_eq_true]
  cases policy.allowWhiteSpace <;> simp <;> tauto

/-- What is generated is valid if and only if the configuration is consistent. -/
theorem valid_iff_consistent (special : Characters) (config : Configuration) :
    (∀ policy, configure special config = some policy →
      ∀ password, generatePassword policy password → validatePassword policy password = true) ↔
      Consistent special config := by
  refine forall₂_congr fun policy _ => ?_
  constructor
  · intro h
    by_cases himpossible : Impossible policy
    · exact .inl himpossible
    · have hvalid := fun password hpassword => (validatePassword_iff policy password).mp (h password hpassword)
      refine .inr ⟨?_, fun hspace rule hrule c hc => ?_, fun allowed hallowed rule hrule c hc => ?_, ?_⟩
      · obtain ⟨password, hpassword⟩ := (generates_iff policy).mpr himpossible
        rw [← length_of_generated hpassword]
        exact (hvalid password hpassword).1
      · obtain ⟨password, hpassword, hmem⟩ := exists_generated_mem himpossible hrule hc
        exact (hvalid password hpassword).2.1 hspace c hmem
      · obtain ⟨password, hpassword, hmem⟩ := exists_generated_mem himpossible hrule hc
        exact (hvalid password hpassword).2.2.1 allowed hallowed c hmem
      · intro kinds hkinds
        simp only [Impossible, not_or, not_not, Int.not_le, Nat.not_lt] at himpossible
        obtain ⟨hpos, hle, _⟩ := himpossible
        obtain ⟨draws, hdraws, rfl⟩ := (drawn_map _ _ _).mp hkinds
        rw [← List.map_flatten]
        exact (hvalid draws.flatten ⟨hpos, hle, draws, hdraws, List.Perm.refl _⟩).2.2.2
  · rintro (himpossible | hfits) password hpassword
    · exact absurd himpossible ((generates_iff policy).mp ⟨password, hpassword⟩)
    · rw [validatePassword_iff, length_of_generated hpassword]
      refine ⟨hfits.length, fun hspace c hc => ?_, fun allowed hallowed c hc => ?_, ?_⟩
      · obtain ⟨rule, hrule, hmem⟩ := rule_of_generated hpassword hc
        exact hfits.whitespace hspace rule hrule c hmem
      · obtain ⟨rule, hrule, hmem⟩ := rule_of_generated hpassword hc
        exact hfits.allowed allowed hallowed rule hrule c hmem
      · obtain ⟨_, _, draws, hdraws, hperm⟩ := hpassword
        have hreaches := hfits.reaches _ ((drawn_map _ _ _).mpr ⟨draws, hdraws, rfl⟩)
        rw [← List.map_flatten] at hreaches
        have hcounts : ∀ rule : CharacterRule,
            (password.map (kind policy)).countP (fun k => decide (rule ∈ k)) =
              (draws.flatten.map (kind policy)).countP fun k => decide (rule ∈ k) :=
          fun rule => (hperm.map _).countP_eq _
        simp only [hcounts]
        exact hreaches

end PasswordPolicy
end Login
end AppNG
