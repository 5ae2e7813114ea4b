import AppNG.Lib.Removal
import Mathlib.Data.List.Infix

/-!
# Http.JspExtensions

How `JspExtensionFilter` removes the extension of JSPs from the addresses in a page.

One pattern is looked for in the whole text: the domain and a slash, or a quote, then as many characters as
possible up to an extension. There is one match at most in a run of text without white space.

* `reader`: the pattern, as a reader of the text.
* `doReplace_eq_iff`: the text is as it should be if and only if the matches are the addresses of the site.
-/

namespace AppNG
namespace Http
namespace JspExtensions

open Removal

abbrev Text := List Char

/-! ## The code -/

def jspExtension : Text := '.' :: "jsp".toList

/-- The white space of a pattern, `\s`. -/
def isSpace (c : Char) : Bool :=
  c == ' ' || c == '\t' || c == '\n' || c == '\x0b' || c == '\x0c' || c == '\r'

/-- What a dot of a pattern does not match. -/
def isLineTerminator (c : Char) : Bool :=
  c == '\n' || c == '\r' || c == '\u0085' || c == '\u2028' || c == '\u2029'

def isQuote (c : Char) : Bool := c == '"' || c == '\''

def isDomainChar (c : Char) : Bool := c.isAlphanum || c == '-' || c == '.' || c == ':' || c == '/'

/-- A domain that passes the validation of a site: an optional scheme, a host and a port. -/
structure Domain where
  first : Char
  rest : Text
  alphanum : first.isAlphanum = true
  chars : ∀ c ∈ rest, isDomainChar c = true

def Domain.text (domain : Domain) : Text := domain.first :: domain.rest

/-- A character of the domain, which is not quoted in the pattern. -/
def matchesChar (p c : Char) : Bool := if p == '.' then !isLineTerminator c else p == c

/-- The domain as a pattern, and a slash. -/
def matchesDomain : Text → Text → Bool
  | [], c :: _ => c == '/'
  | p :: ps, c :: text => matchesChar p c && matchesDomain ps text
  | _, [] => false

/-- `(?:"|')(?!http://)` -/
def matchesQuote : Text → Bool
  | [] => false
  | c :: text => isQuote c && !"http://".toList.isPrefixOf text

/-- The groups of a match whose first group has `n` characters. -/
def groups (n : Nat) (text : Text) : Option (Text × Text) :=
  (greedy isSpace '.' "jsp".toList (text.drop n)).map fun path => (text.take n, path)

/-- The groups of a match at the start of a text. -/
def matchGroups (domain : Domain) (text : Text) : Option (Text × Text) :=
  (if matchesDomain domain.text text then groups (domain.text.length + 1) text else none).orElse fun _ =>
    if matchesQuote text then groups 1 text else none

def replacement (domain : Domain) (text : Text) : Option (Text × Nat) :=
  (matchGroups domain text).map fun (group1, group2) =>
    (group1 ++ group2, group1.length + group2.length + jspExtension.length - 1)

/-- `replaceAll("$1$2")` -/
def replaceAll (domain : Domain) (content : Text) : Text :=
  Scan.render id (Scan.scan (replacement domain) 0 content)

structure RedirectRule where
  apply : Text → Text

/-- The content, once the rules have been applied. -/
def redirected (redirectRules : Option (List RedirectRule)) (content : Text) : Text :=
  match redirectRules with
  | none => content
  | some rules => rules.foldl (fun content rule => rule.apply content) content

def doReplace (redirectRules : Option (List RedirectRule)) (domain : Domain) (content : Text) : Text :=
  let content := redirected redirectRules content
  if jspExtension <:+: content then replaceAll domain content else content

/-! ## The addresses of the site -/

/-- What ends the path of an address: the address ends, or its parameters, its query or its fragment begin. -/
def endsPath (c : Char) : Bool :=
  isSpace c || isQuote c || c == '<' || c == '>' || c == '?' || c == '#' || c == ';'

/-- An address, from `e` up to `i`, that has a scheme or a host. -/
def Absolute (text : Text) (e i : Nat) : Prop :=
  At "//".toList text e ∨ ∃ k, k < i ∧ e ≤ k ∧ text[k]? = some ':' ∧ Unbroken text (· == '/') e k

/-- The domain, with or without a scheme in front of it, is not a part of a longer name. -/
def StartsDomain (domain : Domain) (text : Text) (s : Nat) : Prop :=
  At (domain.text ++ ['/']) text s ∧
    ∃ scheme ∈ ["".toList, "//".toList, "http://".toList, "https://".toList], ∃ b, b + scheme.length = s ∧
      At scheme text b ∧ ∀ k c, k + 1 = b → text[k]? = some c → isDomainChar c = false

/-- At `i` there is the extension of a path that is not empty: of a relative address behind a quote, or of
one with the domain of the site. -/
def Wanted (domain : Domain) (text : Text) (i : Nat) : Prop :=
  At jspExtension text i ∧ (∀ c, text[i + 4]? = some c → endsPath c = true) ∧
    ∃ e, e < i ∧ Unbroken text endsPath e i ∧
      ((∃ s q, e = s + 1 ∧ text[s]? = some q ∧ isQuote q = true ∧ ¬ Absolute text e i) ∨
        ∃ s, e = s + domain.text.length + 1 ∧ StartsDomain domain text s)

open Classical in
/-- The text without the extensions of these addresses. -/
noncomputable def cleaned (domain : Domain) (text : Text) : Text :=
  keep (Removed jspExtension (Wanted domain text)) 0 text

theorem proper (domain : Domain) (text : Text) :
    Proper (Wanted domain text) isSpace '.' "jsp".toList text := by
  refine ⟨by simp [isSpace], by decide, fun h => h.1, fun h hc => ?_⟩
  rintro rfl
  have hends := h.2.1 _ hc
  cases hends

/-! ## The pattern -/

/-- A match may begin at `s`, and the path at `e`. -/
def Opens (domain : Domain) (text : Text) (s e : Nat) : Prop :=
  (e = s + domain.text.length + 1 ∧ matchesDomain domain.text (text.drop s) = true) ∨
    e = s + 1 ∧ matchesQuote (text.drop s) = true

/-- There is a match from `s` to the extension at `i`. -/
def Matched (domain : Domain) (text : Text) (s i : Nat) : Prop :=
  ∃ e, Opens domain text s e ∧ Ends isSpace '.' "jsp".toList text e i

/-- No quote is the first character of a domain. -/
theorem not_quote_of_domain {domain : Domain} {text : Text} (h : matchesDomain domain.text text = true) :
    matchesQuote text = false := by
  cases text with
  | nil => rfl
  | cons c text =>
    have hfirst : matchesChar domain.first c = true := (Bool.and_eq_true_iff.mp h).1
    have halpha := domain.alphanum
    have hdot : (domain.first == '.') = false := by
      refine Bool.eq_false_iff.mpr fun hdot => ?_
      rw [beq_iff_eq.mp hdot] at halpha
      cases halpha
    rw [matchesChar, hdot] at hfirst
    have hc : domain.first = c := beq_iff_eq.mp hfirst
    have hquote : isQuote c = false := by
      refine Bool.eq_false_iff.mpr fun hquote => ?_
      simp only [isQuote, Bool.or_eq_true, beq_iff_eq] at hquote
      rw [hc] at halpha
      rcases hquote with rfl | rfl <;> cases halpha
    rw [matchesQuote, hquote]
    rfl

theorem Opens.unique {domain : Domain} {text : Text} {s e e' : Nat} (h : Opens domain text s e)
    (h' : Opens domain text s e') : e = e' := by
  rcases h with ⟨rfl, hdomain⟩ | ⟨rfl, hquote⟩ <;> rcases h' with ⟨rfl, hdomain'⟩ | ⟨rfl, hquote'⟩
  · rfl
  · rw [not_quote_of_domain hdomain] at hquote'
    cases hquote'
  · rw [not_quote_of_domain hdomain'] at hquote
    cases hquote
  · rfl

theorem Opens.lt {domain : Domain} {text : Text} {s e : Nat} (h : Opens domain text s e) : s < e := by
  rcases h with ⟨rfl, _⟩ | ⟨rfl, _⟩ <;> omega

theorem groups_eq (text : Text) {s e : Nat} (hle : s ≤ e) :
    (∀ i, Ends isSpace '.' "jsp".toList text e i →
      groups (e - s) (text.drop s) = some ((text.drop s).take (e - s), (text.drop e).take (i - e))) ∧
    ((∀ i, ¬ Ends isSpace '.' "jsp".toList text e i) → groups (e - s) (text.drop s) = none) := by
  have hspec : (∀ i, Ends isSpace '.' "jsp".toList text e i → greedy isSpace '.' "jsp".toList (text.drop e) =
      some ((text.drop e).take (i - e))) ∧
      ((∀ i, ¬ Ends isSpace '.' "jsp".toList text e i) →
        greedy isSpace '.' "jsp".toList (text.drop e) = none) := greedy_spec text e
  obtain ⟨hsome, hnone⟩ := hspec
  rw [groups, List.drop_drop, show s + (e - s) = e by omega]
  refine ⟨fun i hi => ?_, fun h => ?_⟩
  · rw [hsome i hi]
    rfl
  · rw [hnone h]
    rfl

theorem matchGroups_eq_none {domain : Domain} {text : Text} {s : Nat} (h : ∀ i, ¬ Matched domain text s i) :
    matchGroups domain (text.drop s) = none := by
  have hgroups : ∀ n, Opens domain text s (s + n) → groups n (text.drop s) = none := by
    intro n hopens
    have hnone := (groups_eq text (s := s) (e := s + n) (by omega)).2 fun i hi => h i ⟨_, hopens, hi⟩
    rwa [Nat.add_sub_cancel_left] at hnone
  have hquote : (if matchesQuote (text.drop s) then groups 1 (text.drop s) else none) = none := by
    split
    · rename_i hquote
      exact hgroups 1 (.inr ⟨rfl, hquote⟩)
    · rfl
  unfold matchGroups
  split
  · rename_i hdomain
    rw [hgroups _ (.inl ⟨rfl, hdomain⟩)]
    exact hquote
  · exact hquote

theorem matchGroups_eq_some {domain : Domain} {text : Text} {s e i : Nat} (hopens : Opens domain text s e)
    (hends : Ends isSpace '.' "jsp".toList text e i) :
    matchGroups domain (text.drop s) = some ((text.drop s).take (e - s), (text.drop e).take (i - e)) := by
  have hlt := hopens.lt
  have hsome := (groups_eq text (s := s) (e := e) (by omega)).1 i hends
  unfold matchGroups
  rcases hopens with ⟨he, hdomain⟩ | ⟨he, hquote⟩
  · rw [show e - s = domain.text.length + 1 by omega] at hsome ⊢
    rw [if_pos hdomain, hsome]
    rfl
  · rw [show e - s = 1 by omega] at hsome ⊢
    have hdomain : ¬ matchesDomain domain.text (text.drop s) = true := fun hdomain => by
      rw [not_quote_of_domain hdomain] at hquote
      cases hquote
    rw [if_neg hdomain, if_pos hquote, hsome]
    rfl

/-- The pattern, as a reader of a text. -/
def reader (domain : Domain) (text : Text) : Reader isSpace jspExtension text where
  read := replacement domain
  matched := Matched domain text
  lt_of_matched := fun ⟨_, hopens, hends⟩ => Nat.lt_trans hopens.lt hends.1
  at_of_matched := fun ⟨_, _, hends⟩ => hends.2.1
  last_of_matched := fun ⟨_, _, hends⟩ => hends.2.2.2
  unique := by
    rintro s i i' ⟨e, hopens, hends⟩ ⟨e', hopens', hends'⟩
    obtain rfl := hopens.unique hopens'
    exact hends.unique hends'
  read_eq_none := fun h => by rw [replacement, matchGroups_eq_none h]; rfl
  read_eq_some := by
    rintro s i ⟨e, hopens, hends⟩
    have hse := hopens.lt
    have hei := hends.1
    have hlen := length_of_at hends.2.1
    have hsplit : (text.drop s).take (e - s) ++ (text.drop e).take (i - e) = (text.drop s).take (i - s) := by
      rw [show i - s = (e - s) + (i - e) by omega, List.take_add, List.drop_drop, show s + (e - s) = e by omega]
    rw [replacement, matchGroups_eq_some hopens hends]
    simp only [Option.map_some, hsplit, List.length_take, List.length_drop, Option.some.injEq, Prod.mk.injEq, true_and]
    omega

/-! ## The text -/

/-- The pattern finds the extensions of the addresses of the site, and nothing else. -/
def Handled (domain : Domain) (text : Text) : Prop :=
  ∀ i, At jspExtension text i →
    (Wanted domain text i ↔ Found jspExtension (Wanted domain text) (Matched domain text) i)

theorem replaceAll_eq_iff (domain : Domain) (text : Text) :
    replaceAll domain text = cleaned domain text ↔ Handled domain text := by
  classical
  exact render_scan_eq_keep_iff (reader domain text) (proper domain text)

theorem not_at_of_not_contains {text : Text} (h : ¬ jspExtension <:+: text) (i : Nat) : ¬ At jspExtension text i := by
  rintro ⟨rest, hrest⟩
  refine h ⟨text.take i, rest, ?_⟩
  rw [List.append_assoc, hrest, List.take_append_drop]

theorem replaceAll_of_not_contains {domain : Domain} {text : Text} (h : ¬ jspExtension <:+: text) :
    replaceAll domain text = text := by
  classical
  have hcleaned := (replaceAll_eq_iff domain text).mpr fun i hat => absurd hat (not_at_of_not_contains h i)
  rw [hcleaned, cleaned, keep_all]
  rintro k _ _ ⟨i, hi, _⟩
  exact not_at_of_not_contains h i hi.1

theorem doReplace_eq_replaceAll (redirectRules : Option (List RedirectRule)) (domain : Domain) (content : Text) :
    doReplace redirectRules domain content = replaceAll domain (redirected redirectRules content) := by
  rw [doReplace]
  split
  · rfl
  · rename_i hcontains
    rw [replaceAll_of_not_contains hcontains]

/-- The pages that are as they should be. -/
theorem doReplace_eq_iff (redirectRules : Option (List RedirectRule)) (domain : Domain) (content : Text) :
    doReplace redirectRules domain content = cleaned domain (redirected redirectRules content) ↔
      Handled domain (redirected redirectRules content) := by
  rw [doReplace_eq_replaceAll, replaceAll_eq_iff]

/-- Where no dot of the domain matches white space, all that counts is whether a word, up to its last
extension, has a quote or the domain in it. -/
theorem handled_iff_of_unbroken {domain : Domain} {text : Text}
    (h : ∀ s e, Opens domain text s e → Unbroken text isSpace s e) :
    Handled domain text ↔ ∀ i, At jspExtension text i → (Wanted domain text i ↔ ∃ s, Matched domain text s i) := by
  have hmatched : ∀ {s i}, Matched domain text s i → Unbroken text isSpace s i := by
    rintro s i ⟨e, hopens, hends⟩
    exact (h s e hopens).append hends.2.2.1
  have hfound : ∀ {s i}, (∀ j, j < i → Wanted domain text j → ∃ s', Matched domain text s' j) →
      Matched domain text s i → Found jspExtension (Wanted domain text) (Matched domain text) i := by
    intro s i hwanted hs
    refine ⟨s, hs, fun j hji hj => ?_, ?_⟩
    · obtain ⟨s', e', _, hends'⟩ := hwanted j hji hj
      have hword := unbroken_of_at (proper domain text).word hj.1
      by_contra hlt
      refine hends'.2.2.2 i hji ((reader domain text).at_of_matched hs) ?_
      have hrest : Unbroken text isSpace (j + "jsp".toList.length + 1) i := fun m c hle hm hc =>
        hmatched hs m c (Nat.le_trans (Nat.le_of_lt (Nat.lt_of_not_le hlt)) hle) hm hc
      exact hword.append hrest
    · rintro ⟨s', i', hss', hii', hs', _⟩
      refine (reader domain text).last_of_matched hs i' hii' ((reader domain text).at_of_matched hs') ?_
      have hsi := (reader domain text).lt_of_matched hs
      exact fun m c hle hm hc => hmatched hs' m c (by omega) hm hc
  constructor
  · intro hall i hat
    refine ⟨fun hi => ?_, ?_⟩
    · obtain ⟨s, hs, _⟩ := (hall i hat).mp hi
      exact ⟨s, hs⟩
    · rintro ⟨s, hs⟩
      refine (hall i hat).mpr (hfound (fun j _ hj => ?_) hs)
      obtain ⟨s', hs', _⟩ := (hall j hj.1).mp hj
      exact ⟨s', hs'⟩
  · intro hall i hat
    refine ⟨fun hi => ?_, ?_⟩
    · obtain ⟨s, hs⟩ := (hall i hat).mp hi
      exact hfound (fun j _ hj => (hall j hj.1).mp hj) hs
    · rintro ⟨s, hs, _⟩
      exact (hall i hat).mpr ⟨s, hs⟩

def sampleDomain : Domain := ⟨'h', "ttp://foobar.org".toList, by decide, by simp [isDomainChar]⟩

def twoAddresses : Text := "'/a.jsp''/b.jsp'".toList

def foreignAddress : Text := "'https://example.com/a.jsp'".toList

instance (text : Text) (e i : Nat) : Decidable (Absolute text e i) :=
  inferInstanceAs (Decidable (_ ∨ _))

theorem wanted_twoAddresses : Wanted sampleDomain twoAddresses 3 := by
  refine ⟨by decide +kernel, fun c hc => ?_, 1, by decide, by decide +kernel, .inl ⟨0, '\'', rfl, rfl, rfl, ?_⟩⟩
  · cases hc
    rfl
  · decide +kernel

theorem not_handled_twoAddresses : ¬ Handled sampleDomain twoAddresses := by
  intro h
  obtain ⟨s, hs, _⟩ := (h 3 wanted_twoAddresses.1).mp wanted_twoAddresses
  refine (reader sampleDomain twoAddresses).last_of_matched hs 11 (by decide) (by decide +kernel) ?_
  decide +kernel

theorem not_wanted_foreignAddress (i : Nat) : ¬ Wanted sampleDomain foreignAddress i := by
  rintro ⟨hat, _, e, hei, hun, haddress⟩
  have hlen := length_of_at hat
  have hi : i = 22 := by
    have hall : ∀ k, k < foreignAddress.length → At jspExtension foreignAddress k → k = 22 := by decide +kernel
    exact hall i (by omega) hat
  subst hi
  rcases haddress with ⟨s, q, rfl, hq, hquote, hrelative⟩ | ⟨s, _, hstart, _⟩
  · have hall : ∀ s, s < 22 → foreignAddress[s]?.any isQuote = true → s = 0 := by decide +kernel
    obtain rfl := hall s (by omega) (by rw [hq]; exact hquote)
    exact hrelative (by decide +kernel)
  · have hall : ∀ s, s < foreignAddress.length → ¬ At (sampleDomain.text ++ ['/']) foreignAddress s := by
      decide +kernel
    by_cases hs : s < foreignAddress.length
    · exact hall s hs hstart
    · rw [At, List.drop_eq_nil_of_le (by omega)] at hstart
      exact absurd (List.prefix_nil.mp hstart) (by decide +kernel)

theorem cleaned_foreignAddress : cleaned sampleDomain foreignAddress = foreignAddress := by
  classical
  rw [cleaned, keep_all]
  rintro k _ _ ⟨i, hi, _⟩
  exact not_wanted_foreignAddress i hi

/-- Of two addresses without white space between them the first one is not found, and an address of
another host is taken for a relative one, unless its scheme is `http`. -/
theorem addresses_not_handled :
    (doReplace none sampleDomain twoAddresses = "'/a.jsp''/b'".toList ∧
      doReplace none sampleDomain twoAddresses ≠ cleaned sampleDomain twoAddresses) ∧
    doReplace none sampleDomain foreignAddress = "'https://example.com/a'".toList ∧
      cleaned sampleDomain foreignAddress = foreignAddress := by
  refine ⟨⟨by decide +kernel, fun heq => ?_⟩, by decide +kernel, cleaned_foreignAddress⟩
  rw [doReplace_eq_replaceAll] at heq
  exact not_handled_twoAddresses ((replaceAll_eq_iff sampleDomain twoAddresses).mp heq)

end JspExtensions
end Http
end AppNG
