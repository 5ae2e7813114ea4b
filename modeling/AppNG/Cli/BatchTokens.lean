import AppNG.Cli.BatchLines

/-!
# Cli.BatchTokens

What `CommandBatch` makes of tokens that are joined by blanks.

* `restored_iff`: when a token comes back, once its quotes are double ones and it is trimmed.
* `tokens_joined`: the tokens come back if and only if they are kept apart, by one blank each.
* `batch_lines_iff`: this, together with the lines that give neither an index error nor an empty token.
-/

namespace AppNG
namespace Cli
namespace BatchLines

/-- A token, and the number of blanks behind it, if another one follows. -/
structure Item where
  token : Text
  blanks : Nat
  nonempty : token ≠ []
  separated : 0 < blanks

namespace Item

/-- Quoted when it contains a blank. -/
def rendered (item : Item) : Text :=
  if ' ' ∈ item.token then '"' :: (item.token ++ ['"']) else item.token

theorem rendered_ne_nil (item : Item) : item.rendered ≠ [] := by
  unfold rendered
  split
  · exact List.cons_ne_nil _ _
  · exact item.nonempty

/-- In front of the first blank there is a quote. -/
theorem not_blank_of_append {item : Item} {a b : Text} (h : item.rendered = a ++ b)
    (ha : ∀ c ∈ a, isQuote c = false) : ' ' ∉ a := by
  intro hmem
  unfold rendered at h
  split at h
  · cases a with
    | nil => cases hmem
    | cons c a =>
      have hc := ha c List.mem_cons_self
      rw [← (List.cons.inj h).1] at hc
      cases hc
  · rename_i hno
    refine hno ?_
    rw [h]
    exact List.mem_append_left _ hmem

/-- White space aside, which is trimmed, the token is read as it stands. -/
def Whole (item : Item) : Prop :=
  trim item.rendered = item.rendered ∧ '\'' ∉ item.rendered ∧
    (quotes item.rendered ≤ 1 ∨ quotes item.rendered = 2 ∧ endsQuote item.rendered = true)

end Item

def joined : List Item → Text
  | [] => []
  | [item] => item.rendered
  | item :: rest => item.rendered ++ List.replicate item.blanks ' ' ++ joined rest

/-- Between two tokens there is one blank, and no quote is left open. -/
def Kept : List Item → Prop
  | [] => True
  | [item] => item.Whole
  | item :: rest => item.Whole ∧ quotes item.rendered ≠ 1 ∧ item.blanks = 1 ∧ Kept rest

/-! ## Quotes -/

/-- All quotes become double ones. -/
def normal (text : Text) : Text := text.map fun c => if isQuote c then '"' else c

theorem length_normal (text : Text) : (normal text).length = text.length := List.length_map _

@[simp] theorem normal_append (a b : Text) : normal (a ++ b) = normal a ++ normal b := List.map_append

theorem normal_eq_self {text : Text} (h : '\'' ∉ text) : normal text = text := by
  induction text with
  | nil => rfl
  | cons c text ih =>
    simp only [List.mem_cons, not_or] at h
    have hc : (if isQuote c then '"' else c) = c := by
      split
      · rename_i hquote
        simp only [isQuote, Bool.or_eq_true, beq_iff_eq] at hquote
        exact (hquote.resolve_right (Ne.symm h.1)).symm
      · rfl
    exact List.cons_eq_cons.mpr ⟨hc, ih h.2⟩

theorem not_mem_normal (text : Text) : '\'' ∉ normal text := by
  intro h
  obtain ⟨c, _, hc⟩ := List.mem_map.mp h
  split at hc
  · cases hc
  · rename_i hquote
    rw [hc] at hquote
    exact hquote rfl

theorem normal_of_not_quote {text : Text} (h : ∀ c ∈ text, isQuote c = false) : normal text = text := by
  refine normal_eq_self fun hmem => ?_
  have hquote := h '\'' hmem
  cases hquote

theorem length_trim_le (text : Text) : (trim text).length ≤ text.length := by
  obtain ⟨a, b, htext, _⟩ := trim_split text
  have hlen := congrArg List.length htext
  simp only [List.length_append] at hlen
  omega

theorem trim_eq_self {text : Text} (h : (trim text).length = text.length) : trim text = text := by
  obtain ⟨a, b, htext, _⟩ := trim_split text
  have hlen := congrArg List.length htext
  simp only [List.length_append] at hlen
  have ha : a = [] := List.length_eq_zero_iff.mp (by omega)
  have hb : b = [] := List.length_eq_zero_iff.mp (by omega)
  rw [ha, hb] at htext
  simpa using htext.symm

theorem quotes_of_white {text : Text} (h : ∀ c ∈ text, isWhite c = true) : quotes text = 0 := by
  refine List.countP_eq_zero.mpr fun c hc hquote => ?_
  have hwhite := h c hc
  rw [not_white_of_isQuote hquote] at hwhite
  cases hwhite

theorem quotes_normal (text : Text) : quotes (normal text) = quotes text := by
  rw [quotes, quotes, normal, List.countP_map]
  refine List.countP_congr fun c _ => ?_
  rw [Function.comp_apply]
  split
  · rename_i hquote
    exact iff_of_true rfl hquote
  · rfl

theorem quotes_trim (text : Text) : quotes (trim text) = quotes text := by
  obtain ⟨a, b, htext, ha, hb⟩ := trim_split text
  conv_rhs => rw [htext, quotes_append, quotes_append, quotes_of_white ha, quotes_of_white hb]
  omega

/-- Of a text of which a part is read, the whole comes back if the part is all of it, has no white
space around it, and no single quotes. -/
theorem restored_iff (p d : Text) :
    trim (normal p) = p ++ d ↔ d = [] ∧ trim p = p ∧ '\'' ∉ p := by
  constructor
  · intro h
    have hle := length_trim_le (normal p)
    have hlen := congrArg List.length h
    rw [List.length_append] at hlen
    rw [length_normal] at hle
    have hd : d = [] := List.length_eq_zero_iff.mp (by omega)
    rw [hd, List.append_nil] at h
    have hself : trim (normal p) = normal p := trim_eq_self (by rw [h, length_normal])
    have hp : normal p = p := hself.symm.trans h
    refine ⟨hd, by rwa [hp] at h, ?_⟩
    rw [← hp]
    exact not_mem_normal p
  · rintro ⟨rfl, htrim, hsingle⟩
    rw [normal_eq_self hsingle, htrim, List.append_nil]

theorem exists_quote (text : Text) : (∀ c ∈ text, isQuote c = false) ∨
    ∃ a q b, text = a ++ q :: b ∧ (∀ c ∈ a, isQuote c = false) ∧ isQuote q = true := by
  by_cases h : ∀ c ∈ text, isQuote c = false
  · exact .inl h
  · simp only [not_forall, Bool.not_eq_false] at h
    obtain ⟨c, hc, hquote⟩ := h
    obtain ⟨q, hq⟩ := Option.isSome_iff_exists.mp (List.find?_isSome.mpr ⟨c, hc, hquote⟩)
    obtain ⟨hq', a, b, htext, ha⟩ := List.find?_eq_some_iff_append.mp hq
    exact .inr ⟨a, q, b, htext, fun d hd => by simpa using ha d hd, hq'⟩

theorem quotes_of_not_quote {text : Text} (h : ∀ c ∈ text, isQuote c = false) : quotes text = 0 :=
  List.countP_eq_zero.mpr fun c hc => by simp [h c hc]

theorem quotes_cons_of_quote {q : Char} (hq : isQuote q = true) (text : Text) :
    quotes (q :: text) = quotes text + 1 := by
  simp [quotes, hq]

/-! ## Reading a token -/

theorem step_open {tokens : List Text} {q : Char} (hq : isQuote q = true) (current : Text) :
    step noVariables ⟨⟨tokens, false, false, false⟩, current⟩ q =
      ⟨⟨tokens, true, false, false⟩, current ++ ['"']⟩ := by
  have hne : q ≠ ' ' := by
    rintro rfl
    cases hq
  simp [step, Line.getCharType, hq, hne]

theorem step_close {tokens : List Text} {q : Char} (hq : isQuote q = true) (current : Text) :
    step noVariables ⟨⟨tokens, true, false, false⟩, current⟩ q =
      ⟨⟨tokens ++ [trim (current ++ ['"'])], false, false, true⟩, []⟩ := by
  simp [step, Line.getCharType, hq, State.addToken, Line.addToken]

theorem step_blank (tokens : List Text) (current : Text) :
    step noVariables ⟨⟨tokens, false, false, false⟩, current⟩ ' ' =
      ⟨⟨tokens ++ [trim current], false, false, false⟩, []⟩ := by
  simp [step, Line.getCharType, State.addToken, Line.addToken]

/-- The blank behind a quote belongs to the next token. -/
theorem step_behind_quote (tokens : List Text) :
    step noVariables ⟨⟨tokens, false, false, true⟩, []⟩ ' ' = ⟨⟨tokens, false, false, false⟩, [' ']⟩ := by
  simp [step, Line.getCharType, isQuote]

section Reading

variable {tokens : List Text} (h : tokens.head? ≠ some VAR_DECLARATION)
include h

theorem step_closed {c : Char} (hblank : c ≠ ' ') (hquote : isQuote c = false) (skipAdd : Bool) (current : Text) :
    step noVariables ⟨⟨tokens, false, false, skipAdd⟩, current⟩ c = ⟨⟨tokens, false, false, false⟩, current ++ [c]⟩ := by
  simp [step, Line.getCharType, hblank, hquote, h]

theorem step_opened {c : Char} (hquote : isQuote c = false) (current : Text) :
    step noVariables ⟨⟨tokens, true, false, false⟩, current⟩ c = ⟨⟨tokens, true, false, false⟩, current ++ [c]⟩ := by
  simp [step, Line.getCharType, hquote, h]

theorem foldl_closed {a : Text} (hblank : ' ' ∉ a) (ha : ∀ c ∈ a, isQuote c = false) (current : Text) :
    a.foldl (step noVariables) ⟨⟨tokens, false, false, false⟩, current⟩ =
      ⟨⟨tokens, false, false, false⟩, current ++ a⟩ := by
  induction a generalizing current with
  | nil => simp
  | cons c a ih =>
    simp only [List.mem_cons, not_or] at hblank
    rw [List.foldl_cons, step_closed h (Ne.symm hblank.1) (ha c List.mem_cons_self),
      ih hblank.2 (fun d hd => ha d (List.mem_cons_of_mem _ hd)), List.append_assoc, List.singleton_append]

theorem foldl_opened {a : Text} (ha : ∀ c ∈ a, isQuote c = false) (current : Text) :
    a.foldl (step noVariables) ⟨⟨tokens, true, false, false⟩, current⟩ =
      ⟨⟨tokens, true, false, false⟩, current ++ a⟩ := by
  induction a generalizing current with
  | nil => simp
  | cons c a ih =>
    rw [List.foldl_cons, step_opened h (ha c List.mem_cons_self),
      ih (fun d hd => ha d (List.mem_cons_of_mem _ hd)), List.append_assoc, List.singleton_append]

/-- A token without quotes, with one quote, or up to its second quote. -/
theorem foldl_rendered (item : Item) (current : Text) :
    (quotes item.rendered = 0 ∧ item.rendered.foldl (step noVariables) ⟨⟨tokens, false, false, false⟩, current⟩ =
      ⟨⟨tokens, false, false, false⟩, current ++ normal item.rendered⟩) ∨
    (quotes item.rendered = 1 ∧ item.rendered.foldl (step noVariables) ⟨⟨tokens, false, false, false⟩, current⟩ =
      ⟨⟨tokens, true, false, false⟩, current ++ normal item.rendered⟩) ∨
    ∃ p d, item.rendered = p ++ d ∧ quotes p = 2 ∧ endsQuote p = true ∧
      p.foldl (step noVariables) ⟨⟨tokens, false, false, false⟩, current⟩ =
        ⟨⟨tokens ++ [trim (current ++ normal p)], false, false, true⟩, []⟩ := by
  rcases exists_quote item.rendered with hno | ⟨a, q, b, hab, ha, hq⟩
  · have hblank : ' ' ∉ item.rendered := Item.not_blank_of_append (List.append_nil _).symm hno
    refine .inl ⟨quotes_of_not_quote hno, ?_⟩
    rw [normal_of_not_quote hno]
    exact foldl_closed h hblank hno current
  · have hblank : ' ' ∉ a := Item.not_blank_of_append hab ha
    have hnormal : normal (a ++ [q]) = a ++ ['"'] := by
      rw [normal_append, normal_of_not_quote ha, normal, List.map_singleton, if_pos hq]
    have hopen : (a ++ [q]).foldl (step noVariables) ⟨⟨tokens, false, false, false⟩, current⟩ =
        ⟨⟨tokens, true, false, false⟩, current ++ normal (a ++ [q])⟩ := by
      rw [List.foldl_append, foldl_closed h hblank ha, List.foldl_cons, List.foldl_nil, step_open hq, hnormal,
        List.append_assoc]
    have hone : quotes (a ++ [q]) = 1 := by
      rw [quotes_append, quotes_of_not_quote ha, quotes_cons_of_quote hq]
      rfl
    rw [List.append_cons] at hab
    rcases exists_quote b with hb | ⟨c, q', d, rfl, hc, hq'⟩
    · refine .inr (.inl ⟨?_, ?_⟩)
      · rw [hab, quotes_append, hone, quotes_of_not_quote hb]
      · rw [hab, List.foldl_append, hopen, foldl_opened h hb, normal_append (a ++ [q]) b,
          normal_of_not_quote hb, List.append_assoc]
    · refine .inr (.inr ⟨a ++ [q] ++ (c ++ [q']), d, ?_, ?_, ?_, ?_⟩)
      · simp [hab]
      · rw [quotes_append, hone, quotes_append, quotes_of_not_quote hc, quotes_cons_of_quote hq']
        rfl
      · rw [← List.append_assoc, endsQuote_append_singleton, hq']
      · have hclosed : normal (c ++ [q']) = c ++ ['"'] := by
          rw [normal_append, normal_of_not_quote hc, normal, List.map_singleton, if_pos hq']
        rw [List.foldl_append, hopen, List.foldl_append, foldl_opened h hc, List.foldl_cons, List.foldl_nil,
          step_close hq', normal_append (a ++ [q]), hclosed]
        simp only [List.append_assoc]

/-- Behind an open quote the line ends with the token, or the token has another quote. -/
theorem finish_opened {current : Text} (hcurrent : quotes current = 1) (cs : Text) :
    (∃ t, (finish noVariables (cs.foldl (step noVariables) ⟨⟨tokens, true, false, false⟩, current⟩)).tokens =
      tokens ++ [t]) ∨
    ∃ t, tokens ++ [t] <+: (finish noVariables (cs.foldl (step noVariables) ⟨⟨tokens, true, false, false⟩, current⟩)).tokens ∧
      quotes t = 2 := by
  rcases exists_quote cs with hno | ⟨a, q, b, rfl, ha, hq⟩
  · have hlen : 0 < (current ++ cs).length := by
      refine List.length_pos_of_ne_nil fun hnil => ?_
      rw [(List.append_eq_nil_iff.mp hnil).1] at hcurrent
      cases hcurrent
    rw [foldl_opened h hno, finish, if_pos hlen]
    exact .inl ⟨trim (current ++ cs), by simp [Line.addToken]⟩
  · refine .inr ⟨trim (current ++ a ++ ['"']), ?_, ?_⟩
    · rw [List.foldl_append, foldl_opened h ha, List.foldl_cons, step_close hq]
      exact tokens_foldl noVariables ⟨⟨tokens ++ [trim (current ++ a ++ ['"'])], false, false, true⟩, []⟩ b
    · rw [quotes_trim, quotes_append, quotes_append, hcurrent, quotes_of_not_quote ha]
      rfl

end Reading

/-! ## The round trip -/

/-- A token that is read otherwise is not corrected later. -/
theorem not_later {s : State} {cs : Text} {tokens rest : List Text} {t r : Text}
    (h : (finish noVariables (cs.foldl (step noVariables) s)).tokens = tokens ++ r :: rest)
    (hs : tokens ++ [t] <+: s.line.tokens) : t = r := by
  have hstarts : tokens ++ [t] <+: tokens ++ r :: rest := h ▸ hs.trans (tokens_foldl noVariables s cs)
  rw [List.prefix_append_right_inj] at hstarts
  exact (List.cons_prefix_cons.mp hstarts).1

theorem joined_cons (item : Item) (rest : List Item) (hrest : rest ≠ []) :
    joined (item :: rest) = item.rendered ++ List.replicate item.blanks ' ' ++ joined rest := by
  cases rest with
  | nil => exact absurd rfl hrest
  | cons next rest => rfl

theorem kept_cons (item : Item) {rest : List Item} (hrest : rest ≠ []) :
    Kept (item :: rest) ↔ item.Whole ∧ quotes item.rendered ≠ 1 ∧ item.blanks = 1 ∧ Kept rest := by
  cases rest with
  | nil => exact absurd rfl hrest
  | cons next rest => rfl

theorem eq_nil_of_whole {p d : Text} (hp : quotes p = 2)
    (h : quotes (p ++ d) ≤ 1 ∨ quotes (p ++ d) = 2 ∧ endsQuote (p ++ d) = true) : d = [] := by
  rw [quotes_append, hp] at h
  obtain ⟨htwo, hends⟩ := h.resolve_left (by omega)
  rcases List.eq_nil_or_concat d with hnil | ⟨d', c, hd⟩
  · exact hnil
  · rw [List.concat_eq_append] at hd
    rw [hd, ← List.append_assoc, endsQuote_append_singleton] at hends
    rw [hd, quotes_append, quotes_cons_of_quote hends] at htwo
    omega

/-- One token, read up to its end. -/
theorem tokens_single {tokens : List Text} (h : tokens.head? ≠ some VAR_DECLARATION) {current : Text}
    (hcurrent : ∀ c ∈ current, isWhite c = true) (item : Item) :
    (finish noVariables (item.rendered.foldl (step noVariables) ⟨⟨tokens, false, false, false⟩, current⟩)).tokens =
      tokens ++ [item.rendered] ↔ item.Whole := by
  have hsimple : ∀ opened : Bool, (finish noVariables
      ⟨⟨tokens, opened, false, false⟩, current ++ normal item.rendered⟩).tokens = tokens ++ [item.rendered] ↔
        trim item.rendered = item.rendered ∧ '\'' ∉ item.rendered := by
    intro opened
    have hlen : 0 < (current ++ normal item.rendered).length := by
      have hpos := List.length_pos_of_ne_nil item.rendered_ne_nil
      rw [List.length_append, length_normal]
      omega
    have hrestored := restored_iff item.rendered []
    rw [List.append_nil] at hrestored
    rw [finish, if_pos hlen]
    simp only [Line.addToken, valueOf_noVariables, trim_append_left hcurrent, List.append_cancel_left_eq,
      List.cons.injEq, and_true, hrestored, true_and]
  rcases foldl_rendered h item current with ⟨hzero, hfold⟩ | ⟨hone, hfold⟩ | ⟨p, d, hpd, htwo, hends, hfold⟩
  · rw [hfold, hsimple, Item.Whole]
    simp [hzero]
  · rw [hfold, hsimple, Item.Whole]
    simp [hone]
  · rw [hpd, List.foldl_append, hfold, Item.Whole, hpd]
    constructor
    · intro hfinal
      have ht := not_later hfinal (List.prefix_refl _)
      rw [trim_append_left hcurrent, restored_iff] at ht
      obtain ⟨rfl, htrim, hsingle⟩ := ht
      rw [List.append_nil]
      exact ⟨htrim, hsingle, .inr ⟨htwo, hends⟩⟩
    · rintro ⟨htrim, hsingle, hquotes⟩
      obtain rfl := eq_nil_of_whole htwo hquotes
      rw [List.append_nil] at htrim hsingle
      rw [List.append_nil, List.foldl_nil, finish, if_neg (by simp), normal_eq_self hsingle,
        trim_append_left hcurrent, htrim]

/-- The tokens come back if and only if they are kept apart. -/
theorem tokens_joined {items : List Item} (hne : items ≠ []) : ∀ {tokens : List Text} {current : Text},
    tokens.head? ≠ some VAR_DECLARATION → (∀ c ∈ current, isWhite c = true) →
    (tokens = [] → (items.head hne).rendered ≠ VAR_DECLARATION) →
    ((finish noVariables ((joined items).foldl (step noVariables) ⟨⟨tokens, false, false, false⟩, current⟩)).tokens =
      tokens ++ items.map Item.rendered ↔ Kept items) := by
  induction items with
  | nil => exact absurd rfl hne
  | cons item rest ih =>
    intro tokens current h hcurrent hfirst
    by_cases hrest : rest = []
    · subst hrest
      exact tokens_single h hcurrent item
    · obtain ⟨k, hk⟩ : ∃ k, item.blanks = k + 1 := Nat.exists_eq_add_one.mpr item.separated
      have hhead : (tokens ++ [item.rendered]).head? ≠ some VAR_DECLARATION := by
        cases tokens with
        | nil => simpa using hfirst rfl
        | cons t tokens => exact h
      -- behind the token, and the first blank
      have hnext : ∀ {current' : Text}, (∀ c ∈ current', isWhite c = true) →
          ((finish noVariables ((List.replicate k ' ' ++ joined rest).foldl (step noVariables)
            ⟨⟨tokens ++ [item.rendered], false, false, false⟩, current'⟩)).tokens =
              tokens ++ item.rendered :: rest.map Item.rendered ↔ k = 0 ∧ Kept rest) := by
        intro current' hcurrent'
        have hsplit : tokens ++ item.rendered :: rest.map Item.rendered =
            tokens ++ [item.rendered] ++ rest.map Item.rendered := List.append_cons _ _ _
        rw [hsplit]
        cases k with
        | zero =>
          rw [List.replicate_zero, List.nil_append, ih hrest hhead hcurrent' (by simp)]
          simp
        | succ k =>
          obtain ⟨next, rest, rfl⟩ := List.exists_cons_of_ne_nil hrest
          refine iff_of_false (fun hfinal => ?_) (by simp)
          rw [List.replicate_succ, List.cons_append, List.foldl_cons, step_blank, trim_of_white hcurrent',
            List.map_cons] at hfinal
          have hempty : [] = next.rendered := not_later hfinal (List.prefix_refl _)
          exact next.rendered_ne_nil hempty.symm
      rw [joined_cons item rest hrest, kept_cons item hrest, List.map_cons, hk, List.replicate_succ,
        List.append_assoc, List.cons_append]
      rcases foldl_rendered h item current with ⟨hzero, hfold⟩ | ⟨hone, hfold⟩ | ⟨p, d, hpd, htwo, hends, hfold⟩
      · have hrestored := restored_iff item.rendered []
        rw [List.append_nil] at hrestored
        rw [List.foldl_append, hfold, List.foldl_cons, step_blank, trim_append_left hcurrent]
        by_cases hr : trim (normal item.rendered) = item.rendered
        · rw [hr, hnext (by simp)]
          obtain ⟨_, htrim, hsingle⟩ := hrestored.mp hr
          simp [Item.Whole, hzero, htrim, hsingle]
        · refine iff_of_false (fun hfinal => hr (not_later hfinal (List.prefix_refl _))) ?_
          exact fun hkept => hr (hrestored.mpr ⟨rfl, hkept.1.1, hkept.1.2.1⟩)
      · refine iff_of_false (fun hfinal => ?_) fun hkept => hkept.2.1 hone
        have hquotes : quotes (current ++ normal item.rendered) = 1 := by
          rw [quotes_append, quotes_of_white hcurrent, quotes_normal, hone]
        rw [List.foldl_append, hfold] at hfinal
        obtain ⟨next, rest, rfl⟩ := List.exists_cons_of_ne_nil hrest
        rcases finish_opened h hquotes (' ' :: (List.replicate k ' ' ++ joined (next :: rest))) with
          ⟨t, ht⟩ | ⟨t, ht, htwo⟩
        · have hlen := congrArg List.length (ht.symm.trans hfinal)
          simp only [List.length_append, List.length_cons, List.length_map, List.length_nil] at hlen
          omega
        · rw [hfinal, List.prefix_append_right_inj] at ht
          rw [(List.cons_prefix_cons.mp ht).1, hone] at htwo
          cases htwo
      · rw [hpd, List.append_assoc, List.foldl_append, hfold, trim_append_left hcurrent, ← hpd]
        by_cases hr : trim (normal p) = item.rendered
        · obtain ⟨rfl, htrim, hsingle⟩ := (restored_iff p d).mp (hr.trans hpd)
          rw [List.append_nil] at hpd
          rw [List.nil_append, hr, List.foldl_cons, step_behind_quote, hnext (by simp [isWhite])]
          simp [Item.Whole, hpd, htwo, hends, htrim, hsingle]
        · refine iff_of_false (fun hfinal => hr (not_later hfinal (List.prefix_refl _))) ?_
          rintro ⟨⟨htrim, hsingle, hquotes⟩, _⟩
          rw [hpd] at hquotes
          obtain rfl := eq_nil_of_whole htwo hquotes
          rw [List.append_nil] at hpd
          rw [hpd] at htrim hsingle hr
          exact hr (((restored_iff p []).mpr ⟨rfl, htrim, hsingle⟩).trans (List.append_nil p))

/-! ## The lines -/

/-- The tokens come back, as long as none of them is a variable. -/
def RoundTrip (evaluate : Variables → Text → Option Text) (items : List Item) : Prop :=
  ∀ vars, (∀ item ∈ items, Line.valueOf vars item.rendered = item.rendered) →
    parseLine evaluate vars (joined items) = .parsed (items.map Item.rendered) vars

/-- The line is neither blank nor a comment nor a definition, and its tokens are kept apart. -/
def Regular (items : List Item) : Prop :=
  items = [] ∨ (isBlank (joined items) = false ∧ (joined items).head? ≠ some '#' ∧
    ¬ VAR_DECLARATION <+: joined items) ∧ Kept items

theorem joined_starts (item : Item) (rest : List Item) : item.rendered <+: joined (item :: rest) := by
  cases rest with
  | nil => exact List.prefix_refl _
  | cons next rest =>
    rw [joined_cons item _ (List.cons_ne_nil _ _), List.append_assoc]
    exact List.prefix_append _ _

theorem parse_joined {items : List Item} (hne : items ≠ []) (hdef : ¬ VAR_DECLARATION <+: joined items) :
    (parse noVariables (joined items)).tokens = items.map Item.rendered ↔ Kept items := by
  refine tokens_joined hne (by simp) (by simp) fun _ heq => ?_
  obtain ⟨item, rest, rfl⟩ := List.exists_cons_of_ne_nil hne
  rw [List.head_cons] at heq
  refine hdef ?_
  rw [← heq]
  exact joined_starts item rest

theorem joined_ne_nil {items : List Item} (hne : items ≠ []) : joined items ≠ [] := by
  obtain ⟨item, rest, rfl⟩ := List.exists_cons_of_ne_nil hne
  intro hnil
  have hstarts := joined_starts item rest
  rw [hnil, List.prefix_nil] at hstarts
  exact item.rendered_ne_nil hstarts

/-- What is done with a line of commands. -/
theorem parseLine_command {evaluate : Variables → Text → Option Text} {vars : Variables} {line : Text}
    (heval : evaluate vars line = some line) (hcomment : ¬ (line.head? = some '#' ∨ isBlank line))
    (hdef : ¬ VAR_DECLARATION <+: line) (htokens : (parse vars line).tokens ≠ []) :
    parseLine evaluate vars line = .parsed (parse vars line).tokens vars := by
  rw [parseLine, if_neg hcomment]
  simp only [heval, if_neg hdef, htokens, false_and, if_false]

theorem regular_iff {evaluate : Variables → Text → Option Text} {items : List Item}
    (heval : ∀ vars, evaluate vars (joined items) = some (joined items)) :
    RoundTrip evaluate items ↔ Regular items := by
  by_cases hne : items = []
  · subst hne
    refine iff_of_true (fun vars _ => ?_) (.inl rfl)
    rw [parseLine, if_pos (.inr isBlank_nil)]
    rfl
  · have hargs : items.map Item.rendered ≠ [] := by simpa using hne
    constructor
    · intro h
      have hline := h noVariables fun item _ => valueOf_noVariables _
      by_cases hcomment : (joined items).head? = some '#' ∨ isBlank (joined items)
      · rw [parseLine, if_pos hcomment, Outcome.parsed.injEq] at hline
        exact absurd hline.1.symm hargs
      · by_cases hdef : VAR_DECLARATION <+: joined items
        · rw [parseLine, if_neg hcomment] at hline
          simp only [heval, if_pos hdef] at hline
          split at hline
          · cases hline
          · split at hline
            · cases hline
            · rw [Outcome.parsed.injEq] at hline
              exact absurd hline.1.symm hargs
        · rw [parseLine_command (heval _) hcomment hdef (parse_ne_nil (joined_ne_nil hne)), Outcome.parsed.injEq,
            parse_joined hne hdef] at hline
          rw [not_or, Bool.not_eq_true] at hcomment
          exact .inr ⟨⟨hcomment.2, hcomment.1, hdef⟩, hline.1⟩
    · intro h vars hvars
      obtain ⟨⟨hblank, hcomment, hdef⟩, hkept⟩ := h.resolve_left hne
      have htokens := (parse_joined hne hdef).mpr hkept
      have hparse : (parse vars (joined items)).tokens = items.map Item.rendered := by
        rw [← htokens]
        refine parse_of_fixed vars fun t ht => ?_
        rw [htokens] at ht
        obtain ⟨item, hitem, rfl⟩ := List.mem_map.mp ht
        exact hvars item hitem
      rw [parseLine_command (heval vars) (by simp [hcomment, hblank]) hdef (by rwa [hparse]), hparse]

/-- Which lists of tokens come back, and which lines give neither an index error nor an empty token, if
the variables have no part in their expressions. -/
theorem batch_lines_iff (evaluate : Variables → Text → Option Text) (items : List Item)
    (command : Text) (result : Option Text)
    (hitems : ∀ vars, evaluate vars (joined items) = some (joined items))
    (hcommand : ∀ vars, evaluate vars command = result) :
    (RoundTrip evaluate items ↔ Regular items) ∧
      (Sound evaluate command ↔
        Skipped command ∨ ∀ line, result = some line → WellFormed line) :=
  ⟨regular_iff hitems, rawSound_iff hcommand⟩

/-- Two tokens with two blanks between them. -/
def sampleItems : List Item :=
  [⟨['a'], 2, List.cons_ne_nil _ _, by decide⟩, ⟨['b'], 1, List.cons_ne_nil _ _, by decide⟩]

/-- Without expressions. -/
def literal (_ : Variables) (line : Text) : Option Text := some line

/-- The first token is a word, the second one holds a blank. -/
def keptItems : List Item :=
  [⟨"name".toList, 1, by decide, by decide⟩, ⟨"my site".toList, 1, by decide, by decide⟩]

/-- They come back, and so does a line with a word behind each of two quoted ones. -/
theorem kept_tokens_parsed :
    RoundTrip literal keptItems ∧ Sound literal "a 'b c' \"d e\" f".toList := by
  have hkept : Kept keptItems := by
    refine ⟨⟨rfl, by decide, .inl (by decide)⟩, by decide, rfl, rfl, by decide, .inr (by decide)⟩
  have hregular : Regular keptItems := .inr ⟨⟨rfl, by decide, by decide⟩, hkept⟩
  have hclean : WellFormed "a 'b c' \"d e\" f".toList := by
    unfold WellFormed
    rw [if_neg (by decide), clean_iff]
    unfold Fine
    decide +kernel
  obtain ⟨htrip, hsound⟩ := batch_lines_iff literal keptItems "a 'b c' \"d e\" f".toList _
    (fun _ => rfl) (fun _ => rfl)
  refine ⟨htrip.mpr hregular, hsound.mpr (.inr fun line hline => ?_)⟩
  rw [← Option.some.inj hline]
  exact hclean

/-- The second blank gives an empty token. -/
theorem two_blanks_empty_token :
    parseLine literal noVariables (joined sampleItems) = .parsed [['a'], [], ['b']] noVariables ∧
      ¬ RoundTrip literal sampleItems ∧ ¬ Sound literal (joined sampleItems) := by
  have hline : parseLine literal noVariables (joined sampleItems) =
      .parsed [['a'], [], ['b']] noVariables := by
    rfl
  refine ⟨hline, fun h => ?_, fun h => ?_⟩
  · have hback := h noVariables fun item _ => valueOf_noVariables _
    rw [hline, Outcome.parsed.injEq] at hback
    cases hback.1
  · have hgood := h noVariables
    rw [hline] at hgood
    exact hgood (by simp)

end BatchLines
end Cli
end AppNG
