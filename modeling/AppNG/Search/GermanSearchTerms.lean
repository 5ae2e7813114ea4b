import AppNG.Lib.QueryGrammar
import AppNG.Lib.Words

/-!
# Search.GermanSearchTerms

`GermanSearchTermProcessor.getSearchTerm`: the query made of the words that a visitor enters.

The connective is written before it is known whether a token has a clause. A token with umlauts is copied without
them, and what is left of the query syntax in it is copied, too.

* `read_clause`: a term makes a clause, unless what is copied next to it is no query.
* `accepts_rest`: what the tokens behind the first one have to be like.
* `isConjunction_iff`: when the result is a conjunction of one clause per token that is mapped or has a term.
-/

namespace AppNG
namespace Search

open QueryGrammar

def charsToRemove : List Char :=
  ['!', '?', '.', ',', '<', '>', '\x7b', '\x7d', '[', ']', '+', '-', '*', '/', '\\', '&', '|', '=', '%', '$', '§', '#']

/-- The processor with what it is given: the analyzer, the mapping, and the lower case of the platform's locale. -/
structure GermanSearchTermProcessor where
  /-- The terms of a token; none for a stop word. -/
  terms : List Char → List (List Char)
  /-- As letters and digits, their characters are no blanks and no query syntax. -/
  terms_plain : ∀ token, ∀ term ∈ terms token, term ≠ [] ∧ ∀ c ∈ term, isTermStart c = true
  searchTerms : List Char → Option (List Char)
  searchTerms_query : ∀ token value, searchTerms token = some value → IsQuery value
  toLowerCase : List Char → List Char
  /-- Only letters are brought in. -/
  toLowerCase_unescaped : ∀ text c, c ∈ toLowerCase text → c ∈ text ∨ isUnescaped c = true

namespace GermanSearchTermProcessor

def umlauts : List Char := ['ä', 'ö', 'ü', 'ß']

def hasUmlaut (searchWord : List Char) : Bool := searchWord.any umlauts.contains

def removeUmlaut : Char → List Char
  | 'ä' => ['a']
  | 'ö' => ['o']
  | 'ü' => ['u']
  | 'ß' => ['s', 's']
  | c => [c]

def removeUmlauts (term : List Char) : List Char := term.flatMap removeUmlaut

/-- The delimiters of a `StringTokenizer`. -/
def isDelimiter (c : Char) : Bool := [' ', '\t', '\n', '\r', '\x0c'].contains c

def append (searchTerm : List Char) (count : Nat) (string : List Char) : List Char :=
  if count ≠ 0 then searchTerm ++ string else searchTerm

def AND : List Char := [' ', 'A', 'N', 'D', ' ']

def OR : List Char := [' ', 'O', 'R', ' ']

/-- What stands next to a term. -/
def alternative (token stemmedSearchWord : List Char) : List Char :=
  if hasUmlaut token then removeUmlauts token else stemmedSearchWord

def clause (token stemmedSearchWord : List Char) : List Char :=
  ['(', '*'] ++ stemmedSearchWord ++ OR ++ alternative token stemmedSearchWord ++ ['*', ')']

variable (p : GermanSearchTermProcessor)

def cleanSearchWord (term : List Char) : List Char :=
  p.toLowerCase (charsToRemove.foldl (fun term replacement => term.filter (· != replacement)) term)

def tokens (searchWord : List Char) : List (List Char) := Words.words isDelimiter (p.cleanSearchWord searchWord)

def appendTerm (searchWord token searchTerm stemmedSearchWord : List Char) : List Char :=
  if stemmedSearchWord ≠ [] then searchTerm ++ clause token stemmedSearchWord else searchTerm ++ searchWord

def appendToken (searchWord : List Char) : List Char × Nat → List Char → List Char × Nat
  | (searchTerm, count), token =>
    let searchTerm := append searchTerm count AND
    match p.searchTerms token with
    | some value => (append (append searchTerm count ['('] ++ value) count [')'], count + 1)
    | none => ((p.terms token).foldl (appendTerm searchWord token) searchTerm, count + 1)

def getSearchTerm (searchWord : List Char) : List Char :=
  ((p.tokens searchWord).foldl (p.appendToken (p.cleanSearchWord searchWord)) ([], 0)).1

/-! ## The specification -/

/-- There should be a clause for the token. -/
def yields (token : List Char) : Bool := (p.searchTerms token).isSome || !(p.terms token).isEmpty

/-- The token is copied, but for the umlauts. -/
def Copied (token : List Char) : Prop :=
  p.searchTerms token = none ∧ p.terms token ≠ [] ∧ hasUmlaut token = true

structure IsConjunction (searchWord : List Char) : Prop where
  clauses : conjunction (p.getSearchTerm searchWord) = some ((p.tokens searchWord).countP p.yields)
  balanced : ∀ token ∈ p.tokens searchWord, p.Copied token → Balanced (removeUmlauts token)

structure SoundText (searchWord : List Char) : Prop where
  /-- What is copied is a query. -/
  copied : ∀ token ∈ p.tokens searchWord, p.Copied token → IsQuery (removeUmlauts token ++ ['*'])
  single : ∀ token ∈ p.tokens searchWord, p.searchTerms token = none → (p.terms token).length ≤ 1
  /-- There is nothing to connect, or every token has a clause. -/
  connected : (p.tokens searchWord).length ≤ 1 ∨ ∀ token ∈ p.tokens searchWord, p.yields token = true
  /-- The value that gets no parentheses needs none. -/
  first : ∀ token value, (p.tokens searchWord).head? = some token → p.searchTerms token = some value →
    conjunction value = some 1

/-! ## The pieces of the result -/

/-- What a token adds behind the connective. -/
def piece (token : List Char) : List Char :=
  match p.searchTerms token with
  | some value => '(' :: (value ++ [')'])
  | none => (p.terms token).flatMap (clause token)

/-- The same for the first token. -/
def firstPiece (token : List Char) : List Char := (p.searchTerms token).getD (p.piece token)

def rest (tokens : List (List Char)) : List Char := tokens.flatMap fun token => AND ++ p.piece token

variable {p}

theorem foldl_appendTerm (searchWord token : List Char) {stemmed : List (List Char)} (h : ∀ term ∈ stemmed, term ≠ [])
    (searchTerm : List Char) :
    stemmed.foldl (appendTerm searchWord token) searchTerm = searchTerm ++ stemmed.flatMap (clause token) := by
  induction stemmed generalizing searchTerm with
  | nil => simp
  | cons term stemmed ih =>
    have hne : term ≠ [] := h term List.mem_cons_self
    rw [List.foldl_cons, ih fun t ht => h t (List.mem_cons_of_mem term ht), appendTerm, if_pos hne,
      List.flatMap_cons, List.append_assoc]

theorem appendToken_later (searchWord searchTerm token : List Char) (count : Nat) :
    p.appendToken searchWord (searchTerm, count + 1) token = (searchTerm ++ (AND ++ p.piece token), count + 2) := by
  have hplain := foldl_appendTerm searchWord token
    fun term hterm => (p.terms_plain token term hterm).1
  cases hmapped : p.searchTerms token with
  | some value => simp [appendToken, append, piece, hmapped]
  | none => simp [appendToken, append, piece, hmapped, hplain]

theorem appendToken_first (searchWord token : List Char) :
    p.appendToken searchWord ([], 0) token = (p.firstPiece token, 1) := by
  have hplain := foldl_appendTerm searchWord token
    fun term hterm => (p.terms_plain token term hterm).1
  cases hmapped : p.searchTerms token with
  | some value => simp [appendToken, append, firstPiece, hmapped]
  | none => simp [appendToken, append, firstPiece, piece, hmapped, hplain]

theorem foldl_appendToken (searchWord : List Char) (tokens : List (List Char)) (searchTerm : List Char) (count : Nat) :
    (tokens.foldl (p.appendToken searchWord) (searchTerm, count + 1)).1 = searchTerm ++ p.rest tokens := by
  induction tokens generalizing searchTerm count with
  | nil => simp [rest]
  | cons token tokens ih =>
    rw [List.foldl_cons, appendToken_later, ih, rest, rest, List.flatMap_cons, List.append_assoc]

theorem getSearchTerm_eq {searchWord token : List Char} {tokens : List (List Char)}
    (h : p.tokens searchWord = token :: tokens) :
    p.getSearchTerm searchWord = p.firstPiece token ++ p.rest tokens := by
  rw [getSearchTerm, h, List.foldl_cons, appendToken_first, foldl_appendToken]

/-! ## Reading the pieces -/

/-- What is copied may be followed by a wildcard. -/
def Suits (token : List Char) : Prop := hasUmlaut token = true → IsQuery (removeUmlauts token ++ ['*'])

/-- The token has exactly one clause. -/
def Good (p : GermanSearchTermProcessor) (token : List Char) : Prop :=
  (p.searchTerms token).isSome = true ∨ (p.terms token).length = 1 ∧ Suits token

theorem read_clause {q : Parser} {token term : List Char} (hterm : term ∈ p.terms token)
    (hclosed : hasUmlaut token = true → Closed (removeUmlauts token ++ ['*'])) :
    (Suits token → read (q, .gap) (clause token term) = some (q.operand (.more false true false), .gap)) ∧
      (¬ Suits token → read (q, .gap) (clause token term) = none) := by
  obtain ⟨hne, hplain⟩ := p.terms_plain token term hterm
  have hsplit : clause token term =
      '(' :: (('*' :: (term ++ [' ', 'O', 'R', ' '])) ++ ((alternative token term ++ ['*']) ++ [')'])) := by
    simp [clause, OR]
  have hquery : IsQuery (term ++ ['*']) := isQuery_wildcard hne hplain
  have halt : Closed (alternative token term ++ ['*']) := by
    unfold alternative
    split
    · rename_i humlaut
      exact hclosed humlaut
    · exact Closed.of_isQuery hquery
  rw [hsplit, read_alternatives q (lex_alternative hne hplain) halt]
  have hsuits : Suits token ↔ IsQuery (alternative token term ++ ['*']) := by
    unfold Suits alternative
    cases hasUmlaut token with
    | true => simp
    | false => simp [hquery]
  rw [hsuits, IsQuery]
  cases query (alternative token term ++ ['*']) with
  | none => simp
  | some r => simp

theorem read_value (q : Parser) {token value : List Char} (h : p.searchTerms token = some value) :
    read (q, .gap) ('(' :: (value ++ [')'])) = some (q.operand (.more false true false), .gap) := by
  have hquery := p.searchTerms_query token value h
  obtain ⟨r, hr⟩ := Option.isSome_iff_exists.mp hquery
  rw [read_group q (Closed.of_isQuery hquery), hr]
  rfl

/-! ## The tokens behind the first one -/

/-- A clause that is joined by `AND`, outside all parentheses. -/
theorem operand_of_clause {q : Parser} (hexpected : q.expected = .clause) (hdepth : q.depth = 0) (e : Expected) :
    q.operand e = { expected := e, depth := 0, clauses := q.clauses + 1, conjunctive := q.conjunctive } := by
  simp [Parser.operand, Parser.count, Parser.top, hexpected, hdepth]

theorem not_conjunctive_operand {q : Parser} (hq : q.complete = true) (e : Expected) :
    (q.operand e).conjunctive = false := by
  obtain ⟨hdepth, field, boost, fuzzy, hexpected⟩ := complete_eq_true.mp hq
  simp [Parser.operand, Parser.count, Parser.top, hexpected, hdepth]

/-- The terms of a token make one clause if there is one term and what is copied suits. -/
theorem accepts_terms {q : Parser} (hexpected : q.expected = .clause) (hdepth : q.depth = 0) {token : List Char}
    (hclosed : hasUmlaut token = true → Closed (removeUmlauts token ++ ['*'])) (hne : p.terms token ≠ [])
    (text : List Char) (n : Nat) :
    Accepts q ((p.terms token).flatMap (clause token) ++ text) n ↔
      ((p.terms token).length = 1 ∧ Suits token) ∧ Accepts (q.operand (.more false true false)) text n := by
  obtain ⟨term, terms, hterms⟩ := List.exists_cons_of_ne_nil hne
  obtain ⟨hgood, hbad⟩ := read_clause (q := q) (hterms ▸ List.mem_cons_self) hclosed
  rw [hterms, List.flatMap_cons, List.append_assoc]
  by_cases hsuits : Suits token
  · rw [accepts_append (hgood hsuits)]
    cases terms with
    | nil => simp [hsuits]
    | cons term' terms =>
      refine iff_of_false ?_ (by simp)
      have hmem : term' ∈ p.terms token := by simp [hterms]
      have hcomplete : (q.operand (.more false true false)).complete = true := by
        rw [operand_of_clause hexpected hdepth]
        rfl
      -- the second clause is not joined to the first one
      rw [List.flatMap_cons, List.append_assoc, accepts_append ((read_clause hmem hclosed).1 hsuits)]
      intro haccepts
      have hconj := (accepts_mono haccepts).1
      rw [not_conjunctive_operand hcomplete] at hconj
      cases hconj
  · exact iff_of_false (not_accepts_append (hbad hsuits) _ n) fun h => hsuits h.1.2

/-- One clause more, if the token is good. -/
theorem accepts_piece {q : Parser} (hexpected : q.expected = .clause) (hdepth : q.depth = 0) {token : List Char}
    (hclosed : p.Copied token → Closed (removeUmlauts token ++ ['*'])) (hyields : p.yields token = true)
    (text : List Char) (n : Nat) :
    Accepts q (p.piece token ++ text) n ↔ Good p token ∧ Accepts (q.operand (.more false true false)) text n := by
  unfold piece Good
  cases hmapped : p.searchTerms token with
  | some value =>
    rw [accepts_append (read_value q hmapped)]
    simp
  | none =>
    have hne : p.terms token ≠ [] := by simpa [yields, hmapped] using hyields
    simp [accepts_terms hexpected hdepth (fun humlaut => hclosed ⟨hmapped, hne, humlaut⟩) hne]

theorem piece_of_not_yields {token : List Char} (h : p.yields token = false) : p.piece token = [] := by
  have hboth : p.searchTerms token = none ∧ p.terms token = [] := by simpa [yields] using h
  simp [piece, hboth]

theorem yields_of_good {token : List Char} (h : Good p token) : p.yields token = true := by
  rcases h with h | ⟨h, -⟩
  · simp [yields, h]
  · have hne : p.terms token ≠ [] := List.ne_nil_of_length_eq_add_one h
    simp [yields, hne]

/-- The connective needs a clause in front of it. -/
theorem not_accepts_and {q : Parser} (hexpected : q.expected = .clause) (text : List Char) (n : Nat) :
    ¬ Accepts q (AND ++ text) n := by
  refine not_accepts_append ?_ text n
  have hread := read_and q
  simp only [Parser.step, hexpected] at hread
  exact hread

theorem accepts_rest {tokens : List (List Char)}
    (hclosed : ∀ token ∈ tokens, p.Copied token → Closed (removeUmlauts token ++ ['*'])) {q : Parser}
    (hq : q.complete = true) (n : Nat) :
    Accepts q (p.rest tokens) n ↔
      q.conjunctive = true ∧ n = q.clauses + tokens.length ∧ ∀ token ∈ tokens, Good p token := by
  induction tokens generalizing q with
  | nil =>
    show Accepts q [] n ↔ _
    rw [accepts_nil]
    exact ⟨fun h => ⟨h.2.1, h.2.2.symm, by simp⟩, fun h => ⟨hq, h.1, h.2.1.symm⟩⟩
  | cons token tokens ih =>
    obtain ⟨hdepth, field, boost, fuzzy, hexpected⟩ := complete_eq_true.mp hq
    have hand : read (q, .gap) AND = some ({ q with expected := .clause }, .gap) := by
      have hread := read_and q
      simp only [Parser.step, hexpected] at hread
      exact hread
    have hrest : p.rest (token :: tokens) = AND ++ (p.piece token ++ p.rest tokens) := by
      rw [rest, List.flatMap_cons, List.append_assoc]
      rfl
    rw [hrest, accepts_append hand]
    cases hyields : p.yields token with
    | false =>
      rw [piece_of_not_yields hyields, List.nil_append]
      refine iff_of_false ?_ fun h => ?_
      · cases tokens with
        | nil =>
          rintro haccepts
          obtain ⟨hcomplete, -⟩ := accepts_nil.mp haccepts
          simp [Parser.complete] at hcomplete
        | cons token' tokens =>
          rw [rest, List.flatMap_cons, List.append_assoc]
          exact not_accepts_and rfl _ n
      · have hgood := yields_of_good (h.2.2 token List.mem_cons_self)
        rw [hyields] at hgood
        cases hgood
    | true =>
      have hnext : ({ q with expected := .clause } : Parser).operand (.more false true false) =
          { expected := .more false true false, depth := 0, clauses := q.clauses + 1, conjunctive := q.conjunctive } :=
        operand_of_clause (q := { q with expected := .clause }) rfl hdepth _
      rw [accepts_piece (q := { q with expected := .clause }) rfl hdepth (hclosed token List.mem_cons_self) hyields,
        hnext,
        ih (fun t ht => hclosed t (List.mem_cons_of_mem token ht)) rfl]
      simp only [List.length_cons, List.forall_mem_cons]
      have hsum : n = q.clauses + 1 + tokens.length ↔ n = q.clauses + (tokens.length + 1) := by omega
      rw [hsum]
      exact ⟨fun h => ⟨h.2.1, h.2.2.1, h.1, h.2.2.2⟩, fun h => ⟨h.2.2.1, h.1, h.2.1, h.2.2.2⟩⟩

/-! ## The whole text -/

theorem mem_cleanSearchWord {searchWord : List Char} {c : Char} (h : c ∈ p.cleanSearchWord searchWord) :
    isUnescaped c = true := by
  rcases p.toLowerCase_unescaped _ c h with h | h
  · simp only [charsToRemove, List.foldl_cons, List.foldl_nil, List.mem_filter, bne_iff_ne] at h
    simp [isUnescaped, h]
  · exact h

theorem isUnescaped_removeUmlaut {c d : Char} (hc : isUnescaped c = true) (hd : d ∈ removeUmlaut c) :
    isUnescaped d = true := by
  unfold removeUmlaut at hd
  split at hd
  case h_5 => exact List.mem_singleton.mp hd ▸ hc
  all_goals simp at hd; subst hd; decide

theorem unescaped_of_mem_tokens {searchWord token : List Char} (h : token ∈ p.tokens searchWord) :
    ∀ c ∈ removeUmlauts token ++ ['*'], isUnescaped c = true := by
  intro c hc
  rcases List.mem_append.mp hc with hc | hc
  · obtain ⟨d, hd, hmem⟩ := List.mem_flatMap.mp hc
    exact isUnescaped_removeUmlaut (mem_cleanSearchWord (Words.mem_of_mem_words h hd)) hmem
  · obtain rfl := List.mem_singleton.mp hc
    decide

theorem balanced_star {text : List Char} : Balanced (text ++ ['*']) ↔ Balanced text := by
  have hstar (s : Nat × Bool) : nestChar s '*' = some s := by
    obtain ⟨depth, quoted⟩ := s
    cases quoted <;> rfl
  have hnest : nest (0, false) (text ++ ['*']) = nest (0, false) text := by
    rw [nest, List.foldlM_append]
    cases h : List.foldlM nestChar (0, false) text with
    | none => simp [nest, h]
    | some s => simp [nest, h, hstar]
  rw [QueryGrammar.Balanced, QueryGrammar.Balanced, hnest]

/-- What is copied can only be read as it should be if its parentheses and quotes are balanced. -/
theorem closed_of_balanced {searchWord token : List Char} (h : token ∈ p.tokens searchWord)
    (hbalanced : Balanced (removeUmlauts token)) : Closed (removeUmlauts token ++ ['*']) :=
  Closed.of_balanced (unescaped_of_mem_tokens h) (balanced_star.mpr hbalanced)

theorem balanced_of_suits {searchWord token : List Char} (h : token ∈ p.tokens searchWord)
    (hquery : IsQuery (removeUmlauts token ++ ['*'])) : Balanced (removeUmlauts token) :=
  balanced_star.mp (balanced_of_isQuery (unescaped_of_mem_tokens h) hquery)

theorem tokens_ne_nil_of_lex {as bs : List Char} {l : Lexeme} {ts : List Token} (h : lex .gap as = some (ts, l))
    (hne : ts ≠ []) : QueryGrammar.tokens (as ++ bs) ≠ some [] := by
  intro hnil
  obtain ⟨⟨us, m⟩, hlex, hmap⟩ := Option.bind_eq_some_iff.mp hnil
  obtain ⟨vs, -, heq⟩ := Option.map_eq_some_iff.mp hmap
  obtain ⟨us', m', vs', hus', -, heq'⟩ := lex_append_eq_some.mp hlex
  rw [h] at hus'
  cases hus'
  rw [heq'] at heq
  simp [hne] at heq

/-- A query in front of the connective is read like a clause before it, with all its clauses. -/
theorem accepts_query {text : List Char} {q : Parser} (h : query text = some q) {tokens : List (List Char)}
    (hne : tokens ≠ []) (n : Nat) : Accepts {} (text ++ p.rest tokens) n ↔ Accepts q (p.rest tokens) n := by
  obtain ⟨token, others, rfl⟩ := List.exists_cons_of_ne_nil hne
  obtain ⟨tail, htail⟩ : ∃ tail, p.rest (token :: others) = [' '] ++ tail := ⟨_, rfl⟩
  have hspace : read (q, .gap) [' '] = some (q, .gap) := rfl
  rw [htail, ← List.append_assoc, accepts_append (read_query h), accepts_append hspace]

theorem good_iff {token : List Char} (h : p.yields token = true) :
    Good p token ↔ (p.Copied token → IsQuery (removeUmlauts token ++ ['*'])) ∧
      (p.searchTerms token = none → (p.terms token).length ≤ 1) := by
  unfold Good Copied Suits
  cases hmapped : p.searchTerms token with
  | some value => simp
  | none =>
    have hne : p.terms token ≠ [] := by simpa [yields, hmapped] using h
    have hlength : (p.terms token).length = 1 ↔ (p.terms token).length ≤ 1 := by
      have hpos := List.length_pos_iff.mpr hne
      omega
    simp [hne, hlength, and_comm]

theorem sound_tokens_iff {searchWord token : List Char} {tokens : List (List Char)}
    (h : p.tokens searchWord = token :: tokens) :
    p.SoundText searchWord ↔
      (∀ value, p.searchTerms token = some value → conjunction value = some 1) ∧
        (p.yields token = true → Good p token) ∧
        (tokens ≠ [] → p.yields token = true ∧ ∀ token ∈ tokens, Good p token) := by
  constructor
  · intro hsound
    have hgood : ∀ t ∈ token :: tokens, p.yields t = true → Good p t := fun t ht hyields =>
      (good_iff hyields).mpr ⟨hsound.copied t (h ▸ ht), hsound.single t (h ▸ ht)⟩
    refine ⟨fun value => hsound.first token value (by rw [h]; rfl), hgood token List.mem_cons_self, fun hne => ?_⟩
    rcases hsound.connected with hlength | hall
    · rw [h, List.length_cons] at hlength
      have hpos := List.length_pos_iff.mpr hne
      omega
    · rw [h] at hall
      refine ⟨hall token List.mem_cons_self, fun t ht => ?_⟩
      have hmem : t ∈ token :: tokens := List.mem_cons_of_mem token ht
      exact hgood t hmem (hall t hmem)
  · rintro ⟨hfirst, hgood, hrest⟩
    have hall : ∀ t ∈ p.tokens searchWord, p.yields t = true → Good p t := by
      intro t ht hyields
      rw [h] at ht
      rcases List.mem_cons.mp ht with rfl | ht
      · exact hgood hyields
      · exact (hrest (List.ne_nil_of_mem ht)).2 t ht
    refine ⟨fun t ht hcopied => ?_, fun t ht hmapped => ?_, ?_, fun t value ht => ?_⟩
    · have hyields : p.yields t = true := by simp [yields, hcopied.2.1]
      exact ((good_iff hyields).mp (hall t ht hyields)).1 hcopied
    · cases hyields : p.yields t with
      | true => exact ((good_iff hyields).mp (hall t ht hyields)).2 hmapped
      | false =>
        have hnil : p.searchTerms t = none ∧ p.terms t = [] := by simpa [yields] using hyields
        simp [hnil]
    · rw [h]
      cases tokens with
      | nil => exact Or.inl (Nat.le_refl 1)
      | cons t ts =>
        obtain ⟨hyields, htail⟩ := hrest (List.cons_ne_nil t ts)
        exact Or.inr (List.forall_mem_cons.mpr ⟨hyields, fun t ht => yields_of_good (htail t ht)⟩)
    · rw [h, List.head?_cons, Option.some.injEq] at ht
      exact ht ▸ hfirst value

theorem countP_yields {tokens : List (List Char)} (h : ∀ t ∈ tokens, Good p t) :
    tokens.countP p.yields = tokens.length :=
  List.countP_eq_length.mpr fun t ht => yields_of_good (h t ht)

/-- Behind a first token without a clause a connective has nothing in front. -/
theorem conjunction_silent {token : List Char} (h : p.yields token = false) (tokens : List (List Char)) :
    conjunction (p.firstPiece token ++ p.rest tokens) = some (tokens.countP p.yields) ↔ tokens = [] := by
  have hnone : p.searchTerms token = none ∧ p.terms token = [] := by simpa [yields] using h
  have hpiece : p.firstPiece token = [] := by simp [firstPiece, piece, hnone]
  rw [hpiece, List.nil_append]
  cases tokens with
  | nil => exact iff_of_true rfl rfl
  | cons t ts =>
    refine iff_of_false ?_ (List.cons_ne_nil t ts)
    have hrest : p.rest (t :: ts) = AND ++ (p.piece t ++ p.rest ts) := by simp [rest]
    have hlex : lex .gap AND = some ([.and], .gap) := by decide
    rw [hrest, conjunction_iff]
    rintro (⟨hnil, -⟩ | haccepts)
    · exact tokens_ne_nil_of_lex hlex (List.cons_ne_nil _ _) hnil
    · exact not_accepts_and rfl _ _ haccepts

/-- What a first token is mapped to is a query of its own. -/
theorem conjunction_mapped {token value : List Char} (h : p.searchTerms token = some value) {tokens : List (List Char)}
    (hclosed : ∀ t ∈ tokens, p.Copied t → Closed (removeUmlauts t ++ ['*'])) :
    conjunction (p.firstPiece token ++ p.rest tokens) = some (tokens.countP p.yields + 1) ↔
      conjunction value = some 1 ∧ ∀ t ∈ tokens, Good p t := by
  obtain ⟨q, hq⟩ := Option.isSome_iff_exists.mp (p.searchTerms_query token value h)
  obtain ⟨-, hvalue⟩ := conjunction_of_query hq
  obtain ⟨-, -, -, hcomplete⟩ := query_eq_some.mp hq
  have hfirst : p.firstPiece token = value := by simp [firstPiece, h]
  rw [hfirst]
  cases tokens with
  | nil => simp [rest]
  | cons t ts =>
    rw [conjunction_iff, accepts_query hq (List.cons_ne_nil t ts), accepts_rest hclosed hcomplete]
    constructor
    · rintro (⟨-, hzero⟩ | ⟨hconj, hsum, hall⟩)
      · omega
      · rw [countP_yields hall] at hsum
        exact ⟨(hvalue 1).mpr ⟨hconj, by omega⟩, hall⟩
    · rintro ⟨hone, hall⟩
      obtain ⟨hconj, hclauses⟩ := (hvalue 1).mp hone
      rw [countP_yields hall]
      exact Or.inr ⟨hconj, by omega, hall⟩

theorem conjunction_terms {token : List Char} (h : p.searchTerms token = none) (hyields : p.yields token = true)
    {tokens : List (List Char)} (hclosed : ∀ t ∈ token :: tokens, p.Copied t → Closed (removeUmlauts t ++ ['*'])) :
    conjunction (p.firstPiece token ++ p.rest tokens) = some (tokens.countP p.yields + 1) ↔
      Good p token ∧ ∀ t ∈ tokens, Good p t := by
  have htail : ∀ t ∈ tokens, p.Copied t → Closed (removeUmlauts t ++ ['*']) :=
    fun t ht => hclosed t (List.mem_cons_of_mem token ht)
  have hfirst : p.firstPiece token = p.piece token := by simp [firstPiece, h]
  have hcomplete : (({} : Parser).operand (.more false true false)).complete = true := rfl
  rw [hfirst, conjunction_iff, accepts_piece rfl rfl (hclosed token List.mem_cons_self) hyields,
    accepts_rest htail hcomplete]
  constructor
  · rintro (⟨-, hzero⟩ | ⟨hgood, -, -, hall⟩)
    · omega
    · exact ⟨hgood, hall⟩
  · rintro ⟨hgood, hall⟩
    rw [countP_yields hall]
    exact Or.inr ⟨hgood, rfl, Nat.add_comm _ _, hall⟩

theorem conjunction_pieces (token : List Char) (tokens : List (List Char))
    (hclosed : ∀ t ∈ token :: tokens, p.Copied t → Closed (removeUmlauts t ++ ['*'])) :
    conjunction (p.firstPiece token ++ p.rest tokens) = some ((token :: tokens).countP p.yields) ↔
      (∀ value, p.searchTerms token = some value → conjunction value = some 1) ∧
        (p.yields token = true → Good p token) ∧
        (tokens ≠ [] → p.yields token = true ∧ ∀ token ∈ tokens, Good p token) := by
  have hrest : (tokens ≠ [] → ∀ t ∈ tokens, Good p t) ↔ ∀ t ∈ tokens, Good p t := by
    cases tokens <;> simp
  rw [List.countP_cons]
  cases hyields : p.yields token with
  | false =>
    have hnone : p.searchTerms token = none ∧ p.terms token = [] := by simpa [yields] using hyields
    rw [if_neg Bool.false_ne_true, Nat.add_zero, conjunction_silent hyields]
    simp [hnone]
  | true =>
    rw [if_pos rfl]
    cases hmapped : p.searchTerms token with
    | some value =>
      have hgood : Good p token := Or.inl (by rw [hmapped]; rfl)
      rw [conjunction_mapped hmapped fun t ht => hclosed t (List.mem_cons_of_mem token ht)]
      simp [hgood, hrest]
    | none =>
      rw [conjunction_terms hmapped hyields hclosed]
      simp [hrest]

/-- The result is as it should be if and only if the text is sound. -/
theorem isConjunction_iff (p : GermanSearchTermProcessor) (searchWord : List Char) :
    p.IsConjunction searchWord ↔ p.SoundText searchWord := by
  cases h : p.tokens searchWord with
  | nil =>
    refine iff_of_true ⟨?_, by simp [h]⟩ ⟨by simp [h], by simp [h], by simp [h], by simp [h]⟩
    rw [getSearchTerm, h]
    rfl
  | cons token tokens =>
    rw [sound_tokens_iff h]
    have hresult (hbalanced : ∀ t ∈ p.tokens searchWord, p.Copied t → Balanced (removeUmlauts t)) :=
      conjunction_pieces token tokens fun t ht hcopied =>
        closed_of_balanced (h ▸ ht) (hbalanced t (h ▸ ht) hcopied)
    constructor
    · rintro ⟨hclauses, hbalanced⟩
      rw [getSearchTerm_eq h, h] at hclauses
      exact (hresult hbalanced).mp hclauses
    · intro hsound
      have hcopied := ((sound_tokens_iff h).mpr hsound).copied
      have hbalanced : ∀ t ∈ p.tokens searchWord, p.Copied t → Balanced (removeUmlauts t) :=
        fun t ht hc => balanced_of_suits ht (hcopied t ht hc)
      refine ⟨?_, hbalanced⟩
      rw [getSearchTerm_eq h, h]
      exact (hresult hbalanced).mpr hsound

def bread : List Char := ['b', 'r', 'o', 't']

/-- Every other word is a stop word. -/
def breadProcessor : GermanSearchTermProcessor where
  terms token := if token = bread then [bread] else []
  terms_plain token term h := by
    split at h
    · obtain rfl := List.mem_singleton.mp h
      simp [bread, isTermStart, isSpace, isSpecial]
    · cases h
  searchTerms _ := none
  searchTerms_query _ _ h := nomatch h
  toLowerCase text := text
  toLowerCase_unescaped _ _ h := Or.inl h

/-- Behind a stop word at the end the connective dangles. -/
theorem stopWord_not_isConjunction : ¬ breadProcessor.IsConjunction "brot der".toList := by
  rintro ⟨hclauses, -⟩
  revert hclauses
  decide +kernel

example : breadProcessor.getSearchTerm "brot der".toList = "(*brot OR brot*) AND ".toList := by decide +kernel

end GermanSearchTermProcessor
end Search
end AppNG
