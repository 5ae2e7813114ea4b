/-!
# Lib.QueryGrammar

The query grammar of Lucene's classic query parser.

    Query  ::= Clause ( [AND | OR] Clause )*
    Clause ::= [+ | - | NOT] [field ":"] ( Operand | "(" Query ")" ["^" boost] )

An operand is a term with or without wildcards, a phrase, a regular expression or a range; a boost, a fuzziness
or both may follow. `lex` reads the characters one by one, always as the longest possible token, and `parse` reads
the tokens one by one. A parser counts the clauses that are not in parentheses.

* `nest_lex`: the parentheses and quotes of a text without escapes, regular expressions and ranges.
* `parse_inside`: what can be read on its own is read alike within parentheses.
* `read_group`, `read_alternatives`: a text in parentheses is a clause if and only if the text is a query.
* `conjunction_iff`, `accepts_append`: conjunctions are read on from the parser behind a first part.
-/

namespace AppNG
namespace QueryGrammar

/-! ## Tokens -/

inductive Token
  | and | or
  | modifier
  | lparen | rparen
  | colon
  /-- Whether it can be the name of a field. -/
  | term (field : Bool)
  | phrase
  | range
  | boost
  | fuzzy
  deriving DecidableEq

/-- What is read so far of a token. -/
inductive Lexeme
  | gap
  | term (text : List Char) (wild : Bool)
  | termEscape (text : List Char) (wild : Bool)
  | operator
  | phrase | phraseEscape
  | regex | regexEscape
  | fuzzy | fuzzyEscape
  | caret | number | point | fraction
  /-- After a number of words, within another one. -/
  | range (words : Nat) (word : List Char)
  | rangePhrase (words : Nat) | rangeEscape (words : Nat)
  deriving DecidableEq

def isSpace (c : Char) : Bool := [' ', '\t', '\n', '\r', '\u3000'].contains c

def isSpecial (c : Char) : Bool :=
  ['+', '-', '!', '(', ')', ':', '^', '[', ']', '"', '\x7b', '\x7d', '~', '*', '?', '\\', '/'].contains c

/-- What a term can start with, other than an escape or a wildcard. -/
def isTermStart (c : Char) : Bool := !isSpace c && !isSpecial c

def isTermChar (c : Char) : Bool := isTermStart c || c == '+' || c == '-'

def isWildcard (c : Char) : Bool := c == '*' || c == '?'

def word (text : List Char) (wild : Bool) : Token :=
  if text = ['A', 'N', 'D'] ∨ text = ['&', '&'] then .and
  else if text = ['O', 'R'] ∨ text = ['|', '|'] then .or
  else if text = ['N', 'O', 'T'] then .modifier
  else .term (!wild || text == ['*'])

/-- The number of words of a range when one more ends; a missing one does not count. -/
def endWord (words : Nat) (word : List Char) : Option Nat :=
  if word = [] then some words
  else if words = 1 then if word = ['T', 'O'] then some 2 else none
  else if words ≤ 2 then some (words + 1) else none

/-- The tokens that end, and what is read so far of the next one. -/
abbrev Reading := List Token × Lexeme

/-- The character belongs to the token. -/
def extend : Lexeme → Char → Option Reading
  | .gap, _ => none
  | .term text wild, c =>
    if isTermChar c then some ([], .term (text ++ [c]) wild)
    else if isWildcard c then some ([], .term (text ++ [c]) true)
    else if c = '\\' then some ([], .termEscape text wild)
    else none
  | .termEscape text wild, c => some ([], .term (text ++ ['\\', c]) wild)
  | .operator, c => if isSpace c then some ([.term false], .gap) else none
  | .phrase, c =>
    if c = '"' then some ([.phrase], .gap)
    else if c = '\\' then some ([], .phraseEscape)
    else some ([], .phrase)
  | .phraseEscape, _ => some ([], .phrase)
  | .regex, c =>
    if c = '/' then some ([.term false], .gap)
    else if c = '\\' then some ([], .regexEscape)
    else some ([], .regex)
  | .regexEscape, _ => some ([], .regex)
  | .fuzzy, c =>
    if isTermChar c then some ([], .fuzzy) else if c = '\\' then some ([], .fuzzyEscape) else none
  | .fuzzyEscape, _ => some ([], .fuzzy)
  | .caret, c => if c.isDigit then some ([], .number) else none
  | .number, c => if c.isDigit then some ([], .number) else if c = '.' then some ([], .point) else none
  | .point, c =>
    -- without a digit the point starts a term
    if c.isDigit then some ([], .fraction)
    else if isTermChar c then some ([.boost], .term ['.', c] false)
    else if isWildcard c then some ([.boost], .term ['.', c] true)
    else if c = '\\' then some ([.boost], .termEscape ['.'] false)
    else none
  | .fraction, c => if c.isDigit then some ([], .fraction) else none
  | .range words word, c =>
    if c = ' ' then (endWord words word).map fun words => ([], .range words [])
    else if c = ']' ∨ c = '\x7d' then
      if endWord words word = some 3 then some ([.range], .gap) else none
    else if c = '"' ∧ word = [] ∧ (words = 0 ∨ words = 2) then some ([], .rangePhrase words)
    else some ([], .range words (word ++ [c]))
  | .rangePhrase words, c =>
    if c = '"' then some ([], .range (words + 1) [])
    else if c = '\\' then some ([], .rangeEscape words)
    else some ([], .rangePhrase words)
  | .rangeEscape words, _ => some ([], .rangePhrase words)

/-- The tokens, if nothing that belongs to them follows. None: something is missing. -/
def complete : Lexeme → Option (List Token)
  | .gap => some []
  | .term text wild => some [word text wild]
  | .operator => some [.modifier]
  | .fuzzy => some [.fuzzy]
  | .number => some [.boost]
  | .point => some [.boost, .term true]
  | .fraction => some [.boost]
  | _ => none

/-- A character that no term starts with starts another token, or an escape. -/
def beginsSpecial : Char → Option Reading
  | '\\' => some ([], .termEscape [] false)
  | '+' | '-' | '!' => some ([], .operator)
  | '(' => some ([.lparen], .gap)
  | ')' => some ([.rparen], .gap)
  | ':' => some ([.colon], .gap)
  | '"' => some ([], .phrase)
  | '/' => some ([], .regex)
  | '~' => some ([], .fuzzy)
  | '^' => some ([], .caret)
  | '[' | '\x7b' => some ([], .range 0 [])
  | _ => none

def begins (c : Char) : Option Reading :=
  if isSpace c then some ([], .gap)
  else if isTermStart c then some ([], .term [c] false)
  else if isWildcard c then some ([], .term [c] true)
  else beginsSpecial c

def next (l : Lexeme) (c : Char) : Option Reading :=
  match extend l c with
  | some reading => some reading
  | none => (complete l).bind fun ts => (begins c).map fun reading => (ts ++ reading.1, reading.2)

def lex : Lexeme → List Char → Option Reading
  | l, [] => some ([], l)
  | l, c :: cs =>
    (next l c).bind fun first => (lex first.2 cs).map fun rest => (first.1 ++ rest.1, rest.2)

def tokens (text : List Char) : Option (List Token) :=
  (lex .gap text).bind fun reading => (complete reading.2).map (reading.1 ++ ·)

/-! ## Queries -/

/-- What may follow. -/
inductive Expected
  | clause
  /-- After a modifier. -/
  | modified
  /-- After the colon of a field. -/
  | operand
  /-- The clause is complete; what was read last may be a field, or take a boost or a fuzziness. -/
  | more (field boost fuzzy : Bool)
  deriving DecidableEq

/-- The clauses are counted that are not in parentheses; they are a conjunction if `AND` is between them. -/
structure Parser where
  expected : Expected := .clause
  depth : Nat := 0
  clauses : Nat := 0
  conjunctive : Bool := true
  deriving DecidableEq

namespace Parser

variable (p : Parser)

def top : Bool := p.depth == 0

/-- A clause starts. -/
def count (expected : Expected) (joined : Bool) : Parser :=
  { p with
    expected
    clauses := if p.top then p.clauses + 1 else p.clauses
    conjunctive := p.conjunctive && (joined || !p.top) }

/-- The first token of an operand, or the only one. -/
def operand (expected : Expected) : Parser :=
  match p.expected with
  | .clause => p.count expected true
  | .modified => { p with expected }
  | .operand => { p with expected }
  | .more _ _ _ => p.count expected false

def step : Token → Option Parser
  | .and =>
    match p.expected with
    | .more _ _ _ => some { p with expected := .clause }
    | _ => none
  | .or =>
    match p.expected with
    | .more _ _ _ => some { p with expected := .clause, conjunctive := p.conjunctive && !p.top }
    | _ => none
  | .modifier =>
    match p.expected with
    | .clause => some (p.count .modified true)
    | .more _ _ _ => some (p.count .modified false)
    | _ => none
  | .lparen =>
    let p := p.operand .clause
    some { p with depth := p.depth + 1 }
  | .rparen =>
    match p.expected, p.depth with
    | .more _ _ _, depth + 1 => some { p with expected := .more false true false, depth }
    | _, _ => none
  | .colon =>
    match p.expected with
    | .more true _ _ => some { p with expected := .operand }
    | _ => none
  | .term field => some (p.operand (.more (field && p.expected != .operand) true true))
  | .phrase => some (p.operand (.more false true true))
  | .range => some (p.operand (.more false true false))
  | .boost =>
    match p.expected with
    | .more _ true fuzzy => some { p with expected := .more false false fuzzy }
    | _ => none
  | .fuzzy =>
    match p.expected with
    | .more _ boost true => some { p with expected := .more false boost false }
    | _ => none

/-- Nothing is missing. -/
def complete : Bool :=
  p.depth == 0 &&
    match p.expected with
    | .more _ _ _ => true
    | _ => false

end Parser

def parse (p : Parser) (ts : List Token) : Option Parser := ts.foldlM Parser.step p

/-- The parser after a text that is a query. -/
def query (text : List Char) : Option Parser :=
  (tokens text).bind fun ts => (parse {} ts).filter Parser.complete

def IsQuery (text : List Char) : Prop := (query text).isSome

/-- The number of clauses of a text that is a conjunction; the empty text is one, of no clauses. -/
def conjunction (text : List Char) : Option Nat :=
  (tokens text).bind fun ts =>
    if ts = [] then some 0
    else ((parse {} ts).filter fun p => p.complete && p.conjunctive).map Parser.clauses

example : conjunction "(*kas OR kase*) AND title:\"a (b\"~2^3.5 AND [a TO z\x7d".toList = some 3 := by decide +kernel

example : conjunction "a AND AND b".toList = none := by decide +kernel

example : (query "-a OR (b~ c^2) /x AND y/".toList).map Parser.clauses = some 3 := by decide +kernel


/-! ## Texts one behind the other -/

theorem lex_append (l : Lexeme) (as bs : List Char) :
    lex l (as ++ bs) =
      (lex l as).bind fun first => (lex first.2 bs).map fun rest => (first.1 ++ rest.1, rest.2) := by
  induction as generalizing l with
  | nil => simp [lex]
  | cons c as ih =>
    rw [List.cons_append, lex, lex]
    cases next l c with
    | none => rfl
    | some first =>
      simp only [Option.bind_some, ih]
      cases lex first.2 as with
      | none => rfl
      | some second => simp [Option.map_map, Function.comp_def, List.append_assoc]

theorem lex_append_eq_some {l l' : Lexeme} {as bs : List Char} {ts : List Token} :
    lex l (as ++ bs) = some (ts, l') ↔
      ∃ us m vs, lex l as = some (us, m) ∧ lex m bs = some (vs, l') ∧ ts = us ++ vs := by
  rw [lex_append, Option.bind_eq_some_iff]
  constructor
  · rintro ⟨⟨us, m⟩, hfirst, hrest⟩
    obtain ⟨⟨vs, m'⟩, hlex, heq⟩ := Option.map_eq_some_iff.mp hrest
    cases heq
    exact ⟨us, m, vs, hfirst, hlex, rfl⟩
  · rintro ⟨us, m, vs, hfirst, hrest, rfl⟩
    exact ⟨(us, m), hfirst, by rw [hrest]; rfl⟩

theorem parse_append (p : Parser) (ts us : List Token) : parse p (ts ++ us) = (parse p ts).bind (parse · us) :=
  List.foldlM_append

theorem parse_cons (p : Parser) (t : Token) (ts : List Token) : parse p (t :: ts) = (p.step t).bind (parse · ts) :=
  List.foldlM_cons

/-! ## Parentheses and quotes -/

/-- The depth, and whether a quote is open. -/
def nestChar : Nat × Bool → Char → Option (Nat × Bool)
  | (depth, true), c => some (depth, c != '"')
  | (depth, false), c =>
    if c = '"' then some (depth, true)
    else if c = '(' then some (depth + 1, false)
    else if c = ')' then if depth = 0 then none else some (depth - 1, false)
    else some (depth, false)

/-- None: a parenthesis is closed that is not open. -/
def nest (s : Nat × Bool) (text : List Char) : Option (Nat × Bool) := text.foldlM nestChar s

def nestToken (depth : Nat) : Token → Option Nat
  | .lparen => some (depth + 1)
  | .rparen => if depth = 0 then none else some (depth - 1)
  | _ => some depth

def nestTokens (depth : Nat) (ts : List Token) : Option Nat := ts.foldlM nestToken depth

def Balanced (text : List Char) : Prop := nest (0, false) text = some (0, false)

/-- The characters without which a text has no escapes, regular expressions and ranges. -/
def isUnescaped (c : Char) : Bool := !(['\\', '/', '[', ']', '\x7b', '\x7d'].contains c)

def Lexeme.unescaped : Lexeme → Bool
  | .termEscape _ _ | .phraseEscape | .regex | .regexEscape | .fuzzyEscape => false
  | .range _ _ | .rangePhrase _ | .rangeEscape _ => false
  | _ => true

def Lexeme.inPhrase (l : Lexeme) : Bool := l == .phrase

theorem nestTokens_append (depth : Nat) (ts us : List Token) :
    nestTokens depth (ts ++ us) = (nestTokens depth ts).bind (nestTokens · us) :=
  List.foldlM_append

theorem nestChar_other {c : Char} (h : ¬ (c = '"' ∨ c = '(' ∨ c = ')')) (depth : Nat) :
    nestChar (depth, false) c = some (depth, false) := by
  simp only [not_or] at h
  simp [nestChar, h]

theorem nestTokens_complete {l : Lexeme} {ts : List Token} (h : complete l = some ts) (depth : Nat) :
    nestTokens depth ts = some depth ∧ l.inPhrase = false := by
  cases l with
  | term text wild =>
    obtain rfl := Option.some.inj h
    refine ⟨?_, rfl⟩
    simp only [word]
    split
    · rfl
    · split
      · rfl
      · split <;> rfl
  | gap => obtain rfl := Option.some.inj h; exact ⟨rfl, rfl⟩
  | operator => obtain rfl := Option.some.inj h; exact ⟨rfl, rfl⟩
  | fuzzy => obtain rfl := Option.some.inj h; exact ⟨rfl, rfl⟩
  | number => obtain rfl := Option.some.inj h; exact ⟨rfl, rfl⟩
  | point => obtain rfl := Option.some.inj h; exact ⟨rfl, rfl⟩
  | fraction => obtain rfl := Option.some.inj h; exact ⟨rfl, rfl⟩
  | _ => cases h

/-- What a reading does to the parentheses and quotes is what the character does. -/
def Nests (l : Lexeme) (c : Char) (reading : Reading) : Prop :=
  reading.2.unescaped = true ∧
    ∀ depth, nestChar (depth, l.inPhrase) c = (nestTokens depth reading.1).map fun depth => (depth, reading.2.inPhrase)

theorem nests_other {l l' : Lexeme} {c : Char} {ts : List Token} (hc : ¬ (c = '"' ∨ c = '(' ∨ c = ')'))
    (hl : l.inPhrase = false) (hl' : l'.unescaped = true) (hphrase : l'.inPhrase = false)
    (hts : ∀ depth, nestTokens depth ts = some depth) : Nests l c (ts, l') := by
  refine ⟨hl', fun depth => ?_⟩
  rw [hl, nestChar_other hc, hts, hphrase]
  rfl

theorem isTermChar_other {c : Char} (h : isTermChar c = true) : ¬ (c = '"' ∨ c = '(' ∨ c = ')') := by
  rintro (rfl | rfl | rfl) <;> exact absurd h (by decide)

theorem isWildcard_other {c : Char} (h : isWildcard c = true) : ¬ (c = '"' ∨ c = '(' ∨ c = ')') := by
  rintro (rfl | rfl | rfl) <;> exact absurd h (by decide)

theorem isDigit_other {c : Char} (h : c.isDigit = true) : ¬ (c = '"' ∨ c = '(' ∨ c = ')') := by
  rintro (rfl | rfl | rfl) <;> exact absurd h (by decide)

theorem nests_beginsSpecial {c : Char} (hc : isUnescaped c = true) {reading : Reading}
    (h : beginsSpecial c = some reading) : Nests .gap c reading := by
  unfold beginsSpecial at h
  split at h
  -- escapes, regular expressions and ranges
  case h_1 | h_9 | h_12 | h_13 => cases hc
  case h_14 => cases h
  all_goals obtain rfl := Option.some.inj h
  case h_6 => exact ⟨rfl, fun depth => by cases depth <;> rfl⟩
  all_goals exact ⟨rfl, fun depth => rfl⟩

theorem nests_begins {c : Char} (hc : isUnescaped c = true) {reading : Reading} (h : begins c = some reading) :
    Nests .gap c reading := by
  unfold begins at h
  split at h
  · rename_i hspace
    obtain rfl := Option.some.inj h
    refine nests_other ?_ rfl rfl rfl fun _ => rfl
    rintro (rfl | rfl | rfl) <;> exact absurd hspace (by decide)
  split at h
  · rename_i hstart
    obtain rfl := Option.some.inj h
    exact nests_other (isTermChar_other (by simp [isTermChar, hstart])) rfl rfl rfl fun _ => rfl
  split at h
  · rename_i hwild
    obtain rfl := Option.some.inj h
    exact nests_other (isWildcard_other hwild) rfl rfl rfl fun _ => rfl
  · exact nests_beginsSpecial hc h

theorem nests_extend {l : Lexeme} (hl : l.unescaped = true) {c : Char} (hc : isUnescaped c = true)
    {reading : Reading} (h : extend l c = some reading) : Nests l c reading := by
  have hbackslash : c ≠ '\\' := by
    rintro rfl
    cases hc
  cases l with
  | gap => cases h
  | term text wild =>
    simp only [extend, hbackslash, if_false] at h
    split at h
    · rename_i hchar
      obtain rfl := Option.some.inj h
      exact nests_other (isTermChar_other hchar) rfl rfl rfl fun _ => rfl
    split at h
    · rename_i hwild
      obtain rfl := Option.some.inj h
      exact nests_other (isWildcard_other hwild) rfl rfl rfl fun _ => rfl
    · cases h
  | operator =>
    simp only [extend] at h
    split at h
    · rename_i hspace
      obtain rfl := Option.some.inj h
      refine nests_other ?_ rfl rfl rfl fun _ => rfl
      rintro (rfl | rfl | rfl) <;> exact absurd hspace (by decide)
    · cases h
  | phrase =>
    simp only [extend, hbackslash, if_false] at h
    split at h
    · rename_i hquote
      obtain rfl := Option.some.inj h
      exact ⟨rfl, fun depth => by rw [hquote]; rfl⟩
    · rename_i hquote
      obtain rfl := Option.some.inj h
      refine ⟨rfl, fun depth => ?_⟩
      have hne : (c != '"') = true := by simpa using hquote
      show some (depth, c != '"') = some (depth, true)
      rw [hne]
  | fuzzy =>
    simp only [extend, hbackslash, if_false] at h
    split at h
    · rename_i hchar
      obtain rfl := Option.some.inj h
      exact nests_other (isTermChar_other hchar) rfl rfl rfl fun _ => rfl
    · cases h
  | caret =>
    simp only [extend] at h
    split at h
    · rename_i hdigit
      obtain rfl := Option.some.inj h
      exact nests_other (isDigit_other hdigit) rfl rfl rfl fun _ => rfl
    · cases h
  | number =>
    simp only [extend] at h
    split at h
    · rename_i hdigit
      obtain rfl := Option.some.inj h
      exact nests_other (isDigit_other hdigit) rfl rfl rfl fun _ => rfl
    split at h
    · rename_i hpoint
      obtain rfl := Option.some.inj h
      refine nests_other ?_ rfl rfl rfl fun _ => rfl
      rw [hpoint]
      decide
    · cases h
  | point =>
    simp only [extend, hbackslash, if_false] at h
    split at h
    · rename_i hdigit
      obtain rfl := Option.some.inj h
      exact nests_other (isDigit_other hdigit) rfl rfl rfl fun _ => rfl
    split at h
    · rename_i hchar
      obtain rfl := Option.some.inj h
      exact nests_other (isTermChar_other hchar) rfl rfl rfl fun _ => rfl
    split at h
    · rename_i hwild
      obtain rfl := Option.some.inj h
      exact nests_other (isWildcard_other hwild) rfl rfl rfl fun _ => rfl
    · cases h
  | fraction =>
    simp only [extend] at h
    split at h
    · rename_i hdigit
      obtain rfl := Option.some.inj h
      exact nests_other (isDigit_other hdigit) rfl rfl rfl fun _ => rfl
    · cases h
  | _ => cases hl

theorem nests_next {l : Lexeme} (hl : l.unescaped = true) {c : Char} (hc : isUnescaped c = true) {reading : Reading}
    (h : next l c = some reading) : Nests l c reading := by
  unfold next at h
  cases hextend : extend l c with
  | some reading' =>
    rw [hextend] at h
    obtain rfl := Option.some.inj h
    exact nests_extend hl hc hextend
  | none =>
    rw [hextend] at h
    obtain ⟨ts, hts, hmap⟩ := Option.bind_eq_some_iff.mp h
    obtain ⟨reading', hbegins, rfl⟩ := Option.map_eq_some_iff.mp hmap
    obtain ⟨hunescaped, hnest⟩ := nests_begins hc hbegins
    refine ⟨hunescaped, fun depth => ?_⟩
    obtain ⟨hcomplete, hphrase⟩ := nestTokens_complete hts depth
    rw [hphrase, nestTokens_append, hcomplete]
    exact hnest depth

theorem nest_lex {l : Lexeme} (hl : l.unescaped = true) {text : List Char} (htext : ∀ c ∈ text, isUnescaped c = true)
    {ts : List Token} {l' : Lexeme} (h : lex l text = some (ts, l')) (depth : Nat) :
    l'.unescaped = true ∧
      nest (depth, l.inPhrase) text = (nestTokens depth ts).map fun depth => (depth, l'.inPhrase) := by
  induction text generalizing l ts depth with
  | nil =>
    cases h
    exact ⟨hl, rfl⟩
  | cons c text ih =>
    obtain ⟨first, hnext, hmap⟩ := Option.bind_eq_some_iff.mp h
    obtain ⟨⟨us, m⟩, hrest, heq⟩ := Option.map_eq_some_iff.mp hmap
    cases heq
    obtain ⟨hfirst, hnest⟩ := nests_next hl (htext c List.mem_cons_self) hnext
    have htail := fun depth => ih hfirst (fun d hd => htext d (List.mem_cons_of_mem c hd)) hrest depth
    refine ⟨(htail depth).1, ?_⟩
    rw [nest, List.foldlM_cons, hnest, nestTokens_append]
    cases nestTokens depth first.1 with
    | none => rfl
    | some depth' => exact (htail depth').2

/-! ## The parser -/

namespace Parser

/-- The parser within parentheses: the clauses it reads do not count. -/
def inside (outer p : Parser) : Parser where
  expected := p.expected
  depth := p.depth + outer.depth
  clauses := outer.clauses
  conjunctive := outer.conjunctive

variable {p q outer : Parser} {t : Token}

@[simp] theorem operand_depth (expected : Expected) : (p.operand expected).depth = p.depth := by
  unfold operand
  split <;> rfl

theorem nestToken_of_step (h : p.step t = some q) : nestToken p.depth t = some q.depth := by
  cases t with
  | lparen =>
    obtain rfl := Option.some.inj h
    simp [nestToken]
  | rparen =>
    simp only [step] at h
    split at h
    · rename_i hdepth
      obtain rfl := Option.some.inj h
      simp [nestToken, hdepth]
    · cases h
  | term field =>
    obtain rfl := Option.some.inj h
    simp [nestToken]
  | phrase =>
    obtain rfl := Option.some.inj h
    simp [nestToken]
  | range =>
    obtain rfl := Option.some.inj h
    simp [nestToken]
  | modifier =>
    simp only [step] at h
    split at h
    · obtain rfl := Option.some.inj h
      rfl
    · obtain rfl := Option.some.inj h
      rfl
    · cases h
  | _ =>
    simp only [step] at h
    split at h
    · obtain rfl := Option.some.inj h
      rfl
    · cases h

theorem top_inside (houter : 0 < outer.depth) : (inside outer p).top = false := by
  have hne : p.depth + outer.depth ≠ 0 := by omega
  simpa [top, inside] using hne

theorem count_inside (houter : 0 < outer.depth) (expected : Expected) (joined : Bool) :
    (inside outer p).count expected joined = inside outer (p.count expected joined) := by
  unfold count
  rw [top_inside houter]
  simp [inside]

theorem operand_inside (houter : 0 < outer.depth) (expected : Expected) :
    (inside outer p).operand expected = inside outer (p.operand expected) := by
  have hexpected : (inside outer p).expected = p.expected := rfl
  unfold operand
  rw [hexpected]
  split
  · exact count_inside houter expected true
  · rfl
  · rfl
  · exact count_inside houter expected false

/-- Only the parenthesis that closes those around it is read differently. -/
theorem step_inside (houter : 0 < outer.depth) (h : (nestToken p.depth t).isSome) :
    (inside outer p).step t = (p.step t).map (inside outer) := by
  have hexpected : (inside outer p).expected = p.expected := rfl
  cases t with
  | lparen =>
    simp only [step, operand_inside houter]
    simp [inside, Nat.add_right_comm]
  | rparen =>
    cases hdepth : p.depth with
    | zero =>
      rw [hdepth] at h
      cases h
    | succ depth =>
      have hsucc : (inside outer p).depth = depth + outer.depth + 1 := by
        show p.depth + outer.depth = _
        omega
      simp only [step]
      rw [hexpected, hsucc, hdepth]
      cases p.expected <;> rfl
  | term field =>
    simp only [step, hexpected, operand_inside houter]
    rfl
  | phrase =>
    simp only [step, operand_inside houter]
    rfl
  | range =>
    simp only [step, operand_inside houter]
    rfl
  | modifier =>
    simp only [step]
    rw [hexpected, count_inside houter, count_inside houter]
    cases p.expected <;> rfl
  | or =>
    simp only [step]
    rw [hexpected, top_inside houter]
    cases p.expected with
    | more field boost fuzzy => simp [inside]
    | _ => rfl
  | and =>
    simp only [step]
    rw [hexpected]
    cases p.expected <;> rfl
  | colon =>
    simp only [step]
    rw [hexpected]
    split <;> rfl
  | boost =>
    simp only [step]
    rw [hexpected]
    split <;> rfl
  | fuzzy =>
    simp only [step]
    rw [hexpected]
    split <;> rfl

theorem count_mono (p : Parser) (expected : Expected) (joined : Bool) :
    p.clauses ≤ (p.count expected joined).clauses ∧
      ((p.count expected joined).conjunctive = true → p.conjunctive = true) := by
  unfold count
  constructor
  · dsimp only
    split <;> omega
  · intro hconj
    exact And.left (by simpa using hconj)

theorem operand_mono (p : Parser) (expected : Expected) :
    p.clauses ≤ (p.operand expected).clauses ∧ ((p.operand expected).conjunctive = true → p.conjunctive = true) := by
  unfold operand
  split
  · exact p.count_mono expected true
  · exact ⟨Nat.le_refl _, id⟩
  · exact ⟨Nat.le_refl _, id⟩
  · exact p.count_mono expected false

theorem step_mono (h : p.step t = some q) :
    p.clauses ≤ q.clauses ∧ (q.conjunctive = true → p.conjunctive = true) := by
  cases t with
  | lparen =>
    obtain rfl := Option.some.inj h
    exact p.operand_mono .clause
  | term field =>
    obtain rfl := Option.some.inj h
    exact p.operand_mono _
  | phrase =>
    obtain rfl := Option.some.inj h
    exact p.operand_mono _
  | range =>
    obtain rfl := Option.some.inj h
    exact p.operand_mono _
  | modifier =>
    simp only [step] at h
    split at h
    · obtain rfl := Option.some.inj h
      exact p.count_mono _ _
    · obtain rfl := Option.some.inj h
      exact p.count_mono _ _
    · cases h
  | or =>
    simp only [step] at h
    split at h
    · obtain rfl := Option.some.inj h
      exact ⟨Nat.le_refl _, fun hconj => And.left (by simpa using hconj)⟩
    · cases h
  | _ =>
    simp only [step] at h
    split at h
    · obtain rfl := Option.some.inj h
      exact ⟨Nat.le_refl _, id⟩
    · cases h

/-- The first token starts a clause. -/
theorem clauses_pos_of_step (h : p.step t = some q) (hp : p.clauses = 0 → p.expected = .clause ∧ p.depth = 0) :
    0 < q.clauses := by
  by_cases hzero : p.clauses = 0
  · obtain ⟨hexpected, hdepth⟩ := hp hzero
    cases t <;> simp [step, operand, hexpected, count, top, hdepth] at h <;> subst h <;> exact Nat.succ_pos _
  · have hmono := (step_mono h).1
    omega

end Parser

theorem parse_depth {p q : Parser} {ts : List Token} (h : parse p ts = some q) :
    nestTokens p.depth ts = some q.depth := by
  induction ts generalizing p with
  | nil =>
    cases h
    rfl
  | cons t ts ih =>
    rw [parse_cons] at h
    obtain ⟨r, hstep, hrest⟩ := Option.bind_eq_some_iff.mp h
    rw [nestTokens, List.foldlM_cons, Parser.nestToken_of_step hstep]
    exact ih hrest

/-- What can be read on its own is read alike within parentheses. -/
theorem parse_inside {p outer : Parser} (houter : 0 < outer.depth) {ts : List Token}
    (h : (nestTokens p.depth ts).isSome) :
    parse (Parser.inside outer p) ts = (parse p ts).map (Parser.inside outer) := by
  induction ts generalizing p with
  | nil => rfl
  | cons t ts ih =>
    rw [nestTokens, List.foldlM_cons] at h
    obtain ⟨depth, hbind⟩ := Option.isSome_iff_exists.mp h
    obtain ⟨depth', htoken, hrest⟩ := Option.bind_eq_some_iff.mp hbind
    rw [parse_cons, parse_cons, Parser.step_inside houter (by rw [htoken]; rfl)]
    cases hstep : p.step t with
    | none => rfl
    | some q =>
      have hdepth := Parser.nestToken_of_step hstep
      rw [htoken] at hdepth
      obtain rfl := Option.some.inj hdepth
      exact ih (by rw [nestTokens, hrest]; rfl)

theorem parse_mono {p q : Parser} {ts : List Token} (h : parse p ts = some q) :
    p.clauses ≤ q.clauses ∧ (q.conjunctive = true → p.conjunctive = true) := by
  induction ts generalizing p with
  | nil =>
    cases h
    exact ⟨Nat.le_refl _, id⟩
  | cons t ts ih =>
    rw [parse_cons] at h
    obtain ⟨r, hstep, hrest⟩ := Option.bind_eq_some_iff.mp h
    obtain ⟨hle, hconj⟩ := Parser.step_mono hstep
    obtain ⟨hle', hconj'⟩ := ih hrest
    exact ⟨Nat.le_trans hle hle', fun h => hconj (hconj' h)⟩

theorem clauses_pos {q : Parser} {ts : List Token} (h : parse {} ts = some q) (hne : ts ≠ []) : 0 < q.clauses := by
  cases ts with
  | nil => exact absurd rfl hne
  | cons t ts =>
    rw [parse_cons] at h
    obtain ⟨r, hstep, hrest⟩ := Option.bind_eq_some_iff.mp h
    have hpos := Parser.clauses_pos_of_step hstep fun _ => ⟨rfl, rfl⟩
    exact Nat.lt_of_lt_of_le hpos (parse_mono hrest).1

/-! ## Reading on -/

/-- The state of lexer and parser after some more text. -/
def read (s : Parser × Lexeme) (text : List Char) : Option (Parser × Lexeme) :=
  (lex s.2 text).bind fun reading => (parse s.1 reading.1).map fun p => (p, reading.2)

theorem read_append (s : Parser × Lexeme) (as bs : List Char) :
    read s (as ++ bs) = (read s as).bind (read · bs) := by
  simp only [read]
  rw [lex_append]
  cases lex s.2 as with
  | none => rfl
  | some first =>
    simp only [Option.bind_some]
    cases hrest : lex first.2 bs with
    | none =>
      cases parse s.1 first.1 with
      | none => rfl
      | some p => simp [hrest]
    | some rest =>
      simp only [Option.map_some, Option.bind_some, parse_append]
      cases parse s.1 first.1 with
      | none => rfl
      | some p => simp [hrest]

theorem query_eq_some {text : List Char} {q : Parser} :
    query text = some q ↔ ∃ ts, tokens text = some ts ∧ parse {} ts = some q ∧ q.complete = true := by
  simp only [query, Option.bind_eq_some_iff, Option.filter_eq_some_iff]

theorem complete_eq_true {q : Parser} :
    q.complete = true ↔ q.depth = 0 ∧ ∃ field boost fuzzy, q.expected = .more field boost fuzzy := by
  unfold Parser.complete
  cases hexpected : q.expected <;> simp

theorem unescaped_of_complete {l : Lexeme} {ts : List Token} (h : complete l = some ts) :
    l.unescaped = true ∧ l.inPhrase = false := by
  refine ⟨?_, (nestTokens_complete h 0).2⟩
  cases l <;> first | rfl | cases h

/-- As far as the text can be read, its parentheses and quotes are balanced. -/
structure Closed (text : List Char) : Prop where
  ended : ∀ ts l, lex .gap text = some (ts, l) → l.unescaped = true ∧ l.inPhrase = false
  nested : ∀ ts, tokens text = some ts → nestTokens 0 ts = some 0

theorem Closed.of_isQuery {text : List Char} (h : IsQuery text) : Closed text := by
  obtain ⟨q, hq⟩ := Option.isSome_iff_exists.mp h
  obtain ⟨ts, htokens, hparse, hcomplete⟩ := query_eq_some.mp hq
  have hnest := parse_depth hparse
  rw [(complete_eq_true.mp hcomplete).1] at hnest
  refine ⟨fun us l hlex => ?_, fun us hus => ?_⟩
  · rw [tokens, hlex] at htokens
    obtain ⟨vs, hvs, -⟩ := Option.map_eq_some_iff.mp htokens
    exact unescaped_of_complete hvs
  · rw [htokens] at hus
    obtain rfl := Option.some.inj hus
    exact hnest

theorem nest_tokens {text : List Char} (htext : ∀ c ∈ text, isUnescaped c = true) {ts : List Token}
    (h : tokens text = some ts) : nest (0, false) text = (nestTokens 0 ts).map fun depth => (depth, false) := by
  obtain ⟨⟨us, l⟩, hlex, hmap⟩ := Option.bind_eq_some_iff.mp h
  obtain ⟨vs, hvs, rfl⟩ := Option.map_eq_some_iff.mp hmap
  obtain ⟨-, hnest⟩ := nest_lex rfl htext hlex 0
  have hphrase := (nestTokens_complete hvs 0).2
  have hnone : Lexeme.gap.inPhrase = false := rfl
  rw [hphrase, hnone] at hnest
  rw [hnest, nestTokens_append]
  cases nestTokens 0 us with
  | none => rfl
  | some depth =>
    rw [Option.bind_some, (nestTokens_complete hvs depth).1]

theorem Closed.of_balanced {text : List Char} (htext : ∀ c ∈ text, isUnescaped c = true) (h : Balanced text) :
    Closed text := by
  refine ⟨fun ts l hlex => ?_, fun ts hts => ?_⟩
  · obtain ⟨hunescaped, hnest⟩ := nest_lex rfl htext hlex 0
    refine ⟨hunescaped, ?_⟩
    have hbalanced : nest (0, Lexeme.gap.inPhrase) text = some (0, false) := h
    rw [hbalanced] at hnest
    obtain ⟨depth, -, heq⟩ := Option.map_eq_some_iff.mp hnest.symm
    exact (Prod.mk.inj heq).2
  · have hnest := nest_tokens htext hts
    rw [h] at hnest
    obtain ⟨depth, hdepth, heq⟩ := Option.map_eq_some_iff.mp hnest.symm
    rw [hdepth, (Prod.mk.inj heq).1]

theorem balanced_of_isQuery {text : List Char} (htext : ∀ c ∈ text, isUnescaped c = true) (h : IsQuery text) :
    Balanced text := by
  obtain ⟨q, hq⟩ := Option.isSome_iff_exists.mp h
  obtain ⟨ts, htokens, -, -⟩ := query_eq_some.mp hq
  rw [Balanced, nest_tokens htext htokens, (Closed.of_isQuery h).nested ts htokens]
  rfl

theorem next_close {l : Lexeme} (hl : l.unescaped = true) (hphrase : l.inPhrase = false) :
    next l ')' = (complete l).map fun ts => (ts ++ [.rparen], .gap) := by
  cases l with
  | phrase => cases hphrase
  | termEscape _ _ => cases hl
  | phraseEscape => cases hl
  | regex => cases hl
  | regexEscape => cases hl
  | fuzzyEscape => cases hl
  | range _ _ => cases hl
  | rangePhrase _ => cases hl
  | rangeEscape _ => cases hl
  | _ => rfl

theorem lex_close {text : List Char} (h : Closed text) :
    lex .gap (text ++ [')']) = (tokens text).map fun ts => (ts ++ [.rparen], .gap) := by
  rw [lex_append, tokens]
  cases hlex : lex .gap text with
  | none => rfl
  | some first =>
    obtain ⟨ts, l⟩ := first
    obtain ⟨hunescaped, hphrase⟩ := h.ended ts l hlex
    simp only [Option.bind_some, lex, next_close hunescaped hphrase]
    cases complete l with
    | none => rfl
    | some us => simp

/-- What closes the parentheses around a parser. -/
theorem step_rparen_inside {outer q : Parser} (houter : 0 < outer.depth) (hq : q.depth = 0) :
    (Parser.inside outer q).step .rparen =
      if q.complete then some { outer with expected := .more false true false, depth := outer.depth - 1 }
      else none := by
  obtain ⟨depth, hdepth⟩ := Nat.exists_eq_succ_of_ne_zero (Nat.ne_of_gt houter)
  have hexpected : (Parser.inside outer q).expected = q.expected := rfl
  have hsucc : (Parser.inside outer q).depth = depth + 1 := by
    show q.depth + outer.depth = _
    omega
  simp only [Parser.step, hexpected, hsucc, Parser.complete, hq, hdepth]
  cases q.expected <;> rfl

/-- A text up to the parenthesis that closes those around it. -/
theorem read_close {outer : Parser} (houter : 0 < outer.depth) {text : List Char} (h : Closed text) :
    read (Parser.inside outer {}, .gap) (text ++ [')']) =
      (query text).map fun _ =>
        ({ outer with expected := .more false true false, depth := outer.depth - 1 }, .gap) := by
  rw [read, lex_close h, query]
  cases htokens : tokens text with
  | none => rfl
  | some ts =>
    have hnest := h.nested ts htokens
    simp only [Option.map_some, Option.bind_some, parse_append]
    rw [parse_inside houter (by rw [hnest]; rfl)]
    cases hparse : parse {} ts with
    | none => rfl
    | some q =>
      have hdepth := parse_depth hparse
      rw [hnest] at hdepth
      simp only [Option.map_some, Option.bind_some, parse_cons, step_rparen_inside houter (Option.some.inj hdepth).symm]
      cases hcomplete : q.complete <;> simp [parse, Option.filter, hcomplete]

theorem operand_with (p : Parser) (e e' : Expected) : { p.operand e with expected := e' } = p.operand e' := by
  unfold Parser.operand
  cases p.expected <;> rfl

/-- The parser behind an opening parenthesis, with what is around it. -/
def Parser.opened (p : Parser) : Parser := { p.operand .clause with depth := p.depth + 1 }

theorem read_open (p : Parser) : read (p, .gap) ['('] = some (Parser.inside p.opened {}, .gap) := by
  have hstep : p.step .lparen = some (Parser.inside p.opened {}) := by
    have hexpected : (p.operand .clause).expected = .clause :=
      congrArg Parser.expected (operand_with p .clause .clause).symm
    simp [Parser.step, Parser.inside, Parser.opened, hexpected]
  have hlex : lex .gap ['('] = some ([.lparen], .gap) := by decide
  rw [read, hlex, Option.bind_some, parse_cons, hstep]
  rfl

/-- One operand and `OR` leave the parser as it was, but for the clauses that do not count. -/
theorem read_or (p : Parser) {text : List Char} {field : Bool} (h : lex .gap text = some ([.term field, .or], .gap)) :
    read (Parser.inside p.opened {}, .gap) text = some (Parser.inside p.opened {}, .gap) := by
  have hopened : 0 < p.opened.depth := Nat.succ_pos _
  rw [read, h, Option.bind_some, parse_inside hopened rfl]
  rfl

theorem read_closing (p : Parser) {text : List Char} (h : Closed text) :
    read (Parser.inside p.opened {}, .gap) (text ++ [')']) =
      (query text).map fun _ => (p.operand (.more false true false), .gap) := by
  rw [read_close (Nat.succ_pos _) h, ← operand_with p .clause]
  simp [Parser.opened]

/-- A text in parentheses is a clause if and only if the text is a query. -/
theorem read_group (p : Parser) {text : List Char} (h : Closed text) :
    read (p, .gap) ('(' :: (text ++ [')'])) = (query text).map fun _ => (p.operand (.more false true false), .gap) := by
  rw [← List.singleton_append, read_append, read_open, Option.bind_some, read_closing p h]

/-- The same with an alternative in front of the text. -/
theorem read_alternatives (p : Parser) {first text : List Char} {field : Bool}
    (hfirst : lex .gap first = some ([.term field, .or], .gap)) (h : Closed text) :
    read (p, .gap) ('(' :: (first ++ (text ++ [')']))) =
      (query text).map fun _ => (p.operand (.more false true false), .gap) := by
  rw [← List.singleton_append, read_append, read_open, Option.bind_some, read_append, read_or p hfirst,
    Option.bind_some, read_closing p h]

theorem read_and (p : Parser) :
    read (p, .gap) [' ', 'A', 'N', 'D', ' '] = (p.step .and).map fun p => (p, .gap) := by
  have hlex : lex .gap [' ', 'A', 'N', 'D', ' '] = some ([.and], .gap) := by decide
  rw [read, hlex, Option.bind_some, parse_cons]
  cases p.step .and <;> rfl

theorem next_space {l : Lexeme} {ts : List Token} (h : complete l = some ts) (hl : l ≠ .operator) :
    next l ' ' = some (ts, .gap) := by
  have hlist : some (ts ++ [], Lexeme.gap) = some (ts, Lexeme.gap) := by rw [List.append_nil]
  cases l with
  | operator => exact absurd rfl hl
  | gap => cases h; rfl
  | term text wild => cases h; rfl
  | fuzzy => cases h; rfl
  | number => cases h; rfl
  | point => cases h; rfl
  | fraction => cases h; rfl
  | _ => cases h

/-- A query ends where a blank follows. -/
theorem read_query {text : List Char} {q : Parser} (h : query text = some q) :
    read ({}, .gap) (text ++ [' ']) = some (q, .gap) := by
  obtain ⟨ts, htokens, hparse, hcomplete⟩ := query_eq_some.mp h
  obtain ⟨⟨us, l⟩, hlex, hmap⟩ := Option.bind_eq_some_iff.mp htokens
  obtain ⟨vs, hvs, rfl⟩ := Option.map_eq_some_iff.mp hmap
  have hl : l ≠ .operator := by
    rintro rfl
    -- the query would end with a modifier
    cases hvs
    rw [parse_append] at hparse
    obtain ⟨p, -, hlast⟩ := Option.bind_eq_some_iff.mp hparse
    obtain ⟨r, hstep, hr⟩ := Option.bind_eq_some_iff.mp (parse_cons p .modifier [] ▸ hlast)
    cases hr
    obtain ⟨-, field, boost, fuzzy, hexpected⟩ := complete_eq_true.mp hcomplete
    simp only [Parser.step] at hstep
    split at hstep
    · cases hstep
      cases hexpected
    · cases hstep
      cases hexpected
    · cases hstep
  have hlex' : lex .gap (text ++ [' ']) = some (us ++ vs, .gap) := by
    rw [lex_append, hlex, Option.bind_some, lex, next_space hvs hl]
    simp [lex]
  rw [read, hlex', Option.bind_some, hparse]
  rfl

/-! ## Conjunctions -/

/-- From the parser on, the text completes a conjunction of so many clauses. -/
def Accepts (p : Parser) (text : List Char) (n : Nat) : Prop :=
  ∃ s ts q, read (p, .gap) text = some s ∧ complete s.2 = some ts ∧ parse s.1 ts = some q ∧
    q.complete = true ∧ q.conjunctive = true ∧ q.clauses = n

theorem accepts_iff {text : List Char} {n : Nat} :
    Accepts {} text n ↔ ∃ ts q, tokens text = some ts ∧ parse {} ts = some q ∧
      q.complete = true ∧ q.conjunctive = true ∧ q.clauses = n := by
  constructor
  · rintro ⟨s, ts, q, hread, hts, hq, h⟩
    obtain ⟨⟨us, l⟩, hlex, hmap⟩ := Option.bind_eq_some_iff.mp hread
    obtain ⟨r, hr, rfl⟩ := Option.map_eq_some_iff.mp hmap
    refine ⟨us ++ ts, q, ?_, ?_, h⟩
    · rw [tokens, hlex, Option.bind_some, hts]
      rfl
    · rw [parse_append, hr, Option.bind_some, hq]
  · rintro ⟨all, q, htokens, hparse, h⟩
    obtain ⟨⟨us, l⟩, hlex, hmap⟩ := Option.bind_eq_some_iff.mp htokens
    obtain ⟨ts, hts, rfl⟩ := Option.map_eq_some_iff.mp hmap
    rw [parse_append] at hparse
    obtain ⟨r, hr, hq⟩ := Option.bind_eq_some_iff.mp hparse
    refine ⟨(r, l), ts, q, ?_, hts, hq, h⟩
    rw [read, hlex, Option.bind_some, hr]
    rfl

theorem conjunction_iff {text : List Char} {n : Nat} :
    conjunction text = some n ↔ tokens text = some [] ∧ n = 0 ∨ Accepts {} text n := by
  rw [accepts_iff, conjunction, Option.bind_eq_some_iff]
  constructor
  · rintro ⟨ts, htokens, h⟩
    split at h
    · rename_i hnil
      exact Or.inl ⟨hnil ▸ htokens, (Option.some.inj h).symm⟩
    · obtain ⟨q, hfilter, rfl⟩ := Option.map_eq_some_iff.mp h
      obtain ⟨hparse, hgood⟩ := Option.filter_eq_some_iff.mp hfilter
      obtain ⟨hcomplete, hconj⟩ := (Bool.and_eq_true _ _).mp hgood
      exact Or.inr ⟨ts, q, htokens, hparse, hcomplete, hconj, rfl⟩
  · rintro (⟨htokens, rfl⟩ | ⟨ts, q, htokens, hparse, hcomplete, hconj, rfl⟩)
    · exact ⟨[], htokens, rfl⟩
    · refine ⟨ts, htokens, ?_⟩
      have hne : ts ≠ [] := by
        rintro rfl
        cases hparse
        cases hcomplete
      rw [if_neg hne, hparse]
      simp [Option.filter, hcomplete, hconj]

/-- A query has a clause; it is a conjunction if its clauses are joined by `AND`. -/
theorem conjunction_of_query {text : List Char} {q : Parser} (h : query text = some q) :
    0 < q.clauses ∧ ∀ n, conjunction text = some n ↔ q.conjunctive = true ∧ q.clauses = n := by
  obtain ⟨ts, htokens, hparse, hcomplete⟩ := query_eq_some.mp h
  have hne : ts ≠ [] := by
    rintro rfl
    cases hparse
    cases hcomplete
  refine ⟨clauses_pos hparse hne, fun n => ?_⟩
  rw [conjunction_iff, accepts_iff, htokens]
  constructor
  · rintro (⟨hnil, -⟩ | ⟨us, r, hus, hr, -, hgood⟩)
    · exact absurd (Option.some.inj hnil) hne
    · obtain rfl := Option.some.inj hus
      rw [hparse] at hr
      obtain rfl := Option.some.inj hr
      exact hgood
  · intro hgood
    exact Or.inr ⟨ts, q, rfl, hparse, hcomplete, hgood⟩

theorem accepts_append {p q : Parser} {as : List Char} (h : read (p, .gap) as = some (q, .gap)) (bs : List Char)
    (n : Nat) : Accepts p (as ++ bs) n ↔ Accepts q bs n := by
  simp only [Accepts, read_append, h, Option.bind_some]

theorem not_accepts_append {p : Parser} {as : List Char} (h : read (p, .gap) as = none) (bs : List Char) (n : Nat) :
    ¬ Accepts p (as ++ bs) n := by
  simp [Accepts, read_append, h]

theorem accepts_nil {p : Parser} {n : Nat} :
    Accepts p [] n ↔ p.complete = true ∧ p.conjunctive = true ∧ p.clauses = n := by
  constructor
  · rintro ⟨s, ts, q, hread, hts, hq, h⟩
    cases hread
    cases hts
    cases hq
    exact h
  · intro h
    exact ⟨(p, .gap), [], p, rfl, rfl, rfl, h⟩

theorem accepts_mono {p : Parser} {text : List Char} {n : Nat} (h : Accepts p text n) :
    p.conjunctive = true ∧ p.clauses ≤ n := by
  obtain ⟨s, ts, q, hread, -, hq, -, hconj, rfl⟩ := h
  obtain ⟨reading, -, hmap⟩ := Option.bind_eq_some_iff.mp hread
  obtain ⟨r, hr, rfl⟩ := Option.map_eq_some_iff.mp hmap
  obtain ⟨hle, hfirst⟩ := parse_mono hr
  obtain ⟨hle', hlast⟩ := parse_mono hq
  exact ⟨hfirst (hlast hconj), Nat.le_trans hle hle'⟩

/-! ## Words -/

theorem isTermChar_of_start {c : Char} (h : isTermStart c = true) : isTermChar c = true := by
  rw [isTermChar, h]
  rfl

theorem lex_termChars {text : List Char} (h : ∀ c ∈ text, isTermChar c = true) (start : List Char) (wild : Bool) :
    lex (.term start wild) text = some ([], .term (start ++ text) wild) := by
  induction text generalizing start with
  | nil => simp [lex]
  | cons c text ih =>
    have hnext : next (.term start wild) c = some ([], .term (start ++ [c]) wild) := by
      simp [next, extend, h c List.mem_cons_self]
    rw [lex, hnext, Option.bind_some, ih fun d hd => h d (List.mem_cons_of_mem c hd)]
    simp

theorem lex_alternative {text : List Char} (hne : text ≠ []) (h : ∀ c ∈ text, isTermStart c = true) :
    lex .gap ('*' :: (text ++ [' ', 'O', 'R', ' '])) = some ([.term false, .or], .gap) := by
  have hstar : lex .gap ['*'] = some ([], .term ['*'] true) := by decide
  have hword : word ('*' :: text) true = .term false := by simp [word, hne]
  have hor : lex (.term ('*' :: text) true) [' ', 'O', 'R', ' '] =
      (lex .gap [' ', 'O', 'R', ' ']).map fun rest => (.term false :: rest.1, rest.2) := by
    rw [lex, lex, next_space (l := .term ('*' :: text) true) rfl (by simp), hword]
    rfl
  have hgap : lex .gap [' ', 'O', 'R', ' '] = some ([.or], .gap) := by decide
  rw [← List.singleton_append, lex_append, hstar, Option.bind_some, lex_append,
    lex_termChars (fun c hc => isTermChar_of_start (h c hc)), Option.bind_some, List.singleton_append, hor, hgap]
  rfl

theorem isQuery_wildcard {text : List Char} (hne : text ≠ []) (h : ∀ c ∈ text, isTermStart c = true) :
    IsQuery (text ++ ['*']) := by
  cases text with
  | nil => exact absurd rfl hne
  | cons c text =>
    have hc := h c List.mem_cons_self
    have hstart : next .gap c = some ([], .term [c] false) := by
      have hspace : isSpace c = false := by simpa using And.left (by simpa [isTermStart] using hc)
      simp [next, extend, complete, begins, hspace, hc]
    have hlex : lex .gap (c :: text ++ ['*']) = some ([], .term (c :: text ++ ['*']) true) := by
      rw [List.cons_append, lex, hstart, Option.bind_some, lex_append,
        lex_termChars fun d hd => isTermChar_of_start (h d (List.mem_cons_of_mem c hd))]
      have hstar : next (.term ([c] ++ text) false) '*' = some ([], .term ([c] ++ text ++ ['*']) true) := by
        simp [next, extend, isTermChar, isTermStart, isSpecial, isSpace, isWildcard]
      simp only [Option.bind_some, lex, hstar, Option.map_some, List.append_nil, List.nil_append]
      rfl
    have hlast (keyword : List Char) (hkeyword : keyword.getLast? ≠ some '*') : c :: text ++ ['*'] ≠ keyword := by
      rintro rfl
      exact hkeyword List.getLast?_concat
    have hword : word (c :: text ++ ['*']) true = .term (c :: text ++ ['*'] == ['*']) := by
      simp only [word, hlast ['A', 'N', 'D'] (by decide), hlast ['&', '&'] (by decide),
        hlast ['O', 'R'] (by decide), hlast ['|', '|'] (by decide), hlast ['N', 'O', 'T'] (by decide)]
      simp
    have htokens : tokens (c :: text ++ ['*']) = some [.term (c :: text ++ ['*'] == ['*'])] := by
      have hcomplete : complete (.term (c :: text ++ ['*']) true) = some [word (c :: text ++ ['*']) true] := rfl
      rw [tokens, hlex, Option.bind_some, hcomplete, hword]
      rfl
    rw [IsQuery, query, htokens]
    rfl

end QueryGrammar
end AppNG
