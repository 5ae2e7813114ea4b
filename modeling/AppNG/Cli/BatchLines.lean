import AppNG.Lib.JavaString
import Mathlib.Algebra.Group.Nat.Even
import Mathlib.Data.List.Induction
import Mathlib.Logic.Function.Basic

/-!
# Cli.BatchLines

The lines of a batch file, as `CommandBatch` parses them.

The parser goes through a line one character at a time, with three flags; what it does with a character
depends on the text in front of it. A blank ends a token outside of quotes, but not directly behind a quote.

* `charType_run`: what a character is taken for, told from the text in front of it.
* `run_withValues`: the values of variables take the place of tokens, and change nothing else.
* `rawSound_iff`: the lines that are parsed without an index error, and without empty tokens.
-/

namespace AppNG
namespace Cli
namespace BatchLines

/-! ## The code -/

abbrev Text := List Char

abbrev Variables := Text → Option Text

structure Line where
  tokens : List Text
  hasOpened : Bool
  assumeVariable : Bool
  skipAdd : Bool

inductive CharType where
  | quote | regular | space | variable_
  deriving DecidableEq

def isQuote (c : Char) : Bool := c == '"' || c == '\''

def VAR_DECLARATION : Text := "def".toList

def trim (text : Text) : Text := Java.trim (String.ofList text)

namespace Line

def getCharType (line : Line) (c : Char) : CharType :=
  if c == ' ' && !line.hasOpened && !line.assumeVariable && !line.skipAdd then .space
  else if isQuote c then .quote
  else if line.tokens.head? == some VAR_DECLARATION && c == '=' then .variable_
  else .regular

/-- A token `$name` is replaced where there is such a variable. -/
def valueOf (vars : Variables) (token : Text) : Text :=
  if token.head? = some '$' then (vars token.tail).getD token else token

def addToken (vars : Variables) (line : Line) (current : Text) : Line :=
  { line with tokens := line.tokens ++ [valueOf vars (trim current)] }

end Line

/-- The line, and the token that is being read. -/
structure State where
  line : Line
  current : Text

/-- A token that is complete. -/
def State.addToken (vars : Variables) (s : State) (current : Text) : State :=
  ⟨s.line.addToken vars current, []⟩

def step (vars : Variables) (s : State) (c : Char) : State :=
  match s.line.getCharType c with
  | .space => s.addToken vars s.current
  | .quote =>
    let current := s.current ++ ['"']
    if s.line.hasOpened then
      let s := s.addToken vars current
      { s with line := { s.line with hasOpened := false, skipAdd := true } }
    else ⟨{ s.line with hasOpened := true }, current⟩
  | .variable_ =>
    let s := if 0 < s.current.length then s.addToken vars s.current else s
    { s with line := { s.line with assumeVariable := true } }
  | .regular => ⟨{ s.line with skipAdd := false }, s.current ++ [c]⟩

def run (vars : Variables) (command : Text) : State :=
  command.foldl (step vars) ⟨⟨[], false, false, false⟩, []⟩

def finish (vars : Variables) (s : State) : Line :=
  if 0 < s.current.length then s.line.addToken vars s.current else s.line

def parse (vars : Variables) (command : Text) : Line := finish vars (run vars command)

inductive Outcome where
  /-- A `StringIndexOutOfBoundsException`. -/
  | indexError
  /-- An `ELException`. -/
  | evaluationFailed
  | parsed (args : List Text) (vars : Variables)

def isBlank (text : Text) : Bool := Java.isBlank (some (String.ofList text))

/-- `line.indexOf('=')` -/
def eqIdx (line : Text) : Option Nat := line.findIdx? fun c => c == '='

def parseLine (evaluate : Variables → Text → Option Text) (vars : Variables) (command : Text) :
    Outcome :=
  if command.head? = some '#' ∨ isBlank command then .parsed [] vars
  else
    match evaluate vars command with
    | none => .evaluationFailed
    | some line =>
      if VAR_DECLARATION <+: line then
        match eqIdx line with
        | none => .indexError
        | some eqIdx =>
          -- `substring(4, eqIdx)`
          if eqIdx < VAR_DECLARATION.length + 1 then .indexError
          else
            let name := trim ((line.take eqIdx).drop (VAR_DECLARATION.length + 1))
            let value := trim (line.drop (eqIdx + 1))
            let value := if ' ' ∈ value ∧ value.head? ≠ some '"' then '"' :: (value ++ ['"']) else value
            .parsed [] (Function.update vars name (some value))
      else
        let args := (parse vars line).tokens
        if args = [] ∧ isBlank line = false then
          .parsed ((Java.split ' ' (String.ofList line)).map String.toList) vars
        else .parsed args vars

/-! ## The text in front of a character -/

def quotes (text : Text) : Nat := text.countP isQuote

def endsQuote (text : Text) : Bool := text.getLast?.any isQuote

/-- Up to the first blank there is nothing but `def`, and control characters. -/
def Defines (text : Text) : Prop := ' ' ∈ text ∧ trim (text.takeWhile (· ≠ ' ')) = VAR_DECLARATION

/-- There is an equals sign behind `def`. -/
def Assigned (text : Text) : Prop := ∃ a b, text = a ++ '=' :: b ∧ Defines a

/-- A blank behind the text ends a token. -/
def Separates (text : Text) : Prop := Even (quotes text) ∧ endsQuote text = false ∧ ¬ Assigned text

@[simp] theorem quotes_append (a b : Text) : quotes (a ++ b) = quotes a + quotes b := List.countP_append

theorem quotes_singleton (c : Char) : quotes [c] = if isQuote c then 1 else 0 := by
  simp [quotes, List.countP_cons]

@[simp] theorem endsQuote_append_singleton (a : Text) (c : Char) : endsQuote (a ++ [c]) = isQuote c := by
  simp [endsQuote]

theorem assigned_append_singleton (a : Text) (c : Char) :
    Assigned (a ++ [c]) ↔ Assigned a ∨ c = '=' ∧ Defines a := by
  constructor
  · rintro ⟨x, y, h, hx⟩
    induction y using List.reverseRecOn with
    | nil =>
      obtain ⟨rfl, hc⟩ := List.append_inj' h rfl
      exact .inr ⟨(List.cons.inj hc).1, hx⟩
    | append_singleton y d _ =>
      rw [← List.cons_append, ← List.append_assoc] at h
      obtain ⟨rfl, _⟩ := List.append_inj' h rfl
      exact .inl ⟨x, y, rfl, hx⟩
  · rintro (⟨x, y, rfl, hx⟩ | ⟨rfl, ha⟩)
    · exact ⟨x, y ++ [c], by simp, hx⟩
    · exact ⟨a, [], rfl, ha⟩

/-! ## Trimmed texts -/

def isWhite (c : Char) : Bool := c.toNat ≤ 0x20

theorem trim_eq (text : Text) :
    trim text = (text.dropWhile isWhite).rdropWhile isWhite := by
  simp only [trim, Java.trim, String.toList_ofList]
  rfl

theorem trim_of_white {text : Text} (h : ∀ c ∈ text, isWhite c = true) : trim text = [] := by
  have hdrop : (text.dropWhile isWhite) = [] :=
    List.dropWhile_eq_nil_iff.mpr h
  rw [trim_eq, hdrop]
  rfl

theorem trim_append_left {w text : Text} (h : ∀ c ∈ w, isWhite c = true) : trim (w ++ text) = trim text := by
  rw [trim_eq, trim_eq, List.dropWhile_append_of_pos h]

theorem trim_cons {c : Char} (h : isWhite c = false) (text : Text) :
    ∃ rest, trim (c :: text) = c :: rest := by
  have hdrop : ((c :: text).dropWhile isWhite) = c :: text :=
    List.dropWhile_cons_of_neg (by simpa using h)
  rw [trim_eq, hdrop]
  have hpre := List.rdropWhile_prefix (isWhite) (l := c :: text)
  cases hrest : (c :: text).rdropWhile isWhite with
  | nil =>
    have hall := List.rdropWhile_eq_nil_iff.mp hrest c List.mem_cons_self
    rw [h] at hall
    cases hall
  | cons d rest =>
    rw [hrest] at hpre
    obtain ⟨post, hpost⟩ := hpre
    rw [(List.cons.inj hpost).1]
    exact ⟨rest, rfl⟩

/-- Only white space is trimmed away. -/
theorem trim_split (text : Text) : ∃ a b, text = a ++ trim text ++ b ∧ (∀ c ∈ a, isWhite c = true) ∧
    ∀ c ∈ b, isWhite c = true := by
  refine ⟨text.takeWhile isWhite, (text.dropWhile isWhite).rtakeWhile isWhite, ?_, ?_, ?_⟩
  · rw [trim_eq, List.append_assoc, List.rdropWhile_append_rtakeWhile, List.takeWhile_append_dropWhile]
  · exact fun c hc => List.mem_takeWhile_imp hc
  · exact fun c hc => List.mem_takeWhile_imp (List.mem_reverse.mp hc)

theorem mem_trim {text : Text} {c : Char} (hc : c ∈ text) (hwhite : isWhite c = false) : c ∈ trim text := by
  obtain ⟨a, b, htext, ha, hb⟩ := trim_split text
  rw [htext, List.mem_append, List.mem_append] at hc
  rcases hc with (hc | hc) | hc
  · rw [ha c hc] at hwhite
    cases hwhite
  · exact hc
  · rw [hb c hc] at hwhite
    cases hwhite

theorem not_white_of_isQuote {c : Char} (h : isQuote c = true) : isWhite c = false := by
  simp only [isQuote, Bool.or_eq_true, beq_iff_eq] at h
  rcases h with rfl | rfl <;> decide

/-- There are no quotes in the word `def`. -/
theorem trim_ne_def {text : Text} {c : Char} (hc : c ∈ text) (hquote : isQuote c = true) :
    trim text ≠ VAR_DECLARATION := by
  intro h
  have hmem := mem_trim hc (not_white_of_isQuote hquote)
  rw [h] at hmem
  have hletter : c = 'd' ∨ c = 'e' ∨ c = 'f' := by simpa [VAR_DECLARATION] using hmem
  rcases hletter with rfl | rfl | rfl <;> cases hquote

theorem not_defines {text : Text} {c : Char} (hc : c ∈ text.takeWhile (· ≠ ' '))
    (hquote : isQuote c = true) : ¬ Defines text := fun h => trim_ne_def hc hquote h.2

theorem takeWhile_of_not_mem {text : Text} (h : ' ' ∉ text) : text.takeWhile (· ≠ ' ') = text := by
  refine List.takeWhile_eq_self_iff.mpr fun c hc => decide_eq_true ?_
  rintro rfl
  exact h hc

/-- The first blank, and a quote in front of it, are not changed by what follows. -/
theorem defines_append {a b : Text} (h : ' ' ∈ a ∨ ∃ c ∈ a, isQuote c = true) :
    Defines (a ++ b) ↔ Defines a := by
  by_cases hblank : ' ' ∈ a
  · have htake : (a ++ b).takeWhile (· ≠ ' ') = a.takeWhile (· ≠ ' ') := by
      rw [List.takeWhile_append, if_neg]
      intro heq
      have hself := List.takeWhile_eq_self_iff.mp
        ((List.takeWhile_prefix _).eq_of_length heq) ' ' hblank
      simp at hself
    simp only [Defines, htake, List.mem_append, hblank, true_or]
  · obtain ⟨c, hc, hquote⟩ := h.resolve_left hblank
    have hmem : c ∈ (a ++ b).takeWhile (· ≠ ' ') := by
      rw [List.takeWhile_append_of_pos]
      · exact List.mem_append_left _ hc
      · intro d hd
        refine decide_eq_true ?_
        rintro rfl
        exact hblank hd
    exact ⟨fun h => absurd h (not_defines hmem hquote), fun h => absurd h.1 hblank⟩

/-! ## The state behind a text -/

def noVariables : Variables := fun _ => none

@[simp] theorem valueOf_noVariables (token : Text) : Line.valueOf noVariables token = token := by
  simp [Line.valueOf, noVariables]

theorem run_append_singleton (vars : Variables) (pre : Text) (c : Char) :
    run vars (pre ++ [c]) = step vars (run vars pre) c := by
  simp [run]

/-- What the parser knows of the text in front of a character. -/
structure Reads (pre : Text) (s : State) : Prop where
  opened : s.line.hasOpened = true ↔ ¬ Even (quotes pre)
  assumed : s.line.assumeVariable = true ↔ Assigned pre
  skipped : Even (quotes pre) → ¬ Assigned pre → s.line.skipAdd = endsQuote pre
  first : s.line.tokens ≠ [] → (s.line.tokens.head? = some VAR_DECLARATION ↔ Defines pre) ∧
    (' ' ∈ pre ∨ ∃ c ∈ pre, isQuote c = true)
  /-- The first token is being read: no blank and no quote has been, or a quote before any blank. -/
  reading : s.line.tokens = [] → (quotes pre = 0 ∧ ' ' ∉ pre ∧ s.current = pre) ∨
    (quotes pre = 1 ∧ (∃ c ∈ pre.takeWhile (· ≠ ' '), isQuote c = true) ∧ '"' ∈ s.current)

theorem Reads.not_defines {pre : Text} {s : State} (h : Reads pre s) (hfirst : s.line.tokens = []) :
    ¬ Defines pre := by
  rcases h.reading hfirst with ⟨_, hblank, _⟩ | ⟨_, ⟨c, hc, hquote⟩, _⟩
  · exact fun hdef => hblank hdef.1
  · exact BatchLines.not_defines hc hquote

theorem Reads.head {pre : Text} {s : State} (h : Reads pre s) :
    (s.line.tokens.head? == some VAR_DECLARATION) = true ↔ Defines pre := by
  rw [beq_iff_eq]
  by_cases hfirst : s.line.tokens = []
  · rw [hfirst]
    exact ⟨nofun, fun hdef => absurd hdef (h.not_defines hfirst)⟩
  · exact (h.first hfirst).1

/-- What a character is taken for. -/
theorem charType_run {pre : Text} {s : State} (h : Reads pre s) (c : Char) :
    (s.line.getCharType c = .space ↔ c = ' ' ∧ Separates pre) ∧
      (s.line.getCharType c = .quote ↔ isQuote c = true) ∧
      (s.line.getCharType c = .variable_ ↔ c = '=' ∧ Defines pre) := by
  have hspace : (c == ' ' && !s.line.hasOpened && !s.line.assumeVariable && !s.line.skipAdd) = true ↔
      c = ' ' ∧ Separates pre := by
    have hopened : s.line.hasOpened = false ↔ Even (quotes pre) := by
      rw [← Bool.not_eq_true, h.opened, not_not]
    have hassumed : s.line.assumeVariable = false ↔ ¬ Assigned pre := by
      rw [← Bool.not_eq_true, h.assumed]
    simp only [Bool.and_eq_true, beq_iff_eq, Bool.not_eq_true', and_assoc, Separates, hopened, hassumed]
    refine and_congr_right fun _ => and_congr_right fun heven => ?_
    rw [and_comm]
    refine and_congr_left fun hnot => ?_
    rw [h.skipped heven hnot]
  have hvariable : (s.line.tokens.head? == some VAR_DECLARATION && c == '=') = true ↔
      c = '=' ∧ Defines pre := by
    rw [Bool.and_eq_true, h.head, beq_iff_eq, and_comm]
  unfold Line.getCharType
  split
  · rename_i hc
    obtain ⟨rfl, hsep⟩ := hspace.mp hc
    simp [hsep, isQuote]
  · rename_i hc
    rw [hspace] at hc
    split
    · rename_i hquote
      have hne : c ≠ '=' := fun heq => by rw [heq] at hquote; cases hquote
      simp [hc, hquote, hne]
    · rename_i hquote
      split
      · rename_i hvar
        obtain ⟨rfl, hdef⟩ := hvariable.mp hvar
        simp [hdef, isQuote]
      · rename_i hvar
        rw [hvariable] at hvar
        simp [hc, hquote, hvar]

theorem mem_takeWhile_append {a b : Text} {p : Char → Bool} {c : Char} (h : c ∈ a.takeWhile p) :
    c ∈ (a ++ b).takeWhile p := by
  rw [List.takeWhile_append]
  split
  · exact List.mem_append_left _ ((List.takeWhile_prefix p).mem h)
  · exact h

theorem quotes_append_singleton (pre : Text) (c : Char) :
    quotes (pre ++ [c]) = quotes pre + if isQuote c then 1 else 0 := by
  rw [quotes_append, quotes_singleton]

theorem not_assigned {pre : Text} (h : ' ' ∉ pre) : ¬ Assigned pre := by
  rintro ⟨a, b, rfl, hdef⟩
  exact h (List.mem_append_left _ hdef.1)

section Step

variable {pre : Text} {s : State} {c : Char} (h : Reads pre s)
include h

theorem reads_space (hc : c = ' ') (hsep : Separates pre) :
    Reads (pre ++ [c]) (s.addToken noVariables s.current) := by
  subst hc
  obtain ⟨heven, hends, hnot⟩ := hsep
  have hquotes : quotes (pre ++ [' ']) = quotes pre := quotes_append_singleton pre ' '
  have hassigned : Assigned (pre ++ [' ']) ↔ Assigned pre := by
    rw [assigned_append_singleton]
    simp
  refine ⟨?_, ?_, fun _ _ => ?_, fun _ => ⟨?_, .inl (by simp)⟩, fun hnil => ?_⟩
  · rw [hquotes]
    exact h.opened
  · rw [hassigned]
    exact h.assumed
  · rw [endsQuote_append_singleton]
    exact (h.skipped heven hnot).trans hends
  · show (s.line.tokens ++ [Line.valueOf noVariables (trim s.current)]).head? = _ ↔ _
    rw [valueOf_noVariables]
    by_cases hfirst : s.line.tokens = []
    · rcases h.reading hfirst with ⟨_, hblank, hcurrent⟩ | ⟨hone, _, _⟩
      · have htake : (pre ++ [' ']).takeWhile (· ≠ ' ') = pre := by
          rw [List.takeWhile_append, takeWhile_of_not_mem hblank, if_pos rfl]
          simp
        rw [hfirst, hcurrent, Defines, htake]
        simp
      · rw [hone] at heven
        exact absurd heven (by decide)
    · rw [defines_append (h.first hfirst).2, List.head?_append_of_ne_nil _ hfirst]
      exact (h.first hfirst).1
  · exact absurd (List.append_eq_nil_iff.mp hnil).2 (List.cons_ne_nil _ _)

theorem reads_open (hc : isQuote c = true) (hclosed : s.line.hasOpened = false) :
    Reads (pre ++ [c]) ⟨{ s.line with hasOpened := true }, s.current ++ ['"']⟩ := by
  have hquotes : quotes (pre ++ [c]) = quotes pre + 1 := by rw [quotes_append_singleton, if_pos hc]
  have heven : Even (quotes pre) := by
    by_contra hodd
    rw [h.opened.mpr hodd] at hclosed
    cases hclosed
  have hne : c ≠ '=' ∧ c ≠ ' ' := by
    constructor <;>
    · rintro rfl
      cases hc
  refine ⟨?_, ?_, fun hsucc => ?_, fun hfirst => ⟨?_, ?_⟩, fun hfirst => ?_⟩
  · rw [hquotes, Nat.even_add_one]
    simp [heven]
  · rw [assigned_append_singleton]
    simp [hne.1, h.assumed]
  · rw [hquotes, Nat.even_add_one] at hsucc
    exact absurd heven hsucc
  · rw [defines_append (h.first hfirst).2]
    exact (h.first hfirst).1
  · exact .inr ⟨c, by simp, hc⟩
  · rcases h.reading hfirst with ⟨hzero, hblank, _⟩ | ⟨hone, _, _⟩
    · refine .inr ⟨by rw [hquotes, hzero], ⟨c, ?_, hc⟩, by simp⟩
      rw [takeWhile_of_not_mem]
      · simp
      · simp [hblank, hne.2.symm]
    · rw [hone] at heven
      exact absurd heven (by decide)

theorem reads_close (hc : isQuote c = true) (hopened : s.line.hasOpened = true) :
    Reads (pre ++ [c]) ⟨{ s.line with
      tokens := s.line.tokens ++ [trim (s.current ++ ['"'])], hasOpened := false, skipAdd := true }, []⟩ := by
  have hquotes : quotes (pre ++ [c]) = quotes pre + 1 := by rw [quotes_append_singleton, if_pos hc]
  have hodd : ¬ Even (quotes pre) := h.opened.mp hopened
  have hne : c ≠ '=' := by
    rintro rfl
    cases hc
  refine ⟨?_, ?_, fun _ _ => ?_, fun _ => ⟨?_, .inr ⟨c, by simp, hc⟩⟩, fun hnil => ?_⟩
  · rw [hquotes, Nat.even_add_one]
    simp [hodd]
  · rw [assigned_append_singleton]
    simp [hne, h.assumed]
  · rw [endsQuote_append_singleton]
    exact hc.symm
  · show (s.line.tokens ++ [trim (s.current ++ ['"'])]).head? = _ ↔ _
    by_cases hfirst : s.line.tokens = []
    · rcases h.reading hfirst with ⟨hzero, _, _⟩ | ⟨_, ⟨q, hq, hquote⟩, _⟩
      · rw [hzero] at hodd
        exact absurd (by decide) hodd
      · have htoken : trim (s.current ++ ['"']) ≠ VAR_DECLARATION := trim_ne_def (c := '"') (by simp) rfl
        rw [hfirst, List.nil_append, List.head?_cons, Option.some.injEq]
        exact ⟨fun heq => absurd heq htoken,
          fun hdef => absurd hdef (not_defines (mem_takeWhile_append hq) hquote)⟩
    · rw [defines_append (h.first hfirst).2, List.head?_append_of_ne_nil _ hfirst]
      exact (h.first hfirst).1
  · exact absurd (List.append_eq_nil_iff.mp hnil).2 (List.cons_ne_nil _ _)

theorem reads_variable (hc : c = '=') (hdef : Defines pre) {tokens : List Text} {current : Text}
    (htokens : s.line.tokens <+: tokens) :
    Reads (pre ++ [c]) ⟨{ s.line with tokens := tokens, assumeVariable := true }, current⟩ := by
  subst hc
  have hfirst : s.line.tokens ≠ [] := fun hnil => h.not_defines hnil hdef
  have hquotes : quotes (pre ++ ['=']) = quotes pre := quotes_append_singleton pre '='
  have hassigned : Assigned (pre ++ ['=']) := (assigned_append_singleton pre '=').mpr (.inr ⟨rfl, hdef⟩)
  obtain ⟨more, rfl⟩ := htokens
  refine ⟨?_, iff_of_true rfl hassigned, fun _ hnot => absurd hassigned hnot, fun _ => ⟨?_, ?_⟩,
    fun hnil => absurd (List.append_eq_nil_iff.mp hnil).1 hfirst⟩
  · rw [hquotes]
    exact h.opened
  · rw [defines_append (h.first hfirst).2, List.head?_append_of_ne_nil _ hfirst]
    exact (h.first hfirst).1
  · exact .inl (List.mem_append_left _ hdef.1)

theorem reads_regular (hquote : isQuote c = false) (hspace : ¬ (c = ' ' ∧ Separates pre))
    (hvar : ¬ (c = '=' ∧ Defines pre)) :
    Reads (pre ++ [c]) ⟨{ s.line with skipAdd := false }, s.current ++ [c]⟩ := by
  have hquotes : quotes (pre ++ [c]) = quotes pre := by
    rw [quotes_append_singleton, if_neg (by simp [hquote]), Nat.add_zero]
  refine ⟨?_, ?_, fun _ _ => ?_, fun hfirst => ⟨?_, ?_⟩, fun hfirst => ?_⟩
  · rw [hquotes]
    exact h.opened
  · rw [assigned_append_singleton]
    simp [hvar, h.assumed]
  · rw [endsQuote_append_singleton]
    exact hquote.symm
  · rw [defines_append (h.first hfirst).2]
    exact (h.first hfirst).1
  · rcases (h.first hfirst).2 with hblank | ⟨q, hq, hq'⟩
    · exact .inl (List.mem_append_left _ hblank)
    · exact .inr ⟨q, List.mem_append_left _ hq, hq'⟩
  · rcases h.reading hfirst with ⟨hzero, hblank, hcurrent⟩ | ⟨hone, ⟨q, hq, hq'⟩, hmem⟩
    · have hends : endsQuote pre = false := by
        rw [quotes, List.countP_eq_zero] at hzero
        cases hlast : pre.getLast? with
        | none => simp [endsQuote, hlast]
        | some d => simpa [endsQuote, hlast] using hzero d (List.mem_of_getLast? hlast)
      have hc : c ≠ ' ' := fun heq =>
        hspace ⟨heq, by rw [hzero]; decide, hends, not_assigned hblank⟩
      exact .inl ⟨by rw [hquotes, hzero], by simp [hblank, hc.symm], by rw [hcurrent]⟩
    · exact .inr ⟨by rw [hquotes, hone], ⟨q, mem_takeWhile_append hq, hq'⟩,
        List.mem_append_left _ hmem⟩

theorem reads_step (c : Char) : Reads (pre ++ [c]) (step noVariables s c) := by
  obtain ⟨hspace, hquote, hvar⟩ := charType_run h c
  unfold step
  cases htype : s.line.getCharType c with
  | space =>
    obtain ⟨hc, hsep⟩ := hspace.mp htype
    exact reads_space h hc hsep
  | quote =>
    have hc := hquote.mp htype
    cases hopened : s.line.hasOpened with
    | false => exact reads_open h hc hopened
    | true =>
      have hclose := reads_close h hc hopened
      simpa [State.addToken, Line.addToken] using hclose
  | variable_ =>
    obtain ⟨hc, hdef⟩ := hvar.mp htype
    dsimp only
    split
    · exact reads_variable h hc hdef (List.prefix_append _ _)
    · exact reads_variable h hc hdef (List.prefix_refl _)
  | regular =>
    rw [htype] at hspace hquote hvar
    refine reads_regular h ?_ ?_ ?_
    · exact Bool.eq_false_iff.mpr fun hc => by cases hquote.mpr hc
    · exact fun hc => by cases hspace.mpr hc
    · exact fun hc => by cases hvar.mpr hc

end Step

theorem reads_run (pre : Text) : Reads pre (run noVariables pre) := by
  induction pre using List.reverseRecOn with
  | nil =>
    have hnot : ¬ Assigned [] := not_assigned (by simp)
    refine ⟨?_, ?_, fun _ _ => rfl, fun h => absurd rfl h, fun _ => .inl ⟨rfl, by simp, rfl⟩⟩
    · simp [run, quotes]
    · simp [run, hnot]
  | append_singleton pre c ih =>
    rw [run_append_singleton]
    exact reads_step ih c

/-! ## Empty tokens -/

/-- The end of the text is the start of a token. -/
def Starts (text : Text) : Prop :=
  text = [] ∨ (∃ p, text = p ++ [' '] ∧ Separates p) ∨
    (∃ p c, text = p ++ [c] ∧ isQuote c = true ∧ ¬ Even (quotes p)) ∨ ∃ p, text = p ++ ['='] ∧ Defines p

/-- Behind the start of a token, white space aside, there is no end of the line (but directly behind
the start), no blank that separates, no equals sign of a definition (as the end), and no dollar. -/
def Clean (line : Text) : Prop := ∀ p w r, line = p ++ w ++ r → Starts p → (∀ c ∈ w, isWhite c = true) →
  (r = [] → w = []) ∧ (r.head? = some ' ' → ¬ Separates (p ++ w)) ∧
    (r.head? = some '=' → Defines (p ++ w) → w = []) ∧ r.head? ≠ some '$'

/-- Neither empty nor, as it may be, a variable. -/
def Fine (token : Text) : Prop := token ≠ [] ∧ token.head? ≠ some '$'

/-- What is done with a character. -/
theorem step_cases {pre : Text} {s : State} (h : Reads pre s) (c : Char) :
    (c = ' ' ∧ Separates pre ∧
      (step noVariables s c).line.tokens = s.line.tokens ++ [trim s.current] ∧
      (step noVariables s c).current = []) ∨
    (isQuote c = true ∧ Even (quotes pre) ∧ (step noVariables s c).line.tokens = s.line.tokens ∧
      (step noVariables s c).current = s.current ++ ['"']) ∨
    (isQuote c = true ∧ ¬ Even (quotes pre) ∧
      (step noVariables s c).line.tokens = s.line.tokens ++ [trim (s.current ++ ['"'])] ∧
      (step noVariables s c).current = []) ∨
    (c = '=' ∧ Defines pre ∧ (step noVariables s c).line.tokens =
        s.line.tokens ++ (if s.current = [] then [] else [trim s.current]) ∧
      (step noVariables s c).current = []) ∨
    ((isQuote c = false ∧ ¬ (c = ' ' ∧ Separates pre) ∧ ¬ (c = '=' ∧ Defines pre)) ∧
      (step noVariables s c).line.tokens = s.line.tokens ∧
      (step noVariables s c).current = s.current ++ [c]) := by
  obtain ⟨hspace, hquote, hvar⟩ := charType_run h c
  unfold step
  cases htype : s.line.getCharType c with
  | space =>
    obtain ⟨hc, hsep⟩ := hspace.mp htype
    exact .inl ⟨hc, hsep, by simp [State.addToken, Line.addToken]⟩
  | quote =>
    have hc := hquote.mp htype
    cases hopened : s.line.hasOpened with
    | false =>
      have heven : Even (quotes pre) := by
        by_contra hodd
        rw [h.opened.mpr hodd] at hopened
        cases hopened
      exact .inr (.inl ⟨hc, heven, rfl, rfl⟩)
    | true =>
      exact .inr (.inr (.inl ⟨hc, h.opened.mp hopened, by simp [State.addToken, Line.addToken]⟩))
  | variable_ =>
    obtain ⟨hc, hdef⟩ := hvar.mp htype
    refine .inr (.inr (.inr (.inl ⟨hc, hdef, ?_⟩)))
    cases hcurrent : s.current with
    | nil => simp [hcurrent]
    | cons d current => simp [State.addToken, Line.addToken]
  | regular =>
    rw [htype] at hspace hquote hvar
    refine .inr (.inr (.inr (.inr ⟨⟨?_, ?_, ?_⟩, rfl, rfl⟩)))
    · exact Bool.eq_false_iff.mpr fun hc => by cases hquote.mpr hc
    · exact fun hc => by cases hspace.mpr hc
    · exact fun hc => by cases hvar.mpr hc

/-- Tokens are never taken back. -/
theorem tokens_step (vars : Variables) (s : State) (c : Char) :
    s.line.tokens <+: (step vars s c).line.tokens := by
  unfold step
  split
  · exact List.prefix_append _ _
  · dsimp only
    split
    · exact List.prefix_append _ _
    · exact List.prefix_refl _
  · dsimp only
    split
    · exact List.prefix_append _ _
    · exact List.prefix_refl _
  · exact List.prefix_refl _

theorem tokens_foldl (vars : Variables) (s : State) (cs : Text) :
    s.line.tokens <+: (finish vars (cs.foldl (step vars) s)).tokens := by
  induction cs generalizing s with
  | nil =>
    rw [List.foldl_nil, finish]
    split
    · exact List.prefix_append _ _
    · exact List.prefix_refl _
  | cons c cs ih => exact (tokens_step vars s c).trans (ih (step vars s c))

theorem parse_append (vars : Variables) (pre cs : Text) :
    parse vars (pre ++ cs) = finish vars (cs.foldl (step vars) (run vars pre)) := by
  rw [parse, run, List.foldl_append]
  rfl

theorem run_space {pre : Text} (hsep : Separates pre) :
    (run noVariables (pre ++ [' '])).line.tokens =
        (run noVariables pre).line.tokens ++ [trim (run noVariables pre).current] ∧
      (run noVariables (pre ++ [' '])).current = [] := by
  rw [run_append_singleton]
  rcases step_cases (reads_run pre) ' ' with h | ⟨hquote, _⟩ | ⟨hquote, _⟩ | ⟨heq, _⟩ | ⟨⟨_, hnot, _⟩, _⟩
  · exact h.2.2
  · cases hquote
  · cases hquote
  · cases heq
  · exact absurd ⟨rfl, hsep⟩ hnot

theorem run_assign {pre : Text} (hdef : Defines pre) :
    (run noVariables (pre ++ ['='])).line.tokens = (run noVariables pre).line.tokens ++
        (if (run noVariables pre).current = [] then [] else [trim (run noVariables pre).current]) ∧
      (run noVariables (pre ++ ['='])).current = [] := by
  rw [run_append_singleton]
  rcases step_cases (reads_run pre) '=' with ⟨heq, _⟩ | ⟨hquote, _⟩ | ⟨hquote, _⟩ | h | ⟨⟨_, _, hnot⟩, _⟩
  · cases heq
  · cases hquote
  · cases hquote
  · exact h.2.2
  · exact absurd ⟨rfl, hdef⟩ hnot

theorem current_of_starts {p : Text} (h : Starts p) : (run noVariables p).current = [] := by
  rcases h with rfl | ⟨q, rfl, hsep⟩ | ⟨q, c, rfl, hc, hodd⟩ | ⟨q, rfl, hdef⟩
  · rfl
  · exact (run_space hsep).2
  · rw [run_append_singleton]
    rcases step_cases (reads_run q) c with ⟨rfl, _⟩ | ⟨_, heven, _⟩ | h | ⟨rfl, _⟩ | ⟨⟨hnot, _⟩, _⟩
    · cases hc
    · exact absurd heven hodd
    · exact h.2.2.2
    · cases hc
    · rw [hc] at hnot
      cases hnot
  · exact (run_assign hdef).2

/-- White space behind the start of a token is read, unless an empty token has been added. -/
theorem run_white {p w : Text} (hp : Starts p) (hw : ∀ c ∈ w, isWhite c = true) :
    (∃ t ∈ (run noVariables (p ++ w)).line.tokens, ¬ Fine t) ∨ (run noVariables (p ++ w)).current = w := by
  induction w using List.reverseRecOn with
  | nil =>
    rw [List.append_nil]
    exact .inr (current_of_starts hp)
  | append_singleton w c ih =>
    have hwhite : ∀ d ∈ w, isWhite d = true := fun d hd => hw d (List.mem_append_left _ hd)
    have hc : isWhite c = true := hw c (by simp)
    rw [← List.append_assoc, run_append_singleton]
    rcases ih hwhite with ⟨t, ht, hbad⟩ | hcurrent
    · exact .inl ⟨t, (tokens_step _ _ c).mem ht, hbad⟩
    · rcases step_cases (reads_run (p ++ w)) c with
        ⟨_, _, htokens, _⟩ | ⟨hquote, _⟩ | ⟨hquote, _⟩ | ⟨rfl, _⟩ | ⟨_, _, hnext⟩
      · refine .inl ⟨[], ?_, fun h => h.1 rfl⟩
        rw [htokens, hcurrent, trim_of_white hwhite]
        simp
      · exact absurd hc (by simp [not_white_of_isQuote hquote])
      · exact absurd hc (by simp [not_white_of_isQuote hquote])
      · cases hc
      · exact .inr (by rw [hnext, hcurrent])

/-- A token that starts with a dollar will be one of the line. -/
theorem dollar_foldl (cs : Text) : ∀ {pre w x : Text}, (∀ c ∈ w, isWhite c = true) →
    (run noVariables pre).current = w ++ '$' :: x →
      ∃ t ∈ (parse noVariables (pre ++ cs)).tokens, ¬ Fine t := by
  have hbad : ∀ {w x : Text}, (∀ c ∈ w, isWhite c = true) → ¬ Fine (trim (w ++ '$' :: x)) := by
    intro w x hw hfine
    obtain ⟨rest, hrest⟩ := trim_cons (c := '$') rfl x
    rw [trim_append_left hw, hrest] at hfine
    exact hfine.2 rfl
  induction cs with
  | nil =>
    intro pre w x hw hcurrent
    refine ⟨trim (w ++ '$' :: x), ?_, hbad hw⟩
    have hlen : 0 < (run noVariables pre).current.length := by
      rw [hcurrent, List.length_append, List.length_cons]
      omega
    rw [List.append_nil, parse, finish, if_pos hlen, hcurrent]
    simp [Line.addToken]
  | cons c cs ih =>
    intro pre w x hw hcurrent
    have hlater : ∀ t ∈ (run noVariables (pre ++ [c])).line.tokens, ¬ Fine t →
        ∃ t ∈ (parse noVariables (pre ++ c :: cs)).tokens, ¬ Fine t := by
      intro t ht htbad
      rw [List.append_cons, parse_append]
      exact ⟨t, (tokens_foldl _ _ cs).mem ht, htbad⟩
    have hreads := reads_run pre
    rcases step_cases hreads c with
      ⟨_, _, htokens, _⟩ | ⟨_, _, _, hnext⟩ | ⟨_, _, htokens, _⟩ | ⟨_, _, htokens, _⟩ | ⟨_, _, hnext⟩
    · refine hlater (trim (w ++ '$' :: x)) ?_ (hbad hw)
      simp [run_append_singleton, htokens, hcurrent]
    · rw [List.append_cons]
      refine ih (w := w) (x := x ++ ['"']) hw ?_
      simp [run_append_singleton, hnext, hcurrent]
    · refine hlater (trim (w ++ '$' :: (x ++ ['"']))) ?_ (hbad hw)
      simp [run_append_singleton, htokens, hcurrent]
    · refine hlater (trim (w ++ '$' :: x)) ?_ (hbad hw)
      simp [run_append_singleton, htokens, hcurrent]
    · rw [List.append_cons]
      refine ih (w := w) (x := x ++ [c]) hw ?_
      simp [run_append_singleton, hnext, hcurrent]

/-- The tokens so far, and the one being read, in a line that is clean. -/
structure Sane (pre : Text) (s : State) : Prop where
  tokens : ∀ t ∈ s.line.tokens, Fine t
  current : (∃ p w, pre = p ++ w ∧ Starts p ∧ (∀ c ∈ w, isWhite c = true) ∧ s.current = w) ∨
    ∃ w c x, s.current = w ++ c :: x ∧ (∀ d ∈ w, isWhite d = true) ∧ isWhite c = false ∧ c ≠ '$'

theorem fine_trim {w x : Text} {c : Char} (hw : ∀ d ∈ w, isWhite d = true) (hc : isWhite c = false)
    (hdollar : c ≠ '$') : Fine (trim (w ++ c :: x)) := by
  obtain ⟨rest, hrest⟩ := trim_cons hc x
  rw [trim_append_left hw, hrest]
  exact ⟨List.cons_ne_nil _ _, by simpa using hdollar⟩

theorem sane_run {line : Text} (h : Clean line) : ∀ {pre post : Text}, pre ++ post = line →
    Sane pre (run noVariables pre) := by
  intro pre
  induction pre using List.reverseRecOn with
  | nil =>
    intro post _
    exact ⟨nofun, .inl ⟨[], [], rfl, .inl rfl, nofun, rfl⟩⟩
  | append_singleton pre c ih =>
    intro post hline
    rw [List.append_assoc, List.singleton_append] at hline
    obtain ⟨hfine, hcurrent⟩ := ih hline
    have hclean : ∀ p w, pre = p ++ w → Starts p → (∀ d ∈ w, isWhite d = true) →
        (c = ' ' → ¬ Separates pre) ∧ (c = '=' → Defines pre → w = []) ∧ c ≠ '$' := by
      rintro p w rfl hp hw
      obtain ⟨_, hspace, hvar, hdollar⟩ := h p w (c :: post) hline.symm hp hw
      exact ⟨fun hc => hspace (by rw [hc, List.head?_cons]), fun hc => hvar (by rw [hc, List.head?_cons]),
        fun hc => hdollar (by rw [hc, List.head?_cons])⟩
    have hsnoc : ∀ t, Fine t → ∀ t' ∈ (run noVariables pre).line.tokens ++ [t], Fine t' := by
      intro t ht t' ht'
      rcases List.mem_append.mp ht' with h' | h'
      · exact hfine t' h'
      · rw [List.mem_singleton.mp h']
        exact ht
    rw [run_append_singleton]
    rcases step_cases (reads_run pre) c with ⟨rfl, hsep, htokens, hnext⟩ | ⟨hquote, _, htokens, hnext⟩ |
      ⟨hquote, hodd, htokens, hnext⟩ | ⟨rfl, hdef, htokens, hnext⟩ | ⟨⟨_, _⟩, htokens, hnext⟩
    · refine ⟨?_, .inl ⟨pre ++ [' '], [], by simp, .inr (.inl ⟨pre, rfl, hsep⟩), nofun, hnext⟩⟩
      rw [htokens]
      rcases hcurrent with ⟨p, w, hpre, hp, hw, _⟩ | ⟨w, d, x, hcur, hw, hd, hdollar⟩
      · exact absurd hsep ((hclean p w hpre hp hw).1 rfl)
      · rw [hcur]
        exact hsnoc _ (fine_trim hw hd hdollar)
    · refine ⟨by rwa [htokens], .inr ?_⟩
      rw [hnext]
      rcases hcurrent with ⟨p, w, _, _, hw, hcur⟩ | ⟨w, d, x, hcur, hw, hd, hdollar⟩
      · exact ⟨w, '"', [], by rw [hcur], hw, by decide, by decide⟩
      · exact ⟨w, d, x ++ ['"'], by rw [hcur]; simp, hw, hd, hdollar⟩
    · refine ⟨?_, .inl ⟨pre ++ [c], [], by simp, .inr (.inr (.inl ⟨pre, c, rfl, hquote, hodd⟩)), nofun, hnext⟩⟩
      rw [htokens]
      refine hsnoc _ ?_
      rcases hcurrent with ⟨p, w, _, _, hw, hcur⟩ | ⟨w, d, x, hcur, hw, hd, hdollar⟩
      · rw [hcur]
        exact fine_trim hw (by decide) (by decide)
      · rw [hcur, List.append_assoc]
        exact fine_trim hw hd hdollar
    · refine ⟨?_, .inl ⟨pre ++ ['='], [], by simp, .inr (.inr (.inr ⟨pre, rfl, hdef⟩)), nofun, hnext⟩⟩
      rw [htokens]
      rcases hcurrent with ⟨p, w, hpre, hp, hw, hcur⟩ | ⟨w, d, x, hcur, hw, hd, hdollar⟩
      · rw [hcur, (hclean p w hpre hp hw).2.1 rfl hdef]
        simpa using hfine
      · rw [hcur, if_neg (by simp)]
        exact hsnoc _ (fine_trim hw hd hdollar)
    · refine ⟨by rwa [htokens], ?_⟩
      rw [hnext]
      rcases hcurrent with ⟨p, w, hpre, hp, hw, hcur⟩ | ⟨w, d, x, hcur, hw, hd, hdollar⟩
      · cases hc : isWhite c with
        | true =>
          refine .inl ⟨p, w ++ [c], by rw [hpre, List.append_assoc], hp, ?_, by rw [hcur]⟩
          intro d hd
          rcases List.mem_append.mp hd with hd | hd
          · exact hw d hd
          · rw [List.mem_singleton.mp hd]
            exact hc
        | false => exact .inr ⟨w, c, [], by rw [hcur], hw, hc, (hclean p w hpre hp hw).2.2⟩
      · exact .inr ⟨w, d, x ++ [c], by rw [hcur]; simp, hw, hd, hdollar⟩

/-- In a clean line there are neither empty tokens nor variables, and in any other line there are. -/
theorem clean_iff (line : Text) : Clean line ↔ ∀ t ∈ (parse noVariables line).tokens, Fine t := by
  constructor
  · intro h t ht
    obtain ⟨hfine, hcurrent⟩ := sane_run h (List.append_nil line)
    rw [parse, finish] at ht
    split at ht
    · rename_i hlen
      simp only [Line.addToken, valueOf_noVariables, List.mem_append, List.mem_singleton] at ht
      rcases ht with ht | rfl
      · exact hfine t ht
      · rcases hcurrent with ⟨p, w, hline, hp, hw, hcur⟩ | ⟨w, c, x, hcur, hw, hc, hdollar⟩
        · rw [hcur, (h p w [] (by simp [hline]) hp hw).1 rfl] at hlen
          exact absurd hlen (Nat.lt_irrefl 0)
        · rw [hcur]
          exact fine_trim hw hc hdollar
    · exact hfine t ht
  · rintro h p w r rfl hp hw
    have hmem : ∀ cs, (∃ t ∈ (run noVariables (p ++ w ++ cs)).line.tokens, ¬ Fine t) → ∀ r', r = cs ++ r' → False := by
      rintro cs ⟨t, ht, hbad⟩ r' rfl
      refine hbad (h t ?_)
      rw [← List.append_assoc, parse_append]
      exact (tokens_foldl _ _ r').mem ht
    rcases run_white hp hw with hbad | hcurrent
    · exact absurd (hmem [] (by simpa using hbad) r rfl) id
    · refine ⟨fun hr => ?_, fun hr hsep => ?_, fun hr hdef => ?_, fun hr => ?_⟩
      · subst hr
        by_contra hne
        refine (h [] ?_).1 rfl
        rw [List.append_nil, parse, finish, hcurrent, if_pos (List.length_pos_of_ne_nil hne)]
        simp [Line.addToken, trim_of_white hw]
      · obtain ⟨r', rfl⟩ := List.head?_eq_some_iff.mp hr
        refine hmem [' '] ⟨[], ?_, fun hfine => hfine.1 rfl⟩ r' rfl
        rw [(run_space hsep).1, hcurrent, trim_of_white hw]
        simp
      · obtain ⟨r', rfl⟩ := List.head?_eq_some_iff.mp hr
        by_contra hne
        refine hmem ['='] ⟨[], ?_, fun hfine => hfine.1 rfl⟩ r' rfl
        rw [(run_assign hdef).1, hcurrent, if_neg hne, trim_of_white hw]
        simp
      · obtain ⟨r', rfl⟩ := List.head?_eq_some_iff.mp hr
        have hnext : (run noVariables (p ++ w ++ ['$'])).current = w ++ '$' :: [] := by
          rw [run_append_singleton]
          rcases step_cases (reads_run (p ++ w)) '$' with
            ⟨heq, _⟩ | ⟨hquote, _⟩ | ⟨hquote, _⟩ | ⟨heq, _⟩ | ⟨_, _, hnext⟩
          · cases heq
          · cases hquote
          · cases hquote
          · cases heq
          · rw [hnext, hcurrent]
        obtain ⟨t, ht, hbad⟩ := dollar_foldl r' hw hnext
        refine hbad (h t ?_)
        rwa [List.append_assoc _ _ r'] at ht

/-! ## Variables -/

/-- The values of the variables in place of the tokens. -/
def Line.withValues (vars : Variables) (line : Line) : Line :=
  { line with tokens := line.tokens.map (Line.valueOf vars) }

theorem head_withValues {vars : Variables} {tokens : List Text}
    (h : ∀ t ∈ tokens, Line.valueOf vars t = VAR_DECLARATION ↔ t = VAR_DECLARATION) :
    ((tokens.map (Line.valueOf vars)).head? == some VAR_DECLARATION) =
      (tokens.head? == some VAR_DECLARATION) := by
  cases tokens with
  | nil => rfl
  | cons t tokens =>
    have ht := h t List.mem_cons_self
    rw [Bool.eq_iff_iff]
    simp [ht]

theorem step_withValues {vars : Variables} {s : State} (c : Char)
    (h : ∀ t ∈ s.line.tokens, Line.valueOf vars t = VAR_DECLARATION ↔ t = VAR_DECLARATION) :
    step vars ⟨s.line.withValues vars, s.current⟩ c =
      ⟨(step noVariables s c).line.withValues vars, (step noVariables s c).current⟩ := by
  have htype : (s.line.withValues vars).getCharType c = s.line.getCharType c := by
    simp only [Line.getCharType, Line.withValues, head_withValues h]
  unfold step
  simp only [htype]
  cases s.line.getCharType c with
  | space => simp [State.addToken, Line.addToken, Line.withValues]
  | quote =>
    cases hopened : s.line.hasOpened <;> simp [State.addToken, Line.addToken, Line.withValues, hopened]
  | variable_ =>
    cases hcurrent : s.current <;> simp [State.addToken, Line.addToken, Line.withValues, hcurrent]
  | regular => rfl

/-- Variables change nothing but the tokens, unless their values take part in a definition. -/
theorem run_withValues {vars : Variables} {line : Text} : ∀ (post : Text),
    (∀ t ∈ (parse noVariables (line ++ post)).tokens,
      Line.valueOf vars t = VAR_DECLARATION ↔ t = VAR_DECLARATION) →
    run vars line = ⟨(run noVariables line).line.withValues vars, (run noVariables line).current⟩ := by
  induction line using List.reverseRecOn with
  | nil => exact fun _ _ => rfl
  | append_singleton pre c ih =>
    intro post h
    rw [List.append_assoc] at h
    rw [run_append_singleton, run_append_singleton, ih _ h]
    refine step_withValues c fun t ht => h t ?_
    rw [parse_append]
    exact (tokens_foldl _ _ _).mem ht

theorem parse_withValues {vars : Variables} {line : Text}
    (h : ∀ t ∈ (parse noVariables line).tokens, Line.valueOf vars t = VAR_DECLARATION ↔ t = VAR_DECLARATION) :
    (parse vars line).tokens = (parse noVariables line).tokens.map (Line.valueOf vars) := by
  rw [parse, run_withValues [] (by simpa using h), parse, finish, finish]
  split
  · simp [Line.addToken, Line.withValues]
  · rfl

theorem parse_of_fixed (vars : Variables) {line : Text}
    (h : ∀ t ∈ (parse noVariables line).tokens, Line.valueOf vars t = t) :
    (parse vars line).tokens = (parse noVariables line).tokens := by
  rw [parse_withValues fun t ht => by rw [h t ht]]
  conv_rhs => rw [← List.map_id (parse noVariables line).tokens]
  exact List.map_congr_left h

/-! ## Lines without index errors, and without empty tokens -/

/-- A line that is not empty has a token. -/
theorem parse_ne_nil {line : Text} (h : line ≠ []) : (parse noVariables line).tokens ≠ [] := by
  intro hnil
  have hlater := tokens_foldl noVariables (run noVariables line) []
  rw [List.foldl_nil, ← parse, hnil, List.prefix_nil] at hlater
  have hcurrent : (run noVariables line).current ≠ [] := by
    rcases (reads_run line).reading hlater with ⟨_, _, hcur⟩ | ⟨_, _, hmem⟩
    · rwa [hcur]
    · exact List.ne_nil_of_mem hmem
  rw [parse, finish, if_pos (List.length_pos_of_ne_nil hcurrent)] at hnil
  simp [Line.addToken] at hnil

/-- Neither an index error nor empty tokens. -/
def Outcome.Good : Outcome → Prop
  | .indexError => False
  | .evaluationFailed => True
  | .parsed args _ => [] ∉ args

/-- Whatever variables there are. -/
def Sound (evaluate : Variables → Text → Option Text) (command : Text) : Prop :=
  ∀ vars, (parseLine evaluate vars command).Good

/-- A blank line or a comment. -/
abbrev Skipped (command : Text) : Prop := command.head? = some '#' ∨ isBlank command = true

/-- In a definition there is an equals sign, and not directly behind the word `def`. -/
def WellFormed (line : Text) : Prop :=
  if VAR_DECLARATION <+: line then ∃ i, eqIdx line = some i ∧ VAR_DECLARATION.length < i else Clean line

def emptyVariables : Variables := fun _ => some []

theorem fine_of_emptyVariables {t : Text} (h : Line.valueOf emptyVariables t ≠ []) : Fine t := by
  unfold Line.valueOf emptyVariables at h
  split at h
  · exact absurd rfl h
  · rename_i hdollar
    exact ⟨h, hdollar⟩

theorem isBlank_nil : isBlank [] = true := rfl

section Evaluated

variable {evaluate : Variables → Text → Option Text} {command line : Text}

theorem parseLine_skipped (h : Skipped command) (vars : Variables) :
    parseLine evaluate vars command = .parsed [] vars := if_pos h

/-- A definition has an index to cut at. -/
theorem definition_good (hskipped : ¬ Skipped command) (hdef : VAR_DECLARATION <+: line)
    {vars : Variables} (heval : evaluate vars command = some line) :
    (parseLine evaluate vars command).Good ↔
      ∃ i, eqIdx line = some i ∧ VAR_DECLARATION.length < i := by
  rw [parseLine, if_neg hskipped]
  simp only [heval, if_pos hdef]
  cases hidx : eqIdx line with
  | none => simp [Outcome.Good]
  | some i =>
    dsimp only
    by_cases hlt : i < VAR_DECLARATION.length + 1
    · rw [if_pos hlt]
      refine iff_of_false id fun h => ?_
      obtain ⟨j, hj, hjlt⟩ := h
      cases hj
      omega
    · rw [if_neg hlt]
      exact iff_of_true List.not_mem_nil ⟨i, rfl, by omega⟩

/-- The tokens of a line of commands, none of which is empty. -/
theorem commands_good (hskipped : ¬ Skipped command) (hdef : ¬ VAR_DECLARATION <+: line)
    {vars : Variables} (heval : evaluate vars command = some line)
    (htokens : (parse vars line).tokens = (parse noVariables line).tokens.map (Line.valueOf vars)) :
    (parseLine evaluate vars command).Good ↔ [] ∉ (parse vars line).tokens := by
  have hnil : ¬ ((parse vars line).tokens = [] ∧ isBlank line = false) := by
    intro h
    obtain ⟨hnone, hblank⟩ := h
    by_cases hline : line = []
    · rw [hline, isBlank_nil] at hblank
      cases hblank
    · rw [htokens] at hnone
      exact parse_ne_nil hline (List.map_eq_nil_iff.mp hnone)
  rw [parseLine, if_neg hskipped]
  simp only [heval, if_neg hdef, if_neg hnil]
  rfl

theorem emptyVariables_tokens (line : Text) : (parse emptyVariables line).tokens =
    (parse noVariables line).tokens.map (Line.valueOf emptyVariables) := by
  refine parse_withValues fun t _ => ?_
  unfold Line.valueOf emptyVariables
  split
  · rename_i hdollar
    refine iff_of_false (by simp [VAR_DECLARATION]) fun ht => ?_
    rw [ht] at hdollar
    cases hdollar
  · rfl

theorem good_of_wellFormed {vars : Variables} (heval : evaluate vars command = some line)
    (h : WellFormed line) : (parseLine evaluate vars command).Good := by
  by_cases hskipped : Skipped command
  · rw [parseLine_skipped hskipped]
    exact List.not_mem_nil
  unfold WellFormed at h
  by_cases hdef : VAR_DECLARATION <+: line
  · rw [if_pos hdef] at h
    exact (definition_good hskipped hdef heval).mpr h
  · rw [if_neg hdef, clean_iff] at h
    have hfixed : ∀ t ∈ (parse noVariables line).tokens, Line.valueOf vars t = t := fun t ht =>
      if_neg (h t ht).2
    rw [commands_good hskipped hdef heval (parse_withValues fun t ht => by rw [hfixed t ht]),
      parse_of_fixed vars hfixed]
    exact fun hmem => (h [] hmem).1 rfl

/-- A line that is skipped, is well formed, or fails to be evaluated. -/
theorem rawSound_iff {result : Option Text} (heval : ∀ vars, evaluate vars command = result) :
    Sound evaluate command ↔ Skipped command ∨ ∀ line, result = some line → WellFormed line := by
  by_cases hskipped : Skipped command
  · refine iff_of_true (fun vars => ?_) (.inl hskipped)
    rw [parseLine_skipped hskipped]
    exact List.not_mem_nil
  rw [or_iff_right hskipped]
  constructor
  · intro h line hline
    unfold WellFormed
    by_cases hdef : VAR_DECLARATION <+: line
    · rw [if_pos hdef]
      exact (definition_good hskipped hdef ((heval noVariables).trans hline)).mp (h noVariables)
    · rw [if_neg hdef, clean_iff]
      intro t ht
      have hgood := (commands_good hskipped hdef ((heval emptyVariables).trans hline)
        (emptyVariables_tokens line)).mp (h emptyVariables)
      refine fine_of_emptyVariables fun hempty => hgood ?_
      rw [emptyVariables_tokens, ← hempty]
      exact List.mem_map_of_mem ht
  · intro h vars
    cases result with
    | none =>
      rw [parseLine, if_neg hskipped]
      simp only [heval vars]
      trivial
    | some line => exact good_of_wellFormed (heval vars) (h line rfl)

end Evaluated

end BatchLines
end Cli
end AppNG
