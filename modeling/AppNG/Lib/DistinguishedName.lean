/-!
# Lib.DistinguishedName

Distinguished names as strings (RFC 4514).

`parse` reads a string: backslash pairs first, then the separators that are not escaped. A type is
read in lower case, as types are compared without regard to case. What a value in BER means
(`#` and hex digits) is left open.

`parse_cons`: a value without syntax is read as it is.
-/

namespace AppNG
namespace DistinguishedName

/-- The types and values of one component. -/
abbrev Rdn := List (String × String)

abbrev Dn := List Rdn

/-! ## Pairs -/

/-- A character as it stands, an escaped one, or an escaped byte. -/
inductive Token where
  | plain (c : Char)
  | pair (c : Char)
  | byte (n : Nat)
  deriving DecidableEq, Repr

def hexDigit (c : Char) : Option Nat :=
  if '0' ≤ c ∧ c ≤ '9' then some (c.toNat - '0'.toNat)
  else if 'a' ≤ c ∧ c ≤ 'f' then some (c.toNat - 'a'.toNat + 10)
  else if 'A' ≤ c ∧ c ≤ 'F' then some (c.toNat - 'A'.toNat + 10)
  else none

def hexPair (c d : Char) : Option Nat :=
  match hexDigit c, hexDigit d with
  | some m, some n => some (16 * m + n)
  | _, _ => none

/-- What a backslash may escape by itself. -/
def isSpecial (c : Char) : Bool :=
  ['\\', '"', '+', ',', ';', '<', '>', ' ', '#', '='].contains c

def scan : List Char → Option (List Token)
  | [] => some []
  | c :: rest =>
    if c = '\\' then
      match rest with
      | [] => none
      | d :: rest =>
        if isSpecial d then (scan rest).map (.pair d :: ·)
        else
          match rest with
          | [] => none
          | e :: rest =>
            match hexPair d e with
            | some n => (scan rest).map (.byte n :: ·)
            | none => none
    else (scan rest).map (.plain c :: ·)

/-! ## Types -/

def plainChars : List Token → Option (List Char)
  | [] => some []
  | .plain c :: rest => (plainChars rest).map (c :: ·)
  | _ => none

def isAlpha (c : Char) : Bool := ('a' ≤ c ∧ c ≤ 'z') ∨ ('A' ≤ c ∧ c ≤ 'Z')

def isDigit (c : Char) : Bool := '0' ≤ c ∧ c ≤ '9'

def isKeyString : List Char → Bool
  | [] => false
  | c :: rest => isAlpha c && rest.all fun c => isAlpha c || isDigit c || c = '-'

def isNumber (cs : List Char) : Bool :=
  !cs.isEmpty && cs.all isDigit && (cs.head? ≠ some '0' || cs.length = 1)

def isNumericOid (cs : List Char) : Bool :=
  cs.all (fun c => isDigit c || c = '.') && 2 ≤ (cs.splitOn '.').length &&
    (cs.splitOn '.').all isNumber

def isType (cs : List Char) : Bool := isKeyString cs || isNumericOid cs

def lower (s : String) : String := String.ofList (s.toList.map Char.toLower)

/-! ## Values -/

/-- The characters of a value. Escaped bytes are UTF-8: `k` more of them make a character, which is
`low` at least and `acc` so far. -/
def decode (k low acc : Nat) : List Token → Option (List Char)
  | [] => if k = 0 then some [] else none
  | .plain c :: rest | .pair c :: rest =>
    if k = 0 then (decode 0 0 0 rest).map (c :: ·) else none
  | .byte n :: rest =>
    match k with
    | 0 =>
      if n < 0x80 then (decode 0 0 0 rest).map (Char.ofNat n :: ·)
      else if n < 0xC0 then none
      else if n < 0xE0 then decode 1 0x80 (n - 0xC0) rest
      else if n < 0xF0 then decode 2 0x800 (n - 0xE0) rest
      else if n < 0xF8 then decode 3 0x10000 (n - 0xF0) rest
      else none
    | k + 1 =>
      let acc := 64 * acc + (n - 0x80)
      if n < 0x80 ∨ 0xC0 ≤ n then none
      else if k = 0 then
        if low ≤ acc ∧ acc.isValidChar then (decode 0 0 0 rest).map (Char.ofNat acc :: ·) else none
      else decode k low acc rest

def isSyntax (c : Char) : Bool := ['"', '+', ',', ';', '<', '>', '\\', '\x00'].contains c

def isPlainSyntax : Token → Bool
  | .plain c => isSyntax c
  | _ => false

/-- No space at either end is left unescaped. -/
def isString (ts : List Token) : Bool :=
  !ts.any isPlainSyntax && ts.head? ≠ some (.plain ' ') && ts.getLast? ≠ some (.plain ' ')

def hexPairs : List Char → Option (List Nat)
  | [] => some []
  | [_] => none
  | c :: d :: rest =>
    match hexPair c d with
    | some n => (hexPairs rest).map (n :: ·)
    | none => none

def readValue (ber : List Nat → Option String) : List Token → Option String
  | .plain '#' :: rest =>
    match (plainChars rest).bind hexPairs with
    | some (n :: ns) => ber (n :: ns)
    | _ => none
  | ts => if isString ts then (decode 0 0 0 ts).map String.ofList else none

/-! ## Names -/

def splitFirst (ts : List Token) : Option (List Token × List Token) :=
  match ts.dropWhile (· ≠ .plain '=') with
  | [] => none
  | _ :: value => some (ts.takeWhile (· ≠ .plain '='), value)

def readTypeAndValue (ber : List Nat → Option String) (ts : List Token) :
    Option (String × String) :=
  match splitFirst ts with
  | none => none
  | some (type, value) =>
    match plainChars type, readValue ber value with
    | some cs, some v => if isType cs then some (lower (String.ofList cs), v) else none
    | _, _ => none

def readRdn (ber : List Nat → Option String) (ts : List Token) : Option Rdn :=
  (ts.splitOn (.plain '+')).mapM (readTypeAndValue ber)

def parse (ber : List Nat → Option String) (name : String) : Option Dn :=
  if name = "" then some []
  else
    match scan name.toList with
    | none => none
    | some ts => (ts.splitOn (.plain ',')).mapM (readRdn ber)

/-! ## Values without syntax -/

structure PlainValue (value : List Char) : Prop where
  noSyntax : ∀ c ∈ value, isSyntax c = false
  noSpace : value.head? ≠ some ' '
  noSharp : value.head? ≠ some '#'
  noSpaceAfter : value.getLast? ≠ some ' '

variable {ber : List Nat → Option String} {cs value : List Char}

theorem scan_append (h : '\\' ∉ cs) (ds : List Char) :
    scan (cs ++ ds) = (scan ds).map (cs.map .plain ++ ·) := by
  induction cs with
  | nil => simp
  | cons c cs ih =>
    have hc : c ≠ '\\' := fun hc => h (hc ▸ List.mem_cons_self)
    have ih := ih fun hmem => h (List.mem_cons_of_mem _ hmem)
    rw [List.cons_append, scan.eq_def]
    simp only [if_neg hc, ih, Option.map_map]
    rfl

@[simp] theorem plainChars_map : plainChars (cs.map .plain) = some cs := by
  induction cs with
  | nil => rfl
  | cons c cs ih => simp [plainChars, ih]

@[simp] theorem decode_map : decode 0 0 0 (cs.map .plain) = some cs := by
  induction cs with
  | nil => rfl
  | cons c cs ih => simp [decode, ih]

theorem plain_not_mem {c : Char} (h : c ∉ cs) : Token.plain c ∉ cs.map .plain := by
  intro hmem
  obtain ⟨d, hd, heq⟩ := List.mem_map.mp hmem
  exact h (Token.plain.inj heq ▸ hd)

theorem readValue_plain (h : PlainValue value) :
    readValue ber (value.map .plain) = some (String.ofList value) := by
  have hstring : isString (value.map .plain) = true := by
    have hany : (value.map Token.plain).any isPlainSyntax = false := by
      rw [List.any_eq_false]
      intro t ht
      obtain ⟨c, hc, rfl⟩ := List.mem_map.mp ht
      simp [isPlainSyntax, h.noSyntax c hc]
    have hfirst := h.noSpace
    have hlast := h.noSpaceAfter
    simp [isString, hany, List.head?_map, List.getLast?_map, hfirst, hlast]
  cases value with
  | nil => rfl
  | cons c cs =>
    have hc : c ≠ '#' := fun hc => h.noSharp (by rw [hc]; rfl)
    rw [List.map_cons] at hstring ⊢
    unfold readValue
    split
    · rename_i heq
      cases heq
      exact absurd rfl hc
    · rw [if_pos hstring, ← List.map_cons, decode_map]
      rfl

theorem isType_chars (h : isType cs = true) :
    ∀ c ∈ cs, c ≠ '=' ∧ c ≠ '+' ∧ c ≠ ',' ∧ c ≠ '\\' := by
  have hchar : ∀ c ∈ cs, (isAlpha c || isDigit c || c = '-' || c = '.') = true := by
    intro c hc
    rcases Bool.or_eq_true _ _ ▸ h with h | h
    · cases cs with
      | nil => cases hc
      | cons d ds =>
        simp only [isKeyString, Bool.and_eq_true, List.all_eq_true] at h
        rcases List.mem_cons.mp hc with rfl | hc
        · simp [h.1]
        · simp [h.2 c hc]
    · simp only [isNumericOid, Bool.and_eq_true, List.all_eq_true] at h
      have hd := h.1.1 c hc
      rcases Bool.or_eq_true _ _ ▸ hd with hd | hd <;> simp [hd]
  intro c hc
  have h := hchar c hc
  refine ⟨?_, ?_, ?_, ?_⟩ <;> rintro rfl <;> revert h <;> decide

theorem splitFirst_append (h : '=' ∉ cs) (ts : List Token) :
    splitFirst (cs.map .plain ++ .plain '=' :: ts) = some (cs.map .plain, ts) := by
  have hall : ∀ t ∈ cs.map Token.plain, (decide (t ≠ Token.plain '=')) = true := by
    intro t ht
    exact decide_eq_true fun heq => plain_not_mem h (heq ▸ ht)
  unfold splitFirst
  rw [List.dropWhile_append_of_pos hall, List.takeWhile_append_of_pos hall]
  simp

theorem readRdn_plain (htype : isType cs = true) (hvalue : PlainValue value) :
    readRdn ber ((cs ++ '=' :: value).map .plain) =
      some [(lower (String.ofList cs), String.ofList value)] := by
  have hplus : '+' ∉ cs ++ '=' :: value := by
    intro hmem
    rcases List.mem_append.mp hmem with hmem | hmem
    · exact (isType_chars htype _ hmem).2.1 rfl
    · rcases List.mem_cons.mp hmem with heq | hmem
      · cases heq
      · exact absurd (hvalue.noSyntax _ hmem) (by decide)
  have hequals : '=' ∉ cs := fun hmem => (isType_chars htype _ hmem).1 rfl
  unfold readRdn
  rw [List.splitOn_eq_singleton (plain_not_mem hplus), List.map_append, List.map_cons]
  simp [readTypeAndValue, splitFirst_append hequals, readValue_plain hvalue, htype]

/-- A value without syntax is read as it is, in front of any name. -/
theorem parse_cons {type value base : String} {dn : Dn} (htype : isType type.toList = true)
    (hvalue : PlainValue value.toList) (hbase : parse ber base = some dn) (hne : base ≠ "") :
    parse ber (type ++ "=" ++ value ++ "," ++ base) = some ([(lower type, value)] :: dn) := by
  let front := type.toList ++ '=' :: value.toList
  have hfront : ∀ c ∈ front, c ≠ ',' ∧ c ≠ '\\' := by
    intro c hmem
    rcases List.mem_append.mp hmem with hmem | hmem
    · exact (isType_chars htype c hmem).2.2
    · rcases List.mem_cons.mp hmem with rfl | hmem
      · decide
      · have hsyntax := hvalue.noSyntax c hmem
        constructor <;> rintro rfl <;> revert hsyntax <;> decide
  have hlist : (type ++ "=" ++ value ++ "," ++ base).toList = (front ++ [',']) ++ base.toList := by
    simp [front]
  have hnonempty : type ++ "=" ++ value ++ "," ++ base ≠ "" := by
    intro h
    rw [h] at hlist
    simp at hlist
  unfold parse at hbase ⊢
  rw [if_neg hne] at hbase
  rw [if_neg hnonempty, hlist, scan_append]
  · cases hscan : scan base.toList with
    | none => rw [hscan] at hbase; cases hbase
    | some ts =>
      have hdn : (ts.splitOn (.plain ',')).mapM (readRdn ber) = some dn := by
        rwa [hscan] at hbase
      have hcomma : Token.plain ',' ∉ front.map .plain :=
        plain_not_mem fun hmem => (hfront _ hmem).1 rfl
      have hmap : (front ++ [',']).map Token.plain ++ ts =
          front.map .plain ++ .plain ',' :: ts := by simp
      simp only [Option.map_some]
      rw [hmap, List.splitOn_append_cons_self_of_not_mem hcomma, List.mapM_cons,
        readRdn_plain htype hvalue, hdn]
      simp
  · intro hmem
    rcases List.mem_append.mp hmem with hmem | hmem
    · exact (hfront _ hmem).2 rfl
    · simp at hmem

example : parse (fun _ => none) "UID=anna,dc=example+l=a\\2C\\C3\\A4" =
    some [[("uid", "anna")], [("dc", "example"), ("l", "a,ä")]] := by decide +kernel

end DistinguishedName
end AppNG
