import AppNG.Lib.JavaString

/-!
# Lib.KeyValue

Lines of a key and a value, `key: value`, as Java writes and reads them.

* `readLines_join`: lines that are written are read again, if there is no line end in them.
* `split_entryLine`: what is split at the colon and trimmed again is the key and the value, if both
  are `Plain`.
* `plain_trim`: nothing else can be read: what comes out of a line is always `Plain`.
* `encodeHex_injective`, `plain_encodeHex`: hexadecimal digits are plain, and decide the bytes.
-/

namespace AppNG
namespace Java

/-! ## Lines -/

/-- `BufferedReader.readLine` until `null`: a line ends with LF, CR or CR LF. -/
def readChars : List Char → List (List Char)
  | [] => []
  | '\n' :: cs => [] :: readChars cs
  | '\r' :: '\n' :: cs => [] :: readChars cs
  | '\r' :: cs => [] :: readChars cs
  | c :: cs =>
    match readChars cs with
    | [] => [[c]]
    | line :: lines => (c :: line) :: lines

def readLines (s : String) : List String := (readChars s.toList).map String.ofList

def IsLineEnd (c : Char) : Prop := c = '\n' ∨ c = '\r'

theorem readChars_cons {c : Char} {cs : List Char} (hc : ¬ IsLineEnd c) :
    readChars (c :: cs) =
      match readChars cs with
      | [] => [[c]]
      | line :: lines => (c :: line) :: lines := by
  have hlf : c ≠ '\n' := fun h => hc (.inl h)
  have hcr : c ≠ '\r' := fun h => hc (.inr h)
  rw [readChars.eq_5]
  all_goals grind

theorem readChars_line {line rest : List Char} (h : ∀ c ∈ line, ¬ IsLineEnd c) :
    readChars (line ++ '\n' :: rest) = line :: readChars rest := by
  induction line with
  | nil => rfl
  | cons c line ih =>
    have hline := ih fun d hd => h d (List.mem_cons_of_mem c hd)
    rw [List.cons_append, readChars_cons (h c List.mem_cons_self), hline]

theorem not_isLineEnd_of_mem_readChars {cs : List Char} :
    ∀ line ∈ readChars cs, ∀ c ∈ line, ¬ IsLineEnd c := by
  have hempty : ∀ {lines : List (List Char)}, (∀ line ∈ lines, ∀ c ∈ line, ¬ IsLineEnd c) →
      ∀ line ∈ [] :: lines, ∀ c ∈ line, ¬ IsLineEnd c := by
    intro lines h line hline c hc
    rcases List.mem_cons.mp hline with rfl | hline
    · cases hc
    · exact h line hline c hc
  induction cs using readChars.induct with
  | case1 => simp [readChars]
  | case2 cs ih =>
    rw [readChars]
    exact hempty ih
  | case3 cs ih =>
    rw [readChars]
    exact hempty ih
  | case4 cs hcs ih =>
    rw [readChars.eq_4 cs hcs]
    exact hempty ih
  | case5 c cs hlf _ hcr hnil _ =>
    have hc : ¬ IsLineEnd c := fun h => h.elim hlf hcr
    rw [readChars_cons hc, hnil]
    simp [hc]
  | case6 c cs hlf _ hcr line lines hlines ih =>
    have hc : ¬ IsLineEnd c := fun h => h.elim hlf hcr
    rw [readChars_cons hc, hlines]
    rw [hlines] at ih
    intro l hl d hd
    rcases List.mem_cons.mp hl with rfl | hl
    · rcases List.mem_cons.mp hd with rfl | hd
      · exact hc
      · exact ih line List.mem_cons_self d hd
    · exact ih l (List.mem_cons_of_mem line hl) d hd

theorem readLines_line {line rest : String} (h : ∀ c ∈ line.toList, ¬ IsLineEnd c) :
    readLines (line ++ "\n" ++ rest) = line :: readLines rest := by
  have htext : (line ++ "\n" ++ rest).toList = line.toList ++ '\n' :: rest.toList := by
    simp
  rw [readLines, htext, readChars_line h, List.map_cons, String.ofList_toList, readLines]

theorem readLines_join {lines : List String} (h : ∀ line ∈ lines, ∀ c ∈ line.toList, ¬ IsLineEnd c) :
    readLines (String.join (lines.map (· ++ "\n"))) = lines := by
  induction lines with
  | nil => rfl
  | cons line lines ih =>
    rw [List.map_cons, String.join_cons, readLines_line (h line List.mem_cons_self),
      ih fun l hl => h l (List.mem_cons_of_mem line hl)]

theorem not_isLineEnd_of_mem_readLines {s line : String} (h : line ∈ readLines s) :
    ∀ c ∈ line.toList, ¬ IsLineEnd c := by
  obtain ⟨cs, hcs, rfl⟩ := List.mem_map.mp h
  rw [String.toList_ofList]
  exact not_isLineEnd_of_mem_readChars cs hcs

/-! ## Trimming and splitting -/

theorem trim_trim (s : String) : trim (String.ofList (trim s)) = trim s := by
  have hhead : (trim s).dropWhile (·.toNat ≤ 0x20) = trim s := by
    rw [List.dropWhile_eq_self_iff]
    intro hl
    have hpre : trim s <+: s.toList.dropWhile (·.toNat ≤ 0x20) := List.rdropWhile_prefix _ _
    rw [hpre.getElem hl]
    have hne : s.toList.dropWhile (·.toNat ≤ 0x20) ≠ [] := by
      intro hnil
      rw [hnil] at hpre
      rw [List.prefix_nil.mp hpre] at hl
      cases hl
    have hnot := List.head_dropWhile_not (fun c : Char => decide (c.toNat ≤ 0x20)) hne
    rw [List.head_eq_getElem] at hnot
    simpa using hnot
  rw [trim, String.toList_ofList, hhead]
  exact List.rdropWhile_idempotent _ _

theorem mem_of_mem_trim {s : String} {c : Char} (h : c ∈ trim s) : c ∈ s.toList :=
  (List.dropWhile_sublist _).subset ((List.rdropWhile_prefix _ _).subset h)

theorem trim_space (s : String) : trim (" " ++ s) = trim s := by
  simp [trim]

theorem of_mem_split {sep : Char} {s part : String} (h : part ∈ split sep s) :
    sep ∉ part.toList ∧ part.toList ⊆ s.toList := by
  by_cases hs : s = ""
  · subst hs
    obtain rfl : part = "" := List.mem_singleton.mp h
    simp
  · rw [split_of_ne hs] at h
    obtain ⟨cs, hcs, rfl⟩ := List.mem_map.mp h
    have hsplit : cs ∈ s.toList.splitOn sep := (List.rdropWhile_prefix _ _).subset hcs
    rw [String.toList_ofList]
    exact ⟨not_mem_of_mem_splitOn cs hsplit, mem_of_mem_splitOn cs hsplit⟩

/-! ## Keys and values -/

/-- A string that comes out of a line as it went in. -/
structure Plain (s : String) : Prop where
  colon : ':' ∉ s.toList
  lineEnd : ∀ c ∈ s.toList, ¬ IsLineEnd c
  trimmed : trim s = s.toList

theorem trim_of_visible {s : String} (h : ∀ c ∈ s.toList, 0x20 < c.toNat) : trim s = s.toList := by
  have hfirst : s.toList.dropWhile (·.toNat ≤ 0x20) = s.toList := by
    rw [List.dropWhile_eq_self_iff]
    intro hl
    have hc := h _ (List.getElem_mem hl)
    simpa using hc
  rw [trim, hfirst, List.rdropWhile_eq_self_iff]
  intro hl
  have hc := h _ (List.getLast_mem hl)
  simpa using hc

theorem plain_of_visible {s : String} (h : ∀ c ∈ s.toList, c ≠ ':' ∧ 0x20 < c.toNat) : Plain s := by
  refine ⟨fun hcolon => (h ':' hcolon).1 rfl, fun c hc hend => ?_, trim_of_visible fun c hc => (h c hc).2⟩
  have hvisible : 0x20 < c.toNat := (h c hc).2
  rcases hend with rfl | rfl
  · exact absurd hvisible (by decide)
  · exact absurd hvisible (by decide)

def entryLine (key value : String) : String := key ++ ": " ++ value

section Entry

variable {key value text line part : String}

theorem not_isLineEnd_entryLine (hkey : Plain key) (hvalue : Plain value) :
    ∀ c ∈ (entryLine key value).toList, ¬ IsLineEnd c := by
  intro c hc
  simp only [entryLine, String.toList_append, List.mem_append] at hc
  rcases hc with (hc | hc) | hc
  · exact hkey.lineEnd c hc
  · have hseparator : c = ':' ∨ c = ' ' := by simpa using hc
    rcases hseparator with rfl | rfl
    · simp [IsLineEnd]
    · simp [IsLineEnd]
  · exact hvalue.lineEnd c hc

theorem split_entryLine (hkey : Plain key) (hvalue : Plain value) :
    split ':' (entryLine key value) = [key, " " ++ value] := by
  have hlast : " " ++ value ≠ "" := by simp
  have hparts : ∀ part ∈ [key] ++ [" " ++ value], ':' ∉ part.toList := by
    simp [hkey.colon, hvalue.colon]
  exact split_join hlast hparts (k := 0) (by simp [entryLine])

theorem trim_key (hkey : Plain key) : String.ofList (trim key) = key := by
  rw [hkey.trimmed, String.ofList_toList]

theorem trim_value (hvalue : Plain value) : String.ofList (trim (" " ++ value)) = value := by
  rw [trim_space, trim_key hvalue]

/-- What is read from a line is plain, whatever the text is. -/
theorem plain_trim (hline : line ∈ readLines text) (hpart : part ∈ split ':' line) :
    Plain (String.ofList (trim part)) := by
  obtain ⟨hcolon, hsub⟩ := of_mem_split hpart
  refine ⟨?_, fun c hc => ?_, ?_⟩
  · rw [String.toList_ofList]
    exact fun h => hcolon (mem_of_mem_trim h)
  · rw [String.toList_ofList] at hc
    exact not_isLineEnd_of_mem_readLines hline c (hsub (mem_of_mem_trim hc))
  · rw [trim_trim, String.toList_ofList]

end Entry

/-! ## Hexadecimal digits -/

/-- `Hex.encodeHexString`. -/
def encodeHex (bytes : List UInt8) : String :=
  String.ofList (bytes.flatMap fun b => [Nat.digitChar (b.toNat / 16), Nat.digitChar (b.toNat % 16)])

theorem digitChar_injective : ∀ m n : Fin 16, Nat.digitChar m = Nat.digitChar n → m = n := by
  decide

theorem digitChar_visible : ∀ n : Fin 16, Nat.digitChar n ≠ ':' ∧ 0x20 < (Nat.digitChar n).toNat := by
  decide

theorem byte_injective {b c : UInt8} (hhigh : Nat.digitChar (b.toNat / 16) = Nat.digitChar (c.toNat / 16))
    (hlow : Nat.digitChar (b.toNat % 16) = Nat.digitChar (c.toNat % 16)) : b = c := by
  have hb : b.toNat < 256 := b.toNat_lt
  have hc : c.toNat < 256 := c.toNat_lt
  have hdiv : b.toNat / 16 = c.toNat / 16 := Fin.mk.inj_iff.mp
    (digitChar_injective ⟨b.toNat / 16, by omega⟩ ⟨c.toNat / 16, by omega⟩ hhigh)
  have hmod : b.toNat % 16 = c.toNat % 16 := Fin.mk.inj_iff.mp
    (digitChar_injective ⟨b.toNat % 16, by omega⟩ ⟨c.toNat % 16, by omega⟩ hlow)
  exact UInt8.toNat_inj.mp (by omega)

theorem encodeHex_injective : Function.Injective encodeHex := by
  intro bs cs h
  have hchars := String.ofList_injective h
  clear h
  induction bs generalizing cs with
  | nil =>
    cases cs with
    | nil => rfl
    | cons c cs => simp at hchars
  | cons b bs ih =>
    cases cs with
    | nil => simp at hchars
    | cons c cs =>
      simp only [List.flatMap_cons, List.cons_append, List.nil_append, List.cons.injEq] at hchars
      obtain ⟨hhigh, hlow, hrest⟩ := hchars
      rw [byte_injective hhigh hlow, ih hrest]

theorem mem_encodeHex {bytes : List UInt8} {c : Char} (h : c ∈ (encodeHex bytes).toList) :
    ∃ n : Fin 16, c = Nat.digitChar n := by
  rw [encodeHex, String.toList_ofList, List.mem_flatMap] at h
  obtain ⟨b, -, hc⟩ := h
  have hb : b.toNat < 256 := b.toNat_lt
  rcases List.mem_cons.mp hc with rfl | hc
  · exact ⟨⟨b.toNat / 16, by omega⟩, rfl⟩
  · exact ⟨⟨b.toNat % 16, by omega⟩, List.mem_singleton.mp hc⟩

theorem plain_encodeHex (bytes : List UInt8) : Plain (encodeHex bytes) := by
  refine plain_of_visible fun c hc => ?_
  obtain ⟨n, rfl⟩ := mem_encodeHex hc
  exact digitChar_visible n

end Java
end AppNG
