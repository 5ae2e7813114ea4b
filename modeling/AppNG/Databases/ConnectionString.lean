import AppNG.Lib.Occurrences
import Mathlib.Data.List.TakeWhile

/-!
# Databases.ConnectionString

The name of the database in a JDBC-URL, `DatabaseType.getDatabaseName`, and the URL for another database,
`DatabaseConnection.getDatabaseConnectionString`.

For SQL Server the name is a property, and what follows it is cut off. For the others the name is the path, and
the new one takes its place wherever it occurs in the URL.

* `getDatabaseName_path`, `getDatabaseName_property`: where the name is found.
* `renamed_iff`: the new URL is the old one but for the name, and the new name is found in it, if and only if there
  are no parameters that are taken for a part of the name or cut off, the name occurs nowhere else, and nothing in
  the new name ends or begins one.
-/

namespace AppNG
namespace Databases
namespace ConnectionString

open Occurrences Removal

abbrev Text := List Char

/-! ## The code -/

inductive DatabaseType where
  | mysql
  | mssql
  | postgresql
  | hsql
  deriving DecidableEq, Repr

/-- `DATABASE_NAME` -/
def databaseNameProperty : Text := "databaseName=".toList

/-- None: the indices are wrong. -/
def substring (text : Text) (beginIndex endIndex : Nat) : Option Text :=
  if beginIndex ≤ endIndex ∧ endIndex ≤ text.length then some ((text.take endIndex).drop beginIndex) else none

/-- The end of an occurrence; an index of -1 is none. -/
def behind (length : Nat) : Option Nat → Nat
  | some i => i + length
  | none => length - 1

/-- `indexOf` from a position on. -/
def indexOfFrom (c : Char) (text : Text) (start : Nat) : Option Nat :=
  ((text.drop start).idxOf? c).map fun i => start + i

/-- It is the length of the text if there is no question mark. -/
def paramStart (jdbcUrl : Text) : Nat := jdbcUrl.idxOf '?'

/-- None: an exception. -/
def getDatabaseName (type : DatabaseType) (jdbcUrl : Text) : Option Text :=
  match type with
  | .mssql =>
    substring jdbcUrl (behind databaseNameProperty.length (last databaseNameProperty jdbcUrl)) (paramStart jdbcUrl)
  | _ =>
    let beginIndex := behind 1 (indexOfFrom '/' jdbcUrl (behind 2 (first ['/', '/'] jdbcUrl)))
    substring jdbcUrl beginIndex (paramStart jdbcUrl)

structure DatabaseConnection where
  type : DatabaseType
  jdbcUrl : Text

def getDatabaseConnectionString (connection : DatabaseConnection) (databaseName : Text) : Option Text :=
  match connection.type with
  | .mssql =>
    (substring connection.jdbcUrl 0
      (behind databaseNameProperty.length (first databaseNameProperty connection.jdbcUrl))).map (· ++ databaseName)
  | type =>
    (getDatabaseName type connection.jdbcUrl).map fun currentDatabaseName =>
      replace currentDatabaseName databaseName connection.jdbcUrl

/-! ## URLs -/

/-- What the parameters begin with. -/
def DatabaseType.separator : DatabaseType → Char
  | .mysql => '?'
  | .postgresql => '?'
  | .hsql => ';'
  | .mssql => ';'

/-- What stands between the server and the name. -/
def DatabaseType.introduction : DatabaseType → Text
  | .mssql => databaseNameProperty
  | _ => ['/']

/-- The server is a host, or several, with a port, and for SQL Server also the properties in front of the name. -/
structure JdbcUrl where
  type : DatabaseType
  /-- Such as `jdbc:mysql:`. -/
  lead : Text
  server : Text
  name : Text
  /-- With the separator. -/
  parameters : Text
  lead_plain : ∀ c ∈ lead, c ≠ '/' ∧ c ≠ '?' ∧ c ≠ ';'
  server_plain : type ≠ .mssql → ∀ c ∈ server, c ≠ '/' ∧ c ≠ '?' ∧ c ≠ ';'
  name_ne : name ≠ []
  name_plain : ∀ c ∈ name, c ≠ type.separator ∧ (type ≠ .mssql → c ≠ '/' ∧ c ≠ '?')
  separated : parameters = [] ∨ ∃ rest, parameters = type.separator :: rest

namespace JdbcUrl

variable (url : JdbcUrl)

/-- What is in front of the name, and of what introduces it. -/
def front : Text := url.lead ++ '/' :: '/' :: url.server

/-- The URL with another name. -/
def withName (name : Text) : Text := url.front ++ (url.type.introduction ++ (name ++ url.parameters))

def text : Text := url.withName url.name

def connection : DatabaseConnection := ⟨url.type, url.text⟩

end JdbcUrl

/-- The new URL differs in the name only, and the name that is found in it is the new one. -/
def Renamed (url : JdbcUrl) (databaseName : Text) : Prop :=
  getDatabaseConnectionString url.connection databaseName = some (url.withName databaseName) ∧
    getDatabaseName url.type (url.withName databaseName) = some databaseName

/-- The name is all that is replaced, and nothing is lost. -/
def Safe (url : JdbcUrl) (databaseName : Text) : Prop :=
  match url.type with
  | .mssql => url.parameters = [] ∧ ¬ databaseNameProperty <:+: url.front ∧ '?' ∉ url.front ∧
      ¬ databaseNameProperty <:+: databaseName ∧ '?' ∉ databaseName
  | type => (type.separator = '?' ∨ url.parameters = []) ∧ '?' ∉ databaseName ∧
      (databaseName = url.name ∨ ¬ url.name <:+: url.front ∧ ¬ url.name <:+: url.parameters)

/-! ## Names in a path -/

theorem substring_append (before rest : Text) {n : Nat} (hn : n ≤ rest.length) :
    substring (before ++ rest) before.length (before.length + n) = some (rest.take n) := by
  rw [substring, if_pos ⟨Nat.le_add_right _ _, by rw [List.length_append]; omega⟩, List.take_append,
    List.take_of_length_le (Nat.le_add_right _ _), Nat.add_sub_cancel_left, List.drop_append,
    List.drop_length, List.nil_append, Nat.sub_self, List.drop_zero]

theorem take_idxOf (c : Char) (text : Text) : text.take (text.idxOf c) = text.takeWhile (· != c) := by
  induction text with
  | nil => rfl
  | cons d text ih =>
    rw [List.idxOf_cons, List.takeWhile_cons]
    by_cases hd : d = c
    · simp [hd]
    · have hne : (d == c) = false := by simpa using hd
      simp [hne, hd, ih]

theorem first_slashes {lead : Text} (hlead : '/' ∉ lead) (rest : Text) :
    first ['/', '/'] (lead ++ '/' :: '/' :: rest) = some lead.length := by
  refine first_eq_some.mpr ⟨by simp, ?_, fun k hk hat => hlead ?_⟩
  · rw [← Nat.add_zero lead.length, at_append_right]
    exact ⟨rest, rfl⟩
  · have hslash : (lead ++ '/' :: '/' :: rest)[k]? = some '/' := head_of_at hat
    rw [List.getElem?_append_left hk] at hslash
    exact List.mem_of_getElem? hslash

theorem indexOfFrom_append {c : Char} (before rest : Text) {server : Text} (hserver : c ∉ server) :
    indexOfFrom c (before ++ (server ++ c :: rest)) before.length = some (before.length + server.length) := by
  have hindex : (server ++ c :: rest).idxOf? c = some server.length := by
    induction server with
    | nil => simp [List.idxOf?_cons]
    | cons d server ih =>
      rw [List.mem_cons, not_or] at hserver
      simp [List.idxOf?_cons, Ne.symm hserver.1, ih hserver.2]
  rw [indexOfFrom, List.drop_append, List.drop_length, List.nil_append, Nat.sub_self, List.drop_zero, hindex]
  rfl

/-- What is behind the server, up to the question mark. -/
theorem getDatabaseName_path {type : DatabaseType} (htype : type ≠ .mssql) {lead server : Text}
    (hlead : ∀ c ∈ lead, c ≠ '/' ∧ c ≠ '?') (hserver : ∀ c ∈ server, c ≠ '/' ∧ c ≠ '?') (rest : Text) :
    getDatabaseName type (lead ++ '/' :: '/' :: server ++ '/' :: rest) = some (rest.takeWhile (· != '?')) := by
  have htext : lead ++ '/' :: '/' :: server ++ '/' :: rest = (lead ++ ['/', '/']) ++ (server ++ '/' :: rest) := by simp
  have hslashes : first ['/', '/'] (lead ++ '/' :: '/' :: server ++ '/' :: rest) = some lead.length := by
    have hfirst := first_slashes (fun hmem => (hlead '/' hmem).1 rfl) (server ++ '/' :: rest)
    simpa using hfirst
  have hbegin : behind 1 (indexOfFrom '/' (lead ++ '/' :: '/' :: server ++ '/' :: rest) (lead.length + 2)) =
      (lead ++ '/' :: '/' :: server ++ ['/']).length := by
    have hindex := indexOfFrom_append (lead ++ ['/', '/']) rest fun hmem => (hserver '/' hmem).1 rfl
    rw [← htext, List.length_append] at hindex
    rw [show lead.length + 2 = lead.length + ['/', '/'].length from rfl, hindex, behind]
    simp only [List.length_append, List.length_cons, List.length_nil]
    omega
  have hstart : paramStart (lead ++ '/' :: '/' :: server ++ '/' :: rest) =
      (lead ++ '/' :: '/' :: server ++ ['/']).length + rest.idxOf '?' := by
    have hnot : '?' ∉ lead ++ '/' :: '/' :: server ++ ['/'] := by
      intro hmem
      simp only [List.mem_append, List.mem_cons, List.not_mem_nil, or_false] at hmem
      rcases hmem with (hmem | hmem | hmem | hmem) | hmem
      · exact (hlead '?' hmem).2 rfl
      · cases hmem
      · cases hmem
      · exact (hserver '?' hmem).2 rfl
      · cases hmem
    rw [paramStart, ← List.idxOf_append_of_notMem hnot]
    simp
  have hsub := substring_append (lead ++ '/' :: '/' :: server ++ ['/']) rest (List.idxOf_le_length (a := '?'))
  rw [take_idxOf] at hsub
  have hname : getDatabaseName type (lead ++ '/' :: '/' :: server ++ '/' :: rest) =
      substring (lead ++ '/' :: '/' :: server ++ '/' :: rest)
        (behind 1 (indexOfFrom '/' (lead ++ '/' :: '/' :: server ++ '/' :: rest)
          (behind 2 (first ['/', '/'] (lead ++ '/' :: '/' :: server ++ '/' :: rest)))))
        (paramStart (lead ++ '/' :: '/' :: server ++ '/' :: rest)) := by
    cases type with
    | mssql => exact absurd rfl htype
    | mysql => rfl
    | postgresql => rfl
    | hsql => rfl
  rw [hname, hslashes, behind, hbegin, hstart, ← hsub]
  simp

section Path

variable {url : JdbcUrl} (htype : url.type ≠ .mssql)
include htype

theorem withName_path (name : Text) : url.withName name = url.front ++ '/' :: (name ++ url.parameters) := by
  rw [JdbcUrl.withName]
  cases h : url.type with
  | mssql => exact absurd h htype
  | mysql => rfl
  | postgresql => rfl
  | hsql => rfl

theorem getDatabaseName_withName (name : Text) :
    getDatabaseName url.type (url.withName name) = some ((name ++ url.parameters).takeWhile (· != '?')) := by
  rw [withName_path htype]
  exact getDatabaseName_path htype (fun c hc => ⟨(url.lead_plain c hc).1, (url.lead_plain c hc).2.1⟩)
    (fun c hc => ⟨(url.server_plain htype c hc).1, (url.server_plain htype c hc).2.1⟩) _

theorem getDatabaseConnectionString_path (databaseName : Text) :
    getDatabaseConnectionString url.connection databaseName =
      some (replace ((url.name ++ url.parameters).takeWhile (· != '?')) databaseName url.text) := by
  have hname := getDatabaseName_withName htype url.name
  rw [← JdbcUrl.text] at hname
  have hstring : getDatabaseConnectionString url.connection databaseName =
      (getDatabaseName url.type url.text).map fun currentDatabaseName =>
        replace currentDatabaseName databaseName url.text := by
    rw [getDatabaseConnectionString, JdbcUrl.connection]
    cases h : url.type with
    | mssql => exact absurd h htype
    | mysql => rfl
    | postgresql => rfl
    | hsql => rfl
  rw [hstring, hname]
  rfl

theorem takeWhile_name (rest : Text) :
    (url.name ++ rest).takeWhile (· != '?') = url.name ++ rest.takeWhile (· != '?') := by
  refine List.takeWhile_append_of_pos fun c hc => ?_
  simpa using ((url.name_plain c hc).2 htype).2

/-- Where the parameters end the name, it is the one that is replaced. -/
theorem renamed_path_iff (hends : url.type.separator = '?' ∨ url.parameters = []) (databaseName : Text) :
    Renamed url databaseName ↔ '?' ∉ databaseName ∧
      (databaseName = url.name ∨ ¬ url.name <:+: url.front ∧ ¬ url.name <:+: url.parameters) := by
  have hslash : '/' ∉ url.name := fun hmem => ((url.name_plain '/' hmem).2 htype).1 rfl
  have hparameters : url.parameters.takeWhile (· != '?') = [] := by
    rcases url.separated with hnil | ⟨rest, hrest⟩
    · rw [hnil, List.takeWhile_nil]
    · rcases hends with hsep | hnil
      · rw [hrest, hsep, List.takeWhile_cons]
        rfl
      · rw [hnil, List.takeWhile_nil]
  have hnew : getDatabaseConnectionString url.connection databaseName = some (replace url.name databaseName url.front ++
      '/' :: (databaseName ++ replace url.name databaseName url.parameters)) := by
    rw [getDatabaseConnectionString_path htype, takeWhile_name htype, hparameters, List.append_nil, JdbcUrl.text,
      withName_path htype, replace_append_sep databaseName url.name_ne hslash, replace_at databaseName url.name_ne]
  have hread : getDatabaseName url.type (url.withName databaseName) = some databaseName ↔ '?' ∉ databaseName := by
    rw [getDatabaseName_withName htype, Option.some.injEq]
    constructor
    · intro heq hmem
      have hall := List.mem_takeWhile_imp (heq ▸ hmem)
      simp at hall
    · intro hnot
      rw [List.takeWhile_append_of_pos fun c hc => by simpa using fun heq : c = '?' => hnot (heq ▸ hc), hparameters,
        List.append_nil]
  rw [Renamed, hread, hnew, withName_path htype, Option.some.injEq, and_comm]
  refine and_congr_right fun _ => ?_
  by_cases heq : databaseName = url.name
  · rw [heq, replace_self url.name_ne, replace_self url.name_ne]
    simp
  · rw [or_iff_right heq]
    exact replace_both_iff url.name_ne heq url.front url.parameters ('/' :: databaseName)

/-- Parameters behind another separator are taken for a part of the name, and lost. -/
theorem not_renamed_of_separator (hsep : url.type.separator ≠ '?') (hne : url.parameters ≠ []) (databaseName : Text) :
    ¬ Renamed url databaseName := by
  obtain ⟨rest, hrest⟩ := url.separated.resolve_left hne
  have hplain : url.type.separator ∉ url.front ++ '/' :: url.name := by
    have hsemicolon : url.type.separator = ';' := by
      cases h : url.type with
      | mssql => exact absurd h htype
      | mysql => exact absurd (by rw [h]; rfl) hsep
      | postgresql => exact absurd (by rw [h]; rfl) hsep
      | hsql => rfl
    intro hmem
    simp only [JdbcUrl.front, List.mem_append, List.mem_cons] at hmem
    rw [hsemicolon] at hmem
    rcases hmem with (hmem | hmem | hmem | hmem) | hmem | hmem
    · exact (url.lead_plain ';' hmem).2.2 rfl
    · cases hmem
    · cases hmem
    · exact (url.server_plain htype ';' hmem).2.2 rfl
    · cases hmem
    · exact (url.name_plain ';' hmem).1 hsemicolon.symm
  -- the name that is found holds the parameters up to a question mark
  let current := url.name ++ url.type.separator :: rest.takeWhile (· != '?')
  let left := rest.dropWhile (· != '?')
  have hcurrent : current ≠ [] := by simp [current]
  have htake : (url.name ++ url.parameters).takeWhile (· != '?') = current := by
    rw [takeWhile_name htype, hrest, List.takeWhile_cons, if_pos (by simpa using hsep)]
  have htext : url.text = url.front ++ ['/'] ++ (current ++ left) := by
    rw [JdbcUrl.text, withName_path htype, hrest]
    simp [current, left, List.takeWhile_append_dropWhile]
  have hbefore : ∀ k, k < (url.front ++ ['/']).length → ¬ At current (url.front ++ ['/'] ++ (current ++ left)) k := by
    rintro k hk ⟨behind, hbehind⟩
    have hget : (url.front ++ ['/'] ++ (current ++ left))[k + url.name.length]? = some url.type.separator := by
      rw [← List.getElem?_drop, ← hbehind]
      simp [current]
    have hsplit : url.front ++ ['/'] ++ (current ++ left) =
        (url.front ++ '/' :: url.name) ++ (url.type.separator :: rest.takeWhile (· != '?') ++ left) := by
      simp [current]
    rw [hsplit, List.getElem?_append_left (by simp at hk ⊢; omega)] at hget
    exact hplain (List.mem_of_getElem? hget)
  have hnew : getDatabaseConnectionString url.connection databaseName =
      some (url.front ++ ['/'] ++ (databaseName ++ replace current databaseName left)) := by
    rw [getDatabaseConnectionString_path htype, htake, htext, replace_skip databaseName hcurrent (url.front ++ ['/']) _ hbefore,
      replace_at databaseName hcurrent]
  rintro ⟨hsame, _⟩
  rw [hnew, withName_path htype, hrest, Option.some.injEq, List.append_assoc, List.append_cancel_left_eq,
    List.singleton_append, List.cons.injEq, List.append_cancel_left_eq] at hsame
  have hleft := hsame.2
  cases hcases : left with
  | nil =>
    rw [hcases, replace_of_absent databaseName hcurrent fun hoccurs => hcurrent (List.infix_nil.mp hoccurs)] at hleft
    cases hleft
  | cons c more =>
    have hc : c = '?' := by
      have hhead := List.head?_dropWhile_not (· != '?') rest
      rw [show rest.dropWhile (· != '?') = c :: more from hcases] at hhead
      simpa using hhead
    have hnot : '?' ∉ current := by
      intro hmem
      simp only [current, List.mem_append, List.mem_cons] at hmem
      rcases hmem with hmem | hmem | hmem
      · exact ((url.name_plain '?' hmem).2 htype).2 rfl
      · exact hsep hmem.symm
      · have hall := List.mem_takeWhile_imp hmem
        simp at hall
    have hkept := replace_append_sep databaseName hcurrent hnot [] more
    rw [List.nil_append, ← hc, ← hcases, replace_of_absent databaseName hcurrent
      (fun hoccurs => hcurrent (List.infix_nil.mp hoccurs)), List.nil_append, hleft, List.cons.injEq] at hkept
    exact hsep (hkept.1.trans hc)

end Path

/-! ## Names in a property -/

theorem not_at_property {text : Text} {i j : Nat} (hi : At databaseNameProperty text i) (hlt : i < j)
    (hle : j < i + databaseNameProperty.length) : ¬ At databaseNameProperty text j :=
  not_at_of_at (by decide : 'd' ∉ "atabaseName=".toList) hi hlt hle

theorem at_front (front rest : Text) : At databaseNameProperty (front ++ (databaseNameProperty ++ rest)) front.length := by
  rw [← Nat.add_zero front.length, at_append_right]
  exact List.prefix_append _ _

/-- The property that is found first is the one behind a text if and only if the text does not hold it. -/
theorem first_property_iff (front rest : Text) :
    first databaseNameProperty (front ++ (databaseNameProperty ++ rest)) = some front.length ↔
      ¬ databaseNameProperty <:+: front := by
  rw [first_eq_some]
  constructor
  · rintro ⟨_, _, hnot⟩ hoccurs
    obtain ⟨k, hk, hat⟩ := infix_iff_at.mp hoccurs
    have hlen : k + "atabaseName=".length < front.length := length_of_at hat
    refine hnot k (by omega) ?_
    rw [At, List.drop_append_of_le_length hk]
    exact hat.trans (List.prefix_append _ _)
  · intro hnot
    refine ⟨by simp, at_front front rest, fun k hk hat => ?_⟩
    by_cases hfits : k + databaseNameProperty.length ≤ front.length
    · refine hnot (infix_iff_at.mpr ⟨k, by omega, ?_⟩)
      rw [At, List.drop_append_of_le_length (by omega)] at hat
      exact List.prefix_of_prefix_length_le hat (List.prefix_append _ _) (by rw [List.length_drop]; omega)
    · exact not_at_property hat hk (by omega) (at_front front rest)

theorem exists_first_property (front rest : Text) :
    ∃ i, i ≤ front.length ∧ first databaseNameProperty (front ++ (databaseNameProperty ++ rest)) = some i := by
  obtain ⟨i, hat, hnot⟩ := exists_least ⟨front.length, at_front front rest⟩
  have hle : i ≤ front.length := by
    by_contra hlt
    exact hnot front.length (by omega) (at_front front rest)
  exact ⟨i, hle, first_eq_some.mpr ⟨by rw [List.length_append]; omega, hat, hnot⟩⟩

/-- The name that is found behind the property. -/
theorem getDatabaseName_property (front name : Text) :
    getDatabaseName .mssql (front ++ (databaseNameProperty ++ name)) = some name ↔
      '?' ∉ front ∧ ¬ databaseNameProperty <:+: name ∧ '?' ∉ name := by
  have hlen : (front ++ (databaseNameProperty ++ name)).length =
      front.length + databaseNameProperty.length + name.length := by
    rw [List.length_append, List.length_append]
    omega
  have hbehind : ∀ k, At databaseNameProperty (front ++ (databaseNameProperty ++ name))
      (front.length + databaseNameProperty.length + k) ↔ At databaseNameProperty name k := by
    intro k
    rw [Nat.add_assoc, at_append_right, at_append_right]
  obtain ⟨i, hfront, hlast⟩ := exists_last (by omega) (at_front front name)
  obtain ⟨_, hat, hlater⟩ := last_eq_some.mp hlast
  have hquestion : (front ++ (databaseNameProperty ++ name)).idxOf '?' = (front ++ (databaseNameProperty ++ name)).length ↔
      '?' ∉ front ∧ '?' ∉ name := by
    rw [List.idxOf_eq_length_iff, List.mem_append, List.mem_append, not_or, not_or,
      and_iff_right (by decide : '?' ∉ databaseNameProperty)]
  have hle : (front ++ (databaseNameProperty ++ name)).idxOf '?' ≤ (front ++ (databaseNameProperty ++ name)).length :=
    List.idxOf_le_length
  simp only [getDatabaseName, hlast, behind, paramStart, substring]
  constructor
  · intro hsome
    split at hsome
    · rename_i hindices
      have hsize := congrArg List.length (Option.some.inj hsome)
      rw [List.length_drop, List.length_take] at hsize
      obtain ⟨hf, hn⟩ := hquestion.mp (by omega)
      refine ⟨hf, fun hoccurs => ?_, hn⟩
      obtain ⟨k, hk, hatk⟩ := infix_iff_at.mp hoccurs
      have hpos : 0 < databaseNameProperty.length := by decide
      exact hlater _ (by omega) (by omega) ((hbehind k).mpr hatk)
    · cases hsome
  · rintro ⟨hf, hnot, hn⟩
    have hi : i = front.length := by
      by_contra hne
      by_cases hover : i < front.length + databaseNameProperty.length
      · exact not_at_property (at_front front name) (by omega) hover hat
      · obtain ⟨k, rfl⟩ := Nat.exists_eq_add_of_le (Nat.le_of_not_lt hover)
        exact hnot (infix_iff_at.mpr ⟨k, by omega, (hbehind k).mp hat⟩)
    rw [hquestion.mpr ⟨hf, hn⟩, if_pos ⟨by omega, Nat.le_refl _⟩, List.take_length, hi, ← List.length_append,
      ← List.append_assoc, List.drop_left]

section Property

variable {url : JdbcUrl} (htype : url.type = .mssql)
include htype

theorem withName_property (name : Text) :
    url.withName name = url.front ++ (databaseNameProperty ++ (name ++ url.parameters)) := by
  rw [JdbcUrl.withName, htype]
  rfl

/-- What follows the first property is cut off. -/
theorem getDatabaseConnectionString_property_iff (databaseName : Text) :
    getDatabaseConnectionString url.connection databaseName = some (url.withName databaseName) ↔
      url.parameters = [] ∧ ¬ databaseNameProperty <:+: url.front := by
  obtain ⟨i, hle, hfirst⟩ := exists_first_property url.front (url.name ++ url.parameters)
  have hnew : getDatabaseConnectionString url.connection databaseName =
      some (url.text.take (i + databaseNameProperty.length) ++ databaseName) := by
    have hlen : i + databaseNameProperty.length ≤ url.text.length := by
      rw [JdbcUrl.text, withName_property htype]
      simp only [List.length_append]
      omega
    rw [getDatabaseConnectionString, JdbcUrl.connection, htype]
    dsimp only
    rw [JdbcUrl.text, withName_property htype, hfirst, behind, ← withName_property htype, ← JdbcUrl.text, substring,
      if_pos ⟨Nat.zero_le _, hlen⟩]
    rfl
  rw [hnew, Option.some.injEq, JdbcUrl.text, withName_property htype, withName_property htype]
  constructor
  · intro heq
    have hsize := congrArg List.length heq
    simp only [List.length_append, List.length_take] at hsize
    have hnil : url.parameters = [] := List.length_eq_zero_iff.mp (by omega)
    rw [hnil, List.length_nil] at hsize
    refine ⟨hnil, (first_property_iff url.front (url.name ++ url.parameters)).mp ?_⟩
    rw [hfirst]
    exact congrArg some (by omega)
  · rintro ⟨hnil, hnot⟩
    have hi := (first_property_iff url.front (url.name ++ url.parameters)).mpr hnot
    rw [hfirst, Option.some.injEq] at hi
    rw [hnil, hi, List.append_nil, ← List.length_append, ← List.append_assoc, List.take_left, List.append_nil,
      List.append_assoc]

theorem renamed_property_iff (databaseName : Text) :
    Renamed url databaseName ↔ url.parameters = [] ∧ ¬ databaseNameProperty <:+: url.front ∧ '?' ∉ url.front ∧
      ¬ databaseNameProperty <:+: databaseName ∧ '?' ∉ databaseName := by
  rw [Renamed, getDatabaseConnectionString_property_iff htype, and_assoc]
  refine and_congr_right fun hnil => and_congr_right fun _ => ?_
  rw [withName_property htype, hnil, List.append_nil, htype]
  exact getDatabaseName_property url.front databaseName

end Property

/-! ## All types -/

theorem renamed_iff (url : JdbcUrl) (databaseName : Text) : Renamed url databaseName ↔ Safe url databaseName := by
  by_cases htype : url.type = .mssql
  · rw [renamed_property_iff htype, Safe, htype]
  · have hsafe : Safe url databaseName ↔ (url.type.separator = '?' ∨ url.parameters = []) ∧ '?' ∉ databaseName ∧
        (databaseName = url.name ∨ ¬ url.name <:+: url.front ∧ ¬ url.name <:+: url.parameters) := by
      rw [Safe]
      cases h : url.type with
      | mssql => exact absurd h htype
      | mysql => exact Iff.rfl
      | postgresql => exact Iff.rfl
      | hsql => exact Iff.rfl
    rw [hsafe]
    by_cases hends : url.type.separator = '?' ∨ url.parameters = []
    · rw [and_iff_right hends]
      exact renamed_path_iff htype hends databaseName
    · rw [not_or] at hends
      exact iff_of_false (not_renamed_of_separator htype hends.1 hends.2 databaseName)
        fun h => h.1.elim hends.1 hends.2

def testUrl : JdbcUrl where
  type := .mysql
  lead := "jdbc:mysql:".toList
  server := "localhost:3306".toList
  name := "mysql".toList
  parameters := "?useSSL=false".toList
  lead_plain := by simp
  server_plain := fun _ => by simp
  name_ne := by decide
  name_plain := by simp [DatabaseType.separator]
  separated := .inr ⟨"useSSL=false".toList, rfl⟩

/-- The name of the database is replaced in the name of the driver as well. -/
theorem replaces_driver :
    getDatabaseConnectionString testUrl.connection "test".toList =
        some "jdbc:test://localhost:3306/test?useSSL=false".toList ∧
      ¬ Renamed testUrl "test".toList := by
  refine ⟨by decide +kernel, fun h => ?_⟩
  exact absurd ((renamed_path_iff (by decide) (.inl rfl) _).mp h).2 (by decide +kernel)

end ConnectionString
end Databases
end AppNG
