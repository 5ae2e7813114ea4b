import AppNG.Lib.JavaString
import AppNG.Lib.Machine
import AppNG.Properties.Names

/-!
# Databases.DatabaseName

The database of an application within a site: `DatabaseService.getDatabaseName`, and what is done
with a database of that name.

The name joins those of the site and the application with an underscore, which a hyphen in either of
them becomes as well, and is in lower case. A database that exists under the name is used as it is.

* `getDatabaseName_eq`: when two names are the same.
* `named_run`: every database has the name of the pair it was created for.
* `separate_iff`: two pairs are kept apart, in every run, if and only if their names do not collide.
-/

namespace AppNG
namespace Databases

open Properties Machine

/-- A site and an application. -/
structure Pair where
  site : StrictName
  application : StrictName
  deriving DecidableEq

/-- `StringUtils.trimToEmpty` -/
def trimToEmpty (s : Option String) : String := String.ofList ((s.map Java.trim).getD [])

/-- `name.replaceAll("-", "_")` -/
def replaceHyphens (name : String) : String :=
  String.ofList (name.toList.map fun c => if c = '-' then '_' else c)

def getDatabaseName (pair : Pair) (databasePrefix : Option String) : String :=
  String.ofList (Java.toLowerCase (trimToEmpty databasePrefix ++ "appng_" ++
    replaceHyphens pair.site.value ++ "_" ++ replaceHyphens pair.application.value))

/-! ## The database server -/

/-- A database, with the pair it was created for. -/
structure Database where
  name : String
  owner : Pair

def hasName (name : String) (database : Database) : Bool :=
  Java.toLowerCase database.name == Java.toLowerCase name

/-- What `migrateSchemaForApplication` does to the server, and the database that the pair is attached
to. -/
def assign (databasePrefix : Option String) (pair : Pair) (server : List Database) :
    List Database × Database :=
  let databaseName := getDatabaseName pair databasePrefix
  match server.find? (hasName databaseName) with
  | some existing => (server, existing)
  | none => (⟨databaseName, pair⟩ :: server, ⟨databaseName, pair⟩)

def dropDataBaseAndUser (databasePrefix : Option String) (pair : Pair) (server : List Database) :
    List Database :=
  server.filter (!hasName (getDatabaseName pair databasePrefix) ·)

inductive Operation where
  | assign (pair : Pair)
  | drop (pair : Pair)

def step (databasePrefix : Option String) (server : List Database) :
    Operation → List Database → Prop
  | .assign pair, server' => server' = (assign databasePrefix pair server).1
  | .drop pair, server' => server' = dropDataBaseAndUser databasePrefix pair server

/-! ## Names that collide -/

/-- What is left of a name in that of the database. -/
def nameKey (name : StrictName) : List Char := Java.toLowerCase (replaceHyphens name.value)

/-- The site of `q` is that of `p` with more behind it, which the application of `p` begins with. -/
def Shifted (p q : Pair) : Prop :=
  ∃ part, nameKey q.site = nameKey p.site ++ '_' :: part ∧
    nameKey p.application = part ++ '_' :: nameKey q.application

def Collide (p q : Pair) : Prop :=
  nameKey p.site = nameKey q.site ∧ nameKey p.application = nameKey q.application ∨
    Shifted p q ∨ Shifted q p

variable {databasePrefix : Option String} {p q : Pair} {server server' : List Database}
  {database : Database}

theorem getDatabaseName_toList :
    (getDatabaseName p databasePrefix).toList =
      Java.toLowerCase (trimToEmpty databasePrefix ++ "appng_") ++
        (nameKey p.site ++ '_' :: nameKey p.application) := by
  simp [getDatabaseName, nameKey, Java.toLowerCase]

theorem toLowerCase_getDatabaseName :
    Java.toLowerCase (getDatabaseName p databasePrefix) =
      (getDatabaseName p databasePrefix).toList := by
  rw [getDatabaseName, Java.toLowerCase_idem, String.toList_ofList]

theorem joined_eq_iff {as bs cs ds : List Char} :
    as ++ '_' :: bs = cs ++ '_' :: ds ↔
      as = cs ∧ bs = ds ∨ (∃ part, cs = as ++ '_' :: part ∧ bs = part ++ '_' :: ds) ∨
        ∃ part, as = cs ++ '_' :: part ∧ ds = part ++ '_' :: bs := by
  rw [List.append_eq_append_iff]
  constructor
  · rintro (⟨between, rfl, h⟩ | ⟨between, rfl, h⟩)
    · cases between with
      | nil => exact .inl ⟨by simp, by simpa using h⟩
      | cons c part =>
        simp only [List.cons_append, List.cons.injEq] at h
        obtain ⟨rfl, rfl⟩ := h
        exact .inr (.inl ⟨part, rfl, rfl⟩)
    · cases between with
      | nil => exact .inl ⟨by simp, by simpa using h.symm⟩
      | cons c part =>
        simp only [List.cons_append, List.cons.injEq] at h
        obtain ⟨rfl, rfl⟩ := h
        exact .inr (.inr ⟨part, rfl, rfl⟩)
  · rintro (⟨rfl, rfl⟩ | ⟨part, rfl, rfl⟩ | ⟨part, rfl, rfl⟩)
    · exact .inl ⟨[], by simp, by simp⟩
    · exact .inl ⟨'_' :: part, rfl, rfl⟩
    · exact .inr ⟨'_' :: part, rfl, rfl⟩

theorem getDatabaseName_eq :
    Java.toLowerCase (getDatabaseName p databasePrefix) =
      Java.toLowerCase (getDatabaseName q databasePrefix) ↔ Collide p q := by
  rw [toLowerCase_getDatabaseName, toLowerCase_getDatabaseName, getDatabaseName_toList,
    getDatabaseName_toList, List.append_cancel_left_eq]
  exact joined_eq_iff

/-! ## Runs -/

/-- Every database has the name of its owner. -/
def Named (databasePrefix : Option String) (server : List Database) : Prop :=
  ∀ database ∈ server, database.name = getDatabaseName database.owner databasePrefix

theorem assign_cases :
    (∃ existing ∈ server, hasName (getDatabaseName p databasePrefix) existing = true ∧
      assign databasePrefix p server = (server, existing)) ∨
    assign databasePrefix p server =
      (⟨getDatabaseName p databasePrefix, p⟩ :: server, ⟨getDatabaseName p databasePrefix, p⟩) := by
  cases hfind : server.find? (hasName (getDatabaseName p databasePrefix)) with
  | none => exact .inr (by simp [assign, hfind])
  | some existing =>
    exact .inl ⟨existing, List.mem_of_find?_eq_some hfind, List.find?_some hfind,
      by simp [assign, hfind]⟩

theorem named_step {operation : Operation} (h : Named databasePrefix server)
    (hstep : step databasePrefix server operation server') : Named databasePrefix server' := by
  cases operation with
  | assign pair =>
    obtain rfl : server' = (assign databasePrefix pair server).1 := hstep
    rcases assign_cases (p := pair) with ⟨existing, -, -, hassign⟩ | hassign
    · rw [hassign]
      exact h
    · rw [hassign]
      intro database hmem
      rcases List.mem_cons.mp hmem with rfl | hmem
      · rfl
      · exact h database hmem
  | drop pair =>
    obtain rfl : server' = dropDataBaseAndUser databasePrefix pair server := hstep
    intro database hmem
    exact h database (List.mem_of_mem_filter hmem)

theorem named_run {operations : List Operation}
    (h : Run (step databasePrefix) [] operations server) : Named databasePrefix server :=
  h.inv (P := fun _ server => Named databasePrefix server) (by simp [Named])
    fun _ _ _ _ hnamed hstep => named_step hnamed hstep

/-- `p` has a database of its own, which is not that of `q`, whatever was done before. -/
structure Separate (databasePrefix : Option String) (p q : Pair) : Prop where
  names : Java.toLowerCase (getDatabaseName p databasePrefix) ≠
    Java.toLowerCase (getDatabaseName q databasePrefix)
  attached : ∀ operations server, Run (step databasePrefix) [] operations server →
    (assign databasePrefix p server).2.owner ≠ q
  kept : ∀ operations server, Run (step databasePrefix) [] operations server →
    ∀ database ∈ server, database.owner = q → database ∈ dropDataBaseAndUser databasePrefix p server

theorem hasName_owner (hnamed : Named databasePrefix server) (hmem : database ∈ server) :
    hasName (getDatabaseName p databasePrefix) database = true ↔ Collide database.owner p := by
  rw [hasName, beq_iff_eq, hnamed database hmem, getDatabaseName_eq]

theorem collide_comm : Collide p q ↔ Collide q p := by
  have hnames : Collide p q ↔ Java.toLowerCase (getDatabaseName p none) =
      Java.toLowerCase (getDatabaseName q none) := getDatabaseName_eq.symm
  rw [hnames, eq_comm, getDatabaseName_eq]

theorem collide_self : Collide p p := .inl ⟨rfl, rfl⟩

/-- Two pairs are kept apart exactly if their names do not collide. -/
theorem separate_iff (databasePrefix : Option String) (p q : Pair) :
    Separate databasePrefix p q ↔ ¬ Collide p q := by
  constructor
  · rintro ⟨hnames, -, -⟩ hcollide
    exact hnames (getDatabaseName_eq.mpr hcollide)
  · intro h
    refine ⟨fun heq => h (getDatabaseName_eq.mp heq), ?_, ?_⟩
    · intro operations server hrun howner
      rcases assign_cases (p := p) with ⟨existing, hmem, hname, hassign⟩ | hassign
      · rw [hassign] at howner
        rw [hasName_owner (named_run hrun) hmem, howner] at hname
        exact h (collide_comm.mp hname)
      · rw [hassign] at howner
        obtain rfl : p = q := howner
        exact h collide_self
    · intro operations server hrun database hmem howner
      refine List.mem_filter.mpr ⟨hmem, ?_⟩
      rw [Bool.not_eq_true', ← Bool.not_eq_true, hasName_owner (named_run hrun) hmem, howner]
      exact fun hcollide => h (collide_comm.mp hcollide)

section Example

def shop : StrictName := ⟨"shop", List.all_eq_true.mp (by decide +kernel), by decide +kernel⟩
def shopEu : StrictName := ⟨"shop-eu", List.all_eq_true.mp (by decide +kernel), by decide +kernel⟩
def euBlog : StrictName := ⟨"eu-blog", List.all_eq_true.mp (by decide +kernel), by decide +kernel⟩
def blog : StrictName := ⟨"blog", List.all_eq_true.mp (by decide +kernel), by decide +kernel⟩

/-- The application `blog` of the site `shop-eu` gets the database of the application `eu-blog` of the
site `shop`, and takes it along when it goes. -/
theorem shop_not_separate :
    ¬ Separate none ⟨shopEu, blog⟩ ⟨shop, euBlog⟩ ∧
      (assign none ⟨shopEu, blog⟩ (assign none ⟨shop, euBlog⟩ []).1).2.owner = ⟨shop, euBlog⟩ ∧
      dropDataBaseAndUser none ⟨shopEu, blog⟩ (assign none ⟨shop, euBlog⟩ []).1 = [] := by
  refine ⟨fun h => h.names ?_, ?_, ?_⟩ <;> decide +kernel

end Example

end Databases
end AppNG
