import AppNG.Lib.JavaString
import AppNG.Lib.Keyed
import Mathlib.Data.List.DropRight
import Mathlib.Data.List.MinMax
import Mathlib.Data.List.Pairwise
import Mathlib.Data.List.Sort

/-!
# Search.FileSystemProvider

`FileSystemProvider.indexDirectory`: the files below the folders of an `IndexConfig` become events, in
one producer for each folder. A producer has a queue, and nobody takes an event from it before all of
them are returned.

A `File` is the names after the slashes of its path, from the data directory on, and two of them are
equal if these are. No name has a slash or a backslash in it. Before Java 21 `new File(dataDir, "/")` ends
with a slash, as if with an empty name, and a file in it has that name in its path as well; from then on it
is the data directory.

* `walk_eq_filter`: a folder is walked through but for the directories that are skipped.
* `mem_createEvents_iff`: what becomes an event for the folders.
* `indexes_iff`: every file that should be indexed becomes one event, and no other file, if and only if
  no queue is too small and the walks only come to files that should be indexed, each in one walk.
-/

namespace AppNG
namespace Search

/-- What is read from a file: the tags of a JSP, or the text. -/
structure FileData where
  lastModified : Int
  /-- `ParseTags.parse` -/
  fieldMap : List (String × String)
  /-- `ParsingReader` -/
  text : String

/-- What `listFiles` returns, in its order, with what is in the directories. -/
inductive Listing where
  | nil
  | file (name : String) (data : FileData) (rest : Listing)
  | directory (name : String) (entries : Listing) (rest : Listing)

namespace Listing

def names : Listing → List String
  | nil => []
  | file name _ rest => name :: rest.names
  | directory name _ rest => name :: rest.names

def IsFileName (name : String) : Prop := name ≠ "" ∧ '/' ∉ name.toList ∧ '\\' ∉ name.toList

/-- Every entry of a directory has a name of its own. -/
def WellFormed : Listing → Prop
  | nil => True
  | file name _ rest => IsFileName name ∧ name ∉ rest.names ∧ rest.WellFormed
  | directory name entries rest =>
    IsFileName name ∧ name ∉ rest.names ∧ entries.WellFormed ∧ rest.WellFormed

/-- The files with the names on the way to them. -/
def files : Listing → List (List String × FileData)
  | nil => []
  | file name data rest => ([name], data) :: rest.files
  | directory name entries rest =>
    (entries.files.map fun file => (name :: file.1, file.2)) ++ rest.files

/-- What is in an entry: nothing in a file. -/
def get (name : String) : Listing → Option Listing
  | nil => none
  | file n _ rest => if n = name then some nil else rest.get name
  | directory n entries rest => if n = name then some entries else rest.get name

/-- What is in the file of a path. An empty name does not lead on. -/
def lookup : List String → Listing → Option Listing
  | [], listing => some listing
  | name :: path, listing =>
    if name = "" then listing.lookup path else (listing.get name).bind (lookup path)

end Listing

/-! ## The configuration -/

/-- The names in a folder of the configuration. -/
def folderNames (folder : String) : List String :=
  ((folder.toList.splitOn '/').filter fun name => !name.isEmpty).map String.ofList

/-- A line of the configuration, split at the semicolons and trimmed. The folder is written without
dots for a directory and without backslashes. -/
structure ConfigLine where
  folder : String
  language : String
  plain : "." ∉ folderNames folder ∧ ".." ∉ folderNames folder ∧ '\\' ∉ folder.toList

structure ConfigEntry where
  folder : String
  language : String

abbrev IndexConfig := Keyed ConfigEntry.folder

/-- A slash is put behind a folder that does not start with one. -/
def configEntry (line : ConfigLine) : ConfigEntry :=
  { folder := if Java.startsWith line.folder '/' then line.folder else line.folder ++ "/"
    language := line.language }

/-- A later line takes the place of one with the same folder. -/
def getInstance (configEntries : List ConfigLine) : IndexConfig :=
  configEntries.foldl (fun config line => config.put (configEntry line)) Keyed.empty

/-- The order decides on the order of the producers only. -/
def getFolders (config : IndexConfig) : List String :=
  (config.values.map ConfigEntry.folder).insertionSort (· ≤ ·)

/-! ## The code -/

structure FileSystemProvider where
  configLines : List ConfigLine
  extensions : List String
  jspExtension : String
  /-- none: it does not exist, or it is no directory -/
  dataDir : Option Listing
  /-- a folder above the data directory is like the data directory itself -/
  protectedFolders : List (List String)
  /-- `new File(dataDir, "/")` keeps the slash, as before Java 21 -/
  keepsSlash : Bool
  wellFormed : ∀ listing, dataDir = some listing → listing.WellFormed
  protected_names : ∀ folder ∈ protectedFolders, "" ∉ folder

def FileSystemProvider.config (provider : FileSystemProvider) : IndexConfig :=
  getInstance provider.configLines

/-- `new File(dataDir, folder)` -/
def FileSystemProvider.newFile (provider : FileSystemProvider) (folder : String) : List String :=
  if provider.keepsSlash = true ∧ folderNames folder = [] then [""] else folderNames folder

structure SimpleDocument where
  path : List String
  id : List String
  type : String
  date : Int
  language : String
  content : Option String
  name : Option String
  fields : List (String × String)

inductive DirectoryEvent where
  | clearIndex
  | create (document : SimpleDocument)

/-- The extension behind the last dot, if there is one. -/
def extension? (name : String) : Option String :=
  if '.' ∈ name.toList then some (String.ofList (name.toList.rtakeWhile (· ≠ '.'))) else none

def getExtension (name : String) : String := (extension? name).getD ""

/-- `FilenameUtils.isExtension`: without extensions the name must have none. -/
def isExtension (name : String) (extensions : List String) : Bool :=
  if extensions.isEmpty then (extension? name).isNone else extensions.contains (getExtension name)

/-- `"false".equalsIgnoreCase`. The long s has the upper case of an s. -/
def isFalse (value : String) : Bool :=
  value.toList.map (fun c => if c = 'ſ' then 's' else c.toLower) == ['f', 'a', 'l', 's', 'e']

def fieldValue (fieldMap : List (String × String)) (name : String) : Option String :=
  (fieldMap.find? fun field => field.1 = name).map (·.2)

/-- The page asks not to be indexed. -/
def skipsPage (data : FileData) : Bool := (fieldValue data.fieldMap "indexPage").any isFalse

/-- The event for a file. -/
def indexFile (provider : FileSystemProvider) (language : String) (serverPath : List String)
    (data : FileData) : DirectoryEvent :=
  let fileName := serverPath.getLast?.getD ""
  let document : SimpleDocument :=
    { path := serverPath
      id := serverPath
      type := getExtension fileName
      date := data.lastModified
      language
      content := none
      name := none
      fields := [] }
  if provider.jspExtension = getExtension fileName then
    if skipsPage data then .create document
    else .create { document with
      content := fieldValue data.fieldMap "contents"
      name := fieldValue data.fieldMap "title"
      fields := data.fieldMap.filter fun field => field.1 ∉ ["indexPage", "contents", "title"] }
  else .create { document with content := some data.text, name := some fileName }

/-- A full queue is a `TimeoutException`. -/
def putWithTimeout (queueSize : Nat) (queue : List DirectoryEvent) (event : DirectoryEvent) :
    Option (List DirectoryEvent) :=
  if queue.length < queueSize then some (queue ++ [event]) else none

/-- The events of a directory, behind those that are in the queue. -/
def indexFiles (provider : FileSystemProvider) (queueSize : Nat) (language : String)
    (skippedFolders : List (List String)) (currentDirectory : List String) :
    Listing → List DirectoryEvent → Option (List DirectoryEvent)
  | .nil, queue => some queue
  | .file name data rest, queue =>
    if isExtension name provider.extensions then
      (putWithTimeout queueSize queue
          (indexFile provider language (currentDirectory ++ [name]) data)).bind
        (indexFiles provider queueSize language skippedFolders currentDirectory rest)
    else indexFiles provider queueSize language skippedFolders currentDirectory rest queue
  | .directory name entries rest, queue =>
    if currentDirectory ++ [name] ∈ skippedFolders then
      indexFiles provider queueSize language skippedFolders currentDirectory rest queue
    else
      (indexFiles provider queueSize language skippedFolders (currentDirectory ++ [name]) entries
          queue).bind
        (indexFiles provider queueSize language skippedFolders currentDirectory rest)

/-- The protected folders and the other folders of the configuration. -/
def skippedFolders (provider : FileSystemProvider) (folder : String) : List (List String) :=
  provider.protectedFolders ++ (((getFolders provider.config).erase folder).map provider.newFile)

/-- The producer for a folder, if it exists. Outer none: an exception. -/
def indexFolder (provider : FileSystemProvider) (queueSize : Nat) (dataDir : Listing)
    (folder : String) : Option (List (List DirectoryEvent)) :=
  (provider.config.get folder).bind fun entry =>
    match dataDir.lookup (provider.newFile folder) with
    | none => some []
    | some entries =>
      (indexFiles provider queueSize entry.language (skippedFolders provider folder)
        (provider.newFile folder) entries []).map ([·])

def indexFolders (provider : FileSystemProvider) (queueSize : Nat) (dataDir : Listing) :
    List String → Option (List (List DirectoryEvent))
  | [] => some []
  | folder :: folders =>
    (indexFolder provider queueSize dataDir folder).bind fun producers =>
      (indexFolders provider queueSize dataDir folders).map (producers ++ ·)

/-- The queues of the producers. None: a `TimeoutException`. -/
def indexDirectory (provider : FileSystemProvider) (documentQueueSize : Nat) :
    Option (List (List DirectoryEvent)) :=
  match provider.dataDir with
  | none => some [[.clearIndex]]
  | some dataDir =>
    (indexFolders provider documentQueueSize dataDir (getFolders provider.config)).map
      ([.clearIndex] :: ·)

/-! ## What it should do -/

/-- The path leads into the folder. -/
def Below (folder path : List String) : Prop := folder <+: path ∧ folder ≠ path

instance (folder path : List String) : Decidable (Below folder path) :=
  inferInstanceAs (Decidable (_ ∧ _))

section Spec

variable (provider : FileSystemProvider)

def FileSystemProvider.files : List (List String × FileData) :=
  (provider.dataDir.map Listing.files).getD []

def fileName (path : List String) : String := path.getLast?.getD ""

/-- A JSP that asks not to be indexed. -/
def Skips (path : List String) (data : FileData) : Prop :=
  provider.jspExtension = getExtension (fileName path) ∧ skipsPage data = true

/-- The file should be indexed. -/
structure Wanted (path : List String) (data : FileData) : Prop where
  file : (path, data) ∈ provider.files
  extension : getExtension (fileName path) ∈ provider.extensions
  configured : ∃ entry ∈ provider.config.values, Below (folderNames entry.folder) path
  unprotected : ∀ folder ∈ provider.protectedFolders, ¬ Below folder path
  indexed : ¬ Skips provider path data

/-- The folder of the entry contains the file, and no other one inside of it does. -/
def Innermost (entry : ConfigEntry) (path : List String) : Prop :=
  entry ∈ provider.config.values ∧ Below (folderNames entry.folder) path ∧
    ∀ other ∈ provider.config.values, Below (folderNames other.folder) path →
      (folderNames other.folder).length ≤ (folderNames entry.folder).length

def DirectoryEvent.id : DirectoryEvent → Option (List String)
  | .clearIndex => none
  | .create document => some document.id

structure IndexesFiles (events : List DirectoryEvent) : Prop where
  complete : ∀ path data, Wanted provider path data →
    ∃ entry, Innermost provider entry path ∧ indexFile provider entry.language path data ∈ events
  sound : ∀ event ∈ events, ∃ path data entry, Wanted provider path data ∧
    Innermost provider entry path ∧ event = indexFile provider entry.language path data
  once : (events.map DirectoryEvent.id).Nodup

/-- The index is cleared, and then it is filled with the files. -/
def IndexesDirectory (documentQueueSize : Nat) : Prop :=
  ∃ producers, indexDirectory provider documentQueueSize = some ([.clearIndex] :: producers) ∧
    IndexesFiles provider producers.flatten

/-- A directory on the way from the folder to the file. -/
def Between (base folder path : List String) : Prop := Below base folder ∧ Below folder path

instance (base folder path : List String) : Decidable (Between base folder path) :=
  inferInstanceAs (Decidable (_ ∧ _))

/-- The extension is one of the list, or there is none of both. -/
def Accepted (path : List String) : Prop := isExtension (fileName path) provider.extensions = true

instance (path : List String) : Decidable (Accepted provider path) :=
  inferInstanceAs (Decidable (_ = true))

/-- The walk through the folder of an entry comes to the file. -/
def Reached (entry : ConfigEntry) (path : List String) : Prop :=
  Below (folderNames entry.folder) path ∧
    ∀ folder ∈ skippedFolders provider entry.folder,
      ¬ Between (provider.newFile entry.folder) folder
        (provider.newFile entry.folder ++ path.drop (folderNames entry.folder).length)

instance (entry : ConfigEntry) (path : List String) : Decidable (Reached provider entry path) :=
  inferInstanceAs (Decidable (_ ∧ _))

end Spec

/-! ## Files of a listing -/

namespace Listing

variable {listing : Listing} {path : List String} {data : FileData}

theorem ne_nil_of_mem_files (h : (path, data) ∈ listing.files) : path ≠ [] := by
  induction listing with
  | nil => cases h
  | file name data' rest ih =>
    rcases List.mem_cons.mp h with heq | h
    · cases heq
      exact List.cons_ne_nil _ _
    · exact ih h
  | directory name entries rest _ ih =>
    rcases List.mem_append.mp h with h | h
    · obtain ⟨file, -, heq⟩ := List.mem_map.mp h
      cases heq
      exact List.cons_ne_nil _ _
    · exact ih h

/-- The first name on the way to a file is one of the listing. -/
theorem head_mem_names {name : String} (h : (name :: path, data) ∈ listing.files) :
    name ∈ listing.names := by
  induction listing with
  | nil => cases h
  | file n data' rest ih =>
    rcases List.mem_cons.mp h with heq | h
    · cases heq
      exact List.mem_cons_self
    · exact List.mem_cons_of_mem _ (ih h)
  | directory n entries rest _ ih =>
    rcases List.mem_append.mp h with h | h
    · obtain ⟨file, -, heq⟩ := List.mem_map.mp h
      cases heq
      exact List.mem_cons_self
    · exact List.mem_cons_of_mem _ (ih h)

theorem ne_empty_of_mem_names (h : listing.WellFormed) {name : String} (hname : name ∈ listing.names) :
    name ≠ "" := by
  induction listing with
  | nil => cases hname
  | file n data' rest ih =>
    obtain ⟨hn, -, hrest⟩ := h
    rcases List.mem_cons.mp hname with rfl | hname
    · exact hn.1
    · exact ih hrest hname
  | directory n entries rest _ ih =>
    obtain ⟨hn, -, -, hrest⟩ := h
    rcases List.mem_cons.mp hname with rfl | hname
    · exact hn.1
    · exact ih hrest hname

theorem nodup_files (h : listing.WellFormed) : (listing.files.map Prod.fst).Nodup := by
  induction listing with
  | nil => exact List.nodup_nil
  | file name data' rest ih =>
    obtain ⟨-, hname, hrest⟩ := h
    rw [files, List.map_cons, List.nodup_cons]
    refine ⟨fun hmem => ?_, ih hrest⟩
    obtain ⟨file, hfile, heq⟩ := List.mem_map.mp hmem
    have hfile' : ([name], file.2) ∈ rest.files := by
      have hfst : file.1 = [name] := heq
      rw [← hfst]
      exact hfile
    exact hname (head_mem_names hfile')
  | directory name entries rest ihEntries ih =>
    obtain ⟨-, hname, hentries, hrest⟩ := h
    rw [files, List.map_append, List.nodup_append, List.map_map]
    refine ⟨?_, ih hrest, ?_⟩
    · have hcons : (Prod.fst ∘ fun file : List String × FileData => (name :: file.1, file.2)) =
          (name :: ·) ∘ Prod.fst := rfl
      rw [hcons, ← List.map_map]
      exact (ihEntries hentries).map fun _ _ heq => (List.cons.inj heq).2
    · intro p hp q hq heq
      obtain ⟨file, -, rfl⟩ := List.mem_map.mp hp
      obtain ⟨file', hfile', hq⟩ := List.mem_map.mp hq
      have hmem : (name :: file.1, file'.2) ∈ rest.files := by
        have hfst : file'.1 = name :: file.1 := hq.trans heq.symm
        rw [← hfst]
        exact hfile'
      exact hname (head_mem_names hmem)

/-- The files behind a name are those of its entry. -/
theorem mem_files_cons (h : listing.WellFormed) {name : String} (hne : path ≠ []) :
    (name :: path, data) ∈ listing.files ↔
      ∃ entries, listing.get name = some entries ∧ (path, data) ∈ entries.files := by
  induction listing with
  | nil => simp [files, get]
  | file n data' rest ih =>
    obtain ⟨-, hn, hrest⟩ := h
    have hnot : (name :: path, data) ≠ ([n], data') := by
      intro heq
      exact hne (List.cons.inj (congrArg Prod.fst heq)).2
    rw [files, List.mem_cons, or_iff_right hnot, get]
    split
    · rename_i heq
      subst heq
      refine iff_of_false (fun hmem => hn (head_mem_names hmem)) ?_
      rintro ⟨_, ⟨rfl⟩, hmem⟩
      cases hmem
    · exact ih hrest
  | directory n entries rest _ ih =>
    obtain ⟨-, hn, hentries, hrest⟩ := h
    rw [files, List.mem_append, get]
    split
    · rename_i heq
      subst heq
      constructor
      · rintro (hmem | hmem)
        · obtain ⟨file, hfile, heq⟩ := List.mem_map.mp hmem
          cases heq
          exact ⟨entries, rfl, hfile⟩
        · exact absurd (head_mem_names hmem) hn
      · rintro ⟨_, ⟨rfl⟩, hmem⟩
        exact Or.inl (List.mem_map.mpr ⟨(path, data), hmem, rfl⟩)
    · rename_i hname
      have hnot : (name :: path, data) ∉
          entries.files.map fun file => (n :: file.1, file.2) := by
        intro hmem
        obtain ⟨file, -, heq⟩ := List.mem_map.mp hmem
        exact hname (List.cons.inj (congrArg Prod.fst heq)).1
      rw [or_iff_right hnot]
      exact ih hrest

theorem wellFormed_get (h : listing.WellFormed) {name : String} {entries : Listing}
    (hget : listing.get name = some entries) : entries.WellFormed := by
  induction listing with
  | nil => cases hget
  | file n data' rest ih =>
    rw [get] at hget
    split at hget
    · cases hget
      trivial
    · exact ih h.2.2 hget
  | directory n sub rest _ ih =>
    rw [get] at hget
    split at hget
    · cases hget
      exact h.2.2.1
    · exact ih h.2.2.2 hget

/-- The files below a folder are those of what it leads to. -/
theorem mem_files_append (hne : path ≠ []) {folder : List String} (hfolder : "" ∉ folder) :
    ∀ {listing : Listing}, listing.WellFormed →
      ((folder ++ path, data) ∈ listing.files ↔
        ∃ entries, listing.lookup folder = some entries ∧ (path, data) ∈ entries.files) := by
  induction folder with
  | nil => intro listing _; simp [lookup]
  | cons name folder ih =>
    intro listing h
    have hname : name ≠ "" := fun heq => hfolder (heq ▸ List.mem_cons_self)
    have hrest : "" ∉ folder := fun hmem => hfolder (List.mem_cons_of_mem _ hmem)
    rw [List.cons_append, mem_files_cons h (by simp [hne]), lookup, if_neg hname]
    constructor
    · rintro ⟨sub, hget, hmem⟩
      obtain ⟨entries, hlookup, hmem⟩ := (ih hrest (wellFormed_get h hget)).mp hmem
      exact ⟨entries, by rw [hget, Option.bind_some, hlookup], hmem⟩
    · rintro ⟨entries, hlookup, hmem⟩
      obtain ⟨sub, hget, hlookup⟩ := Option.bind_eq_some_iff.mp hlookup
      exact ⟨sub, hget, (ih hrest (wellFormed_get h hget)).mpr ⟨entries, hlookup, hmem⟩⟩

end Listing

/-! ## Walking through a folder -/

section Walk

variable {provider : FileSystemProvider} {queueSize : Nat} {language : String}
  {skipped : List (List String)} {base folder path : List String} {data : FileData}

/-- The files that the walk comes to. -/
def walk (provider : FileSystemProvider) (skipped : List (List String)) :
    List String → Listing → List (List String × FileData)
  | _, .nil => []
  | base, .file name data rest =>
    if isExtension name provider.extensions then
      (base ++ [name], data) :: walk provider skipped base rest
    else walk provider skipped base rest
  | base, .directory name entries rest =>
    if base ++ [name] ∈ skipped then walk provider skipped base rest
    else walk provider skipped (base ++ [name]) entries ++ walk provider skipped base rest

def eventOf (provider : FileSystemProvider) (language : String) (file : List String × FileData) :
    DirectoryEvent :=
  indexFile provider language file.1 file.2

/-- A queue that is large enough takes all events of a walk. -/
theorem indexFiles_eq (listing : Listing) :
    ∀ {base : List String} {queue : List DirectoryEvent}, queue.length ≤ queueSize →
      indexFiles provider queueSize language skipped base listing queue =
        if queue.length + (walk provider skipped base listing).length ≤ queueSize then
          some (queue ++ (walk provider skipped base listing).map (eventOf provider language))
        else none := by
  induction listing with
  | nil => intro base queue h; simp [indexFiles, walk, h]
  | file name data rest ih =>
    intro base queue h
    rw [indexFiles, walk]
    split
    · rw [putWithTimeout]
      by_cases hlt : queue.length < queueSize
      · have hlength : ∀ n, (queue ++ [indexFile provider language (base ++ [name]) data]).length + n =
            queue.length + (n + 1) := by
          intro n
          simp
          omega
        rw [if_pos hlt, Option.bind_some, ih (by simp; omega), hlength]
        simp [eventOf]
      · rw [if_neg hlt, if_neg (by simp; omega)]
        rfl
    · exact ih h
  | directory name entries rest ihEntries ih =>
    intro base queue h
    rw [indexFiles, walk]
    split
    · exact ih h
    · rw [ihEntries h]
      split
      · rename_i hentries
        rw [Option.bind_some, ih (by simpa using hentries)]
        simp [Nat.add_assoc]
      · rw [if_neg (by simp; omega)]
        rfl

theorem below_iff : Below folder path ↔ ∃ rest, rest ≠ [] ∧ path = folder ++ rest := by
  constructor
  · rintro ⟨⟨rest, rfl⟩, hne⟩
    exact ⟨rest, fun heq => hne (by simp [heq]), rfl⟩
  · rintro ⟨rest, hne, rfl⟩
    exact ⟨List.prefix_append _ _, fun heq => hne (List.self_eq_append_right.mp heq)⟩

theorem Below.length_lt (h : Below folder path) : folder.length < path.length := by
  obtain ⟨rest, hne, rfl⟩ := below_iff.mp h
  have hpos : 0 < rest.length := List.length_pos_iff.mpr hne
  rw [List.length_append]
  omega

/-- There is no directory between a directory and a file in it. -/
theorem not_between_file (base folder : List String) (name : String) :
    ¬ Between base folder (base ++ [name]) := by
  rintro ⟨h₁, h₂⟩
  have hlt₁ := h₁.length_lt
  have hlt₂ := h₂.length_lt
  rw [List.length_append, List.length_singleton] at hlt₂
  omega

/-- The first directory between is the one that is entered. -/
theorem between_iff {name : String} {rest : List String} (hrest : rest ≠ []) :
    Between base folder (base ++ name :: rest) ↔
      folder = base ++ [name] ∨ Between (base ++ [name]) folder (base ++ name :: rest) := by
  have hfirst : Below (base ++ [name]) (base ++ name :: rest) :=
    below_iff.mpr ⟨rest, hrest, by simp⟩
  constructor
  · rintro ⟨h₁, h₂⟩
    obtain ⟨x, hx, rfl⟩ := below_iff.mp h₁
    obtain ⟨y, hy, heq⟩ := below_iff.mp h₂
    rw [List.append_assoc, List.append_cancel_left_eq] at heq
    cases x with
    | nil => exact absurd rfl hx
    | cons m x =>
      obtain ⟨rfl, -⟩ := List.cons.inj heq
      by_cases hxs : x = []
      · exact Or.inl (by rw [hxs])
      · exact Or.inr ⟨below_iff.mpr ⟨x, hxs, by simp⟩, h₂⟩
  · rintro (rfl | ⟨h₁, h₂⟩)
    · exact ⟨below_iff.mpr ⟨[name], List.cons_ne_nil _ _, rfl⟩, hfirst⟩
    · obtain ⟨x, -, rfl⟩ := below_iff.mp h₁
      exact ⟨below_iff.mpr ⟨name :: x, List.cons_ne_nil _ _, by simp⟩, h₂⟩

/-- The walk comes to the files with an accepted name, unless a directory on the way is skipped. -/
theorem walk_eq_filter (listing : Listing) :
    ∀ base : List String, walk provider skipped base listing =
      (listing.files.map fun file => (base ++ file.1, file.2)).filter fun file =>
        Accepted provider file.1 ∧ ∀ folder ∈ skipped, ¬ Between base folder file.1 := by
  induction listing with
  | nil => intro base; rfl
  | file name data rest ih =>
    intro base
    have hname : fileName (base ++ [name]) = name := by simp [fileName]
    rw [walk, Listing.files, List.map_cons, List.filter_cons, ih]
    refine if_congr ?_ rfl rfl
    simp only [decide_eq_true_eq, Accepted, hname]
    exact (and_iff_left fun folder _ => not_between_file base folder name).symm
  | directory name entries rest ihEntries ih =>
    intro base
    rw [walk, Listing.files, List.map_append, List.filter_append, ih, List.map_map]
    split
    · rename_i hskipped
      have hnone : ((entries.files.map ((fun file => (base ++ file.1, file.2)) ∘
          fun file => (name :: file.1, file.2))).filter fun file =>
            decide (Accepted provider file.1 ∧
              ∀ folder ∈ skipped, ¬ Between base folder file.1)) = [] := by
        refine List.filter_eq_nil_iff.mpr fun file hfile => ?_
        obtain ⟨sub, hsub, rfl⟩ := List.mem_map.mp hfile
        rw [decide_eq_true_eq]
        rintro ⟨-, hnot⟩
        exact hnot _ hskipped
          ((between_iff (Listing.ne_nil_of_mem_files hsub)).mpr (Or.inl rfl))
      rw [hnone, List.nil_append]
    · rename_i hentered
      rw [ihEntries]
      congr 1
      have hmap : (entries.files.map fun file => (base ++ [name] ++ file.1, file.2)) =
          entries.files.map ((fun file => (base ++ file.1, file.2)) ∘
            fun file => (name :: file.1, file.2)) := by
        refine List.map_congr_left fun file _ => ?_
        simp
      rw [hmap]
      refine List.filter_congr fun file hfile => ?_
      obtain ⟨sub, hsub, rfl⟩ := List.mem_map.mp hfile
      rw [decide_eq_decide]
      refine and_congr_right fun _ => forall₂_congr fun folder hfolder => not_congr ?_
      have hne : folder ≠ base ++ [name] := fun heq => hentered (heq ▸ hfolder)
      exact ((between_iff (Listing.ne_nil_of_mem_files hsub)).trans (or_iff_right hne)).symm

end Walk

/-! ## The folders of the configuration -/

section Folders

variable {provider : FileSystemProvider} {queueSize : Nat} {listing : Listing} {entry : ConfigEntry}
  {key : String} {folder path : List String} {data : FileData}

theorem empty_not_mem_folderNames (folder : String) : "" ∉ folderNames folder := by
  intro h
  obtain ⟨cs, hcs, heq⟩ := List.mem_map.mp h
  have hnil : cs = [] := by simpa using congrArg String.toList heq
  simp [hnil] at hcs

theorem newFile_eq {folder : String} (h : provider.keepsSlash = true → folderNames folder ≠ []) :
    provider.newFile folder = folderNames folder :=
  if_neg fun hslash => h hslash.1 hslash.2

theorem lookup_newFile (listing : Listing) (folder : String) :
    listing.lookup (provider.newFile folder) = listing.lookup (folderNames folder) := by
  unfold FileSystemProvider.newFile
  split
  · rename_i hslash
    rw [hslash.2]
    rfl
  · rfl

theorem fileName_append {rest : List String} (h : rest ≠ []) (base : List String) :
    fileName (base ++ rest) = fileName rest := by
  unfold fileName
  rw [List.getLast?_append_of_ne_nil _ h]

/-- The walk through the folder of an entry, if it exists. -/
def visits (provider : FileSystemProvider) (listing : Listing) (entry : ConfigEntry) :
    List (List String × FileData) :=
  ((listing.lookup (provider.newFile entry.folder)).map
    (walk provider (skippedFolders provider entry.folder) (provider.newFile entry.folder))).getD []

/-- The path of a file for the walk through a folder. -/
def pathIn (provider : FileSystemProvider) (entry : ConfigEntry) (path : List String) : List String :=
  provider.newFile entry.folder ++ path.drop (folderNames entry.folder).length

theorem mem_visits_iff (h : listing.WellFormed) {file : List String × FileData} :
    file ∈ visits provider listing entry ↔
      ∃ path, (path, file.2) ∈ listing.files ∧ Accepted provider path ∧
        Reached provider entry path ∧ file.1 = pathIn provider entry path := by
  have hwalk : file ∈ visits provider listing entry ↔
      ∃ entries, listing.lookup (folderNames entry.folder) = some entries ∧
        file ∈ walk provider (skippedFolders provider entry.folder) (provider.newFile entry.folder) entries := by
    unfold visits
    rw [lookup_newFile]
    cases listing.lookup (folderNames entry.folder) <;> simp
  rw [hwalk]
  constructor
  · rintro ⟨entries, hlookup, hmem⟩
    rw [walk_eq_filter, List.mem_filter, decide_eq_true_eq] at hmem
    obtain ⟨hmem, haccepted, hbetween⟩ := hmem
    obtain ⟨⟨rest, data⟩, hrest, rfl⟩ := List.mem_map.mp hmem
    have hne := Listing.ne_nil_of_mem_files hrest
    have hfile := (Listing.mem_files_append hne (empty_not_mem_folderNames entry.folder) h).mpr
      ⟨entries, hlookup, hrest⟩
    refine ⟨folderNames entry.folder ++ rest, hfile, ?_, ⟨below_iff.mpr ⟨rest, hne, rfl⟩, ?_⟩, ?_⟩
    · unfold Accepted at haccepted ⊢
      rw [fileName_append hne] at haccepted ⊢
      exact haccepted
    · simpa using hbetween
    · simp [pathIn]
  · rintro ⟨path, hfile, haccepted, ⟨hbelow, hbetween⟩, hpath⟩
    obtain ⟨rest, hne, rfl⟩ := below_iff.mp hbelow
    obtain ⟨entries, hlookup, hrest⟩ :=
      (Listing.mem_files_append hne (empty_not_mem_folderNames entry.folder) h).mp hfile
    refine ⟨entries, hlookup, ?_⟩
    rw [walk_eq_filter, List.mem_filter, decide_eq_true_eq]
    rw [List.drop_left] at hbetween
    have hfst : file.1 = provider.newFile entry.folder ++ rest := by simpa [pathIn] using hpath
    refine ⟨List.mem_map.mpr ⟨(rest, file.2), hrest, by rw [← hfst]⟩, ?_, hfst ▸ hbetween⟩
    unfold Accepted at haccepted ⊢
    rw [fileName_append hne] at haccepted
    rw [hfst, fileName_append hne]
    exact haccepted

theorem wellFormed_lookup (h : listing.WellFormed) :
    ∀ {folder : List String} {entries : Listing}, listing.lookup folder = some entries →
      entries.WellFormed := by
  intro folder
  induction folder generalizing listing with
  | nil =>
    intro entries heq
    cases heq
    exact h
  | cons name folder ih =>
    intro entries heq
    rw [Listing.lookup] at heq
    split at heq
    · exact ih h heq
    · obtain ⟨sub, hget, hlookup⟩ := Option.bind_eq_some_iff.mp heq
      exact ih (Listing.wellFormed_get h hget) hlookup

theorem nodup_visits (h : listing.WellFormed) :
    ((visits provider listing entry).map Prod.fst).Nodup := by
  unfold visits
  cases hlookup : listing.lookup (provider.newFile entry.folder) with
  | none => exact List.nodup_nil
  | some entries =>
    rw [Option.map_some, Option.getD_some, walk_eq_filter]
    refine List.Nodup.sublist (List.filter_sublist.map Prod.fst) ?_
    have hfst : (Prod.fst ∘ fun file : List String × FileData => (provider.newFile entry.folder ++ file.1, file.2)) =
        (provider.newFile entry.folder ++ ·) ∘ Prod.fst := rfl
    rw [List.map_map, hfst, ← List.map_map]
    exact (Listing.nodup_files (wellFormed_lookup h hlookup)).map fun _ _ heq => List.append_cancel_left heq

/-- So many files become events for a folder. -/
theorem length_visits (h : listing.WellFormed) :
    (visits provider listing entry).length =
      (listing.files.filter fun file =>
        Accepted provider file.1 ∧ Reached provider entry file.1).length := by
  have hperm : (visits provider listing entry).Perm
      ((listing.files.filter fun file =>
        Accepted provider file.1 ∧ Reached provider entry file.1).map
          fun file => (pathIn provider entry file.1, file.2)) := by
    refine (List.perm_ext_iff_of_nodup (nodup_visits h).of_map ?_).mpr fun file => ?_
    · refine List.Nodup.map_on ?_ ((Listing.nodup_files h).of_map.filter _)
      rintro ⟨path, data⟩ hmem ⟨path', data'⟩ hmem' heq
      obtain ⟨-, hreached⟩ := of_decide_eq_true (List.mem_filter.mp hmem).2
      obtain ⟨-, hreached'⟩ := of_decide_eq_true (List.mem_filter.mp hmem').2
      obtain ⟨rest, -, hpath⟩ := below_iff.mp hreached.1
      obtain ⟨rest', -, hpath'⟩ := below_iff.mp hreached'.1
      simp only at hpath hpath'
      simp only [hpath, hpath', pathIn, List.drop_left, Prod.mk.injEq,
        List.append_cancel_left_eq] at heq ⊢
      exact heq
    · rw [mem_visits_iff h, List.mem_map]
      constructor
      · rintro ⟨path, hfile, haccepted, hreached, hpath⟩
        exact ⟨(path, file.2), List.mem_filter.mpr ⟨hfile, decide_eq_true ⟨haccepted, hreached⟩⟩,
          by rw [← hpath]⟩
      · rintro ⟨⟨path, data⟩, hmem, rfl⟩
        obtain ⟨hfile, hcond⟩ := List.mem_filter.mp hmem
        obtain ⟨haccepted, hreached⟩ := of_decide_eq_true hcond
        exact ⟨path, hfile, haccepted, hreached, rfl⟩
  rw [hperm.length_eq, List.length_map]

/-! ## All events -/

/-- The events for the files, if no queue is too small. -/
def createEvents (provider : FileSystemProvider) (listing : Listing) : List DirectoryEvent :=
  provider.config.values.flatMap fun entry =>
    (visits provider listing entry).map (eventOf provider entry.language)

/-- What the walk comes to is what should be indexed, and only this walk comes to it. -/
structure Proper (provider : FileSystemProvider) (entry : ConfigEntry) (path : List String)
    (data : FileData) : Prop where
  extensions : provider.extensions ≠ []
  inside : provider.keepsSlash = true → folderNames entry.folder ≠ []
  alone : ∀ other ∈ provider.config.values,
    folderNames other.folder = folderNames entry.folder → other = entry
  unprotected : ∀ folder ∈ provider.protectedFolders, ¬ Below folder path
  indexed : ¬ Skips provider path data

theorem mem_createEvents_iff (h : listing.WellFormed) {event : DirectoryEvent} :
    event ∈ createEvents provider listing ↔
      ∃ entry ∈ provider.config.values, ∃ path data, (path, data) ∈ listing.files ∧
        Accepted provider path ∧ Reached provider entry path ∧
          event = indexFile provider entry.language (pathIn provider entry path) data := by
  unfold createEvents
  rw [List.mem_flatMap]
  refine exists_congr fun entry => and_congr_right fun _ => ?_
  rw [List.mem_map]
  constructor
  · rintro ⟨file, hfile, rfl⟩
    obtain ⟨path, hmem, haccepted, hreached, hpath⟩ := (mem_visits_iff h).mp hfile
    exact ⟨path, file.2, hmem, haccepted, hreached, by rw [← hpath]; rfl⟩
  · rintro ⟨path, data, hmem, haccepted, hreached, hevent⟩
    exact ⟨(pathIn provider entry path, data),
      (mem_visits_iff h).mpr ⟨path, hmem, haccepted, hreached, rfl⟩, hevent.symm⟩

@[simp] theorem id_indexFile (language : String) (path : List String) (data : FileData) :
    (indexFile provider language path data).id = some path := by
  simp only [indexFile]
  split
  · split <;> rfl
  · rfl

theorem ids_createEvents (provider : FileSystemProvider) (listing : Listing) :
    (createEvents provider listing).map DirectoryEvent.id =
      provider.config.values.flatMap fun entry =>
        (visits provider listing entry).map fun file => some file.1 := by
  unfold createEvents
  rw [List.map_flatMap]
  congr 1
  funext entry
  rw [List.map_map]
  exact List.map_congr_left fun file _ => id_indexFile entry.language file.1 file.2

/-- Two walks come to the same file. -/
theorem not_nodup_of_twice {other : ConfigEntry} {p : List String}
    (hentry : entry ∈ provider.config.values) (hother : other ∈ provider.config.values)
    (hne : other ≠ entry) (h₁ : (p, data) ∈ visits provider listing entry)
    (h₂ : (p, data) ∈ visits provider listing other) :
    ¬ ((createEvents provider listing).map DirectoryEvent.id).Nodup := by
  intro hnodup
  rw [ids_createEvents, List.nodup_flatMap] at hnodup
  have hsymm : Std.Symm (Function.onFun List.Disjoint fun entry =>
      (visits provider listing entry).map fun file : List String × FileData => some file.1) :=
    ⟨fun _ _ hdisjoint _ ha hb => hdisjoint hb ha⟩
  exact hnodup.2.forall hother hentry hne (List.mem_map.mpr ⟨(p, data), h₂, rfl⟩)
    (List.mem_map.mpr ⟨(p, data), h₁, rfl⟩)

theorem pathIn_eq (hinside : provider.keepsSlash = true → folderNames entry.folder ≠ [])
    (hbelow : Below (folderNames entry.folder) path) : pathIn provider entry path = path := by
  obtain ⟨rest, -, rfl⟩ := below_iff.mp hbelow
  rw [pathIn, newFile_eq hinside, List.drop_left]

/-- Two folders are skipped alike in the walks through the same file. -/
theorem mem_skippedFolders_iff {skipped : List String} :
    skipped ∈ skippedFolders provider key ↔
      skipped ∈ provider.protectedFolders ∨
        ∃ other ∈ provider.config.values, other.folder ≠ key ∧ provider.newFile other.folder = skipped := by
  have hnodup : (getFolders provider.config).Nodup :=
    (List.perm_insertionSort _ _).nodup_iff.mpr provider.config.nodup
  unfold skippedFolders
  rw [List.mem_append, List.mem_map]
  refine or_congr_right ?_
  simp only [hnodup.mem_erase_iff]
  simp only [getFolders, List.mem_insertionSort, List.mem_map]
  constructor
  · rintro ⟨_, ⟨hne, other, hother, rfl⟩, rfl⟩
    exact ⟨other, hother, hne, rfl⟩
  · rintro ⟨other, hother, hne, rfl⟩
    exact ⟨other.folder, ⟨hne, other, hother, rfl⟩, rfl⟩

/-- Two entries for one folder skip the same directories. -/
theorem reached_of_same {other : ConfigEntry}
    (hsame : folderNames other.folder = folderNames entry.folder)
    (h : Reached provider entry path) : Reached provider other path := by
  have hfile : provider.newFile other.folder = provider.newFile entry.folder := by
    simp only [FileSystemProvider.newFile, hsame]
  obtain ⟨hbelow, hbetween⟩ := h
  refine ⟨hsame ▸ hbelow, fun folder hfolder => ?_⟩
  rw [hsame, hfile]
  rcases mem_skippedFolders_iff.mp hfolder with hprotected | ⟨third, hthird, -, rfl⟩
  · exact hbetween folder (mem_skippedFolders_iff.mpr (Or.inl hprotected))
  · by_cases heq : third.folder = entry.folder
    · rw [heq]
      exact fun hself => hself.1.2 rfl
    · exact hbetween _ (mem_skippedFolders_iff.mpr (Or.inr ⟨third, hthird, heq, rfl⟩))

theorem proper_of_indexes (h : listing.WellFormed) (hfiles : provider.files = listing.files)
    (hindexes : IndexesFiles provider (createEvents provider listing))
    (hfile : (path, data) ∈ listing.files) (haccepted : Accepted provider path)
    (hentry : entry ∈ provider.config.values) (hreached : Reached provider entry path) :
    Proper provider entry path data := by
  have hevent : indexFile provider entry.language (pathIn provider entry path) data ∈
      createEvents provider listing :=
    (mem_createEvents_iff h).mpr ⟨entry, hentry, path, data, hfile, haccepted, hreached, rfl⟩
  obtain ⟨path', data', other, hwanted, -, heq⟩ := hindexes.sound _ hevent
  have hpath : pathIn provider entry path = path' := by
    have hid := congrArg DirectoryEvent.id heq
    simpa using hid
  have hfile' : (path', data') ∈ listing.files := hfiles ▸ hwanted.file
  have hinside : provider.keepsSlash = true → folderNames entry.folder ≠ [] := by
    intro hkeeps hnil
    have hempty : pathIn provider entry path = "" :: path := by
      simp [pathIn, FileSystemProvider.newFile, hkeeps, hnil]
    rw [hempty] at hpath
    rw [← hpath] at hfile'
    exact Listing.ne_empty_of_mem_names h (Listing.head_mem_names hfile') rfl
  rw [pathIn_eq hinside hreached.1] at hpath
  subst hpath
  have hdata : data' = data := by
    have hsame := List.inj_on_of_nodup_map (Listing.nodup_files h) hfile' hfile rfl
    exact congrArg Prod.snd hsame
  subst hdata
  refine ⟨?_, hinside, ?_, hwanted.unprotected, hwanted.indexed⟩
  · intro hnil
    have hext := hwanted.extension
    rw [hnil] at hext
    cases hext
  · intro other hother hsame
    by_contra hne
    have hvisit : ∀ e, Reached provider e path → (pathIn provider e path, data') ∈ visits provider listing e :=
      fun e hr => (mem_visits_iff h).mpr ⟨path, hfile', haccepted, hr, rfl⟩
    have hsamePath : pathIn provider other path = pathIn provider entry path := by
      simp only [pathIn, FileSystemProvider.newFile, hsame]
    have hvisitOther := hvisit other (reached_of_same hsame hreached)
    rw [hsamePath] at hvisitOther
    exact not_nodup_of_twice hentry hother hne (hvisit entry hreached) hvisitOther hindexes.once

theorem exists_innermost
    (h : ∃ entry ∈ provider.config.values, Below (folderNames entry.folder) path) :
    ∃ entry, Innermost provider entry path := by
  obtain ⟨entry, hentry, hbelow⟩ := h
  let candidates := provider.config.values.filter fun entry => Below (folderNames entry.folder) path
  have hmem : entry ∈ candidates := List.mem_filter.mpr ⟨hentry, decide_eq_true hbelow⟩
  obtain ⟨longest, hlongest⟩ : ∃ longest,
      longest ∈ candidates.argmax fun entry => (folderNames entry.folder).length := by
    cases hmax : candidates.argmax fun entry => (folderNames entry.folder).length with
    | none =>
      rw [List.argmax_eq_none] at hmax
      rw [hmax] at hmem
      cases hmem
    | some longest => exact ⟨longest, rfl⟩
  obtain ⟨hvalue, hbelow'⟩ := List.mem_filter.mp (List.argmax_mem hlongest)
  refine ⟨longest, hvalue, of_decide_eq_true hbelow', fun other hother hother' => ?_⟩
  have hcandidate : other ∈ candidates := List.mem_filter.mpr ⟨hother, decide_eq_true hother'⟩
  have hle := List.le_of_mem_argmax hcandidate hlongest
  exact hle

theorem below_of_longer {inner : List String} (h : Below folder path) (h' : Below inner path)
    (hlt : folder.length < inner.length) : Below folder inner :=
  ⟨List.prefix_of_prefix_length_le h.1 h'.1 (Nat.le_of_lt hlt),
    fun heq => Nat.lt_irrefl _ (heq ▸ hlt)⟩

/-- The walk through the innermost folder comes to a file that is not protected. -/
theorem reached_of_innermost (hinnermost : Innermost provider entry path)
    (hprotected : ∀ folder ∈ provider.protectedFolders, ¬ Below folder path) :
    Reached provider entry path := by
  obtain ⟨hentry, hbelow, hlongest⟩ := hinnermost
  refine ⟨hbelow, fun folder hfolder hbetween => ?_⟩
  by_cases hslash : provider.keepsSlash = true ∧ folderNames entry.folder = []
  · -- nothing that is skipped has an empty name
    have hbase : provider.newFile entry.folder = [""] := if_pos hslash
    obtain ⟨⟨⟨rest, rfl⟩, hne⟩, -⟩ := hbetween
    rw [hbase] at hne hfolder
    rcases mem_skippedFolders_iff.mp hfolder with hskip | ⟨other, -, -, hother⟩
    · exact provider.protected_names _ hskip (by simp)
    · unfold FileSystemProvider.newFile at hother
      split at hother
      · exact hne hother
      · exact empty_not_mem_folderNames other.folder (hother ▸ by simp)
  · have hinside : provider.keepsSlash = true → folderNames entry.folder ≠ [] := fun hkeeps hnil =>
      hslash ⟨hkeeps, hnil⟩
    rw [← pathIn, pathIn_eq hinside hbelow, newFile_eq hinside] at hbetween
    obtain ⟨hinner, hpath⟩ := hbetween
    rcases mem_skippedFolders_iff.mp hfolder with hskip | ⟨other, hother, -, rfl⟩
    · exact hprotected folder hskip hpath
    · have hlt := hinner.length_lt
      unfold FileSystemProvider.newFile at hpath hlt
      split at hpath
      · rename_i hroot
        rw [if_pos hroot] at hlt
        have hpos : 0 < (folderNames entry.folder).length := List.length_pos_iff.mpr (hinside hroot.1)
        simp only [List.length_singleton] at hlt
        omega
      · rename_i hroot
        rw [if_neg hroot] at hlt
        have hle := hlongest other hother hpath
        omega

theorem innermost_of_reached (hentry : entry ∈ provider.config.values)
    (hinside : provider.keepsSlash = true → folderNames entry.folder ≠ []) (h : Reached provider entry path) :
    Innermost provider entry path := by
  obtain ⟨hbelow, hbetween⟩ := h
  refine ⟨hentry, hbelow, fun other hother hother' => ?_⟩
  by_contra hlonger
  have hinner : Below (folderNames entry.folder) (folderNames other.folder) :=
    below_of_longer hbelow hother' (by omega)
  have hlt := hinner.length_lt
  have hne : folderNames other.folder ≠ [] := by
    intro hnil
    rw [hnil] at hlt
    exact Nat.not_lt_zero _ hlt
  have hfile : provider.newFile other.folder = folderNames other.folder := newFile_eq fun _ => hne
  have hskipped : provider.newFile other.folder ∈ skippedFolders provider entry.folder := by
    refine mem_skippedFolders_iff.mpr (Or.inr ⟨other, hother, fun heq => ?_, rfl⟩)
    rw [heq] at hlt
    exact Nat.lt_irrefl _ hlt
  refine hbetween _ hskipped ?_
  rw [← pathIn, pathIn_eq hinside hbelow, hfile, newFile_eq hinside]
  exact ⟨hinner, hother'⟩

theorem accepted_iff (h : provider.extensions ≠ []) :
    Accepted provider path ↔ getExtension (fileName path) ∈ provider.extensions := by
  unfold Accepted isExtension
  rw [if_neg (by simpa using h), List.contains_iff_mem]

theorem indexes_of_proper (h : listing.WellFormed) (hfiles : provider.files = listing.files)
    (hproper : ∀ path data, (path, data) ∈ listing.files → Accepted provider path →
      ∀ entry ∈ provider.config.values, Reached provider entry path →
        Proper provider entry path data) :
    IndexesFiles provider (createEvents provider listing) := by
  refine ⟨fun path data hwanted => ?_, fun event hevent => ?_, ?_⟩
  · obtain ⟨entry, hinnermost⟩ := exists_innermost hwanted.configured
    have hreached := reached_of_innermost hinnermost hwanted.unprotected
    have hfile : (path, data) ∈ listing.files := hfiles ▸ hwanted.file
    have hne : provider.extensions ≠ [] := List.ne_nil_of_mem hwanted.extension
    have haccepted : Accepted provider path := (accepted_iff hne).mpr hwanted.extension
    have hp := hproper path data hfile haccepted entry hinnermost.1 hreached
    refine ⟨entry, hinnermost, (mem_createEvents_iff h).mpr
      ⟨entry, hinnermost.1, path, data, hfile, haccepted, hreached, ?_⟩⟩
    rw [pathIn_eq hp.inside hreached.1]
  · obtain ⟨entry, hentry, path, data, hfile, haccepted, hreached, heq⟩ :=
      (mem_createEvents_iff h).mp hevent
    have hp := hproper path data hfile haccepted entry hentry hreached
    rw [pathIn_eq hp.inside hreached.1] at heq
    rw [heq]
    exact ⟨path, data, entry,
      ⟨hfiles ▸ hfile, (accepted_iff hp.extensions).mp haccepted, ⟨entry, hentry, hreached.1⟩,
        hp.unprotected, hp.indexed⟩,
      innermost_of_reached hentry hp.inside hreached, rfl⟩
  · rw [ids_createEvents, List.nodup_flatMap]
    refine ⟨fun entry _ => ?_, provider.config.nodup.of_map.pairwise_of_forall_ne ?_⟩
    · have hsome : (visits provider listing entry).map (fun file => some file.1) =
          ((visits provider listing entry).map Prod.fst).map some := by
        rw [List.map_map]
        rfl
      rw [hsome]
      exact (nodup_visits h).map (Option.some_injective _)
    · -- a file belongs to one innermost folder, and to one entry for it
      intro entry hentry other hother hne id hid hid'
      obtain ⟨file, hfile, rfl⟩ := List.mem_map.mp hid
      obtain ⟨file', hfile', heq⟩ := List.mem_map.mp hid'
      obtain ⟨path, hmem, haccepted, hreached, hpath⟩ := (mem_visits_iff h).mp hfile
      obtain ⟨path', hmem', haccepted', hreached', hpath'⟩ := (mem_visits_iff h).mp hfile'
      have hp := hproper path _ hmem haccepted entry hentry hreached
      have hp' := hproper path' _ hmem' haccepted' other hother hreached'
      rw [pathIn_eq hp.inside hreached.1] at hpath
      rw [pathIn_eq hp'.inside hreached'.1] at hpath'
      have hsame : path' = path := by
        rw [← hpath, ← hpath']
        exact Option.some.inj heq
      subst hsame
      have hle := (innermost_of_reached hentry hp.inside hreached).2.2 other hother hreached'.1
      have hge := (innermost_of_reached hother hp'.inside hreached').2.2 entry hentry hreached.1
      have hfolders : folderNames other.folder = folderNames entry.folder :=
        (List.prefix_of_prefix_length_le hreached'.1.1 hreached.1.1 hle).eq_of_length (by omega)
      exact hne (hp.alone other hother hfolders).symm

/-! ## The run -/

def eventsOfFolder (provider : FileSystemProvider) (listing : Listing) (folder : String) :
    List DirectoryEvent :=
  ((provider.config.get folder).map fun entry =>
    (visits provider listing entry).map (eventOf provider entry.language)).getD []

theorem indexFolder_eq (hentry : provider.config.get key = some entry) :
    (indexFolder provider queueSize listing key).map List.flatten =
      if (eventsOfFolder provider listing key).length ≤ queueSize then
        some (eventsOfFolder provider listing key)
      else none := by
  have hkey : entry.folder = key := (Keyed.get_eq_some.mp hentry).2
  subst hkey
  unfold indexFolder eventsOfFolder visits
  rw [hentry]
  simp only [Option.bind_some, Option.map_some, Option.getD_some]
  cases hlookup : listing.lookup (provider.newFile entry.folder) with
  | none => simp
  | some entries =>
    simp only [Option.map_some, Option.getD_some, List.length_map]
    rw [indexFiles_eq entries (Nat.zero_le _)]
    simp only [List.length_nil, Nat.zero_add, List.nil_append]
    split <;> simp

/-- All folders are indexed if no queue is too small. -/
theorem indexFolders_eq {folders : List String}
    (hentries : ∀ folder ∈ folders, ∃ entry, provider.config.get folder = some entry) :
    (indexFolders provider queueSize listing folders).map List.flatten =
      if ∀ folder ∈ folders, (eventsOfFolder provider listing folder).length ≤ queueSize then
        some (folders.flatMap (eventsOfFolder provider listing))
      else none := by
  induction folders with
  | nil => simp [indexFolders]
  | cons folder folders ih =>
    obtain ⟨entry, hentry⟩ := hentries folder List.mem_cons_self
    have hfolder : (indexFolder provider queueSize listing folder).map List.flatten = _ :=
      indexFolder_eq hentry
    have hrest := ih fun f hf => hentries f (List.mem_cons_of_mem folder hf)
    rw [indexFolders]
    simp only [List.forall_mem_cons, List.flatMap_cons]
    cases hproducers : indexFolder provider queueSize listing folder with
    | none =>
      rw [hproducers] at hfolder
      split at hfolder
      · cases hfolder
      · rename_i hfull
        rw [if_neg fun h => hfull h.1]
        rfl
    | some producers =>
      rw [hproducers] at hfolder
      split at hfolder
      · rename_i hfits
        have hevents : producers.flatten = eventsOfFolder provider listing folder :=
          Option.some.inj hfolder
        rw [Option.bind_some, Option.map_map]
        have hflatten : (List.flatten ∘ fun rest => producers ++ rest) =
            (producers.flatten ++ ·) ∘ List.flatten := by
          funext rest
          simp
        rw [hflatten, ← Option.map_map, hrest, hevents]
        simp only [hfits, true_and]
        split <;> rfl
      · cases hfolder

theorem eventsOfFolder_entry (hentry : entry ∈ provider.config.values) :
    eventsOfFolder provider listing entry.folder =
      (visits provider listing entry).map (eventOf provider entry.language) := by
  rw [eventsOfFolder, Keyed.get_key hentry]
  rfl

/-- The order of the folders does not matter. -/
theorem events_perm (provider : FileSystemProvider) (listing : Listing) :
    ((getFolders provider.config).flatMap (eventsOfFolder provider listing)).Perm
      (createEvents provider listing) := by
  have hperm : (getFolders provider.config).Perm (provider.config.values.map ConfigEntry.folder) :=
    List.perm_insertionSort _ _
  have hevents : (provider.config.values.map ConfigEntry.folder).flatMap
      (eventsOfFolder provider listing) = createEvents provider listing := by
    rw [createEvents, List.flatMap_map, List.flatMap, List.flatMap]
    congr 1
    exact List.map_congr_left fun entry hentry => eventsOfFolder_entry hentry
  rw [← hevents]
  exact hperm.flatMap_right _

theorem indexesFiles_perm {events events' : List DirectoryEvent} (h : events.Perm events')
    (hindexes : IndexesFiles provider events) : IndexesFiles provider events' := by
  obtain ⟨hcomplete, hsound, honce⟩ := hindexes
  refine ⟨fun path data hwanted => ?_, fun event hevent => hsound event (h.mem_iff.mpr hevent), ?_⟩
  · obtain ⟨entry, hinnermost, hevent⟩ := hcomplete path data hwanted
    exact ⟨entry, hinnermost, h.mem_iff.mp hevent⟩
  · exact (h.map DirectoryEvent.id).nodup_iff.mp honce

/-- No queue is too small for the files that the walk through its folder comes to. -/
def Fits (provider : FileSystemProvider) (documentQueueSize : Nat) (entry : ConfigEntry) : Prop :=
  (provider.files.filter fun file =>
    Accepted provider file.1 ∧ Reached provider entry file.1).length ≤ documentQueueSize

theorem fits_iff (hwf : listing.WellFormed) (hfiles : provider.files = listing.files) :
    (∀ folder ∈ getFolders provider.config,
        (eventsOfFolder provider listing folder).length ≤ queueSize) ↔
      ∀ entry ∈ provider.config.values, Fits provider queueSize entry := by
  have hentry : ∀ entry ∈ provider.config.values,
      ((eventsOfFolder provider listing entry.folder).length ≤ queueSize ↔
        Fits provider queueSize entry) := by
    intro entry hentry
    rw [eventsOfFolder_entry hentry, List.length_map, length_visits hwf, Fits, hfiles]
  simp only [getFolders, List.mem_insertionSort, List.forall_mem_map]
  exact forall₂_congr hentry

theorem indexes_iff (provider : FileSystemProvider) (documentQueueSize : Nat) :
    IndexesDirectory provider documentQueueSize ↔
      (∀ entry ∈ provider.config.values, Fits provider documentQueueSize entry) ∧
        ∀ path data, (path, data) ∈ provider.files → Accepted provider path →
          ∀ entry ∈ provider.config.values, Reached provider entry path →
            Proper provider entry path data := by
  cases hdata : provider.dataDir with
  | none =>
    have hfiles : provider.files = [] := by rw [FileSystemProvider.files, hdata]; rfl
    refine iff_of_true ⟨[], by rw [indexDirectory, hdata], ?_, ?_, List.nodup_nil⟩ ⟨?_, ?_⟩
    · intro path data hwanted
      have hfile := hwanted.file
      rw [hfiles] at hfile
      cases hfile
    · intro event hevent
      cases hevent
    · intro entry _
      rw [Fits, hfiles]
      exact Nat.zero_le _
    · intro path data hfile
      rw [hfiles] at hfile
      cases hfile
  | some listing =>
    have hwf : listing.WellFormed := provider.wellFormed listing hdata
    have hfiles : provider.files = listing.files := by rw [FileSystemProvider.files, hdata]; rfl
    have hentries : ∀ folder ∈ getFolders provider.config,
        ∃ entry, provider.config.get folder = some entry := by
      intro folder hfolder
      rw [getFolders, List.mem_insertionSort] at hfolder
      obtain ⟨entry, hentry, rfl⟩ := List.mem_map.mp hfolder
      exact ⟨entry, Keyed.get_key hentry⟩
    have hrun : (indexFolders provider documentQueueSize listing (getFolders provider.config)).map
        List.flatten = _ := indexFolders_eq hentries
    have hall : IndexesFiles provider
        ((getFolders provider.config).flatMap (eventsOfFolder provider listing)) ↔
          ∀ path data, (path, data) ∈ listing.files → Accepted provider path →
            ∀ entry ∈ provider.config.values, Reached provider entry path →
              Proper provider entry path data := by
      constructor
      · intro h path data hfile haccepted entry hentry hreached
        exact proper_of_indexes hwf hfiles (indexesFiles_perm (events_perm provider listing) h) hfile
          haccepted hentry hreached
      · intro h
        exact indexesFiles_perm (events_perm provider listing).symm (indexes_of_proper hwf hfiles h)
    have hdirectory : IndexesDirectory provider documentQueueSize ↔
        ∃ producers, indexFolders provider documentQueueSize listing (getFolders provider.config) =
          some producers ∧ IndexesFiles provider producers.flatten := by
      simp [IndexesDirectory, indexDirectory, hdata]
    rw [← fits_iff hwf hfiles, hfiles, ← hall, hdirectory]
    cases hproducers : indexFolders provider documentQueueSize listing (getFolders provider.config) with
    | none =>
      rw [hproducers] at hrun
      split at hrun
      · cases hrun
      · rename_i hfull
        refine iff_of_false ?_ fun h => hfull h.1
        rintro ⟨_, ⟨⟩, -⟩
    | some producers =>
      rw [hproducers] at hrun
      split at hrun
      · rename_i hfits
        have hevents : producers.flatten = _ := Option.some.inj hrun
        rw [← hevents, and_iff_right hfits]
        constructor
        · rintro ⟨_, ⟨rfl⟩, h⟩
          exact h
        · intro h
          exact ⟨producers, rfl, h⟩
      · cases hrun

end Folders

section Example

/-- A page that asks not to be indexed. -/
def hiddenPage : FileData := { lastModified := 0, fieldMap := [("indexPage", "false")], text := "" }

def hiddenSite : FileSystemProvider where
  configLines := [⟨"/de", "de", by decide⟩]
  extensions := ["jsp"]
  jspExtension := "jsp"
  dataDir := some (.directory "de" (.file "index.jsp" hiddenPage .nil) .nil)
  protectedFolders := []
  keepsSlash := false
  wellFormed := by
    rintro _ ⟨rfl⟩
    exact ⟨⟨by decide, by decide, by decide⟩, List.not_mem_nil,
      ⟨⟨by decide, by decide, by decide⟩, List.not_mem_nil, trivial⟩, trivial⟩
  protected_names := by simp

theorem hidden_page_indexed :
    (indexDirectory hiddenSite 10).map (·.map (·.map DirectoryEvent.id)) =
        some [[none], [some ["de", "index.jsp"]]] ∧
      ¬ IndexesDirectory hiddenSite 10 := by
  have hrun : (indexDirectory hiddenSite 10).map (·.map (·.map DirectoryEvent.id)) =
      some [[none], [some ["de", "index.jsp"]]] := by decide
  refine ⟨hrun, ?_⟩
  rintro ⟨producers, hproducers, hindexes⟩
  rw [hproducers, Option.map_some, Option.some.injEq, List.map_cons, List.cons.injEq] at hrun
  obtain ⟨event, hevent, hid⟩ : ∃ event ∈ producers.flatten, event.id = some ["de", "index.jsp"] := by
    have hids : producers.flatten.map DirectoryEvent.id = [some ["de", "index.jsp"]] := by
      rw [List.map_flatten, hrun.2]
      rfl
    exact List.mem_map.mp (hids ▸ List.mem_cons_self)
  obtain ⟨path, data, entry, hwanted, -, rfl⟩ := hindexes.sound event hevent
  rw [id_indexFile, Option.some.injEq] at hid
  subst hid
  have hfile : (["de", "index.jsp"], data) ∈ [(["de", "index.jsp"], hiddenPage)] := hwanted.file
  obtain rfl : data = hiddenPage := by simpa using hfile
  exact hwanted.indexed ⟨by decide, by decide⟩

end Example

end Search
end AppNG
