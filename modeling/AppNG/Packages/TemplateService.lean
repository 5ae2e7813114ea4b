import AppNG.Packages.Install
import AppNG.Repository.PackageArchive

/-!
# Packages.TemplateService

The check and the extractor for templates read the same archive in two ways.

`getTemplateInfo` takes the name of the first entry for the root of the template and looks up the
other entries below it. `getTemplateExtractor` takes over every file, under its name behind the first
slash, and of the files that are then named `template.xml` the last one is the descriptor.

* `addEntry_loop`: what the extractor has when it comes to the end.
* `agrees_iff`: the two agree on an archive if and only if its root is one directory at the top which
  holds every file, and its descriptor is the one that the check reads; and an archive without files
  or with a descriptor elsewhere does not end in an `IOException`.
-/

namespace AppNG
namespace Packages
namespace TemplateService

open Repository Loop

abbrev TemplateXml := PackageInfo × TemplateType

variable {B : Type}

def isDirectory (entry : ZipEntry B) : Bool := entry.name.toList.getLast? == some '/'

/-- The variables of the extractor. -/
structure Extracted (B : Type) where
  templateXml : Option TemplateXml
  resources : List (TemplateResource B)

section Extractor

/- What a document is unmarshalled to when the class `Template` is asked for: nothing for a
`JAXBException`; the value of the element may be `null`. -/
variable (unmarshall : B → Option (Option TemplateXml))

/-- The body of the loop; it ends with an exception that leaves the extractor as `IOException`. -/
def addEntry (s : Extracted B) (entry : ZipEntry B) : Extracted B × Option Unit :=
  let path := afterSlash entry.name
  if isDirectory entry then (s, none)
  else
    match entry.content with
    | none => (s, some ())
    | some bytes =>
      let s := { s with resources := s.resources ++ [⟨path, bytes⟩] }
      if path = "template.xml" then
        match unmarshall bytes with
        | none => (s, some ())
        | some templateXml => ({ s with templateXml }, none)
      else (s, none)

/-- The constructor of the template reads the fields of `templateXml`. -/
def getTemplateExtractor (zipFile : ZipFile B) : Outcome (Template TemplateXml B) :=
  match foldUntil (addEntry unmarshall) ⟨none, []⟩ zipFile.physicalOrder with
  | (_, some _) => .ioException
  | (⟨none, _⟩, none) => .unchecked .nullPointerException
  | (⟨some templateXml, resources⟩, none) => .returned { templateXml, resources }

end Extractor

/-! ## The loop of the extractor -/

def files (entries : List (ZipEntry B)) : List (ZipEntry B) := entries.filter (!isDirectory ·)

def IsDescriptor (entry : ZipEntry B) : Prop := afterSlash entry.name = "template.xml"

instance (entry : ZipEntry B) : Decidable (IsDescriptor entry) :=
  inferInstanceAs (Decidable (_ = _))

def descriptors (entries : List (ZipEntry B)) : List (ZipEntry B) :=
  (files entries).filter (IsDescriptor ·)

/-- The resource that an entry becomes if it can be read. -/
def read (entry : ZipEntry B) : Option (TemplateResource B) :=
  entry.content.map fun bytes => ⟨afterSlash entry.name, bytes⟩

/-- The value of a descriptor, `none` for `null` as well. -/
def value (unmarshall : B → Option (Option TemplateXml)) (entry : ZipEntry B) :
    Option TemplateXml :=
  (entry.content.bind unmarshall).join

/-- An entry that ends the loop. -/
def Broken (unmarshall : B → Option (Option TemplateXml)) (entry : ZipEntry B) : Prop :=
  entry.content = none ∨ IsDescriptor entry ∧ entry.content.bind unmarshall = none

variable {unmarshall : B → Option (Option TemplateXml)} {m : Marshallers B}
  {entry : ZipEntry B} {entries : List (ZipEntry B)} {s : Extracted B} {zipFile : ZipFile B}

theorem addEntry_directory (h : isDirectory entry = true) :
    addEntry unmarshall s entry = (s, none) := by
  simp [addEntry, h]

theorem addEntry_broken (hfile : isDirectory entry = false) :
    (addEntry unmarshall s entry).2 ≠ none ↔ Broken unmarshall entry := by
  unfold addEntry Broken IsDescriptor
  rw [if_neg (by simp [hfile])]
  cases entry.content with
  | none => simp
  | some bytes =>
    by_cases hpath : afterSlash entry.name = "template.xml"
    · cases hxml : unmarshall bytes <;> simp [hpath, hxml]
    · simp [hpath]

/-- An entry that is taken over. -/
theorem addEntry_file (hfile : isDirectory entry = false) (h : ¬ Broken unmarshall entry) :
    addEntry unmarshall s entry =
      (⟨if IsDescriptor entry then value unmarshall entry else s.templateXml,
        s.resources ++ (read entry).toList⟩, none) := by
  unfold Broken IsDescriptor at h
  unfold addEntry IsDescriptor value read
  rw [if_neg (by simp [hfile])]
  cases hcontent : entry.content with
  | none => simp [hcontent] at h
  | some bytes =>
    by_cases hpath : afterSlash entry.name = "template.xml"
    · cases hxml : unmarshall bytes with
      | none => simp [hcontent, hpath, hxml] at h
      | some xml => simp [hpath, hxml]
    · simp [hpath]

theorem files_cons_directory (h : isDirectory entry = true) :
    files (entry :: entries) = files entries := by
  simp [files, h]

theorem files_cons_file (h : isDirectory entry = false) :
    files (entry :: entries) = entry :: files entries := by
  simp [files, h]

theorem mem_files : entry ∈ files entries ↔ entry ∈ entries ∧ isDirectory entry = false := by
  simp [files]

/-- The last of the descriptors, or what was found before. -/
def lastValue (unmarshall : B → Option (Option TemplateXml)) (templateXml : Option TemplateXml)
    (found : List (ZipEntry B)) : Option TemplateXml :=
  (found.getLast?.map (value unmarshall)).getD templateXml

theorem lastValue_cons {templateXml : Option TemplateXml} {found : List (ZipEntry B)} :
    lastValue unmarshall templateXml (entry :: found) =
      lastValue unmarshall (value unmarshall entry) found := by
  cases found with
  | nil => rfl
  | cons next found => simp [lastValue, List.getLast?_cons]

theorem addEntry_loop :
    ∀ {entries : List (ZipEntry B)} {s : Extracted B},
      (∀ entry ∈ files entries, ¬ Broken unmarshall entry) →
        foldUntil (addEntry unmarshall) s entries =
          (⟨lastValue unmarshall s.templateXml (descriptors entries),
            s.resources ++ (files entries).filterMap read⟩, none) := by
  intro entries
  induction entries with
  | nil => intro s _; simp [foldUntil, files, descriptors, lastValue]
  | cons entry entries ih =>
    intro s h
    cases hdir : isDirectory entry with
    | true =>
      rw [files_cons_directory hdir] at h
      rw [foldUntil_cons_ok (addEntry_directory hdir), ih h]
      simp only [descriptors, files_cons_directory hdir]
    | false =>
      rw [files_cons_file hdir] at h
      have hentry : ¬ Broken unmarshall entry := h entry List.mem_cons_self
      have hrest : ∀ entry ∈ files entries, ¬ Broken unmarshall entry :=
        fun entry hmem => h entry (List.mem_cons_of_mem _ hmem)
      rw [foldUntil_cons_ok (addEntry_file hdir hentry), ih hrest]
      simp only [descriptors, files_cons_file hdir]
      have hread : (entry :: files entries).filterMap read =
          (read entry).toList ++ (files entries).filterMap read := by
        cases h : read entry <;> simp [h]
      rw [hread, List.append_assoc]
      by_cases hd : IsDescriptor entry
      · rw [if_pos hd, List.filter_cons_of_pos (by simpa using hd), lastValue_cons]
      · rw [if_neg hd, List.filter_cons_of_neg (by simpa using hd)]

theorem addEntry_loop_broken :
    ∀ {entries : List (ZipEntry B)} {s : Extracted B},
      (∃ entry ∈ files entries, Broken unmarshall entry) →
        (foldUntil (addEntry unmarshall) s entries).2 ≠ none := by
  intro entries
  induction entries with
  | nil => rintro s ⟨entry, hmem, -⟩; cases hmem
  | cons entry entries ih =>
    rintro s ⟨broken, hmem, hbroken⟩
    cases hdir : isDirectory entry with
    | true =>
      rw [files_cons_directory hdir] at hmem
      rw [foldUntil_cons_ok (addEntry_directory hdir)]
      exact ih ⟨broken, hmem, hbroken⟩
    | false =>
      rw [files_cons_file hdir] at hmem
      rw [foldUntil]
      cases hstep : addEntry unmarshall s entry with
      | mk s' o =>
        cases o with
        | some e => simp
        | none =>
          rcases List.mem_cons.mp hmem with rfl | hmem
          · have hthrew := (addEntry_broken (s := s) hdir).mpr hbroken
            rw [hstep] at hthrew
            exact absurd rfl hthrew
          · exact ih ⟨broken, hmem, hbroken⟩

/-- How the extractor ends. -/
theorem getTemplateExtractor_eq (h : ∀ entry ∈ files zipFile.physicalOrder,
      ¬ Broken unmarshall entry) :
    getTemplateExtractor unmarshall zipFile =
      match lastValue unmarshall none (descriptors zipFile.physicalOrder) with
      | none => .unchecked .nullPointerException
      | some templateXml =>
        .returned ⟨templateXml, (files zipFile.physicalOrder).filterMap read⟩ := by
  unfold getTemplateExtractor
  rw [addEntry_loop h]
  cases lastValue unmarshall none (descriptors zipFile.physicalOrder) <;> simp

theorem getTemplateExtractor_broken (h : ∃ entry ∈ files zipFile.physicalOrder,
      Broken unmarshall entry) :
    getTemplateExtractor unmarshall zipFile = .ioException := by
  have hthrew := addEntry_loop_broken (s := ⟨none, []⟩) h
  unfold getTemplateExtractor
  split
  · rfl
  · rename_i heq; simp [heq] at hthrew
  · rename_i heq; simp [heq] at hthrew

/-! ## Names below the root -/

/-- The root is a directory at the top of the archive. -/
def IsTopDirectory (root : String) : Prop := ∃ dir, '/' ∉ dir ∧ root.toList = dir ++ ['/']

def Below (root : String) (entry : ZipEntry B) : Prop := root.toList <+: entry.name.toList

instance (root : String) (entry : ZipEntry B) : Decidable (Below root entry) :=
  inferInstanceAs (Decidable (_ <+: _))

def relativeTo (root : String) (entry : ZipEntry B) : String :=
  String.ofList (entry.name.toList.drop root.toList.length)

theorem dropWhile_append_slash {dir rest : List Char} (h : '/' ∉ dir) :
    (dir ++ '/' :: rest).dropWhile (· != '/') = '/' :: rest := by
  rw [List.dropWhile_append_of_pos]
  · simp
  · intro c hc
    have hne : c ≠ '/' := fun heq => h (heq ▸ hc)
    simpa using hne

theorem afterSlash_toList {name : String} {dir rest : List Char} (hdir : '/' ∉ dir)
    (h : name.toList = dir ++ '/' :: rest) : (afterSlash name).toList = rest := by
  simp [afterSlash, h, dropWhile_append_slash hdir]

theorem relativeTo_toList {root : String} {rest : List Char}
    (h : entry.name.toList = root.toList ++ rest) : (relativeTo root entry).toList = rest := by
  simp [relativeTo, h]

theorem afterSlash_eq_relativeTo {root : String} (hroot : IsTopDirectory root)
    (h : Below root entry) : afterSlash entry.name = relativeTo root entry := by
  obtain ⟨dir, hdir, hroot⟩ := hroot
  obtain ⟨rest, hrest⟩ := h
  have hname : entry.name.toList = dir ++ '/' :: rest := by rw [← hrest, hroot]; simp
  apply String.toList_inj.mp
  rw [afterSlash_toList hdir hname, relativeTo_toList hrest.symm]

/-- The file `conf/platform.xml` tells a directory at the top from every other root. -/
theorem isTopDirectory_of_platform {root : String}
    (hname : entry.name = root ++ "conf/platform.xml")
    (h : afterSlash entry.name = relativeTo root entry) : IsTopDirectory root := by
  have hlist : entry.name.toList = root.toList ++ "conf/platform.xml".toList := by simp [hname]
  have hrelative : (relativeTo root entry).toList = "conf/platform.xml".toList :=
    relativeTo_toList hlist
  by_cases hslash : '/' ∈ root.toList
  · obtain ⟨dir, rest, hdir, hsplit⟩ : ∃ dir rest, '/' ∉ dir ∧ root.toList = dir ++ '/' :: rest := by
      obtain ⟨dir, rest, hsplit, hdir⟩ := List.eq_append_cons_of_mem hslash
      exact ⟨dir, rest, hdir, hsplit⟩
    have hafter : (afterSlash entry.name).toList = rest ++ "conf/platform.xml".toList :=
      afterSlash_toList hdir (by rw [hlist, hsplit]; simp)
    rw [h, hrelative] at hafter
    have hrest : rest = [] := List.self_eq_append_left.mp hafter
    exact ⟨dir, hdir, by rw [hsplit, hrest]⟩
  · have hsplit : entry.name.toList = (root.toList ++ "conf".toList) ++ '/' :: "platform.xml".toList := by
      rw [hlist, List.append_assoc]
      rfl
    have hdir : '/' ∉ root.toList ++ "conf".toList := by simp [hslash]
    have hafter := afterSlash_toList hdir hsplit
    rw [h, hrelative] at hafter
    exact absurd hafter (by simp)

/-! ## What the check reads -/

/-- The archive has the entries that the check looks up below `root`, and `xml` is what the first of
them is unmarshalled to. -/
def Describes (m : Marshallers B) (zipFile : ZipFile B) (root : String) (xml : TemplateXml) : Prop :=
  ∃ templateFile templateIs masterFile masterIs,
    zipFile.getEntry (root ++ "template.xml") = some templateFile ∧
    zipFile.getEntry (root ++ "conf/platform.xml") = some masterFile ∧
    masterFile.content = some masterIs ∧ m.isPlatform masterIs = true ∧
    templateFile.content = some templateIs ∧
    m.application templateIs = some (.template xml.1 xml.2)

theorem Describes.unique {root : String} {xml xml' : TemplateXml} (h : Describes m zipFile root xml)
    (h' : Describes m zipFile root xml') : xml = xml' := by
  obtain ⟨templateFile, templateIs, -, -, hfile, -, -, -, hcontent, hxml⟩ := h
  obtain ⟨templateFile', templateIs', -, -, hfile', -, -, -, hcontent', hxml'⟩ := h'
  obtain rfl := Option.some.inj (hfile.symm.trans hfile')
  obtain rfl := Option.some.inj (hcontent.symm.trans hcontent')
  rw [hxml] at hxml'
  injection hxml' with hxml'
  injection hxml' with hinfo htype
  exact Prod.ext hinfo htype

theorem readTemplate_eq_some {root : String} {xml : TemplateXml} :
    (readTemplate m zipFile root).1 = some xml ↔ Describes m zipFile root xml := by
  constructor
  · intro h
    unfold readTemplate at h
    split at h
    · cases h
    rename_i templateFile hfile
    split at h
    · cases h
    rename_i masterFile hmaster
    split at h
    · cases h
    rename_i masterIs hmasterIs
    split at h
    · rename_i hplatform
      split at h
      · cases h
      rename_i templateIs htemplateIs
      split at h
      · rename_i info type happlication
        have hxml : (info, type) = xml := by
          split at h
          · exact Option.some.inj h
          · exact Option.some.inj h
        subst hxml
        exact ⟨templateFile, templateIs, masterFile, masterIs, hfile, hmaster, hmasterIs, hplatform,
          htemplateIs, happlication⟩
      · cases h
    · cases h
  · rintro ⟨templateFile, templateIs, masterFile, masterIs, hfile, hmaster, hmasterIs, hplatform,
      htemplateIs, happlication⟩
    simp only [readTemplate, hfile, hmaster, hmasterIs, hplatform, htemplateIs, happlication, if_true]
    split <;> rfl

theorem getTemplateInfo_eq_some {info : PackageInfo} :
    getTemplateInfo m zipFile = .returned (some info) ↔
      ∃ first xml, zipFile.physicalOrder.head? = some first ∧
        Describes m zipFile first.name xml ∧ xml.1 = info := by
  unfold getTemplateInfo
  cases zipFile.physicalOrder with
  | nil => simp
  | cons first entries =>
    simp only [Outcome.returned.injEq, Option.map_eq_some_iff, readTemplate_eq_some,
      List.head?_cons, Option.some.injEq]
    constructor
    · rintro ⟨xml, hxml, hinfo⟩
      exact ⟨first, xml, rfl, hxml, hinfo⟩
    · rintro ⟨_, xml, rfl, hxml, hinfo⟩
      exact ⟨xml, hxml, hinfo⟩

/-! ## Agreement -/

/-- What the check promises of the extractor. -/
structure Agrees (m : Marshallers B) (unmarshall : B → Option (Option TemplateXml))
    (zipFile : ZipFile B) : Prop where
  template : ∀ info, getTemplateInfo m zipFile = .returned (some info) →
    ∃ first xml template, zipFile.physicalOrder.head? = some first ∧
      Describes m zipFile first.name xml ∧ xml.1 = info ∧
      getTemplateExtractor unmarshall zipFile = .returned template ∧ template.templateXml = xml ∧
      template.resources.map (fun resource => (resource.name, some resource.bytes)) =
        ((files zipFile.physicalOrder).filter (Below first.name ·)).map
          fun entry => (relativeTo first.name entry, entry.content)
  check : ∀ exception, getTemplateInfo m zipFile ≠ .unchecked exception
  extractor : ∀ exception, getTemplateExtractor unmarshall zipFile ≠ .unchecked exception

structure Conforms (m : Marshallers B) (unmarshall : B → Option (Option TemplateXml))
    (zipFile : ZipFile B) : Prop where
  entry : zipFile.physicalOrder ≠ []
  /-- A file is broken, or the last descriptor has a value. -/
  descriptor : (∃ entry ∈ files zipFile.physicalOrder, Broken unmarshall entry) ∨
    ∃ last, (descriptors zipFile.physicalOrder).getLast? = some last ∧
      value unmarshall last ≠ none
  template : ∀ first xml, zipFile.physicalOrder.head? = some first →
    Describes m zipFile first.name xml →
      (∀ entry ∈ files zipFile.physicalOrder, ¬ Broken unmarshall entry) ∧
      IsTopDirectory first.name ∧
      (∀ entry ∈ files zipFile.physicalOrder, Below first.name entry) ∧
      ∃ last, (descriptors zipFile.physicalOrder).getLast? = some last ∧
        value unmarshall last = some xml

theorem map_read (h : ∀ entry ∈ entries, ¬ Broken unmarshall entry) :
    (entries.filterMap read).map (fun resource => (resource.name, some resource.bytes)) =
      entries.map fun entry => (afterSlash entry.name, entry.content) := by
  induction entries with
  | nil => rfl
  | cons entry entries ih =>
    have hrest := ih fun entry hmem => h entry (List.mem_cons_of_mem _ hmem)
    have hentry := h entry List.mem_cons_self
    cases hcontent : entry.content with
    | none => exact absurd (.inl hcontent) hentry
    | some bytes => simpa [read, hcontent] using hrest

theorem lastValue_none {found : List (ZipEntry B)} {xml : TemplateXml} :
    lastValue unmarshall none found = some xml ↔
      ∃ last, found.getLast? = some last ∧ value unmarshall last = some xml := by
  unfold lastValue
  cases found.getLast? <;> simp

theorem getTemplateExtractor_returned {template : Template TemplateXml B}
    (h : getTemplateExtractor unmarshall zipFile = .returned template) :
    (∀ entry ∈ files zipFile.physicalOrder, ¬ Broken unmarshall entry) ∧
      template.resources = (files zipFile.physicalOrder).filterMap read ∧
      ∃ last, (descriptors zipFile.physicalOrder).getLast? = some last ∧
        value unmarshall last = some template.templateXml := by
  have hunbroken : ∀ entry ∈ files zipFile.physicalOrder, ¬ Broken unmarshall entry := by
    intro entry hentry hbroken
    rw [getTemplateExtractor_broken ⟨entry, hentry, hbroken⟩] at h
    cases h
  rw [getTemplateExtractor_eq hunbroken] at h
  cases hlast : lastValue unmarshall none (descriptors zipFile.physicalOrder) with
  | none => rw [hlast] at h; cases h
  | some xml =>
    rw [hlast] at h
    cases h
    exact ⟨hunbroken, rfl, lastValue_none.mp hlast⟩

theorem extractor_checked :
    (∀ exception, getTemplateExtractor unmarshall zipFile ≠ .unchecked exception) ↔
      (∃ entry ∈ files zipFile.physicalOrder, Broken unmarshall entry) ∨
        ∃ last, (descriptors zipFile.physicalOrder).getLast? = some last ∧
          value unmarshall last ≠ none := by
  by_cases hbroken : ∃ entry ∈ files zipFile.physicalOrder, Broken unmarshall entry
  · simp [getTemplateExtractor_broken hbroken, hbroken]
  · have hunbroken : ∀ entry ∈ files zipFile.physicalOrder, ¬ Broken unmarshall entry :=
      fun entry hentry h => hbroken ⟨entry, hentry, h⟩
    rw [getTemplateExtractor_eq hunbroken, or_iff_right hbroken]
    cases hlast : lastValue unmarshall none (descriptors zipFile.physicalOrder) with
    | none =>
      refine iff_of_false (fun h => h _ rfl) ?_
      rintro ⟨last, hmem, hvalue⟩
      obtain ⟨xml, hxml⟩ := Option.ne_none_iff_exists'.mp hvalue
      rw [lastValue_none.mpr ⟨last, hmem, hxml⟩] at hlast
      cases hlast
    | some xml =>
      obtain ⟨last, hmem, hvalue⟩ := lastValue_none.mp hlast
      exact iff_of_true (fun exception h => by cases h) ⟨last, hmem, by simp [hvalue]⟩

theorem check_checked :
    (∀ exception, getTemplateInfo m zipFile ≠ .unchecked exception) ↔
      zipFile.physicalOrder ≠ [] := by
  unfold getTemplateInfo
  cases zipFile.physicalOrder <;> simp

/-- The file that tells the root apart is a file of the archive. -/
theorem platform_mem {root : String} {xml : TemplateXml} (h : Describes m zipFile root xml) :
    ∃ entry ∈ files zipFile.physicalOrder, entry.name = root ++ "conf/platform.xml" := by
  obtain ⟨-, -, masterFile, -, -, hmaster, -⟩ := h
  have hname : masterFile.name = root ++ "conf/platform.xml" := by
    simpa using List.find?_some hmaster
  have hmem : masterFile ∈ zipFile.physicalOrder :=
    zipFile.perm.mem_iff.mpr (List.mem_of_find?_eq_some hmaster)
  refine ⟨masterFile, mem_files.mpr ⟨hmem, ?_⟩, hname⟩
  simp [isDirectory, hname, List.getLast?_append]

theorem resources_iff {root : String} {xml : TemplateXml} (hxml : Describes m zipFile root xml)
    (hunbroken : ∀ entry ∈ files zipFile.physicalOrder, ¬ Broken unmarshall entry) :
    ((files zipFile.physicalOrder).filterMap read).map
          (fun resource => (resource.name, some resource.bytes)) =
        ((files zipFile.physicalOrder).filter (Below root ·)).map
          (fun entry => (relativeTo root entry, entry.content)) ↔
      IsTopDirectory root ∧ ∀ entry ∈ files zipFile.physicalOrder, Below root entry := by
  rw [map_read hunbroken]
  constructor
  · intro h
    have hlength := congrArg List.length h
    rw [List.length_map, List.length_map] at hlength
    have hbelow : ∀ entry ∈ files zipFile.physicalOrder, Below root entry := by
      intro entry hentry
      simpa using List.length_filter_eq_length_iff.mp hlength.symm entry hentry
    rw [List.filter_eq_self.mpr (by simpa using hbelow)] at h
    obtain ⟨platform, hmem, hname⟩ := platform_mem hxml
    have hsame := List.map_inj_left.mp h platform hmem
    exact ⟨isTopDirectory_of_platform hname (congrArg Prod.fst hsame), hbelow⟩
  · rintro ⟨hroot, hbelow⟩
    rw [List.filter_eq_self.mpr (by simpa using hbelow)]
    apply List.map_inj_left.mpr
    intro entry hentry
    rw [afterSlash_eq_relativeTo hroot (hbelow entry hentry)]

/-- The check and the extractor agree on an archive exactly if it conforms. -/
theorem agrees_iff (m : Marshallers B) (unmarshall : B → Option (Option TemplateXml))
    (zipFile : ZipFile B) : Agrees m unmarshall zipFile ↔ Conforms m unmarshall zipFile := by
  constructor
  · rintro ⟨htemplate, hcheck, hextractor⟩
    refine ⟨check_checked.mp hcheck, extractor_checked.mp hextractor, ?_⟩
    intro first xml hfirst hxml
    obtain ⟨first', xml', template, hfirst', hxml', -, hreturned, heq, hresources⟩ :=
      htemplate xml.1 (getTemplateInfo_eq_some.mpr ⟨first, xml, hfirst, hxml, rfl⟩)
    obtain rfl := Option.some.inj (hfirst.symm.trans hfirst')
    obtain rfl := hxml.unique hxml'
    obtain ⟨hunbroken, hall, hlast⟩ := getTemplateExtractor_returned hreturned
    rw [hall, resources_iff hxml hunbroken] at hresources
    rw [heq] at hlast
    exact ⟨hunbroken, hresources.1, hresources.2, hlast⟩
  · rintro ⟨hentry, hdescriptor, htemplate⟩
    refine ⟨?_, check_checked.mpr hentry, extractor_checked.mpr hdescriptor⟩
    intro info hinfo
    obtain ⟨first, xml, hfirst, hxml, rfl⟩ := getTemplateInfo_eq_some.mp hinfo
    obtain ⟨hunbroken, hroot, hbelow, hlast⟩ := htemplate first xml hfirst hxml
    refine ⟨first, xml, ⟨xml, (files zipFile.physicalOrder).filterMap read⟩, hfirst, hxml, rfl, ?_,
      rfl, (resources_iff hxml hunbroken).mpr ⟨hroot, hbelow⟩⟩
    rw [getTemplateExtractor_eq hunbroken, lastValue_none.mpr hlast]

/-! ## An archive whose template is not at the top -/

section Example

def demo : TemplateXml := (⟨"demo", "demo", "", "1.0", ""⟩, .thymeleaf)

/-- `true` stands for the descriptor, `false` for every other document. -/
def demoMarshallers : Marshallers Bool where
  application isTemplate := if isTemplate then some (.template demo.1 demo.2) else some .other
  isPlatform isTemplate := !isTemplate

def demoUnmarshall (isTemplate : Bool) : Option (Option TemplateXml) :=
  if isTemplate then some (some demo) else none

def nestedEntries : List (ZipEntry Bool) :=
  [⟨"demo/1.0/", some false⟩, ⟨"demo/1.0/template.xml", some true⟩,
    ⟨"demo/1.0/conf/platform.xml", some false⟩]

def nestedRoot : ZipFile Bool := ⟨nestedEntries, nestedEntries, List.Perm.refl nestedEntries⟩

/-- The check accepts the archive, and the extractor has no descriptor in the end. -/
theorem nestedRoot_disagrees :
    getTemplateInfo demoMarshallers nestedRoot = .returned (some demo.1) ∧
      getTemplateExtractor demoUnmarshall nestedRoot = .unchecked .nullPointerException ∧
      ¬ Agrees demoMarshallers demoUnmarshall nestedRoot := by
  have hextractor : getTemplateExtractor demoUnmarshall nestedRoot =
      .unchecked .nullPointerException := by rfl
  exact ⟨by rfl, hextractor, fun h => h.extractor _ hextractor⟩

end Example

/-! ## The extractor of an archive that can be read -/

/-- An archive all of whose entries can be read. -/
def ofArchive (archive : List (ZipArchiveEntry B)) : List (ZipEntry B) :=
  archive.map fun entry => ⟨entry.name, some entry.bytes⟩

section Readable

variable {unmarshall : B → Option TemplateXml} {archive : List (ZipArchiveEntry B)}

theorem addEntry_extract (unmarshall : B → Option TemplateXml) :
    ∀ (archive : List (ZipArchiveEntry B)) (s : Extracted B),
      (∀ xml resources, extract unmarshall s.templateXml archive = some (xml, resources) →
        foldUntil (addEntry fun bytes => (unmarshall bytes).map some) s (ofArchive archive) =
          (⟨xml, s.resources ++ resources⟩, none)) ∧
      (extract unmarshall s.templateXml archive = none →
        (foldUntil (addEntry fun bytes => (unmarshall bytes).map some) s (ofArchive archive)).2 =
          some ()) := by
  intro archive
  induction archive with
  | nil => intro s; simp [extract, ofArchive, foldUntil]
  | cons entry archive ih =>
    intro s
    have hcons : ofArchive (entry :: archive) = ⟨entry.name, some entry.bytes⟩ :: ofArchive archive :=
      rfl
    rw [hcons, extract]
    cases hdir : entry.isDirectory with
    | true =>
      have hdirectory : isDirectory (B := B) ⟨entry.name, some entry.bytes⟩ = true := hdir
      rw [foldUntil_cons_ok (addEntry_directory hdirectory)]
      exact ih s
    | false =>
      have hfile : isDirectory (B := B) ⟨entry.name, some entry.bytes⟩ = false := hdir
      rw [if_neg (by simp)]
      by_cases hpath : afterSlash entry.name = "template.xml"
      · rw [if_pos hpath]
        cases hxml : unmarshall entry.bytes with
        | none =>
          have hstep : addEntry (fun bytes => (unmarshall bytes).map some) s
              ⟨entry.name, some entry.bytes⟩ =
              (⟨s.templateXml, s.resources ++ [⟨afterSlash entry.name, entry.bytes⟩]⟩, some ()) := by
            simp [addEntry, hfile, hpath, hxml]
          rw [foldUntil_cons_threw hstep]
          simp
        | some xml =>
          have hstep : addEntry (fun bytes => (unmarshall bytes).map some) s
              ⟨entry.name, some entry.bytes⟩ =
              (⟨some xml, s.resources ++ [⟨afterSlash entry.name, entry.bytes⟩]⟩, none) := by
            simp [addEntry, hfile, hpath, hxml]
          rw [foldUntil_cons_ok hstep]
          obtain ⟨hsome, hnone⟩ :=
            ih ⟨some xml, s.resources ++ [⟨afterSlash entry.name, entry.bytes⟩]⟩
          cases hrest : extract unmarshall (some xml) archive with
          | none => simp [hrest, hnone hrest]
          | some result => simp [hrest, hsome result.1 result.2 hrest]
      · rw [if_neg hpath]
        have hstep : addEntry (fun bytes => (unmarshall bytes).map some) s
            ⟨entry.name, some entry.bytes⟩ =
            (⟨s.templateXml, s.resources ++ [⟨afterSlash entry.name, entry.bytes⟩]⟩, none) := by
          simp [addEntry, hfile, hpath]
        rw [foldUntil_cons_ok hstep]
        obtain ⟨hsome, hnone⟩ :=
          ih ⟨s.templateXml, s.resources ++ [⟨afterSlash entry.name, entry.bytes⟩]⟩
        cases hrest : extract unmarshall s.templateXml archive with
        | none => simp [hnone hrest]
        | some result => simp [hsome result.1 result.2 hrest]

/-- Where every entry can be read, this is the extractor whose files are confined or not. -/
theorem getTemplateExtractor_ofArchive {template : Template TemplateXml B}
    (h : zipFile.physicalOrder = ofArchive archive) :
    getTemplateExtractor (fun bytes => (unmarshall bytes).map some) zipFile = .returned template ↔
      Packages.getTemplateExtractor unmarshall archive = some template := by
  obtain ⟨hsome, hnone⟩ := addEntry_extract unmarshall archive ⟨none, []⟩
  unfold getTemplateExtractor Packages.getTemplateExtractor
  rw [h]
  cases hextract : extract unmarshall none archive with
  | none =>
    have hthrew := hnone hextract
    refine iff_of_false (fun heq => ?_) (by simp)
    split at heq
    · cases heq
    · rename_i hfold; simp [hfold] at hthrew
    · rename_i hfold; simp [hfold] at hthrew
  | some result =>
    obtain ⟨xml, resources⟩ := result
    rw [hsome xml resources hextract]
    cases xml <;> simp

end Readable

end TemplateService
end Packages
end AppNG
