import AppNG.Repository.CacheFilesystem

/-!
# Repository.PackageValidity

When `PackageArchiveImpl.isValid` means what it says.

`sound_iff`: a valid archive has a package info and obeys the rules of its kind, and an archive that
breaks them is not valid, if and only if the archive `ReadsSoundly`. Two archives do not: one with a
readable application.xml whose file name does not fit, for which `isValid` stays as it was set before
the package info was taken away again, and an XSL template without its style sheet, which is
returned all the same when the exception is caught.
-/

namespace AppNG
namespace Repository

variable {V : Type} [Ord V] {B : Type}

/-! ## The rules -/

section Rules

variable (m : Marshallers B)

def Unmarshalled.packageInfo : Unmarshalled → Option PackageInfo
  | .applicationInfo p => some p
  | .template p _ => some p
  | .other => none
  | .null => none

/-- What application.xml holds. -/
def described (z : ZipFile B) : Option Unmarshalled :=
  (z.getEntry "application.xml").bind fun entry => entry.content.bind m.application

def IsApplication (z : ZipFile B) (p : PackageInfo) : Prop :=
  ∃ o, described m z = some o ∧ o.packageInfo = some p

def NameFits (name : String) (strict : Bool) (p : PackageInfo) : Prop :=
  name = p.name ++ "-" ++ p.version ++ "-" ++ p.timestamp ++ ".zip" ∨
    strict = false ∧ name = p.name ++ "-" ++ p.version ++ ".zip"

/-- The documents of a template under `root`. -/
structure TemplateDocuments (z : ZipFile B) (root : String) (p : PackageInfo)
    (type : TemplateType) : Prop where
  template : ∃ entry bytes, z.getEntry (root ++ "template.xml") = some entry ∧
    entry.content = some bytes ∧ m.application bytes = some (.template p type)
  platform : ∃ entry bytes, z.getEntry (root ++ "conf/platform.xml") = some entry ∧
    entry.content = some bytes ∧ m.isPlatform bytes = true

def HasStyleSheet (z : ZipFile B) (root : String) : Prop :=
  (z.getEntry (root ++ "xsl/platform.xsl")).isSome

/-- The root of a template is its first entry. -/
def IsTemplate (z : ZipFile B) (p : PackageInfo) : Prop :=
  ∃ entry rest type, z.physicalOrder = entry :: rest ∧ TemplateDocuments m z entry.name p type ∧
    (type = .xsl → HasStyleSheet z entry.name)

/-- The rules for the packages of each kind. -/
def Obeys (content : Content B) (name : String) (strict : Bool) (p : PackageInfo) :
    Option PackageType → Prop
  | some .application => ∃ z, content = .zip z ∧ IsApplication m z p ∧ NameFits name strict p
  | some .template => ∃ z, content = .zip z ∧ IsTemplate m z p
  | none => False

/-- An application.xml that cannot be read. -/
def Unreadable (z : ZipFile B) : Prop :=
  ∃ entry, z.getEntry "application.xml" = some entry ∧ entry.content = none

/-- An XSL template that is complete but for its style sheet. -/
def LacksStyleSheet (z : ZipFile B) : Prop :=
  ∃ entry rest p, z.physicalOrder = entry :: rest ∧ TemplateDocuments m z entry.name p .xsl ∧
    ¬ HasStyleSheet z entry.name

/-- The archives that are told right. -/
def ReadsSoundly (content : Content B) (name : String) (strict : Bool) : Prop :=
  ∀ z, content = .zip z → z.physicalOrder ≠ [] ∧
    (∀ o, described m z = some o → o.packageInfo.isSome) ∧
    (Unreadable z ∨ (∃ p, IsApplication m z p ∧ NameFits name strict p) ∨
      ((∃ p, IsApplication m z p) → ∃ p, IsTemplate m z p) ∧ ¬ LacksStyleSheet m z)

end Rules

/-! ## What is to hold -/

structure ArchiveSound (m : Marshallers B) (P : Parsers V) (content : Content B) (name : String)
    (strict : Bool) (a : PackageArchive B) : Prop where
  valid : a.isValid = true → ∃ p, a.packageInfo = some p ∧ Obeys m content name strict p a.type
  violating : (∀ p type, ¬ Obeys m content name strict p type) → a.isValid = false
  getPackage : a.isValid = true → ∀ mode, ∃ b, a.forMode mode = .ok b
  addArchive : a.isValid = true → ∀ o (s : Cache), s.NoneEmpty → ∀ fileMap init,
    ∃ b, (s.addArchive P o fileMap a init).2 = .ok b

/-- The constructor returns, with a sound archive. -/
def Sound (m : Marshallers B) (P : Parsers V) (content : Content B) (name : String)
    (strict : Bool) (result : Except Failure (PackageArchive B)) : Prop :=
  ∃ a, result = .ok a ∧ ArchiveSound m P content name strict a

variable {m : Marshallers B} {P : Parsers V} {z : ZipFile B} {a : PackageArchive B}
  {name : String} {strict : Bool} {p : PackageInfo} {content : Content B}

/-! ## The consumers -/

/-- An archive with a file and a package info can be added. -/
theorem addArchive_ok {file : File B} (hfile : a.file = some file) (hinfo : a.packageInfo = some p)
    (o : IterationOrder) {s : Cache} (hs : s.NoneEmpty) (fileMap : FileMap) (init : Bool) :
    ∃ b, (s.addArchive P o fileMap a init).2 = .ok b := by
  have hstore : (s.storeArchive fileMap file a).1.1.NoneEmpty := by
    unfold Cache.storeArchive
    rw [hinfo]
    split
    · split
      · exact hs
      · exact hs.addPackage _ _
    · exact hs
  unfold Cache.addArchive
  simp only [hfile, hinfo]
  cases init with
  | false => exact ⟨_, rfl⟩
  | true =>
    have hinit := hstore.initializeWrapper P o p.name
    rcases hr : (s.storeArchive fileMap file a).1.1.initializeWrapper P o p.name with ⟨t, r⟩
    rw [hr] at hinit
    obtain rfl := hinit
    simp only [if_true]
    exact ⟨_, rfl⟩

theorem forMode_ok (hinfo : a.packageInfo = some p) (mode : RepositoryMode) :
    ∃ b, a.forMode mode = .ok b := by
  unfold PackageArchive.forMode
  split
  · rw [hinfo]
    exact ⟨_, rfl⟩
  · exact ⟨_, rfl⟩

/-! ## What the processors find -/

theorem validateFilename_iff : validateFilename name strict p = true ↔ NameFits name strict p := by
  have hlong : getFilePrefix p ++ "-" ++ p.timestamp ++ ".zip" =
      p.name ++ "-" ++ p.version ++ "-" ++ p.timestamp ++ ".zip" := rfl
  have hshort : getFilePrefix p ++ ".zip" = p.name ++ "-" ++ p.version ++ ".zip" := rfl
  unfold validateFilename NameFits
  rw [hlong, hshort]
  cases strict <;> simp
  grind

theorem validationProcessor_unreadable (h : Unreadable z) :
    validationProcessor m name a z = (a, .ioException) := by
  obtain ⟨entry, hentry, hcontent⟩ := h
  simp only [validationProcessor, hentry, hcontent]

theorem validationProcessor_missing (h : ¬ Unreadable z) (hd : described m z = none) :
    validationProcessor m name a z = (a, .returned false) := by
  unfold validationProcessor
  unfold described at hd
  cases hentry : z.getEntry "application.xml" with
  | none => rfl
  | some entry =>
    cases hcontent : entry.content with
    | none => exact absurd ⟨entry, hentry, hcontent⟩ h
    | some bytes =>
      have hbytes : m.application bytes = none := by simpa [hentry, hcontent] using hd
      simp only [hcontent, hbytes]

theorem validationProcessor_described {o : Unmarshalled} (hd : described m z = some o)
    (ho : o.packageInfo = some p) :
    validationProcessor m name a z = ({ a with packageInfo := some p },
      .returned (validateFilename name a.strict p)) := by
  obtain ⟨entry, hentry, hd⟩ := Option.bind_eq_some_iff.mp hd
  obtain ⟨bytes, hcontent, hd⟩ := Option.bind_eq_some_iff.mp hd
  cases o with
  | applicationInfo q =>
    obtain rfl := Option.some.inj ho
    simp only [validationProcessor, hentry, hcontent, hd]
  | template q type =>
    obtain rfl := Option.some.inj ho
    simp only [validationProcessor, hentry, hcontent, hd]
  | other => cases ho
  | null => cases ho

theorem validationProcessor_threw {o : Unmarshalled} (hd : described m z = some o)
    (ho : o.packageInfo = none) (name : String) (a : PackageArchive B) :
    ∃ b e, validationProcessor m name a z = (b, .unchecked e) := by
  obtain ⟨entry, hentry, hd⟩ := Option.bind_eq_some_iff.mp hd
  obtain ⟨bytes, hcontent, hd⟩ := Option.bind_eq_some_iff.mp hd
  cases o with
  | applicationInfo q => cases ho
  | template q type => cases ho
  | other => exact ⟨_, _, by simp only [validationProcessor, hentry, hcontent, hd]; rfl⟩
  | null => exact ⟨_, _, by simp only [validationProcessor, hentry, hcontent, hd]; rfl⟩

/-- `getTemplateInfo` finds the documents of a template, and asks for no style sheet. -/
theorem readTemplate_iff {root : String} {type : TemplateType} :
    (readTemplate m z root).1 = some (p, type) ↔ TemplateDocuments m z root p type := by
  constructor
  · intro h
    unfold readTemplate at h
    cases htemplate : z.getEntry (root ++ "template.xml") with
    | none => simp [htemplate] at h
    | some templateFile =>
      cases hmaster : z.getEntry (root ++ "conf/platform.xml") with
      | none => simp [htemplate, hmaster] at h
      | some masterFile =>
        cases hmasterIs : masterFile.content with
        | none => simp [htemplate, hmaster, hmasterIs] at h
        | some masterIs =>
          cases hplatform : m.isPlatform masterIs with
          | false => simp [htemplate, hmaster, hmasterIs, hplatform] at h
          | true =>
            cases htemplateIs : templateFile.content with
            | none => simp [htemplate, hmaster, hmasterIs, hplatform, htemplateIs] at h
            | some templateIs =>
              simp only [htemplate, hmaster, hmasterIs, hplatform, htemplateIs, if_true] at h
              split at h
              · rename_i q t hunmarshalled
                have hpair : some (q, t) = some (p, type) := by
                  split at h <;> exact h
                cases hpair
                exact ⟨⟨templateFile, templateIs, htemplate, htemplateIs, hunmarshalled⟩,
                  masterFile, masterIs, hmaster, hmasterIs, hplatform⟩
              · cases h
  · rintro ⟨⟨templateFile, templateIs, htemplate, htemplateIs, hunmarshalled⟩, masterFile, masterIs,
      hmaster, hmasterIs, hplatform⟩
    simp only [readTemplate, htemplate, hmaster, hmasterIs, hplatform, if_true, htemplateIs,
      hunmarshalled]
    split <;> rfl

theorem getTemplateInfo_iff {entry : ZipEntry B} {rest : List (ZipEntry B)}
    (hentries : z.physicalOrder = entry :: rest) :
    ∃ found, getTemplateInfo m z = .returned found ∧ ∀ q, found = some q ↔
      ∃ type, TemplateDocuments m z entry.name q type := by
  refine ⟨_, by rw [getTemplateInfo, hentries], fun q => ?_⟩
  constructor
  · intro h
    obtain ⟨⟨q, type⟩, hread, rfl⟩ := Option.map_eq_some_iff.mp h
    exact ⟨type, readTemplate_iff.mp hread⟩
  · rintro ⟨type, h⟩
    rw [readTemplate_iff.mpr h]
    rfl

/-! ## What the constructor makes of an archive -/

theorem init_unreadable (hfresh : a.packageInfo = none) (h : Unreadable z) :
    PackageArchive.init m (.zip z) name a = .ok { a with isValid := false } := by
  simp only [PackageArchive.init, processZipFile, validationProcessor_unreadable h, hfresh,
    Option.isSome_none]

theorem init_threw {o : Unmarshalled} (hd : described m z = some o) (ho : o.packageInfo = none)
    (name : String) (a : PackageArchive B) :
    ∃ e, PackageArchive.init m (.zip z) name a = .error e := by
  obtain ⟨b, e, h⟩ := validationProcessor_threw hd ho name a
  exact ⟨e, by simp only [PackageArchive.init, processZipFile, h]⟩

theorem init_fits {o : Unmarshalled} (hd : described m z = some o) (ho : o.packageInfo = some p)
    (hfits : NameFits name a.strict p) :
    PackageArchive.init m (.zip z) name a = .ok { a with
      isValid := true
      packageInfo := some p
      type := some .application } := by
  simp only [PackageArchive.init, processZipFile, validationProcessor_described hd ho,
    validateFilename_iff.mpr hfits]

/-- An archive that is no application: whether it is valid was decided with the package info that
the first processor left behind. -/
theorem init_template {b : PackageArchive B} {found : Option PackageInfo}
    (happ : validationProcessor m name a z = (b, .returned false))
    (hfound : getTemplateInfo m z = .returned found) :
    PackageArchive.init m (.zip z) name a = .ok { b with
      isValid := b.packageInfo.isSome || found.isSome
      packageInfo := found
      type := if found.isSome then some .template else b.type } := by
  cases found <;>
    simp [PackageArchive.init, processZipFile, happ, hfound]

theorem init_empty {b : PackageArchive B}
    (happ : validationProcessor m name a z = (b, .returned false)) (hempty : z.physicalOrder = []) :
    PackageArchive.init m (.zip z) name a = .error .noSuchElementException := by
  simp only [PackageArchive.init, processZipFile, happ, getTemplateInfo, hempty]

/-! ## Exactly the archives that are told right -/

theorem archiveSound_of_invalid (h : a.isValid = false) :
    ArchiveSound m P content name strict a where
  valid hvalid := by rw [h] at hvalid; cases hvalid
  violating _ := h
  getPackage hvalid := by rw [h] at hvalid; cases hvalid
  addArchive hvalid := by rw [h] at hvalid; cases hvalid

theorem archiveSound_of_obeys {file : File B} (hfile : a.file = some file)
    (hinfo : a.packageInfo = some p) (h : Obeys m content name strict p a.type) :
    ArchiveSound m P content name strict a where
  valid _ := ⟨p, hinfo, h⟩
  violating hviolating := absurd h (hviolating p a.type)
  getPackage _ := forMode_ok hinfo
  addArchive _ o _ hs := addArchive_ok hfile hinfo o hs

theorem described_of_unreadable (h : Unreadable z) : described m z = none := by
  obtain ⟨entry, hentry, hcontent⟩ := h
  simp [described, hentry, hcontent]

theorem TemplateDocuments.unique {root : String} {q : PackageInfo} {type type' : TemplateType}
    (h : TemplateDocuments m z root p type) (h' : TemplateDocuments m z root q type') :
    p = q ∧ type = type' := by
  have hread := readTemplate_iff.mpr h
  rw [readTemplate_iff.mpr h'] at hread
  cases hread
  exact ⟨rfl, rfl⟩

/-- A template obeys its rules unless it lacks its style sheet. -/
theorem isTemplate_iff {entry : ZipEntry B} {rest : List (ZipEntry B)} {type : TemplateType}
    (hentries : z.physicalOrder = entry :: rest) (h : TemplateDocuments m z entry.name p type) :
    IsTemplate m z p ↔ ¬ LacksStyleSheet m z := by
  constructor
  · rintro ⟨entry', rest', type', hentries', h', hsheet⟩ ⟨entry'', rest'', q, hentries'', h'', hno⟩
    cases hentries.symm.trans hentries'
    cases hentries.symm.trans hentries''
    exact hno (hsheet (h'.unique h'').2)
  · intro hlacks
    refine ⟨entry, rest, type, hentries, h, fun htype => ?_⟩
    by_contra hno
    exact hlacks ⟨entry, rest, p, hentries, htype ▸ h, hno⟩

theorem readsSoundly_zip : ReadsSoundly m (.zip z) name strict ↔ z.physicalOrder ≠ [] ∧
    (∀ o, described m z = some o → o.packageInfo.isSome) ∧
    (Unreadable z ∨ (∃ p, IsApplication m z p ∧ NameFits name strict p) ∨
      ((∃ p, IsApplication m z p) → ∃ p, IsTemplate m z p) ∧ ¬ LacksStyleSheet m z) := by
  constructor
  · intro h
    exact h z rfl
  · rintro h z' hz
    cases hz
    exact h

theorem physicalOrder_ne_nil {n : String} {entry : ZipEntry B} (h : z.getEntry n = some entry) :
    z.physicalOrder ≠ [] :=
  List.ne_nil_of_mem (z.perm.mem_iff.mpr (List.mem_of_find?_eq_some h))

section Sound

variable {file : File B}

theorem sound_unreadable (hfresh : a.packageInfo = none) (h : Unreadable z) :
    Sound m P (.zip z) name strict (PackageArchive.init m (.zip z) name a) ↔
      ReadsSoundly m (.zip z) name strict := by
  obtain ⟨entry, hentry, -⟩ := id h
  have hdescribed : ∀ o, described m z = some o → o.packageInfo.isSome := by
    rw [described_of_unreadable h]
    exact nofun
  rw [readsSoundly_zip, init_unreadable hfresh h]
  exact ⟨fun _ => ⟨physicalOrder_ne_nil hentry, hdescribed, .inl h⟩,
    fun _ => ⟨_, rfl, archiveSound_of_invalid rfl⟩⟩

theorem sound_described (hfile : a.file = some file) (hstrict : a.strict = strict)
    {o : Unmarshalled} (hd : described m z = some o) (ho : o.packageInfo = some p) :
    Sound m P (.zip z) name strict (PackageArchive.init m (.zip z) name a) ↔
      ReadsSoundly m (.zip z) name strict := by
  obtain ⟨entry', hentry', -⟩ := Option.bind_eq_some_iff.mp hd
  have hne : z.physicalOrder ≠ [] := physicalOrder_ne_nil hentry'
  have hinfo : ∀ o', described m z = some o' → o'.packageInfo.isSome := by
    intro o' hd'
    cases hd.symm.trans hd'
    rw [ho]
    rfl
  have happ : IsApplication m z p := ⟨o, hd, ho⟩
  rw [readsSoundly_zip]
  by_cases hfits : NameFits name strict p
  · rw [init_fits hd ho (hstrict ▸ hfits)]
    exact ⟨fun _ => ⟨hne, hinfo, .inr (.inl ⟨p, happ, hfits⟩)⟩,
      fun _ => ⟨_, rfl, archiveSound_of_obeys hfile rfl ⟨z, rfl, happ, hfits⟩⟩⟩
  · obtain ⟨entry, rest, hentries⟩ := List.exists_cons_of_ne_nil hne
    obtain ⟨found, hreturned, hfound⟩ := getTemplateInfo_iff (m := m) hentries
    have hmismatch : validateFilename name a.strict p = false := by
      rw [hstrict]
      exact Bool.eq_false_iff.mpr fun h => hfits (validateFilename_iff.mp h)
    have hprocessed : validationProcessor m name a z =
        ({ a with packageInfo := some p }, .returned false) := by
      rw [validationProcessor_described hd ho, hmismatch]
    rw [init_template hprocessed hreturned]
    constructor
    · rintro ⟨b, hb, hsound⟩
      obtain rfl := (Except.ok.inj hb).symm
      obtain ⟨q, hq, hobeys⟩ := hsound.valid rfl
      have hq : found = some q := hq
      simp only [hq, Option.isSome_some, if_true] at hobeys
      obtain ⟨z', hz', htemplate⟩ := hobeys
      cases hz'
      obtain ⟨type, hdocuments⟩ := (hfound q).mp hq
      exact ⟨hne, hinfo, .inr (.inr ⟨fun _ => ⟨q, htemplate⟩,
        (isTemplate_iff hentries hdocuments).mp htemplate⟩)⟩
    · rintro ⟨-, -, hunreadable | ⟨q, ⟨o', hd', ho'⟩, hq⟩ | ⟨htemplate, -⟩⟩
      · rw [described_of_unreadable hunreadable] at hd
        cases hd
      · cases hd.symm.trans hd'
        cases ho.symm.trans ho'
        exact absurd hq hfits
      · obtain ⟨q, htemplate⟩ := htemplate ⟨p, happ⟩
        obtain ⟨entry', rest', type, hentries', hdocuments, -⟩ := id htemplate
        cases hentries.symm.trans hentries'
        have hq : found = some q := (hfound q).mpr ⟨type, hdocuments⟩
        refine ⟨_, rfl, archiveSound_of_obeys hfile hq ?_⟩
        simp only [hq, Option.isSome_some, if_true]
        exact ⟨z, rfl, htemplate⟩

theorem sound_missing (hfile : a.file = some file) (hfresh : a.packageInfo = none)
    (h : ¬ Unreadable z) (hd : described m z = none) :
    Sound m P (.zip z) name strict (PackageArchive.init m (.zip z) name a) ↔
      ReadsSoundly m (.zip z) name strict := by
  have hprocessed : validationProcessor m name a z = (a, .returned false) :=
    validationProcessor_missing h hd
  have happ : ¬ ∃ p, IsApplication m z p := by
    rintro ⟨p, o, hd', -⟩
    cases hd.symm.trans hd'
  have hinfo : ∀ o, described m z = some o → o.packageInfo.isSome := by
    rw [hd]
    exact nofun
  rw [readsSoundly_zip]
  cases hentries : z.physicalOrder with
  | nil =>
    rw [init_empty hprocessed hentries]
    constructor
    · rintro ⟨b, hb, -⟩
      cases hb
    · rintro ⟨hne, -⟩
      exact absurd rfl hne
  | cons entry rest =>
    obtain ⟨found, hreturned, hfound⟩ := getTemplateInfo_iff (m := m) hentries
    rw [init_template hprocessed hreturned]
    cases hq : found with
    | none =>
      have hlacks : ¬ LacksStyleSheet m z := by
        rintro ⟨entry', rest', q, hentries', hdocuments, -⟩
        cases hentries.symm.trans hentries'
        have hsome : found = some q := (hfound q).mpr ⟨.xsl, hdocuments⟩
        rw [hq] at hsome
        cases hsome
      refine ⟨fun _ => ⟨List.cons_ne_nil _ _, hinfo, .inr (.inr ⟨fun h => absurd h happ, hlacks⟩)⟩,
        fun _ => ⟨_, rfl, archiveSound_of_invalid ?_⟩⟩
      simp [hfresh]
    | some q =>
      obtain ⟨type, hdocuments⟩ := (hfound q).mp hq
      constructor
      · rintro ⟨b, hb, hsound⟩
        obtain rfl := (Except.ok.inj hb).symm
        obtain ⟨q', hq', hobeys⟩ := hsound.valid (by simp)
        cases hq'
        obtain ⟨z', hz', htemplate⟩ := hobeys
        cases hz'
        exact ⟨List.cons_ne_nil _ _, hinfo, .inr (.inr ⟨fun _ => ⟨q, htemplate⟩,
          (isTemplate_iff hentries hdocuments).mp htemplate⟩)⟩
      · rintro ⟨-, -, hunreadable | ⟨q, hq, -⟩ | ⟨-, hlacks⟩⟩
        · exact absurd hunreadable h
        · exact absurd ⟨q, hq⟩ happ
        · exact ⟨_, rfl, archiveSound_of_obeys hfile rfl
            ⟨z, rfl, (isTemplate_iff hentries hdocuments).mpr hlacks⟩⟩

theorem sound_init (hfile : a.file = some file) (hfresh : a.packageInfo = none)
    (hstrict : a.strict = strict) (content : Content B) :
    Sound m P content name strict (PackageArchive.init m content name a) ↔
      ReadsSoundly m content name strict := by
  have hnoZip : (∀ z, content ≠ .zip z) → PackageArchive.init m content name a =
      .ok { a with isValid := false } := by
    intro hno
    cases content with
    | zip z => exact absurd rfl (hno z)
    | directory =>
      simp only [PackageArchive.init, processZipFile, hfresh, Option.isSome_none]
    | unreadable =>
      simp only [PackageArchive.init, processZipFile, hfresh, Option.isSome_none]
  by_cases hzip : ∃ z, content = .zip z
  · obtain ⟨z, rfl⟩ := hzip
    by_cases hunreadable : Unreadable z
    · exact sound_unreadable hfresh hunreadable
    · cases hd : described m z with
      | none => exact sound_missing hfile hfresh hunreadable hd
      | some o =>
        cases ho : o.packageInfo with
        | some p => exact sound_described hfile hstrict hd ho
        | none =>
          obtain ⟨e, he⟩ := init_threw hd ho name a
          rw [he, readsSoundly_zip]
          constructor
          · rintro ⟨b, hb, -⟩
            cases hb
          · rintro ⟨-, hinfo, -⟩
            have hsome := hinfo o hd
            rw [ho] at hsome
            cases hsome
  · rw [hnoZip fun z hz => hzip ⟨z, hz⟩]
    exact ⟨fun _ z hz => absurd ⟨z, hz⟩ hzip, fun _ => ⟨_, rfl, archiveSound_of_invalid rfl⟩⟩

end Sound

theorem sound_fresh : Sound m P content name strict (.ok (.fresh B)) :=
  ⟨_, rfl, archiveSound_of_invalid rfl⟩

theorem readsSoundly_directory : ReadsSoundly m .directory name strict := nofun

/-- Both constructors. -/
theorem sound_iff (m : Marshallers B) (P : Parsers V) (file : File B) :
    (∀ strict, Sound m P file.content file.name strict (PackageArchive.create m file strict) ↔
      ReadsSoundly m file.content file.name strict) ∧
    (∀ name, Sound m P file.content name true (PackageArchive.createNamed m file name) ↔
      Java.isBlank (some name) = true ∨ ReadsSoundly m file.content name true) := by
  constructor
  · intro strict
    unfold PackageArchive.create
    split
    · rename_i hdirectory
      rw [hdirectory]
      exact ⟨fun _ => readsSoundly_directory, fun _ => sound_fresh⟩
    · exact sound_init rfl rfl rfl file.content
  · intro name
    unfold PackageArchive.createNamed
    by_cases hblank : Java.isBlank (some name) = true
    · rw [if_pos hblank]
      exact ⟨fun _ => .inl hblank, fun _ => sound_fresh⟩
    · rw [if_neg hblank, or_iff_right hblank]
      split
      · rename_i hdirectory
        rw [hdirectory]
        exact ⟨fun _ => readsSoundly_directory, fun _ => sound_fresh⟩
      · exact sound_init rfl rfl rfl file.content

section Example

def demo : PackageInfo := ⟨"demo", "Demo", "", "1.0.0", "20240101-0000"⟩

/-- Documents by their root element. -/
def demoMarshallers : Marshallers String where
  application bytes :=
    if bytes = "application" then some (.applicationInfo demo)
    else if bytes = "template" then some (.template demo .xsl)
    else none
  isPlatform bytes := bytes == "platform"

def zipOf (entries : List (ZipEntry String)) : ZipFile String := ⟨entries, entries, .refl _⟩

/-- An application in a file that is named otherwise. -/
def renamedApplication : File String :=
  ⟨"renamed.zip", .zip (zipOf [⟨"application.xml", some "application"⟩])⟩

theorem not_sound_renamed :
    ¬ Sound demoMarshallers (⟨fun _ => none, fun _ => none⟩ : Parsers Int)
      renamedApplication.content renamedApplication.name true
      (PackageArchive.create demoMarshallers renamedApplication true) := by
  have hvalid : (PackageArchive.create demoMarshallers renamedApplication true).toOption.map
      (fun a => (a.isValid, a.packageInfo)) = some (true, none) := by decide +kernel
  rintro ⟨a, ha, hsound⟩
  rw [ha] at hvalid
  obtain ⟨hisValid, hnone⟩ := Prod.mk.inj (Option.some.inj hvalid)
  obtain ⟨p, hp, -⟩ := hsound.valid hisValid
  rw [hnone] at hp
  cases hp

end Example

end Repository
end AppNG
