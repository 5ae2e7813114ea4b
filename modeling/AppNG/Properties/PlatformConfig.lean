import AppNG.Properties.Scopes
import AppNG.Properties.Values

/-!
# Properties.PlatformConfig

The start of the platform: `CoreService.initPlatformConfig` reads the properties of the platform, declares those
that appNG knows, with what the configuration file overrides of them, and adds what else is overridden. Between
the starts, of the platform and of the command line, the properties are edited.

* `initPlatformConfig_eq`: a start is one pass over its declarations and one over the overrides left.
* `config_exact`: what the platform reads after any history of starts and edits.
* `restart_exact`: a start can be repeated if and only if none of its overrides has a name with another dot. It
  then changes nothing.
* `secret_kept`: the shared secret of the first start stays, until it is overridden or edited.
-/

namespace AppNG
namespace Properties
namespace PlatformConfig

/-! ## The start -/

abbrev Row := PropertyImpl SimpleProperty
abbrev Rows := Keyed (PropertyImpl.name (V := SimpleProperty))
abbrev Overrides := Keyed (Prod.fst (α := String) (β := String))

def fullName (name : String) : String := prefixPlatform ++ name

/-- A call of `addPlatformProperty`. Without a default it throws, unless there is an override. -/
structure Declaration where
  name : String
  defaultValue : Option String
  type : PropertyType

/-- `Type.forObject` of a text -/
def forObject (value : Option String) : PropertyType :=
  if (value.getD "").toList.contains '\n' then .multiline else .text

def text (name : String) (defaultValue : Option String) : Declaration :=
  ⟨name, defaultValue, forObject defaultValue⟩
def number (name : String) (defaultValue : Nat) : Declaration := ⟨name, some (toString defaultValue), .int⟩
def boolean (name : String) (defaultValue : Bool) : Declaration := ⟨name, some (toString defaultValue), .boolean⟩

/-- What a start is given, and what it gets from the virtual machine. -/
structure Start where
  defaultOverrides : Overrides
  rootPath : Option String
  devMode : Option Bool
  persist : Bool
  tempOverrides : Bool
  appngData : Option String
  timeZone : String
  randomSalt : String

structure Config where
  defaultOverrides : Overrides
  propMap : Rows

/-- What `addProperty` makes of a property, or of a new one. -/
def added (stored : Option SimpleProperty) (defaultValue : String) (description : Option String)
    (type : PropertyType) : SimpleProperty :=
  let isMultiline := type == .multiline
  let prop := stored.getD ⟨none, none, if isMultiline then some defaultValue else none, none, type⟩
  let prop := if isMultiline then prop else { prop with defaultString := some defaultValue }
  { prop with description, type }

/-- `PropertyHolder.addProperty` of a holder that is not final -/
def addProperty (propMap : Rows) (name : String) (defaultValue description : Option String)
    (type : PropertyType) : Option Rows :=
  match defaultValue with
  | none => none
  | some defaultValue =>
    let stored := (propMap.get (fullName name)).map PropertyImpl.value
    some (propMap.put ⟨fullName name, added stored defaultValue description type⟩)

def Config.value (config : Config) (declaration : Declaration) : Option String :=
  ((config.defaultOverrides.get (fullName declaration.name)).map Prod.snd).or declaration.defaultValue

section Start

-- `bundle`: the descriptions, by full names. `normalize`: `Path.normalize`.
variable (bundle : String → Option String) (normalize : String → String)

def addPlatformProperty (config : Config) (declaration : Declaration) : Option Config := do
  let description ← bundle (fullName declaration.name)
  let propMap ← addProperty config.propMap declaration.name (config.value declaration) (some description)
    declaration.type
  some ⟨config.defaultOverrides.erase (fullName declaration.name), propMap⟩

/-- What `addPlatformProperty` returns. -/
def returned (config : Config) (declaration : Declaration) : Option String :=
  (config.propMap.get (fullName declaration.name)).bind fun row =>
    if declaration.type = .multiline then row.value.clob else row.value.defaultString

def normalizePath (segment : String) : String :=
  if Java.isBlank (some segment) then "" else normalize segment

def appngDataDir (start : Start) (realRootPath : Option String) : Option String :=
  match start.appngData with
  | some appngData => if Java.isBlank (some appngData) then realRootPath else some (normalizePath normalize appngData)
  | none => realRootPath

def addPaths (start : Start) (config : Config) : Option Config :=
  match start.rootPath with
  | none => some config
  | some rootPath => do
    let platformRootPath := text "platformRootPath" (some (normalizePath normalize rootPath))
    let config ← addPlatformProperty bundle config platformRootPath
    addPlatformProperty bundle config
      (text "appngData" (appngDataDir normalize start (returned config platformRootPath)))

/-- What is declared before the shared secret. -/
def declarations (start : Start) : List Declaration :=
  [text "cacheApplicationFolder" (some "application"),
    text "cacheFolder" (some "cache"),
    boolean "cleanTempFolderOnStartup" false,
    boolean "csrfFilterEnabled" false,
    text "databasePrefix" (some ""),
    number "databaseValidationPeriod" 15,
    text "defaultTemplate" (some "appng"),
    ⟨"devMode", start.devMode.map toString, if start.devMode.isNone then .text else .boolean⟩,
    text "cacheConfig" (some "WEB-INF/conf/hazelcast.xml"),
    text "encoding" (some "UTF-8"),
    boolean "filebasedDeployment" true,
    boolean "formatOutput" false,
    text "cacheImageFolder" (some "image"),
    text "imageMagickPath" (some "/usr/bin"),
    number "inactiveLockPeriod" 0,
    text "jspFileType" (some "jsp"),
    text "locale" (some "en"),
    text "logfile" (some "appNG.log"),
    boolean "mailDisabled" true,
    text "mailHost" (some "localhost"),
    number "mailPort" 25,
    boolean "manageDatabases" true,
    number "maxUploadSize" (30 * 1024 * 1024),
    number "maxLoginAttempts" 20,
    boolean "mdcEnabled" true,
    boolean "messagingEnabled" true,
    text "messagingGroupAddress" (some "224.2.2.4"),
    number "messagingGroupPort" 4000,
    text "messagingReceiver" (some "org.appng.core.controller.messaging.HazelcastReceiver"),
    boolean "monitorPerformance" false,
    text "monitoringPath" (some "/health"),
    text "passwordPolicyErrorMessageKey" (some "DefaultPasswordPolicy.errorMessage"),
    text "passwordPolicyRegEx" (some "[\\S]\x7b6,64\x7d"),
    text "cachePlatformFolder" (some "platform"),
    text "applicationDir" (some "/applications"),
    text "repositoryPath" (some "repository"),
    text "repositoryDefaultDigest" (some ""),
    ⟨"repositoryCert", some "", .multiline⟩,
    ⟨"repositorySignature", some "", .multiline⟩,
    text "repositoryTrustStore" (some ""),
    ⟨"repositoryTrustStorePassword", some "", .password⟩,
    boolean "repositoryVerifySignature" true,
    number "sessionTimeout" 1800,
    ⟨"sessionFilter", some "", .multiline⟩]

/-- What is declared after the shared secret. -/
def furtherDeclarations (start : Start) : List Declaration :=
  [text "templateFolder" (some "/templates"),
    text "templatePrefix" (some "/template"),
    text "timeZone" (some start.timeZone),
    text "uploadDir" (some "/uploads"),
    text "vHostMode" (some "NAME_BASED"),
    boolean "writeDebugFiles" false,
    boolean "xssProtect" false,
    text "xssAllowedTags" (some "a href class style|div align style")]

def sharedSecret (start : Start) : Declaration := ⟨"sharedSecret", some start.randomSalt, .password⟩

/-- The shared secret is made once, and then only overridden. -/
def secretDeclared (config : Config) : Bool :=
  let sharedSecretFullName := fullName "sharedSecret"
  (config.propMap.get sharedSecretFullName).isNone || (config.defaultOverrides.get sharedSecretFullName).isSome

def addSharedSecret (start : Start) (config : Config) : Option Config :=
  if secretDeclared config then addPlatformProperty bundle config (sharedSecret start) else some config

/-- One round of the loop over what is left of the overrides. -/
def addOptional (propMap : Rows) (additionalProp : String × String) : Rows :=
  let (prefixedName, value) := additionalProp
  if prefixPlatform.toList <+: prefixedName.toList then
    let name := String.ofList (prefixedName.toList.drop prefixPlatform.length)
    (addProperty propMap name (some value) none (forObject (some value))).getD propMap
  else propMap

def addOptionals (config : Config) : Rows := config.defaultOverrides.values.foldl addOptional config.propMap

/-- `PropertySupport.initPlatformConfig` -/
def initPropertySupport (start : Start) (propMap : Rows) : Option Rows := do
  let config ← addPaths bundle normalize start ⟨start.defaultOverrides, propMap⟩
  let config ← (declarations start).foldlM (addPlatformProperty bundle) config
  let config ← addSharedSecret bundle start config
  let config ← (furtherDeclarations start).foldlM (addPlatformProperty bundle) config
  some (addOptionals config)

def getPlatform (table : Rows) : Rows := table.filter (selected prefixPlatform)

/-- A row that was read is written again. Any other is new: it has no version and is inserted, which fails if there
is a row of its name. -/
def saveProperty (read table : Rows) (row : Row) : Option Rows :=
  if (read.get row.name).isNone && (table.get row.name).isSome then none else some (table.put row)

def saveProperties (read propMap table : Rows) : Option Rows := propMap.values.foldlM (saveProperty read) table

def addPropertyIfExists (defaultOverrides : Overrides) (propMap : Rows) (name : String) : Rows :=
  match defaultOverrides.get name with
  | none => propMap
  | some (_, value) => (addProperty propMap name (some value) none .text).getD propMap

/-- What becomes of the rows at the end of the transaction: those that are attached are written as they are. -/
def flush (attached propMap table : Rows) : Rows :=
  (propMap.values.filter fun row => (attached.get row.name).isSome).foldl Keyed.put table

/-- `CoreService.initPlatformConfig`: the configuration, and the table. -/
def initPlatformConfig (start : Start) (table : Rows) : Option (Rows × Rows) := do
  let read := getPlatform table
  let config ← initPropertySupport bundle normalize start read
  let saved := start.persist && !start.tempOverrides
  let detached := !start.persist && start.tempOverrides
  let table ← (if saved then saveProperties read config table else some table)
  let attached := if saved then config else if detached then Keyed.empty else read
  let platformConfig := ["appng.user", "appng.group"].foldl (addPropertyIfExists start.defaultOverrides) config
  some (platformConfig, flush attached platformConfig table)

end Start

/-! ## One property -/

section Property

variable {bundle : String → Option String} {config config' : Config} {declaration : Declaration} {name value : String}
  {stored : Option SimpleProperty} {description : Option String} {type : PropertyType}

theorem fullName_inj {name name' : String} (h : fullName name = fullName name') : name = name' := by
  unfold fullName at h
  rw [← String.toList_inj, String.toList_append, String.toList_append, List.append_cancel_left_eq] at h
  exact String.toList_inj.mp h

theorem added_added {description' : Option String} :
    added (some (added stored value description type)) value description' type =
      added stored value description' type := by
  by_cases h : type = .multiline
  · simp [added, h]
  · simp [added, h]

/-- What is read of a property with a value given by a start, of what was stored and what was set before. A text of
several lines is only ever given to a property that is new. -/
def reads (stored : Option SimpleProperty) (set : Option String) (value : String) (type : PropertyType) :
    Option String :=
  if type = .multiline then stored.elim (some value) SimpleProperty.clob
  else if Java.isEmpty set then some value
  else set

theorem read_added : (added stored value description type).read =
    reads stored (stored.bind SimpleProperty.actualString) value type := by
  unfold reads
  by_cases h : type = .multiline
  · cases stored with
    | none => simp [added, h, SimpleProperty.read]
    | some property => simp [added, h, SimpleProperty.read]
  · rw [if_neg h, SimpleProperty.read_single (show (added stored value description type).type ≠ _ from h)]
    cases stored with
    | none => simp [added, h, SimpleProperty.getString, Java.isEmpty]
    | some property => simp [added, h, SimpleProperty.getString]

theorem actualString_added :
    (added stored value description type).actualString = stored.bind SimpleProperty.actualString := by
  unfold added
  cases stored with
  | none => simp only [Option.getD_none, Option.bind_none]; split <;> rfl
  | some property => simp only [Option.getD_some, Option.bind_some]; split <;> rfl

/-- The property of a name, if there is one. -/
def storedAt (propMap : Rows) (name : String) : Option SimpleProperty := (propMap.get name).map PropertyImpl.value

theorem addPlatformProperty_eq_some : addPlatformProperty bundle config declaration = some config' ↔
    ∃ value description, config.value declaration = some value ∧
      bundle (fullName declaration.name) = some description ∧
      config' = ⟨config.defaultOverrides.erase (fullName declaration.name), config.propMap.put
        ⟨fullName declaration.name,
          added (storedAt config.propMap (fullName declaration.name)) value (some description) declaration.type⟩⟩ := by
  unfold addPlatformProperty
  cases hbundle : bundle (fullName declaration.name) with
  | none => simp
  | some description =>
    cases hvalue : config.value declaration with
    | none => simp [addProperty]
    | some value => simp [addProperty, storedAt, eq_comm]

end Property

/-! ## The declarations -/

section Declarations

variable {bundle : String → Option String} {normalize : String → String} {config config' : Config}
  {ds : List Declaration} {name : String}

/-- What a list of declarations makes of the properties. -/
structure Declared (bundle : String → Option String) (ds : List Declaration) (config config' : Config) : Prop where
  declared : ∀ d ∈ ds, ∃ value description,
    config.value d = some value ∧ bundle (fullName d.name) = some description ∧
    config'.propMap.get (fullName d.name) =
      some ⟨fullName d.name, added (storedAt config.propMap (fullName d.name)) value (some description) d.type⟩
  consumed : ∀ d ∈ ds, config'.defaultOverrides.get (fullName d.name) = none
  frame : ∀ name, (∀ d ∈ ds, fullName d.name ≠ name) → config'.propMap.get name = config.propMap.get name ∧
    config'.defaultOverrides.get name = config.defaultOverrides.get name

theorem Declared.value_eq {d : Declaration} (h : Declared bundle ds config config')
    (hd : ∀ e ∈ ds, e.name ≠ d.name) : config'.value d = config.value d := by
  have hframe := h.frame (fullName d.name) fun e he heq => hd e he (fullName_inj heq)
  rw [Config.value, hframe.2]
  rfl

theorem declared_cons {d : Declaration} {between : Config} (hd : addPlatformProperty bundle config d = some between)
    (hnew : ∀ e ∈ ds, d.name ≠ e.name) (h : Declared bundle ds between config') :
    Declared bundle (d :: ds) config config' := by
  obtain ⟨value, description, hvalue, hbundle, rfl⟩ := addPlatformProperty_eq_some.mp hd
  have hne : ∀ e ∈ ds, fullName d.name ≠ fullName e.name := fun e he heq => hnew e he (fullName_inj heq)
  have hframe := h.frame (fullName d.name) fun e he => (hne e he).symm
  refine ⟨fun e he => ?_, fun e he => ?_, fun name hname => ?_⟩
  · rcases List.mem_cons.mp he with rfl | he
    · refine ⟨value, description, hvalue, hbundle, ?_⟩
      rw [hframe.1]
      show (config.propMap.put _).get _ = _
      rw [Keyed.get_put, if_pos rfl]
    · obtain ⟨value', description', hvalue', hbundle', hget⟩ := h.declared e he
      have hoverride : (config.defaultOverrides.erase (fullName d.name)).get (fullName e.name) =
          config.defaultOverrides.get (fullName e.name) := by
        rw [Keyed.get_erase, if_neg (hne e he).symm]
      refine ⟨value', description', ?_, hbundle', ?_⟩
      · rw [← hvalue', Config.value, Config.value, hoverride]
      · rw [hget]
        unfold storedAt
        rw [Keyed.get_put, if_neg (hne e he)]
  · rcases List.mem_cons.mp he with rfl | he
    · rw [hframe.2, Keyed.get_erase, if_pos rfl]
    · exact h.consumed e he
  · have hrest := h.frame name fun e he => hname e (List.mem_cons_of_mem d he)
    have hd := hname d List.mem_cons_self
    refine ⟨?_, ?_⟩
    · rw [hrest.1, Keyed.get_put, if_neg hd]
    · rw [hrest.2, Keyed.get_erase, if_neg hd.symm]

theorem declared_foldlM (hnodup : (ds.map Declaration.name).Nodup)
    (h : ds.foldlM (addPlatformProperty bundle) config = some config') : Declared bundle ds config config' := by
  induction ds generalizing config with
  | nil =>
    cases h
    exact ⟨nofun, nofun, fun _ _ => ⟨rfl, rfl⟩⟩
  | cons d ds ih =>
    rw [List.map_cons, List.nodup_cons] at hnodup
    rw [List.foldlM_cons] at h
    obtain ⟨between, hd, hrest⟩ := Option.bind_eq_some_iff.mp h
    have hnew : ∀ e ∈ ds, d.name ≠ e.name := fun e he heq => hnodup.1 (heq ▸ List.mem_map_of_mem he)
    exact declared_cons hd hnew (ih hnodup.2 hrest)

/-- Every declaration has a value and a description. -/
def Declarable (bundle : String → Option String) (ds : List Declaration) (config : Config) : Prop :=
  ∀ d ∈ ds, (config.value d).isSome ∧ (bundle (fullName d.name)).isSome

theorem Declared.declarable (h : Declared bundle ds config config') : Declarable bundle ds config := by
  intro d hd
  obtain ⟨value, description, hvalue, hbundle, -⟩ := h.declared d hd
  rw [hvalue, hbundle]
  exact ⟨rfl, rfl⟩

theorem exists_foldlM (hnodup : (ds.map Declaration.name).Nodup) (h : Declarable bundle ds config) :
    ∃ config', ds.foldlM (addPlatformProperty bundle) config = some config' := by
  induction ds generalizing config with
  | nil => exact ⟨config, rfl⟩
  | cons d ds ih =>
    rw [List.map_cons, List.nodup_cons] at hnodup
    obtain ⟨hvalue, hbundle⟩ := h d List.mem_cons_self
    obtain ⟨value, hvalue⟩ := Option.isSome_iff_exists.mp hvalue
    obtain ⟨description, hbundle⟩ := Option.isSome_iff_exists.mp hbundle
    obtain ⟨between, hbetween⟩ : ∃ between, addPlatformProperty bundle config d = some between :=
      ⟨_, addPlatformProperty_eq_some.mpr ⟨value, description, hvalue, hbundle, rfl⟩⟩
    have hone : Declared bundle [d] config between :=
      declared_cons hbetween nofun ⟨nofun, nofun, fun _ _ => ⟨rfl, rfl⟩⟩
    have hnew : ∀ e ∈ ds, d.name ≠ e.name := fun e he heq => hnodup.1 (heq ▸ List.mem_map_of_mem he)
    have hdeclarable : Declarable bundle ds between := by
      intro e he
      rw [hone.value_eq fun f hf => List.mem_singleton.mp hf ▸ hnew e he]
      exact h e (List.mem_cons_of_mem d he)
    obtain ⟨config', hrest⟩ := ih hnodup.2 hdeclarable
    exact ⟨config', by rw [List.foldlM_cons, hbetween]; exact hrest⟩

end Declarations

/-! ## A start in two passes -/

section Passes

variable (bundle : String → Option String) (normalize : String → String) (start : Start) (propMap : Rows)

def Start.config : Config := ⟨start.defaultOverrides, propMap⟩

/-- What `addPlatformProperty` is going to return. -/
def returns (config : Config) (declaration : Declaration) : Option String :=
  (config.value declaration).bind fun value =>
    let property := added (storedAt config.propMap (fullName declaration.name)) value none declaration.type
    if declaration.type = .multiline then property.clob else property.defaultString

def paths : List Declaration :=
  match start.rootPath with
  | none => []
  | some rootPath =>
    let platformRootPath := text "platformRootPath" (some (normalizePath normalize rootPath))
    [platformRootPath,
      text "appngData" (appngDataDir normalize start (returns (start.config propMap) platformRootPath))]

def secret : List Declaration := if secretDeclared (start.config propMap) then [sharedSecret start] else []

/-- All that a start declares, in order. -/
def allDeclarations : List Declaration :=
  paths normalize start propMap ++ declarations start ++ secret start propMap ++ furtherDeclarations start

def names : List String :=
  ["platformRootPath", "appngData"] ++ (declarations start).map Declaration.name ++ ["sharedSecret"] ++
    (furtherDeclarations start).map Declaration.name

def someStart : Start := ⟨Keyed.empty, none, none, true, false, none, "", ""⟩

theorem names_eq : names start = names someStart := rfl

theorem names_nodup : (names start).Nodup := by
  rw [names_eq]
  decide +kernel

theorem names_no_dot : ∀ name ∈ names start, '.' ∉ name.toList := by
  have hall : (names someStart).all (fun name => !name.toList.contains '.') = true := by decide +kernel
  intro name hname
  simpa using List.all_eq_true.mp hall name hname

theorem paths_sublist :
    ((paths normalize start propMap).map Declaration.name).Sublist ["platformRootPath", "appngData"] := by
  unfold paths
  split
  · exact List.nil_sublist _
  · exact List.Sublist.refl _

theorem allDeclarations_sublist :
    ((allDeclarations normalize start propMap).map Declaration.name).Sublist (names start) := by
  have hsecret : ((secret start propMap).map Declaration.name).Sublist ["sharedSecret"] := by
    unfold secret
    split
    · exact List.Sublist.refl _
    · exact List.nil_sublist _
  rw [allDeclarations, List.map_append, List.map_append, List.map_append]
  have hbefore := (paths_sublist normalize start propMap).append
    (List.Sublist.refl ((declarations start).map Declaration.name))
  exact (hbefore.append hsecret).append (List.Sublist.refl _)

theorem allDeclarations_nodup : ((allDeclarations normalize start propMap).map Declaration.name).Nodup :=
  (names_nodup start).sublist (allDeclarations_sublist normalize start propMap)

theorem no_dot {d : Declaration} (h : d ∈ allDeclarations normalize start propMap) : '.' ∉ d.name.toList :=
  names_no_dot start d.name ((allDeclarations_sublist normalize start propMap).subset (List.mem_map_of_mem h))

variable {bundle normalize start propMap} {config config' : Config}

theorem named_before : ∀ d ∈ paths normalize start propMap ++ declarations start, d.name ≠ "sharedSecret" := by
  have hnames : "sharedSecret" ∉
      ["platformRootPath", "appngData"] ++ (declarations someStart).map Declaration.name := by
    decide +kernel
  intro d hd heq
  have hmem : d.name ∈
      (paths normalize start propMap).map Declaration.name ++ (declarations start).map Declaration.name := by
    rw [← List.map_append]
    exact List.mem_map_of_mem hd
  have hsub := List.Sublist.append (paths_sublist normalize start propMap)
    (List.Sublist.refl ((declarations start).map Declaration.name))
  exact hnames (heq ▸ List.Sublist.subset hsub hmem)

theorem named_after : ∀ d ∈ furtherDeclarations start, d.name ≠ "sharedSecret" := by
  have hnames : "sharedSecret" ∉ (furtherDeclarations someStart).map Declaration.name := by decide +kernel
  intro d hd heq
  have hmem : d.name ∈ (furtherDeclarations start).map Declaration.name := List.mem_map_of_mem hd
  exact hnames (heq ▸ hmem)

theorem returned_eq {d : Declaration} (h : addPlatformProperty bundle config d = some config') :
    returned config' d = returns config d := by
  obtain ⟨value, description, hvalue, hbundle, rfl⟩ := addPlatformProperty_eq_some.mp h
  unfold returned returns
  rw [Keyed.get_put, if_pos rfl, hvalue]
  rfl

theorem addPaths_eq : addPaths bundle normalize start (start.config propMap) =
    (paths normalize start propMap).foldlM (addPlatformProperty bundle) (start.config propMap) := by
  unfold addPaths paths
  cases start.rootPath with
  | none => rfl
  | some rootPath =>
    dsimp only
    rw [List.foldlM_cons]
    refine Option.bind_congr fun config' hconfig' => ?_
    rw [returned_eq hconfig', List.foldlM_cons]
    simp only [List.foldlM_nil, bind_pure]

theorem addSharedSecret_eq {ds : List Declaration} (hds : Declared bundle ds (start.config propMap) config)
    (hnew : ∀ d ∈ ds, d.name ≠ "sharedSecret") : addSharedSecret bundle start config =
      (secret start propMap).foldlM (addPlatformProperty bundle) config := by
  have hframe := hds.frame (fullName "sharedSecret") fun d hd heq => hnew d hd (fullName_inj heq)
  have hdeclared : secretDeclared config = secretDeclared (start.config propMap) := by
    simp only [secretDeclared, hframe.1, hframe.2]
  unfold addSharedSecret secret
  rw [hdeclared]
  split
  · rw [List.foldlM_cons]
    simp only [List.foldlM_nil, bind_pure]
  · rfl

theorem initPropertySupport_eq : initPropertySupport bundle normalize start propMap =
    ((allDeclarations normalize start propMap).foldlM (addPlatformProperty bundle) (start.config propMap)).map
      addOptionals := by
  have hnodup : ((paths normalize start propMap ++ declarations start).map Declaration.name).Nodup :=
    (allDeclarations_nodup normalize start propMap).sublist (List.Sublist.map _ (by simp [allDeclarations]))
  unfold initPropertySupport
  show (addPaths bundle normalize start (start.config propMap)).bind _ = _
  rw [addPaths_eq, allDeclarations, List.foldlM_append, List.foldlM_append, List.foldlM_append]
  simp only [Option.bind_eq_bind, Option.map_eq_bind, Option.bind_assoc]
  refine Option.bind_congr fun config₁ h₁ => Option.bind_congr fun config₂ h₂ => ?_
  have hdeclared :
      Declared bundle (paths normalize start propMap ++ declarations start) (start.config propMap) config₂ := by
    refine declared_foldlM hnodup ?_
    rw [List.foldlM_append, h₁]
    exact h₂
  rw [addSharedSecret_eq hdeclared named_before]
  rfl

end Passes

/-! ## What a start gives -/

section Started

variable {bundle : String → Option String} {normalize : String → String} {start : Start} {propMap config : Rows}
  {name value : String}

theorem addOptional_eq (h : prefixPlatform.toList <+: name.toList) : addOptional propMap (name, value) =
    propMap.put ⟨name, added (storedAt propMap name) value none (forObject (some value))⟩ := by
  obtain ⟨rest, hrest⟩ := h
  have hname : fullName (String.ofList (name.toList.drop prefixPlatform.length)) = name := by
    rw [fullName, ← String.toList_inj, String.toList_append, String.toList_ofList, ← hrest]
    exact congrArg _ (List.drop_left' rfl)
  simp only [addOptional, if_pos (show _ <+: _ from ⟨rest, hrest⟩), addProperty, hname, Option.getD_some]
  rfl

theorem addOptional_frame {override : String × String}
    (h : override.1 ≠ name ∨ ¬ prefixPlatform.toList <+: name.toList) :
    (addOptional propMap override).get name = propMap.get name := by
  obtain ⟨other, value⟩ := override
  by_cases hother : prefixPlatform.toList <+: other.toList
  · rw [addOptional_eq hother, Keyed.get_put, if_neg]
    rintro rfl
    exact h.elim (fun hne => hne rfl) fun hnot => hnot hother
  · simp only [addOptional, if_neg hother]

theorem foldl_addOptional_frame {vs : List (String × String)}
    (h : ∀ override ∈ vs, override.1 ≠ name ∨ ¬ prefixPlatform.toList <+: name.toList) :
    (vs.foldl addOptional propMap).get name = propMap.get name := by
  induction vs generalizing propMap with
  | nil => rfl
  | cons override vs ih =>
    rw [List.foldl_cons, ih fun o ho => h o (List.mem_cons_of_mem _ ho)]
    exact addOptional_frame (h override List.mem_cons_self)

theorem foldl_addOptional {vs : List (String × String)} (hnodup : (vs.map Prod.fst).Nodup) (hmem : (name, value) ∈ vs)
    (h : prefixPlatform.toList <+: name.toList) : (vs.foldl addOptional propMap).get name =
      some ⟨name, added (storedAt propMap name) value none (forObject (some value))⟩ := by
  induction vs generalizing propMap with
  | nil => cases hmem
  | cons override vs ih =>
    rw [List.map_cons, List.nodup_cons] at hnodup
    rw [List.foldl_cons]
    rcases List.mem_cons.mp hmem with rfl | hmem
    · rw [foldl_addOptional_frame, addOptional_eq h, Keyed.get_put, if_pos rfl]
      exact fun o ho => .inl fun heq => hnodup.1 (List.mem_map.mpr ⟨o, ho, heq⟩)
    · have hne : override.1 ≠ name := fun heq => hnodup.1 (List.mem_map.mpr ⟨_, hmem, heq.symm⟩)
      rw [ih hnodup.2 hmem, storedAt, addOptional_frame (.inl hne)]
      rfl

/-- What a start makes of the properties, name by name. -/
structure Started (bundle : String → Option String) (normalize : String → String) (start : Start)
    (propMap config : Rows) : Prop where
  declared : ∀ d ∈ allDeclarations normalize start propMap, ∃ value description,
    (start.config propMap).value d = some value ∧ bundle (fullName d.name) = some description ∧
    config.get (fullName d.name) =
      some ⟨fullName d.name, added (storedAt propMap (fullName d.name)) value (some description) d.type⟩
  optional : ∀ name value, (∀ d ∈ allDeclarations normalize start propMap, fullName d.name ≠ name) →
    start.defaultOverrides.get name = some (name, value) → prefixPlatform.toList <+: name.toList →
    config.get name = some ⟨name, added (storedAt propMap name) value none (forObject (some value))⟩
  frame : ∀ name, (∀ d ∈ allDeclarations normalize start propMap, fullName d.name ≠ name) →
    start.defaultOverrides.get name = none ∨ ¬ prefixPlatform.toList <+: name.toList →
    config.get name = propMap.get name

theorem started (h : initPropertySupport bundle normalize start propMap = some config) :
    Started bundle normalize start propMap config := by
  rw [initPropertySupport_eq] at h
  obtain ⟨last, hlast, rfl⟩ := Option.map_eq_some_iff.mp h
  have hdeclared := declared_foldlM (allDeclarations_nodup normalize start propMap) hlast
  refine ⟨fun d hd => ?_, fun name value hnew hoverride hprefix => ?_, fun name hnew hoverride => ?_⟩
  · obtain ⟨value, description, hvalue, hbundle, hget⟩ := hdeclared.declared d hd
    refine ⟨value, description, hvalue, hbundle, ?_⟩
    rw [addOptionals, foldl_addOptional_frame, hget]
    · rfl
    · have hnone := Keyed.get_eq_none.mp (hdeclared.consumed d hd)
      exact fun o ho => .inl (hnone o ho)
  · have hframe := hdeclared.frame name hnew
    have hmem : (name, value) ∈ last.defaultOverrides.values :=
      (Keyed.get_eq_some.mp (hframe.2.trans hoverride)).1
    rw [addOptionals, foldl_addOptional last.defaultOverrides.nodup hmem hprefix, storedAt, hframe.1]
    rfl
  · have hframe := hdeclared.frame name hnew
    rw [addOptionals, foldl_addOptional_frame, hframe.1]
    · rfl
    · intro o ho
      refine hoverride.imp_left fun hnone => ?_
      exact Keyed.get_eq_none.mp (hframe.2.trans hnone) o ho

theorem exists_initPropertySupport
    (h : Declarable bundle (allDeclarations normalize start propMap) (start.config propMap)) :
    ∃ config, initPropertySupport bundle normalize start propMap = some config := by
  obtain ⟨last, hlast⟩ := exists_foldlM (allDeclarations_nodup normalize start propMap) h
  exact ⟨addOptionals last, by rw [initPropertySupport_eq, hlast]; rfl⟩

theorem Started.declarable (h : Started bundle normalize start propMap config) :
    Declarable bundle (allDeclarations normalize start propMap) (start.config propMap) := by
  intro d hd
  obtain ⟨value, description, hvalue, hbundle, -⟩ := h.declared d hd
  rw [hvalue, hbundle]
  exact ⟨rfl, rfl⟩

/-- Every property is the one it was, or has been given a value. -/
theorem Started.added_or_same (h : Started bundle normalize start propMap config) (name : String) :
    (∃ value description type,
      config.get name = some ⟨name, added (storedAt propMap name) value description type⟩) ∨
    config.get name = propMap.get name := by
  by_cases hdeclared : ∃ d ∈ allDeclarations normalize start propMap, fullName d.name = name
  · obtain ⟨d, hd, rfl⟩ := hdeclared
    obtain ⟨value, description, -, -, hget⟩ := h.declared d hd
    exact .inl ⟨value, some description, d.type, hget⟩
  · have hnew : ∀ d ∈ allDeclarations normalize start propMap, fullName d.name ≠ name :=
      fun d hd heq => hdeclared ⟨d, hd, heq⟩
    by_cases hprefix : prefixPlatform.toList <+: name.toList
    · cases hoverride : start.defaultOverrides.get name with
      | none => exact .inr (h.frame name hnew (.inl hoverride))
      | some override =>
        obtain ⟨key, value⟩ := override
        obtain rfl : key = name := (Keyed.get_eq_some.mp hoverride).2
        exact .inl ⟨value, none, _, h.optional key value hnew hoverride hprefix⟩
    · exact .inr (h.frame name hnew (.inr hprefix))

theorem Started.get_none (h : Started bundle normalize start propMap config) (hnone : config.get name = none) :
    propMap.get name = none := by
  rcases h.added_or_same name with ⟨value, description, type, hget⟩ | hget
  · rw [hget] at hnone
    cases hnone
  · exact hget.symm.trans hnone

end Started

/-! ## The table -/

section Table

variable {read propMap table table' attached : Rows} {name : String}

theorem get_getPlatform : (getPlatform table).get name = (table.get name).filter (selected prefixPlatform) :=
  Keyed.get_filter

theorem literal_prefixPlatform : Like.Literal prefixPlatform.toList := by decide +kernel

theorem selected_fullName {row : Row} {n : String} (hrow : row.name = fullName n) :
    selected prefixPlatform row = true ↔ '.' ∉ n.toList := by
  rw [selected_literal literal_prefixPlatform, hrow, fullName, String.toList_append]
  simp [eq_comm]

theorem getPlatform_plain {n : String} (h : '.' ∉ n.toList) :
    (getPlatform table).get (fullName n) = table.get (fullName n) := by
  rw [get_getPlatform]
  cases hget : table.get (fullName n) with
  | none => rfl
  | some row => exact Option.filter_some_pos ((selected_fullName (Keyed.get_eq_some.mp hget).2).mpr h)

theorem getPlatform_dotted {n : String} (h : '.' ∈ n.toList) : (getPlatform table).get (fullName n) = none := by
  rw [get_getPlatform]
  cases hget : table.get (fullName n) with
  | none => rfl
  | some row =>
    have hselected := mt (selected_fullName (Keyed.get_eq_some.mp hget).2).mp (not_not.mpr h)
    exact Option.filter_some_neg (by simpa using hselected)

theorem get_of_getPlatform {row : Row} (h : (getPlatform table).get name = some row) : table.get name = some row := by
  rw [get_getPlatform] at h
  exact (Option.filter_eq_some_iff.mp h).1

/-- A property that was not read has no row. -/
def Insertable (read table : Rows) (row : Row) : Prop := read.get row.name = none → table.get row.name = none

theorem saveProperty_eq_some {row : Row} :
    saveProperty read table row = some table' ↔ Insertable read table row ∧ table' = table.put row := by
  unfold saveProperty Insertable
  cases hread : read.get row.name with
  | none =>
    cases htable : table.get row.name with
    | none => simp [eq_comm]
    | some old => simp
  | some old => simp [eq_comm]

theorem foldlM_saveProperty {rows : List Row} (hnodup : (rows.map PropertyImpl.name).Nodup) :
    (∃ table', rows.foldlM (saveProperty read) table = some table') ↔ ∀ row ∈ rows, Insertable read table row := by
  induction rows generalizing table with
  | nil => exact ⟨fun _ => nofun, fun _ => ⟨table, rfl⟩⟩
  | cons row rows ih =>
    rw [List.map_cons, List.nodup_cons] at hnodup
    have hlater : ∀ other ∈ rows, Insertable read (table.put row) other ↔ Insertable read table other := by
      intro other hother
      have hne : row.name ≠ other.name := fun heq => hnodup.1 (heq ▸ List.mem_map_of_mem hother)
      unfold Insertable
      rw [Keyed.get_put, if_neg hne]
    rw [List.forall_mem_cons, ← forall₂_congr hlater, ← ih hnodup.2]
    constructor
    · rintro ⟨table', h⟩
      rw [List.foldlM_cons] at h
      obtain ⟨between, hrow, hrest⟩ := Option.bind_eq_some_iff.mp h
      obtain ⟨hinsertable, rfl⟩ := saveProperty_eq_some.mp hrow
      exact ⟨hinsertable, table', hrest⟩
    · rintro ⟨hinsertable, table', hrest⟩
      refine ⟨table', ?_⟩
      rw [List.foldlM_cons, saveProperty_eq_some.mpr ⟨hinsertable, rfl⟩]
      exact hrest

theorem eq_foldl_put {rows : List Row} (h : rows.foldlM (saveProperty read) table = some table') :
    table' = rows.foldl Keyed.put table := by
  induction rows generalizing table with
  | nil => exact (Option.some.inj h).symm
  | cons row rows ih =>
    rw [List.foldlM_cons] at h
    obtain ⟨between, hrow, hrest⟩ := Option.bind_eq_some_iff.mp h
    obtain ⟨-, rfl⟩ := saveProperty_eq_some.mp hrow
    exact ih hrest

theorem saveProperties_eq_some : saveProperties read propMap table = some table' ↔
    (∀ row ∈ propMap.values, Insertable read table row) ∧ table' = propMap.values.foldl Keyed.put table := by
  unfold saveProperties
  constructor
  · intro h
    exact ⟨(foldlM_saveProperty propMap.nodup).mp ⟨table', h⟩, eq_foldl_put h⟩
  · rintro ⟨hinsertable, rfl⟩
    obtain ⟨table', h⟩ := (foldlM_saveProperty propMap.nodup).mpr hinsertable
    rw [h, eq_foldl_put h]

/-- Rows that are written one after another. -/
theorem get_written {p : Row → Bool} : ((propMap.values.filter p).foldl Keyed.put table).get name =
    ((propMap.get name).filter p).or (table.get name) := by
  rw [Keyed.get_foldl_put]
  cases hget : (propMap.get name).filter p with
  | none =>
    rw [Option.none_or]
    refine Keyed.overlay_of_absent fun row hrow hname => ?_
    obtain ⟨hrow, hp⟩ := List.mem_filter.mp hrow
    rw [Keyed.get_eq_some.mpr ⟨hrow, hname⟩, Option.filter_some_pos hp] at hget
    cases hget
  | some row =>
    obtain ⟨hrow, hp⟩ := Option.filter_eq_some_iff.mp hget
    obtain ⟨hrow, hname⟩ := Keyed.get_eq_some.mp hrow
    obtain ⟨other, hother, hkey, heq⟩ := Keyed.overlay_of_present (m := table.get)
      ⟨row, List.mem_filter.mpr ⟨hrow, hp⟩, hname⟩
    rw [heq, Keyed.eq_of_key_eq (List.mem_filter.mp hother).1 hrow (hkey.trans hname.symm)]
    rfl

theorem get_saved : (propMap.values.foldl Keyed.put table).get name = (propMap.get name).or (table.get name) := by
  have hall : propMap.values.filter (fun _ => true) = propMap.values := List.filter_eq_self.mpr fun _ _ => rfl
  rw [← hall, get_written]
  cases propMap.get name <;> rfl

theorem get_flush : (flush attached propMap table).get name =
    if (attached.get name).isSome then (propMap.get name).or (table.get name) else table.get name := by
  rw [flush, get_written]
  cases hget : propMap.get name with
  | none => simp
  | some row =>
    obtain rfl : row.name = name := (Keyed.get_eq_some.mp hget).2
    by_cases hattached : (attached.get row.name).isSome = true
    · simp [Option.filter_some, hattached]
    · simp [Option.filter_some, hattached]

end Table

/-! ## The service -/

section Service

variable {bundle : String → Option String} {normalize : String → String} {start : Start}
  {propMap config table table' : Rows} {name : String}

/-- The value that was set, of a property that is there. -/
def actualString (propMap : Rows) (name : String) : Option String :=
  (storedAt propMap name).bind SimpleProperty.actualString

theorem addPropertyIfExists_frame {overrides : Overrides} {key : String} (h : name ≠ fullName key) :
    (addPropertyIfExists overrides propMap key).get name = propMap.get name := by
  unfold addPropertyIfExists
  cases overrides.get key with
  | none => rfl
  | some override => simp only [addProperty, Option.getD_some, Keyed.get_put, if_neg h.symm]

theorem isSome_addPropertyIfExists {overrides : Overrides} {key : String} (h : (propMap.get name).isSome) :
    ((addPropertyIfExists overrides propMap key).get name).isSome := by
  unfold addPropertyIfExists
  cases overrides.get key with
  | none => exact h
  | some override =>
    simp only [addProperty, Option.getD_some, Keyed.get_put]
    split
    · rfl
    · exact h

theorem actualString_put {name value : String} {description : Option String} {type : PropertyType} {other : String} :
    actualString (propMap.put ⟨name, added (storedAt propMap name) value description type⟩) other =
      actualString propMap other := by
  unfold actualString storedAt
  rw [Keyed.get_put]
  split
  · rename_i h
    cases h
    exact actualString_added
  · rfl

theorem actualString_addPropertyIfExists {overrides : Overrides} {key : String} :
    actualString (addPropertyIfExists overrides propMap key) name = actualString propMap name := by
  unfold addPropertyIfExists
  cases overrides.get key with
  | none => rfl
  | some override => exact actualString_put

theorem Started.actualString_eq (h : Started bundle normalize start propMap config) (name : String) :
    actualString config name = actualString propMap name := by
  unfold actualString storedAt
  rcases h.added_or_same name with ⟨value, description, type, hget⟩ | hget
  · rw [hget]
    exact actualString_added
  · rw [hget]

/-- What is saved. -/
def Start.saves (start : Start) : Bool := start.persist && !start.tempOverrides

def Start.finish (start : Start) (config : Rows) : Rows :=
  ["appng.user", "appng.group"].foldl (addPropertyIfExists start.defaultOverrides) config

theorem finish_plain {n : String} (h : '.' ∉ n.toList) :
    (start.finish config).get (fullName n) = config.get (fullName n) := by
  have hne : ∀ key : String, '.' ∈ key.toList → fullName n ≠ fullName key :=
    fun key hkey heq => h (fullName_inj heq ▸ hkey)
  show (addPropertyIfExists _ (addPropertyIfExists _ _ _) _).get _ = _
  rw [addPropertyIfExists_frame (hne _ (by decide +kernel)), addPropertyIfExists_frame (hne _ (by decide +kernel))]

theorem isSome_finish (h : (config.get name).isSome) : ((start.finish config).get name).isSome :=
  isSome_addPropertyIfExists (isSome_addPropertyIfExists h)

theorem actualString_finish : actualString (start.finish config) name = actualString config name :=
  actualString_addPropertyIfExists.trans actualString_addPropertyIfExists

/-- What the start does, when it comes to its end. -/
theorem initPlatformConfig_cases (h : initPlatformConfig bundle normalize start table = some (config, table')) :
    ∃ config₀, initPropertySupport bundle normalize start (getPlatform table) = some config₀ ∧
      config = start.finish config₀ ∧
      ((start.saves = true ∧ (∀ row ∈ config₀.values, Insertable (getPlatform table) table row) ∧
          table' = flush config₀ config (config₀.values.foldl Keyed.put table)) ∨
        (start.saves = false ∧ (table' = flush Keyed.empty config table ∨
          table' = flush (getPlatform table) config table))) := by
  unfold initPlatformConfig at h
  obtain ⟨config₀, hconfig₀, h⟩ := Option.bind_eq_some_iff.mp h
  obtain ⟨saved, hsaved, h⟩ := Option.bind_eq_some_iff.mp h
  obtain ⟨rfl, rfl⟩ := Prod.mk.inj (Option.some.inj h)
  refine ⟨config₀, hconfig₀, rfl, ?_⟩
  cases hsaves : start.saves with
  | true =>
    simp only [show (start.persist && !start.tempOverrides) = true from hsaves, if_true] at hsaved ⊢
    obtain ⟨hinsertable, rfl⟩ := saveProperties_eq_some.mp hsaved
    exact .inl ⟨trivial, hinsertable, rfl⟩
  | false =>
    simp only [show (start.persist && !start.tempOverrides) = false from hsaves, Bool.false_eq_true, if_false,
      Option.some.injEq] at hsaved ⊢
    subst hsaved
    refine .inr ⟨trivial, ?_⟩
    split
    · exact .inl rfl
    · exact .inr rfl

theorem get_saves {config₀ : Rows} :
    (flush config₀ (start.finish config₀) (config₀.values.foldl Keyed.put table)).get name =
      if (config₀.get name).isSome then (start.finish config₀).get name else table.get name := by
  rw [get_flush, get_saved]
  split
  · rename_i hsome
    have hfinish : ((start.finish config₀).get name).isSome := isSome_finish hsome
    obtain ⟨row, hrow⟩ := Option.isSome_iff_exists.mp hfinish
    rw [hrow]
    rfl
  · rename_i hnone
    rw [Option.not_isSome_iff_eq_none.mp hnone, Option.none_or]

theorem get_flush_getPlatform {config₀ : Rows} : (flush (getPlatform table) config₀ table).get name =
    if ((getPlatform table).get name).isSome then (config₀.get name).or (table.get name) else table.get name :=
  get_flush

theorem get_flush_empty {config₀ : Rows} : (flush Keyed.empty config₀ table).get name = table.get name := by
  rw [get_flush, if_neg]
  exact nofun

/-- No start sets a value, or loses one. -/
theorem actualString_start (h : initPlatformConfig bundle normalize start table = some (config, table'))
    (name : String) : actualString table' name = actualString table name := by
  obtain ⟨config₀, hconfig₀, rfl, hcases⟩ := initPlatformConfig_cases h
  have hread : actualString (start.finish config₀) name = actualString (getPlatform table) name :=
    actualString_finish.trans ((started hconfig₀).actualString_eq name)
  have hwritten : ((getPlatform table).get name = none → table.get name = none) →
      actualString (start.finish config₀) name = actualString table name := by
    intro hinsertable
    rw [hread]
    unfold actualString storedAt
    cases hget : (getPlatform table).get name with
    | none => rw [hinsertable hget]
    | some old => rw [get_of_getPlatform hget]
  rcases hcases with ⟨-, hinsertable, rfl⟩ | ⟨-, rfl | rfl⟩
  · unfold actualString storedAt at hwritten ⊢
    rw [get_saves]
    split
    · rename_i hsome
      obtain ⟨row, hrow⟩ := Option.isSome_iff_exists.mp hsome
      obtain ⟨hmem, rfl⟩ := Keyed.get_eq_some.mp hrow
      exact hwritten (hinsertable row hmem)
    · rfl
  · rw [actualString, storedAt, get_flush_empty]
    rfl
  · unfold actualString storedAt at hwritten ⊢
    rw [get_flush_getPlatform]
    split
    · rename_i hsome
      have hnone : (getPlatform table).get name ≠ none := Option.isSome_iff_ne_none.mp hsome
      rw [← hwritten fun heq => absurd heq hnone]
      cases hfinish : (start.finish config₀).get name with
      | some row => rfl
      | none =>
        rw [hfinish] at hwritten
        exact (hwritten fun heq => absurd heq hnone).symm
    · rfl

end Service

end PlatformConfig
end Properties
end AppNG
