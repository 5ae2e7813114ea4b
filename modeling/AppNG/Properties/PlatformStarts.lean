import AppNG.Lib.Machine
import AppNG.Properties.PlatformConfig

/-!
# Properties.PlatformStarts

The platform and the command line are started any number of times, each with its own configuration file, and between
the starts the properties are edited.

* `config_exact`: what the platform reads after any such history.
* `restart_exact`: a start can be repeated if and only if none of its overrides has a name with another dot. It then
  changes nothing.
* `secret_kept`: the shared secret of the first start stays, until it is overridden or edited.
-/

namespace AppNG
namespace Properties
namespace PlatformConfig

open Machine

/-! ## Histories -/

/-- What happens to the table: a start, or an edit of a property. -/
inductive Event where
  | start (start : Start)
  | createProperty (propertyPrefix : String) (property : Row)
  | saveProperty (property : Row)
  | deleteProperty (name : String)

/-- `CoreService.createProperty` of a new property -/
def createProperty (propertyPrefix : String) (property : Row) (table : Rows) : Option Rows :=
  let property := ⟨propertyPrefix ++ property.name, property.value.determineType⟩
  if (table.get property.name).isSome then none else some (table.put property)

section Histories

variable (bundle : String → Option String) (normalize : String → String)

/-- Nothing happens when an exception is thrown. -/
def step (table : Rows) : Event → Option Rows
  | .start start => (initPlatformConfig bundle normalize start table).map Prod.snd
  | .createProperty propertyPrefix property => createProperty propertyPrefix property table
  | .saveProperty property => some (table.put property)
  | .deleteProperty name => some (table.erase name)

def Step (table : Rows) (e : Event) (table' : Rows) : Prop := step bundle normalize table e = some table'

/-- The value that the edits have set. -/
def setBy (name : String) (value : Option String) : Event → Option String
  | .start _ => value
  | .createProperty propertyPrefix property =>
    if propertyPrefix ++ property.name = name then property.value.actualString else value
  | .saveProperty property => if property.name = name then property.value.actualString else value
  | .deleteProperty other => if other = name then none else value

def lastSet (es : List Event) (name : String) : Option String := es.foldl (setBy name) none

variable {bundle : String → Option String} {normalize : String → String} {start : Start} {es : List Event} {e : Event}
  {config table table' : Rows} {name : String}

theorem actualString_put_row {row : Row} :
    actualString (table.put row) name =
      if row.name = name then row.value.actualString else actualString table name := by
  unfold actualString storedAt
  rw [Keyed.get_put]
  split <;> rfl

theorem actualString_step (h : Step bundle normalize table e table') :
    actualString table' name = setBy name (actualString table name) e := by
  cases e with
  | start start =>
    obtain ⟨⟨config, last⟩, hstart, rfl⟩ := Option.map_eq_some_iff.mp h
    exact actualString_start hstart name
  | createProperty propertyPrefix property =>
    obtain ⟨-, rfl⟩ := Option.ite_none_left_eq_some.mp h |>.imp_right Option.some.inj
    exact actualString_put_row
  | saveProperty property =>
    cases h
    exact actualString_put_row
  | deleteProperty other =>
    cases h
    unfold actualString storedAt
    rw [Keyed.get_erase]
    simp only [setBy, eq_comm (a := other)]
    split <;> rfl

/-- What is set is what the last edit has set. -/
theorem actualString_run (h : Run (Step bundle normalize) Keyed.empty es table) (name : String) :
    actualString table name = lastSet es name := by
  refine Run.inv (P := fun es table => actualString table name = lastSet es name) rfl ?_ h
  intro es table e table' hbefore hstep
  rw [actualString_step hstep, hbefore, lastSet, lastSet, List.foldl_append]
  rfl

end Histories

/-! ## Two starts -/

section Again

variable {bundle : String → Option String} {normalize : String → String} {start : Start} {randomSalt : String}
  {propMap propMap' config config' table table' last : Rows}

theorem storedAt_getPlatform {n : String} (h : '.' ∉ n.toList) :
    storedAt (getPlatform table) (fullName n) = storedAt table (fullName n) := by
  rw [storedAt, getPlatform_plain h]
  rfl

theorem saved_plain (hsaves : start.saves = true)
    (h : initPlatformConfig bundle normalize start table = some (config, table')) {n : String} (hn : '.' ∉ n.toList) :
    table'.get (fullName n) = config.get (fullName n) := by
  obtain ⟨config₀, hconfig₀, rfl, ⟨-, hinsertable, rfl⟩ | ⟨hnot, -⟩⟩ := initPlatformConfig_cases h
  · rw [get_saves]
    split
    · rfl
    · rename_i hnone
      rw [Option.not_isSome_iff_eq_none] at hnone
      rw [finish_plain hn, hnone, ← getPlatform_plain hn, (started hconfig₀).get_none hnone]
  · rw [hsaves] at hnot
    cases hnot

/-- The same start once more. Only the random salt is another one. -/
def Start.again (start : Start) (randomSalt : String) : Start := { start with randomSalt }

theorem paths_none (h : start.rootPath = none) : paths normalize start propMap = [] := by
  unfold paths
  rw [h]

theorem paths_some {rootPath : String} (h : start.rootPath = some rootPath) : paths normalize start propMap =
    [text "platformRootPath" (some (normalizePath normalize rootPath)),
      text "appngData" (appngDataDir normalize start (returns (start.config propMap)
        (text "platformRootPath" (some (normalizePath normalize rootPath)))))] := by
  unfold paths
  rw [h]

/-- The first start has left what the second one reads. -/
def Left (config propMap' : Rows) : Prop :=
  ∀ n : String, '.' ∉ n.toList → propMap'.get (fullName n) = config.get (fullName n)

theorem Left.storedAt_eq (h : Left config propMap') {n : String} (hn : '.' ∉ n.toList) :
    storedAt propMap' (fullName n) = storedAt config (fullName n) := by
  rw [storedAt, h n hn]
  rfl

theorem returns_again (hstarted : Started bundle normalize start propMap config) (hleft : Left config propMap')
    {d : Declaration} (hd : d ∈ allDeclarations normalize start propMap) :
    returns ((start.again randomSalt).config propMap') d = returns (start.config propMap) d := by
  obtain ⟨value, description, hvalue, -, hget⟩ := hstarted.declared d hd
  have hstored : storedAt ((start.again randomSalt).config propMap').propMap (fullName d.name) =
      some (added (storedAt (start.config propMap).propMap (fullName d.name)) value (some description) d.type) := by
    show storedAt propMap' _ = _
    rw [hleft.storedAt_eq (no_dot normalize start propMap hd), storedAt, hget]
    rfl
  have hvalue' : ((start.again randomSalt).config propMap').value d = some value := hvalue
  unfold returns
  rw [hvalue, hvalue', Option.bind_some, Option.bind_some, hstored, added_added]

theorem paths_again (hstarted : Started bundle normalize start propMap config) (hleft : Left config propMap') :
    paths normalize (start.again randomSalt) propMap' = paths normalize start propMap := by
  cases hroot : start.rootPath with
  | none => rw [paths_none hroot, paths_none (show (start.again randomSalt).rootPath = none from hroot)]
  | some rootPath =>
    rw [paths_some hroot, paths_some (show (start.again randomSalt).rootPath = some rootPath from hroot),
      returns_again hstarted hleft]
    · rfl
    · simp [allDeclarations, paths_some hroot]

theorem mem_secret {d : Declaration} : d ∈ secret start propMap ↔
    secretDeclared (start.config propMap) = true ∧ d = sharedSecret start := by
  unfold secret
  split
  · rename_i h
    simp [h]
  · rename_i h
    simp [h]

theorem secretDeclared_of_named {d : Declaration} (hd : d ∈ allDeclarations normalize start propMap)
    (hname : d.name = "sharedSecret") : secretDeclared (start.config propMap) = true := by
  rw [allDeclarations, List.mem_append, List.mem_append] at hd
  rcases hd with (hd | hd) | hd
  · exact absurd hname (named_before d hd)
  · exact (mem_secret.mp hd).1
  · exact absurd hname (named_after d hd)

theorem secretDeclared_again (hstored : (propMap'.get (fullName "sharedSecret")).isSome) :
    secretDeclared ((start.again randomSalt).config propMap') =
      (start.defaultOverrides.get (fullName "sharedSecret")).isSome := by
  obtain ⟨row, hrow⟩ := Option.isSome_iff_exists.mp hstored
  simp only [secretDeclared, Start.config, hrow, Option.isNone_some, Bool.false_or]
  rfl

theorem secret_stored (hstarted : Started bundle normalize start propMap config) :
    (config.get (fullName "sharedSecret")).isSome := by
  by_cases hsecret : secretDeclared (start.config propMap) = true
  · have hmem : sharedSecret start ∈ allDeclarations normalize start propMap := by
      simp [allDeclarations, mem_secret.mpr ⟨hsecret, rfl⟩]
    obtain ⟨value, description, -, -, hget⟩ := hstarted.declared _ hmem
    exact Option.isSome_iff_exists.mpr ⟨_, hget⟩
  · rw [Option.isSome_iff_ne_none]
    intro hnone
    rw [secretDeclared, show (start.config propMap).propMap = propMap from rfl, hstarted.get_none hnone] at hsecret
    exact hsecret rfl

/-- What is declared again, with the same value. -/
theorem declared_again (hstarted : Started bundle normalize start propMap config) (hleft : Left config propMap')
    {d : Declaration} (hd : d ∈ allDeclarations normalize (start.again randomSalt) propMap') :
    ∃ e ∈ allDeclarations normalize start propMap, e.name = d.name ∧ e.type = d.type ∧
      (start.config propMap).value e = ((start.again randomSalt).config propMap').value d := by
  rw [allDeclarations, paths_again hstarted hleft, List.mem_append, List.mem_append, List.mem_append] at hd
  rcases hd with ((hd | hd) | hd) | hd
  · exact ⟨d, by simp [allDeclarations, hd], rfl, rfl, rfl⟩
  · exact ⟨d, by simp [allDeclarations, show d ∈ declarations start from hd], rfl, rfl, rfl⟩
  · obtain ⟨hdeclared, rfl⟩ := mem_secret.mp hd
    rw [secretDeclared_again] at hdeclared
    · obtain ⟨override, hoverride⟩ := Option.isSome_iff_exists.mp hdeclared
      have hsecret : secretDeclared (start.config propMap) = true := by
        simp only [secretDeclared, Start.config, hoverride, Option.isSome_some, Bool.or_true]
      refine ⟨sharedSecret start, by simp [allDeclarations, mem_secret.mpr ⟨hsecret, rfl⟩], rfl, rfl, ?_⟩
      have hoverride' : (start.again randomSalt).defaultOverrides.get (fullName "sharedSecret") = some override :=
        hoverride
      simp only [Config.value, Start.config, sharedSecret, hoverride, hoverride', Option.map_some, Option.some_or]
    · rw [hleft _ (by decide +kernel)]
      exact secret_stored hstarted
  · exact ⟨d, by simp [allDeclarations, show d ∈ furtherDeclarations start from hd], rfl, rfl, rfl⟩

/-- What is not declared again is not overridden. -/
theorem not_declared_again (hstarted : Started bundle normalize start propMap config) (hleft : Left config propMap')
    {d : Declaration} (hd : d ∈ allDeclarations normalize start propMap) :
    (∃ e ∈ allDeclarations normalize (start.again randomSalt) propMap', e.name = d.name) ∨
      start.defaultOverrides.get (fullName d.name) = none := by
  rw [allDeclarations, List.mem_append, List.mem_append, List.mem_append] at hd
  rcases hd with ((hd | hd) | hd) | hd
  · exact .inl ⟨d, by simp [allDeclarations, paths_again hstarted hleft, hd], rfl⟩
  · exact .inl ⟨d, by simp [allDeclarations, show d ∈ declarations (start.again randomSalt) from hd], rfl⟩
  · obtain ⟨-, rfl⟩ := mem_secret.mp hd
    cases hoverride : start.defaultOverrides.get (fullName (sharedSecret start).name) with
    | none => exact .inr rfl
    | some override =>
      have hsecret : secretDeclared ((start.again randomSalt).config propMap') = true := by
        have hoverride' : (start.again randomSalt).defaultOverrides.get (fullName "sharedSecret") = some override :=
          hoverride
        simp only [secretDeclared, Start.config, hoverride', Option.isSome_some, Bool.or_true]
      exact .inl ⟨sharedSecret (start.again randomSalt),
        by simp [allDeclarations, mem_secret.mpr ⟨hsecret, rfl⟩], rfl⟩
  · exact .inl ⟨d, by simp [allDeclarations, show d ∈ furtherDeclarations (start.again randomSalt) from hd], rfl⟩

theorem fullName_of_prefix {name : String} (h : prefixPlatform.toList <+: name.toList) : ∃ n, name = fullName n := by
  obtain ⟨rest, hrest⟩ := h
  refine ⟨String.ofList rest, ?_⟩
  rw [fullName, ← String.toList_inj, String.toList_append, String.toList_ofList, hrest]

/-- What is read from the table has the prefix and no other dot. -/
theorem plain_of_read {name : String} (h : (getPlatform table).get name ≠ none) :
    ∃ n : String, '.' ∉ n.toList ∧ name = fullName n := by
  obtain ⟨row, hrow⟩ := Option.ne_none_iff_exists'.mp h
  rw [get_getPlatform] at hrow
  obtain ⟨hget, hselected⟩ := Option.filter_eq_some_iff.mp hrow
  obtain rfl : row.name = name := (Keyed.get_eq_some.mp hget).2
  obtain ⟨rest, hrest, hname⟩ :=
    (selected_literal literal_prefixPlatform).mp hselected
  obtain ⟨n, hn⟩ : ∃ n, row.name = fullName n := fullName_of_prefix ⟨rest, hname.symm⟩
  exact ⟨n, (selected_fullName hn).mp hselected, hn⟩

theorem not_read {name : String} (h : ∀ n : String, '.' ∉ n.toList → name ≠ fullName n) :
    (getPlatform table).get name = none := by
  by_contra hread
  obtain ⟨n, hn, rfl⟩ := plain_of_read hread
  exact h n hn rfl

/-- A property that the first start has not changed is read again. -/
theorem read_again {name : String} (hleft : Left config (getPlatform table'))
    (h : config.get name = (getPlatform table).get name) :
    (getPlatform table').get name = (getPlatform table).get name := by
  by_cases hplain : ∃ n : String, '.' ∉ n.toList ∧ name = fullName n
  · obtain ⟨n, hn, rfl⟩ := hplain
    rw [hleft n hn, h]
  · have hnot : ∀ n : String, '.' ∉ n.toList → name ≠ fullName n := fun n hn heq => hplain ⟨n, hn, heq⟩
    rw [not_read hnot, not_read hnot]

/-- The second start gives what the first one gave. -/
theorem started_again (hstarted : Started bundle normalize start (getPlatform table) config)
    (hleft : Left config (getPlatform table'))
    (hagain : Started bundle normalize (start.again randomSalt) (getPlatform table') config') (name : String) :
    config'.get name = config.get name := by
  by_cases hdeclared : ∃ d ∈ allDeclarations normalize (start.again randomSalt) (getPlatform table'),
      fullName d.name = name
  · obtain ⟨d, hd, rfl⟩ := hdeclared
    obtain ⟨e, he, hname, htype, hvalue⟩ := declared_again hstarted hleft hd
    obtain ⟨value, description, hvalue₁, hbundle₁, hget₁⟩ := hagain.declared d hd
    obtain ⟨value₀, description₀, hvalue₀, hbundle₀, hget₀⟩ := hstarted.declared e he
    rw [hname] at hbundle₀ hget₀
    obtain rfl : value₀ = value := Option.some.inj (hvalue₀.symm.trans (hvalue.trans hvalue₁))
    obtain rfl : description₀ = description := Option.some.inj (hbundle₀.symm.trans hbundle₁)
    rw [hget₁, hleft.storedAt_eq (no_dot normalize _ _ hd), storedAt, hget₀, ← htype, Option.map_some, added_added]
  · have hnew : ∀ d ∈ allDeclarations normalize (start.again randomSalt) (getPlatform table'), fullName d.name ≠ name :=
      fun d hd heq => hdeclared ⟨d, hd, heq⟩
    by_cases hfirst : ∃ d ∈ allDeclarations normalize start (getPlatform table), fullName d.name = name
    · obtain ⟨d, hd, rfl⟩ := hfirst
      have hcases :
          (∃ e ∈ allDeclarations normalize (start.again randomSalt) (getPlatform table'), e.name = d.name) ∨
          start.defaultOverrides.get (fullName d.name) = none := not_declared_again hstarted hleft hd
      have hoverride : start.defaultOverrides.get (fullName d.name) = none := by
        refine hcases.resolve_left ?_
        rintro ⟨e, he, hname⟩
        exact hnew e he (congrArg fullName hname)
      rw [hagain.frame _ hnew (.inl hoverride), hleft _ (no_dot normalize _ _ hd)]
    · have hfirst' : ∀ d ∈ allDeclarations normalize start (getPlatform table), fullName d.name ≠ name :=
        fun d hd heq => hfirst ⟨d, hd, heq⟩
      by_cases hoverride : start.defaultOverrides.get name = none ∨ ¬ prefixPlatform.toList <+: name.toList
      · rw [hagain.frame name hnew hoverride, hstarted.frame name hfirst' hoverride]
        exact read_again hleft (hstarted.frame name hfirst' hoverride)
      · obtain ⟨hsome, hprefix⟩ := not_or.mp hoverride
        obtain ⟨⟨key, value⟩, hget⟩ := Option.ne_none_iff_exists'.mp hsome
        obtain rfl : key = name := (Keyed.get_eq_some.mp hget).2
        have hfirstGet := hstarted.optional key value hfirst' hget (not_not.mp hprefix)
        rw [hagain.optional key value hnew hget (not_not.mp hprefix), hfirstGet]
        by_cases hplain : ∃ n : String, '.' ∉ n.toList ∧ key = fullName n
        · obtain ⟨n, hn, rfl⟩ := hplain
          rw [hleft.storedAt_eq hn, storedAt, hfirstGet, Option.map_some, added_added]
        · have hnot : ∀ n : String, '.' ∉ n.toList → key ≠ fullName n := fun n hn heq => hplain ⟨n, hn, heq⟩
          rw [storedAt, not_read hnot, storedAt, not_read hnot]

theorem get_finish_congr {config config' : Rows} (h : ∀ name, config'.get name = config.get name) (name : String) :
    (start.finish config').get name = (start.finish config).get name := by
  have hone : ∀ (key : String) (a b : Rows), (∀ name, b.get name = a.get name) →
      ∀ name, (addPropertyIfExists start.defaultOverrides b key).get name =
        (addPropertyIfExists start.defaultOverrides a key).get name := by
    intro key a b hab name
    unfold addPropertyIfExists
    cases start.defaultOverrides.get key with
    | none => exact hab name
    | some override => simp only [addProperty, Option.getD_some, Keyed.get_put, hab]
  exact hone _ _ _ (hone _ _ _ h) name

/-- A start that saves. -/
theorem initPlatformConfig_of_saves {config₀ : Rows} (hsaves : start.saves = true)
    (hconfig : initPropertySupport bundle normalize start (getPlatform table) = some config₀)
    (hinsertable : ∀ row ∈ config₀.values, Insertable (getPlatform table) table row) :
    initPlatformConfig bundle normalize start table = some (start.finish config₀,
      flush config₀ (start.finish config₀) (config₀.values.foldl Keyed.put table)) := by
  have hsaved := saveProperties_eq_some.mpr ⟨hinsertable, rfl⟩
  unfold initPlatformConfig
  simp only [hconfig, show (start.persist && !start.tempOverrides) = true from hsaves, if_true, hsaved,
    Option.bind_eq_bind, Option.bind_some]
  rfl

theorem left_of_saves (hsaves : start.saves = true) {config₀ : Rows}
    (h : initPlatformConfig bundle normalize start table = some (start.finish config₀, table')) :
    Left config₀ (getPlatform table') := by
  intro n hn
  rw [getPlatform_plain hn, saved_plain hsaves h hn, finish_plain hn]

theorem declarable_again (hstarted : Started bundle normalize start propMap config) (hleft : Left config propMap') :
    Declarable bundle (allDeclarations normalize (start.again randomSalt) propMap')
      ((start.again randomSalt).config propMap') := by
  intro d hd
  obtain ⟨e, he, hname, -, hvalue⟩ := declared_again hstarted hleft hd
  rw [← hvalue, ← hname]
  exact hstarted.declarable e he

theorem plain_of_started {name : String} (hstarted : Started bundle normalize start (getPlatform table) config)
    (hplain : ∀ override ∈ start.defaultOverrides.values, ∀ n, override.1 = fullName n → '.' ∉ n.toList)
    (h : (config.get name).isSome) : ∃ n : String, '.' ∉ n.toList ∧ name = fullName n := by
  by_cases hdeclared : ∃ d ∈ allDeclarations normalize start (getPlatform table), fullName d.name = name
  · obtain ⟨d, hd, rfl⟩ := hdeclared
    exact ⟨d.name, no_dot normalize start _ hd, rfl⟩
  · have hnew : ∀ d ∈ allDeclarations normalize start (getPlatform table), fullName d.name ≠ name :=
      fun d hd heq => hdeclared ⟨d, hd, heq⟩
    by_cases hoverride : start.defaultOverrides.get name = none ∨ ¬ prefixPlatform.toList <+: name.toList
    · rw [hstarted.frame name hnew hoverride] at h
      exact plain_of_read (Option.isSome_iff_ne_none.mp h)
    · obtain ⟨hsome, hprefix⟩ := not_or.mp hoverride
      obtain ⟨override, hget⟩ := Option.ne_none_iff_exists'.mp hsome
      obtain ⟨n, hn⟩ := fullName_of_prefix (not_not.mp hprefix)
      obtain ⟨hmem, hkey⟩ := Keyed.get_eq_some.mp hget
      exact ⟨n, hplain override hmem n (hkey.trans hn), hn⟩

theorem insertable_of_plain (hstarted : Started bundle normalize start (getPlatform table) config)
    (hplain : ∀ override ∈ start.defaultOverrides.values, ∀ n, override.1 = fullName n → '.' ∉ n.toList) :
    ∀ row ∈ config.values, Insertable (getPlatform table) table row := by
  intro row hrow hnone
  have hsome : (config.get row.name).isSome := Option.isSome_iff_exists.mpr ⟨row, Keyed.get_key hrow⟩
  obtain ⟨n, hn, hname⟩ := plain_of_started hstarted hplain hsome
  rw [hname] at hnone ⊢
  rw [← getPlatform_plain hn, hnone]

/-- A start without such overrides comes to its end. -/
theorem exists_start (hsaves : start.saves = true)
    (hdeclarable : Declarable bundle (allDeclarations normalize start (getPlatform table))
      (start.config (getPlatform table)))
    (hplain : ∀ override ∈ start.defaultOverrides.values, ∀ n, override.1 = fullName n → '.' ∉ n.toList) :
    ∃ config table', initPlatformConfig bundle normalize start table = some (config, table') := by
  obtain ⟨config₀, hconfig₀⟩ := exists_initPropertySupport hdeclarable
  exact ⟨_, _, initPlatformConfig_of_saves hsaves hconfig₀ (insertable_of_plain (started hconfig₀) hplain)⟩

end Again

/-! ## An installation -/

section Installation

def sampleBundle (name : String) : Option String := some (name ++ ".description")

/-- The platform, with a configuration file. -/
def webStart : Start where
  defaultOverrides := ⟨[("platform.locale", "de"), ("platform.motd", "hello"), ("database.port", "3306")],
    by decide +kernel⟩
  rootPath := some "/srv/appng"
  devMode := some false
  persist := true
  tempOverrides := false
  appngData := some "/data"
  timeZone := "UTC"
  randomSalt := "salt"

/-- The command line, without one. -/
def cliStart : Start := { webStart with
  defaultOverrides := Keyed.empty
  devMode := some true
  randomSalt := "pepper" }

/-- An administrator sets the language. -/
def localeSet : Row := ⟨fullName "locale", ⟨some "fr", some "de", none, none, .text⟩⟩

variable {start : Start} {table : Rows}

theorem declarable_sample (hdevMode : start.devMode.isSome) (hdata : start.appngData = some "/data") :
    Declarable sampleBundle (allDeclarations id start (getPlatform table)) (start.config (getPlatform table)) := by
  have hvalue : ∀ d : Declaration, d.defaultValue.isSome → ((start.config (getPlatform table)).value d).isSome := by
    intro d hd
    obtain ⟨value, hvalue⟩ := Option.isSome_iff_exists.mp hd
    rw [Config.value, hvalue, Option.isSome_or]
    exact Bool.or_true _
  have hdata' : ∀ realRootPath, (appngDataDir id start realRootPath).isSome := by
    intro realRootPath
    rw [appngDataDir, hdata]
    rfl
  intro d hd
  refine ⟨hvalue d ?_, rfl⟩
  rw [allDeclarations, List.mem_append, List.mem_append, List.mem_append] at hd
  rcases hd with ((hd | hd) | hd) | hd
  · cases hroot : start.rootPath with
    | none =>
      rw [paths_none hroot] at hd
      cases hd
    | some rootPath =>
      rw [paths_some hroot] at hd
      rcases List.mem_pair.mp hd with rfl | rfl
      · rfl
      · exact hdata' _
  · obtain ⟨devMode, hdev⟩ := Option.isSome_iff_exists.mp hdevMode
    have hall : (declarations start).all fun d => d.defaultValue.isSome := by
      simp [declarations, text, number, boolean, hdev]
    exact List.all_eq_true.mp hall d hd
  · obtain ⟨-, rfl⟩ := mem_secret.mp hd
    rfl
  · have hall : (furtherDeclarations start).all fun d => d.defaultValue.isSome := rfl
    exact List.all_eq_true.mp hall d hd

theorem plain_webStart : ∀ override ∈ webStart.defaultOverrides.values, ∀ n, override.1 = fullName n →
    '.' ∉ n.toList := by
  have hall : webStart.defaultOverrides.values.all (fun override =>
      !(override.1.toList.drop prefixPlatform.length).contains '.') = true := by decide +kernel
  rintro override hoverride n hn hdot
  have hlocal := List.all_eq_true.mp hall override hoverride
  rw [hn, fullName, String.toList_append] at hlocal
  have hdrop : (prefixPlatform.toList ++ n.toList).drop prefixPlatform.length = n.toList :=
    List.drop_left' rfl
  simp [hdrop, hdot] at hlocal

theorem web_starts (table : Rows) :
    ∃ config table', initPlatformConfig sampleBundle id webStart table = some (config, table') :=
  exists_start rfl (declarable_sample rfl rfl) plain_webStart

theorem cli_starts (table : Rows) :
    ∃ config table', initPlatformConfig sampleBundle id cliStart table = some (config, table') :=
  exists_start rfl (declarable_sample rfl rfl) nofun

end Installation

/-! ## What the platform reads -/

section Reads

variable {bundle : String → Option String} {normalize : String → String} {start : Start} {es : List Event}
  {config table table' : Rows}

/-- After any history, the platform reads what the configuration file and the declarations give and what was set,
of every property that can have been read from the table. -/
theorem config_exact (h : Run (Step bundle normalize) Keyed.empty es table)
    (hstart : initPlatformConfig bundle normalize start table = some (config, table')) {n : String}
    (hn : '.' ∉ n.toList) :
    (∀ d ∈ allDeclarations normalize start (getPlatform table), d.name = n → ∃ value property,
      ((start.defaultOverrides.get (fullName n)).map Prod.snd).or d.defaultValue = some value ∧
      config.get (fullName n) = some ⟨fullName n, property⟩ ∧
      property.read = reads (storedAt table (fullName n)) (lastSet es (fullName n)) value d.type) ∧
    ((∀ d ∈ allDeclarations normalize start (getPlatform table), d.name ≠ n) →
      (∀ value, start.defaultOverrides.get (fullName n) = some (fullName n, value) →
        ∃ property, config.get (fullName n) = some ⟨fullName n, property⟩ ∧ property.read =
          reads (storedAt table (fullName n)) (lastSet es (fullName n)) value (forObject (some value))) ∧
      (start.defaultOverrides.get (fullName n) = none → config.get (fullName n) = table.get (fullName n))) ∧
    (start.saves = true → table'.get (fullName n) = config.get (fullName n)) := by
  obtain ⟨config₀, hconfig₀, rfl, -⟩ := initPlatformConfig_cases hstart
  have hstarted := started hconfig₀
  have hset : (storedAt table (fullName n)).bind SimpleProperty.actualString = lastSet es (fullName n) :=
    actualString_run h (fullName n)
  refine ⟨?_, fun hnew => ?_, fun hsaves => saved_plain hsaves hstart hn⟩
  · rintro d hd rfl
    obtain ⟨value, description, hvalue, -, hget⟩ := hstarted.declared d hd
    refine ⟨value, _, hvalue, (finish_plain hn).trans hget, ?_⟩
    rw [read_added, storedAt_getPlatform hn, hset]
  · have hnew' : ∀ d ∈ allDeclarations normalize start (getPlatform table), fullName d.name ≠ fullName n :=
      fun d hd heq => hnew d hd (fullName_inj heq)
    refine ⟨fun value hoverride => ?_, fun hoverride => ?_⟩
    · have hprefix : prefixPlatform.toList <+: (fullName n).toList := ⟨n.toList, String.toList_append.symm⟩
      refine ⟨_, (finish_plain hn).trans (hstarted.optional _ value hnew' hoverride hprefix), ?_⟩
      rw [read_added, storedAt_getPlatform hn, hset]
    · rw [finish_plain hn, hstarted.frame _ hnew' (.inl hoverride), getPlatform_plain hn]

theorem locale_read : ∃ (installed config table' : Rows) (property : SimpleProperty),
    Run (Step sampleBundle id) Keyed.empty [.start webStart, .saveProperty localeSet] (installed.put localeSet) ∧
    initPlatformConfig sampleBundle id cliStart (installed.put localeSet) = some (config, table') ∧
    config.get (fullName "locale") = some ⟨fullName "locale", property⟩ ∧ property.read = some "fr" := by
  obtain ⟨first, installed, hfirst⟩ := web_starts Keyed.empty
  obtain ⟨config, table', hlater⟩ := cli_starts (installed.put localeSet)
  have hrun : Run (Step sampleBundle id) Keyed.empty [.start webStart, .saveProperty localeSet]
      (installed.put localeSet) := by
    refine .snoc (.snoc .nil ?_) rfl
    rw [Step, step, hfirst]
    rfl
  have hn : '.' ∉ "locale".toList := by decide +kernel
  have hmem : text "locale" (some "en") ∈ allDeclarations id cliStart (getPlatform (installed.put localeSet)) := by
    simp [allDeclarations, declarations]
  obtain ⟨value, property, -, hget, hread⟩ := (config_exact hrun hlater hn).1 _ hmem rfl
  refine ⟨installed, config, table', property, hrun, hlater, hget, ?_⟩
  rw [hread]
  rfl

end Reads

/-! ## Starting again -/

section Restart

variable {bundle : String → Option String} {normalize : String → String} {start : Start} {config table table' : Rows}

/-- A row that a start inserts under another name is not read, and inserted again. -/
theorem plain_of_insertable {config₀ config₁ : Rows}
    (hstarted : Started bundle normalize start (getPlatform table) config₀)
    (hsame : ∀ name, config₁.get name = config₀.get name)
    (htable : ∀ name, (config₀.get name).isSome → (table'.get name).isSome)
    (hinsertable : ∀ row ∈ config₁.values, Insertable (getPlatform table') table' row) :
    ∀ override ∈ start.defaultOverrides.values, ∀ n, override.1 = fullName n → '.' ∉ n.toList := by
  rintro ⟨key, value⟩ hmem n rfl hdot
  have hnew : ∀ d ∈ allDeclarations normalize start (getPlatform table), fullName d.name ≠ fullName n :=
    fun d hd heq => no_dot normalize start _ hd (fullName_inj heq ▸ hdot)
  have hget := hstarted.optional (fullName n) value hnew (Keyed.get_key hmem) ⟨n.toList, String.toList_append.symm⟩
  obtain ⟨hrow, -⟩ := Keyed.get_eq_some.mp ((hsame _).trans hget)
  have hnone := hinsertable _ hrow (getPlatform_dotted hdot)
  have hsome := htable (fullName n) (Option.isSome_iff_exists.mpr ⟨_, hget⟩)
  rw [hnone] at hsome
  cases hsome

/-- A start can be repeated unless it has inserted a row that no start reads; and then it changes nothing. -/
theorem restart_exact (hsaves : start.saves = true)
    (h : initPlatformConfig bundle normalize start table = some (config, table')) (randomSalt : String) :
    ((∃ result, initPlatformConfig bundle normalize (start.again randomSalt) table' = some result) ↔
      ∀ override ∈ start.defaultOverrides.values, ∀ n, override.1 = fullName n → '.' ∉ n.toList) ∧
    ∀ config' last, initPlatformConfig bundle normalize (start.again randomSalt) table' = some (config', last) →
      ∀ name, config'.get name = config.get name ∧ last.get name = table'.get name := by
  obtain ⟨config₀, hconfig₀, rfl, ⟨-, hinsertable, htable'⟩ | ⟨hnot, -⟩⟩ := initPlatformConfig_cases h
  · have hget : ∀ name, table'.get name =
        if (config₀.get name).isSome then (start.finish config₀).get name else table.get name := by
      intro name
      rw [htable', get_saves]
    have hstarted := started hconfig₀
    have hleft := left_of_saves hsaves h
    obtain ⟨config₁, hconfig₁⟩ :
        ∃ config₁, initPropertySupport bundle normalize (start.again randomSalt) (getPlatform table') = some config₁ :=
      exists_initPropertySupport (declarable_again hstarted hleft)
    have hsame := started_again hstarted hleft (started hconfig₁)
    have hagain : (start.again randomSalt).saves = true := hsaves
    have hrows : ∀ name, (config₀.get name).isSome → (table'.get name).isSome := by
      intro name hsome
      rw [hget, if_pos hsome]
      exact isSome_finish hsome
    refine ⟨⟨?_, fun hplain => ?_⟩, ?_⟩
    · rintro ⟨⟨config', last⟩, hresult⟩
      obtain ⟨config₂, hconfig₂, -, ⟨-, hinsertable₂, -⟩ | ⟨hnot, -⟩⟩ := initPlatformConfig_cases hresult
      · obtain rfl : config₂ = config₁ := Option.some.inj (hconfig₂.symm.trans hconfig₁)
        exact plain_of_insertable hstarted hsame hrows hinsertable₂
      · rw [hagain] at hnot
        cases hnot
    · exact ⟨_, initPlatformConfig_of_saves hagain hconfig₁ (insertable_of_plain (started hconfig₁) hplain)⟩
    · intro config' last hresult name
      obtain ⟨config₂, hconfig₂, rfl, ⟨-, hinsertable₂, rfl⟩ | ⟨hnot, -⟩⟩ := initPlatformConfig_cases hresult
      · obtain rfl : config₂ = config₁ := Option.some.inj (hconfig₂.symm.trans hconfig₁)
        have hfinish : ((start.again randomSalt).finish config₂).get name = (start.finish config₀).get name :=
          get_finish_congr hsame name
        refine ⟨hfinish, ?_⟩
        rw [get_saves, hsame, hfinish, hget]
        split
        · rfl
        · rfl
      · rw [hagain] at hnot
        cases hnot
  · rw [hsaves] at hnot
    cases hnot

theorem web_restarted : ∃ config table' : Rows,
    initPlatformConfig sampleBundle id webStart Keyed.empty = some (config, table') ∧
    ∃ result, initPlatformConfig sampleBundle id (webStart.again "pepper") table' = some result := by
  obtain ⟨config, table', hfirst⟩ := web_starts Keyed.empty
  exact ⟨config, table', hfirst, (restart_exact rfl hfirst "pepper").1.mpr plain_webStart⟩

end Restart

/-! ## The shared secret -/

section Secret

variable {bundle : String → Option String} {normalize : String → String} {start start' : Start} {es : List Event}
  {e : Event} {config config' table table' table₁ table₂ table₃ : Rows} {row : Row}

/-- What may change the shared secret. -/
def Event.Changes : Event → Prop
  | .start start => (start.defaultOverrides.get (fullName "sharedSecret")).isSome
  | .createProperty propertyPrefix property => propertyPrefix ++ property.name = fullName "sharedSecret"
  | .saveProperty property => property.name = fullName "sharedSecret"
  | .deleteProperty name => name = fullName "sharedSecret"

theorem secret_start (hstored : table.get (fullName "sharedSecret") = some row)
    (hoverride : start.defaultOverrides.get (fullName "sharedSecret") = none)
    (h : initPlatformConfig bundle normalize start table = some (config, table')) :
    config.get (fullName "sharedSecret") = some row ∧ table'.get (fullName "sharedSecret") = some row := by
  have hn : '.' ∉ "sharedSecret".toList := by decide +kernel
  have hread : (getPlatform table).get (fullName "sharedSecret") = some row := (getPlatform_plain hn).trans hstored
  obtain ⟨config₀, hconfig₀, rfl, hcases⟩ := initPlatformConfig_cases h
  have hnew : ∀ d ∈ allDeclarations normalize start (getPlatform table), fullName d.name ≠ fullName "sharedSecret" := by
    intro d hd heq
    have hsecret := secretDeclared_of_named hd (fullName_inj heq)
    simp [secretDeclared, Start.config, hread, hoverride] at hsecret
  have hconfig : (start.finish config₀).get (fullName "sharedSecret") = some row := by
    rw [finish_plain hn, (started hconfig₀).frame _ hnew (.inl hoverride), hread]
  refine ⟨hconfig, ?_⟩
  rcases hcases with ⟨-, -, rfl⟩ | ⟨-, rfl | rfl⟩
  · rw [get_saves]
    split
    · exact hconfig
    · exact hstored
  · rw [get_flush_empty, hstored]
  · rw [get_flush_getPlatform]
    split
    · rw [show (start.finish config₀).get (fullName "sharedSecret") = some row from hconfig]
      rfl
    · exact hstored

theorem secret_step (hstored : table.get (fullName "sharedSecret") = some row) (hchanges : ¬ e.Changes)
    (h : Step bundle normalize table e table') : table'.get (fullName "sharedSecret") = some row := by
  cases e with
  | start start =>
    obtain ⟨⟨config, last⟩, hstart, rfl⟩ := Option.map_eq_some_iff.mp h
    exact (secret_start hstored (Option.not_isSome_iff_eq_none.mp hchanges) hstart).2
  | createProperty propertyPrefix property =>
    obtain ⟨-, rfl⟩ := Option.ite_none_left_eq_some.mp h |>.imp_right Option.some.inj
    rw [Keyed.get_put]
    exact (if_neg hchanges).trans hstored
  | saveProperty property =>
    cases h
    rw [Keyed.get_put]
    exact (if_neg hchanges).trans hstored
  | deleteProperty name =>
    cases h
    rw [Keyed.get_erase]
    exact (if_neg (Ne.symm hchanges)).trans hstored

/-- Every start gives the shared secret that the first one has saved, until it is overridden or edited. -/
theorem secret_kept (hsaves : start.saves = true)
    (h : initPlatformConfig bundle normalize start table = some (config, table₁))
    (hrun : Run (Step bundle normalize) table₁ es table₂) (hchanges : ∀ e ∈ es, ¬ e.Changes)
    (h' : initPlatformConfig bundle normalize start' table₂ = some (config', table₃))
    (hoverride : start'.defaultOverrides.get (fullName "sharedSecret") = none) :
    ∃ row, config.get (fullName "sharedSecret") = some row ∧ config'.get (fullName "sharedSecret") = some row := by
  have hn : '.' ∉ "sharedSecret".toList := by decide +kernel
  obtain ⟨config₀, hconfig₀, rfl, -⟩ := initPlatformConfig_cases h
  obtain ⟨row, hrow⟩ := Option.isSome_iff_exists.mp (secret_stored (started hconfig₀))
  have hconfig : (start.finish config₀).get (fullName "sharedSecret") = some row := (finish_plain hn).trans hrow
  have hstored : table₁.get (fullName "sharedSecret") = some row := (saved_plain hsaves h hn).trans hconfig
  have hkept : (∀ e ∈ es, ¬ e.Changes) → table₂.get (fullName "sharedSecret") = some row := by
    refine Run.inv (P := fun es table => (∀ e ∈ es, ¬ e.Changes) → table.get (fullName "sharedSecret") = some row)
      (fun _ => hstored) ?_ hrun
    intro es table e table' hbefore hstep hall
    exact secret_step (hbefore fun f hf => hall f (List.mem_append_left _ hf)) (hall e (by simp)) hstep
  exact ⟨row, hconfig, (secret_start (hkept hchanges) hoverride h').1⟩

theorem cli_secret : ∃ config table₁ config' table₃ : Rows,
    initPlatformConfig sampleBundle id webStart Keyed.empty = some (config, table₁) ∧
    initPlatformConfig sampleBundle id cliStart (table₁.put localeSet) = some (config', table₃) ∧
    ∃ row, config.get (fullName "sharedSecret") = some row ∧ config'.get (fullName "sharedSecret") = some row := by
  obtain ⟨config, table₁, hfirst⟩ := web_starts Keyed.empty
  obtain ⟨config', table₃, hlater⟩ := cli_starts (table₁.put localeSet)
  have hrun : Run (Step sampleBundle id) table₁ [.saveProperty localeSet] (table₁.put localeSet) := .single rfl
  have hchanges : ∀ e ∈ [Event.saveProperty localeSet], ¬ e.Changes := by
    intro e he
    rw [List.mem_singleton.mp he]
    exact fun heq => absurd (fullName_inj heq) (by decide +kernel)
  exact ⟨config, table₁, config', table₃, hfirst, hlater, secret_kept rfl hfirst hrun hchanges hlater rfl⟩

end Secret

end PlatformConfig
end Properties
end AppNG
