import AppNG.Validator.ConfigValidator
import Mathlib.Data.Multiset.AddSub

/-!
# Validator.Accepted

Which configurations `ConfigValidator` has nothing to say about.

`Accepted` says it of the configuration alone: what is declared once, what is declared at all, and
which references lead to a definition that takes their parameters. `clean_validate` is the theorem
that the validation neither reports an error nor throws if and only if a configuration is accepted.
-/

namespace AppNG
namespace Validator

open Pages (Permission Condition Param)

variable (outside : Outside) (provider : Provider) (permissionNames : List String)

/-! ## Parameters -/

def names (params : Params) : List String := (params.getD []).map (·.name)

@[simp] theorem mem_keySet_empty {name : String} : name ∉ ParameterMap.keySet Keyed.empty :=
  List.not_mem_nil

theorem keySet_nodup (m : ParameterMap) : m.keySet.Nodup := m.nodup

@[simp] theorem mem_keySet_put {m : ParameterMap} {entry : String × String} {name : String} :
    name ∈ ParameterMap.keySet (m.put entry) ↔ name = entry.1 ∨ name ∈ m.keySet := by
  have hkey : ∀ n : ParameterMap, name ∈ n.keySet ↔ (n.get name).isSome := fun n =>
    Keyed.isSome_get.symm
  rw [hkey, hkey, Keyed.get_put]
  by_cases h : entry.1 = name
  · rw [if_pos h]
    exact iff_of_true rfl (.inl h.symm)
  · rw [if_neg h]
    exact (or_iff_right (Ne.symm h)).symm

theorem mem_keySet_foldl_put {entries : List (String × String)} {name : String} :
    ∀ {m : ParameterMap}, name ∈ ParameterMap.keySet (entries.foldl Keyed.put m) ↔
      name ∈ m.keySet ∨ name ∈ entries.map (·.1) := by
  induction entries with
  | nil => intro m; simp
  | cons entry entries ih =>
    intro m
    rw [List.foldl_cons, ih, mem_keySet_put, List.map_cons, List.mem_cons]
    exact or_right_comm.trans (or_comm.trans or_left_comm) |>.trans (by tauto)

@[simp] theorem mem_keySet_getParameterMap {params : Params} {name : String} :
    name ∈ (getParameterMap params).keySet ↔ name ∈ names params := by
  rw [getParameterMap, mem_keySet_foldl_put, List.map_map]
  exact or_iff_right mem_keySet_empty

@[simp] theorem mem_keySet_putAll {m n : ParameterMap} {name : String} :
    name ∈ (m.putAll n).keySet ↔ name ∈ m.keySet ∨ name ∈ n.keySet := mem_keySet_foldl_put

/-- The parameters of a page, whichever way they come. -/
def pageParams (page : PageDefinition) : List String :=
  names page.config.urlSchema.postParams ++ names page.config.urlSchema.getParams ++
    names page.config.urlSchema.urlParams

theorem mem_keySet_getAllPageParams {page : PageDefinition} {name : String} :
    name ∈ (getAllPageParams page).keySet ↔ name ∈ pageParams page := by
  simp [getAllPageParams, pageParams, or_assoc]

theorem findParameter_iff {params : Params} {name : String} :
    findParameter params name = true ↔ name ∈ names params := by
  simp [findParameter, names]

/-! ## What is accepted -/

def Declared (permissions : List Permission) : Prop :=
  ∀ permission ∈ permissions, isAnonymous permission.ref = true ∨ permission.ref ∈ permissionNames

/-- Without an expression nothing is evaluated. -/
def Evaluates (evaluate : String → Evaluation) (expression : Option String) : Prop :=
  ∀ e, expression = some e → Java.isBlank (some e) = false → evaluate e = .evaluated

def Includes (evaluate : String → Evaluation) (condition : Option Condition) : Prop :=
  ∀ e, condition.bind (·.expression) = some e → Java.isBlank (some e) = false →
    isDelimited e = true ∧ evaluate e = .evaluated

/-- What is written for `hidden`, `folded` or `passive`. -/
def Decides (evaluate : String → Evaluation) (expression : Option String) : Prop :=
  (∃ e, expression = some e ∧ Pages.PageParameterProcessor.isBoolean e.toList = true) ∨
    Evaluates evaluate expression

def pageEvaluate (page : PageDefinition) : String → Evaluation :=
  outside.evaluate "page" (text page.id) (pageVariables page.config.urlSchema)

/-- The parameters of a reference are those of the definition, and what their values refer to is
available. -/
structure Passes (refParams execParams : Params) (available : List String) : Prop where
  supported : ∀ name ∈ names refParams, name ∈ names execParams
  available : ∀ entry ∈ (getParameterMap refParams).values, ∀ name,
    referredParameter entry.2 = some name → name ∈ available

def OptionsKnown (bean : Option Bean) (params : Params) : Prop :=
  ∀ b, bean = some b → ∀ option ∈ b.options, ∀ otherAttribute ∈ option.otherAttributes,
    ∀ name ∈ getParameters otherAttribute.2, name ∈ names params

structure DatasourceFound (ref : DatasourceRef) (available : List String)
    (datasource : Datasource) : Prop where
  found : provider.getDatasource ref.id = .ok (some datasource)
  passes : Passes ref.params datasource.config.params available
  options : OptionsKnown datasource.bean datasource.config.params

/-- The action of the event, and the one that a lookup by the id of the reference finds. -/
structure ActionFound (page : PageDefinition) (ref : ActionRef) (action : Action)
    (config : DataConfig) : Prop where
  registered : ∃ actions, provider.getActions ref.eventId = some actions ∧ (actions ref.id).isSome
  found : provider.getAction ref.eventId ref.id = .ok (some action)
  configured : action.config = some config
  passes : Passes ref.params config.params (pageParams page)
  options : OptionsKnown action.bean config.params

/-- A link within the platform leads to a page, and each of its parameters is one of the page, named
once. -/
def LeadsToPage (target : String) : Prop :=
  Java.startsWith (pageName target) '$' = true ∨
    ∃ page, provider.getPage (some (pageName target)) = some page ∧
      ∃ parameters, queryParameters target = .ok parameters ∧ parameters.Nodup ∧
        ∀ name ∈ parameters, name ∈ names page.config.urlSchema.getParams

def Resolves (target : String) : Prop :=
  Java.isBlank (some target) = true ∨ Java.startsWith target '?' = true ∨
    Java.startsWith target '$' = true ∨
    Java.startsWith target '/' = true ∧ LeadsToPage provider target

structure PanelAccepted (linkpanel : Linkpanel) : Prop where
  declared : Declared permissionNames linkpanel.permissions
  links : ∀ target mode permissions, Linkable.link target mode permissions ∈ linkpanel.links →
    (mode = .intern → Resolves provider target) ∧ Declared permissionNames permissions

structure FieldAccepted (evaluate : String → Evaluation) (fieldDef : FieldDef) : Prop where
  condition : Evaluates evaluate (fieldDef.condition.bind (·.expression))
  hidden : Evaluates evaluate fieldDef.hidden
  readonly : Evaluates evaluate fieldDef.readonly

structure MetaDataAccepted (id : String) (params : Params) (metaData : MetaData) : Prop where
  bindClass : Java.isBlank metaData.bindClass = false
  fields : ∀ fieldDef ∈ metaData.fields, FieldAccepted (outside.evaluate "datasource" id
    (getVariables params ++ bindVariable outside (text metaData.bindClass))) fieldDef

structure DatasourceAccepted (datasource : Datasource) : Prop where
  declared : Declared permissionNames datasource.config.permissions
  panels : ∀ linkpanel ∈ datasource.config.linkpanel, PanelAccepted provider permissionNames linkpanel
  metaData : ∃ metaData, datasource.config.metaData = some metaData ∧
    MetaDataAccepted outside datasource.id datasource.config.params metaData

structure ConfiguredAction (action : Action) (config : DataConfig) : Prop where
  configured : action.config = some config
  condition : Includes (outside.evaluate "action" action.id (getVariables config.params)) action.condition
  declared : Declared permissionNames config.permissions
  datasource : ∀ ref, action.datasource = some ref →
    Includes (outside.evaluate "action" action.id (getVariables config.params)) ref.condition ∧
      ∃ datasource, DatasourceFound provider ref (names config.params) datasource

structure EventAccepted (event : Event) : Prop where
  declared : Declared permissionNames event.permissions
  actions : ∀ action ∈ event.actions, ∃ config, ConfiguredAction outside provider permissionNames action config

def RefAccepted (page : PageDefinition) : ElementRef → Prop
  | .action ref =>
    Includes (pageEvaluate outside page) ref.condition ∧ Declared permissionNames ref.permissions ∧
      ∃ action config, ActionFound provider page ref action config
  | .datasource ref =>
    Includes (pageEvaluate outside page) ref.condition ∧ Declared permissionNames ref.permissions ∧
      ∃ datasource, DatasourceFound provider ref (pageParams page) datasource

structure ElementAccepted (page : PageDefinition) (element : SectionelementDef) : Prop where
  folded : Decides (pageEvaluate outside page) element.folded
  passive : Decides (pageEvaluate outside page) element.passive
  ref : RefAccepted outside provider permissionNames page element.ref

structure PageAccepted (page : PageDefinition) : Prop where
  declared : Declared permissionNames page.config.permissions
  hidden : ∀ sectionDef ∈ page.structureDef, Decides (pageEvaluate outside page) sectionDef.hidden
  elements : ∀ sectionDef ∈ page.structureDef, ∀ element ∈ sectionDef.element,
    ElementAccepted outside provider permissionNames page element

/-- Nothing is declared twice, and a role has declared permissions only. -/
structure InfoAccepted (info : ApplicationInfo) : Prop where
  permissions : (info.permissions.getD []).Nodup
  properties : ∃ properties, info.properties = some properties ∧ properties.Nodup
  roles : ((info.roles.getD []).map Role.name).Nodup
  granted : ∀ role ∈ info.roles.getD [], role.permission.Nodup ∧
    ∀ permission ∈ role.permission, permission ∈ info.permissions.getD []

structure Accepted : Prop where
  info : ∃ info, provider.applicationInfo = some info ∧ InfoAccepted info
  root : provider.applicationRootConfig = none → provider.pages.values = []
  navigation : ∀ panel, provider.applicationRootConfig = some (some panel) →
    PanelAccepted provider (declaredPermissions provider) panel
  datasources : ∀ datasource ∈ provider.datasources.values,
    DatasourceAccepted outside provider (declaredPermissions provider) datasource
  events : ∀ event ∈ provider.events.values,
    EventAccepted outside provider (declaredPermissions provider) event
  pages : ∀ page ∈ provider.pages.values,
    PageAccepted outside provider (declaredPermissions provider) page

/-! ## Checks -/

theorem clean_checkPermissions {permissions : List Permission} {origin : String} :
    (checkPermissions permissionNames permissions origin).Clean ↔ Declared permissionNames permissions := by
  rw [checkPermissions, Report.clean_each]
  refine forall₂_congr fun permission _ => ?_
  cases hanonymous : isAnonymous permission.ref with
  | true => exact iff_of_true Report.clean_ok (.inl rfl)
  | false =>
    by_cases hmem : permission.ref ∈ permissionNames
    · simp [hmem]
    · simp [hmem]

variable {evaluate : String → Evaluation}

theorem clean_validateCondition {expression : Option String} {message : String} :
    (validateCondition evaluate expression message).Clean ↔ Evaluates evaluate expression := by
  cases expression with
  | none => exact iff_of_true Report.clean_ok (by intro e h; cases h)
  | some e =>
    have hiff : Evaluates evaluate (some e) ↔ (Java.isBlank (some e) = false → evaluate e = .evaluated) := by
      constructor
      · exact fun h => h e rfl
      · intro h e' he'
        cases he'
        exact h
    rw [hiff, validateCondition]
    cases hblank : Java.isBlank (some e) with
    | true => simp
    | false =>
      rw [if_neg Bool.false_ne_true, show text (some e) = e from rfl]
      cases evaluate e with
      | evaluated => simp
      | elException ele => simp
      | threw => simp

theorem clean_validateInclude {condition : Option Condition} {originName : String} :
    (validateInclude evaluate condition originName).Clean ↔ Includes evaluate condition := by
  unfold validateInclude Includes
  cases condition.bind (·.expression) with
  | none => exact iff_of_true Report.clean_ok (by intro e h; cases h)
  | some e =>
    have hiff : (∀ e', some e = some e' → Java.isBlank (some e') = false →
        isDelimited e' = true ∧ evaluate e' = .evaluated) ↔
        (Java.isBlank (some e) = false → isDelimited e = true ∧ evaluate e = .evaluated) := by
      constructor
      · exact fun h => h e rfl
      · intro h e' he'
        cases he'
        exact h
    rw [hiff]
    cases hblank : Java.isBlank (some e) with
    | true => simp [hblank]
    | false =>
      cases hdelimited : isDelimited e with
      | false => simp [hblank, hdelimited]
      | true =>
        simp only [hblank, hdelimited, Bool.false_eq_true, if_false, Bool.not_true,
          clean_validateCondition, true_and, forall_const]
        constructor
        · exact fun h => h e rfl hblank
        · intro h e' he' _
          cases he'
          exact h

theorem clean_validateExpressionForPage {page : PageDefinition} {expression : Option String}
    {origin name : String} :
    (validateExpressionForPage outside page.config.urlSchema expression page.id origin name).Clean ↔
      Decides (pageEvaluate outside page) expression := by
  have hany : (expression.any fun e => Pages.PageParameterProcessor.isBoolean e.toList) = true ↔
      ∃ e, expression = some e ∧ Pages.PageParameterProcessor.isBoolean e.toList = true := by
    cases expression with
    | none => simp
    | some e => simp
  rw [validateExpressionForPage, Decides, ← hany]
  cases (expression.any fun e => Pages.PageParameterProcessor.isBoolean e.toList) with
  | true => simp
  | false => simp only [Bool.false_eq_true, if_false, false_or, clean_validateCondition, pageEvaluate]

/-! ## References -/

theorem diff_eq_nil_iff {α : Type} [DecidableEq α] {as bs : List α} (hbs : bs.Nodup) :
    as.diff bs = [] ↔ as.Nodup ∧ ∀ a ∈ as, a ∈ bs := by
  have hle : as.diff bs = [] ↔ as.Subperm bs := calc
    as.diff bs = [] ↔ (as : Multiset α) - bs = 0 := by rw [Multiset.coe_sub, Multiset.coe_eq_zero]
    _ ↔ (as : Multiset α) - bs ≤ 0 := Multiset.le_zero.symm
    _ ↔ (as : Multiset α) ≤ 0 + bs := Multiset.sub_le_iff_le_add
    _ ↔ as.Subperm bs := by rw [Multiset.zero_add, Multiset.coe_le]
  rw [hle]
  constructor
  · intro h
    exact ⟨Multiset.nodup_of_le (Multiset.coe_le.mpr h) hbs, fun a ha => h.subset ha⟩
  · exact fun h => List.subperm_of_subset h.1 h.2

/-- An error for each element. -/
theorem clean_each_error {as : List String} {message : String → String} :
    (Report.each as fun a => (Report.error (message a) : Check)).Clean ↔ as = [] := by
  rw [Report.clean_each, List.eq_nil_iff_forall_not_mem]
  simp

theorem clean_checkReferenceParameters {origin refId : String} {refParams execParams : Params}
    {type resourceName : String} {availableParams : ParameterMap} :
    (checkReferenceParameters origin refId refParams execParams type resourceName availableParams).Clean ↔
      Passes refParams execParams availableParams.keySet := by
  unfold checkReferenceParameters
  simp only [Report.clean_andThen, clean_each_error]
  rw [diff_eq_nil_iff (keySet_nodup _), diff_eq_nil_iff (keySet_nodup _)]
  constructor
  · rintro ⟨⟨_, hknown⟩, _, hsupported⟩
    refine ⟨by simpa using hsupported, ?_⟩
    intro entry hentry name hname
    exact hknown name (List.mem_dedup.mpr (List.mem_filterMap.mpr ⟨entry, hentry, hname⟩))
  · intro h
    refine ⟨⟨List.nodup_dedup _, ?_⟩, keySet_nodup _, by simpa using h.supported⟩
    intro name hname
    obtain ⟨entry, hentry, hname⟩ := List.mem_filterMap.mp (List.mem_dedup.mp hname)
    exact h.available entry hentry name hname

theorem clean_validateBeanOptions {origin : String} {params : Params} {bean : Bean} :
    (validateBeanOptions origin params bean).Clean ↔ OptionsKnown (some bean) params := by
  unfold validateBeanOptions OptionsKnown
  simp only [Report.clean_each, Option.some.injEq, forall_eq']
  refine forall₂_congr fun option _ => forall₂_congr fun otherAttribute _ => forall₂_congr fun name _ => ?_
  rw [← findParameter_iff]
  cases findParameter params name with
  | true => simp
  | false => simp

theorem optionsKnown_none (params : Params) : OptionsKnown none params := by
  intro b h
  cases h

/-- The options of a bean, if there is one. -/
theorem clean_options {origin : String} {params : Params} {bean : Option Bean} :
    (match bean with
      | none => Report.ok
      | some bean => validateBeanOptions origin params bean : Check).Clean ↔ OptionsKnown bean params := by
  cases bean with
  | none => exact iff_of_true Report.clean_ok (optionsKnown_none params)
  | some bean => exact clean_validateBeanOptions

theorem clean_validateDataSourceParameters {origin : String} {ref : DatasourceRef}
    {availableParams : ParameterMap} :
    (validateDataSourceParameters provider origin ref availableParams).Clean ↔
      ∃ datasource, DatasourceFound provider ref availableParams.keySet datasource := by
  unfold validateDataSourceParameters
  rw [Report.clean_looking]
  constructor
  · rintro ⟨found, hfound, hclean⟩
    cases found with
    | none => exact absurd hclean (Report.not_clean_raise _)
    | some datasource =>
      simp only [Report.clean_andThen, clean_checkReferenceParameters] at hclean
      exact ⟨datasource, hfound, hclean.1, clean_options.mp hclean.2⟩
  · rintro ⟨datasource, hfound, hpasses, hoptions⟩
    refine ⟨some datasource, hfound, ?_⟩
    simp only [Report.clean_andThen, clean_checkReferenceParameters]
    exact ⟨hpasses, clean_options.mpr hoptions⟩

theorem clean_validateActionParameters {page : PageDefinition} {ref : ActionRef}
    (hregistered : ∃ actions, provider.getActions ref.eventId = some actions ∧ (actions ref.id).isSome) :
    (validateActionParameters provider page ref).Clean ↔
      ∃ action config, ActionFound provider page ref action config := by
  unfold validateActionParameters
  rw [Report.clean_looking]
  have hparams : ∀ {refParams execParams : Params},
      Passes refParams execParams (getAllPageParams page).keySet ↔
        Passes refParams execParams (pageParams page) := by
    intro refParams execParams
    refine ⟨fun h => ⟨h.1, ?_⟩, fun h => ⟨h.1, ?_⟩⟩
    · exact fun entry hentry name hname => mem_keySet_getAllPageParams.mp (h.2 entry hentry name hname)
    · exact fun entry hentry name hname => mem_keySet_getAllPageParams.mpr (h.2 entry hentry name hname)
  constructor
  · rintro ⟨found, hfound, hclean⟩
    cases found with
    | none => exact absurd hclean (Report.not_clean_raise _)
    | some action =>
      cases hconfig : action.config with
      | none =>
        simp only [hconfig] at hclean
        exact absurd hclean (Report.not_clean_raise _)
      | some config =>
        simp only [hconfig, Report.clean_andThen, clean_checkReferenceParameters] at hclean
        exact ⟨action, config, hregistered, hfound, hconfig, hparams.mp hclean.1, clean_options.mp hclean.2⟩
  · rintro ⟨action, config, h⟩
    refine ⟨some action, h.found, ?_⟩
    simp only [h.configured, Report.clean_andThen, clean_checkReferenceParameters]
    exact ⟨hparams.mpr h.passes, clean_options.mpr h.options⟩

/-! ## Link panels -/

theorem clean_validateTarget {linkOrigin target : String} :
    (validateTarget provider linkOrigin target).Clean ↔ Resolves provider target := by
  unfold validateTarget Resolves
  cases hblank : Java.isBlank (some target) with
  | true => simp
  | false =>
    simp only [Bool.false_eq_true, if_false, false_or]
    cases hslash : Java.startsWith target '/' with
    | false =>
      simp only [Bool.false_eq_true, if_false, false_and, or_false]
      cases hother : Java.startsWith target '?' || Java.startsWith target '$' with
      | true => exact iff_of_true Report.clean_ok ((Bool.or_eq_true _ _).mp hother)
      | false => exact iff_of_false (Report.not_clean_error _) (by simpa using hother)
    | true =>
      have hfirst : ∀ c, c ≠ '/' → Java.startsWith target c = false := by
        intro c hc
        unfold Java.startsWith at hslash ⊢
        rw [beq_iff_eq] at hslash
        simp [hslash, hc.symm]
      simp only [if_true, hfirst '?' (by simp), hfirst '$' (by simp), Bool.false_eq_true, false_or, true_and]
      unfold LeadsToPage
      cases hdollar : Java.startsWith (pageName target) '$' with
      | true => simp
      | false =>
        simp only [Bool.false_eq_true, if_false, false_or]
        cases hpage : provider.getPage (some (pageName target)) with
        | none => simp
        | some page =>
          have hkeys : ∀ name, name ∈ (getPageGetParams page).keySet ↔
              name ∈ names page.config.urlSchema.getParams := by
            intro name
            simp [getPageGetParams]
          have hdiff : ∀ parameters : List String,
              parameters.diff (getPageGetParams page).keySet = [] ↔
                parameters.Nodup ∧ ∀ name ∈ parameters, name ∈ names page.config.urlSchema.getParams := by
            intro parameters
            rw [diff_eq_nil_iff (keySet_nodup _)]
            simp only [hkeys]
          simp only [Report.clean_looking, Option.some.injEq, exists_eq_left']
          refine exists_congr fun parameters => and_congr_right fun _ => ?_
          rw [← hdiff]
          cases parameters.diff (getPageGetParams page).keySet with
          | nil => simp
          | cons name others => simp

theorem clean_validateLinkPanel {linkpanel : Linkpanel} {origin : String} :
    (validateLinkPanel provider permissionNames linkpanel origin).Clean ↔
      PanelAccepted provider permissionNames linkpanel := by
  unfold validateLinkPanel
  simp only [Report.clean_andThen, Report.clean_each, clean_checkPermissions]
  constructor
  · rintro ⟨hdeclared, hlinks⟩
    refine ⟨hdeclared, ?_⟩
    intro target mode permissions hlink
    have h := hlinks _ hlink
    simp only [validateLinkable, Report.clean_andThen, clean_checkPermissions] at h
    refine ⟨?_, h.2⟩
    intro hmode
    rw [if_pos hmode] at h
    exact (clean_validateTarget provider).mp h.1
  · intro h
    refine ⟨h.declared, ?_⟩
    intro linkable hlink
    cases linkable with
    | openapiAction permissions => exact Report.clean_ok
    | link target mode permissions =>
      simp only [validateLinkable, Report.clean_andThen, clean_checkPermissions]
      refine ⟨?_, (h.links target mode permissions hlink).2⟩
      split
      · rename_i hmode
        exact (clean_validateTarget provider).mpr ((h.links target mode permissions hlink).1 hmode)
      · exact Report.clean_ok

/-! ## application.xml -/

theorem clean_duplicates {message : String → String} {names : List String} :
    ∀ {known : List String}, (duplicates message known names).Clean ↔
      names.Nodup ∧ ∀ name ∈ names, name ∉ known := by
  induction names with
  | nil => intro known; simp [duplicates]
  | cons name names ih =>
    intro known
    rw [duplicates, List.forall_mem_cons]
    by_cases hknown : name ∈ known
    · rw [if_pos (List.contains_iff_mem.mpr hknown), Report.clean_andThen]
      exact iff_of_false (fun h => Report.not_clean_error _ h.1) fun h => h.2.1 hknown
    · rw [if_neg (by simpa using hknown), ih, List.nodup_cons]
      constructor
      · rintro ⟨hnodup, hnot⟩
        refine ⟨⟨fun h => hnot name h List.mem_cons_self, hnodup⟩, hknown, ?_⟩
        exact fun n hn h => hnot n hn (List.mem_cons_of_mem name h)
      · rintro ⟨⟨hname, hnodup⟩, _, hnot⟩
        refine ⟨hnodup, fun n hn h => ?_⟩
        rcases List.mem_cons.mp h with rfl | h
        · exact hname hn
        · exact hnot n hn h

theorem clean_checkRole {name : String} {permission : List String} :
    ∀ {rolePermissions : List String}, (checkRole permissionNames name rolePermissions permission).Clean ↔
      permission.Nodup ∧ ∀ id ∈ permission, id ∈ permissionNames ∧ id ∉ rolePermissions := by
  induction permission with
  | nil => intro rolePermissions; simp [checkRole]
  | cons id ids ih =>
    intro rolePermissions
    rw [checkRole, List.forall_mem_cons]
    by_cases hdeclared : id ∈ permissionNames
    · by_cases hread : id ∈ rolePermissions
      · rw [if_neg (by simpa using hdeclared), if_pos (List.contains_iff_mem.mpr hread), Report.clean_andThen]
        exact iff_of_false (fun h => Report.not_clean_error _ h.1) fun h => h.2.1.2 hread
      · rw [if_neg (by simpa using hdeclared), if_neg (by simpa using hread), ih, List.nodup_cons]
        constructor
        · rintro ⟨hnodup, hall⟩
          refine ⟨⟨fun h => (hall id h).2 List.mem_cons_self, hnodup⟩, ⟨hdeclared, hread⟩, ?_⟩
          exact fun i hi => ⟨(hall i hi).1, fun h => (hall i hi).2 (List.mem_cons_of_mem id h)⟩
        · rintro ⟨⟨hid, hnodup⟩, _, hall⟩
          refine ⟨hnodup, fun i hi => ⟨(hall i hi).1, fun h => ?_⟩⟩
          rcases List.mem_cons.mp h with rfl | h
          · exact hid hi
          · exact (hall i hi).2 h
    · rw [if_pos (by simpa using hdeclared), Report.clean_andThen]
      exact iff_of_false (fun h => Report.not_clean_error _ h.1) fun h => hdeclared h.2.1.1

theorem clean_checkRoles {roles : List Role} :
    ∀ {rolesNames : List String}, (checkRoles permissionNames rolesNames roles).Clean ↔
      ((roles.map Role.name).Nodup ∧ ∀ role ∈ roles, role.name ∉ rolesNames) ∧
        ∀ role ∈ roles, role.permission.Nodup ∧ ∀ id ∈ role.permission, id ∈ permissionNames := by
  induction roles with
  | nil => intro rolesNames; simp [checkRoles]
  | cons role roles ih =>
    intro rolesNames
    have hname : (if rolesNames.contains role.name then
        Report.error ("application.xml: Duplicate role: " ++ role.name) else .ok : Check).Clean ↔
        role.name ∉ rolesNames := by
      by_cases h : role.name ∈ rolesNames
      · simp [h]
      · simp [h]
    rw [checkRoles, Report.clean_andThen, Report.clean_andThen, hname, ih, clean_checkRole]
    rw [List.map_cons, List.nodup_cons, List.forall_mem_cons, List.forall_mem_cons]
    simp only [List.mem_cons, not_or, List.not_mem_nil, not_false_iff, and_true]
    have hfirst : (∀ r ∈ roles, r.name ≠ role.name) ↔ role.name ∉ roles.map Role.name := by
      simp [eq_comm]
    constructor
    · rintro ⟨hnew, hrole, ⟨hnodup, hnot⟩, hall⟩
      refine ⟨⟨⟨hfirst.mp fun r hr => (hnot r hr).1, hnodup⟩, hnew, fun r hr => (hnot r hr).2⟩, hrole, hall⟩
    · rintro ⟨⟨⟨hfresh, hnodup⟩, hnew, hnot⟩, hrole, hall⟩
      exact ⟨hnew, hrole, ⟨hnodup, fun r hr => ⟨hfirst.mpr hfresh r hr, hnot r hr⟩⟩, hall⟩

theorem clean_info : ((readPermissions provider).andThen
      (validateApplicationInfo provider (declaredPermissions provider))).Clean ↔
    ∃ info, provider.applicationInfo = some info ∧ InfoAccepted info := by
  unfold readPermissions validateApplicationInfo checkApplicationProperties declaredPermissions
  rw [Report.clean_andThen, Report.clean_andThen, clean_duplicates]
  cases hinfo : provider.applicationInfo with
  | none =>
    refine iff_of_false (fun h => Report.not_clean_raise _ h.2.2) ?_
    rintro ⟨info, h, _⟩
    cases h
  | some info =>
    simp only [Option.bind_some, Option.some.injEq, exists_eq_left', clean_checkRoles,
      List.not_mem_nil, not_false_iff, implies_true, and_true]
    cases hproperties : info.properties with
    | none =>
      refine iff_of_false (fun h => Report.not_clean_raise _ h.2.1) fun h => ?_
      obtain ⟨properties, h, _⟩ := h.properties
      rw [hproperties] at h
      cases h
    | some properties =>
      simp only [clean_duplicates, List.not_mem_nil, not_false_iff, implies_true, and_true]
      constructor
      · rintro ⟨hpermissions, hnodup, hroles, hgranted⟩
        exact ⟨hpermissions, ⟨properties, hproperties, hnodup⟩, hroles, hgranted⟩
      · intro h
        obtain ⟨properties', h', hnodup⟩ := h.properties
        rw [hproperties] at h'
        cases h'
        exact ⟨h.permissions, hnodup, h.roles, h.granted⟩

/-! ## Definitions -/

theorem clean_validateField {messagePrefix : String} {fieldDef : FieldDef} :
    (validateField evaluate messagePrefix fieldDef).Clean ↔ FieldAccepted evaluate fieldDef := by
  unfold validateField
  simp only [Report.clean_andThen, clean_validateCondition]
  exact ⟨fun h => ⟨h.1, h.2.1, h.2.2⟩, fun h => ⟨h.condition, h.hidden, h.readonly⟩⟩

theorem clean_validateFields {id messagePrefix : String} {params : Params} {metaData : MetaData} :
    (validateFields outside id messagePrefix params metaData).Clean ↔
      MetaDataAccepted outside id params metaData := by
  unfold validateFields
  cases hblank : Java.isBlank metaData.bindClass with
  | true =>
    refine iff_of_false (Report.not_clean_error _) fun h => ?_
    rw [h.bindClass] at hblank
    cases hblank
  | false =>
    simp only [Bool.false_eq_true, if_false, Report.clean_each, clean_validateField]
    exact ⟨fun h => ⟨hblank, h⟩, MetaDataAccepted.fields⟩

/-- A datasource that is registered is found, unless its metadata are missing. -/
theorem getDatasource_of_mem {datasource : Datasource} (h : datasource ∈ provider.datasources.values) :
    provider.getDatasource datasource.id =
      if datasource.config.metaData.isNone then .error .nullPointer else .ok (some datasource) := by
  rw [Provider.getDatasource, Keyed.get_key h]

theorem clean_validateDataSource {datasource : Datasource} (h : datasource ∈ provider.datasources.values) :
    (validateDataSource outside provider permissionNames datasource.id).Clean ↔
      DatasourceAccepted outside provider permissionNames datasource := by
  unfold validateDataSource
  rw [getDatasource_of_mem provider h]
  cases hmetaData : datasource.config.metaData with
  | none =>
    refine iff_of_false (Report.not_clean_raise _) fun haccepted => ?_
    obtain ⟨metaData, hsome, _⟩ := haccepted.metaData
    rw [hmetaData] at hsome
    cases hsome
  | some metaData =>
    simp only [Option.isNone_some, Bool.false_eq_true, if_false, Report.looking, Option.map_some, hmetaData,
      Report.clean_andThen, clean_checkPermissions, Report.clean_each, clean_validateLinkPanel,
      clean_validateFields]
    constructor
    · rintro ⟨hdeclared, hpanels, hfields⟩
      exact ⟨hdeclared, hpanels, metaData, hmetaData, hfields⟩
    · intro haccepted
      obtain ⟨metaData', hsome, hfields⟩ := haccepted.metaData
      rw [hmetaData] at hsome
      cases hsome
      exact ⟨haccepted.declared, haccepted.panels, hfields⟩

theorem clean_validateActionDatasource {action : Action} {params : Params} {actionOrigin : String}
    {ref : DatasourceRef} :
    (validateActionDatasource outside provider action params actionOrigin ref).Clean ↔
      Includes (outside.evaluate "action" action.id (getVariables params)) ref.condition ∧
        ∃ datasource, DatasourceFound provider ref (names params) datasource := by
  unfold validateActionDatasource validateConditionForAction
  rw [Report.clean_andThen, clean_validateInclude, Report.clean_looking]
  have hpasses : ∀ {refParams execParams : Params},
      Passes refParams execParams (getParameterMap params).keySet ↔ Passes refParams execParams (names params) := by
    intro refParams execParams
    refine ⟨fun h => ⟨h.1, ?_⟩, fun h => ⟨h.1, ?_⟩⟩
    · exact fun entry hentry name hname => mem_keySet_getParameterMap.mp (h.2 entry hentry name hname)
    · exact fun entry hentry name hname => mem_keySet_getParameterMap.mpr (h.2 entry hentry name hname)
  refine and_congr_right fun _ => ?_
  constructor
  · rintro ⟨found, hfound, hclean⟩
    cases found with
    | none => exact absurd hclean (Report.not_clean_error _)
    | some datasource =>
      obtain ⟨datasource', h⟩ := (clean_validateDataSourceParameters provider).mp hclean
      exact ⟨datasource', h.found, hpasses.mp h.passes, h.options⟩
  · rintro ⟨datasource, h⟩
    refine ⟨some datasource, h.found, (clean_validateDataSourceParameters provider).mpr ?_⟩
    exact ⟨datasource, h.found, hpasses.mpr h.passes, h.options⟩

theorem clean_validateAction {eventId : String} {action : Action} :
    (validateAction outside provider permissionNames eventId action).Clean ↔
      ∃ config, ConfiguredAction outside provider permissionNames action config := by
  unfold validateAction
  cases hconfig : action.config with
  | none =>
    refine iff_of_false (Report.not_clean_raise _) fun h => ?_
    obtain ⟨config, h⟩ := h
    rw [h.configured] at hconfig
    cases hconfig
  | some config =>
    simp only [Report.clean_andThen, clean_checkPermissions, validateConditionForAction, clean_validateInclude]
    cases hdatasource : action.datasource with
    | none =>
      constructor
      · rintro ⟨hcondition, hdeclared, -⟩
        refine ⟨config, hconfig, hcondition, hdeclared, fun ref href => ?_⟩
        rw [hdatasource] at href
        cases href
      · rintro ⟨config', h⟩
        obtain rfl : config = config' := Option.some.inj (hconfig.symm.trans h.configured)
        exact ⟨h.condition, h.declared, Report.clean_ok⟩
    | some ref =>
      dsimp only
      rw [clean_validateActionDatasource]
      constructor
      · rintro ⟨hcondition, hdeclared, hfound⟩
        refine ⟨config, hconfig, hcondition, hdeclared, fun ref' href => ?_⟩
        obtain rfl : ref = ref' := Option.some.inj (hdatasource.symm.trans href)
        exact hfound
      · rintro ⟨config', h⟩
        obtain rfl : config = config' := Option.some.inj (hconfig.symm.trans h.configured)
        exact ⟨h.condition, h.declared, h.datasource ref hdatasource⟩

theorem clean_validateEvent {event : Event} (h : event ∈ provider.events.values) :
    (validateEvent outside provider permissionNames event.id).Clean ↔
      EventAccepted outside provider permissionNames event := by
  unfold validateEvent Provider.getEvent
  rw [Keyed.get_key h]
  simp only [Report.clean_andThen, clean_checkPermissions, Report.clean_each, clean_validateAction]
  exact ⟨fun h => ⟨h.1, h.2⟩, fun h => ⟨h.declared, h.actions⟩⟩

/-! ## Pages -/

variable {page : PageDefinition}

theorem clean_validateActionRef {ref : ActionRef} :
    (validateActionRef outside provider permissionNames page ref).Clean ↔
      RefAccepted outside provider permissionNames page (.action ref) := by
  unfold validateActionRef validateIncludeConditionForPage RefAccepted pageEvaluate
  simp only [Report.clean_andThen, clean_validateInclude, clean_checkPermissions]
  refine and_congr_right fun _ => and_congr_right fun _ => ?_
  cases hevent : provider.getEvent ref.eventId with
  | none =>
    refine iff_of_false (Report.not_clean_error _) fun h => ?_
    obtain ⟨action, config, h⟩ := h
    obtain ⟨actions, hactions, _⟩ := h.registered
    rw [Provider.getActions, hevent] at hactions
    cases hactions
  | some event =>
    dsimp only
    cases hregistered : (provider.getActions ref.eventId).bind fun actions => actions ref.id with
    | none =>
      refine iff_of_false (Report.not_clean_error _) fun h => ?_
      obtain ⟨action, config, h⟩ := h
      obtain ⟨actions, hactions, hsome⟩ := h.registered
      rw [hactions] at hregistered
      rw [show actions ref.id = none from hregistered] at hsome
      cases hsome
    | some action =>
      obtain ⟨actions, hactions, hsome⟩ := Option.bind_eq_some_iff.mp hregistered
      exact clean_validateActionParameters provider ⟨actions, hactions, by rw [hsome]; rfl⟩

theorem clean_validateDatasourceRef {ref : DatasourceRef} :
    (validateDatasourceRef outside provider permissionNames page ref).Clean ↔
      RefAccepted outside provider permissionNames page (.datasource ref) := by
  unfold validateDatasourceRef validateIncludeConditionForPage RefAccepted pageEvaluate
  simp only [Report.clean_andThen, clean_validateInclude, clean_checkPermissions, Report.clean_looking]
  refine and_congr_right fun _ => and_congr_right fun _ => ?_
  constructor
  · rintro ⟨found, hfound, hclean⟩
    cases found with
    | none => exact absurd hclean (Report.not_clean_error _)
    | some datasource =>
      obtain ⟨datasource', h⟩ := (clean_validateDataSourceParameters provider).mp hclean
      refine ⟨datasource', h.found, ⟨h.passes.supported, ?_⟩, h.options⟩
      exact fun entry hentry name hname => mem_keySet_getAllPageParams.mp (h.passes.available entry hentry name hname)
  · rintro ⟨datasource, h⟩
    refine ⟨some datasource, h.found, (clean_validateDataSourceParameters provider).mpr ?_⟩
    refine ⟨datasource, h.found, ⟨h.passes.supported, ?_⟩, h.options⟩
    exact fun entry hentry name hname => mem_keySet_getAllPageParams.mpr (h.passes.available entry hentry name hname)

theorem clean_validateElement {i : Nat} {numbered : SectionelementDef × Nat} :
    (validateElement outside provider permissionNames page i numbered).Clean ↔
      ElementAccepted outside provider permissionNames page numbered.1 := by
  have href : (match numbered.1.ref with
      | .action ref => validateActionRef outside provider permissionNames page ref
      | .datasource ref => validateDatasourceRef outside provider permissionNames page ref : Check).Clean ↔
      RefAccepted outside provider permissionNames page numbered.1.ref := by
    cases numbered.1.ref with
    | action ref => exact clean_validateActionRef outside provider permissionNames
    | datasource ref => exact clean_validateDatasourceRef outside provider permissionNames
  unfold validateElement
  simp only [Report.clean_andThen, clean_validateExpressionForPage]
  exact ⟨fun h => ⟨h.1, h.2.1, href.mp h.2.2⟩, fun h => ⟨h.folded, h.passive, href.mpr h.ref⟩⟩

/-- The numbers are for the messages. -/
theorem forall_mem_zipIdx {α : Type} {as : List α} {i : Nat} {P : α → Prop} :
    (∀ numbered ∈ as.zipIdx i, P numbered.1) ↔ ∀ a ∈ as, P a := by
  have hmap : (as.zipIdx i).map Prod.fst = as := List.zipIdx_map_fst i as
  constructor
  · intro h a ha
    rw [← hmap] at ha
    obtain ⟨numbered, hnumbered, rfl⟩ := List.mem_map.mp ha
    exact h numbered hnumbered
  · intro h numbered hnumbered
    refine h numbered.1 ?_
    rw [← hmap]
    exact List.mem_map_of_mem hnumbered

theorem clean_validateSection {numbered : SectionDef × Nat} :
    (validateSection outside provider permissionNames page numbered).Clean ↔
      Decides (pageEvaluate outside page) numbered.1.hidden ∧
        ∀ element ∈ numbered.1.element, ElementAccepted outside provider permissionNames page element := by
  unfold validateSection
  simp only [Report.clean_andThen, clean_validateExpressionForPage, Report.clean_each, clean_validateElement]
  rw [forall_mem_zipIdx]

theorem clean_validatePage (h : page ∈ provider.pages.values) :
    (validatePage outside provider permissionNames page.id).Clean ↔
      PageAccepted outside provider permissionNames page := by
  unfold validatePage Provider.getPage
  rw [Keyed.get_key h]
  simp only [Report.clean_andThen, clean_checkPermissions, Report.clean_each, clean_validateSection]
  rw [forall_mem_zipIdx (P := fun s : SectionDef => Decides (pageEvaluate outside page) s.hidden ∧
    ∀ element ∈ s.element, ElementAccepted outside provider permissionNames page element)]
  constructor
  · rintro ⟨hdeclared, hsections⟩
    exact ⟨hdeclared, fun s hs => (hsections s hs).1, fun s hs => (hsections s hs).2⟩
  · intro h
    exact ⟨h.declared, fun s hs => ⟨h.hidden s hs, h.elements s hs⟩⟩

/-! ## The whole configuration -/

theorem clean_validateApplicationRootConfig :
    (validateApplicationRootConfig provider permissionNames).Clean ↔
      (provider.applicationRootConfig = none → provider.pages.values = []) ∧
        ∀ panel, provider.applicationRootConfig = some (some panel) →
          PanelAccepted provider permissionNames panel := by
  unfold validateApplicationRootConfig
  cases provider.applicationRootConfig with
  | none =>
    cases provider.pages.values with
    | nil => simp
    | cons page pages => simp
  | some navigation =>
    cases navigation with
    | none => simp
    | some panel => simp [clean_validateLinkPanel]

/-- A check of every value, by its key. -/
theorem clean_each_key {α κ : Type} [DecidableEq κ] {key : α → κ} {m : Keyed key} {check : κ → Check}
    {P : α → Prop} (h : ∀ a ∈ m.values, (check (key a)).Clean ↔ P a) :
    (Report.each (m.values.map key) check).Clean ↔ ∀ a ∈ m.values, P a := by
  rw [Report.clean_each, List.forall_mem_map]
  exact forall₂_congr h

/-- The checks of `validate`, one after another. -/
theorem clean_validate_parts : (validate outside provider).Clean ↔
    (∃ info, provider.applicationInfo = some info ∧ InfoAccepted info) ∧
      ((provider.applicationRootConfig = none → provider.pages.values = []) ∧
        ∀ panel, provider.applicationRootConfig = some (some panel) →
          PanelAccepted provider (declaredPermissions provider) panel) ∧
      (∀ datasource ∈ provider.datasources.values,
        DatasourceAccepted outside provider (declaredPermissions provider) datasource) ∧
      (∀ event ∈ provider.events.values,
        EventAccepted outside provider (declaredPermissions provider) event) ∧
      ∀ page ∈ provider.pages.values, PageAccepted outside provider (declaredPermissions provider) page := by
  have hassoc : (validate outside provider).Clean ↔
      ((readPermissions provider).andThen
        (validateApplicationInfo provider (declaredPermissions provider))).Clean ∧
        (validateApplication outside provider (declaredPermissions provider)).Clean := by
    rw [validate, Report.clean_andThen, Report.clean_andThen, Report.clean_andThen, and_assoc]
  rw [hassoc, clean_info, validateApplication, validateDataSources, validateActions]
  simp only [Report.clean_andThen, clean_validateApplicationRootConfig]
  rw [clean_each_key fun _ h => clean_validateDataSource outside provider _ h,
    clean_each_key fun _ h => clean_validateEvent outside provider _ h,
    clean_each_key fun _ h => clean_validatePage outside provider _ h]

theorem accepted_of_clean (h : (validate outside provider).Clean) : Accepted outside provider := by
  obtain ⟨hinfo, ⟨hroot, hnavigation⟩, hdatasources, hevents, hpages⟩ :=
    (clean_validate_parts outside provider).mp h
  exact ⟨hinfo, hroot, hnavigation, hdatasources, hevents, hpages⟩

/-- The validation reports no error and does not throw if and only if the configuration is accepted. -/
theorem clean_validate : (validate outside provider).Clean ↔ Accepted outside provider := by
  refine ⟨accepted_of_clean outside provider, fun h => ?_⟩
  rw [clean_validate_parts]
  exact ⟨h.info, ⟨h.root, h.navigation⟩, h.datasources, h.events, h.pages⟩

end Validator
end AppNG
