import AppNG.Config.Provider

/-!
# Config.CloneConfig

`ApplicationConfigProviderImpl.cloneConfig`: a provider is copied by way of a stream of objects, or
read again from its files if it is in development mode.

* `view_readData`: what comes back from the stream if there is a root configuration.
* `readData_no_rootConfig`: without one, nothing is read behind its place.
* `clones_iff`: the clone of a provider that was loaded answers every lookup as the provider does if
  and only if it is in development mode, or data was written and there is a root configuration.
-/

namespace AppNG
namespace Config

variable {C : Type}

/-- A provider before `readData`. -/
def unread (data : List (StreamObject C)) : Provider C where
  pageMap := none
  actionMap := none
  datasourceMap := none
  eventMap := none
  rootConfig := none
  defaultPage := none
  sessionParams := none
  xmlFiles := none
  devMode := false
  data := some data

/-- The loop ends with the stream, or with a null. -/
def readData (provider : Provider C) : List (StreamObject C) → Provider C
  | [] => provider
  | .null :: _ => provider
  | .pageMap o :: os => readData { provider with pageMap := some o } os
  | .actionMap o :: os => readData { provider with actionMap := some o } os
  | .datasourceMap o :: os => readData { provider with datasourceMap := some o } os
  | .eventMap o :: os => readData { provider with eventMap := some o } os
  | .rootConfig o :: os => readData { provider with rootConfig := some o } os
  | .string o :: os => readData { provider with defaultPage := some o } os
  | .set o :: os => readData { provider with sessionParams := some o } os

/-- None: it throws. -/
def cloneConfig (provider : Provider C) : Option (Provider C) :=
  if provider.devMode then provider.xmlFiles.map (loadConfig true)
  else provider.data.map fun data => readData (unread data) data

/-- However the provider was used before, the clone answers what it answers. -/
def Clones (provider : Provider C) : Prop :=
  ∀ before : List Lookup, ∃ clone, cloneConfig (afterLookups provider before) = some clone ∧
    ∀ later, answers clone later = answers (afterLookups provider before) later

/-! ## The stream -/

/-- What a provider shows after loading. -/
def viewOf (config : LoadState C) : View C where
  pageMap := some config.pageMap
  actionMap := some config.actionMap
  datasourceMap := some (settledMap config.datasourceMap)
  eventMap := some config.eventMap
  rootConfig := config.rootConfig
  defaultPage := config.defaultPage
  sessionParams := some config.sessionParams

theorem view_loadConfig (devMode : Bool) (xmlFiles : List (ConfigObject C)) :
    view (loadConfig devMode xmlFiles) = viewOf (readResources xmlFiles).1 := rfl

/-- The data is that of a loading without a failure. -/
theorem data_loadConfig {devMode : Bool} {xmlFiles : List (ConfigObject C)}
    {data : List (StreamObject C)} (h : (loadConfig devMode xmlFiles).data = some data) :
    data = writeData (readResources xmlFiles).1 := by
  simp only [loadConfig] at h
  split at h
  · exact (Option.some.inj h).symm
  · cases h

theorem view_readData {config : LoadState C} (h : config.rootConfig.isSome) :
    view (readData (unread (writeData config)) (writeData config)) = viewOf config := by
  obtain ⟨rootConfig, hroot⟩ := Option.isSome_iff_exists.mp h
  unfold writeData
  rw [hroot]
  cases hpage : config.defaultPage with
  | none => simp [readData, view, viewOf, unread, hroot, hpage]
  | some page => simp [readData, view, viewOf, unread, hroot, hpage]

theorem readData_no_rootConfig {config : LoadState C} (h : config.rootConfig = none) :
    (readData (unread (writeData config)) (writeData config)).sessionParams = none ∧
      (readData (unread (writeData config)) (writeData config)).defaultPage = none := by
  unfold writeData
  rw [h]
  simp [readData, unread]

/-! ## Lookups before the clone is made -/

theorem lookup_frame (provider : Provider C) (l : Lookup) :
    (lookup provider l).2.devMode = provider.devMode ∧
      (lookup provider l).2.xmlFiles = provider.xmlFiles ∧
      (lookup provider l).2.data = provider.data := by
  cases l with
  | datasource id =>
    simp only [lookup, getDatasource]
    split
    · exact ⟨rfl, rfl, rfl⟩
    · split
      · exact ⟨rfl, rfl, rfl⟩
      · split
        · exact ⟨rfl, rfl, rfl⟩
        · exact ⟨rfl, rfl, rfl⟩
  | page id => exact ⟨rfl, rfl, rfl⟩
  | event id => exact ⟨rfl, rfl, rfl⟩
  | action eventId actionId => exact ⟨rfl, rfl, rfl⟩
  | applicationRootConfig => exact ⟨rfl, rfl, rfl⟩
  | defaultPage => exact ⟨rfl, rfl, rfl⟩
  | sessionParams => exact ⟨rfl, rfl, rfl⟩

theorem cloneConfig_afterLookups (provider : Provider C) (ls : List Lookup) :
    cloneConfig (afterLookups provider ls) = cloneConfig provider := by
  unfold afterLookups
  induction ls generalizing provider with
  | nil => rfl
  | cons l ls ih =>
    obtain ⟨hdev, hfiles, hdata⟩ := lookup_frame provider l
    rw [List.foldl_cons, ih]
    simp only [cloneConfig, hdev, hfiles, hdata]

/-- A clone that shows the same is as good as the provider. -/
theorem clones_of_view {provider clone : Provider C} (hclone : cloneConfig provider = some clone)
    (hview : view clone = view provider) : Clones provider := by
  intro before
  refine ⟨clone, by rw [cloneConfig_afterLookups, hclone], fun later => ?_⟩
  exact answers_of_view later (by rw [view_afterLookups, hview])

theorem clones_iff (devMode : Bool) (xmlFiles : List (ConfigObject C)) :
    Clones (loadConfig devMode xmlFiles) ↔
      devMode = true ∨ (loadConfig devMode xmlFiles).data.isSome ∧
        (loadConfig devMode xmlFiles).rootConfig.isSome := by
  cases devMode with
  | true =>
    have hclone : cloneConfig (loadConfig true xmlFiles) = some (loadConfig true xmlFiles) := rfl
    exact iff_of_true (clones_of_view hclone rfl) (.inl rfl)
  | false =>
    have hclone : cloneConfig (loadConfig false xmlFiles) =
        (loadConfig false xmlFiles).data.map fun data => readData (unread data) data := rfl
    rw [or_iff_right Bool.false_ne_true]
    constructor
    · intro h
      obtain ⟨clone, hsome, hanswers⟩ := h []
      rw [cloneConfig_afterLookups, hclone, Option.map_eq_some_iff] at hsome
      obtain ⟨data, hdata, rfl⟩ := hsome
      refine ⟨by rw [hdata]; rfl, ?_⟩
      cases hroot : (readResources xmlFiles).1.rootConfig with
      | some rootConfig => exact Option.isSome_iff_exists.mpr ⟨rootConfig, hroot⟩
      | none =>
        -- the session parameters come behind the root configuration
        have hnone := (readData_no_rootConfig hroot).1
        have hset := hanswers [.sessionParams]
        rw [data_loadConfig hdata] at hset
        simp only [answers, lookup, hnone] at hset
        cases hset
    · rintro ⟨hdata, hroot⟩
      obtain ⟨data, hdata⟩ := Option.isSome_iff_exists.mp hdata
      obtain rfl := data_loadConfig hdata
      refine clones_of_view (by rw [hclone, hdata]; rfl) ?_
      rw [view_loadConfig]
      exact view_readData hroot

section Example

/-- One page of type `index`, and no root configuration. -/
def indexOnly : List (ConfigObject Unit) := [.pageDefinition ⟨"home", some "index", ()⟩]

/-- The default page is lost. -/
theorem defaultPage_lost :
    (loadConfig false indexOnly).defaultPage = some "home" ∧
    (cloneConfig (loadConfig false indexOnly)).map Provider.defaultPage = some none ∧
    ¬ ∀ (devMode : Bool) (xmlFiles : List (ConfigObject Unit)),
      Clones (loadConfig devMode xmlFiles) := by
  have hread : readResources indexOnly = (addPage clear ⟨"home", some "index", ()⟩, none) := by
    simp [readResources, indexOnly, Loop.foldUntil, readConfig, addPage, clear]
  have hpage : (loadConfig false indexOnly).defaultPage = some "home" := by
    simp [loadConfig, hread, addPage]
  have hclone : (cloneConfig (loadConfig false indexOnly)).map Provider.defaultPage = some none := by
    simp [cloneConfig, loadConfig, hread, addPage, clear, writeData, readData, unread]
  refine ⟨hpage, hclone, fun h => ?_⟩
  obtain ⟨clone, hsome, hanswers⟩ := h false indexOnly []
  have hsame := hanswers [.defaultPage]
  rw [cloneConfig_afterLookups] at hsome
  rw [hsome, Option.map_some, Option.some.injEq] at hclone
  have hback : (afterLookups (loadConfig false indexOnly) []).defaultPage = some "home" := hpage
  simp only [answers, lookup, hclone, hback] at hsame
  cases hsame

end Example

end Config
end AppNG
