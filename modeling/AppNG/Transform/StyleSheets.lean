import AppNG.Lib.Keyed
import AppNG.Lib.Utf16
import Mathlib.Data.List.Sort

/-!
# Transform.StyleSheets

`PlatformTransformer.transform`, and its cache of the compiled stylesheets of a site.

Assembling, compiling and applying a stylesheet are functions of what they are given. What is compiled
gives templates or an error that is thrown, and the errors that were reported to the listener.

* `run_failed`: in every cache that is reached are only templates that did not compile.
* `transform_right_iff`: with such a cache, a transformation has the outcome it has with an empty one,
  and fails with the error of a stylesheet that does not compile, if and only if its stylesheets are
  not in the cache (and that error was reported).
* `run_right_iff`: the same for all transformations of a run, whatever is dropped from the cache.
-/

namespace AppNG
namespace Transform

/-! ## The code -/

structure Template where
  path : String
  type : Option String := none
  outputType : Option String := none
  deleteIncludes : Option Bool := none

structure OutputType where
  id : String
  templates : List Template

variable {B X T R E : Type}

structure StyleSheetProvider (B : Type) where
  masterSource : Option B := none
  styleReferences : Keyed (Prod.fst : String × B → String) := .empty

namespace StyleSheetProvider

variable (provider : StyleSheetProvider B)

def setMasterSource (masterXsl : B) : StyleSheetProvider B :=
  { provider with masterSource := some masterXsl }

def addStyleSheet (styleSheet : B) (reference : String) : StyleSheetProvider B :=
  { provider with styleReferences := provider.styleReferences.put (reference, styleSheet) }

/-- In the order of the names. -/
def references : List (String × B) :=
  provider.styleReferences.values.insertionSort fun r s => (Java.compareTo r.1 s.1).isLE

def getId : String := ",".intercalate (provider.references.map Prod.fst)

end StyleSheetProvider

/-- What assembles, compiles and applies stylesheets. -/
structure Xslt (B X T R E : Type) where
  /-- `getStyleSheet`. None: null. -/
  getStyleSheet : Option B → List (String × B) → Bool → Option X
  /-- `newTemplates`, and the errors that were reported. -/
  newTemplates : X → Except E T × List E
  transform : T → String → Bool → Except E R

/-- A call of `transform`, with the files and resources that it finds. -/
structure Call (B : Type) where
  outputType : OutputType
  templatePath : String
  /-- None: there is no such file. -/
  xslFile : String → Option B
  templates : List Template
  applicationName : String
  getResource : String → Option B
  platformXML : String
  formatOutput : Bool

inductive Outcome (R E : Type) where
  | result (r : R)
  | platformTransformerException (e : E)
  | nullPointerException
  | fileNotFoundException
  deriving DecidableEq

/-- `inner` is null for what did not compile. -/
structure SourceAwareTemplate (T : Type) where
  inner : Option T

def outputTypeMatches (call : Call B) (template : Template) : Bool :=
  match template.outputType with
  | none => true
  | some outputType => outputType == call.outputType.id

/-- A template of the output type. None: its file is not found. -/
def addTemplate (call : Call B) (provided : StyleSheetProvider B × Bool) (template : Template) :
    Option (StyleSheetProvider B × Bool) :=
  if outputTypeMatches call template then do
    let xslSource ← call.xslFile template.path
    if template.type = some "master" then
      return (provided.1.setMasterSource xslSource, template.deleteIncludes == some true)
    else
      return (provided.1.addStyleSheet xslSource (call.templatePath ++ ":" ++ template.path),
        provided.2)
  else some provided

/-- A template of the application. One that is missing is left out. -/
def addResource (call : Call B) (provider : StyleSheetProvider B) (template : Template) :
    StyleSheetProvider B :=
  if outputTypeMatches call template then
    match call.getResource template.path with
    | none => provider
    | some resource =>
      provider.addStyleSheet resource (call.applicationName ++ ":" ++ template.path)
  else provider

/-- All stylesheets, and whether includes are deleted. None: a file is not found. -/
def provide (call : Call B) : Option (StyleSheetProvider B × Bool) :=
  (call.outputType.templates.foldlM (addTemplate call) ({}, false)).map fun provided =>
    (call.templates.foldl (addResource call) provided.1, provided.2)

/-- The first error that was reported is thrown, else the templates are applied. -/
def applyTemplate (xslt : Xslt B X T R E) (call : Call B) (sourceAwareTemplate : SourceAwareTemplate T)
    (errors : List E) : Outcome R E :=
  match errors with
  | e :: _ => .platformTransformerException e
  | [] =>
    match sourceAwareTemplate.inner with
    | none => .nullPointerException
    | some templates =>
      match xslt.transform templates call.platformXML call.formatOutput with
      | .ok result => .result result
      | .error e => .platformTransformerException e

/-- The stylesheets of a site, by their id. -/
abbrev StyleSheets (T : Type) := Keyed (Prod.fst : String × SourceAwareTemplate T → String)

def compileTemplate (xslt : Xslt B X T R E) (call : Call B) (cache : StyleSheets T) (styleId : String)
    (xslData : X) : StyleSheets T × Outcome R E :=
  match xslt.newTemplates xslData with
  | (.ok templates, errors) => (cache, applyTemplate xslt call ⟨some templates⟩ errors)
  | (.error _, errors) => (cache.put (styleId, ⟨none⟩), applyTemplate xslt call ⟨none⟩ errors)

/-- With `devMode` off. -/
def transform (xslt : Xslt B X T R E) (cache : StyleSheets T) (call : Call B) :
    StyleSheets T × Outcome R E :=
  match provide call with
  | none => (cache, .fileNotFoundException)
  | some (provider, deleteIncludes) =>
    match cache.get provider.getId with
    | some (_, sourceAwareTemplate) => (cache, applyTemplate xslt call sourceAwareTemplate [])
    | none =>
      match xslt.getStyleSheet provider.masterSource provider.references deleteIncludes with
      | none => (cache, .nullPointerException)
      | some xslData => compileTemplate xslt call cache provider.getId xslData

/-! ## Runs -/

inductive Event (B : Type) where
  | transform (call : Call B)
  | evict (styleId : String)
  | clearCache

def next (xslt : Xslt B X T R E) (cache : StyleSheets T) : Event B → StyleSheets T
  | .transform call => (transform xslt cache call).1
  | .evict styleId => cache.erase styleId
  | .clearCache => .empty

/-- The cache after a run. -/
def cacheAfter (xslt : Xslt B X T R E) (events : List (Event B)) : StyleSheets T :=
  events.foldl (next xslt) .empty

/-- The stylesheet that a call assembles, and its id. -/
def assembled (xslt : Xslt B X T R E) (call : Call B) : Option (String × X) :=
  (provide call).bind fun provided =>
    (xslt.getStyleSheet provided.1.masterSource provided.1.references provided.2).map fun xslData =>
      (provided.1.getId, xslData)

/-- The outcome is that with an empty cache, and for a stylesheet that does not compile an exception
with the first error that was reported, or else with the one that was thrown. -/
def Right (xslt : Xslt B X T R E) (call : Call B) (outcome : Outcome R E) : Prop :=
  outcome = (transform xslt .empty call).2 ∧
    ∀ styleId xslData e errors, assembled xslt call = some (styleId, xslData) →
      xslt.newTemplates xslData = (.error e, errors) →
        outcome = .platformTransformerException (errors.headD e)

/-- What is assembled is not in the cache, and if it does not compile, an error is reported. -/
def Fresh (xslt : Xslt B X T R E) (cache : StyleSheets T) (call : Call B) : Prop :=
  ∀ styleId xslData, assembled xslt call = some (styleId, xslData) →
    cache.get styleId = none ∧ ∀ e, xslt.newTemplates xslData ≠ (.error e, [])

/-! ## The cache -/

/-- Only what did not compile is in the cache. -/
def Failed (cache : StyleSheets T) : Prop := ∀ entry ∈ cache.values, entry.2.inner = none

theorem transform_failed {xslt : Xslt B X T R E} {cache : StyleSheets T} (h : Failed cache)
    (call : Call B) : Failed (transform xslt cache call).1 := by
  unfold transform
  cases provide call with
  | none => exact h
  | some provided =>
    obtain ⟨provider, deleteIncludes⟩ := provided
    simp only
    cases cache.get provider.getId with
    | some entry => exact h
    | none =>
      simp only
      cases xslt.getStyleSheet provider.masterSource provider.references deleteIncludes with
      | none => exact h
      | some xslData =>
        simp only [compileTemplate]
        obtain ⟨compiled, errors⟩ := xslt.newTemplates xslData
        cases compiled with
        | ok templates => exact h
        | error e =>
          intro entry hentry
          rcases Keyed.mem_put.mp hentry with rfl | ⟨hentry, -⟩
          · rfl
          · exact h entry hentry

theorem next_failed {xslt : Xslt B X T R E} {cache : StyleSheets T} (h : Failed cache)
    (event : Event B) : Failed (next xslt cache event) := by
  cases event with
  | transform call => exact transform_failed h call
  | evict styleId => exact fun entry hentry => h entry (Keyed.mem_erase.mp hentry).1
  | clearCache => exact fun entry hentry => absurd hentry Keyed.not_mem_empty

theorem run_failed (xslt : Xslt B X T R E) (events : List (Event B)) :
    Failed (cacheAfter xslt events) := by
  refine List.foldlRecOn events (next xslt) ?_ fun cache h event _ => next_failed h event
  exact fun entry hentry => absurd hentry Keyed.not_mem_empty

/-! ## The outcome -/

section Outcome

variable {xslt : Xslt B X T R E} {cache : StyleSheets T} {call : Call B}

theorem assembled_eq_some {styleId : String} {xslData : X}
    (h : assembled xslt call = some (styleId, xslData)) :
    ∃ provider deleteIncludes, provide call = some (provider, deleteIncludes) ∧
      provider.getId = styleId ∧
      xslt.getStyleSheet provider.masterSource provider.references deleteIncludes = some xslData := by
  obtain ⟨⟨provider, deleteIncludes⟩, hprovide, hmap⟩ := Option.bind_eq_some_iff.mp h
  obtain ⟨xslData', hxsl, hsame⟩ := Option.map_eq_some_iff.mp hmap
  obtain ⟨rfl, rfl⟩ := Prod.mk.inj hsame
  exact ⟨provider, deleteIncludes, hprovide, rfl, hxsl⟩

/-- A miss. -/
theorem transform_miss {styleId : String} {xslData : X}
    (h : assembled xslt call = some (styleId, xslData)) (hget : cache.get styleId = none) :
    transform xslt cache call = compileTemplate xslt call cache styleId xslData := by
  obtain ⟨provider, deleteIncludes, hprovide, rfl, hxsl⟩ := assembled_eq_some h
  unfold transform
  simp only [hprovide, hget, hxsl]

/-- A hit. -/
theorem transform_hit {styleId : String} {xslData : X} {entry : String × SourceAwareTemplate T}
    (hfailed : Failed cache) (h : assembled xslt call = some (styleId, xslData))
    (hget : cache.get styleId = some entry) :
    (transform xslt cache call).2 = .nullPointerException := by
  obtain ⟨provider, deleteIncludes, hprovide, rfl, -⟩ := assembled_eq_some h
  have hinner : entry.2.inner = none := hfailed entry (Keyed.get_eq_some.mp hget).1
  unfold transform
  simp only [hprovide, hget, applyTemplate, hinner]

theorem transform_not_assembled (hfailed : Failed cache) (h : assembled xslt call = none) :
    (transform xslt cache call).2 = (transform xslt .empty call).2 := by
  unfold transform
  cases hprovide : provide call with
  | none => rfl
  | some provided =>
    obtain ⟨provider, deleteIncludes⟩ := provided
    have hxsl : xslt.getStyleSheet provider.masterSource provider.references deleteIncludes = none := by
      simpa [assembled, hprovide] using h
    simp only [hxsl]
    cases hget : cache.get provider.getId with
    | none => rfl
    | some entry =>
      have hinner : entry.2.inner = none := hfailed entry (Keyed.get_eq_some.mp hget).1
      simp only [applyTemplate, hinner]
      rfl

/-- What is compiled and applied never ends like a hit, unless an error is not reported. -/
theorem compileTemplate_null {styleId : String} {xslData : X} :
    (compileTemplate xslt call cache styleId xslData).2 = .nullPointerException ↔
      ∃ e, xslt.newTemplates xslData = (.error e, []) := by
  unfold compileTemplate
  obtain ⟨compiled, errors⟩ := xslt.newTemplates xslData
  cases errors with
  | cons e errors => cases compiled <;> simp [applyTemplate]
  | nil =>
    cases compiled with
    | error e => simp [applyTemplate]
    | ok templates =>
      simp only [applyTemplate]
      cases xslt.transform templates call.platformXML call.formatOutput <;> simp

theorem compileTemplate_error {styleId : String} {xslData : X} {e : E} {errors : List E}
    (h : xslt.newTemplates xslData = (.error e, errors)) (hreported : errors ≠ []) :
    (compileTemplate xslt call cache styleId xslData).2 =
      .platformTransformerException (errors.headD e) := by
  obtain ⟨first, rest, rfl⟩ := List.exists_cons_of_ne_nil hreported
  unfold compileTemplate
  simp only [h]
  rfl

theorem compileTemplate_cache (cache' : StyleSheets T) {styleId : String} {xslData : X} :
    (compileTemplate xslt call cache styleId xslData).2 =
      (compileTemplate xslt call cache' styleId xslData).2 := by
  unfold compileTemplate
  obtain ⟨compiled, errors⟩ := xslt.newTemplates xslData
  cases compiled <;> rfl

theorem right_iff_of_assembled {styleId : String} {xslData : X} {outcome : Outcome R E}
    (h : assembled xslt call = some (styleId, xslData)) :
    Right xslt call outcome ↔ outcome = (compileTemplate xslt call .empty styleId xslData).2 ∧
      ∀ e errors, xslt.newTemplates xslData = (.error e, errors) →
        outcome = .platformTransformerException (errors.headD e) := by
  have hempty : transform xslt .empty call = compileTemplate xslt call .empty styleId xslData :=
    transform_miss h rfl
  rw [Right, hempty]
  refine and_congr_right fun _ => ⟨fun herror e errors => herror styleId xslData e errors h, ?_⟩
  intro herror styleId' xslData' e errors h'
  obtain ⟨rfl, rfl⟩ := Prod.mk.inj (Option.some.inj (h.symm.trans h'))
  exact herror e errors

theorem fresh_iff_of_assembled {styleId : String} {xslData : X}
    (h : assembled xslt call = some (styleId, xslData)) :
    Fresh xslt cache call ↔
      cache.get styleId = none ∧ ∀ e, xslt.newTemplates xslData ≠ (.error e, []) := by
  refine ⟨fun hfresh => hfresh styleId xslData h, ?_⟩
  intro hfresh styleId' xslData' h'
  obtain ⟨rfl, rfl⟩ := Prod.mk.inj (Option.some.inj (h.symm.trans h'))
  exact hfresh

theorem transform_right_iff (hfailed : Failed cache) :
    Right xslt call (transform xslt cache call).2 ↔ Fresh xslt cache call := by
  cases hassembled : assembled xslt call with
  | none =>
    simp only [Right, Fresh, hassembled, reduceCtorEq, false_implies, implies_true, and_true, iff_true]
    exact transform_not_assembled hfailed hassembled
  | some entry =>
    obtain ⟨styleId, xslData⟩ := entry
    rw [right_iff_of_assembled hassembled, fresh_iff_of_assembled hassembled]
    cases hget : cache.get styleId with
    | some entry =>
      rw [transform_hit hfailed hassembled hget]
      refine iff_of_false ?_ fun hfresh => Option.some_ne_none _ hfresh.1
      rintro ⟨hnull, herror⟩
      obtain ⟨e, he⟩ := compileTemplate_null.mp hnull.symm
      cases herror e [] he
    | none =>
      rw [transform_miss hassembled hget]
      refine ⟨fun h => ⟨rfl, fun e he => ?_⟩, fun h => ⟨compileTemplate_cache .empty, ?_⟩⟩
      · have hnull : (compileTemplate xslt call cache styleId xslData).2 = .nullPointerException :=
          compileTemplate_null.mpr ⟨e, he⟩
        rw [h.2 e [] he] at hnull
        cases hnull
      · intro e errors he
        exact compileTemplate_error he fun hnil => h.2 e (hnil ▸ he)

end Outcome

theorem run_right_iff (xslt : Xslt B X T R E) (events : List (Event B)) :
    (∀ pre call post, events = pre ++ .transform call :: post →
      Right xslt call (transform xslt (cacheAfter xslt pre) call).2) ↔
      ∀ pre call post, events = pre ++ .transform call :: post →
        Fresh xslt (cacheAfter xslt pre) call := by
  refine forall_congr' fun pre => forall_congr' fun call => forall₂_congr fun post _ => ?_
  exact transform_right_iff (run_failed xslt pre)

section Example

/-- No stylesheet compiles. -/
def failing : Xslt String String Unit String String where
  getStyleSheet masterSource _ _ := masterSource
  newTemplates xslData := (.error xslData, [xslData])
  transform _ platformXML _ := .ok platformXML

def masterOnly : Call String where
  outputType := ⟨"webgui", [{ path := "platform.xsl", type := some "master" }]⟩
  templatePath := "template"
  xslFile := some
  templates := []
  applicationName := "manager"
  getResource _ := none
  platformXML := ""
  formatOutput := false

/-- The second time, the error is not known any more. -/
theorem second_failure_differs :
    (transform failing (cacheAfter failing []) masterOnly).2 =
      .platformTransformerException "platform.xsl" ∧
    (transform failing (cacheAfter failing [.transform masterOnly]) masterOnly).2 =
      .nullPointerException ∧
    ¬ ∀ (xslt : Xslt String String Unit String String) (events pre post : List (Event String))
      (call : Call String), events = pre ++ .transform call :: post →
        Right xslt call (transform xslt (cacheAfter xslt pre) call).2 := by
  have hfirst : (transform failing .empty masterOnly).2 =
      .platformTransformerException "platform.xsl" := by decide
  have hsecond : (transform failing (cacheAfter failing [.transform masterOnly]) masterOnly).2 =
      .nullPointerException := by decide
  refine ⟨hfirst, hsecond, fun h => ?_⟩
  have hright := (h failing _ [.transform masterOnly] [] masterOnly rfl).1
  rw [hfirst, hsecond] at hright
  cases hright

end Example

end Transform
end AppNG
