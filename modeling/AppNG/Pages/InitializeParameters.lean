import AppNG.Lib.JavaString
import AppNG.Pages.Definitions
import Mathlib.Logic.Function.Basic

/-!
# Pages.InitializeParameters

`ElementHelper.initializeParameters`: the values of the parameters of an action or a datasource, from
what it declares, what refers to it and what was posted.

A map is a function from its keys. The replacement of placeholders is a parameter, and may throw.

* `foldl_put`: what a map holds after a loop that puts what is not null.
* `bindParameters_eq`: the two loops give every declared parameter its value, if they are run.
* `initializes_iff`: all values follow one precedence, and what was posted only adds to them, if and
  only if no replacement throws, and there are reference parameters or nothing to be bound.
-/

namespace AppNG
namespace Pages

/-- Replaces the placeholders, of null as well. None: it throws. -/
abbrev Replacement := Option String → Option (Option String)

/-! ## The code -/

/-- The value of a reference parameter. None: it throws. -/
def newValue (replaceParameters : Replacement) (p : Param) : Option (Option String) :=
  (replaceParameters p.value).map fun newValue =>
    if Java.isEmpty newValue && !Java.isEmpty p.default then p.default else newValue

/-- What the loops do with a map: a value that is not null is put. -/
def put (params : String → Option String) (p : Param) : String → Option String :=
  match p.value with
  | some value => Function.update params p.name (some value)
  | none => params

/-- The reference parameters with their new values. None: it throws. -/
def setReferenceParams (replaceParameters : Replacement) (params : List Param) :
    Option (List Param) :=
  params.mapM fun p => (newValue replaceParameters p).map fun value => { p with value }

/-- The value of a declared parameter, by the map of the reference parameters. -/
def executionValue (referenceParameters : String → Option String) (p : Param) : Option String :=
  if Java.isEmpty p.value then
    let value := referenceParameters p.name
    if Java.isEmpty value && !Java.isEmpty p.default then p.default else value
  else p.value

/-- The declared parameters after the loops, and the map of their values. -/
structure Bound where
  executionParams : List Param
  executionParameters : String → Option String

/-- The loops over the parameters. None: it throws. -/
def bindParameters (replaceParameters : Replacement) (referenceParams executionParams : Option (List Param)) :
    Option Bound :=
  match referenceParams with
  | none => some ⟨executionParams.getD [], fun _ => none⟩
  | some referenceParams => do
    let referenceParams ← setReferenceParams replaceParameters referenceParams
    let referenceParameters := referenceParams.foldl put fun _ => none
    let executionParams := (executionParams.getD []).map fun p =>
      { p with value := executionValue referenceParameters p }
    return ⟨executionParams, executionParams.foldl put fun _ => none⟩

/-- The values of a parameter that was posted, with nothing for null. -/
def join (values : List (Option String)) : String := "|".intercalate (values.map (·.getD ""))

def addPostParameter (executionParameters : String → Option String)
    (entry : String × List (Option String)) : String → Option String :=
  match executionParameters entry.1 with
  | none => Function.update executionParameters entry.1 (some (join entry.2))
  | some _ => executionParameters

def addPostParameters (parametersList : List (String × List (Option String)))
    (executionParameters : String → Option String) : String → Option String :=
  parametersList.foldl addPostParameter executionParameters

/-- None: it throws. -/
def initializeParameters (replaceParameters : Replacement) (isPost : Bool)
    (parametersList : List (String × List (Option String)))
    (referenceParams executionParams : Option (List Param)) : Option Bound :=
  (bindParameters replaceParameters referenceParams executionParams).map fun bound =>
    if isPost then
      { bound with
        executionParameters := addPostParameters parametersList bound.executionParameters }
    else bound

/-! ## The precedence -/

def nonEmpty (value : Option String) : Option String := value.filter fun s => !s.isEmpty

/-- The first that is not empty: the parameter's own value, that of the reference parameter, and the
default. -/
def precedence (reference : Option String) (p : Param) : Option String :=
  ((nonEmpty p.value).or (nonEmpty reference)).or ((nonEmpty p.default).or reference)

/-- The last value for a name. -/
def lastValue (params : List Param) (name : String) : Option String :=
  params.reverse.findSome? fun p => if p.name = name then p.value else none

/-- The value of the reference parameter with a name, if there is one. -/
def referenceValue (replaceParameters : Replacement) (referenceParams : Option (List Param))
    (name : String) : Option String :=
  lastValue ((setReferenceParams replaceParameters (referenceParams.getD [])).getD []) name

/-- The declared parameters with the values that they should have. -/
def expected (replaceParameters : Replacement) (referenceParams executionParams : Option (List Param)) :
    List Param :=
  (executionParams.getD []).map fun p =>
    { p with value := precedence (referenceValue replaceParameters referenceParams p.name) p }

/-- Every declared parameter has its value, and what was posted only adds to them. -/
def Initializes (replaceParameters : Replacement) (isPost : Bool)
    (parametersList : List (String × List (Option String)))
    (referenceParams executionParams : Option (List Param)) : Prop :=
  ∃ bound result, bindParameters replaceParameters referenceParams executionParams = some bound ∧
    initializeParameters replaceParameters isPost parametersList referenceParams executionParams =
      some result ∧
    result.executionParams.map (fun p => (p.name, nonEmpty p.value)) =
      (expected replaceParameters referenceParams executionParams).map
        (fun p => (p.name, nonEmpty p.value)) ∧
    bound.executionParameters =
      lastValue (expected replaceParameters referenceParams executionParams) ∧
    ∀ name, result.executionParameters name = (bound.executionParameters name).or
      (if isPost then (parametersList.lookup name).map join else none)

/-! ## The loops -/

theorem put_apply (params : String → Option String) (p : Param) (name : String) :
    put params p name = (if p.name = name then p.value else none).or (params name) := by
  unfold put
  cases hvalue : p.value with
  | none => simp
  | some value =>
    by_cases hname : p.name = name
    · subst hname
      simp
    · simp [hname, Function.update_of_ne (Ne.symm hname)]

theorem foldl_put (params : List Param) : params.foldl put (fun _ => none) = lastValue params := by
  funext name
  induction params using List.reverseRecOn with
  | nil => rfl
  | append_singleton params p ih =>
    rw [List.foldl_append, List.foldl_cons, List.foldl_nil, put_apply, ih]
    simp only [lastValue, List.reverse_append, List.reverse_cons, List.reverse_nil, List.nil_append,
      List.singleton_append, List.findSome?_cons]
    cases (if p.name = name then p.value else none) <;> rfl

theorem nonEmpty_cases (value : Option String) :
    Java.isEmpty value = true ∧ nonEmpty value = none ∨
      Java.isEmpty value = false ∧ nonEmpty value = value ∧ value.isSome := by
  cases value with
  | none => exact .inl ⟨rfl, rfl⟩
  | some s =>
    cases hs : s.isEmpty with
    | true => exact .inl ⟨hs, by rw [nonEmpty, Option.filter, if_neg (by rw [hs]; decide)]⟩
    | false => exact .inr ⟨hs, by rw [nonEmpty, Option.filter, if_pos (by rw [hs]; rfl)], rfl⟩

theorem isEmpty_iff (value : Option String) : Java.isEmpty value = true ↔ nonEmpty value = none := by
  rcases nonEmpty_cases value with ⟨hempty, hnone⟩ | ⟨hempty, hsame, hsome⟩
  · simp only [hempty, hnone]
  · obtain ⟨s, rfl⟩ := Option.isSome_iff_exists.mp hsome
    simp only [hempty, hsame]
    simp

theorem executionValue_eq (referenceParameters : String → Option String) (p : Param) :
    executionValue referenceParameters p = precedence (referenceParameters p.name) p := by
  unfold executionValue precedence
  rcases nonEmpty_cases p.value with ⟨hown, hown'⟩ | ⟨hown, hown', hsome⟩
  · rw [hown, hown', if_pos rfl, Option.none_or]
    rcases nonEmpty_cases (referenceParameters p.name) with ⟨href, href'⟩ | ⟨href, href', hsome⟩
    · rw [href', Option.none_or]
      rcases nonEmpty_cases p.default with ⟨hdefault, hdefault'⟩ | ⟨hdefault, hdefault', hsome⟩
      · simp [href, hdefault, hdefault']
      · obtain ⟨value, hvalue⟩ := Option.isSome_iff_exists.mp hsome
        rw [hdefault', hvalue]
        rw [hvalue] at hdefault
        simp [href, hdefault]
    · obtain ⟨value, hvalue⟩ := Option.isSome_iff_exists.mp hsome
      rw [href', hvalue]
      rw [hvalue] at href
      simp [href]
  · obtain ⟨value, hvalue⟩ := Option.isSome_iff_exists.mp hsome
    rw [hown', hvalue]
    rw [hvalue] at hown
    simp [hown]

/-- The loops are run, with reference parameters. -/
theorem bindParameters_some {replaceParameters : Replacement} {referenceParams reference : List Param}
    (executionParams : Option (List Param))
    (h : setReferenceParams replaceParameters referenceParams = some reference) :
    bindParameters replaceParameters (some referenceParams) executionParams =
      some ⟨expected replaceParameters (some referenceParams) executionParams,
        lastValue (expected replaceParameters (some referenceParams) executionParams)⟩ := by
  have hreference : referenceValue replaceParameters (some referenceParams) = lastValue reference := by
    funext name
    rw [referenceValue, Option.getD_some, h, Option.getD_some]
  have hparams : (executionParams.getD []).map (fun p =>
      { p with value := executionValue (reference.foldl put fun _ => none) p }) =
        expected replaceParameters (some referenceParams) executionParams := by
    unfold expected
    rw [foldl_put, hreference]
    simp only [executionValue_eq]
  unfold bindParameters
  simp only [h, Option.bind_eq_bind, Option.bind_some]
  rw [hparams, foldl_put]
  rfl

theorem addPostParameters_apply (parametersList : List (String × List (Option String)))
    (params : String → Option String) (name : String) :
    addPostParameters parametersList params name =
      (params name).or ((parametersList.lookup name).map join) := by
  unfold addPostParameters
  induction parametersList generalizing params with
  | nil => simp
  | cons entry parametersList ih =>
    obtain ⟨param, values⟩ := entry
    rw [List.foldl_cons, ih, List.lookup_cons]
    by_cases hname : name = param
    · subst hname
      rw [beq_self_eq_true]
      cases hparam : params name with
      | none => simp [addPostParameter, hparam]
      | some value => simp [addPostParameter, hparam]
    · have hsame : addPostParameter params (param, values) name = params name := by
        simp only [addPostParameter]
        cases params param with
        | none => exact Function.update_of_ne hname _ _
        | some value => rfl
      rw [hsame, beq_eq_false_iff_ne.mpr hname]

/-! ## All sources -/

theorem mapM_isSome {α β : Type} {f : α → Option β} {as : List α} :
    (∃ bs, as.mapM f = some bs) ↔ ∀ a ∈ as, (f a).isSome := by
  induction as with
  | nil => simp
  | cons a as ih =>
    rw [List.forall_mem_cons, ← ih]
    cases hfa : f a with
    | none => simp [hfa]
    | some b =>
      cases has : as.mapM f with
      | none => simp [hfa, has]
      | some bs => simp [hfa, has]

theorem setReferenceParams_isSome {replaceParameters : Replacement} {params : List Param} :
    (∃ reference, setReferenceParams replaceParameters params = some reference) ↔
      ∀ p ∈ params, (replaceParameters p.value).isSome := by
  unfold setReferenceParams
  rw [mapM_isSome]
  simp [newValue]

/-- No declared parameter has a value or a default. -/
def Unbound (executionParams : Option (List Param)) : Prop :=
  ∀ p ∈ executionParams.getD [], Java.isEmpty p.value = true ∧ Java.isEmpty p.default = true

theorem precedence_none (p : Param) :
    precedence none p = none ↔ Java.isEmpty p.value = true ∧ Java.isEmpty p.default = true := by
  have hnone : nonEmpty none = none := rfl
  rw [isEmpty_iff, isEmpty_iff, precedence, hnone, Option.or_none, Option.or_none,
    Option.or_eq_none_iff]

theorem lastValue_eq_none {params : List Param} :
    lastValue params = (fun _ => none) ↔ ∀ p ∈ params, p.value = none := by
  constructor
  · intro h p hp
    have hname := congrFun h p.name
    have hnone := List.findSome?_eq_none_iff.mp hname p (List.mem_reverse.mpr hp)
    simpa using hnone
  · intro h
    funext name
    refine List.findSome?_eq_none_iff.mpr fun p hp => ?_
    rw [h p (List.mem_reverse.mp hp)]
    simp

theorem expected_none (replaceParameters : Replacement) (executionParams : Option (List Param)) :
    expected replaceParameters none executionParams =
      (executionParams.getD []).map fun p => { p with value := precedence none p } := rfl

/-- What was posted, besides. -/
theorem initializeParameters_of_bind {replaceParameters : Replacement} (isPost : Bool)
    (parametersList : List (String × List (Option String)))
    {referenceParams executionParams : Option (List Param)} {bound : Bound}
    (h : bindParameters replaceParameters referenceParams executionParams = some bound) :
    ∃ result, initializeParameters replaceParameters isPost parametersList referenceParams
        executionParams = some result ∧ result.executionParams = bound.executionParams ∧
      ∀ name, result.executionParameters name = (bound.executionParameters name).or
        (if isPost then (parametersList.lookup name).map join else none) := by
  unfold initializeParameters
  rw [h]
  cases isPost with
  | true => exact ⟨_, rfl, rfl, addPostParameters_apply _ _⟩
  | false => exact ⟨_, rfl, rfl, fun name => (Option.or_none).symm⟩

theorem initializes_iff (replaceParameters : Replacement) (isPost : Bool)
    (parametersList : List (String × List (Option String)))
    (referenceParams executionParams : Option (List Param)) :
    Initializes replaceParameters isPost parametersList referenceParams executionParams ↔
      (∀ p ∈ referenceParams.getD [], (replaceParameters p.value).isSome) ∧
        (referenceParams.isSome ∨ Unbound executionParams) := by
  cases referenceParams with
  | some referenceParams =>
    simp only [Option.getD_some, Option.isSome_some, true_or, and_true]
    constructor
    · rintro ⟨bound, -, hbind, -⟩
      refine setReferenceParams_isSome.mp ?_
      obtain ⟨reference, hreference, -⟩ := Option.bind_eq_some_iff.mp hbind
      exact ⟨reference, hreference⟩
    · intro h
      obtain ⟨reference, hreference⟩ := setReferenceParams_isSome.mpr h
      have hbind := bindParameters_some executionParams hreference
      obtain ⟨result, hresult, hparams, hpost⟩ :=
        initializeParameters_of_bind isPost parametersList hbind
      exact ⟨_, result, hbind, hresult, by rw [hparams], rfl, hpost⟩
  | none =>
    have hbind : bindParameters replaceParameters none executionParams =
        some ⟨executionParams.getD [], fun _ => none⟩ := rfl
    simp only [Option.getD_none, List.not_mem_nil, false_implies, implies_true, Option.isSome_none,
      Bool.false_eq_true, false_or, true_and]
    constructor
    · rintro ⟨bound, -, hbound, -, -, hmap, -⟩
      rw [hbind, Option.some.injEq] at hbound
      subst hbound
      have hvalues := lastValue_eq_none.mp hmap.symm
      intro p hp
      refine (precedence_none p).mp (hvalues { p with value := precedence none p } ?_)
      rw [expected_none]
      exact List.mem_map.mpr ⟨p, hp, rfl⟩
    · intro h
      obtain ⟨result, hresult, hparams, hpost⟩ :=
        initializeParameters_of_bind isPost parametersList hbind
      refine ⟨_, result, hbind, hresult, ?_, ?_, hpost⟩
      · rw [hparams, expected_none, List.map_map]
        refine List.map_congr_left fun p hp => ?_
        have hvalue : nonEmpty p.value = none := (isEmpty_iff _).mp (h p hp).1
        have hgiven : precedence none p = none := (precedence_none p).mpr (h p hp)
        simp only [Function.comp_apply, hvalue, hgiven]
        rfl
      · symm
        refine lastValue_eq_none.mpr fun p hp => ?_
        rw [expected_none] at hp
        obtain ⟨q, hq, rfl⟩ := List.mem_map.mp hp
        exact (precedence_none q).mpr (h q hq)

section Example

/-- A parameter with a default. -/
def idWithDefault : List Param := [⟨"id", none, some "1"⟩]

/-- The default is not bound, and what is posted takes its place. -/
theorem default_not_bound :
    (initializeParameters some true [("id", [some "2"])] none (some idWithDefault)).map
        (fun result => (result.executionParams, result.executionParameters "id")) =
      some ([⟨"id", none, some "1"⟩], some "2") ∧
    ¬ ∀ (replaceParameters : Replacement) (isPost : Bool)
      (parametersList : List (String × List (Option String)))
      (referenceParams executionParams : Option (List Param)),
      Initializes replaceParameters isPost parametersList referenceParams executionParams := by
  refine ⟨by decide, fun h => ?_⟩
  obtain ⟨bound, -, hbound, -, -, hmap, -⟩ := h some false [] none (some idWithDefault)
  obtain rfl := Option.some.inj hbound
  have hid := congrFun hmap "id"
  revert hid
  decide

end Example

end Pages
end AppNG
