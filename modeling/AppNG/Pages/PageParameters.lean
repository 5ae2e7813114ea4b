import AppNG.Lib.JavaString
import AppNG.Lib.Machine
import AppNG.Pages.Definitions
import Mathlib.Logic.Function.Basic

/-!
# Pages.PageParameters

`PageParameterProcessor`: the parameters of a page from a request, the segments of the path and the
session of an application, in this order.

A map is a function from its keys. What the session and the parameters hold for one name is a
`Cell`; a declaration changes the cell of its name only.
-/

namespace AppNG
namespace Pages
namespace PageParameterProcessor

inductive ParamType where
  | boolean | decimal | int | text
  deriving DecidableEq, Repr

structure TypedParam extends Param where
  type : Option ParamType
  deriving DecidableEq, Repr

/-- None: the element is missing. -/
structure UrlSchema where
  postParams : Option (List TypedParam)
  getParams : Option (List TypedParam)
  urlParams : Option (List TypedParam)
  deriving DecidableEq, Repr

structure Request where
  isPost : Bool
  isGet : Bool
  parameterNames : List String
  getParameter : String → Option String

/-- The values for the application, in the session and for the page. -/
structure State where
  session : String → Option String
  parameters : String → Option String

/-! ## The code -/

def isDigits (cs : List Char) : Bool := !cs.isEmpty && cs.all Char.isDigit

/-- What follows the sign. -/
def unsigned : List Char → List Char
  | '-' :: cs => cs
  | '+' :: cs => cs
  | cs => cs

/-- The upper case of a letter of `TRUE` or `FALSE`. That of the long s is an S. -/
def upper (c : Char) : Char := if c = 'ſ' then 'S' else c.toUpper

def isBoolean (cs : List Char) : Bool :=
  cs.map upper == ['T', 'R', 'U', 'E'] || cs.map upper == ['F', 'A', 'L', 'S', 'E']

def isInt (cs : List Char) : Bool := isDigits (unsigned cs)

def isDecimal (cs : List Char) : Bool :=
  isDigits ((unsigned cs).takeWhile Char.isDigit) &&
    match (unsigned cs).dropWhile Char.isDigit with
    | [] => true
    | c :: fraction => c == '.' && isDigits fraction

def isParamOk (value : Option String) (type : ParamType) : Bool :=
  match value with
  | none => true
  | some value =>
    match type with
    | .boolean => isBoolean value.toList
    | .decimal => isDecimal value.toList
    | .int => isInt value.toList
    | .text => true

/-- The value, and the session afterwards. -/
def synchronizeParamWithSession (sessionParamNames : List String) (p : TypedParam)
    (inputValue : Option String) (sessionParams : String → Option String) :
    Option String × (String → Option String) :=
  let (value, sessionParams) :=
    if p.name ∈ sessionParamNames then
      match inputValue with
      | none =>
        let valueFromSession := sessionParams p.name
        (if !Java.isEmpty valueFromSession then valueFromSession else p.default, sessionParams)
      | some value => (some value, Function.update sessionParams p.name (some value))
    else if Java.isEmpty inputValue then (p.default, sessionParams)
    else (inputValue, sessionParams)
  match value, p.type with
  | some _, some type =>
    if isParamOk value type then (value, sessionParams)
    else
      let value := if isParamOk p.default type then p.default else none
      (value, if p.name ∈ sessionParamNames then Function.update sessionParams p.name value
        else sessionParams)
  | _, _ => (value, sessionParams)

def addParam (name : String) (value : Option String) (parameters : String → Option String) :
    String → Option String :=
  match value with
  | some value => Function.update parameters name (some value)
  | none => parameters

/-- A parameter of a `GET` or a `POST`. -/
def processParam (sessionParamNames : List String) (request : Request) (st : State)
    (p : TypedParam) : State :=
  let (value, session) :=
    synchronizeParamWithSession sessionParamNames p (request.getParameter p.name) st.session
  { session
    parameters := if (st.parameters p.name).isNone then addParam p.name value st.parameters
      else st.parameters }

def isSort (parameter : String) : Bool := ['s', 'o', 'r', 't'].isPrefixOf parameter.toList

def addSortParam (request : Request) (parameters : String → Option String) (parameter : String) :
    String → Option String :=
  if isSort parameter then addParam parameter (request.getParameter parameter) parameters
  else parameters

def processParams (sessionParamNames : List String) (request : Request)
    (paramList : List TypedParam) (st : State) : State :=
  let st := paramList.foldl (processParam sessionParamNames request) st
  { st with parameters := request.parameterNames.foldl (addSortParam request) st.parameters }

/-- The loop over the parameters of the path: whether a value was added, the parameters with their
values, and the state afterwards. -/
structure UrlParams where
  paramAdded : Bool
  urlParams : List TypedParam
  state : State

def processUrlParams (sessionParamNames : List String) :
    List String → List TypedParam → State → UrlParams
  | _, [], st => ⟨false, [], st⟩
  | applicationUrlParameters, p :: ps, st =>
    let value := match applicationUrlParameters.head? with
      | some value => some value
      | none => (st.parameters p.name).filter fun existingParam => !existingParam.isEmpty
    let (newValue, session) := synchronizeParamWithSession sessionParamNames p value st.session
    let paramAdded := newValue.isSome && !(newValue == value || newValue == p.default)
    let rest := processUrlParams sessionParamNames applicationUrlParameters.tail ps
      ⟨session, addParam p.name newValue st.parameters⟩
    ⟨paramAdded || rest.paramAdded, { p with value := newValue } :: rest.urlParams, rest.state⟩

def processSessionParams (sessionParamNames : List String) (st : State) : State :=
  { st with
    parameters := sessionParamNames.foldl (fun parameters name =>
      addParam name (st.session name) parameters) st.parameters }

def processPostParams (sessionParamNames : List String) (request : Request)
    (postParams : Option (List TypedParam)) (st : State) : State :=
  match postParams with
  | some postParams =>
    if request.isPost then processParams sessionParamNames request postParams st else st
  | none => st

def processGetParams (sessionParamNames : List String) (request : Request)
    (getParams : Option (List TypedParam)) (st : State) : State :=
  match getParams with
  | some getParams =>
    if request.isGet then processParams sessionParamNames request getParams st else st
  | none => st

/-- The first step, with the parameters of the request. -/
def processRequestParams (sessionParamNames : List String) (request : Request)
    (urlSchema : UrlSchema) (session : String → Option String) : State :=
  processGetParams sessionParamNames request urlSchema.getParams
    (processPostParams sessionParamNames request urlSchema.postParams ⟨session, fun _ => none⟩)

def processPageParams (sessionParamNames : List String) (request : Request)
    (applicationUrlParameters : List String) (urlSchema : UrlSchema)
    (session : String → Option String) : UrlParams :=
  let st := processRequestParams sessionParamNames request urlSchema session
  let result := processUrlParams sessionParamNames applicationUrlParameters
    (urlSchema.urlParams.getD []) st
  { result with state := processSessionParams sessionParamNames result.state }

/-! ## One name -/

/-- What a declaration says of the values. -/
structure Rule where
  type : Option ParamType
  default : Option String
  deriving DecidableEq, Repr

def TypedParam.rule (p : TypedParam) : Rule := ⟨p.type, p.default⟩

def Rule.Accepts (rule : Rule) (value : Option String) : Prop :=
  ∀ type, rule.type = some type → isParamOk value type = true

/-- The value, if it is of the type, else the default, if that is. -/
def Rule.checked (rule : Rule) (value : Option String) : Option String :=
  match value, rule.type with
  | some _, some type =>
    if isParamOk value type then value
    else if isParamOk rule.default type then rule.default else none
  | _, _ => value

/-- What there is without a value. -/
def Rule.fallback (rule : Rule) : Option String := rule.checked rule.default

/-- The value before it is checked. -/
def Rule.offered (rule : Rule) (isSessionParam : Bool) (session input : Option String) :
    Option String :=
  if isSessionParam then input.or (if Java.isEmpty session then rule.default else session)
  else if Java.isEmpty input then rule.default else input

/-- What the session holds afterwards. -/
def Rule.kept (rule : Rule) (isSessionParam : Bool) (session input : Option String) :
    Option String :=
  if isSessionParam then
    match input with
    | some value => rule.checked (some value)
    | none =>
      let offered := rule.offered isSessionParam session input
      if rule.checked offered = offered then session else rule.checked offered
  else session

structure Cell where
  session : Option String
  parameter : Option String
  deriving DecidableEq, Repr

def State.cell (st : State) (name : String) : Cell := ⟨st.session name, st.parameters name⟩

/-- A declaration among the parameters of the request. -/
def Cell.listed (isSessionParam : Bool) (input : Option String) (c : Cell) (rule : Rule) : Cell where
  session := rule.kept isSessionParam c.session input
  parameter := c.parameter.or (rule.checked (rule.offered isSessionParam c.session input))

/-- What a declaration in the path takes. -/
def Cell.input (segment : Option String) (c : Cell) : Option String :=
  segment.or (c.parameter.filter fun existingParam => !existingParam.isEmpty)

/-- A declaration in the path, with the segment at its place. -/
def Cell.inPath (isSessionParam : Bool) (c : Cell) (d : Rule × Option String) : Cell where
  session := d.1.kept isSessionParam c.session (c.input d.2)
  parameter := (d.1.checked (d.1.offered isSessionParam c.session (c.input d.2))).or c.parameter

/-- What is in the session goes before the others. -/
def Cell.merged (isSessionParam : Bool) (c : Cell) : Cell :=
  if isSessionParam then { c with parameter := c.session.or c.parameter } else c

section Checked

variable {rule : Rule} {value input session : Option String} {isSessionParam : Bool}

@[simp] theorem Rule.checked_none : rule.checked none = none := rfl

theorem Rule.accepts_none : rule.Accepts none := fun _ _ => rfl

theorem Rule.checked_of_accepts (h : rule.Accepts value) : rule.checked value = value := by
  unfold Rule.checked
  split
  · rename_i type htype
    rw [if_pos (h type htype)]
  · rfl

theorem Rule.checked_cases (rule : Rule) (value : Option String) :
    rule.Accepts value ∧ rule.checked value = value ∨
      ¬ rule.Accepts value ∧ rule.checked value = rule.fallback ∧
        (rule.Accepts rule.default ∨ rule.fallback = none) := by
  by_cases h : rule.Accepts value
  · exact .inl ⟨h, Rule.checked_of_accepts h⟩
  · refine .inr ⟨h, ?_⟩
    unfold Rule.Accepts at h
    push Not at h
    obtain ⟨type, htype, hok⟩ := h
    cases value with
    | none => exact absurd rfl hok
    | some v =>
      have hchecked : rule.checked (some v) =
          if isParamOk rule.default type then rule.default else none := by
        simp only [Rule.checked, htype]
        rw [if_neg hok]
      by_cases hdefault : isParamOk rule.default type = true
      · have haccepts : rule.Accepts rule.default := by
          intro other hother
          rw [htype, Option.some.injEq] at hother
          exact hother ▸ hdefault
        rw [hchecked, if_pos hdefault]
        exact ⟨(Rule.checked_of_accepts haccepts).symm, .inl haccepts⟩
      · have hfallback : rule.fallback = none := by
          cases hvalue : rule.default with
          | none => rw [hvalue] at hdefault; exact absurd rfl hdefault
          | some d =>
            rw [hvalue] at hdefault
            simp only [Rule.fallback, hvalue, Rule.checked, htype]
            rw [if_neg hdefault, if_neg hdefault]
        rw [hchecked, if_neg hdefault]
        exact ⟨hfallback.symm, .inr hfallback⟩

theorem Rule.accepts_fallback : rule.Accepts rule.fallback := by
  rcases rule.checked_cases rule.default with ⟨haccepts, hsame⟩ | ⟨hnot, -, haccepts | hnone⟩
  · rw [Rule.fallback, hsame]
    exact haccepts
  · exact absurd haccepts hnot
  · rw [hnone]
    exact Rule.accepts_none

theorem Rule.accepts_checked : rule.Accepts (rule.checked value) := by
  rcases rule.checked_cases value with ⟨haccepts, hsame⟩ | ⟨-, hfallback, -⟩
  · rw [hsame]
    exact haccepts
  · rw [hfallback]
    exact Rule.accepts_fallback

theorem Rule.checked_checked : rule.checked (rule.checked value) = rule.checked value :=
  Rule.checked_of_accepts Rule.accepts_checked

/-- A value that is sent leaves nothing to fall back to. -/
theorem Rule.checked_or_fallback {v : String} :
    (rule.checked (some v)).or rule.fallback = rule.checked (some v) := by
  rcases rule.checked_cases (some v) with ⟨-, hsame⟩ | ⟨-, hfallback, -⟩
  · rw [hsame]
    rfl
  · rw [hfallback, Option.or_self]

theorem isEmpty_iff_none_or {value : Option String} :
    Java.isEmpty value = true ↔ value = none ∨ value = some "" := by
  cases value with
  | none => simp [Java.isEmpty]
  | some v => simp [Java.isEmpty]

theorem Rule.kept_empty (h : Java.isEmpty session = true) : rule.kept true session none =
    if rule.checked rule.default = rule.default then session else rule.fallback := by
  simp [Rule.kept, Rule.offered, h, Rule.fallback]

theorem Rule.kept_nonempty (h : ¬ Java.isEmpty session = true) :
    rule.kept true session none = rule.checked session := by
  simp only [Rule.kept, Rule.offered, if_true, Option.none_or, if_neg h]
  split
  · rename_i hsame
    exact hsame.symm
  · rfl

theorem Rule.fallback_cases (rule : Rule) : rule.fallback = rule.default ∨ rule.fallback = none := by
  rcases rule.checked_cases rule.default with ⟨-, hsame⟩ | ⟨hnot, -, haccepts | hnone⟩
  · exact .inl hsame
  · exact absurd haccepts hnot
  · exact .inr hnone

theorem input_none_cases (c : Cell) :
    c.input none = none ∧ Java.isEmpty c.parameter = true ∨
      ∃ e, e ≠ "" ∧ c.input none = some e ∧ c.parameter = some e := by
  have hinput : c.input none = c.parameter.filter fun existingParam => !existingParam.isEmpty := rfl
  cases hparam : c.parameter with
  | none => exact .inl ⟨by rw [hinput, hparam]; rfl, rfl⟩
  | some e =>
    by_cases he : e = ""
    · exact .inl ⟨by rw [hinput, hparam, he]; rfl, by rw [he]; rfl⟩
    · refine .inr ⟨e, he, ?_, rfl⟩
      rw [hinput, hparam, Option.filter_eq_some_iff]
      simpa using he

/-- The check of a value, with the session before it. -/
theorem check_eq (sessionParamNames : List String) (p : TypedParam) (value : Option String)
    (session : String → Option String) :
    (match value, p.type with
      | some _, some type =>
        if isParamOk value type then (value, session)
        else
          let value := if isParamOk p.default type then p.default else none
          (value, if p.name ∈ sessionParamNames then Function.update session p.name value
            else session)
      | _, _ => (value, session)) =
      (p.rule.checked value,
        if p.name ∈ sessionParamNames ∧ p.rule.checked value ≠ value then
          Function.update session p.name (p.rule.checked value)
        else session) := by
  have hchecked : p.rule.checked value = match value, p.type with
      | some _, some type =>
        if isParamOk value type then value
        else if isParamOk p.default type then p.default else none
      | _, _ => value := rfl
  cases value with
  | none => simp
  | some v =>
    cases htype : p.type with
    | none =>
      simp only [htype] at hchecked
      rw [hchecked, if_neg fun h => h.2 rfl]
    | some type =>
      simp only [htype] at hchecked ⊢
      by_cases hok : isParamOk (some v) type = true
      · rw [if_pos hok] at hchecked ⊢
        rw [hchecked, if_neg fun h => h.2 rfl]
      · rw [if_neg hok] at hchecked ⊢
        have hne : p.rule.checked (some v) ≠ some v := by
          intro hsame
          have haccepts : p.rule.Accepts (p.rule.checked (some v)) := Rule.accepts_checked
          rw [hsame] at haccepts
          exact hok (haccepts type htype)
        rw [← hchecked]
        simp only [hne, ne_eq, not_false_eq_true, and_true]

theorem synchronize_eq (sessionParamNames : List String) (p : TypedParam) (input : Option String)
    (session : String → Option String) :
    synchronizeParamWithSession sessionParamNames p input session =
      (p.rule.checked (p.rule.offered (decide (p.name ∈ sessionParamNames)) (session p.name) input),
        Function.update session p.name
          (p.rule.kept (decide (p.name ∈ sessionParamNames)) (session p.name) input)) := by
  have hdefault : p.rule.default = p.default := rfl
  unfold synchronizeParamWithSession
  simp only [check_eq]
  by_cases hname : p.name ∈ sessionParamNames
  · cases input with
    | some v =>
      simp only [hname, if_true, true_and, decide_true, Rule.offered, Rule.kept, Option.some_or]
      by_cases hsame : p.rule.checked (some v) = some v
      · rw [if_neg (not_not.mpr hsame), hsame]
      · rw [if_pos hsame, Function.update_idem]
    | none =>
      simp only [hname, if_true, true_and, decide_true, Rule.offered, Rule.kept, Option.none_or,
        Bool.not_eq_true', ← Bool.not_eq_true, ite_not, hdefault]
      generalize (if Java.isEmpty (session p.name) = true then p.default else session p.name) =
        offered
      by_cases hsame : p.rule.checked offered = offered
      · rw [if_pos hsame, if_pos hsame, Function.update_eq_self]
      · rw [if_neg hsame, if_neg hsame]
  · have hself : Function.update session p.name (session p.name) = session :=
      Function.update_eq_self _ _
    by_cases hempty : Java.isEmpty input = true
    · simp [hname, hempty, Rule.offered, Rule.kept, hdefault]
    · simp [hname, hempty, Rule.offered, Rule.kept]

end Checked

/-! ## The cell of a name -/

section Cells

variable {sessionParamNames : List String} {name : String} {request : Request}

/-- The declarations among the parameters of the request that are processed. -/
def listed (request : Request) (urlSchema : UrlSchema) : List TypedParam :=
  (if request.isPost then urlSchema.postParams.getD [] else []) ++
    if request.isGet then urlSchema.getParams.getD [] else []

/-- The declarations in the path, each with the segment at its place. -/
def inPath : List String → List TypedParam → List (TypedParam × Option String)
  | _, [] => []
  | applicationUrlParameters, p :: ps =>
    (p, applicationUrlParameters.head?) :: inPath applicationUrlParameters.tail ps

theorem map_fst_inPath (applicationUrlParameters : List String) (ps : List TypedParam) :
    (inPath applicationUrlParameters ps).map Prod.fst = ps := by
  induction ps generalizing applicationUrlParameters with
  | nil => rfl
  | cons p ps ih => rw [inPath, List.map_cons, ih]

theorem addParam_apply (param : String) (value : Option String)
    (parameters : String → Option String) :
    addParam param value parameters name =
      if param = name then value.or (parameters name) else parameters name := by
  cases value with
  | none => simp [addParam]
  | some v =>
    rw [addParam, Function.update_apply]
    simp only [eq_comm, Option.some_or]

theorem processParam_cell (st : State) (p : TypedParam) :
    (processParam sessionParamNames request st p).cell name =
      if p.name = name then
        (st.cell name).listed (decide (name ∈ sessionParamNames)) (request.getParameter name) p.rule
      else st.cell name := by
  unfold processParam
  rw [synchronize_eq]
  by_cases hname : p.name = name
  · subst hname
    rw [if_pos rfl]
    simp only [State.cell, Cell.listed, Function.update_self, Cell.mk.injEq, true_and]
    cases hparam : st.parameters p.name with
    | none => simp [addParam_apply, hparam]
    | some v => simp [hparam]
  · rw [if_neg hname]
    simp only [State.cell, Function.update_of_ne (Ne.symm hname), Cell.mk.injEq, true_and]
    split
    · rw [addParam_apply, if_neg hname]
    · rfl

theorem addSortParam_apply {parameter : String} (h : isSort name = true → parameter ≠ name)
    (parameters : String → Option String) :
    addSortParam request parameters parameter name = parameters name := by
  unfold addSortParam
  split
  · rename_i hsort
    rw [addParam_apply, if_neg fun heq => h (by rw [← heq]; exact hsort) heq]
  · rfl

theorem foldl_cell {α : Type} {step : State → α → State} {move : Cell → α → Cell}
    {owner : α → String}
    (hstep : ∀ st a, (step st a).cell name =
      if owner a = name then move (st.cell name) a else st.cell name) (as : List α) (st : State) :
    (as.foldl step st).cell name =
      (as.filter fun a => owner a = name).foldl move (st.cell name) := by
  induction as generalizing st with
  | nil => rfl
  | cons a as ih =>
    rw [List.foldl_cons, ih, hstep]
    by_cases hname : owner a = name
    · rw [if_pos hname, List.filter_cons_of_pos (by simpa using hname), List.foldl_cons]
    · rw [if_neg hname, List.filter_cons_of_neg (by simpa using hname)]

theorem processParams_cell (hsort : isSort name = true → name ∉ request.parameterNames)
    (paramList : List TypedParam) (st : State) :
    (processParams sessionParamNames request paramList st).cell name =
      (paramList.filter fun p => p.name = name).foldl (fun c p =>
        c.listed (decide (name ∈ sessionParamNames)) (request.getParameter name) p.rule)
        (st.cell name) := by
  have hsorts : ∀ (ns : List String), (isSort name = true → name ∉ ns) →
      ∀ parameters : String → Option String,
        ns.foldl (addSortParam request) parameters name = parameters name := by
    intro ns
    induction ns with
    | nil => intro _ parameters; rfl
    | cons n ns ih =>
      intro hns parameters
      rw [List.foldl_cons, ih fun h hmem => hns h (List.mem_cons_of_mem n hmem),
        addSortParam_apply fun h heq => hns h (by rw [heq]; exact List.mem_cons_self)]
  have hcell : (processParams sessionParamNames request paramList st).cell name =
      (paramList.foldl (processParam sessionParamNames request) st).cell name := by
    simp only [processParams, State.cell, hsorts _ hsort]
  rw [hcell]
  exact foldl_cell processParam_cell paramList st

/-- What the parameters of a request leave for a name. -/
def requestCell (sessionParamNames : List String) (request : Request) (urlSchema : UrlSchema)
    (name : String) (session : Option String) : Cell :=
  ((listed request urlSchema).filter fun p => p.name = name).foldl (fun c p =>
    c.listed (decide (name ∈ sessionParamNames)) (request.getParameter name) p.rule) ⟨session, none⟩

theorem processRequestParams_cell (hsort : isSort name = true → name ∉ request.parameterNames)
    (urlSchema : UrlSchema) (session : String → Option String) :
    (processRequestParams sessionParamNames request urlSchema session).cell name =
      requestCell sessionParamNames request urlSchema name (session name) := by
  let init : State := ⟨session, fun _ => none⟩
  have hpost : ∀ st, (processPostParams sessionParamNames request urlSchema.postParams st).cell name =
      ((if request.isPost then urlSchema.postParams.getD [] else []).filter fun p =>
        p.name = name).foldl (fun c p => c.listed (decide (name ∈ sessionParamNames))
          (request.getParameter name) p.rule) (st.cell name) := by
    intro st
    unfold processPostParams
    cases urlSchema.postParams with
    | none => simp
    | some postParams =>
      by_cases h : request.isPost = true
      · simp only [h, if_true, Option.getD_some]
        exact processParams_cell hsort postParams st
      · simp [h]
  have hget : ∀ st, (processGetParams sessionParamNames request urlSchema.getParams st).cell name =
      ((if request.isGet then urlSchema.getParams.getD [] else []).filter fun p =>
        p.name = name).foldl (fun c p => c.listed (decide (name ∈ sessionParamNames))
          (request.getParameter name) p.rule) (st.cell name) := by
    intro st
    unfold processGetParams
    cases urlSchema.getParams with
    | none => simp
    | some getParams =>
      by_cases h : request.isGet = true
      · simp only [h, if_true, Option.getD_some]
        exact processParams_cell hsort getParams st
      · simp [h]
  rw [processRequestParams, hget, hpost, ← List.foldl_append, ← List.filter_append]
  rfl

/-- The value of a parameter of the path. -/
def urlValue (sessionParamNames : List String) (p : TypedParam) (segment : Option String)
    (c : Cell) : Option String :=
  p.rule.checked (p.rule.offered (decide (p.name ∈ sessionParamNames)) c.session (c.input segment))

def urlState (sessionParamNames : List String) (p : TypedParam) (segment : Option String)
    (st : State) : State where
  session := Function.update st.session p.name (p.rule.kept (decide (p.name ∈ sessionParamNames))
    (st.session p.name) ((st.cell p.name).input segment))
  parameters := addParam p.name (urlValue sessionParamNames p segment (st.cell p.name)) st.parameters

theorem urlState_cell (p : TypedParam) (segment : Option String) (st : State) :
    (urlState sessionParamNames p segment st).cell name =
      if p.name = name then
        (st.cell name).inPath (decide (name ∈ sessionParamNames)) (p.rule, segment)
      else st.cell name := by
  by_cases hname : p.name = name
  · subst hname
    simp [urlState, State.cell, Cell.inPath, addParam_apply, urlValue]
  · rw [if_neg hname]
    simp only [urlState, State.cell, addParam_apply, if_neg hname,
      Function.update_of_ne (Ne.symm hname)]

theorem processUrlParams_cons (applicationUrlParameters : List String) (p : TypedParam)
    (ps : List TypedParam) (st : State) :
    let segment := applicationUrlParameters.head?
    let value := urlValue sessionParamNames p segment (st.cell p.name)
    let rest := processUrlParams sessionParamNames applicationUrlParameters.tail ps
      (urlState sessionParamNames p segment st)
    processUrlParams sessionParamNames applicationUrlParameters (p :: ps) st =
      ⟨(value.isSome && !(value == (st.cell p.name).input segment || value == p.default)) ||
          rest.paramAdded, { p with value } :: rest.urlParams, rest.state⟩ := by
  have hinput : (match applicationUrlParameters.head? with
      | some value => some value
      | none => (st.parameters p.name).filter fun existingParam => !existingParam.isEmpty) =
      (st.cell p.name).input applicationUrlParameters.head? := by
    cases applicationUrlParameters.head? <;> rfl
  rw [processUrlParams]
  simp only [hinput, synchronize_eq]
  rfl

theorem processUrlParams_cell (applicationUrlParameters : List String) (ps : List TypedParam)
    (st : State) :
    (processUrlParams sessionParamNames applicationUrlParameters ps st).state.cell name =
      ((inPath applicationUrlParameters ps).filter fun d => d.1.name = name).foldl (fun c d =>
        c.inPath (decide (name ∈ sessionParamNames)) (d.1.rule, d.2)) (st.cell name) := by
  induction ps generalizing applicationUrlParameters st with
  | nil => rfl
  | cons p ps ih =>
    rw [processUrlParams_cons, inPath, ih, urlState_cell]
    by_cases hname : p.name = name
    · rw [if_pos hname, List.filter_cons_of_pos (by simpa using hname), List.foldl_cons]
    · rw [if_neg hname, List.filter_cons_of_neg (by simpa using hname)]

theorem processSessionParams_cell (st : State) :
    (processSessionParams sessionParamNames st).cell name =
      (st.cell name).merged (decide (name ∈ sessionParamNames)) := by
  have hfold : ∀ (ns : List String) (parameters : String → Option String),
      ns.foldl (fun parameters n => addParam n (st.session n) parameters) parameters name =
        if name ∈ ns then (st.session name).or (parameters name) else parameters name := by
    intro ns
    induction ns with
    | nil => intro parameters; rfl
    | cons n ns ih =>
      intro parameters
      rw [List.foldl_cons, ih, addParam_apply]
      by_cases hn : n = name
      · subst hn
        rw [if_pos rfl, if_pos List.mem_cons_self]
        cases st.session n <;> simp
      · simp [hn, Ne.symm hn]
  simp only [processSessionParams, State.cell, hfold, Cell.merged]
  split <;> simp_all

/-- All that a request changes for a name. -/
theorem processPageParams_cell (hsort : isSort name = true → name ∉ request.parameterNames)
    (applicationUrlParameters : List String) (urlSchema : UrlSchema) (session : String → Option String) :
    (processPageParams sessionParamNames request applicationUrlParameters urlSchema
        session).state.cell name =
      (((inPath applicationUrlParameters (urlSchema.urlParams.getD [])).filter fun d =>
        d.1.name = name).foldl (fun c d =>
          c.inPath (decide (name ∈ sessionParamNames)) (d.1.rule, d.2))
        (requestCell sessionParamNames request urlSchema name (session name))).merged
        (decide (name ∈ sessionParamNames)) := by
  simp only [processPageParams]
  rw [processSessionParams_cell, processUrlParams_cell, processRequestParams_cell hsort]

end Cells

end PageParameterProcessor
end Pages
end AppNG
