import AppNG.Pages.PageParameters

/-!
# Pages.SessionParameters

The session parameters of an application over a sequence of requests.

* `checked_request`: a request leaves a value of the type, or none, in the session and for the page.
* `request_unsent`: a request that sends no value leaves the session as it is, but for the default.
* `request_sent`: otherwise the session holds what the check makes of the last value.
* `session_param_kept`: both along every run.
-/

namespace AppNG
namespace Pages
namespace PageParameterProcessor

structure PageRequest where
  request : Request
  applicationUrlParameters : List String
  urlSchema : UrlSchema

/-- The declarations that are processed. -/
def PageRequest.declarations (r : PageRequest) : List TypedParam :=
  listed r.request r.urlSchema ++ r.urlSchema.urlParams.getD []

def PageRequest.process (r : PageRequest) (sessionParamNames : List String)
    (session : String → Option String) : State :=
  (processPageParams sessionParamNames r.request r.applicationUrlParameters r.urlSchema session).state

/-- One request. What a page stores for itself has a name that starts with `sort`. -/
def Serves (sessionParamNames : List String) (session : String → Option String) (r : PageRequest)
    (session' : String → Option String) : Prop :=
  ∀ name, isSort name = false → session' name = (r.process sessionParamNames session).session name

def PageRequest.Processes (r : PageRequest) (name : String) : Prop :=
  ∃ p ∈ r.declarations, p.name = name

def PageRequest.HasType (r : PageRequest) (name : String) (type : ParamType) : Prop :=
  ∀ p ∈ r.declarations, p.name = name → p.type = some type

/-- The declarations of a name in the path. -/
def PageRequest.pathOf (r : PageRequest) (name : String) : List (TypedParam × Option String) :=
  (inPath r.applicationUrlParameters (r.urlSchema.urlParams.getD [])).filter fun d => d.1.name = name

/-- All declarations of a name say the same, and at most one of them is in the path. -/
structure PageRequest.Follows (r : PageRequest) (name : String) (rule : Rule) : Prop where
  agree : ∀ p ∈ r.declarations, p.name = name → p.rule = rule
  once : (r.pathOf name).length ≤ 1

/-- The values that a request sends for a name, in the order in which they are processed. -/
def PageRequest.sent (name : String) (r : PageRequest) : List String :=
  (if (listed r.request r.urlSchema).any fun p => p.name = name then
    (r.request.getParameter name).toList else []) ++ (r.pathOf name).filterMap Prod.snd

def lastSent (name : String) (requests : List PageRequest) : Option String :=
  (requests.flatMap (PageRequest.sent name)).getLast?

/-- What is seen after a value was sent: the value, if it is of the type, else the default, if that
is; and only the default, if none was. An empty value may count as none. -/
def Rule.Sees (rule : Rule) (last seen : Option String) : Prop :=
  (seen = match last with
    | some value => rule.checked (some value)
    | none => rule.fallback) ∨
    last = some "" ∧ seen = rule.fallback

/-! ## The type -/

section Typed

variable {type : ParamType} {rule : Rule} {session input : Option String}

theorem not_isParamOk_empty (htype : type ≠ .text) : isParamOk (some "") type = false := by
  cases type with
  | boolean => rfl
  | decimal => rfl
  | int => rfl
  | text => exact absurd rfl htype

theorem isParamOk_text (value : Option String) : isParamOk value .text = true := by
  cases value with
  | none => rfl
  | some v => rfl

theorem isParamOk_or {value other : Option String} (hvalue : isParamOk value type = true)
    (hother : isParamOk other type = true) : isParamOk (value.or other) type = true := by
  cases value with
  | none => exact hother
  | some v => exact hvalue

theorem Rule.checked_ok {value : Option String} (h : rule.type = some type) :
    isParamOk (rule.checked value) type = true :=
  Rule.accepts_checked type h

/-- An empty value in the session is not looked at again. -/
theorem Rule.kept_ok (h : rule.type = some type) (hsession : session ≠ some "") :
    isParamOk (rule.kept true session input) type = true := by
  cases input with
  | some v => exact Rule.checked_ok h
  | none =>
    by_cases hempty : Java.isEmpty session = true
    · have hnone := (isEmpty_iff_none_or.mp hempty).resolve_right hsession
      rw [Rule.kept_empty hempty]
      split
      · rw [hnone]
        rfl
      · exact Rule.checked_ok h
    · rw [Rule.kept_nonempty hempty]
      exact Rule.checked_ok h

structure Cell.Ok (type : ParamType) (c : Cell) : Prop where
  session : isParamOk c.session type = true
  parameter : isParamOk c.parameter type = true

/-- Before a declaration was processed, only the empty value is not in the session. -/
structure Cell.Fresh (type : ParamType) (c : Cell) : Prop where
  session : c.session ≠ some ""
  parameter : isParamOk c.parameter type = true

theorem Cell.Ok.fresh (htype : type ≠ .text) {c : Cell} (h : c.Ok type) : c.Fresh type where
  session hempty := by
    have hok := h.session
    rw [hempty, not_isParamOk_empty htype] at hok
    cases hok
  parameter := h.parameter

theorem Cell.Fresh.listed (h : rule.type = some type) {c : Cell} (hc : c.Fresh type) :
    (c.listed true input rule).Ok type where
  session := Rule.kept_ok h hc.session
  parameter := isParamOk_or hc.parameter (Rule.checked_ok h)

theorem Cell.Fresh.inPath (h : rule.type = some type) {c : Cell} (hc : c.Fresh type)
    (segment : Option String) : (c.inPath true (rule, segment)).Ok type where
  session := Rule.kept_ok h hc.session
  parameter := isParamOk_or (Rule.checked_ok h) hc.parameter

theorem Cell.Fresh.foldl (htype : type ≠ .text) {α : Type} (move : Cell → α → Cell) (as : List α)
    (hmove : ∀ c, ∀ a ∈ as, c.Fresh type → (move c a).Ok type) {c : Cell} (hc : c.Fresh type) :
    (as.foldl move c).Fresh type ∧ (as ≠ [] → (as.foldl move c).Ok type) := by
  induction as using List.reverseRecOn with
  | nil => exact ⟨hc, fun h => absurd rfl h⟩
  | append_singleton as a ih =>
    have hfresh := (ih fun c b hb => hmove c b (List.mem_append_left _ hb)).1
    have hok := hmove _ a (by simp) hfresh
    rw [List.foldl_append]
    exact ⟨hok.fresh htype, fun _ => hok⟩

end Typed

section Request

variable {sessionParamNames : List String} {name : String} {r : PageRequest}
  {session : String → Option String}

theorem mem_pathOf {d : TypedParam × Option String} (h : d ∈ r.pathOf name) :
    d.1 ∈ r.declarations ∧ d.1.name = name := by
  obtain ⟨hd, hname⟩ := List.mem_filter.mp h
  refine ⟨List.mem_append_right _ ?_, by simpa using hname⟩
  rw [← map_fst_inPath r.applicationUrlParameters (r.urlSchema.urlParams.getD [])]
  exact List.mem_map_of_mem hd

/-- The cell of a session parameter, before it is merged. -/
def PageRequest.cell (r : PageRequest) (sessionParamNames : List String) (name : String)
    (session : Option String) : Cell :=
  (r.pathOf name).foldl (fun c d => c.inPath true (d.1.rule, d.2))
    (requestCell sessionParamNames r.request r.urlSchema name session)

theorem process_cell (hname : name ∈ sessionParamNames) (hsort : isSort name = false) :
    (r.process sessionParamNames session).cell name =
      (r.cell sessionParamNames name (session name)).merged true := by
  rw [PageRequest.process, processPageParams_cell fun h => absurd (hsort ▸ h) Bool.false_ne_true,
    decide_eq_true hname]
  rfl

theorem processes_iff_filter : r.Processes name ↔
    ((listed r.request r.urlSchema).filter fun p => p.name = name) ≠ [] ∨ r.pathOf name ≠ [] := by
  have hpath : r.pathOf name = [] ↔ ∀ p ∈ r.urlSchema.urlParams.getD [], p.name ≠ name := by
    rw [← map_fst_inPath r.applicationUrlParameters (r.urlSchema.urlParams.getD []),
      PageRequest.pathOf, List.filter_eq_nil_iff]
    simp
  rw [ne_eq, ne_eq, hpath, List.filter_eq_nil_iff, PageRequest.Processes, PageRequest.declarations]
  simp only [List.mem_append, decide_eq_true_eq, or_and_right, exists_or]
  push Not
  rfl

theorem checked_request (hname : name ∈ sessionParamNames) {type : ParamType} (htype : type ≠ .text)
    (h : r.HasType name type) {s : Option String} (hs : s ≠ some "") :
    (r.cell sessionParamNames name s).Fresh type ∧
      (r.Processes name → (r.cell sessionParamNames name s).Ok type) := by
  have hinit : Cell.Fresh type ⟨s, none⟩ := ⟨hs, rfl⟩
  have hlisted := hinit.foldl htype
    (fun c p => c.listed (decide (name ∈ sessionParamNames)) (r.request.getParameter name) p.rule)
    ((listed r.request r.urlSchema).filter fun p => p.name = name) fun c p hp hc => by
        obtain ⟨hp, hpname⟩ := List.mem_filter.mp hp
        rw [decide_eq_true hname]
        exact hc.listed (h p (List.mem_append_left _ hp) (by simpa using hpname))
  have hpath := hlisted.1.foldl htype
    (fun (c : Cell) (d : TypedParam × Option String) => c.inPath true (d.1.rule, d.2))
    (r.pathOf name) fun c d hd hc =>
      hc.inPath (h d.1 (mem_pathOf hd).1 (mem_pathOf hd).2) d.2
  refine ⟨hpath.1, fun hprocesses => ?_⟩
  cases hnone : r.pathOf name with
  | cons d ds => exact hpath.2 (by rw [hnone]; exact List.cons_ne_nil _ _)
  | nil =>
    have hne := (processes_iff_filter.mp hprocesses).resolve_right fun hne => hne hnone
    rw [PageRequest.cell, hnone]
    exact hlisted.2 hne

end Request

/-! ## The values -/

section Values

variable {rule : Rule} {session : Option String}

/-- What a declaration gives without a value, by the session. -/
def Rule.unsent (rule : Rule) (session : Option String) : Option String :=
  if Java.isEmpty session then rule.fallback else session

theorem Rule.accepts_of_empty (h : rule.Accepts (some "")) (value : Option String) :
    rule.Accepts value := by
  intro type htype
  cases type with
  | text => cases value <;> rfl
  | boolean => exact absurd (h _ htype) Bool.false_ne_true
  | decimal => exact absurd (h _ htype) Bool.false_ne_true
  | int => exact absurd (h _ htype) Bool.false_ne_true

theorem Rule.kept_unsent (h : rule.Accepts session) : rule.kept true session none = session := by
  by_cases hempty : Java.isEmpty session = true
  · rw [Rule.kept_empty hempty]
    split
    · rfl
    · rename_i hdefault
      rcases rule.checked_cases rule.default with ⟨-, hsame⟩ | ⟨hnot, -, haccepts | hnone⟩
      · exact absurd hsame hdefault
      · exact absurd haccepts hnot
      · rcases isEmpty_iff_none_or.mp hempty with rfl | rfl
        · exact hnone
        · exact absurd (Rule.accepts_of_empty h _) hnot
  · rw [Rule.kept_nonempty hempty, Rule.checked_of_accepts h]

theorem Rule.checked_unsent (h : rule.Accepts session) :
    rule.checked (rule.offered true session none) = rule.unsent session := by
  unfold Rule.offered Rule.unsent
  by_cases hempty : Java.isEmpty session = true
  · simp [hempty, Rule.fallback]
  · simp [hempty, Rule.checked_of_accepts h]

theorem Rule.accepts_unsent (h : rule.Accepts session) : rule.Accepts (rule.unsent session) := by
  rw [← Rule.checked_unsent h]
  exact Rule.accepts_checked

/-- With what is in the session before it, the same as the default. -/
theorem Rule.or_unsent : session.or (rule.unsent session) = session.or rule.fallback := by
  cases session <;> rfl

theorem Rule.Sees.fallback_of_empty {last : Option String} (h : rule.Sees last (some ""))
    (haccepts : rule.Accepts (some "")) : rule.Sees last rule.fallback := by
  rcases h with hseen | ⟨hlast, -⟩
  · cases last with
    | none => exact .inl rfl
    | some v =>
      have hseen : some "" = rule.checked (some v) := hseen
      rw [Rule.checked_of_accepts (Rule.accepts_of_empty haccepts _)] at hseen
      exact .inr ⟨hseen.symm, rfl⟩
  · exact .inr ⟨hlast, rfl⟩

theorem Rule.Sees.unsent {last : Option String} (hsees : rule.Sees last (session.or rule.fallback))
    (h : rule.Accepts session) : rule.Sees last (rule.unsent session) := by
  unfold Rule.unsent
  split
  · rename_i hempty
    rcases isEmpty_iff_none_or.mp hempty with rfl | rfl
    · exact hsees
    · exact hsees.fallback_of_empty h
  · rename_i hempty
    cases session with
    | none => exact absurd rfl hempty
    | some s => exact hsees

/-- A value that is sent in the list, or that is not: it does not matter how often it is declared. -/
theorem foldl_listed (input : Option String) (rules : List Rule) (hrules : ∀ q ∈ rules, q = rule)
    (hne : rules ≠ []) (h : rule.Accepts session) :
    rules.foldl (Cell.listed true input) ⟨session, none⟩ =
      match input with
      | some v => Cell.mk (rule.checked (some v)) (rule.checked (some v))
      | none => Cell.mk session (rule.unsent session) := by
  induction rules using List.reverseRecOn with
  | nil => exact absurd rfl hne
  | append_singleton rules q ih =>
    obtain rfl : q = rule := hrules q (by simp)
    rw [List.foldl_append, List.foldl_cons, List.foldl_nil]
    by_cases hnil : rules = []
    · subst hnil
      cases input with
      | some v => rfl
      | none =>
        simp only [List.foldl_nil, Cell.listed, Rule.kept_unsent h, Rule.checked_unsent h,
          Option.none_or]
    · rw [ih (fun p hp => hrules p (List.mem_append_left _ hp)) hnil]
      cases input with
      | some v =>
        change Cell.mk (q.checked (some v)) ((q.checked (some v)).or (q.checked (some v))) = _
        rw [Option.or_self]
      | none =>
        simp only [Cell.listed, Rule.kept_unsent h, Rule.checked_unsent h, Option.or_self]

/-- A declaration in the path that takes what the list left. -/
theorem inPath_none (rule : Rule) (c : Cell) :
    (∃ e, c.parameter = some e ∧ e ≠ "" ∧
        c.inPath true (rule, none) =
          ⟨rule.checked c.parameter, (rule.checked c.parameter).or c.parameter⟩) ∨
      Java.isEmpty c.parameter = true ∧
        c.inPath true (rule, none) = ⟨rule.kept true c.session none,
          (rule.checked (rule.offered true c.session none)).or c.parameter⟩ := by
  rcases input_none_cases c with ⟨hinput, hempty⟩ | ⟨e, he, hinput, hparam⟩
  · refine .inr ⟨hempty, ?_⟩
    simp only [Cell.inPath, hinput]
  · refine .inl ⟨e, hparam, he, ?_⟩
    simp only [Cell.inPath, hinput, hparam, Rule.kept, Rule.offered, if_true, Option.some_or]

end Values

section Sent

variable {sessionParamNames : List String} {name : String} {r : PageRequest} {rule : Rule}
  {session : Option String}

theorem requestCell_eq (hname : name ∈ sessionParamNames) (h : r.Follows name rule)
    (hsession : rule.Accepts session)
    (hne : ((listed r.request r.urlSchema).filter fun p => p.name = name) ≠ []) :
    requestCell sessionParamNames r.request r.urlSchema name session =
      match r.request.getParameter name with
      | some v => Cell.mk (rule.checked (some v)) (rule.checked (some v))
      | none => Cell.mk session (rule.unsent session) := by
  have hrules : ∀ q ∈ ((listed r.request r.urlSchema).filter fun p => p.name = name).map
      TypedParam.rule, q = rule := by
    intro q hq
    obtain ⟨p, hp, rfl⟩ := List.mem_map.mp hq
    obtain ⟨hp, hpname⟩ := List.mem_filter.mp hp
    exact h.agree p (List.mem_append_left _ hp) (by simpa using hpname)
  have hfold := foldl_listed (r.request.getParameter name) _ hrules (by simpa using hne) hsession
  rw [List.foldl_map] at hfold
  rw [requestCell, decide_eq_true hname]
  exact hfold

theorem requestCell_of_nil
    (hnil : ((listed r.request r.urlSchema).filter fun p => p.name = name) = []) :
    requestCell sessionParamNames r.request r.urlSchema name session = ⟨session, none⟩ := by
  rw [requestCell, hnil]
  rfl

/-- What is in the path. -/
theorem pathOf_cases (h : r.Follows name rule) :
    r.pathOf name = [] ∨ ∃ p segment, r.pathOf name = [(p, segment)] ∧ p.rule = rule := by
  have honce := h.once
  cases hpath : r.pathOf name with
  | nil => exact .inl rfl
  | cons d ds =>
    rw [hpath, List.length_cons] at honce
    have hds : ds = [] := List.length_eq_zero_iff.mp (by omega)
    have hd : d ∈ r.pathOf name := by rw [hpath]; exact List.mem_cons_self
    exact .inr ⟨d.1, d.2, by rw [hds], h.agree d.1 (mem_pathOf hd).1 (mem_pathOf hd).2⟩

theorem sent_eq : r.sent name =
    (if ((listed r.request r.urlSchema).filter fun p => p.name = name) = [] then []
      else (r.request.getParameter name).toList) ++ (r.pathOf name).filterMap Prod.snd := by
  have hany : (listed r.request r.urlSchema).any (fun p => decide (p.name = name)) = true ↔
      ((listed r.request r.urlSchema).filter fun p => p.name = name) ≠ [] := by
    rw [ne_eq, List.filter_eq_nil_iff, List.any_eq_true]
    push Not
    rfl
  rw [PageRequest.sent]
  by_cases hnil : ((listed r.request r.urlSchema).filter fun p => p.name = name) = []
  · rw [if_pos hnil, if_neg fun h => hany.mp h hnil]
  · rw [if_neg hnil, if_pos (hany.mpr hnil)]

theorem request_sent (hname : name ∈ sessionParamNames) (h : r.Follows name rule)
    (hsession : rule.Accepts session) {v : String} (hsent : (r.sent name).getLast? = some v) :
    (r.cell sessionParamNames name session).session = rule.checked (some v) := by
  rw [sent_eq] at hsent
  unfold PageRequest.cell
  rcases pathOf_cases h with hpath | ⟨p, segment, hpath, hrule⟩
  · rw [hpath] at hsent ⊢
    split at hsent
    · cases hsent
    · rename_i hne
      rw [List.foldl_nil, requestCell_eq hname h hsession hne]
      cases hparam : r.request.getParameter name with
      | none => rw [hparam] at hsent; cases hsent
      | some w =>
        rw [hparam] at hsent
        rw [← hsent]
        rfl
  · rw [hpath] at hsent ⊢
    rw [List.foldl_cons, List.foldl_nil, hrule]
    cases segment with
    | some w =>
      have hw : w = v := by simpa using hsent
      rw [hw]
      rfl
    | none =>
      split at hsent
      · cases hsent
      · rename_i hne
        have hparam : r.request.getParameter name = some v := by
          cases hparam : r.request.getParameter name with
          | none => rw [hparam] at hsent; cases hsent
          | some w =>
            rw [hparam] at hsent
            simpa using hsent
        rw [requestCell_eq hname h hsession hne, hparam]
        rcases inPath_none rule ⟨rule.checked (some v), rule.checked (some v)⟩ with
          ⟨e, -, -, hcell⟩ | ⟨-, hcell⟩
        · simp only [hcell, Rule.checked_checked]
        · simp only [hcell, Rule.kept_unsent Rule.accepts_checked]

/-- The list leaves no value, or the one that is there without a value that is sent. -/
theorem requestCell_unsent (hname : name ∈ sessionParamNames) (h : r.Follows name rule)
    (hsession : rule.Accepts session)
    (hparam : (if ((listed r.request r.urlSchema).filter fun p => p.name = name) = [] then []
      else (r.request.getParameter name).toList) = []) :
    ∃ parameter, requestCell sessionParamNames r.request r.urlSchema name session =
      ⟨session, parameter⟩ ∧ (parameter = rule.unsent session ∨ parameter = none ∧
        ((listed r.request r.urlSchema).filter fun p => p.name = name) = []) := by
  by_cases hnil : ((listed r.request r.urlSchema).filter fun p => p.name = name) = []
  · exact ⟨none, requestCell_of_nil hnil, .inr ⟨rfl, hnil⟩⟩
  · rw [if_neg hnil, Option.toList_eq_nil_iff] at hparam
    refine ⟨rule.unsent session, ?_, .inl rfl⟩
    rw [requestCell_eq hname h hsession hnil, hparam]

/-- What is in the session is seen, or the default. -/
theorem request_unsent (hname : name ∈ sessionParamNames) (h : r.Follows name rule)
    (hsession : rule.Accepts session) (hsent : r.sent name = []) {last : Option String}
    (hsees : rule.Sees last (session.or rule.fallback)) :
    let c := r.cell sessionParamNames name session
    rule.Accepts c.session ∧ rule.Sees last (c.session.or rule.fallback) ∧
      (r.Processes name → rule.Sees last (c.session.or c.parameter)) := by
  intro c
  rw [sent_eq, List.append_eq_nil_iff] at hsent
  obtain ⟨hparam, hsegment⟩ := hsent
  obtain ⟨parameter, hcell, hparameter⟩ := requestCell_unsent hname h hsession hparam
  have hkept : rule.Sees last (session.or (rule.unsent session)) := by
    rw [Rule.or_unsent]
    exact hsees
  rcases pathOf_cases h with hpath | ⟨p, segment, hpath, hrule⟩
  · have hc : c = ⟨session, parameter⟩ := by
      simp only [c, PageRequest.cell, hpath, List.foldl_nil, hcell]
    rw [hc]
    refine ⟨hsession, hsees, fun hprocesses => ?_⟩
    rcases hparameter with rfl | ⟨-, hnil⟩
    · exact hkept
    · rcases processes_iff_filter.mp hprocesses with hne | hne
      · exact absurd hnil hne
      · exact absurd hpath hne
  · have hnone : segment = none := by
      rw [hpath] at hsegment
      cases segment with
      | none => rfl
      | some w => simp at hsegment
    have hc : c = Cell.inPath true ⟨session, parameter⟩ (rule, none) := by
      simp only [c, PageRequest.cell, hpath, List.foldl_cons, List.foldl_nil, hcell, hrule, hnone]
    rw [hc]
    rcases inPath_none rule ⟨session, parameter⟩ with
      ⟨e, he, hne, heq⟩ | ⟨hempty, heq⟩
    · have he : parameter = some e := he
      obtain hunsent : some e = rule.unsent session := by
        rcases hparameter with rfl | ⟨hnone, -⟩
        · exact he.symm
        · rw [hnone] at he
          cases he
      have haccepts : rule.Accepts (some e) := hunsent ▸ Rule.accepts_unsent hsession
      have hseen : rule.Sees last (some e) := hunsent ▸ hsees.unsent hsession
      rw [heq, he, Rule.checked_of_accepts haccepts]
      exact ⟨haccepts, hseen, fun _ => hseen⟩
    · rw [heq, Rule.kept_unsent hsession, Rule.checked_unsent hsession]
      refine ⟨hsession, hsees, fun _ => ?_⟩
      have hsame : (rule.unsent session).or parameter = rule.unsent session := by
        rcases hparameter with rfl | ⟨rfl, -⟩
        · exact Option.or_self
        · exact Option.or_none
      simp only [hsame]
      exact hkept

end Sent

/-! ## Sequences of requests -/

section Run

variable {sessionParamNames : List String} {name : String} {requests : List PageRequest}
  {session : String → Option String}

theorem process_session (hname : name ∈ sessionParamNames) (hsort : isSort name = false)
    (r : PageRequest) : (r.process sessionParamNames session).session name =
      (r.cell sessionParamNames name (session name)).session :=
  congrArg Cell.session (process_cell hname hsort)

theorem process_parameter (hname : name ∈ sessionParamNames) (hsort : isSort name = false)
    (r : PageRequest) : (r.process sessionParamNames session).parameters name =
      (r.cell sessionParamNames name (session name)).session.or
        (r.cell sessionParamNames name (session name)).parameter :=
  congrArg Cell.parameter (process_cell hname hsort)

/-- Only a declaration without such a type lets an empty value into the session. -/
theorem session_ne_empty (hname : name ∈ sessionParamNames) (hsort : isSort name = false)
    (hrun : Machine.Run (Serves sessionParamNames) (fun _ => none) requests session) :
    (∀ q ∈ requests, ∃ type, type ≠ .text ∧ q.HasType name type) → session name ≠ some "" := by
  refine Machine.Run.inv (P := fun qs s =>
    (∀ q ∈ qs, ∃ type, type ≠ .text ∧ q.HasType name type) → s name ≠ some "") ?_ ?_ hrun
  · exact fun _ h => by cases h
  · intro qs s q s' ih hserves hqs
    obtain ⟨type, htype, hq⟩ := hqs q (by simp)
    have hs := ih fun p hp => hqs p (List.mem_append_left _ hp)
    rw [hserves name hsort, process_session hname hsort]
    exact (checked_request hname htype hq hs).1.session

theorem lastSent_append (q : PageRequest) : lastSent name (requests ++ [q]) =
    ((q.sent name).getLast?).or (lastSent name requests) := by
  simp [lastSent, List.getLast?_append]

/-- What the session holds after the requests so far. -/
theorem session_sees (hname : name ∈ sessionParamNames) (hsort : isSort name = false)
    (hrun : Machine.Run (Serves sessionParamNames) (fun _ => none) requests session) (rule : Rule) :
    (∀ q ∈ requests, q.Follows name rule) → rule.Accepts (session name) ∧
      rule.Sees (lastSent name requests) ((session name).or rule.fallback) := by
  refine Machine.Run.inv (P := fun qs s => (∀ q ∈ qs, q.Follows name rule) →
    rule.Accepts (s name) ∧ rule.Sees (lastSent name qs) ((s name).or rule.fallback)) ?_ ?_ hrun
  · exact fun _ => ⟨Rule.accepts_none, .inl rfl⟩
  · intro qs s q s' ih hserves hqs
    have hq := hqs q (by simp)
    obtain ⟨haccepts, hsees⟩ := ih fun p hp => hqs p (List.mem_append_left _ hp)
    rw [hserves name hsort, process_session hname hsort, lastSent_append]
    cases hlast : (q.sent name).getLast? with
    | none =>
      have hunsent := request_unsent hname hq haccepts (List.getLast?_eq_none_iff.mp hlast) hsees
      exact ⟨hunsent.1, hunsent.2.1⟩
    | some v =>
      rw [request_sent hname hq haccepts hlast, Rule.checked_or_fallback]
      exact ⟨Rule.accepts_checked, .inl rfl⟩

theorem session_param_kept (hname : name ∈ sessionParamNames) (hsort : isSort name = false)
    (hrun : Machine.Run (Serves sessionParamNames) (fun _ => none) requests session)
    (r : PageRequest) :
    ((∀ q ∈ requests, ∃ type, type ≠ .text ∧ q.HasType name type) → session name ≠ some "") ∧
      (session name ≠ some "" → r.Processes name → ∀ type, r.HasType name type →
        isParamOk ((r.process sessionParamNames session).parameters name) type = true ∧
        isParamOk ((r.process sessionParamNames session).session name) type = true) ∧
      ∀ rule, (∀ q ∈ requests ++ [r], q.Follows name rule) → r.Processes name → r.sent name = [] →
        rule.Sees (lastSent name requests) ((r.process sessionParamNames session).parameters name) := by
  rw [process_session hname hsort, process_parameter hname hsort]
  refine ⟨session_ne_empty hname hsort hrun, fun hs hprocesses type hr => ?_, ?_⟩
  · by_cases htext : type = .text
    · rw [htext]
      exact ⟨isParamOk_text _, isParamOk_text _⟩
    · have hok := (checked_request hname htext hr hs).2 hprocesses
      exact ⟨isParamOk_or hok.session hok.parameter, hok.session⟩
  · intro rule hall hprocesses hsent
    obtain ⟨haccepts, hsees⟩ :=
      session_sees hname hsort hrun rule fun q hq => hall q (List.mem_append_left _ hq)
    exact (request_unsent hname (hall r (by simp)) haccepts hsent hsees).2.2 hprocesses

end Run

section Example

def declared (name : String) (type : Option ParamType) (default : Option String) : TypedParam where
  name := name
  value := none
  default := default
  type := type

/-- A `GET` of a page with the parameters of the request and of the path. -/
def visit (getParams urlParams : List TypedParam) (parameters : List (String × String))
    (applicationUrlParameters : List String) : PageRequest where
  request :=
    { isPost := false
      isGet := true
      parameterNames := parameters.map Prod.fst
      getParameter := fun name => parameters.lookup name }
  applicationUrlParameters := applicationUrlParameters
  urlSchema := ⟨none, some getParams, some urlParams⟩

def countParam : TypedParam := declared "count" (some .int) (some "5")

def visitCount (parameters : List (String × String)) : PageRequest :=
  visit [countParam] [] parameters []

def afterVisits (names : List String) (visits : List PageRequest) : String → Option String :=
  visits.foldl (fun session r => (r.process names session).session) fun _ => none

theorem afterVisits_run (names : List String) (visits : List PageRequest) :
    Machine.Run (Serves names) (fun _ => none) visits (afterVisits names visits) := by
  induction visits using List.reverseRecOn with
  | nil => exact .nil
  | append_singleton visits r ih =>
    refine .snoc ih fun name _ => ?_
    rw [afterVisits, List.foldl_append]
    rfl

/-- A valid value, and then a request without one. -/
theorem session_param_kept_count :
    isParamOk (((visitCount []).process ["count"]
      (afterVisits ["count"] [visitCount [("count", "7")]])).parameters "count") .int = true ∧
    countParam.rule.Sees (some "7") (((visitCount []).process ["count"]
      (afterVisits ["count"] [visitCount [("count", "7")]])).parameters "count") := by
  have hdeclared : ∀ q ∈ [visitCount [("count", "7")]] ++ [visitCount []],
      ∀ p ∈ q.declarations, p = countParam := by
    intro q hq p hp
    simp only [List.cons_append, List.nil_append, List.mem_cons, List.not_mem_nil, or_false] at hq
    rcases hq with rfl | rfl
    · exact List.mem_singleton.mp hp
    · exact List.mem_singleton.mp hp
  have hprocesses : (visitCount []).Processes "count" :=
    ⟨countParam, List.mem_singleton.mpr rfl, rfl⟩
  have hkept := session_param_kept (List.mem_singleton.mpr rfl) (by decide)
    (afterVisits_run ["count"] [visitCount [("count", "7")]]) (visitCount [])
  constructor
  · have hsession : afterVisits ["count"] [visitCount [("count", "7")]] "count" ≠ some "" := by
      refine hkept.1 fun q hq => ⟨.int, by decide, fun p hp _ => ?_⟩
      rw [hdeclared q (List.mem_append_left _ hq) p hp]
      rfl
    refine (hkept.2.1 hsession hprocesses .int fun p hp _ => ?_).1
    rw [hdeclared (visitCount []) (by simp) p hp]
    rfl
  · refine hkept.2.2 countParam.rule (fun q hq => ⟨fun p hp _ => ?_, ?_⟩) hprocesses rfl
    · rw [hdeclared q hq p hp]
    · simp only [List.cons_append, List.nil_append, List.mem_cons, List.not_mem_nil, or_false] at hq
      rcases hq with rfl | rfl <;> exact Nat.zero_le _

/-- After a valid value and an invalid one, the default is seen and not the valid value; of two
declarations that do not agree, the last one decides; an empty text that another page lets into the
session is seen for an integer; and a parameter whose name starts with `sort` is not checked. -/
theorem invalid_value_resets :
    isParamOk (some "7") .int = true ∧ isParamOk (some "abc") .int = false ∧
    isParamOk (some "") .int = false ∧
    ((visitCount []).process ["count"] (afterVisits ["count"]
      [visitCount [("count", "7")], visitCount [("count", "abc")]])).parameters "count" = some "5" ∧
    ((visit [declared "count" (some .int) none] [declared "count" none none] [] ["abc"]).process
      ["count"] fun _ => none).session "count" = some "abc" ∧
    ((visitCount []).process ["count"] (afterVisits ["count"]
      [visit [declared "count" none none] [] [("count", "")] []])).parameters "count" = some "" ∧
    ((visit [declared "sortCount" (some .int) none] [] [("sortCount", "abc")] []).process
      ["sortCount"] fun _ => none).parameters "sortCount" = some "abc" := by
  decide

end Example

end PageParameterProcessor
end Pages
end AppNG
