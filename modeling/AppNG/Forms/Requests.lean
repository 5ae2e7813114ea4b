import AppNG.Lib.Keyed
import AppNG.Lib.Machine

/-!
# Forms.Requests

The two classes that implement `Request`: `RequestBean`, and the `MultipartRequest` of
`CsrfSetupFilter`, as far as they are about parameters.

* `bean_exposes`: a bean exposes what was submitted, and else what was added first.
* `multipart_exposes_iff`: what a multipart request has to hold for the same.
* `agree_iff`: along a sequence of calls both expose this, if and only if every parameter that is
  added has a first value, and has no other values before, unless it was submitted.
-/

namespace AppNG
namespace Forms

/-! ## The code -/

/-- The parameters of a servlet request: each has a first value, and may have more. -/
abbrev Submitted := Keyed (Prod.fst : String × String × List String → String)

/-- The values for a name that are to be added. None: null. -/
abbrev Add := String × Option (List (Option String))

structure Request where
  /-- None: it throws. -/
  getParameter : String → Option (Option String)
  /-- None: null. -/
  getParameterList : String → Option (List (Option String))
  getParameterNames : List String
  /-- None: it throws. -/
  getParameters : Option (List (String × Option String))
  getParametersList : List (String × Option (List (Option String)))
  /-- None: it throws. -/
  hasParameter : String → Option Bool

structure RequestBean where
  parameters : Keyed (Prod.fst : String × List (Option String) → String)

namespace RequestBean

variable (bean : RequestBean)

/-- After `process`. -/
def process (submitted : Submitted) : RequestBean where
  parameters :=
    { values := submitted.values.map fun p => (p.1, (p.2.1 :: p.2.2).map some)
      nodup := by
        rw [List.map_map]
        exact submitted.nodup }

def addValues (key : String) (values : List (Option String)) : RequestBean :=
  match bean.parameters.get key with
  | none => ⟨bean.parameters.put (key, values)⟩
  | some _ => bean

/-- None: it throws, and puts nothing. -/
def addParameters (key : String) (values : Option (List (Option String))) : Option RequestBean :=
  values.map (bean.addValues key)

def addParameter (key : String) (value : Option String) : RequestBean := bean.addValues key [value]

def addAll (singleParameters : List (String × Option String)) : RequestBean :=
  singleParameters.foldl (fun bean p => bean.addParameter p.1 p.2) bean

def values (name : String) : Option (List (Option String)) :=
  (bean.parameters.get name).map Prod.snd

def getSingleParameter (name : String) : Option String := ((bean.values name).getD []).head?.join

def toRequest : Request where
  getParameter name := some (bean.getSingleParameter name)
  getParameterList name := some ((bean.values name).getD [])
  getParameterNames := bean.parameters.values.map Prod.fst
  getParameters := some <| (bean.parameters.values.map Prod.fst).filterMap fun key =>
    (bean.getSingleParameter key).map fun value => (key, some value)
  getParametersList := bean.parameters.values.map fun p => (p.1, some p.2)
  hasParameter name := some ((bean.parameters.values.map Prod.fst).contains name)

end RequestBean

structure MultipartRequest where
  wrapped : Submitted
  additionalParams : Keyed (Prod.fst : Add → String)

namespace MultipartRequest

variable (request : MultipartRequest)

def addParameters (name : String) (values : Option (List (Option String))) : MultipartRequest :=
  match request.wrapped.get name with
  | none => { request with additionalParams := request.additionalParams.put (name, values) }
  | some _ => request

def addParameter (name : String) (value : Option String) : MultipartRequest :=
  request.addParameters name (some [value])

def addAll (parameters : List (String × Option String)) : MultipartRequest :=
  parameters.foldl (fun request p => request.addParameter p.1 p.2) request

/-- `get(0)` of null or of an empty list throws. -/
def getParameter (name : String) : Option (Option String) :=
  match request.additionalParams.get name with
  | some (_, values) => values.bind List.head?
  | none => some ((request.wrapped.get name).map fun p => p.2.1)

def getParameterList (name : String) : Option (List (Option String)) :=
  match request.additionalParams.get name with
  | some (_, values) => values
  | none =>
    match request.wrapped.get name with
    | some (_, value, values) => some ((value :: values).map some)
    | none => some []

def getParameterNames : List String :=
  request.wrapped.values.map Prod.fst ∪ request.additionalParams.values.map Prod.fst

def toRequest : Request where
  getParameter := request.getParameter
  getParameterList := request.getParameterList
  getParameterNames := request.getParameterNames
  getParameters := request.getParameterNames.mapM fun name =>
    (request.getParameter name).map fun value => (name, value)
  getParametersList := request.getParameterNames.map fun name =>
    (name, request.getParameterList name)
  hasParameter name := (request.getParameter name).map Option.isSome

end MultipartRequest

/-! ## Sequences of calls -/

inductive Call where
  | addParameter (name : String) (value : Option String)
  | addParameters (name : String) (values : Option (List (Option String)))
  | addAll (parameters : Keyed (Prod.fst : String × Option String → String))

/-- What is added by a call, in order. -/
def Call.adds : Call → List Add
  | addParameter name value => [(name, some [value])]
  | addParameters name values => [(name, values)]
  | addAll parameters => parameters.values.map fun p => (p.1, some [p.2])

/-- After a call. What throws leaves the bean as it is. -/
def RequestBean.perform (bean : RequestBean) : Call → RequestBean
  | .addParameter name value => bean.addParameter name value
  | .addParameters name values => (bean.addParameters name values).getD bean
  | .addAll parameters => bean.addAll parameters.values

def MultipartRequest.perform (request : MultipartRequest) : Call → MultipartRequest
  | .addParameter name value => request.addParameter name value
  | .addParameters name values => request.addParameters name values
  | .addAll parameters => request.addAll parameters.values

/-- Both, and all that was to be added so far. -/
structure Requests where
  bean : RequestBean
  multipart : MultipartRequest
  adds : List Add

def Requests.start (submitted : Submitted) : Requests :=
  ⟨.process submitted, ⟨submitted, .empty⟩, []⟩

def Requests.perform (t : Requests) (call : Call) : Requests :=
  ⟨t.bean.perform call, t.multipart.perform call, t.adds ++ call.adds⟩

/-! ## What should be exposed -/

def submittedValues (submitted : Submitted) (name : String) : Option (List (Option String)) :=
  (submitted.get name).map fun p => (p.2.1 :: p.2.2).map some

/-- What was submitted, and else what was added first. -/
def exposed (submitted : Submitted) (adds : List Add) (name : String) :
    Option (List (Option String)) :=
  (submittedValues submitted name).or
    (adds.findSome? fun add => if add.1 = name then add.2 else none)

/-- The first value, or null. -/
def first (values : Option (List (Option String))) : Option String := (values.getD []).head?.join

/-- No accessor throws, and each tells these parameters. -/
structure Exposes (request : Request) (parameters : String → Option (List (Option String))) :
    Prop where
  getParameter : ∀ name, request.getParameter name = some (first (parameters name))
  getParameterList : ∀ name, request.getParameterList name = some ((parameters name).getD [])
  getParameterNames : ∀ name, name ∈ request.getParameterNames ↔ (parameters name).isSome
  getParameters : ∃ entries, request.getParameters = some entries ∧
    ∀ name, (entries.lookup name).join = first (parameters name)
  getParametersList : ∀ name, request.getParametersList.lookup name = (parameters name).map some
  hasParameter : ∀ name, request.hasParameter name = some (parameters name).isSome

/-- Both expose what they should. -/
def Agree (submitted : Submitted) (t : Requests) : Prop :=
  Exposes t.bean.toRequest (exposed submitted t.adds) ∧
    Exposes t.multipart.toRequest (exposed submitted t.adds)

/-- The name was submitted, or the values have a first one and are the first or the same again. -/
def Proper (submitted : Submitted) (adds : List Add) (add : Add) : Prop :=
  (submitted.get add.1).isSome ∨ ∃ value values, add.2 = some (some value :: values) ∧
    ∀ before, exposed submitted adds add.1 = some before → before = some value :: values

/-! ## Lookups -/

theorem lookup_map {β : Type} (names : List String) (f : String → β) (name : String) :
    (names.map fun n => (n, f n)).lookup name = if name ∈ names then some (f name) else none := by
  induction names with
  | nil => rfl
  | cons n names ih =>
    rw [List.map_cons, List.lookup_cons, ih]
    by_cases hname : name = n
    · subst hname
      simp
    · simp [hname, beq_eq_false_iff_ne.mpr hname]

theorem lookup_filterMap {β : Type} (names : List String) (f : String → Option β) (name : String) :
    ((names.filterMap fun n => (f n).map fun value => (n, some value)).lookup name).join =
      if name ∈ names then f name else none := by
  induction names with
  | nil => rfl
  | cons n names ih =>
    rw [List.filterMap_cons]
    by_cases hname : name = n
    · subst hname
      cases hf : f name with
      | none => simp [hf, ih]
      | some value => simp
    · cases hf : f n with
      | none => simp [hname, ih]
      | some value => simp [hname, ih, List.lookup_cons, beq_eq_false_iff_ne.mpr hname]

theorem mapM_of_eq_some {α β : Type} {f : α → Option β} {g : α → β} {as : List α}
    (h : ∀ a ∈ as, f a = some (g a)) : as.mapM f = some (as.map g) := by
  induction as with
  | nil => rfl
  | cons a as ih =>
    rw [List.forall_mem_cons] at h
    rw [List.mapM_cons, h.1, ih h.2]
    rfl

/-! ## What each of them holds -/

namespace RequestBean

def add (bean : RequestBean) (add : Add) : RequestBean :=
  (bean.addParameters add.1 add.2).getD bean

theorem perform_eq (bean : RequestBean) (call : Call) :
    bean.perform call = call.adds.foldl add bean := by
  cases call with
  | addParameter name value => rfl
  | addParameters name values => rfl
  | addAll parameters =>
    rw [Call.adds, List.foldl_map]
    rfl

theorem values_process (submitted : Submitted) (name : String) :
    (process submitted).values name = submittedValues submitted name := by
  simp only [values, process, submittedValues, Keyed.get, List.find?_map, Option.map_map]
  rfl

theorem values_add (bean : RequestBean) (a : Add) (name : String) :
    (bean.add a).values name = (bean.values name).or (if a.1 = name then a.2 else none) := by
  obtain ⟨key, values⟩ := a
  cases values with
  | none => simp [add, addParameters]
  | some values =>
    have hadd : bean.add (key, some values) = bean.addValues key values := rfl
    rw [hadd, addValues]
    by_cases hname : key = name
    · subst hname
      cases hget : bean.parameters.get key with
      | none => simp [RequestBean.values, Keyed.get_put, hget]
      | some p => simp [RequestBean.values, hget]
    · cases hget : bean.parameters.get key with
      | none => simp [RequestBean.values, Keyed.get_put, hname]
      | some p => simp [hname]

theorem isSome_values (bean : RequestBean) (name : String) :
    (bean.values name).isSome ↔ name ∈ bean.parameters.values.map Prod.fst := by
  rw [← Keyed.isSome_get, values, Option.isSome_map]

/-- A bean exposes what it holds. -/
theorem exposes (bean : RequestBean) : Exposes bean.toRequest bean.values where
  getParameter _ := rfl
  getParameterList _ := rfl
  getParameterNames name := (bean.isSome_values name).symm
  getParameters := by
    refine ⟨_, rfl, fun name => ?_⟩
    have hmem := bean.isSome_values name
    rw [lookup_filterMap]
    cases hvalues : bean.values name with
    | none =>
      rw [hvalues] at hmem
      exact if_neg fun h => by simpa using hmem.mpr h
    | some values =>
      rw [hvalues] at hmem
      rw [if_pos (hmem.mp rfl), getSingleParameter, first, hvalues]
  getParametersList name := by
    have hlookup : ∀ ps : List (String × List (Option String)),
        (ps.map fun p => (p.1, some p.2)).lookup name =
          ((ps.find? fun p => p.1 = name).map Prod.snd).map some := by
      intro ps
      induction ps with
      | nil => rfl
      | cons p ps ih =>
        rw [List.map_cons, List.lookup_cons, List.find?_cons, ih]
        by_cases hname : name = p.1
        · simp [hname]
        · simp [Ne.symm hname, beq_eq_false_iff_ne.mpr hname]
    exact hlookup bean.parameters.values
  hasParameter name := by
    have hmem := bean.isSome_values name
    simp only [toRequest, Option.some.injEq]
    rw [Bool.eq_iff_iff, List.contains_iff_mem, hmem]

end RequestBean

namespace MultipartRequest

def add (request : MultipartRequest) (add : Add) : MultipartRequest :=
  request.addParameters add.1 add.2

theorem perform_eq (request : MultipartRequest) (call : Call) :
    request.perform call = call.adds.foldl add request := by
  cases call with
  | addParameter name value => rfl
  | addParameters name values => rfl
  | addAll parameters =>
    rw [Call.adds, List.foldl_map]
    rfl

/-- What is held for a name: null as well, if it was added. -/
def held (request : MultipartRequest) (name : String) : Option (Option (List (Option String))) :=
  ((request.additionalParams.get name).map Prod.snd).or
    ((submittedValues request.wrapped name).map some)

theorem wrapped_add (request : MultipartRequest) (a : Add) :
    (request.add a).wrapped = request.wrapped := by
  unfold add addParameters
  cases request.wrapped.get a.1 <;> rfl

theorem held_add (request : MultipartRequest) (a : Add) (name : String) :
    (request.add a).held name =
      if a.1 = name ∧ request.wrapped.get name = none then some a.2 else request.held name := by
  obtain ⟨key, values⟩ := a
  unfold add addParameters
  by_cases hname : key = name
  · subst hname
    cases hget : request.wrapped.get key with
    | none => simp [held, Keyed.get_put]
    | some p => simp
  · cases hget : request.wrapped.get key with
    | none => simp [held, Keyed.get_put, hname]
    | some p => simp [hname]

theorem getParameter_eq (request : MultipartRequest) (name : String) :
    request.getParameter name =
      match request.held name with
      | some values => values.bind List.head?
      | none => some none := by
  unfold getParameter held submittedValues
  cases request.additionalParams.get name with
  | some a => rfl
  | none => cases request.wrapped.get name <;> rfl

theorem getParameterList_eq (request : MultipartRequest) (name : String) :
    request.getParameterList name = (request.held name).getD (some []) := by
  unfold getParameterList held submittedValues
  cases request.additionalParams.get name with
  | some a => rfl
  | none => cases request.wrapped.get name <;> rfl

theorem mem_getParameterNames (request : MultipartRequest) (name : String) :
    name ∈ request.getParameterNames ↔ (request.held name).isSome := by
  rw [getParameterNames, List.mem_union_iff, ← Keyed.isSome_get, ← Keyed.isSome_get, held,
    submittedValues, Option.isSome_or, Bool.or_eq_true]
  simp only [Option.isSome_map]
  exact or_comm

/-- What is held for a name is what should be exposed, and has a first value. -/
def Shows (request : MultipartRequest) (parameters : String → Option (List (Option String)))
    (name : String) : Prop :=
  request.held name = (parameters name).map some ∧
    ∀ values, parameters name = some values → ∃ value rest, values = some value :: rest

theorem Shows.getParameter {request : MultipartRequest}
    {parameters : String → Option (List (Option String))} {name : String}
    (h : request.Shows parameters name) :
    request.getParameter name = some (first (parameters name)) ∧
      (first (parameters name)).isSome = (parameters name).isSome := by
  rw [getParameter_eq, h.1]
  cases hparam : parameters name with
  | none => exact ⟨rfl, rfl⟩
  | some values =>
    obtain ⟨value, rest, rfl⟩ := h.2 values hparam
    exact ⟨rfl, rfl⟩

section Shows

variable {request : MultipartRequest} {parameters : String → Option (List (Option String))}

theorem shows_of_exposes (h : Exposes request.toRequest parameters) (name : String) :
    request.Shows parameters name := by
  have hhas : (request.getParameter name).map Option.isSome = some (parameters name).isSome :=
    h.hasParameter name
  have hlist : request.getParameterList name = some ((parameters name).getD []) :=
    h.getParameterList name
  rw [getParameter_eq] at hhas
  rw [getParameterList_eq] at hlist
  rw [Shows]
  cases hheld : request.held name with
  | none =>
    have hnone : parameters name = none := by simpa [hheld] using hhas
    simp [hnone]
  | some values =>
    match values with
    | none => simp [hheld] at hhas
    | some [] => simp [hheld] at hhas
    | some (none :: rest) =>
      have hnone : parameters name = none := by simpa [hheld] using hhas
      simp [hheld, hnone] at hlist
    | some (some value :: rest) =>
      have hsome : (parameters name).isSome = true := by simpa [hheld] using hhas
      obtain ⟨values, hvalues⟩ := Option.isSome_iff_exists.mp hsome
      have hsame : some value :: rest = values := by simpa [hheld, hvalues] using hlist
      simp [hvalues, ← hsame]

theorem exposes_of_shows (h : ∀ name, request.Shows parameters name) :
    Exposes request.toRequest parameters := by
  have hnames : ∀ name, name ∈ request.getParameterNames ↔ (parameters name).isSome := by
    intro name
    rw [mem_getParameterNames, (h name).1, Option.isSome_map]
  refine ⟨fun name => (h name).getParameter.1, fun name => ?_, hnames, ?_, fun name => ?_,
    fun name => ?_⟩
  · change request.getParameterList name = _
    rw [getParameterList_eq, (h name).1]
    cases parameters name <;> rfl
  · refine ⟨_, mapM_of_eq_some fun name _ => by rw [(h name).getParameter.1]; rfl, fun name => ?_⟩
    rw [lookup_map]
    cases hparam : parameters name with
    | none => rw [if_neg (by simp [hnames, hparam])]; rfl
    | some values => rw [if_pos (by simp [hnames, hparam])]; rfl
  · change (request.getParameterNames.map fun n => (n, request.getParameterList n)).lookup name = _
    rw [lookup_map, getParameterList_eq, (h name).1]
    cases hparam : parameters name with
    | none => rw [if_neg (by simp [hnames, hparam])]; rfl
    | some values => rw [if_pos (by simp [hnames, hparam])]; rfl
  · change (request.getParameter name).map Option.isSome = _
    rw [(h name).getParameter.1, Option.map_some, (h name).getParameter.2]

end Shows

theorem exposes_iff (request : MultipartRequest)
    (parameters : String → Option (List (Option String))) :
    Exposes request.toRequest parameters ↔ ∀ name, request.Shows parameters name :=
  ⟨shows_of_exposes, exposes_of_shows⟩

end MultipartRequest

/-! ## What is added -/

theorem exposed_append (submitted : Submitted) (adds : List Add) (a : Add) (name : String) :
    exposed submitted (adds ++ [a]) name =
      (exposed submitted adds name).or (if a.1 = name then a.2 else none) := by
  rw [exposed, List.findSome?_append, List.findSome?_singleton, ← Option.or_assoc]
  rfl

theorem exposed_append_of_ne {submitted : Submitted} {adds : List Add} {a : Add} {name : String}
    (h : a.1 ≠ name) : exposed submitted (adds ++ [a]) name = exposed submitted adds name := by
  rw [exposed_append, if_neg h, Option.or_none]

theorem exposed_of_submitted {submitted : Submitted} {name : String}
    (h : (submitted.get name).isSome) (adds : List Add) :
    exposed submitted adds name = submittedValues submitted name := by
  have hsome : (submittedValues submitted name).isSome := by rwa [submittedValues, Option.isSome_map]
  rw [exposed, Option.or_of_isSome hsome]

namespace Requests

def add (t : Requests) (a : Add) : Requests :=
  ⟨t.bean.add a, t.multipart.add a, t.adds ++ [a]⟩

theorem foldl_add (t : Requests) (adds : List Add) :
    adds.foldl add t =
      ⟨adds.foldl RequestBean.add t.bean, adds.foldl MultipartRequest.add t.multipart,
        t.adds ++ adds⟩ := by
  induction adds generalizing t with
  | nil => simp
  | cons a adds ih =>
    rw [List.foldl_cons, ih]
    simp [add]

theorem perform_eq (t : Requests) (call : Call) : t.perform call = call.adds.foldl add t := by
  rw [foldl_add, perform, RequestBean.perform_eq, MultipartRequest.perform_eq]

/-- What holds after every sequence of calls. -/
structure Reached (submitted : Submitted) (t : Requests) : Prop where
  wrapped : t.multipart.wrapped = submitted
  values : t.bean.values = exposed submitted t.adds

theorem reached_start (submitted : Submitted) : Reached submitted (start submitted) where
  wrapped := rfl
  values := by
    funext name
    rw [start, RequestBean.values_process, exposed, List.findSome?_nil, Option.or_none]

/-- What the multipart request holds for a name is what should be exposed. -/
def Shown (submitted : Submitted) (t : Requests) (name : String) : Prop :=
  t.multipart.Shows (exposed submitted t.adds) name

theorem shown_start (submitted : Submitted) (name : String) :
    (start submitted).Shown submitted name := by
  have hexposed : exposed submitted (start submitted).adds name = submittedValues submitted name := by
    rw [start, exposed, List.findSome?_nil, Option.or_none]
  rw [Shown, MultipartRequest.Shows, hexposed]
  refine ⟨rfl, fun values hvalues => ?_⟩
  obtain ⟨p, -, rfl⟩ := Option.map_eq_some_iff.mp hvalues
  exact ⟨_, _, rfl⟩

variable {submitted : Submitted} {t : Requests} {a : Add}

theorem Reached.add (h : Reached submitted t) (a : Add) : Reached submitted (t.add a) where
  wrapped := (MultipartRequest.wrapped_add t.multipart a).trans h.wrapped
  values := by
    funext name
    rw [Requests.add, RequestBean.values_add, exposed_append, h.values]

theorem Reached.foldl_add (h : Reached submitted t) (adds : List Add) :
    Reached submitted (adds.foldl Requests.add t) := by
  induction adds generalizing t with
  | nil => exact h
  | cons a adds ih => exact ih (h.add a)

theorem Reached.foldl_perform (h : Reached submitted t) (calls : List Call) :
    Reached submitted (calls.foldl perform t) := by
  induction calls generalizing t with
  | nil => exact h
  | cons call calls ih =>
    refine ih ?_
    rw [perform_eq]
    exact h.foldl_add call.adds

theorem agree_of_reached (h : t.Reached submitted) :
    Agree submitted t ↔ ∀ name, t.Shown submitted name := by
  rw [Agree, MultipartRequest.exposes_iff, ← h.values]
  refine and_iff_right t.bean.exposes |>.trans ?_
  rw [h.values]
  rfl

def Good (submitted : Submitted) (t : Requests) : Prop :=
  t.Reached submitted ∧ ∀ name, t.Shown submitted name

/-! ## One parameter -/

theorem shown_add_of_ne {name : String} (h : a.1 ≠ name) :
    (t.add a).Shown submitted name ↔ t.Shown submitted name := by
  simp only [Shown, MultipartRequest.Shows, add]
  rw [exposed_append_of_ne h, MultipartRequest.held_add, if_neg fun hname => h hname.1]

theorem shown_foldl_of_not_mem {name : String} {adds : List Add} (h : name ∉ adds.map Prod.fst) :
    (adds.foldl add t).Shown submitted name ↔ t.Shown submitted name := by
  induction adds generalizing t with
  | nil => rfl
  | cons a adds ih =>
    rw [List.map_cons, List.mem_cons, not_or] at h
    rw [List.foldl_cons, ih h.2, shown_add_of_ne (Ne.symm h.1)]

/-- Of the name that is added. -/
theorem shown_add_self (h : Reached submitted t) (hshown : t.Shown submitted a.1) :
    (t.add a).Shown submitted a.1 ↔ Proper submitted t.adds a := by
  obtain ⟨name, given⟩ := a
  simp only [Shown, MultipartRequest.Shows, add, Proper] at hshown ⊢
  rw [MultipartRequest.held_add, h.wrapped, exposed_append, if_pos rfl]
  cases hsubmitted : submitted.get name with
  | some p =>
    have hsome : (submitted.get name).isSome := by simp [hsubmitted]
    have hexposed := exposed_of_submitted hsome t.adds
    simp only [reduceCtorEq, and_false, if_false, Option.isSome_some, true_or, iff_true]
    rw [hexposed] at hshown ⊢
    rw [Option.or_of_isSome (by simp [submittedValues, hsubmitted])]
    exact hshown
  | none =>
    simp only [and_self, if_true, Option.isSome_none, Bool.false_eq_true, false_or]
    cases hbefore : exposed submitted t.adds name with
    | none =>
      cases given with
      | none => simp
      | some values => simp [Option.some.injEq]
    | some before =>
      obtain ⟨value, rest, rfl⟩ := hshown.2 before hbefore
      constructor
      · rintro ⟨hgiven, -⟩
        exact ⟨value, rest, by simpa using hgiven, fun before hsame => by simpa using hsame.symm⟩
      · rintro ⟨value', rest', hgiven, hsame⟩
        have hvalues := hsame _ rfl
        rw [hgiven, hvalues]
        exact ⟨rfl, fun values hvalues => ⟨value', rest', by simpa using hvalues.symm⟩⟩

theorem proper_add_of_ne {b : Add} (h : a.1 ≠ b.1) :
    Proper submitted (t.adds ++ [a]) b ↔ Proper submitted t.adds b := by
  rw [Proper, Proper, exposed_append_of_ne h]

/-- Parameters of different names. -/
theorem shown_foldl_iff {adds : List Add} (h : Reached submitted t)
    (hshown : ∀ name, t.Shown submitted name) (hnodup : (adds.map Prod.fst).Nodup) :
    (∀ name, (adds.foldl add t).Shown submitted name) ↔
      ∀ a ∈ adds, Proper submitted t.adds a := by
  induction adds generalizing t with
  | nil => simpa using hshown
  | cons a adds ih =>
    rw [List.map_cons, List.nodup_cons] at hnodup
    have hproper : (∀ b ∈ adds, Proper submitted (t.add a).adds b) ↔
        ∀ b ∈ adds, Proper submitted t.adds b :=
      forall₂_congr fun b hb => proper_add_of_ne fun hname =>
        hnodup.1 (hname ▸ List.mem_map_of_mem hb)
    have hself := shown_add_self h (hshown a.1)
    have hnext : Proper submitted t.adds a → ∀ name, (t.add a).Shown submitted name := by
      intro ha name
      by_cases hname : a.1 = name
      · exact hname ▸ hself.mpr ha
      · exact (shown_add_of_ne hname).mpr (hshown name)
    rw [List.foldl_cons, List.forall_mem_cons]
    constructor
    · intro hall
      have ha : Proper submitted t.adds a :=
        hself.mp ((shown_foldl_of_not_mem hnodup.1).mp (hall a.1))
      exact ⟨ha, hproper.mp ((ih (h.add a) (hnext ha) hnodup.2).mp hall)⟩
    · rintro ⟨ha, hadds⟩
      exact (ih (h.add a) (hnext ha) hnodup.2).mpr (hproper.mpr hadds)

end Requests

/-! ## All calls -/

theorem nodup_adds (call : Call) : (call.adds.map Prod.fst).Nodup := by
  cases call with
  | addParameter name value => exact List.nodup_singleton _
  | addParameters name values => exact List.nodup_singleton _
  | addAll parameters =>
    rw [Call.adds, List.map_map]
    exact parameters.nodup

theorem bean_exposes (submitted : Submitted) (calls : List Call) :
    let t := calls.foldl Requests.perform (.start submitted)
    Exposes t.bean.toRequest (exposed submitted t.adds) := by
  intro t
  rw [← ((Requests.reached_start submitted).foldl_perform calls).values]
  exact t.bean.exposes

theorem agree_iff (submitted : Submitted) (calls : List Call) :
    (∀ pre post, calls = pre ++ post →
      Agree submitted (pre.foldl Requests.perform (.start submitted))) ↔
      ∀ pre call post, calls = pre ++ call :: post → ∀ add ∈ call.adds,
        Proper submitted (pre.foldl Requests.perform (.start submitted)).adds add := by
  have hreached := (Requests.reached_start submitted).foldl_perform
  have hagree : ∀ calls : List Call,
      Agree submitted (calls.foldl Requests.perform (.start submitted)) ↔
        (calls.foldl Requests.perform (.start submitted)).Good submitted := fun calls =>
    (Requests.agree_of_reached (hreached calls)).trans (and_iff_right (hreached calls)).symm
  have hinit : (Requests.start submitted).Good submitted :=
    ⟨Requests.reached_start submitted, Requests.shown_start submitted⟩
  have hstep : ∀ (t : Requests) (call : Call), t.Good submitted →
      ((t.perform call).Good submitted ↔ ∀ add ∈ call.adds, Proper submitted t.adds add) := by
    rintro t call ⟨ht, hshown⟩
    rw [Requests.Good, Requests.perform_eq]
    exact (and_iff_right (ht.foldl_add call.adds)).trans
      (Requests.shown_foldl_iff ht hshown (nodup_adds call))
  simp only [hagree]
  exact Machine.foldl_inv_iff hinit hstep calls

section Example

/-- The same name twice. -/
def addedTwice : List Call := [.addParameter "b" (some "1"), .addParameter "b" (some "2")]

/-- The bean keeps the first value, and the multipart request takes the second. -/
theorem added_twice_differs :
    (let t := addedTwice.foldl Requests.perform (.start .empty)
    (t.bean.toRequest.getParameter "b", t.multipart.toRequest.getParameter "b") =
      (some (some "1"), some (some "2"))) ∧
    ¬ ∀ (submitted : Submitted) (calls pre post : List Call), calls = pre ++ post →
      Agree submitted (pre.foldl Requests.perform (.start submitted)) := by
  refine ⟨by decide, fun h => ?_⟩
  have hfirst := (h .empty addedTwice addedTwice [] (by simp)).2.getParameter "b"
  revert hfirst
  decide

end Example

end Forms
end AppNG
