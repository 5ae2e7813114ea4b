import AppNG.Lib.Keyed
import AppNG.Lib.Simulation

/-!
# Environment.ScopedEnvironment

The attributes of the scopes of an environment: `AbstractEnvironment`, which stores them as they are, and
`SessionEnvironment`, which wraps them.

A container that does not exist is created by the first call; until then it reads as an empty one. Objects are
compared by their `equals`, so a value that is read from a session is only equal to the one that was set: the
session keeps what it has when it is given an equal object.

* `session_setAttribute_null`: a session ignores a null for a name that is not stored, and refuses it otherwise.
* `step_refines`: one call is a call of the map.
* `environment_refines`: so is any sequence of them, on any scope.
-/

namespace AppNG
namespace Environment

inductive Exception where
  | illegalArgument
  | nullPointer
  deriving DecidableEq, Repr

/-- The values and the names of the underlying `ConcurrentMap`, which holds no null. -/
abbrev Container (α : Type) := Keyed (Prod.fst : String × α → String)

/-- Of the two constructors the one that `setAttribute` calls: a value is never null. -/
structure AttributeWrapper (V : Type) where
  siteName : Option String
  value : V

/-- What a session may hold under a name. -/
inductive Attribute (V : Type) where
  | wrapper (w : AttributeWrapper V)
  | object (v : V)

variable {V α : Type}

def Attribute.getValue : Attribute V → V
  | .wrapper w => w.value
  | .object v => v

/-! ## AbstractEnvironment -/

namespace AbstractEnvironment

def getAttribute (container : Container α) (name : String) : Option α := (container.get name).map Prod.snd

def removeAttribute (container : Container α) (name : String) : Container α × Option α :=
  (container.erase name, getAttribute container name)

def getAttributeAsString (text : α → String) (container : Container α) (name : String) : Option String :=
  (getAttribute container name).map text

/-- `ConcurrentMap.put` throws for a null. -/
def setAttribute (container : Container α) (name : String) (value : Option α) : Container α × Option Exception :=
  match value with
  | none => (container, some .nullPointer)
  | some v => (container.put (name, v), none)

def keySet (container : Container α) : List String := container.values.map Prod.fst

end AbstractEnvironment

/-! ## SessionEnvironment -/

/-- `changed` is the attribute of the session that marks it dirty. `loaderSite` is the site of the class loader of
an object, where that is a `SiteClassLoader`. -/
structure SessionEnvironment (V : Type) where
  siteName : Option String
  container : Container (Attribute V)
  changed : Bool := false

namespace SessionEnvironment

variable (env : SessionEnvironment V)

def getAttribute (name : String) : Option V :=
  (AbstractEnvironment.getAttribute env.container name).map Attribute.getValue

def keySet : List String := AbstractEnvironment.keySet env.container

/-- None: `Collectors.toMap` throws for a null. -/
def getAttributes : Option (List (String × V)) :=
  env.keySet.mapM fun name => (env.getAttribute name).map (name, ·)

/-- The wrapper writes its value. -/
def getAttributeAsString [ToString V] (name : String) : Option String :=
  AbstractEnvironment.getAttributeAsString (fun a : Attribute V => toString a.getValue) env.container name

def markSessionDirty : SessionEnvironment V := { env with changed := true }

/-- `new AttributeWrapper(siteName, value)`. -/
def wrap (loaderSite : V → Option String) (value : Option V) : Except Exception (AttributeWrapper V) :=
  match value with
  | none => .error .illegalArgument
  | some v => .ok { siteName := (loaderSite v).or env.siteName, value := v }

def setAttribute [BEq V] (loaderSite : V → Option String) (name : String) (value : Option V) :
    SessionEnvironment V × Option Exception :=
  if value == env.getAttribute name then (env, none)
  else
    let env := env.markSessionDirty
    match env.wrap loaderSite value with
    | .error e => (env, some e)
    | .ok w => ({ env with container := env.container.put (name, .wrapper w) }, none)

def removeAttribute (name : String) : SessionEnvironment V × Option V :=
  if name ∈ env.keySet then
    let env := env.markSessionDirty
    let removed := AbstractEnvironment.removeAttribute env.container name
    ({ env with container := removed.1 }, removed.2.map Attribute.getValue)
  else (env, none)

end SessionEnvironment

/-! ## Calls -/

/-- The environment of a scope: the session, or `PLATFORM`, `SITE` or `REQUEST`. -/
inductive ScopedEnvironment (V : Type) where
  | session (env : SessionEnvironment V)
  | scope (container : Container V)

inductive Call (V : Type) where
  | setAttribute (name : String) (value : Option V)
  | getAttribute (name : String)
  | removeAttribute (name : String)
  | getAttributeAsString (name : String)

inductive Answer (V : Type) where
  | done
  | value (v : Option V)
  | text (s : Option String)
  | thrown (e : Exception)
  deriving DecidableEq, Repr

def Answer.ofSet : Option Exception → Answer V
  | none => .done
  | some e => .thrown e

namespace ScopedEnvironment

def getAttribute : ScopedEnvironment V → String → Option V
  | .session env => env.getAttribute
  | .scope container => AbstractEnvironment.getAttribute container

def keySet : ScopedEnvironment V → List String
  | .session env => env.keySet
  | .scope container => AbstractEnvironment.keySet container

def getAttributeAsString [ToString V] : ScopedEnvironment V → String → Option String
  | .session env => env.getAttributeAsString
  | .scope container => AbstractEnvironment.getAttributeAsString toString container

def isSession : ScopedEnvironment V → Bool
  | .session _ => true
  | .scope _ => false

def perform [BEq V] [ToString V] (loaderSite : V → Option String) (env : ScopedEnvironment V) :
    Call V → ScopedEnvironment V × Answer V
  | .setAttribute name value =>
    match env with
    | .session env =>
      let result := env.setAttribute loaderSite name value
      (.session result.1, .ofSet result.2)
    | .scope container =>
      let result := AbstractEnvironment.setAttribute container name value
      (.scope result.1, .ofSet result.2)
  | .getAttribute name => (env, .value (env.getAttribute name))
  | .removeAttribute name =>
    match env with
    | .session env =>
      let result := env.removeAttribute name
      (.session result.1, .value result.2)
    | .scope container =>
      let result := AbstractEnvironment.removeAttribute container name
      (.scope result.1, .value result.2)
  | .getAttributeAsString name => (env, .text (env.getAttributeAsString name))

end ScopedEnvironment

/-! ## The map -/

/-- What the calls do to a map from names to values. To a call for a text the map answers with the value.

A null cannot be stored: a session takes it for a name without a value and refuses it for any other one, the other
scopes always refuse it. What is refused changes nothing. -/
def lookup (session : Bool) (m : String → Option V) : Call V → (String → Option V) × Answer V
  | .setAttribute name (some v) => (Function.update m name (some v), .done)
  | .setAttribute name none =>
    (m, if session then if (m name).isNone then .done else .thrown .illegalArgument else .thrown .nullPointer)
  | .getAttribute name => (m, .value (m name))
  | .removeAttribute name => (Function.update m name none, .value (m name))
  | .getAttributeAsString name => (m, .value (m name))

/-- An answer and that of the map: the value up to `equals`, or its text. -/
inductive Matches [BEq V] [ToString V] : Answer V → Answer V → Prop where
  | done : Matches .done .done
  | value {v w : Option V} : (v == w) = true → Matches (.value v) (.value w)
  | text {v w : Option V} : (v == w) = true → Matches (.text (v.map toString)) (.value w)
  | thrown (e : Exception) : Matches (.thrown e) (.thrown e)

/-- An environment in the state of a map. -/
structure Refines [BEq V] [ToString V] (env : ScopedEnvironment V) (m : String → Option V) : Prop where
  get : ∀ name, (env.getAttribute name == m name) = true
  keys : ∀ name, name ∈ env.keySet ↔ (m name).isSome
  keys_nodup : env.keySet.Nodup
  text : ∀ name, env.getAttributeAsString name = (env.getAttribute name).map toString
  /-- The attributes of a session are its names with the values that are read. -/
  attributes : ∀ s, env = .session s → ∃ values, s.getAttributes = some values ∧ values.map Prod.fst = s.keySet ∧
    ∀ name v, (name, v) ∈ values ↔ s.getAttribute name = some v

/-! ## Reading -/

section Reading

variable {container : Container α} {name other : String} {v : α}

theorem getAttribute_put : AbstractEnvironment.getAttribute (container.put (name, v)) other =
    if name = other then some v else AbstractEnvironment.getAttribute container other := by
  rw [AbstractEnvironment.getAttribute, Keyed.get_put]
  split <;> rfl

theorem getAttribute_erase : AbstractEnvironment.getAttribute (container.erase name) other =
    if other = name then none else AbstractEnvironment.getAttribute container other := by
  rw [AbstractEnvironment.getAttribute, Keyed.get_erase]
  split <;> rfl

theorem scope_getAttribute_put (container : Container α) (name : String) (v : α) :
    AbstractEnvironment.getAttribute (container.put (name, v)) =
      Function.update (AbstractEnvironment.getAttribute container) name (some v) := by
  funext other
  rw [getAttribute_put, Function.update_apply]
  simp only [eq_comm]

theorem scope_getAttribute_erase (container : Container α) (name : String) :
    AbstractEnvironment.getAttribute (container.erase name) =
      Function.update (AbstractEnvironment.getAttribute container) name none := by
  funext other
  rw [getAttribute_erase, Function.update_apply]

theorem mem_keySet : name ∈ AbstractEnvironment.keySet container ↔
    (AbstractEnvironment.getAttribute container name).isSome := by
  rw [AbstractEnvironment.keySet, ← Keyed.isSome_get, AbstractEnvironment.getAttribute, Option.isSome_map]

theorem mem_keys (env : ScopedEnvironment V) : name ∈ env.keySet ↔ (env.getAttribute name).isSome := by
  cases env with
  | session env =>
    show name ∈ AbstractEnvironment.keySet env.container ↔ (env.getAttribute name).isSome
    rw [mem_keySet, SessionEnvironment.getAttribute, Option.isSome_map]
  | scope container => exact mem_keySet

/-- Where every name has a value, all of them are collected. -/
theorem collect {f : String → Option V} : ∀ {names : List String}, (∀ name ∈ names, (f name).isSome) →
    ∃ values, (names.mapM fun name => (f name).map (name, ·)) = some values ∧ values.map Prod.fst = names ∧
      ∀ name v, (name, v) ∈ values ↔ name ∈ names ∧ f name = some v := by
  intro names
  induction names with
  | nil => exact fun _ => ⟨[], rfl, rfl, by simp⟩
  | cons name names ih =>
    intro h
    obtain ⟨v, hv⟩ := Option.isSome_iff_exists.mp (h name List.mem_cons_self)
    obtain ⟨values, hvalues, hnames, hmem⟩ := ih fun n hn => h n (List.mem_cons_of_mem name hn)
    refine ⟨(name, v) :: values, ?_, ?_, fun n w => ?_⟩
    · rw [List.mapM_cons, hv, hvalues]
      rfl
    · rw [List.map_cons, hnames]
    · rw [List.mem_cons, List.mem_cons, hmem, Prod.mk.injEq]
      constructor
      · rintro (⟨rfl, rfl⟩ | ⟨hn, hw⟩)
        · exact ⟨Or.inl rfl, hv⟩
        · exact ⟨Or.inr hn, hw⟩
      · rintro ⟨rfl | hn, hw⟩
        · exact Or.inl ⟨rfl, Option.some.inj (hw.symm.trans hv)⟩
        · exact Or.inr ⟨hn, hw⟩

end Reading

/-! ## The refinement -/

section Refinement

variable [BEq V] [ToString V] {env : ScopedEnvironment V} {m : String → Option V}

omit [ToString V] in
theorem isSome_eq_of_beq {v w : Option V} (h : (v == w) = true) : v.isSome = w.isSome := by
  cases v <;> cases w <;> first | rfl | cases h

/-- What a read returns decides everything else. -/
theorem refines_of_get (h : ∀ name, (env.getAttribute name == m name) = true) : Refines env m where
  get := h
  keys name := by rw [mem_keys, isSome_eq_of_beq (h name)]
  keys_nodup := by
    cases env with
    | session env => exact env.container.nodup
    | scope container => exact container.nodup
  text name := by
    cases env with
    | session env =>
      show Option.map _ _ = Option.map _ (Option.map _ _)
      rw [Option.map_map]
      rfl
    | scope container => rfl
  attributes := by
    rintro s rfl
    have hkeys : ∀ name ∈ s.keySet, (s.getAttribute name).isSome := fun name => (mem_keys (.session s)).mp
    obtain ⟨values, hvalues, hnames, hmem⟩ := collect hkeys
    refine ⟨values, hvalues, hnames, fun name v => ?_⟩
    rw [hmem, and_iff_right_iff_imp]
    intro hv
    refine (mem_keys (.session s)).mpr ?_
    show (s.getAttribute name).isSome
    rw [hv]
    rfl

variable (loaderSite : V → Option String)

/-! ### One call -/

section Session

variable (session : SessionEnvironment V) (name : String)

omit [BEq V] [ToString V] in
theorem session_getAttribute_put (w : AttributeWrapper V) (changed : Bool) :
    ({ session with container := session.container.put (name, .wrapper w), changed } :
        SessionEnvironment V).getAttribute =
      Function.update session.getAttribute name (some w.value) := by
  funext other
  rw [SessionEnvironment.getAttribute, getAttribute_put, Function.update_apply]
  by_cases h : name = other
  · rw [if_pos h, if_pos h.symm]
    rfl
  · rw [if_neg h, if_neg (Ne.symm h)]
    rfl

omit [ToString V] in
/-- A null is compared like any other value, and refused when it is wrapped. -/
theorem session_setAttribute_null : session.setAttribute loaderSite name none =
    if (session.getAttribute name).isNone then (session, none)
    else (session.markSessionDirty, some .illegalArgument) := by
  rw [SessionEnvironment.setAttribute]
  cases session.getAttribute name <;> rfl

omit [ToString V] in
/-- An equal value stays where it is. -/
theorem session_setAttribute_some [ReflBEq V] (v : V) :
    (session.setAttribute loaderSite name (some v)).2 = none ∧
      ∀ other, (Function.update session.getAttribute name (some v) other ==
        (session.setAttribute loaderSite name (some v)).1.getAttribute other) = true := by
  rw [SessionEnvironment.setAttribute]
  by_cases h : (some v == session.getAttribute name) = true
  · rw [if_pos h]
    refine ⟨rfl, fun other => ?_⟩
    rw [Function.update_apply]
    split
    · rename_i hother
      rw [hother]
      exact h
    · exact BEq.refl _
  · rw [if_neg h]
    refine ⟨rfl, fun other => ?_⟩
    let w : AttributeWrapper V := { siteName := (loaderSite v).or session.siteName, value := v }
    show (_ == SessionEnvironment.getAttribute
      { session with container := session.container.put (name, .wrapper w), changed := true } other) = true
    rw [session_getAttribute_put]
    exact BEq.refl _

omit [BEq V] [ToString V] in
theorem session_removeAttribute : (session.removeAttribute name).2 = session.getAttribute name ∧
    (session.removeAttribute name).1.getAttribute = Function.update session.getAttribute name none := by
  rw [SessionEnvironment.removeAttribute]
  by_cases h : name ∈ session.keySet
  · rw [if_pos h]
    refine ⟨rfl, ?_⟩
    funext other
    show (AbstractEnvironment.getAttribute (session.container.erase name) other).map Attribute.getValue = _
    rw [getAttribute_erase, Function.update_apply]
    split <;> rfl
  · have hnone : session.getAttribute name = none := by
      rw [← Option.not_isSome_iff_eq_none]
      exact fun hsome => h ((mem_keys (.session session)).mpr hsome)
    rw [if_neg h, hnone]
    refine ⟨rfl, ?_⟩
    rw [← hnone, Function.update_eq_self]

end Session

omit [ToString V] in
theorem update_beq [ReflBEq V] {f : String → Option V} (h : ∀ name, (f name == m name) = true) (name : String)
    (v : Option V) : ∀ other, (Function.update f name v other == Function.update m name v other) = true := by
  intro other
  rw [Function.update_apply, Function.update_apply]
  split
  · exact BEq.refl v
  · exact h other

omit [ToString V] in
theorem beq_of_beq_left [EquivBEq V] {u v w : Option V} (h : (u == v) = true) (hw : (u == w) = true) :
    (v == w) = true := by
  cases u with
  | none =>
    cases v with
    | none => exact hw
    | some b => cases h
  | some a =>
    cases v with
    | none => cases h
    | some b =>
      cases w with
      | none => cases hw
      | some c =>
        have hab : (a == b) = true := h
        have hac : (a == c) = true := hw
        have hbc : (b == c) = true := BEq.trans (BEq.symm hab) hac
        exact hbc

/-- A null leaves a session as it is, whether it is ignored or refused. -/
theorem null_refines {session : SessionEnvironment V} (h : Refines (.session session) m) (name : String) :
    Matches (V := V) (.ofSet (session.setAttribute loaderSite name none).2)
        (if (m name).isNone then .done else .thrown .illegalArgument) ∧
      Refines (.session (session.setAttribute loaderSite name none).1) m := by
  have hsome : (session.getAttribute name).isSome = (m name).isSome := isSome_eq_of_beq (h.get name)
  rw [session_setAttribute_null loaderSite session name]
  cases hm : m name with
  | none =>
    rw [hm, Option.isSome_none, Option.isSome_eq_false_iff] at hsome
    rw [if_pos hsome]
    exact ⟨.done, h⟩
  | some v =>
    have hnot : ¬ (session.getAttribute name).isNone = true := by
      rw [hm, Option.isSome_some] at hsome
      simp [Option.isSome_iff_ne_none.mp hsome]
    rw [if_neg hnot]
    exact ⟨.thrown .illegalArgument, refines_of_get h.get⟩

variable [EquivBEq V]

/-- One call of the environment is one call of the map. -/
theorem step_refines (call : Call V) (h : Refines env m) :
    Matches (env.perform loaderSite call).2 (lookup env.isSession m call).2 ∧
      Refines (env.perform loaderSite call).1 (lookup env.isSession m call).1 ∧
      (env.perform loaderSite call).1.isSession = env.isSession := by
  cases call with
  | getAttribute name => exact ⟨.value (h.get name), h, rfl⟩
  | getAttributeAsString name =>
    have htext : (env.perform loaderSite (.getAttributeAsString name)).2 =
        .text ((env.getAttribute name).map toString) := congrArg Answer.text (h.text name)
    rw [htext]
    exact ⟨.text (h.get name), h, rfl⟩
  | removeAttribute name =>
    cases env with
    | session env =>
      obtain ⟨hanswer, hget⟩ := session_removeAttribute env name
      refine ⟨?_, refines_of_get ?_, rfl⟩
      · show Matches (.value (env.removeAttribute name).2) _
        rw [hanswer]
        exact .value (h.get name)
      · show ∀ other, ((env.removeAttribute name).1.getAttribute other == _) = true
        rw [hget]
        exact update_beq h.get name none
    | scope container =>
      refine ⟨.value (h.get name), refines_of_get ?_, rfl⟩
      show ∀ other, (AbstractEnvironment.getAttribute (container.erase name) other == _) = true
      rw [scope_getAttribute_erase]
      exact update_beq h.get name none
  | setAttribute name value =>
    cases value with
    | none =>
      cases env with
      | session env =>
        obtain ⟨hanswer, hrefines⟩ := null_refines loaderSite h name
        exact ⟨hanswer, hrefines, rfl⟩
      | scope container => exact ⟨.thrown .nullPointer, h, rfl⟩
    | some v =>
      cases env with
      | session env =>
        obtain ⟨hanswer, hget⟩ := session_setAttribute_some loaderSite env name v
        refine ⟨?_, refines_of_get fun other => ?_, rfl⟩
        · show Matches (.ofSet (env.setAttribute loaderSite name (some v)).2) _
          rw [hanswer]
          exact .done
        · exact beq_of_beq_left (hget other) (update_beq h.get name (some v) other)
      | scope container =>
        refine ⟨.done, refines_of_get ?_, rfl⟩
        show ∀ other, (AbstractEnvironment.getAttribute (container.put (name, v)) other == _) = true
        rw [scope_getAttribute_put]
        exact update_beq h.get name (some v)

end Refinement

/-- Any sequence of calls, on any scope. -/
theorem environment_refines [BEq V] [EquivBEq V] [ToString V] (loaderSite : V → Option String)
    (env : ScopedEnvironment V) (calls : List (Call V)) :
    List.Forall₂ Matches (Simulation.answers (ScopedEnvironment.perform loaderSite) env calls)
        (Simulation.answers (lookup env.isSession) env.getAttribute calls) ∧
      Refines (Simulation.final (ScopedEnvironment.perform loaderSite) env calls)
        (Simulation.final (lookup env.isSession) env.getAttribute calls) := by
  have hstart : Refines env env.getAttribute := refines_of_get fun name => BEq.refl _
  obtain ⟨hanswers, hfinal, _⟩ := Simulation.simulates (f := ScopedEnvironment.perform loaderSite)
    (g := lookup env.isSession) (R := fun e m => Refines e m ∧ e.isSession = env.isSession) (S := Matches)
    (fun e m call h => by
      obtain ⟨hmatch, hnext, hsame⟩ := step_refines loaderSite call h.1
      rw [h.2] at hmatch hnext
      exact ⟨hmatch, hnext, hsame.trans h.2⟩) calls ⟨hstart, rfl⟩
  exact ⟨hanswers, hfinal⟩

/-- A session without attributes. -/
def fresh : ScopedEnvironment String := .session { siteName := none, container := Keyed.empty }

/-- A request without attributes. -/
def freshRequest : ScopedEnvironment String := .scope Keyed.empty

/-- A null before and after a value, which is then taken out, beside another value that stays. -/
def nullCalls : List (Call String) :=
  [.setAttribute "name" none, .setAttribute "name" (some "value"), .setAttribute "other" (some "text"),
    .setAttribute "name" none, .getAttribute "name", .removeAttribute "name", .getAttribute "name",
    .getAttributeAsString "other"]

theorem environment_refines_fresh :
    (List.Forall₂ Matches (Simulation.answers (ScopedEnvironment.perform fun _ => none) fresh nullCalls)
        [.done, .done, .done, .thrown .illegalArgument, .value (some "value"), .value (some "value"), .value none,
          .value (some "text")] ∧
      Refines (Simulation.final (ScopedEnvironment.perform fun _ => none) fresh nullCalls)
        (Simulation.final (lookup true) fresh.getAttribute nullCalls)) ∧
    List.Forall₂ Matches (Simulation.answers (ScopedEnvironment.perform fun _ => none) freshRequest nullCalls)
        [.thrown .nullPointer, .done, .done, .thrown .nullPointer, .value (some "value"), .value (some "value"),
          .value none, .value (some "text")] ∧
      Refines (Simulation.final (ScopedEnvironment.perform fun _ => none) freshRequest nullCalls)
        (Simulation.final (lookup false) freshRequest.getAttribute nullCalls) :=
  ⟨environment_refines (fun _ => none) fresh nullCalls, environment_refines (fun _ => none) freshRequest nullCalls⟩

/-- A null is refused for a name with a value, which stays, and by the other scopes for any name. -/
theorem null_throws :
    Simulation.answers (ScopedEnvironment.perform fun _ => none) fresh
        [.setAttribute "name" (some "value"), .setAttribute "name" none, .getAttribute "name"] =
      [.done, .thrown .illegalArgument, .value (some "value")] ∧
    Simulation.answers (ScopedEnvironment.perform fun _ => none) (.scope Keyed.empty : ScopedEnvironment String)
        [.setAttribute "name" none] = [.thrown .nullPointer] := by
  decide

end Environment
end AppNG
