import AppNG.Lib.JavaString
import AppNG.Lib.Loop

/-!
# Messaging.Receiver

The `MulticastReceiver`: a loop that reads datagrams, with `Messaging.handleEvent`,
`Serializer.deserialize` and the `EventRegistry`.

`deserialize` expects an `IOException` or a `ClassNotFoundException` only. `handleEvent` and
`processEvent` expect any `Exception` once there is an event, and print the event then. All else ends
the loop.

* `getHandlers_registerAll`: the handlers for an event are those registered for its class.
* `onEvent_iff`: a datagram makes the calls that it should and leaves the loop running if and only if
  it is harmless.
* `listens_iff`: so do all datagrams up to each of them.
-/

namespace AppNG
namespace Messaging
namespace Receiver

open Loop

/-- What is not an `Exception` is an `Error`. -/
inductive Thrown where
  | exception
  | error
  deriving DecidableEq, Repr

/-! ## The registry -/

/-- A `defaultHandler` that is not set is the `DefaultEventHandler`. -/
structure EventRegistry (C H : Type) where
  handlers : C → List H
  defaultHandler : Option H

variable {C H Site : Type}

def EventRegistry.register [DecidableEq C] (registry : EventRegistry C H) (handler : C × H) :
    EventRegistry C H :=
  { registry with
    handlers := fun c =>
      if c = handler.1 then registry.handlers c ++ [handler.2] else registry.handlers c }

def EventRegistry.getHandlers (registry : EventRegistry C H) (eventClass : C) : List (Option H) :=
  if (registry.handlers eventClass).isEmpty then [registry.defaultHandler]
  else (registry.handlers eventClass).map some

def registerAll [DecidableEq C] (registry : EventRegistry C H) (handlers : List (C × H)) :
    EventRegistry C H :=
  handlers.foldl EventRegistry.register registry

/-! ## Datagrams -/

structure Event (C : Type) where
  eventClass : C
  siteName : Option String
  nodeId : Option String
  /-- `toString` returns -/
  printable : Bool

/-- What `readObject` comes to. -/
inductive ReadObject (C : Type) where
  | null
  | string (s : String)
  | event (event : Event C)
  | other
  /-- an `IOException` or a `ClassNotFoundException` -/
  | threw
  | runtimeException

/-- A datagram, with the platform at the time when it arrives. -/
structure Datagram (C Site : Type) where
  senderHost : String
  first : ReadObject C
  second : ReadObject C
  /-- the attribute may not be there yet, or not any more -/
  siteMap : Option (String → Option Site)
  /-- what each of the handlers throws that are called -/
  onEvent : Nat → Option Thrown

/-- A failed cast is a runtime exception. -/
def readEvent : ReadObject C → Except Thrown (Option (Event C))
  | .event event => .ok (some event)
  | .null | .threw => .ok none
  | .string _ | .other | .runtimeException => .error .exception

/-- The class loader of a site is looked up before the event is read, which throws a
`NullPointerException` without the `siteMap`. -/
def deserialize (d : Datagram C Site) : Except Thrown (Option (Event C)) :=
  match d.first with
  | .null => readEvent d.second
  | .string _ => if d.siteMap.isNone = true then .error .exception else readEvent d.second
  | .threw => .ok none
  | .event _ | .other | .runtimeException => .error .exception

structure Call (C H Site : Type) where
  /-- none: the `DefaultEventHandler` -/
  handler : Option H
  event : Event C
  site : Option Site

structure MulticastReceiver (C H : Type) where
  nodeId : Option String
  nodeIps : List String
  /-- the addresses of the machine: `isSameAddress` -/
  addresses : List String
  defaultHandler : Option H
  /-- what was registered, in order -/
  handlers : List (C × H)

def MulticastReceiver.registry [DecidableEq C] (r : MulticastReceiver C H) : EventRegistry C H :=
  registerAll ⟨fun _ => [], r.defaultHandler⟩ r.handlers

/-- The catch clauses of `handleEvent` and `processEvent`: the event is printed there. -/
def caught (event : Event C) : Option Thrown → Option Thrown
  | some .exception => if event.printable then none else some .exception
  | thrown => thrown

/-- The event is processed by one handler after the other. -/
def processEvent (d : Datagram C Site) (event : Event C) (site : Option Site)
    (calls : List (Call C H Site)) (handler : Option H × Nat) :
    List (Call C H Site) × Option Thrown :=
  (calls ++ [⟨handler.1, event, site⟩], caught event (d.onEvent handler.2))

/-- The site of an event. Without the `siteMap` this is a `NullPointerException`. -/
def getSite (d : Datagram C Site) (event : Event C) : Except Thrown (Option Site) :=
  if Java.isBlank event.siteName then .ok none
  else
    match d.siteMap with
    | some siteMap => .ok (event.siteName.bind siteMap)
    | none => .error .exception

/-- The receiver has no executor, so no event is processed asynchronously. -/
def handleEvent [DecidableEq C] (r : MulticastReceiver C H) (d : Datagram C Site)
    (alternativeCondition : Bool) (calls : List (Call C H Site)) : List (Call C H Site) × Option Thrown :=
  match deserialize d with
  | .error thrown => (calls, some thrown)
  | .ok none => (calls, none)
  | .ok (some event) =>
    match getSite d event with
    | .error thrown => (calls, caught event (some thrown))
    | .ok site =>
      if r.nodeId ≠ event.nodeId ∨ alternativeCondition = true then
        let (calls, thrown) := foldUntil (processEvent d event site) calls
          (r.registry.getHandlers event.eventClass).zipIdx
        (calls, caught event thrown)
      else (calls, none)

def onEvent [DecidableEq C] (r : MulticastReceiver C H) (calls : List (Call C H Site))
    (d : Datagram C Site) : List (Call C H Site) × Option Thrown :=
  if r.nodeIps.isEmpty ∨ d.senderHost ∈ r.nodeIps then
    handleEvent r d (!(d.senderHost ∈ r.addresses)) calls
  else (calls, none)

/-- The loop of `run`: the calls of handlers, and what ended it. -/
def run [DecidableEq C] (r : MulticastReceiver C H) (datagrams : List (Datagram C Site)) :
    List (Call C H Site) × Option Thrown :=
  foldUntil (onEvent r) [] datagrams

/-! ## What should happen -/

/-- The handlers registered for a class, or else the default handler. -/
def MulticastReceiver.handlersFor [DecidableEq C] (r : MulticastReceiver C H) (eventClass : C) :
    List (Option H) :=
  match r.handlers.filter (·.1 = eventClass) with
  | [] => [r.defaultHandler]
  | handlers => handlers.map (some ·.2)

def Datagram.validEvent (d : Datagram C Site) : Option (Event C) :=
  match d.first, d.second with
  | .null, .event event | .string _, .event event => some event
  | _, _ => none

def Datagram.site (d : Datagram C Site) (event : Event C) : Option Site :=
  if Java.isBlank event.siteName then none
  else d.siteMap.bind fun siteMap => event.siteName.bind siteMap

def Accepts (r : MulticastReceiver C H) (d : Datagram C Site) : Prop :=
  r.nodeIps = [] ∨ d.senderHost ∈ r.nodeIps

/-- The event comes from the node itself. -/
def FromSelf (r : MulticastReceiver C H) (d : Datagram C Site) (event : Event C) : Prop :=
  r.nodeId = event.nodeId ∧ d.senderHost ∈ r.addresses

instance (r : MulticastReceiver C H) (d : Datagram C Site) : Decidable (Accepts r d) :=
  inferInstanceAs (Decidable (_ ∨ _))

instance (r : MulticastReceiver C H) (d : Datagram C Site) (event : Event C) :
    Decidable (FromSelf r d event) :=
  inferInstanceAs (Decidable (_ ∧ _))

/-- Every handler gets a valid event of another node exactly once. -/
def expected [DecidableEq C] (r : MulticastReceiver C H) (d : Datagram C Site) :
    List (Call C H Site) :=
  match d.validEvent with
  | none => []
  | some event =>
    if Accepts r d ∧ ¬ FromSelf r d event then
      (r.handlersFor event.eventClass).map fun handler => ⟨handler, event, d.site event⟩
    else []

/-- The event can be handled: its site can be looked up, or else the event is the node's own and can be
printed, and of the handlers that are called none throws but an exception for an event that can be
printed. -/
def HarmlessEvent [DecidableEq C] (r : MulticastReceiver C H) (d : Datagram C Site)
    (event : Event C) : Prop :=
  (d.siteMap.isSome = true ∨ Java.isBlank event.siteName = true ∨
      FromSelf r d event ∧ event.printable = true) ∧
    (¬ FromSelf r d event → ∀ i < (r.handlersFor event.eventClass).length, ∀ thrown,
      d.onEvent i = some thrown → thrown = .exception ∧ event.printable = true)

/-- What is read from an accepted datagram is what was expected, or it cannot be read. -/
def Harmless [DecidableEq C] (r : MulticastReceiver C H) (d : Datagram C Site) : Prop :=
  Accepts r d → d.first = .threw ∨
    (d.first = .null ∨ (∃ name, d.first = .string name) ∧ d.siteMap.isSome = true) ∧
      (d.second = .null ∨ d.second = .threw ∨
        ∃ event, d.second = .event event ∧ HarmlessEvent r d event)

section Registry

variable [DecidableEq C]

theorem handlers_registerAll (handlers : List (C × H)) (registry : EventRegistry C H) (c : C) :
    (registerAll registry handlers).handlers c =
      registry.handlers c ++ (handlers.filter (·.1 = c)).map (·.2) := by
  unfold registerAll
  induction handlers generalizing registry with
  | nil => simp
  | cons handler handlers ih =>
    rw [List.foldl_cons, ih, EventRegistry.register]
    by_cases hc : c = handler.1
    · simp [hc]
    · have hc' : ¬ handler.1 = c := fun heq => hc heq.symm
      simp [hc, hc']

theorem defaultHandler_registerAll (handlers : List (C × H)) (registry : EventRegistry C H) :
    (registerAll registry handlers).defaultHandler = registry.defaultHandler := by
  unfold registerAll
  induction handlers generalizing registry with
  | nil => rfl
  | cons handler handlers ih => rw [List.foldl_cons, ih, EventRegistry.register]

theorem getHandlers_registerAll (r : MulticastReceiver C H) (c : C) :
    r.registry.getHandlers c = r.handlersFor c := by
  unfold EventRegistry.getHandlers MulticastReceiver.handlersFor MulticastReceiver.registry
  rw [handlers_registerAll, defaultHandler_registerAll, List.nil_append]
  split
  · rename_i hnone
    have hfilter : r.handlers.filter (·.1 = c) = [] := by simpa using hnone
    rw [hfilter]
  · rename_i hsome
    split
    · rename_i hfilter
      simp [hfilter] at hsome
    · rw [List.map_map]
      rfl

theorem handlersFor_ne_nil (r : MulticastReceiver C H) (c : C) : r.handlersFor c ≠ [] := by
  unfold MulticastReceiver.handlersFor
  split
  · exact List.cons_ne_nil _ _
  · rename_i hne
    exact fun hnil => hne (List.map_eq_nil_iff.mp hnil)

end Registry

/-! ## One datagram -/

section Caught

variable {event : Event C} {thrown : Option Thrown}

theorem caught_eq_none :
    caught event thrown = none ↔
      ∀ t, thrown = some t → t = .exception ∧ event.printable = true := by
  cases thrown with
  | none => simp [caught]
  | some t =>
    cases t with
    | exception => simp [caught]
    | error => simp [caught]

/-- What was not caught once is not caught again. -/
theorem caught_caught : caught event (caught event thrown) = caught event thrown := by
  cases thrown with
  | none => rfl
  | some t =>
    cases t with
    | error => rfl
    | exception =>
      cases hprintable : event.printable with
      | true => simp [caught, hprintable]
      | false => simp [caught, hprintable]

end Caught

variable {d : Datagram C Site} {event : Event C} {site : Option Site}

/-- All handlers are called and nothing is thrown if and only if nothing remains uncaught. -/
theorem processAll_iff (calls : List (Call C H Site)) (handlers : List (Option H × Nat)) :
    foldUntil (processEvent d event site) calls handlers =
        (calls ++ handlers.map fun handler => ⟨handler.1, event, site⟩, none) ↔
      ∀ handler ∈ handlers, caught event (d.onEvent handler.2) = none := by
  constructor
  · intro h handler hmem
    obtain ⟨u, v, hok⟩ := foldUntil_ok h handler hmem
    exact congrArg Prod.snd hok
  · intro h
    have hstep : ∀ (calls : List (Call C H Site)) handler,
        processEvent d event site calls handler = (calls ++ [⟨handler.1, event, site⟩], none) ↔
          caught event (d.onEvent handler.2) = none := by
      intro calls handler
      simp [processEvent]
    have hall := (foldUntil_exact_iff hstep calls handlers).mpr h handlers [] (by simp)
    rw [hall, List.map_eq_flatMap]

theorem processAll_caught (calls : List (Call C H Site)) (handlers : List (Option H × Nat)) :
    caught event (foldUntil (processEvent d event site) calls handlers).2 =
      (foldUntil (processEvent d event site) calls handlers).2 := by
  cases hloop : foldUntil (processEvent d event site) calls handlers with
  | mk u thrown =>
    cases thrown with
    | none => rfl
    | some t =>
      obtain ⟨v, handler, -, hthrew⟩ := foldUntil_threw hloop
      have ht : caught event (d.onEvent handler.2) = some t := congrArg Prod.snd hthrew
      rw [← ht]
      exact caught_caught

theorem readEvent_ok {second : ReadObject C} {o : Option (Event C)} :
    readEvent second = .ok o → (match second with | .event event => some event | _ => none) = o := by
  intro h
  cases second with
  | event event => cases h; rfl
  | null => cases h; rfl
  | threw => cases h; rfl
  | _ => cases h

/-- What `deserialize` returns is the valid event of the datagram, or that there is none. -/
theorem validEvent_of_deserialize {o : Option (Event C)} (h : deserialize d = .ok o) :
    d.validEvent = o := by
  unfold deserialize at h
  unfold Datagram.validEvent
  cases hfirst : d.first with
  | null =>
    simp only [hfirst] at h
    rw [← readEvent_ok h]
    cases d.second <;> rfl
  | string name =>
    simp only [hfirst] at h
    split at h
    · cases h
    · rw [← readEvent_ok h]
      cases d.second <;> rfl
  | threw => simp only [hfirst] at h; cases h; rfl
  | _ => simp only [hfirst] at h; cases h

theorem getSite_eq (d : Datagram C Site) (event : Event C) :
    getSite d event =
      if Java.isBlank event.siteName = true ∨ d.siteMap.isSome = true then .ok (d.site event)
      else .error .exception := by
  unfold getSite Datagram.site
  cases hblank : Java.isBlank event.siteName with
  | true => simp
  | false =>
    cases hmap : d.siteMap with
    | none => simp
    | some siteMap => simp

theorem forall_zipIdx {handlers : List (Option H)} :
    (∀ handler ∈ handlers.zipIdx, caught event (d.onEvent handler.2) = none) ↔
      ∀ i < handlers.length, ∀ thrown, d.onEvent i = some thrown →
        thrown = .exception ∧ event.printable = true := by
  constructor
  · intro h i hi
    exact caught_eq_none.mp (h (handlers[i], i) (List.mk_mem_zipIdx_iff_getElem?.mpr (by simp [hi])))
  · rintro h ⟨handler, i⟩ hmem
    have hi : handlers[i]? = some handler := List.mk_mem_zipIdx_iff_getElem?.mp hmem
    exact caught_eq_none.mpr (h i (List.getElem?_eq_some_iff.mp hi).1)

theorem notFromSelf_iff {r : MulticastReceiver C H} :
    (r.nodeId ≠ event.nodeId ∨ (!(d.senderHost ∈ r.addresses)) = true) ↔ ¬ FromSelf r d event := by
  rw [FromSelf, not_and_or, Bool.not_eq_true', decide_eq_false_iff_not]

theorem readEvent_ok_iff {P : Event C → Prop} (second : ReadObject C) :
    (second = .null ∨ second = .threw ∨ ∃ event, second = .event event ∧ P event) ↔
      ∃ o, readEvent second = .ok o ∧ ∀ event, o = some event → P event := by
  cases second <;> simp [readEvent]

section Step

variable [DecidableEq C] {r : MulticastReceiver C H} {calls : List (Call C H Site)}

theorem expected_of_other (haccepts : Accepts r d) (hvalid : d.validEvent = some event)
    (hother : ¬ FromSelf r d event) :
    expected r d =
      (r.handlersFor event.eventClass).map fun handler => ⟨handler, event, d.site event⟩ := by
  simp only [expected, hvalid]
  exact if_pos ⟨haccepts, hother⟩

theorem expected_of_self (hvalid : d.validEvent = some event) (hself : FromSelf r d event) :
    expected r d = [] := by
  simp only [expected, hvalid]
  exact if_neg fun h => h.2 hself

/-- The event is handled as it should, once it was read. -/
theorem handleEvent_iff (haccepts : Accepts r d) (hread : deserialize d = .ok (some event))
    (hvalid : d.validEvent = some event) :
    handleEvent r d (!(d.senderHost ∈ r.addresses)) calls = (calls ++ expected r d, none) ↔
      HarmlessEvent r d event := by
  have hhandlers : r.registry.getHandlers event.eventClass = r.handlersFor event.eventClass :=
    getHandlers_registerAll r event.eventClass
  simp only [handleEvent, hread, getSite_eq, notFromSelf_iff, hhandlers]
  by_cases hsite : Java.isBlank event.siteName = true ∨ d.siteMap.isSome = true
  · simp only [if_pos hsite]
    have hlookup : d.siteMap.isSome = true ∨ Java.isBlank event.siteName = true ∨
        FromSelf r d event ∧ event.printable = true := by
      rcases hsite with hblank | hmap
      · exact Or.inr (Or.inl hblank)
      · exact Or.inl hmap
    by_cases hself : FromSelf r d event
    · rw [if_neg (not_not_intro hself), expected_of_self hvalid hself, List.append_nil]
      exact iff_of_true rfl ⟨hlookup, fun hother => absurd hself hother⟩
    · have hmap : (r.handlersFor event.eventClass).zipIdx.map
          (fun handler => (⟨handler.1, event, d.site event⟩ : Call C H Site)) =
          (r.handlersFor event.eventClass).map fun handler => ⟨handler, event, d.site event⟩ := by
        conv_rhs => rw [← List.zipIdx_map_fst 0 (r.handlersFor event.eventClass), List.map_map]
        rfl
      rw [if_pos hself, expected_of_other haccepts hvalid hself, processAll_caught]
      rw [HarmlessEvent, and_iff_right hlookup, imp_iff_right hself, ← forall_zipIdx]
      rw [← processAll_iff calls, hmap]
  · simp only [if_neg hsite]
    rw [not_or] at hsite
    have hnolookup : (d.siteMap.isSome = true ∨ Java.isBlank event.siteName = true ∨
        FromSelf r d event ∧ event.printable = true) ↔
          FromSelf r d event ∧ event.printable = true := by
      rw [or_iff_right hsite.2, or_iff_right hsite.1]
    rw [HarmlessEvent, hnolookup, Prod.mk.injEq, caught_eq_none]
    constructor
    · rintro ⟨hcalls, hcaught⟩
      by_cases hself : FromSelf r d event
      · exact ⟨⟨hself, (hcaught .exception rfl).2⟩, fun hother => absurd hself hother⟩
      · rw [expected_of_other haccepts hvalid hself, List.self_eq_append_right,
          List.map_eq_nil_iff] at hcalls
        exact absurd hcalls (handlersFor_ne_nil r event.eventClass)
    · rintro ⟨⟨hself, hprintable⟩, -⟩
      rw [expected_of_self hvalid hself, List.append_nil]
      refine ⟨rfl, ?_⟩
      rintro _ ⟨⟩
      exact ⟨rfl, hprintable⟩

/-- A datagram is harmless if `deserialize` returns and the event can be handled. -/
theorem harmless_iff (haccepts : Accepts r d) :
    Harmless r d ↔
      ∃ o, deserialize d = .ok o ∧ ∀ event, o = some event → HarmlessEvent r d event := by
  rw [Harmless, imp_iff_right haccepts, readEvent_ok_iff, deserialize]
  cases hfirst : d.first with
  | null => simp
  | threw => simp
  | event event => simp
  | other => simp
  | runtimeException => simp
  | string name =>
    cases hmap : d.siteMap with
    | none => simp
    | some siteMap => simp

theorem onEvent_iff (r : MulticastReceiver C H) (calls : List (Call C H Site))
    (d : Datagram C Site) : onEvent r calls d = (calls ++ expected r d, none) ↔ Harmless r d := by
  have hnothing : d.validEvent = none → expected r d = [] := by
    intro hvalid
    simp only [expected, hvalid]
  simp only [onEvent, List.isEmpty_iff]
  by_cases haccepts : r.nodeIps = [] ∨ d.senderHost ∈ r.nodeIps
  · rw [if_pos haccepts, harmless_iff haccepts]
    cases hread : deserialize d with
    | error thrown => simp [handleEvent, hread]
    | ok o =>
      have hvalid : d.validEvent = o := validEvent_of_deserialize hread
      cases o with
      | none => simp [handleEvent, hread, hnothing hvalid]
      | some event =>
        rw [handleEvent_iff haccepts hread hvalid]
        simp
  · have hexpected : expected r d = [] := by
      unfold expected
      split
      · rfl
      · exact if_neg fun h => haccepts h.1
    rw [if_neg haccepts, hexpected, List.append_nil]
    exact iff_of_true rfl fun h => absurd h haccepts

theorem listens_iff (r : MulticastReceiver C H) (datagrams : List (Datagram C Site)) :
    (∀ pre post, datagrams = pre ++ post → run r pre = (pre.flatMap (expected r), none)) ↔
      ∀ d ∈ datagrams, Harmless r d :=
  foldUntil_exact_iff (onEvent_iff r) [] datagrams

end Step

section Example

/-- A node with one handler, which accepts everything. -/
def oneHandler : MulticastReceiver Unit Unit := ⟨some "node", [], [], none, [((), ())]⟩

/-- A name and another string. -/
def twoStrings : Datagram Unit Unit :=
  ⟨"sender", .string "site", .string "site", some fun _ => none, fun _ => none⟩

/-- A valid event of another node. -/
def valid : Datagram Unit Unit :=
  ⟨"sender", .null, .event ⟨(), none, some "other", true⟩, some fun _ => none, fun _ => none⟩

/-- The event does not get to the handler any more. -/
theorem strings_end_run :
    run oneHandler [twoStrings, valid] = ([], some .exception) ∧ expected oneHandler valid ≠ [] ∧
      ¬ ∀ pre post, [twoStrings, valid] = pre ++ post →
        run oneHandler pre = (pre.flatMap (expected oneHandler), none) := by
  have hended : run oneHandler [twoStrings] = ([], some .exception) := rfl
  refine ⟨rfl, List.cons_ne_nil _ _, fun h => ?_⟩
  have hgoes := h [twoStrings] [valid] rfl
  rw [hended] at hgoes
  cases hgoes

end Example

end Receiver
end Messaging
end AppNG
