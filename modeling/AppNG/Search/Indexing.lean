import AppNG.Lib.BoundedQueue
import AppNG.Lib.Machine
import AppNG.Search.DocumentIndexer
import Mathlib.Logic.Function.Basic

/-!
# Search.Indexing

The threads around an index: any number of threads that fill producers and put producers into the
queue of the indexer, and the thread that runs `DocumentIndexer.run`.

A step is one operation of a `BlockingQueueAccessor` that returns, and what the thread of the indexer
does with the element it got. A blocking operation that does not return is no step.

* `accounts_run`: whatever the order of the steps, no event that a producer accepted is lost or
  doubled, and every producer is asked in the order the indexer accepted it.
* The index is the one of the sequential model (`run`) for the sessions of the indexer.
* `kept_run`: a producer that was discarded keeps its events until it is put again, and a `put` into
  its full queue does not return.
-/

namespace AppNG
namespace Search

open Machine

variable {P F : Type}

/-- The thread of the indexer: at `get`, or with a writer open for a producer. -/
inductive Indexer (P F : Type) where
  | waiting
  | writing (producer : P) (writer : Index F)
  | ended

structure Threads (P F : Type) where
  /-- The queue of the indexer. -/
  producers : BoundedQueue P
  /-- The queue of each producer. -/
  queue : P → BoundedQueue (DocumentEvent F)
  indexer : Indexer P F
  /-- What was committed. -/
  index : Index F

inductive Operation (P F : Type) where
  /-- `put`, which returned, also the one with a timeout. -/
  | put (producer : P) (event : DocumentEvent F)
  /-- `put` returned false, or `putWithTimeout` threw. -/
  | putTimeout (producer : P) (event : DocumentEvent F)
  | submit (producer : P)
  | submitTimeout (producer : P)
  /-- `get` returned, and a writer was opened or not. -/
  | get (producer : P) (opens : Bool)
  /-- `producer.get(timeout)` returned an event. -/
  | consume (producer : P) (event : DocumentEvent F)
  /-- `producer.get(timeout)` returned null, and the commit succeeded or not. -/
  | discard (producer : P) (commits : Bool)
  | interrupt

variable [DecidableEq P]

/-! ## Steps -/

/-- With another queue for a producer. -/
def Threads.withQueue (s : Threads P F) (p : P) (q : BoundedQueue (DocumentEvent F)) : Threads P F :=
  { s with queue := Function.update s.queue p q }

inductive Step : Threads P F → Operation P F → Threads P F → Prop where
  | put {s : Threads P F} {p : P} {e : DocumentEvent F} {q : BoundedQueue (DocumentEvent F)} :
      (s.queue p).offer e = some q → Step s (.put p e) (s.withQueue p q)
  | putTimeout {s : Threads P F} {p : P} {e : DocumentEvent F} :
      (s.queue p).offer e = none → Step s (.putTimeout p e) s
  | submit {s : Threads P F} {p : P} {q : BoundedQueue P} :
      s.producers.offer p = some q → Step s (.submit p) { s with producers := q }
  | submitTimeout {s : Threads P F} {p : P} :
      s.producers.offer p = none → Step s (.submitTimeout p) s
  | get {s : Threads P F} {p : P} {q : BoundedQueue P} {opens : Bool} :
      s.indexer = .waiting → s.producers.poll = some (p, q) →
      Step s (.get p opens)
        { s with producers := q, indexer := if opens then .writing p s.index else .ended }
  | consume {s : Threads P F} {p : P} {writer writer' : Index F} {e : DocumentEvent F}
      {q : BoundedQueue (DocumentEvent F)} :
      s.indexer = .writing p writer → (s.queue p).poll = some (e, q) →
      process s.index writer e = some writer' →
      Step s (.consume p e) { s.withQueue p q with indexer := .writing p writer' }
  | abort {s : Threads P F} {p : P} {writer : Index F} {e : DocumentEvent F}
      {q : BoundedQueue (DocumentEvent F)} :
      s.indexer = .writing p writer → (s.queue p).poll = some (e, q) →
      process s.index writer e = none →
      Step s (.consume p e) { s.withQueue p q with indexer := .ended }
  | commit {s : Threads P F} {p : P} {writer : Index F} :
      s.indexer = .writing p writer → (s.queue p).poll = none →
      Step s (.discard p true) { s with indexer := .waiting, index := writer }
  | rollback {s : Threads P F} {p : P} {writer : Index F} :
      s.indexer = .writing p writer → (s.queue p).poll = none →
      Step s (.discard p false) { s with indexer := .ended }
  | interrupted {s : Threads P F} : s.indexer ≠ .ended → Step s .interrupt { s with indexer := .ended }

/-! ## What happened -/

/-- The events that a producer accepted, in order. -/
def accepted (p : P) (es : List (Operation P F)) : List (DocumentEvent F) :=
  es.filterMap fun
    | .put p' e => if p' = p then some e else none
    | _ => none

/-- The producers that the indexer accepted, in order. -/
def submissions (es : List (Operation P F)) : List P :=
  es.filterMap fun
    | .submit p => some p
    | _ => none

/-- What the indexer did with one producer: the events it got, whether it opened a writer, and
whether a commit ended it. -/
structure Session (P F : Type) where
  producer : P
  opens : Bool
  events : List (DocumentEvent F)
  commits : Bool

/-- What the sequential model is given for it. -/
def Session.toProducer (session : Session P F) : DocumentProducer F :=
  ⟨session.opens, session.events, session.commits⟩

/-- The sessions that ended, and the one that did not. -/
structure Sessions (P F : Type) where
  finished : List (Session P F) := []
  current : Option (P × List (DocumentEvent F)) := none

def Sessions.finish (h : Sessions P F) (session : Session P F) : Sessions P F :=
  ⟨h.finished ++ [session], none⟩

def Sessions.record (h : Sessions P F) : Operation P F → Sessions P F
  | .get p opens => if opens then { h with current := some (p, []) } else h.finish ⟨p, false, [], true⟩
  | .consume p e =>
    let events := ((h.current.map (·.2)).getD []) ++ [e]
    if e.throws then h.finish ⟨p, true, events, true⟩ else { h with current := some (p, events) }
  | .discard p commits => h.finish ⟨p, true, (h.current.map (·.2)).getD [], commits⟩
  | .interrupt =>
    match h.current with
    | none => h
    | some (p, events) => h.finish ⟨p, true, events, false⟩
  | _ => h

def sessions (es : List (Operation P F)) : Sessions P F := es.foldl Sessions.record {}

/-- The events that were got from a producer, in order. -/
def Sessions.consumed (h : Sessions P F) (p : P) : List (DocumentEvent F) :=
  (h.finished.flatMap fun session => if session.producer = p then session.events else []) ++
    match h.current with
    | some (p', events) => if p' = p then events else []
    | none => []

def Sessions.producers (h : Sessions P F) : List P :=
  h.finished.map (·.producer) ++ (h.current.map (·.1)).toList

/-- The index after the last of the producers. -/
def committed (index : Index F) (producers : List (DocumentProducer F)) : Index F :=
  (run index producers).getLastD index

/-- What the operations so far say about the state. -/
structure Accounts (before : Index F) (es : List (Operation P F)) (s : Threads P F) : Prop where
  /-- Nothing is lost, and nothing is doubled. -/
  fifo : ∀ p, accepted p es = (sessions es).consumed p ++ (s.queue p).elements
  order : submissions es = (sessions es).producers ++ s.producers.elements
  /-- The committed index is that of the sequential model. -/
  index : s.index = committed before ((sessions es).finished.map Session.toProducer)
  writing : ∀ p writer, s.indexer = .writing p writer → ∃ events,
    (sessions es).current = some (p, events) ∧ events.foldlM (process s.index) s.index = some writer
  waiting : s.indexer = .waiting → (sessions es).current = none
  /-- As long as the indexer runs, no session failed. -/
  running : s.indexer ≠ .ended → ∀ session ∈ (sessions es).finished, ¬ session.toProducer.Fails

/-! ## Histories -/

section Histories

variable {es : List (Operation P F)} {o : Operation P F} {h : Sessions P F} {p p' : P}
  {events : List (DocumentEvent F)} {e : DocumentEvent F}

omit [DecidableEq P] in
theorem sessions_snoc : sessions (es ++ [o]) = (sessions es).record o := by
  rw [sessions, List.foldl_append]
  rfl

theorem accepted_snoc : accepted p (es ++ [o]) = accepted p es ++ accepted p [o] := List.filterMap_append

omit [DecidableEq P] in
theorem submissions_snoc : submissions (es ++ [o]) = submissions es ++ submissions [o] := List.filterMap_append

/-- The session that goes on comes to an end. -/
theorem consumed_finish (hcurrent : h.current = some (p, events)) (opens commits : Bool) :
    (h.finish ⟨p, opens, events, commits⟩).consumed p' = h.consumed p' := by
  simp [Sessions.finish, Sessions.consumed, hcurrent]

omit [DecidableEq P] in
theorem producers_finish (hcurrent : h.current = some (p, events)) (opens commits : Bool)
    (events' : List (DocumentEvent F)) :
    (h.finish ⟨p, opens, events', commits⟩).producers = h.producers := by
  simp [Sessions.finish, Sessions.producers, hcurrent]

theorem consumed_get (hcurrent : h.current = none) (opens : Bool) :
    (h.record (.get p opens)).consumed p' = h.consumed p' := by
  cases opens with
  | true => simp [Sessions.record, Sessions.consumed, hcurrent]
  | false => simp [Sessions.record, Sessions.finish, Sessions.consumed, hcurrent]

omit [DecidableEq P] in
theorem producers_get (hcurrent : h.current = none) (opens : Bool) :
    (h.record (.get p opens)).producers = h.producers ++ [p] := by
  cases opens with
  | true => simp [Sessions.record, Sessions.producers, hcurrent]
  | false => simp [Sessions.record, Sessions.finish, Sessions.producers, hcurrent]

theorem consumed_consume (hcurrent : h.current = some (p, events)) :
    (h.record (.consume p e)).consumed p' = h.consumed p' ++ if p = p' then [e] else [] := by
  by_cases hp : p = p'
  · cases hthrows : e.throws with
    | true => simp [Sessions.record, Sessions.finish, Sessions.consumed, hcurrent, hthrows, hp]
    | false => simp [Sessions.record, Sessions.consumed, hcurrent, hthrows, hp]
  · cases hthrows : e.throws with
    | true => simp [Sessions.record, Sessions.finish, Sessions.consumed, hcurrent, hthrows, hp]
    | false => simp [Sessions.record, Sessions.consumed, hcurrent, hthrows, hp]

omit [DecidableEq P] in
theorem producers_consume (hcurrent : h.current = some (p, events)) :
    (h.record (.consume p e)).producers = h.producers := by
  cases hthrows : e.throws with
  | true => simp [Sessions.record, Sessions.finish, Sessions.producers, hcurrent, hthrows]
  | false => simp [Sessions.record, Sessions.producers, hcurrent, hthrows]

omit [DecidableEq P] in
theorem record_discard (hcurrent : h.current = some (p, events)) (commits : Bool) :
    h.record (.discard p commits) = h.finish ⟨p, true, events, commits⟩ := by
  simp [Sessions.record, hcurrent]

end Histories

/-! ## The committed index -/

section Committed

variable {before : Index F} {producers : List (DocumentProducer F)} {producer : DocumentProducer F}

theorem indexProducer_eq_none : indexProducer before producer = none ↔ producer.Fails := by
  rw [indexProducer_eq]
  split
  · exact iff_of_true rfl ‹_›
  · exact iff_of_false (Option.some_ne_none _) ‹_›

theorem committed_snoc (h : ∀ p ∈ producers, ¬ p.Fails) :
    committed before (producers ++ [producer]) =
      (indexProducer (committed before producers) producer).getD (committed before producers) := by
  induction producers generalizing before with
  | nil =>
    show (run before [producer]).getLastD before = _
    rw [run]
    show _ = (indexProducer before producer).getD before
    cases indexProducer before producer with
    | none => rfl
    | some index => rfl
  | cons first producers ih =>
    rw [List.forall_mem_cons] at h
    cases hfirst : indexProducer before first with
    | none => exact absurd (indexProducer_eq_none.mp hfirst) h.1
    | some index =>
      have hcons : ∀ ps, committed before (first :: ps) = committed index ps := by
        intro ps
        unfold committed
        rw [run, hfirst]
        exact List.getLastD_cons
      rw [List.cons_append, hcons, hcons, ih h.2]

/-- A session that failed leaves the index alone. -/
theorem committed_failed (h : ∀ p ∈ producers, ¬ p.Fails) (hfails : producer.Fails) :
    committed before (producers ++ [producer]) = committed before producers := by
  rw [committed_snoc h, indexProducer_eq_none.mpr hfails]
  rfl

end Committed

/-! ## One step -/

section OneStep

variable {before : Index F} {es : List (Operation P F)} {s t : Threads P F} {o : Operation P F}

theorem queue_withQueue (p p' : P) (q : BoundedQueue (DocumentEvent F)) :
    (s.withQueue p q).queue p' = if p' = p then q else s.queue p' := Function.update_apply _ _ _ _

theorem accounts_put (h : Accounts before es s) {p : P} {e : DocumentEvent F} {q : BoundedQueue (DocumentEvent F)}
    (hq : (s.queue p).offer e = some q) : Accounts before (es ++ [.put p e]) (s.withQueue p q) := by
  have hsessions : sessions (es ++ [.put p e]) = sessions es := sessions_snoc
  refine ⟨?_, ?_, ?_, ?_, ?_, ?_⟩
  · intro p'
    rw [hsessions, accepted_snoc, h.fifo, queue_withQueue]
    by_cases hp : p' = p
    · subst hp
      simp [accepted, BoundedQueue.elements_offer hq]
    · simp [accepted, hp, Ne.symm hp]
  · rw [hsessions, submissions_snoc, h.order]
    simp [submissions, Threads.withQueue]
  · rw [hsessions]
    exact h.index
  · rw [hsessions]
    exact h.writing
  · rw [hsessions]
    exact h.waiting
  · rw [hsessions]
    exact h.running

/-- An operation that changes nothing. -/
theorem accounts_timeout (h : Accounts before es s) (hsessions : (sessions es).record o = sessions es)
    (haccepted : ∀ p, accepted p [o] = []) (hsubmissions : submissions [o] = []) :
    Accounts before (es ++ [o]) s := by
  have hsnoc : sessions (es ++ [o]) = sessions es := sessions_snoc.trans hsessions
  refine ⟨?_, ?_, ?_, ?_, ?_, ?_⟩
  · intro p
    rw [hsnoc, accepted_snoc, haccepted, List.append_nil, h.fifo]
  · rw [hsnoc, submissions_snoc, hsubmissions, List.append_nil, h.order]
  · rw [hsnoc]
    exact h.index
  · rw [hsnoc]
    exact h.writing
  · rw [hsnoc]
    exact h.waiting
  · rw [hsnoc]
    exact h.running

theorem accounts_submit (h : Accounts before es s) {p : P} {q : BoundedQueue P}
    (hq : s.producers.offer p = some q) : Accounts before (es ++ [.submit p]) { s with producers := q } := by
  have hsessions : sessions (es ++ [.submit p]) = sessions es := sessions_snoc
  refine ⟨?_, ?_, ?_, ?_, ?_, ?_⟩
  · intro p'
    rw [hsessions, accepted_snoc, h.fifo]
    simp [accepted]
  · rw [hsessions, submissions_snoc, h.order]
    simp [submissions, BoundedQueue.elements_offer hq]
  · rw [hsessions]
    exact h.index
  · rw [hsessions]
    exact h.writing
  · rw [hsessions]
    exact h.waiting
  · rw [hsessions]
    exact h.running

/-- A session ends without a commit: the index stays, and the indexer has ended. -/
theorem accounts_failed (h : Accounts before es s) {session : Session P F}
    (hfinish : (sessions es).record o = (sessions es).finish session) (hfails : session.toProducer.Fails)
    (hrunning : s.indexer ≠ .ended) (hindexer : t.indexer = .ended) (hindex : t.index = s.index)
    (hfifo : ∀ p, accepted p (es ++ [o]) = ((sessions es).finish session).consumed p ++ (t.queue p).elements)
    (horder : submissions (es ++ [o]) = ((sessions es).finish session).producers ++ t.producers.elements) :
    Accounts before (es ++ [o]) t := by
  have hsnoc : sessions (es ++ [o]) = (sessions es).finish session := sessions_snoc.trans hfinish
  have hgood : ∀ p ∈ (sessions es).finished.map Session.toProducer, ¬ p.Fails := by
    rw [List.forall_mem_map]
    exact h.running hrunning
  refine ⟨?_, ?_, ?_, ?_, ?_, ?_⟩
  · rw [hsnoc]
    exact hfifo
  · rw [hsnoc]
    exact horder
  · rw [hsnoc, hindex, h.index]
    show _ = committed before (((sessions es).finished ++ [session]).map Session.toProducer)
    rw [List.map_append]
    exact (committed_failed hgood hfails).symm
  · intro p writer hwriting
    rw [hindexer] at hwriting
    cases hwriting
  · intro hwaiting
    rw [hindexer] at hwaiting
    cases hwaiting
  · exact fun hne => absurd hindexer hne

theorem accounts_get (h : Accounts before es s) {p : P} {q : BoundedQueue P} {opens : Bool}
    (hwaiting : s.indexer = .waiting) (hq : s.producers.poll = some (p, q)) :
    Accounts before (es ++ [.get p opens])
      { s with producers := q, indexer := if opens then .writing p s.index else .ended } := by
  have hcurrent := h.waiting hwaiting
  have hrunning : s.indexer ≠ .ended := by rw [hwaiting]; intro heq; cases heq
  have hfifo : ∀ p', accepted p' (es ++ [.get p opens]) =
      ((sessions es).record (.get p opens)).consumed p' ++ (s.queue p').elements := by
    intro p'
    rw [accepted_snoc, consumed_get hcurrent, h.fifo]
    exact List.append_nil _
  have horder : submissions (es ++ [.get p opens]) =
      ((sessions es).record (.get p opens)).producers ++ q.elements := by
    rw [submissions_snoc, producers_get hcurrent, h.order, BoundedQueue.elements_poll hq]
    simp [submissions]
  cases opens with
  | false => exact accounts_failed h rfl (.inl rfl) hrunning rfl rfl hfifo horder
  | true =>
    refine ⟨?_, ?_, ?_, ?_, ?_, ?_⟩
    · rw [sessions_snoc]
      exact hfifo
    · rw [sessions_snoc]
      exact horder
    · rw [sessions_snoc]
      exact h.index
    · intro p' writer hwriting
      cases hwriting
      rw [sessions_snoc]
      exact ⟨[], rfl, rfl⟩
    · intro heq
      cases heq
    · intro _
      rw [sessions_snoc]
      exact h.running hrunning

theorem process_eq_some {reader writer writer' : Index F} {e : DocumentEvent F}
    (h : process reader writer e = some writer') : e.throws = false := by
  unfold process at h
  split at h
  · cases h
  · exact Bool.eq_false_iff.mpr ‹_›

theorem process_eq_none {reader writer : Index F} {e : DocumentEvent F}
    (h : process reader writer e = none) : e.throws = true := by
  unfold process at h
  split at h
  · assumption
  · cases h

/-- The accounts of the queues, when the indexer got an event. -/
theorem accounts_poll (h : Accounts before es s) {p : P} {writer : Index F} {e : DocumentEvent F}
    {q : BoundedQueue (DocumentEvent F)} (hwriting : s.indexer = .writing p writer)
    (hq : (s.queue p).poll = some (e, q)) :
    (∀ p', accepted p' (es ++ [.consume p e]) =
      ((sessions es).record (.consume p e)).consumed p' ++ ((s.withQueue p q).queue p').elements) ∧
    submissions (es ++ [.consume p e]) =
      ((sessions es).record (.consume p e)).producers ++ s.producers.elements := by
  obtain ⟨events, hcurrent, _⟩ := h.writing p writer hwriting
  constructor
  · intro p'
    rw [accepted_snoc, consumed_consume hcurrent, h.fifo, queue_withQueue]
    by_cases hp : p' = p
    · subst hp
      simp [accepted, BoundedQueue.elements_poll hq]
    · simp [accepted, hp, Ne.symm hp]
  · rw [submissions_snoc, producers_consume hcurrent, h.order]
    exact List.append_nil _

theorem accounts_consume (h : Accounts before es s) {p : P} {writer writer' : Index F} {e : DocumentEvent F}
    {q : BoundedQueue (DocumentEvent F)} (hwriting : s.indexer = .writing p writer)
    (hq : (s.queue p).poll = some (e, q)) (hprocess : process s.index writer e = some writer') :
    Accounts before (es ++ [.consume p e]) { s.withQueue p q with indexer := .writing p writer' } := by
  obtain ⟨events, hcurrent, hfold⟩ := h.writing p writer hwriting
  have hrecord : (sessions es).record (.consume p e) =
      { sessions es with current := some (p, events ++ [e]) } := by
    simp [Sessions.record, hcurrent, process_eq_some hprocess]
  obtain ⟨hfifo, horder⟩ := accounts_poll h hwriting hq
  refine ⟨?_, ?_, ?_, ?_, ?_, ?_⟩
  · rw [sessions_snoc]
    exact hfifo
  · rw [sessions_snoc]
    exact horder
  · rw [sessions_snoc, hrecord]
    exact h.index
  · intro p' writer'' heq
    cases heq
    rw [sessions_snoc, hrecord]
    refine ⟨events ++ [e], rfl, ?_⟩
    show (events ++ [e]).foldlM (process s.index) s.index = some writer'
    rw [List.foldlM_append, hfold]
    show (process s.index writer e >>= fun w => some w) = some writer'
    rw [hprocess]
    rfl
  · intro heq
    cases heq
  · intro _
    rw [sessions_snoc, hrecord]
    exact h.running (by rw [hwriting]; intro heq; cases heq)

theorem accounts_abort (h : Accounts before es s) {p : P} {writer : Index F} {e : DocumentEvent F}
    {q : BoundedQueue (DocumentEvent F)} (hwriting : s.indexer = .writing p writer)
    (hq : (s.queue p).poll = some (e, q)) (hprocess : process s.index writer e = none) :
    Accounts before (es ++ [.consume p e]) { s.withQueue p q with indexer := .ended } := by
  obtain ⟨events, hcurrent, _⟩ := h.writing p writer hwriting
  have hthrows := process_eq_none hprocess
  have hrecord : (sessions es).record (.consume p e) = (sessions es).finish ⟨p, true, events ++ [e], true⟩ := by
    simp [Sessions.record, hcurrent, hthrows]
  obtain ⟨hfifo, horder⟩ := accounts_poll h hwriting hq
  rw [hrecord] at hfifo horder
  refine accounts_failed h hrecord ?_ (by rw [hwriting]; intro heq; cases heq) rfl rfl hfifo horder
  exact .inr (.inl ⟨e, List.mem_append_right events List.mem_cons_self, hthrows⟩)

/-- The accounts of the queues, when a session ends. -/
theorem accounts_end (h : Accounts before es s) {p : P} {events : List (DocumentEvent F)}
    (hcurrent : (sessions es).current = some (p, events)) (commits : Bool)
    (haccepted : ∀ p', accepted p' [o] = []) (hsubmissions : submissions [o] = []) :
    (∀ p', accepted p' (es ++ [o]) =
      ((sessions es).finish ⟨p, true, events, commits⟩).consumed p' ++ (s.queue p').elements) ∧
    submissions (es ++ [o]) =
      ((sessions es).finish ⟨p, true, events, commits⟩).producers ++ s.producers.elements := by
  constructor
  · intro p'
    rw [accepted_snoc, haccepted, List.append_nil, consumed_finish hcurrent, h.fifo]
  · rw [submissions_snoc, hsubmissions, List.append_nil, producers_finish hcurrent, h.order]

theorem accounts_commit (h : Accounts before es s) {p : P} {writer : Index F}
    (hwriting : s.indexer = .writing p writer) :
    Accounts before (es ++ [.discard p true]) { s with indexer := .waiting, index := writer } := by
  obtain ⟨events, hcurrent, hfold⟩ := h.writing p writer hwriting
  have hgood : ∀ p ∈ (sessions es).finished.map Session.toProducer, ¬ p.Fails := by
    rw [List.forall_mem_map]
    exact h.running (by rw [hwriting]; intro heq; cases heq)
  have hindex : indexProducer s.index ⟨true, events, true⟩ = some writer := by
    rw [indexProducer, if_pos rfl, hfold]
    rfl
  obtain ⟨hfifo, horder⟩ := accounts_end (o := .discard p true) h hcurrent true (fun _ => rfl) rfl
  refine ⟨?_, ?_, ?_, ?_, ?_, ?_⟩
  · rw [sessions_snoc, record_discard hcurrent]
    exact hfifo
  · rw [sessions_snoc, record_discard hcurrent]
    exact horder
  · rw [sessions_snoc, record_discard hcurrent]
    show writer = committed before (((sessions es).finished ++ [_]).map Session.toProducer)
    rw [List.map_append, List.map_singleton, committed_snoc hgood, ← h.index]
    show writer = (indexProducer s.index ⟨true, events, true⟩).getD s.index
    rw [hindex]
    rfl
  · intro p' writer' heq
    cases heq
  · intro _
    rw [sessions_snoc, record_discard hcurrent]
    rfl
  · intro _
    rw [sessions_snoc, record_discard hcurrent]
    intro session hsession
    rcases List.mem_append.mp hsession with hold | hnew
    · exact h.running (by rw [hwriting]; intro heq; cases heq) session hold
    · rw [List.mem_singleton.mp hnew]
      intro hfails
      have hnone : indexProducer s.index (Session.toProducer ⟨p, true, events, true⟩) = none :=
        indexProducer_eq_none.mpr hfails
      rw [show indexProducer s.index (Session.toProducer ⟨p, true, events, true⟩) = some writer from hindex] at hnone
      cases hnone

theorem accounts_rollback (h : Accounts before es s) {p : P} {writer : Index F}
    (hwriting : s.indexer = .writing p writer) :
    Accounts before (es ++ [.discard p false]) { s with indexer := .ended } := by
  obtain ⟨events, hcurrent, _⟩ := h.writing p writer hwriting
  obtain ⟨hfifo, horder⟩ := accounts_end (o := .discard p false) h hcurrent false (fun _ => rfl) rfl
  exact accounts_failed h (record_discard hcurrent false) (.inr (.inr rfl))
    (by rw [hwriting]; intro heq; cases heq) rfl rfl hfifo horder

theorem accounts_interrupt (h : Accounts before es s) (hrunning : s.indexer ≠ .ended) :
    Accounts before (es ++ [.interrupt]) { s with indexer := .ended } := by
  cases hcurrent : (sessions es).current with
  | none =>
    have hrecord : (sessions es).record .interrupt = sessions es := by simp [Sessions.record, hcurrent]
    have hkept := accounts_timeout (o := .interrupt) h hrecord (fun _ => rfl) rfl
    refine ⟨hkept.fifo, hkept.order, hkept.index, ?_, ?_, fun hne => absurd rfl hne⟩
    · intro p writer heq
      cases heq
    · intro heq
      cases heq
  | some current =>
    obtain ⟨p, events⟩ := current
    have hrecord : (sessions es).record .interrupt = (sessions es).finish ⟨p, true, events, false⟩ := by
      simp [Sessions.record, hcurrent]
    obtain ⟨hfifo, horder⟩ := accounts_end (o := .interrupt) h hcurrent false (fun _ => rfl) rfl
    exact accounts_failed h hrecord (.inr (.inr rfl)) hrunning rfl rfl hfifo horder

theorem accounts_step (h : Accounts before es s) (hstep : Step s o t) : Accounts before (es ++ [o]) t := by
  cases hstep with
  | put hq => exact accounts_put h hq
  | putTimeout _ => exact accounts_timeout h rfl (fun _ => rfl) rfl
  | submit hq => exact accounts_submit h hq
  | submitTimeout _ => exact accounts_timeout h rfl (fun _ => rfl) rfl
  | get hwaiting hq => exact accounts_get h hwaiting hq
  | consume hwriting hq hprocess => exact accounts_consume h hwriting hq hprocess
  | abort hwriting hq hprocess => exact accounts_abort h hwriting hq hprocess
  | commit hwriting _ => exact accounts_commit h hwriting
  | rollback hwriting _ => exact accounts_rollback h hwriting
  | interrupted hrunning => exact accounts_interrupt h hrunning

end OneStep

/-! ## Every run -/

/-- All queues are empty, and the indexer waits for the first producer. -/
def Threads.initial (queueSize : Nat) (documentQueueSize : P → Nat) (index : Index F) : Threads P F where
  producers := .empty queueSize
  queue := fun p => .empty (documentQueueSize p)
  indexer := .waiting
  index := index

/-- For any order of the operations of any number of threads: the events that a producer accepted are
those that the indexer got from it, in order, and those that are still in its queue; the producers that
the indexer accepted are those it asked, in order, and those that are still in its queue; and the
committed index is that of the sequential model for what the indexer got. -/
theorem accounts_run {queueSize : Nat} {documentQueueSize : P → Nat} {before : Index F}
    {es : List (Operation P F)} {s : Threads P F}
    (h : Run Step (Threads.initial queueSize documentQueueSize before) es s) : Accounts before es s := by
  refine h.inv (P := Accounts before) ?_ fun es t o u haccounts hstep => accounts_step haccounts hstep
  refine ⟨fun _ => rfl, rfl, rfl, ?_, fun _ => rfl, ?_⟩
  · intro p writer heq
    cases heq
  · intro _ session hsession
    cases hsession

/-! ## Producers that were discarded -/

section Discarded

variable {s t u : Threads P F} {es : List (Operation P F)} {o : Operation P F} {p : P}

/-- The indexer neither asks the producer nor is about to. -/
structure Discarded (s : Threads P F) (p : P) : Prop where
  queued : p ∉ s.producers.elements
  asked : ∀ writer, s.indexer ≠ .writing p writer

/-- What the operations did to the queue of a producer. -/
structure Kept (s : Threads P F) (p : P) (es : List (Operation P F)) (t : Threads P F) : Prop
    extends Discarded t p where
  elements : (t.queue p).elements = (s.queue p).elements ++ accepted p es
  capacity : (t.queue p).capacity = (s.queue p).capacity

theorem Kept.keep (h : Kept s p es t) (hqueue : u.queue p = t.queue p) (haccepted : accepted p [o] = [])
    (hdiscarded : Discarded u p) : Kept s p (es ++ [o]) u := by
  refine ⟨hdiscarded, ?_, ?_⟩
  · rw [hqueue, accepted_snoc, haccepted, List.append_nil, h.elements]
  · rw [hqueue, h.capacity]

theorem kept_step (h : Kept s p es t) (hsubmit : o ≠ .submit p) (hstep : Step t o u) :
    Kept s p (es ++ [o]) u := by
  cases hstep with
  | @put p' e q hq =>
    refine ⟨⟨h.queued, h.asked⟩, ?_, ?_⟩
    · rw [queue_withQueue, accepted_snoc, ← List.append_assoc, ← h.elements]
      by_cases hp : p = p'
      · subst hp
        simp [accepted, BoundedQueue.elements_offer hq]
      · simp [accepted, hp, Ne.symm hp]
    · rw [queue_withQueue]
      split
      · rename_i hp
        subst hp
        rw [BoundedQueue.capacity_offer hq, h.capacity]
      · exact h.capacity
  | putTimeout _ => exact h.keep rfl rfl h.toDiscarded
  | @submit p' q hq =>
    refine h.keep rfl rfl ⟨?_, h.asked⟩
    show p ∉ q.elements
    rw [BoundedQueue.elements_offer hq, List.mem_append, List.mem_singleton]
    rintro (hqueued | rfl)
    · exact h.queued hqueued
    · exact hsubmit rfl
  | submitTimeout _ => exact h.keep rfl rfl h.toDiscarded
  | @get p' q opens hwaiting hq =>
    have hqueued := h.queued
    rw [BoundedQueue.elements_poll hq, List.mem_cons, not_or] at hqueued
    refine h.keep rfl rfl ⟨hqueued.2, ?_⟩
    intro writer heq
    cases opens with
    | true =>
      cases heq
      exact hqueued.1 rfl
    | false => cases heq
  | @consume p' writer _ _ q hwriting hq _ =>
    have hp : p ≠ p' := fun heq => h.asked writer (heq ▸ hwriting)
    refine h.keep ?_ rfl ⟨h.queued, ?_⟩
    · exact (queue_withQueue p' p q).trans (if_neg hp)
    · intro writer heq
      cases heq
      exact hp rfl
  | @abort p' writer _ q hwriting hq _ =>
    have hp : p ≠ p' := fun heq => h.asked writer (heq ▸ hwriting)
    refine h.keep ?_ rfl ⟨h.queued, ?_⟩
    · exact (queue_withQueue p' p q).trans (if_neg hp)
    · intro writer heq
      cases heq
  | commit _ _ => exact h.keep rfl rfl ⟨h.queued, by intro writer heq; cases heq⟩
  | rollback _ _ => exact h.keep rfl rfl ⟨h.queued, by intro writer heq; cases heq⟩
  | interrupted _ => exact h.keep rfl rfl ⟨h.queued, by intro writer heq; cases heq⟩

/-- For any order of the operations: while nobody puts a discarded producer to the indexer again, its
queue only grows, and no more events are accepted than there is room for. From then on every other
`put` either waits or comes back without having put its event. -/
theorem kept_run (hdiscarded : Discarded s p) (h : Run Step s es t) (hsubmit : .submit p ∉ es) :
    (t.queue p).elements = (s.queue p).elements ++ accepted p es ∧
      (s.queue p).elements.length + (accepted p es).length ≤ (s.queue p).capacity ∧
      ∀ e, (t.queue p).offer e = none ↔
        (s.queue p).elements.length + (accepted p es).length = (s.queue p).capacity := by
  have hkept : .submit p ∉ es → Kept s p es t := by
    refine h.inv (P := fun es t => .submit p ∉ es → Kept s p es t) ?_ ?_
    · exact fun _ => ⟨hdiscarded, (List.append_nil _).symm, rfl⟩
    · intro es t o u ih hstep hnot
      rw [List.mem_append, not_or, List.mem_singleton] at hnot
      exact kept_step (ih hnot.1) (Ne.symm hnot.2) hstep
  have hbounded := (t.queue p).bounded
  rw [(hkept hsubmit).elements, (hkept hsubmit).capacity, List.length_append] at hbounded
  refine ⟨(hkept hsubmit).elements, hbounded, fun e => ?_⟩
  rw [BoundedQueue.offer_eq_none, BoundedQueue.Full, (hkept hsubmit).elements, (hkept hsubmit).capacity,
    List.length_append]

end Discarded

/-! ## One producer with one document -/

def startPage : DocumentEvent Unit := ⟨.create, ⟨"/index.jsp", "jsp", ()⟩, false⟩

/-- There is room for one producer, and in it for two documents. -/
def unfilled : Threads Unit Unit := .initial 1 (fun _ => 2) []

/-- The thread that fills the producer is late: its second event comes after the commit. -/
def lateOperations : List (Operation Unit Unit) :=
  [] ++ [.submit ()] ++ [.put () startPage] ++ [.get () true] ++ [.consume () startPage] ++
    [.discard () true] ++ [.put () startPage]

/-- The producer is discarded with the second event in its queue, and there is room for one more. -/
theorem late_run : ∃ s q, Run Step unfilled lateOperations s ∧ Discarded s () ∧
    (s.queue ()).elements = [startPage] ∧ (s.queue ()).offer startPage = some q ∧ q.offer startPage = none := by
  have hsubmit := Run.snoc (Run.nil (s := unfilled)) (Step.submit (p := ()) rfl)
  have hput := hsubmit.snoc (Step.put (p := ()) (e := startPage) rfl)
  have hget : Run Step unfilled (_ ++ [.get () true]) _ := hput.snoc (Step.get rfl rfl)
  have hconsume := hget.snoc (Step.consume (p := ()) (e := startPage) rfl rfl rfl)
  have hcommit := hconsume.snoc (Step.commit (p := ()) rfl rfl)
  refine ⟨_, _, hcommit.snoc (Step.put (p := ()) (e := startPage) rfl), ⟨List.not_mem_nil, ?_⟩, rfl, rfl, rfl⟩
  intro writer heq
  cases heq

theorem late_accounts : ∃ s, Accounts [] lateOperations s := by
  obtain ⟨s, _, hrun, _⟩ := late_run
  exact ⟨s, accounts_run hrun⟩

/-- Nobody puts the producer to the indexer. -/
def unsubmitted : List (Operation Unit Unit) := [] ++ [.put () startPage] ++ [.putTimeout () startPage]

/-- One more event is accepted, and the next one is not. -/
theorem forgotten_kept : ∃ s t, Run Step unfilled lateOperations s ∧ Run Step s unsubmitted t ∧
    (t.queue ()).elements = [startPage] ++ accepted () unsubmitted ∧
      (s.queue ()).elements.length + (accepted () unsubmitted).length ≤ (s.queue ()).capacity := by
  obtain ⟨s, q, hrun, hdiscarded, helements, hroom, hfull⟩ := late_run
  have hput := Run.snoc (Run.nil (s := s)) (Step.put hroom)
  have hfurther : Run Step s unsubmitted _ := hput.snoc (.putTimeout (p := ()) (e := startPage) hfull)
  obtain ⟨hkept, hbound, -⟩ := kept_run hdiscarded hfurther (by simp [unsubmitted])
  rw [helements] at hkept
  exact ⟨s, _, hrun, hfurther, hkept, hbound⟩

end Search
end AppNG
