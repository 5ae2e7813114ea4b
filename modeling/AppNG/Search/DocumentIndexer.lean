import AppNG.Lib.Loop
import Mathlib.Data.List.DropRight

/-!
# Search.DocumentIndexer

The loop of `DocumentIndexer.run`: one producer after the other is written to the index.

Lucene is a list of documents. The reader shows the documents of the index when the producer came,
`deleteDocuments` and `addDocument` act on the writer in order, and nothing of it counts before the
commit.

* `fold_eq_iff`: without a clearing of the index, the events of a producer do to a writer what they
  should if and only if the reader shows every document that one of them should replace or remove.
* `indexed_iff`: so for any events, with those after the last clearing.
* `runs_iff`: every producer is processed and committed as it should if and only if that is so for all
  of them, and none but the last one fails.
-/

namespace AppNG
namespace Search

/-- A document with the fields that it is searched by. -/
structure Document (F : Type) where
  id : String
  type : String
  fields : F
  deriving DecidableEq, Repr

inductive Event where
  | create
  | update
  | delete
  | clearIndex
  deriving DecidableEq, Repr

structure DocumentEvent (F : Type) where
  event : Event
  document : Document F
  /-- a null id or type, or Lucene throws -/
  throws : Bool

/-- What a producer delivers, up to the first timeout. -/
structure DocumentProducer (F : Type) where
  /-- an analyzer and a writer could be made -/
  opens : Bool
  events : List (DocumentEvent F)
  /-- `commit` returned -/
  commits : Bool

abbrev Index (F : Type) := List (Document F)

variable {F : Type}

def Document.key (document : Document F) : String × String := (document.id, document.type)

def DocumentEvent.key (e : DocumentEvent F) : String × String := e.document.key

/-- The documents with an id and a type, as the query finds them. -/
def hasKey (key : String × String) (document : Document F) : Bool := document.key = key

/-! ## The code -/

/-- What an event does to the writer. The reader is asked if there is something to delete. -/
def writeEvent (reader writer : Index F) (e : DocumentEvent F) : Index F :=
  match e.event with
  | .clearIndex => []
  | event =>
    let found := reader.any (hasKey e.key)
    let writer := if found then writer.filter (fun d => !hasKey e.key d) else writer
    if event = .create ∨ event = .update then writer ++ [e.document] else writer

def process (reader writer : Index F) (e : DocumentEvent F) : Option (Index F) :=
  if e.throws then none else some (writeEvent reader writer e)

/-- The index after a producer, or nothing: the writer is rolled back. -/
def indexProducer (index : Index F) (producer : DocumentProducer F) : Option (Index F) :=
  if producer.opens then
    (producer.events.foldlM (process index) index).bind fun writer =>
      if producer.commits then some writer else none
  else none

/-- The index after each producer. An exception ends the loop. -/
def run (index : Index F) : List (DocumentProducer F) → List (Index F)
  | [] => []
  | producer :: producers =>
    match indexProducer index producer with
    | some index' => index' :: run index' producers
    | none => [index]

/-! ## What it should do -/

/-- A document replaces one with its id and type. -/
def applyEvent (index : Index F) (e : DocumentEvent F) : Index F :=
  let others := index.filter (fun d => !hasKey e.key d)
  match e.event with
  | .clearIndex => []
  | .delete => others
  | .create | .update => others ++ [e.document]

def DocumentProducer.Fails (producer : DocumentProducer F) : Prop :=
  producer.opens = false ∨ (∃ e ∈ producer.events, e.throws = true) ∨ producer.commits = false

instance (producer : DocumentProducer F) : Decidable producer.Fails :=
  inferInstanceAs (Decidable (_ ∨ _))

/-- A producer that fails leaves the index alone. -/
def applyProducer (index : Index F) (producer : DocumentProducer F) : Index F :=
  if producer.Fails then index else producer.events.foldl applyEvent index

def expected (index : Index F) : List (DocumentProducer F) → List (Index F)
  | [] => []
  | producer :: producers =>
    applyProducer index producer :: expected (applyProducer index producer) producers

/-- No two documents have the same id and type. -/
def Unique (index : Index F) : Prop := (index.map Document.key).Nodup

/-- Every producer is processed, and leaves the index that it should. -/
structure Indexes (index : Index F) (producers : List (DocumentProducer F)) : Prop where
  processed : run index producers = expected index producers
  unique : Unique index → ∀ result ∈ run index producers, Unique result

def DocumentEvent.adds (e : DocumentEvent F) : Bool := e.event = .create ∨ e.event = .update

def DocumentEvent.clears (e : DocumentEvent F) : Bool := e.event = .clearIndex

/-- A document that is added and comes again was in the index before. -/
def Shown (reader : Index F) (events : List (DocumentEvent F)) : Prop :=
  events.Pairwise fun e f => e.adds = true → f.key = e.key → reader.any (hasKey e.key) = true

/-- The events after the last clearing of the index. -/
def afterClear (events : List (DocumentEvent F)) : List (DocumentEvent F) :=
  events.rtakeWhile fun e => !e.clears

/-! ## One event -/

section OneEvent

variable {reader writer index : Index F} {e : DocumentEvent F} {key : String × String}

theorem writeEvent_eq (reader writer : Index F) (h : e.clears = false) :
    writeEvent reader writer e =
      (if reader.any (hasKey e.key) then writer.filter (fun d => !hasKey e.key d) else writer) ++
        if e.adds then [e.document] else [] := by
  obtain ⟨event, document, throws⟩ := e
  cases event with
  | clearIndex => cases h
  | _ => simp [writeEvent, DocumentEvent.adds]

theorem applyEvent_eq (index : Index F) (h : e.clears = false) :
    applyEvent index e =
      index.filter (fun d => !hasKey e.key d) ++ if e.adds then [e.document] else [] := by
  obtain ⟨event, document, throws⟩ := e
  cases event with
  | clearIndex => cases h
  | _ => simp [applyEvent, DocumentEvent.adds]

/-- How many documents have an id and a type. -/
def copies (key : String × String) (index : Index F) : Nat := index.countP (hasKey key)

theorem copies_added (key : String × String) (e : DocumentEvent F) :
    copies key (if e.adds then [e.document] else []) =
      if e.adds = true ∧ e.key = key then 1 else 0 := by
  unfold copies
  cases e.adds with
  | true => simp [List.countP_singleton, hasKey, DocumentEvent.key]
  | false => rfl

theorem copies_others (key key' : String × String) (index : Index F) :
    copies key (index.filter fun d => !hasKey key' d) = if key' = key then 0 else copies key index := by
  unfold copies
  rw [List.countP_filter]
  split
  · rename_i heq
    rw [heq, List.countP_eq_zero]
    simp
  · rename_i hne
    refine List.countP_congr fun d _ => ?_
    simp only [hasKey, Bool.and_eq_true, decide_eq_true_eq, Bool.not_eq_true', decide_eq_false_iff_not]
    exact and_iff_left_of_imp fun hkey heq => hne (heq.symm.trans hkey)

theorem copies_applyEvent (h : e.clears = false) :
    copies key (applyEvent index e) =
      if e.key = key then (if e.adds then 1 else 0) else copies key index := by
  rw [applyEvent_eq index h, copies, List.countP_append, ← copies, ← copies, copies_others,
    copies_added]
  by_cases heq : e.key = key <;> simp [heq]

/-- Documents that the reader does not show are not deleted. -/
theorem copies_writeEvent (h : e.clears = false) (hreader : reader.any (hasKey key) = false) :
    copies key (writeEvent reader writer e) =
      copies key writer + if e.adds = true ∧ e.key = key then 1 else 0 := by
  rw [writeEvent_eq reader writer h, copies, List.countP_append, ← copies, ← copies, copies_added]
  congr 1
  split
  · rename_i hfound
    have hne : e.key ≠ key := by
      rintro rfl
      rw [hreader] at hfound
      cases hfound
    rw [copies_others, if_neg hne]
  · rfl

theorem copies_pos_iff : 0 < copies key index ↔ ∃ d ∈ index, d.key = key := by
  simp [copies, hasKey, List.countP_pos_iff]

end OneEvent

section Fold

variable {reader writer index : Index F} {events : List (DocumentEvent F)} {key : String × String}

/-- A surplus of documents that the reader does not show is never made up for. -/
theorem copies_lt_of_lt (hreader : reader.any (hasKey key) = false) :
    ∀ {events : List (DocumentEvent F)} {writer index : Index F},
      (∀ e ∈ events, e.clears = false) → copies key index < copies key writer →
        copies key (events.foldl applyEvent index) <
          copies key (events.foldl (writeEvent reader) writer) := by
  intro events
  induction events with
  | nil => intro writer index _ hlt; exact hlt
  | cons e events ih =>
    intro writer index hclear hlt
    have he : e.clears = false := hclear e List.mem_cons_self
    refine ih (fun f hf => hclear f (List.mem_cons_of_mem e hf)) ?_
    rw [copies_applyEvent he, copies_writeEvent he hreader]
    by_cases heq : e.key = key
    · cases e.adds with
      | true => simp [heq]; omega
      | false => simp [heq]; omega
    · simp [heq]
      omega

/-- No event is about a document of the writer that the reader does not show. -/
def Untouched (reader writer : Index F) (events : List (DocumentEvent F)) : Prop :=
  ∀ d ∈ writer, ∀ e ∈ events, e.key = d.key → reader.any (hasKey d.key) = true

theorem writeEvent_eq_applyEvent {e : DocumentEvent F} (h : e.clears = false)
    (htouched : ∀ d ∈ writer, e.key = d.key → reader.any (hasKey d.key) = true) :
    writeEvent reader writer e = applyEvent writer e := by
  rw [writeEvent_eq reader writer h, applyEvent_eq writer h]
  congr 1
  split
  · rfl
  · rename_i hhidden
    refine (List.filter_eq_self.mpr fun d hd => ?_).symm
    have hne : e.key ≠ d.key := fun heq => hhidden (heq ▸ htouched d hd heq)
    simp [hasKey, hne.symm]

theorem mem_applyEvent {e : DocumentEvent F} (h : e.clears = false) (d : Document F) :
    d ∈ applyEvent index e ↔
      d ∈ index ∧ d.key ≠ e.key ∨ e.adds = true ∧ d = e.document := by
  rw [applyEvent_eq index h, List.mem_append, List.mem_filter]
  cases e.adds <;> simp [hasKey]

theorem untouched_cons {e : DocumentEvent F} (h : e.clears = false)
    (htouched : ∀ d ∈ writer, e.key = d.key → reader.any (hasKey d.key) = true) :
    Untouched reader (applyEvent writer e) events ∧ Shown reader events ↔
      Untouched reader writer (e :: events) ∧ Shown reader (e :: events) := by
  unfold Shown
  rw [List.pairwise_cons]
  constructor
  · rintro ⟨huntouched, hshown⟩
    refine ⟨fun d hd f hf hkey => ?_, fun f hf hadds hkey => ?_, hshown⟩
    · rcases List.mem_cons.mp hf with rfl | hf
      · exact htouched d hd hkey
      · by_cases heq : d.key = e.key
        · exact htouched d hd heq.symm
        · exact huntouched d ((mem_applyEvent h d).mpr (Or.inl ⟨hd, heq⟩)) f hf hkey
    · exact huntouched e.document ((mem_applyEvent h _).mpr (Or.inr ⟨hadds, rfl⟩)) f hf hkey
  · rintro ⟨huntouched, hhead, hshown⟩
    refine ⟨fun d hd f hf hkey => ?_, hshown⟩
    rcases (mem_applyEvent h d).mp hd with ⟨hd, -⟩ | ⟨hadds, rfl⟩
    · exact huntouched d hd f (List.mem_cons_of_mem e hf) hkey
    · exact hhead f hf hadds hkey

theorem fold_eq_iff :
    ∀ {events : List (DocumentEvent F)} {writer : Index F}, (∀ e ∈ events, e.clears = false) →
      (events.foldl (writeEvent reader) writer = events.foldl applyEvent writer ↔
        Untouched reader writer events ∧ Shown reader events) := by
  intro events
  induction events with
  | nil => intro writer _; simp [Untouched, Shown]
  | cons e events ih =>
    intro writer hclear
    have he : e.clears = false := hclear e List.mem_cons_self
    have hrest : ∀ f ∈ events, f.clears = false := fun f hf => hclear f (List.mem_cons_of_mem e hf)
    rw [List.foldl_cons, List.foldl_cons]
    by_cases htouched : ∀ d ∈ writer, e.key = d.key → reader.any (hasKey d.key) = true
    · rw [writeEvent_eq_applyEvent he htouched, ih hrest, untouched_cons he htouched]
    · refine iff_of_false (fun heq => ?_) fun h => htouched fun d hd => h.1 d hd e List.mem_cons_self
      push Not at htouched
      obtain ⟨d, hd, hkey, hreader⟩ := htouched
      have hhidden : reader.any (hasKey d.key) = false := Bool.eq_false_iff.mpr hreader
      have hpos : 0 < copies d.key writer := copies_pos_iff.mpr ⟨d, hd, rfl⟩
      have hlt : copies d.key (applyEvent writer e) < copies d.key (writeEvent reader writer e) := by
        rw [copies_applyEvent he, copies_writeEvent he hhidden]
        cases e.adds <;> simp [hkey] <;> omega
      have hend := copies_lt_of_lt hhidden hrest hlt
      rw [heq] at hend
      exact absurd hend (Nat.lt_irrefl _)

/-- What comes before the last clearing does not count. -/
theorem foldl_afterClear {f : Index F → DocumentEvent F → Index F}
    (hf : ∀ index e, e.clears = true → f index e = []) (index : Index F)
    (events : List (DocumentEvent F)) :
    events.foldl f index =
      (afterClear events).foldl f (if events.any DocumentEvent.clears then [] else index) := by
  unfold afterClear
  induction events using List.reverseRecOn with
  | nil => rfl
  | append_singleton events e ih =>
    rw [List.foldl_append, List.foldl_cons, List.foldl_nil, List.rtakeWhile_concat, List.any_append]
    cases he : e.clears with
    | true => simp [hf _ e he, he]
    | false => simp [ih, he]

theorem indexed_iff (index : Index F) (events : List (DocumentEvent F)) :
    events.foldl (writeEvent index) index = events.foldl applyEvent index ↔
      Shown index (afterClear events) := by
  have hwrite : ∀ (writer : Index F) (e : DocumentEvent F), e.clears = true →
      writeEvent index writer e = [] := by
    intro writer e he
    have hevent : e.event = .clearIndex := of_decide_eq_true he
    simp [writeEvent, hevent]
  have hspec : ∀ (writer : Index F) (e : DocumentEvent F), e.clears = true →
      applyEvent writer e = [] := by
    intro writer e he
    have hevent : e.event = .clearIndex := of_decide_eq_true he
    simp [applyEvent, hevent]
  have hclear : ∀ e ∈ afterClear events, e.clears = false := by
    intro e he
    simpa using List.mem_rtakeWhile_imp he
  have huntouched : Untouched index (if events.any DocumentEvent.clears then [] else index)
      (afterClear events) := by
    intro d hd e _ _
    split at hd
    · cases hd
    · exact List.any_eq_true.mpr ⟨d, hd, decide_eq_true rfl⟩
  rw [foldl_afterClear hwrite, foldl_afterClear hspec, fold_eq_iff hclear]
  exact and_iff_right huntouched

end Fold

/-! ## Producers -/

theorem foldlM_process (reader writer : Index F) (events : List (DocumentEvent F)) :
    events.foldlM (process reader) writer =
      if ∃ e ∈ events, e.throws = true then none else some (events.foldl (writeEvent reader) writer) := by
  induction events generalizing writer with
  | nil => simp
  | cons e events ih =>
    rw [List.foldlM_cons, process]
    cases he : e.throws with
    | true => simp [he]
    | false => simp [ih, he]

theorem indexProducer_eq (index : Index F) (producer : DocumentProducer F) :
    indexProducer index producer =
      if producer.Fails then none
      else some (producer.events.foldl (writeEvent index) index) := by
  unfold indexProducer DocumentProducer.Fails
  rw [foldlM_process]
  by_cases hopens : producer.opens = true
  · by_cases hthrows : ∃ e ∈ producer.events, e.throws = true
    · simp [hopens, hthrows]
    · by_cases hcommits : producer.commits = true
      · simp [hopens, hthrows, hcommits]
      · simp [hopens, hthrows, hcommits]
  · simp [hopens]

theorem unique_applyEvent {index : Index F} (h : Unique index) (e : DocumentEvent F) :
    Unique (applyEvent index e) := by
  cases he : e.clears with
  | true =>
    have hevent : e.event = .clearIndex := of_decide_eq_true he
    simp [applyEvent, hevent, Unique]
  | false =>
    have hothers : Unique (index.filter fun d => !hasKey e.key d) :=
      h.sublist (List.filter_sublist.map Document.key)
    rw [applyEvent_eq index he]
    cases e.adds with
    | false => simpa using hothers
    | true =>
      unfold Unique
      rw [List.map_append, List.nodup_append]
      refine ⟨hothers, by simp, ?_⟩
      intro key hkey key' hkey' heq
      obtain ⟨d, hd, rfl⟩ := List.mem_map.mp hkey
      obtain rfl : key' = e.document.key := by simpa using hkey'
      simp [hasKey, DocumentEvent.key, heq] at hd

theorem unique_applyProducer {index : Index F} (h : Unique index) (producer : DocumentProducer F) :
    Unique (applyProducer index producer) := by
  unfold applyProducer
  split
  · exact h
  · exact List.foldlRecOn producer.events applyEvent h fun _ hindex e _ => unique_applyEvent hindex e

theorem unique_expected {producers : List (DocumentProducer F)} :
    ∀ {index : Index F}, Unique index → ∀ result ∈ expected index producers, Unique result := by
  induction producers with
  | nil => intro index _ result hresult; cases hresult
  | cons producer producers ih =>
    intro index h result hresult
    have hnext := unique_applyProducer h producer
    rcases List.mem_cons.mp hresult with rfl | hresult
    · exact hnext
    · exact ih hnext result hresult

/-- A producer that fails is the last one. Otherwise the index shows what its events replace or
remove, as far as it is not cleared before. -/
def Harmless (index : Index F) (producer : DocumentProducer F)
    (following : List (DocumentProducer F)) : Prop :=
  (producer.Fails → following = []) ∧ (¬ producer.Fails → Shown index (afterClear producer.events))

theorem processed_cons (index : Index F) (producer : DocumentProducer F)
    (producers : List (DocumentProducer F)) :
    run index (producer :: producers) = expected index (producer :: producers) ↔
      Harmless index producer producers ∧
        run (applyProducer index producer) producers =
          expected (applyProducer index producer) producers := by
  unfold Harmless
  rw [run, expected, applyProducer, indexProducer_eq]
  by_cases hfails : producer.Fails
  · simp only [hfails, if_true, not_true_eq_false, false_imp_iff, and_true, true_imp_iff]
    cases producers with
    | nil => simp [run, expected]
    | cons next producers => simp [expected]
  · simp only [hfails, if_false, not_false_eq_true, false_imp_iff, true_and, true_imp_iff]
    rw [List.cons.injEq, indexed_iff]
    refine and_congr_right fun hshown => ?_
    rw [(indexed_iff index producer.events).mpr hshown]

theorem processed_iff (producers : List (DocumentProducer F)) :
    ∀ index : Index F, run index producers = expected index producers ↔
      ∀ pre producer post, producers = pre ++ producer :: post →
        Harmless (pre.foldl applyProducer index) producer post := by
  induction producers with
  | nil => intro index; simp [run, expected]
  | cons producer producers ih =>
    intro index
    rw [processed_cons, ih, Loop.forall_split_cons]
    rfl

theorem runs_iff (index : Index F) (producers : List (DocumentProducer F)) :
    Indexes index producers ↔
      ∀ pre producer post, producers = pre ++ producer :: post →
        Harmless (pre.foldl applyProducer index) producer post := by
  rw [← processed_iff]
  constructor
  · exact fun h => h.processed
  · intro h
    refine ⟨h, fun hunique => ?_⟩
    rw [h]
    exact unique_expected hunique

section Example

/-- The same document is created twice. -/
def twice : DocumentProducer Unit :=
  { opens := true
    events := [⟨.create, ⟨"1", "page", ()⟩, false⟩, ⟨.create, ⟨"1", "page", ()⟩, false⟩]
    commits := true }

theorem indexed_twice :
    run [] [twice] = [[⟨"1", "page", ()⟩, ⟨"1", "page", ()⟩]] ∧
      expected [] [twice] = [[⟨"1", "page", ()⟩]] ∧ ¬ Indexes [] [twice] := by
  have hrun : run [] [twice] = [[⟨"1", "page", ()⟩, ⟨"1", "page", ()⟩]] := by decide
  have hexpected : expected [] [twice] = [[⟨"1", "page", ()⟩]] := by decide
  refine ⟨hrun, hexpected, fun h => ?_⟩
  have heq := h.processed
  rw [hrun, hexpected] at heq
  exact absurd heq (by decide)

end Example

end Search
end AppNG
