import AppNG.Cache.PageCacheFilter
import AppNG.Lib.Keyed
import AppNG.Lib.Machine

/-!
# Cache.Listener

The page cache of a site and its `CacheEntryListener`, which keeps the keys of the entries by the events
of the cache, while entries come and go, and `CacheService` clears the cache or expires entries by the
beginning of their path.

Events are delivered in order, at any time. Clearing the cache is done in two steps, of which the second
clears the listener.

* `covered_step`: what a step makes of the keys that the listener has once all events are delivered.
* `expired_iff`: which entries are left after some were expired.
* `mirrors_iff`: along a run the keys of the cache are those of the listener, nothing under a path is
  left after it was expired, and no call fails, if and only if no entry is there for a method other
  than `GET` then, and the listener is there to be cleared and has all entries still to come.
-/

namespace AppNG
namespace Cache
namespace CacheService

/-! ## The listener -/

abbrev KeySet := Keyed (id : String → String)

inductive CacheEntryEvent where
  | created (key : String)
  | removed (key : String)
  | expired (key : String)

/-- `onCreated`, `onRemoved` and `onExpired`. -/
def onEvent (keys : KeySet) : CacheEntryEvent → KeySet
  | .created key => keys.put key
  | .removed key => keys.erase key
  | .expired key => keys.erase key

def startsWith (key completePrefix : String) : Bool := completePrefix.toList.isPrefixOf key.toList

def getKeys (keys : KeySet) (completePrefix : String) : List String :=
  keys.values.filter fun key => startsWith key completePrefix

/-! ## The cache -/

/-- Only responses to such requests are stored. -/
abbrev CacheableRequest := { rq : Request // isCacheableRequest rq = true }

def keyOf (rq : CacheableRequest) : String := calculateKey rq.1

/-- The cache, by the requests whose responses are its entries. -/
structure State where
  cache : Keyed keyOf
  /-- None: the cache was created without a listener. -/
  listener : Option KeySet
  /-- Events that are not delivered yet. -/
  events : List CacheEntryEvent
  /-- Calls of `clearCache` between their steps. -/
  clearing : Nat

def start (useListener : Bool) : State where
  cache := .empty
  listener := if useListener then some .empty else none
  events := []
  clearing := 0

namespace State

variable (t : State)

def raise (events : List CacheEntryEvent) : State :=
  if t.listener.isSome then { t with events := t.events ++ events } else t

/-- An event is raised for a new entry only. -/
def put (rq : CacheableRequest) : State :=
  let stored := { t with cache := t.cache.put rq }
  if (t.cache.get (keyOf rq)).isSome then stored else stored.raise [.created (keyOf rq)]

def remove (key : String) : State :=
  if (t.cache.get key).isSome then { t with cache := t.cache.erase key }.raise [.removed key] else t

def expire (key : String) : State :=
  if (t.cache.get key).isSome then { t with cache := t.cache.erase key }.raise [.expired key] else t

/-- To keep the size; no event is raised. -/
def evict (key : String) : State := { t with cache := t.cache.erase key }

def deliver : State :=
  match t.events with
  | [] => t
  | e :: events => { t with listener := t.listener.map (onEvent · e), events }

/-- The first step of `clearCache`. -/
def removeAll : State :=
  { t with cache := .empty, clearing := t.clearing + 1 }.raise
    (t.cache.values.map fun rq => .removed (keyOf rq))

/-- The second step. None: it throws, as there is no listener. -/
def clear : Option State :=
  t.listener.map fun _ => { t with listener := some .empty, clearing := t.clearing - 1 }

/-- The keys that `expireCacheElementsByPrefix` removes. -/
def keysFor (useCacheEntryListener : Bool) (cacheElementPrefix : String) : List String :=
  let completePrefix := "GET" ++ cacheElementPrefix
  match t.listener with
  | some keys =>
    if useCacheEntryListener then getKeys keys completePrefix
    else (t.cache.values.map keyOf).filter fun key => startsWith key completePrefix
  | none => (t.cache.values.map keyOf).filter fun key => startsWith key completePrefix

def expireByPrefix (useCacheEntryListener : Bool) (cacheElementPrefix : String) : State :=
  (t.keysFor useCacheEntryListener cacheElementPrefix).foldl remove t

end State

inductive Step where
  | put (rq : CacheableRequest)
  | remove (key : String)
  | expire (key : String)
  | evict (key : String)
  | deliver
  | removeAll
  | clear
  | expireByPrefix (useCacheEntryListener : Bool) (cacheElementPrefix : String)

/-- After a step. There is no second step of `clearCache` without the first. -/
def State.perform (t : State) : Step → State
  | .put rq => t.put rq
  | .remove key => t.remove key
  | .expire key => t.expire key
  | .evict key => t.evict key
  | .deliver => t.deliver
  | .removeAll => t.removeAll
  | .clear => if 0 < t.clearing then t.clear.getD { t with clearing := t.clearing - 1 } else t
  | .expireByPrefix useCacheEntryListener cacheElementPrefix =>
    t.expireByPrefix useCacheEntryListener cacheElementPrefix

/-! ## What is to hold -/

/-- Once all events are delivered, the listener has the keys of the cache. -/
def Covered (t : State) : Prop :=
  ∀ keys, t.listener = some keys →
    ∀ rq ∈ t.cache.values, keyOf rq ∈ (t.events.foldl onEvent keys).values

/-- The paths of the entries do not start like this. -/
def Expired (t : State) (cacheElementPrefix : String) : Prop :=
  ∀ rq ∈ t.cache.values, startsWith rq.1.servletPath cacheElementPrefix = false

/-- Clearing works, and so does expiring, with the listener and without, once all events are
delivered. -/
def StepRight (t : State) : Step → Prop
  | .clear => 0 < t.clearing → t.clear.isSome
  | .expireByPrefix useCacheEntryListener cacheElementPrefix => t.events = [] →
    Expired (t.expireByPrefix useCacheEntryListener cacheElementPrefix) cacheElementPrefix ∧
      (t.expireByPrefix true cacheElementPrefix).cache =
        (t.expireByPrefix false cacheElementPrefix).cache
  | _ => True

/-- The listener is there, and if it is cleared now, it will have all entries by the events that are
to be delivered. What is expired is stored for `GET`. -/
def Allowed (t : State) : Step → Prop
  | .clear => 0 < t.clearing → t.listener.isSome ∧
    ∀ rq ∈ t.cache.values, keyOf rq ∈ (t.events.foldl onEvent .empty).values
  | .expireByPrefix _ cacheElementPrefix => t.events = [] →
    ∀ rq ∈ t.cache.values, startsWith rq.1.servletPath cacheElementPrefix = true →
      rq.1.method = "GET"
  | _ => True

/-! ## The keys -/

section Keys

variable {t : State} {keys : KeySet} {key k : String}

theorem mem_created : k ∈ (onEvent keys (.created key)).values ↔ k = key ∨ k ∈ keys.values := by
  rw [onEvent, Keyed.mem_put]
  by_cases hk : k = key
  · simp [hk]
  · simp [hk]

theorem mem_removed : k ∈ (onEvent keys (.removed key)).values ↔ k ∈ keys.values ∧ k ≠ key :=
  Keyed.mem_erase

theorem mem_expired : k ∈ (onEvent keys (.expired key)).values ↔ k ∈ keys.values ∧ k ≠ key :=
  Keyed.mem_erase

end Keys

namespace State

variable {t : State} {key : String}

@[simp] theorem raise_cache (t : State) (events : List CacheEntryEvent) :
    (t.raise events).cache = t.cache := by
  unfold raise
  split <;> rfl

@[simp] theorem raise_listener (t : State) (events : List CacheEntryEvent) :
    (t.raise events).listener = t.listener := by
  unfold raise
  split <;> rfl

theorem remove_cache (t : State) (key : String) : (t.remove key).cache = t.cache.erase key := by
  unfold remove
  cases hget : t.cache.get key with
  | some rq => simp
  | none =>
    rw [Keyed.get_eq_none] at hget
    refine Keyed.ext_values (List.filter_eq_self.mpr fun rq hrq => ?_).symm
    simpa using hget rq hrq

theorem foldl_remove_cache (t : State) (keys : List String) :
    (keys.foldl remove t).cache = t.cache.filter fun rq => keyOf rq ∉ keys := by
  induction keys generalizing t with
  | nil => exact Keyed.ext_values (List.filter_eq_self.mpr (by simp)).symm
  | cons key keys ih =>
    rw [List.foldl_cons, ih, remove_cache]
    refine Keyed.ext_values ?_
    simp only [Keyed.filter, Keyed.erase, List.filter_filter]
    refine List.filter_congr fun rq _ => ?_
    simp [Bool.and_comm]

/-! ## Steps -/

theorem covered_of_empty (h : t.cache = .empty) : Covered t := by
  intro keys _ rq hrq
  rw [h] at hrq
  exact absurd hrq Keyed.not_mem_empty

theorem covered_raise {e : CacheEntryEvent} (h : ∀ keys, t.listener = some keys →
    ∀ rq ∈ t.cache.values, keyOf rq ∈ (onEvent (t.events.foldl onEvent keys) e).values) :
    Covered (t.raise [e]) := by
  intro keys hkeys rq hrq
  rw [raise_listener] at hkeys
  rw [raise_cache] at hrq
  have hevents : (t.raise [e]).events = t.events ++ [e] := by simp [raise, hkeys]
  rw [hevents, List.foldl_append]
  exact h keys hkeys rq hrq

theorem covered_put (h : Covered t) (rq : CacheableRequest) : Covered (t.put rq) := by
  unfold put
  cases hget : t.cache.get (keyOf rq) with
  | some old =>
    obtain ⟨hold, hkey⟩ := Keyed.get_eq_some.mp hget
    intro keys hkeys other hother
    rcases Keyed.mem_put.mp hother with rfl | ⟨hother, -⟩
    · exact hkey ▸ h keys hkeys old hold
    · exact h keys hkeys other hother
  | none =>
    refine covered_raise fun keys hkeys other hother => mem_created.mpr ?_
    rcases Keyed.mem_put.mp hother with rfl | ⟨hother, -⟩
    · exact .inl rfl
    · exact .inr (h keys hkeys other hother)

theorem covered_remove (h : Covered t) (key : String) : Covered (t.remove key) := by
  unfold remove
  split
  · refine covered_raise fun keys hkeys rq hrq => mem_removed.mpr ?_
    obtain ⟨hrq, hne⟩ := Keyed.mem_erase.mp hrq
    exact ⟨h keys hkeys rq hrq, hne⟩
  · exact h

theorem covered_expire (h : Covered t) (key : String) : Covered (t.expire key) := by
  unfold expire
  split
  · refine covered_raise fun keys hkeys rq hrq => mem_expired.mpr ?_
    obtain ⟨hrq, hne⟩ := Keyed.mem_erase.mp hrq
    exact ⟨h keys hkeys rq hrq, hne⟩
  · exact h

theorem covered_evict (h : Covered t) (key : String) : Covered (t.evict key) :=
  fun keys hkeys rq hrq => h keys hkeys rq (Keyed.mem_erase.mp hrq).1

theorem covered_deliver (h : Covered t) : Covered t.deliver := by
  unfold deliver
  cases hevents : t.events with
  | nil => exact h
  | cons e events =>
    intro keys hkeys rq hrq
    obtain ⟨before, hbefore, rfl⟩ := Option.map_eq_some_iff.mp hkeys
    have hcovered := h before hbefore rq hrq
    rwa [hevents] at hcovered

theorem covered_expireByPrefix (h : Covered t) (useCacheEntryListener : Bool)
    (cacheElementPrefix : String) : Covered (t.expireByPrefix useCacheEntryListener cacheElementPrefix) :=
  List.foldlRecOn _ remove h fun _ hu key _ => covered_remove hu key

/-- The events to be delivered make up for the listener being cleared. -/
def Clearable (t : State) : Step → Prop
  | .clear => 0 < t.clearing → ∀ keys, t.listener = some keys →
    ∀ rq ∈ t.cache.values, keyOf rq ∈ (t.events.foldl onEvent .empty).values
  | _ => True

theorem covered_step (h : Covered t) (s : Step) : Covered (t.perform s) ↔ t.Clearable s := by
  cases s with
  | put rq => exact iff_true_intro (covered_put h rq)
  | remove key => exact iff_true_intro (covered_remove h key)
  | expire key => exact iff_true_intro (covered_expire h key)
  | evict key => exact iff_true_intro (covered_evict h key)
  | deliver => exact iff_true_intro (covered_deliver h)
  | removeAll => exact iff_true_intro (covered_of_empty (raise_cache _ _))
  | expireByPrefix useCacheEntryListener cacheElementPrefix =>
    exact iff_true_intro (covered_expireByPrefix h useCacheEntryListener cacheElementPrefix)
  | clear =>
    simp only [perform, Clearable]
    by_cases hclearing : 0 < t.clearing
    · rw [if_pos hclearing]
      cases hlistener : t.listener with
      | none =>
        refine iff_of_true ?_ (by simp)
        intro keys hkeys
        simp [clear, hlistener] at hkeys
      | some keys => simp [clear, hlistener, Covered, hclearing]
    · simp only [hclearing, if_false, false_implies, iff_true]
      exact h

end State

/-! ## What is expired -/

theorem startsWith_iff {key completePrefix : String} :
    startsWith key completePrefix = true ↔ completePrefix.toList <+: key.toList := by
  simp [startsWith]

theorem method_of_startsWith {rq : CacheableRequest} {cacheElementPrefix : String}
    (h : startsWith (keyOf rq) ("GET" ++ cacheElementPrefix) = true) : rq.1.method = "GET" := by
  obtain ⟨rest, hrest⟩ := startsWith_iff.mp h
  have hkey : (keyOf rq).toList =
      rq.1.method.toList ++ (rq.1.servletPath.toList ++ (querySuffix rq.1).toList) := by
    simp [keyOf, calculateKey]
  rw [hkey, String.toList_append, List.append_assoc] at hrest
  have hmethod := rq.2
  simp only [isCacheableRequest, Bool.or_eq_true, beq_iff_eq, Java.toUpperCase] at hmethod
  apply String.toList_injective
  rcases hmethod with hget | hhead
  · obtain ⟨g, cs, hcs, -, hget⟩ := List.map_eq_cons_iff.mp hget
    obtain ⟨e, cs, rfl, -, hget⟩ := List.map_eq_cons_iff.mp hget
    obtain ⟨t, cs, rfl, -, hget⟩ := List.map_eq_cons_iff.mp hget
    obtain rfl := List.map_eq_nil_iff.mp hget
    rw [hcs] at hrest ⊢
    exact (List.append_inj_left hrest rfl).symm
  · obtain ⟨h, cs, hcs, hupper, -⟩ := List.map_eq_cons_iff.mp hhead
    rw [hcs] at hrest
    have hfirst := congrArg List.head? hrest
    simp at hfirst
    subst hfirst
    exact absurd hupper (by decide)

theorem startsWith_keyOf {rq : CacheableRequest} {cacheElementPrefix : String}
    (h : startsWith rq.1.servletPath cacheElementPrefix = true) :
    startsWith (keyOf rq) ("GET" ++ cacheElementPrefix) = true ↔ rq.1.method = "GET" := by
  refine ⟨method_of_startsWith, fun hmethod => ?_⟩
  rw [startsWith_iff] at h ⊢
  obtain ⟨rest, hrest⟩ := h
  refine ⟨rest ++ (querySuffix rq.1).toList, ?_⟩
  rw [keyOf, calculateKey, hmethod]
  simp [← hrest]

section Expire

variable {t : State}

theorem mem_keysFor (h : Covered t) (hevents : t.events = []) (useCacheEntryListener : Bool)
    (cacheElementPrefix : String) {rq : CacheableRequest} (hrq : rq ∈ t.cache.values) :
    keyOf rq ∈ t.keysFor useCacheEntryListener cacheElementPrefix ↔
      startsWith (keyOf rq) ("GET" ++ cacheElementPrefix) = true := by
  have hcache : keyOf rq ∈ t.cache.values.map keyOf := List.mem_map_of_mem hrq
  unfold State.keysFor
  cases hlistener : t.listener with
  | none => simp only [List.mem_filter, hcache, true_and]
  | some keys =>
    have hkeys : keyOf rq ∈ keys.values := by
      have hcovered := h keys hlistener rq hrq
      rwa [hevents] at hcovered
    cases useCacheEntryListener with
    | true => simp only [if_true, getKeys, List.mem_filter, hkeys, true_and]
    | false => simp only [Bool.false_eq_true, if_false, List.mem_filter, hcache, true_and]

theorem expireByPrefix_cache (h : Covered t) (hevents : t.events = []) (useCacheEntryListener : Bool)
    (cacheElementPrefix : String) :
    (t.expireByPrefix useCacheEntryListener cacheElementPrefix).cache =
      t.cache.filter fun rq => !startsWith (keyOf rq) ("GET" ++ cacheElementPrefix) := by
  rw [State.expireByPrefix, State.foldl_remove_cache]
  refine Keyed.filter_congr fun rq hrq => ?_
  simp [mem_keysFor h hevents useCacheEntryListener cacheElementPrefix hrq]

theorem expired_iff (h : Covered t) (hevents : t.events = []) (useCacheEntryListener : Bool)
    (cacheElementPrefix : String) :
    Expired (t.expireByPrefix useCacheEntryListener cacheElementPrefix) cacheElementPrefix ↔
      ∀ rq ∈ t.cache.values, startsWith rq.1.servletPath cacheElementPrefix = true →
        rq.1.method = "GET" := by
  rw [Expired, expireByPrefix_cache h hevents]
  constructor
  · intro hexpired rq hrq hpath
    rw [← startsWith_keyOf hpath]
    by_contra hkey
    have hleft := hexpired rq (Keyed.mem_filter.mpr ⟨hrq, by simpa using hkey⟩)
    rw [hpath] at hleft
    cases hleft
  · intro hget rq hrq
    obtain ⟨hrq, hkey⟩ := Keyed.mem_filter.mp hrq
    by_contra hpath
    rw [Bool.not_eq_false] at hpath
    rw [(startsWith_keyOf hpath).mpr (hget rq hrq hpath)] at hkey
    cases hkey

end Expire

/-! ## Runs -/

theorem stepRight_iff {t : State} (h : Covered t) (s : Step) :
    t.Clearable s ∧ StepRight t s ↔ Allowed t s := by
  cases s with
  | clear =>
    simp only [State.Clearable, StepRight, Allowed, State.clear]
    cases t.listener with
    | none => simp
    | some keys => simp
  | expireByPrefix useCacheEntryListener cacheElementPrefix =>
    simp only [State.Clearable, StepRight, Allowed, true_and]
    refine forall_congr' fun hevents => ?_
    rw [expired_iff h hevents]
    refine and_iff_left ?_
    rw [expireByPrefix_cache h hevents, expireByPrefix_cache h hevents]
  | _ => exact iff_of_true ⟨trivial, trivial⟩ trivial

theorem clearable_of_allowed {t : State} {s : Step} (h : Allowed t s) : t.Clearable s := by
  cases s with
  | clear => exact fun hclearing _ _ => (h hclearing).2
  | _ => trivial

theorem mirrors_iff (useListener : Bool) (steps : List Step) :
    ((∀ pre post, steps = pre ++ post → Covered (pre.foldl State.perform (start useListener))) ∧
      ∀ pre s post, steps = pre ++ s :: post →
        StepRight (pre.foldl State.perform (start useListener)) s) ↔
      ∀ pre s post, steps = pre ++ s :: post →
        Allowed (pre.foldl State.perform (start useListener)) s := by
  have hrun := Machine.foldl_inv_iff (State.covered_of_empty (t := start useListener) rfl)
    (fun _ s ht => State.covered_step ht s) steps
  constructor
  · rintro ⟨hcovered, hright⟩ pre s post hsteps
    exact (stepRight_iff (hcovered pre (s :: post) hsteps) s).mp
      ⟨hrun.mp hcovered pre s post hsteps, hright pre s post hsteps⟩
  · intro hallowed
    have hcovered := hrun.mpr fun pre s post hsteps => clearable_of_allowed (hallowed pre s post hsteps)
    refine ⟨hcovered, fun pre s post hsteps => ?_⟩
    exact ((stepRight_iff (hcovered pre (s :: post) hsteps) s).mpr (hallowed pre s post hsteps)).2

section Example

theorem page_path : "/page" = "" ∨ "/page".toList.head? = some '/' := .inr rfl

def headRequest : CacheableRequest :=
  ⟨{ method := "HEAD", servletPath := "/page", queryString := none, ifModifiedSince := none
     acceptEncoding := none, roles := none, method_token := by decide
     servletPath_slash := page_path }, by decide⟩

/-- An entry for `HEAD` is left, an entry that is stored while the cache is cleared is not known to the
listener, and without a listener the cache cannot be cleared. -/
theorem head_entry_stays :
    (([.put headRequest, .deliver, .expireByPrefix true "/page"] : List Step).foldl State.perform
      (start true)).cache.values = [headRequest] ∧
    (let t := ([.removeAll, .put headRequest, .deliver, .clear] : List Step).foldl State.perform
      (start true)
    t.cache.values = [headRequest] ∧ t.events.length = 0 ∧
      t.listener.map (·.values) = some []) ∧
    ((start false).perform .removeAll).clear.isNone ∧
    ¬ ∀ (useListener : Bool) (steps : List Step),
      (∀ pre post, steps = pre ++ post → Covered (pre.foldl State.perform (start useListener))) ∧
        ∀ pre s post, steps = pre ++ s :: post →
          StepRight (pre.foldl State.perform (start useListener)) s := by
  refine ⟨by decide, by decide, by decide, fun h => ?_⟩
  have hright := (h false [.removeAll, .clear]).2 [.removeAll] .clear [] rfl
  exact absurd (hright (by decide)) (by decide)

end Example

end CacheService
end Cache
end AppNG
