import AppNG.Cache.PageCacheFilter
import AppNG.Lib.Machine

/-!
# Cache.Runs

The cache of a site while requests of any number of sessions are under way.

Between the lookup of a miss and the answer of the application other requests come and go, entries
are dropped, and a hit may write its entry back later. What is in the cache at any moment was
answered by the application to a request that uses the cache (`Traced`). So a body is served from
the cache only to a session with one of the roles it was produced for, and requests that are no
business of the cache leave it alone (`cache_safe`).
-/

namespace AppNG
namespace Cache

open Machine

structure State where
  cache : String → Option CachedResponse := fun _ => none
  /-- The misses the application has not answered yet. -/
  pending : List Request := []
  /-- Entries on their way back into the cache, by `replaceAsync`. -/
  replacing : List (String × CachedResponse) := []

inductive Event where
  | bypass (rq : Request) (a : AppResponse)
  | miss (rq : Request)
  | respond (rq : Request) (a : AppResponse)
  | hit (rq : Request)
  | drop (key : String)
  | replace (key : String) (cached : CachedResponse)

/-- `cache.put` for a response that is OK. -/
def store (cache : String → Option CachedResponse) (cached : Option CachedResponse) :
    String → Option CachedResponse :=
  match cached with
  | none => cache
  | some c => if c.isOk then fun key => if key = c.id then some c else cache key else cache

/-- One step, and what is sent to a client by it. -/
def step (lib : Library) (site : SiteCache) (s : State) :
    Event → Option (State × Option Response)
  | .bypass rq _ => if usesCache lib site rq then none else some (s, none)
  | .miss rq =>
    if usesCache lib site rq && (s.cache (calculateKey rq)).isNone then
      some ({ s with pending := rq :: s.pending }, none)
    else none
  | .respond rq a =>
    if rq ∈ s.pending then
      some ({ s with
        pending := s.pending.erase rq
        cache := store s.cache (performRequest lib site rq a).2 }, missAnswer lib site rq a)
    else none
  | .hit rq =>
    if usesCache lib site rq then
      match s.cache (calculateKey rq) with
      | none => none
      | some cached =>
        let served := hitResponse cached rq
        some ({ s with
          replacing :=
            if site.cacheHitStats && 0 < served.hits then (calculateKey rq, served) :: s.replacing
            else s.replacing }, some (hitAnswer lib rq cached))
    else none
  | .drop key => some ({ s with cache := fun k => if k = key then none else s.cache k }, none)
  | .replace key cached =>
    if (key, cached) ∈ s.replacing then
      some ({ s with
        replacing := s.replacing.erase (key, cached)
        cache := fun k =>
          if k = key ∧ (s.cache k).isSome then some cached else s.cache k }, none)
    else none

abbrev Log := List (Event × Option Response)

abbrev Runs (lib : Library) (site : SiteCache) : Log → State → Prop :=
  Run (fun s (e : Event × Option Response) t => step lib site s e.1 = some (t, e.2)) {}

variable {lib : Library} {site : SiteCache}

variable {s t : State} {es : Log} {e : Event} {r : Option Response}

/-! ## Steps -/

theorem step_cases (h : step lib site s e = some (t, r)) :
    (∃ rq a, e = .bypass rq a ∧ t = s ∧ r = none) ∨
    (∃ rq, e = .miss rq ∧ usesCache lib site rq = true ∧
      t = { s with pending := rq :: s.pending } ∧ r = none) ∨
    (∃ rq a, e = .respond rq a ∧ rq ∈ s.pending ∧
      t = { s with
        pending := s.pending.erase rq
        cache := store s.cache (performRequest lib site rq a).2 } ∧
      r = missAnswer lib site rq a) ∨
    (∃ rq cached, e = .hit rq ∧ s.cache (calculateKey rq) = some cached ∧ t.cache = s.cache ∧
      t.pending = s.pending ∧
      (∀ p ∈ t.replacing, p ∈ s.replacing ∨
        (p = (calculateKey rq, hitResponse cached rq) ∧ 0 < (hitResponse cached rq).hits)) ∧
      r = some (hitAnswer lib rq cached)) ∨
    (∃ key, e = .drop key ∧
      t = { s with cache := fun k => if k = key then none else s.cache k } ∧ r = none) ∨
    (∃ key cached, e = .replace key cached ∧ (key, cached) ∈ s.replacing ∧
      t = { s with
        replacing := s.replacing.erase (key, cached)
        cache := fun k => if k = key ∧ (s.cache k).isSome then some cached else s.cache k } ∧
      r = none) := by
  cases e with
  | bypass rq a =>
    simp only [step] at h
    split at h
    · cases h
    · cases h
      exact .inl ⟨rq, a, rfl, rfl, rfl⟩
  | miss rq =>
    simp only [step] at h
    split at h
    · rename_i huse
      cases h
      exact .inr (.inl ⟨rq, rfl, (Bool.and_eq_true _ _ ▸ huse).1, rfl, rfl⟩)
    · cases h
  | respond rq a =>
    simp only [step] at h
    split at h
    · rename_i hmem
      cases h
      exact .inr (.inr (.inl ⟨rq, a, rfl, hmem, rfl, rfl⟩))
    · cases h
  | hit rq =>
    simp only [step] at h
    split at h
    · split at h
      · cases h
      · rename_i cached hcached
        cases h
        refine .inr (.inr (.inr (.inl ⟨rq, cached, rfl, hcached, rfl, rfl, ?_, rfl⟩)))
        intro p hp
        simp only at hp
        split at hp
        · rename_i hserved
          rcases List.mem_cons.mp hp with rfl | hp
          · simp only [Bool.and_eq_true, decide_eq_true_eq] at hserved
            exact .inr ⟨rfl, hserved.2⟩
          · exact .inl hp
        · exact .inl hp
    · cases h
  | drop key =>
    cases h
    exact .inr (.inr (.inr (.inr (.inl ⟨key, rfl, rfl, rfl⟩))))
  | replace key cached =>
    simp only [step] at h
    split at h
    · rename_i hmem
      cases h
      exact .inr (.inr (.inr (.inr (.inr ⟨key, cached, rfl, hmem, rfl, rfl⟩))))
    · cases h

/-! ## Where entries come from -/

/-- The application answered a request that uses the cache with it, and the response was OK. -/
def Origin (lib : Library) (site : SiteCache) (es : Log) (key : String) (cached : CachedResponse) :
    Prop :=
  ∃ rq a r stored hits, (Event.respond rq a, r) ∈ es ∧ calculateKey rq = key ∧
    usesCache lib site rq = true ∧ (performRequest lib site rq a).2 = some stored ∧
    stored.isOk = true ∧ cached = { stored with hits }

theorem Origin.mono {key : String} {cached : CachedResponse} {fs : Log}
    (h : Origin lib site es key cached) : Origin lib site (es ++ fs) key cached := by
  obtain ⟨rq, a, r, stored, hits, hmem, hrest⟩ := h
  exact ⟨rq, a, r, stored, hits, List.mem_append_left _ hmem, hrest⟩

theorem Origin.hit {key : String} {cached : CachedResponse} {rq : Request}
    (h : Origin lib site es key cached) (hserved : 0 < (hitResponse cached rq).hits) :
    Origin lib site es key (hitResponse cached rq) := by
  obtain ⟨rq₀, a, r, stored, hits, hmem, hkey, huse, hstored, hok, rfl⟩ := h
  refine ⟨rq₀, a, r, stored, hits + 1, hmem, hkey, huse, hstored, hok, ?_⟩
  unfold hitResponse at hserved ⊢
  split at hserved
  · cases hserved
  · rename_i hgranted
    rw [if_neg hgranted]

structure Traced (lib : Library) (site : SiteCache) (es : Log) (s : State) : Prop where
  cached : ∀ key c, s.cache key = some c → Origin lib site es key c
  replacing : ∀ p ∈ s.replacing, Origin lib site es p.1 p.2
  pending : ∀ rq ∈ s.pending, usesCache lib site rq = true

theorem store_some {cache : String → Option CachedResponse} {stored : Option CachedResponse}
    {key : String} {c : CachedResponse} (h : store cache stored key = some c) :
    cache key = some c ∨ (stored = some c ∧ c.isOk = true ∧ key = c.id) := by
  unfold store at h
  split at h
  · exact .inl h
  · rename_i c'
    split at h
    · rename_i hok
      beta_reduce at h
      split at h
      · rename_i hkey
        cases h
        exact .inr ⟨rfl, hok, hkey⟩
      · exact .inl h
    · exact .inl h

theorem performRequest_id {rq : Request} {a : AppResponse} {stored : CachedResponse}
    (h : (performRequest lib site rq a).2 = some stored) :
    stored.id = calculateKey rq ∧ stored.status = a.status ∧ stored.data = a.body ∧
      stored.contentType = a.contentType ∧ stored.hits = 0 := by
  simp only [performRequest] at h
  split at h
  · cases h
    exact ⟨rfl, rfl, rfl, rfl, rfl⟩
  · cases h

/-- The step lemma. -/
theorem Traced.step (hs : Traced lib site es s) (h : step lib site s e = some (t, r)) :
    Traced lib site (es ++ [(e, r)]) t := by
  have hcached : ∀ key c, s.cache key = some c → Origin lib site (es ++ [(e, r)]) key c :=
    fun key c hc => (hs.cached key c hc).mono
  have hreplacing : ∀ p ∈ s.replacing, Origin lib site (es ++ [(e, r)]) p.1 p.2 :=
    fun p hp => (hs.replacing p hp).mono
  rcases step_cases h with ⟨rq, a, rfl, rfl, rfl⟩ | ⟨rq, rfl, huse, rfl, rfl⟩ |
    ⟨rq, a, rfl, hmem, rfl, rfl⟩ | ⟨rq, c, rfl, hc, hcache, hpending, hnew, rfl⟩ |
    ⟨key, rfl, rfl, rfl⟩ | ⟨key, c, rfl, hmem, rfl, rfl⟩
  · exact ⟨hcached, hreplacing, hs.pending⟩
  · refine ⟨hcached, hreplacing, fun rq' hrq' => ?_⟩
    rcases List.mem_cons.mp hrq' with rfl | hrq'
    · exact huse
    · exact hs.pending rq' hrq'
  · refine ⟨fun key c hc => ?_, hreplacing, fun rq' hrq' =>
      hs.pending rq' (List.mem_of_mem_erase hrq')⟩
    rcases store_some hc with hc | ⟨hstored, hok, rfl⟩
    · exact hcached key c hc
    · refine ⟨rq, a, _, c, c.hits, List.mem_append_right _ (List.mem_singleton.mpr rfl), ?_,
        hs.pending rq hmem, hstored, hok, rfl⟩
      exact (performRequest_id hstored).1.symm
  · refine ⟨fun key c' hc' => hcached key c' (hcache ▸ hc'), fun p hp => ?_,
      fun rq' hrq' => hs.pending rq' (hpending ▸ hrq')⟩
    rcases hnew p hp with hp | ⟨rfl, hserved⟩
    · exact hreplacing p hp
    · exact (hcached _ c hc).hit hserved
  · refine ⟨fun key' c hc => ?_, hreplacing, hs.pending⟩
    simp only at hc
    split at hc
    · cases hc
    · exact hcached key' c hc
  · refine ⟨fun key' c' hc => ?_, fun p hp => hreplacing p (List.mem_of_mem_erase hp),
      hs.pending⟩
    simp only at hc
    split at hc
    · rename_i hkey
      cases hc
      rw [hkey.1]
      exact hreplacing _ hmem
    · exact hcached key' c' hc

theorem traced_of_runs (h : Runs lib site es t) : Traced lib site es t := by
  refine h.inv (P := Traced lib site) ⟨?_, ?_, ?_⟩ fun es s e t hs hstep => hs.step hstep
  · intro key c hc
    cases hc
  · intro p hp
    cases hp
  · intro rq hrq
    cases hrq

/-! ## What is sent -/

theorem writeCachedHeaders_body {response : Response} {cached : CachedResponse} :
    (writeCachedHeaders response cached).body = response.body := by
  unfold writeCachedHeaders
  generalize cached.headers.filter _ = fields
  induction fields generalizing response with
  | nil => rfl
  | cons f fields ih => exact ih.trans setHeader_body

/-- A client is sent nothing, or the stored body, compressed or not. -/
theorem deliver_body (lib : Library) (rq : Request) (response : Response)
    (cached : CachedResponse) (h : response.body = []) :
    (deliver lib rq response cached).body = [] ∨
      (deliver lib rq response cached).body = cached.data ∨
      (deliver lib rq response cached).body = lib.gzip cached.data := by
  unfold deliver
  split
  · exact .inl h
  · split
    · simp only [writeCachedHeaders_body, handleModifiedHeaders]
      split
      · exact .inl h
      · exact .inr (.inl rfl)
    · have hbody : (writeResponse lib rq response cached).body = (sentBody lib rq cached).1 := rfl
      rw [hbody]
      unfold sentBody
      split
      · exact .inl rfl
      · split
        · split
          · exact .inl rfl
          · exact .inr (.inr rfl)
        · exact .inr (.inl rfl)

def requiredRoles (a : AppResponse) : List String := a.headers.get requiredRole

def HoldsRole (rq : Request) (required : List String) : Prop :=
  ∃ roles, rq.roles = some roles ∧ ∃ role ∈ required, role ∈ roles

theorem hitAnswer_denied {rq : Request} {cached : CachedResponse}
    (h : isDenied cached rq = true) : hitAnswer lib rq cached = { status := hitStatus cached rq } := by
  have h4xx : is4xx (hitStatus cached rq) = true := (Bool.and_eq_true _ _ ▸ h).2
  unfold hitAnswer hitResponse deliver
  rw [if_pos h, if_pos h4xx]

theorem holdsRole_of_granted {rq : Request} {cached : CachedResponse}
    (h : isDenied cached rq = false) (hrequired : cached.headers.get requiredRole ≠ []) :
    HoldsRole rq (cached.headers.get requiredRole) := by
  have h4xx : is4xx (hitStatus cached rq) = false := by
    simpa [isDenied, hrequired] using h
  unfold hitStatus at h4xx
  simp only [List.isEmpty_iff, hrequired, if_false] at h4xx
  cases hroles : rq.roles with
  | none =>
    rw [hroles] at h4xx
    cases h4xx
  | some roles =>
    rw [hroles] at h4xx
    simp only at h4xx
    split at h4xx
    · rename_i hany
      obtain ⟨role, hrole, hcontains⟩ := List.any_eq_true.mp hany
      exact ⟨roles, hroles, role, hrole, List.contains_iff_mem.mp hcontains⟩
    · cases h4xx

/-- Without a body, or with the body of a response that the application gave for the same key, and
then to a session that holds a role the response requires. -/
def ServedRightly (lib : Library) (es : Log) (rq : Request) (r : Response) : Prop :=
  r.body = [] ∨ ∃ rq₀ a r₀, (Event.respond rq₀ a, r₀) ∈ es ∧ calculateKey rq₀ = calculateKey rq ∧
    (r.body = a.body ∨ r.body = lib.gzip a.body) ∧
    (requiredRoles a ≠ [] → HoldsRole rq (requiredRoles a))

theorem hit_servedRightly {rq : Request} {cached : CachedResponse}
    (h : Origin lib site es (calculateKey rq) cached) :
    ServedRightly lib es rq (hitAnswer lib rq cached) := by
  obtain ⟨rq₀, a, r₀, stored, hits, hmem, hkey, -, hstored, -, rfl⟩ := h
  cases hdenied : isDenied { stored with hits } rq with
  | true => exact .inl (by rw [hitAnswer_denied hdenied])
  | false =>
    have hdata : (hitResponse { stored with hits } rq).data = a.body := by
      unfold hitResponse
      rw [hdenied]
      exact (performRequest_id hstored).2.2.1
    have hroles : stored.headers.get requiredRole = requiredRoles a :=
      performRequest_get hstored rfl rfl rfl
    have hheld : requiredRoles a ≠ [] → HoldsRole rq (requiredRoles a) := by
      intro hrequired
      rw [← hroles] at hrequired ⊢
      exact holdsRole_of_granted hdenied hrequired
    have hbody := deliver_body lib rq {} (hitResponse { stored with hits } rq) rfl
    rcases hbody with h | h | h
    · exact .inl h
    · exact .inr ⟨rq₀, a, r₀, hmem, hkey, .inl (h.trans hdata), hheld⟩
    · exact .inr ⟨rq₀, a, r₀, hmem, hkey, .inr (h.trans (congrArg lib.gzip hdata)), hheld⟩

theorem ServedRightly.mono {fs : Log} {rq : Request} {response : Response}
    (h : ServedRightly lib es rq response) : ServedRightly lib (es ++ fs) rq response := by
  rcases h with h | ⟨rq₀, a, r₀, hmem, hrest⟩
  · exact .inl h
  · exact .inr ⟨rq₀, a, r₀, List.mem_append_left _ hmem, hrest⟩

theorem hits_servedRightly (h : Runs lib site es t) {rq : Request} {response : Response}
    (hmem : (Event.hit rq, some response) ∈ es) : ServedRightly lib es rq response := by
  obtain ⟨pre, s, u, post, rfl, hpre, hstep⟩ := h.stepped _ hmem
  have hs : Traced lib site pre s := traced_of_runs hpre
  rcases step_cases hstep with ⟨_, _, he, _⟩ | ⟨_, he, _⟩ | ⟨_, _, he, _⟩ |
    ⟨rq', cached, he, hcached, _, _, _, hr⟩ | ⟨_, he, _⟩ | ⟨_, _, he, _⟩
  all_goals cases he
  cases hr
  exact (hit_servedRightly (hs.cached _ cached hcached)).mono

/-! ## Requests that are no business of the cache -/

/-- The path matches an exception, or the method is neither GET nor HEAD in any case. -/
def Uncacheable (lib : Library) (site : SiteCache) (rq : Request) : Prop :=
  isException lib site.cacheExceptions rq.servletPath = true ∨
    Java.toUpperCase rq.method ∉ [['G', 'E', 'T'], ['H', 'E', 'A', 'D']]

/-- The event belongs to such a request, or is a response that is not OK. -/
def Excluded (lib : Library) (site : SiteCache) : Event → Prop
  | .bypass rq _ | .miss rq | .hit rq => Uncacheable lib site rq
  | .respond rq a => Uncacheable lib site rq ∨ a.status ≠ 200 ∨ a.body = []
  | .drop _ | .replace _ _ => False

theorem not_usesCache {rq : Request} (h : Uncacheable lib site rq) :
    usesCache lib site rq = false := by
  unfold usesCache
  rcases h with h | h
  · simp [h]
  · simp only [List.mem_cons, List.not_mem_nil, or_false, not_or] at h
    simp [isCacheableRequest, h.1, h.2]

theorem store_of_not_ok {cache : String → Option CachedResponse} {rq : Request} {a : AppResponse}
    (h : a.status ≠ 200 ∨ a.body = []) :
    store cache (performRequest lib site rq a).2 = cache := by
  unfold store
  split
  · rfl
  · rename_i stored hstored
    obtain ⟨-, hstatus, hdata, -⟩ := performRequest_id hstored
    have hok : stored.isOk = false := by
      unfold CachedResponse.isOk
      rw [hstatus, hdata]
      rcases h with h | h
      · simp [h]
      · simp [h]
    rw [hok]
    rfl

/-- In any run, a body that was produced for some roles leaves the cache only to a session with
one of them, and requests that must not be cached are not. -/
theorem cache_safe (lib : Library) (site : SiteCache) (h : Runs lib site es t) :
    (∀ rq response, (Event.hit rq, some response) ∈ es → ServedRightly lib es rq response) ∧
      ∀ e u r, step lib site t e = some (u, r) → Excluded lib site e → u.cache = t.cache := by
  refine ⟨fun rq response hmem => hits_servedRightly h hmem, fun e u r hstep hex => ?_⟩
  rcases step_cases hstep with ⟨_, _, rfl, rfl, _⟩ | ⟨_, rfl, _, rfl, _⟩ |
    ⟨rq, a, rfl, hmem, rfl, _⟩ | ⟨_, _, rfl, _, hcache, _⟩ | ⟨_, rfl, _⟩ | ⟨_, _, rfl, _⟩
  · rfl
  · rfl
  · rcases hex with hex | hex
    · have huse : usesCache lib site rq = true := (traced_of_runs h).pending rq hmem
      rw [not_usesCache hex] at huse
      cases huse
    · exact store_of_not_ok hex
  · exact hcache
  · cases hex
  · cases hex

/-! ## A cached page -/

def sampleLibrary : Library where
  knownStatus status := status == 200 || status == 404
  gzip data := 0x1f :: data
  shouldBodyBeZero status := status == 204 || status == 304
  shouldGzippedBodyBeZero data := data.length == 20
  getLastModified headers := if (headers.get "Last-Modified").isEmpty then -1 else 1000
  parseDate date := if date == "today" then some 1000 else none
  formatDate _ := "today"
  isPattern _ := false
  pathMatches _ _ := false
  body_zero _ := rfl
  gzipped_not_empty := rfl
  lastModified_get h h' heq := by rw [heq]
  lastModified_none h heq := by rw [heq]; rfl

def sampleSite : SiteCache where
  cacheEnabled := true
  cacheExceptions := none
  cacheHitStats := false
  clientTtl _ := 60

def sampleRequest (method : String) (token : '/' ∉ method.toList ∧ '?' ∉ method.toList)
    (roles : Option (List String)) : Request where
  method
  servletPath := "/page"
  queryString := none
  ifModifiedSince := none
  acceptEncoding := none
  roles
  method_token := token
  servletPath_slash := .inr (by decide)

def rolePage : AppResponse where
  status := 200
  contentType := some "text/html"
  contentLength := none
  headers := [("x-appng-required-role", "editor")]
  body := [1, 2, 3]
  listed_type := by decide

/-- The page from the cache, for an editor. -/
def editorAnswer : Response where
  contentType := some "text/html"
  contentLength := some 3
  headers := [("Cache-Control", "max-age=60")]
  body := [1, 2, 3]

theorem token_get : '/' ∉ "GET".toList ∧ '?' ∉ "GET".toList := by decide

def editorRequest : Request := sampleRequest "GET" token_get (some ["editor"])

def visitorRequest : Request := sampleRequest "GET" token_get none

def roleLog : Log :=
  [(.miss editorRequest, none),
    (.respond editorRequest rolePage, missAnswer sampleLibrary sampleSite editorRequest rolePage),
    (.hit editorRequest, some editorAnswer), (.hit visitorRequest, some { status := 401 })]

/-- An editor gets the page again, and a session without roles gets nothing of it. -/
theorem role_page_guarded :
    ServedRightly sampleLibrary roleLog editorRequest editorAnswer ∧
      ServedRightly sampleLibrary roleLog visitorRequest { status := 401 } := by
  have hserved : ∀ rq response, (Event.hit rq, some response) ∈ roleLog →
      ServedRightly sampleLibrary roleLog rq response :=
    (cache_safe sampleLibrary sampleSite (.snoc (.snoc (.snoc (.snoc .nil rfl) rfl) rfl) rfl)).1
  exact ⟨hserved _ _ (by simp [roleLog]), hserved _ _ (by simp [roleLog])⟩

/-- The method `get` is neither GET nor HEAD, and is cached. -/
theorem lower_case_cached :
    ∃ es s u r, let rq := sampleRequest "get" (by decide) none
      Runs sampleLibrary sampleSite es s ∧
        step sampleLibrary sampleSite s (.respond rq rolePage) = some (u, r) ∧
        rq.method ∉ ["GET", "HEAD"] ∧ s.cache (calculateKey rq) = none ∧
        (u.cache (calculateKey rq)).isSome = true :=
  ⟨[(.miss (sampleRequest "get" (by decide) none), none)], _, _, _,
    .snoc .nil rfl, rfl, by decide, rfl, rfl⟩

end Cache
end AppNG
