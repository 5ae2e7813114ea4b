import AppNG.Cache.Runs

/-!
# Cache.Transparency

What the client of `PageCacheFilter` is sent, compared with what the application produced.

* `setHeaders_get`: writing cached headers leaves the last value of every name.
* `miss_faithful`: a miss without a condition is answered as the application answered it.
* `answered_of_miss`, `hitAnswer_answered`: so are the others, if no header has several values and
  no content length is listed, or the client is told that nothing changed.
* `hits_answered`: the same for every hit of a run, against the response that made the entry.
-/

namespace AppNG
namespace Cache

/-- A header that the filter does not set, drop or replace by itself. -/
structure Kept (n : String) : Prop where
  cookie : NoCookie n
  cacheControl : sameName "Cache-Control" n = false
  expires : sameName "Expires" n = false
  contentEncoding : sameName "Content-Encoding" n = false
  contentType : sameName "Content-Type" n = false
  contentLength : sameName "Content-Length" n = false
  role : sameName requiredRole n = false

def SameHeaders (a : AppResponse) (r : Response) : Prop :=
  ∀ n, Kept n → r.headers.get n = a.headers.get n

/-- The client receives what the application produced, the body compressed or not, and none for
a status that has no body. -/
structure Faithful (lib : Library) (rq : Request) (a : AppResponse) (r : Response) : Prop where
  status : r.status = a.status
  contentType : r.contentType = a.contentType
  body : r.body = a.body ∨ (acceptsGzipEncoding rq = true ∧ r.body = lib.gzip a.body) ∨
    (lib.shouldBodyBeZero a.status = true ∧ r.body = [])
  length : r.contentLength = some r.body.length
  headers : SameHeaders a r

/-- The client asked for changes since a date that is not before the date of the response. -/
structure Unchanged (lib : Library) (rq : Request) (a : AppResponse) (r : Response) : Prop where
  condition : ∃ since date, rq.ifModifiedSince = some since ∧ lib.parseDate since = some date ∧
    lib.getLastModified a.headers ≤ date
  status : r.status = 304
  body : r.body = []
  headers : SameHeaders a r

/-- No header has more than one value, and the content length is not listed. -/
structure Plain (a : AppResponse) : Prop where
  single : ∀ n, (a.headers.get n).length ≤ 1
  length : a.headers.get "Content-Length" = []

variable {lib : Library} {site : SiteCache} {rq : Request} {a : AppResponse}
  {cached stored : CachedResponse} {response r : Response} {n : String}

/-! ## Replaying headers -/

theorem get_cons {f : String × String} {fields : Headers} :
    Headers.get (f :: fields) n =
      if sameName f.1 n then f.2 :: fields.get n else fields.get n := by
  unfold Headers.get
  by_cases h : sameName f.1 n = true
  · simp [h]
  · simp [h]

theorem setHeader_get_same {m value : String} (hm : sameName m n = true)
    (htype : sameName "Content-Type" n = false) (hlength : sameName "Content-Length" n = false) :
    (response.setHeader m value).headers.get n = [value] := by
  have hnot : ∀ {k : String}, sameName k n = false → sameName m k = false := by
    intro k hk
    rw [Bool.eq_false_iff] at hk ⊢
    intro hmk
    rw [Ne, sameName_iff] at hk
    exact hk ((sameName_iff.mp hmk).symm.trans (sameName_iff.mp hm))
  unfold Response.setHeader
  rw [hnot htype, hnot hlength]
  simp [get_set, hm]

/-- Of several values of a name the last one is left. -/
theorem setHeaders_get (htype : sameName "Content-Type" n = false)
    (hlength : sameName "Content-Length" n = false) (fields : Headers) :
    (setHeaders fields response).headers.get n =
      match (fields.get n).getLast? with
      | none => response.headers.get n
      | some value => [value] := by
  induction fields generalizing response with
  | nil => rfl
  | cons f fields ih =>
    have hcons : setHeaders (f :: fields) response =
        setHeaders fields (response.setHeader f.1 f.2) := rfl
    rw [hcons, ih, get_cons]
    by_cases hf : sameName f.1 n = true
    · rw [if_pos hf, setHeader_get_same hf htype hlength, List.getLast?_cons]
      cases (Headers.get fields n).getLast? <;> rfl
    · rw [if_neg hf, setHeader_get (Bool.not_eq_true _ ▸ hf)]

theorem setHeaders_contentType {type : Option String} (fields : Headers)
    (hlisted : ∀ value ∈ fields.get "Content-Type", type = some value)
    (h : response.contentType = type) : (setHeaders fields response).contentType = type := by
  induction fields generalizing response with
  | nil => exact h
  | cons f fields ih =>
    rw [get_cons] at hlisted
    refine ih (fun value hv => hlisted value ?_) ?_
    · split
      · exact List.mem_cons_of_mem _ hv
      · exact hv
    · rw [setHeader_contentType]
      by_cases hf : sameName f.1 "Content-Type" = true
      · rw [if_pos hf] at hlisted ⊢
        exact (hlisted f.2 List.mem_cons_self).symm
      · rw [if_neg hf]
        exact h

theorem setHeaders_contentLength (fields : Headers) (h : fields.get "Content-Length" = []) :
    (setHeaders fields response).contentLength = response.contentLength := by
  induction fields generalizing response with
  | nil => rfl
  | cons f fields ih =>
    rw [get_cons] at h
    by_cases hf : sameName f.1 "Content-Length" = true
    · rw [if_pos hf] at h
      cases h
    · rw [if_neg hf] at h
      exact (ih h).trans (setHeader_contentLength (Bool.not_eq_true _ ▸ hf))

theorem setHeaders_status (fields : Headers) :
    (setHeaders fields response).status = response.status := by
  induction fields generalizing response with
  | nil => rfl
  | cons f fields ih => exact ih.trans setHeader_status

theorem setHeaders_body (fields : Headers) : (setHeaders fields response).body = response.body := by
  induction fields generalizing response with
  | nil => rfl
  | cons f fields ih => exact ih.trans setHeader_body

/-! ## What is stored -/

theorem get_congr {headers : Headers} {m : String} (h : sameName m n = true) :
    headers.get m = headers.get n := by
  have heq : ∀ f : String × String, sameName f.1 m = sameName f.1 n := by
    intro f
    rw [Bool.eq_iff_iff, sameName_iff, sameName_iff, sameName_iff.mp h]
  simp only [Headers.get, heq]

structure StoredFrom (a : AppResponse) (cached : CachedResponse) : Prop where
  status : cached.status = a.status
  contentType : cached.contentType = a.contentType
  data : cached.data = a.body
  headers : ∀ n, NoCookie n → sameName "Cache-Control" n = false → sameName "Expires" n = false →
    cached.headers.get n = a.headers.get n

theorem storedFrom (h : (performRequest lib site rq a).2 = some stored) (hits : Nat) :
    StoredFrom a { stored with hits } := by
  obtain ⟨-, hstatus, hdata, htype, -⟩ := performRequest_id h
  refine ⟨hstatus, htype, hdata, fun n hcookie hc he => ?_⟩
  have hget : stored.headers.get n = a.headers.get n := performRequest_get h hcookie hc he
  exact hget

theorem StoredFrom.lastModified (h : StoredFrom a cached) :
    lib.getLastModified cached.headers = lib.getLastModified a.headers :=
  lib.lastModified_get _ _ (h.headers "Last-Modified" rfl rfl rfl)

theorem written_get (h : sameName requiredRole n = false) :
    Headers.get (cached.headers.filter (·.1 != requiredRole)) n = cached.headers.get n := by
  simp only [Headers.get, List.filter_filter]
  congr 1
  refine List.filter_congr fun f _ => ?_
  by_cases hf : f.1 = requiredRole
  · rw [hf, h]
    rfl
  · simp [hf]

/-- Written to a response without headers of its own, the cached ones are those of the
application. -/
theorem writeCachedHeaders_get (hs : StoredFrom a cached) (hp : Plain a) (hk : Kept n)
    (h : a.headers.get n = [] → response.headers.get n = []) :
    (writeCachedHeaders response cached).headers.get n = a.headers.get n := by
  rw [writeCachedHeaders, setHeaders_get hk.contentType hk.contentLength, written_get hk.role,
    hs.headers n hk.cookie hk.cacheControl hk.expires]
  have hsingle := hp.single n
  cases hget : a.headers.get n with
  | nil => exact h hget
  | cons value rest =>
    rw [hget, List.length_cons] at hsingle
    have hrest : rest = [] := List.length_eq_zero_iff.mp (by omega)
    rw [hrest]
    rfl

theorem writeCachedHeaders_contentType (hs : StoredFrom a cached)
    (h : response.contentType = a.contentType) :
    (writeCachedHeaders response cached).contentType = a.contentType := by
  refine setHeaders_contentType _ (fun value hv => a.listed_type value ?_) h
  rw [written_get rfl, hs.headers "Content-Type" rfl rfl rfl] at hv
  exact hv

theorem writeCachedHeaders_contentLength (hs : StoredFrom a cached) (hp : Plain a) :
    (writeCachedHeaders response cached).contentLength = response.contentLength := by
  refine setHeaders_contentLength _ ?_
  rw [written_get rfl, hs.headers "Content-Length" rfl rfl rfl]
  exact hp.length

/-! ## Unconditional answers -/

theorem sentBody_cases (hs : StoredFrom a cached) :
    (sentBody lib rq cached).1 = a.body ∨
      (acceptsGzipEncoding rq = true ∧ (sentBody lib rq cached).1 = lib.gzip a.body) ∨
      (lib.shouldBodyBeZero a.status = true ∧ (sentBody lib rq cached).1 = []) := by
  unfold sentBody
  rw [hs.status, hs.data, lib.gzipped_not_empty]
  split
  · rename_i hzero
    exact .inr (.inr ⟨hzero, rfl⟩)
  · split
    · rename_i hgzip
      exact .inr (.inl ⟨hgzip, rfl⟩)
    · exact .inl rfl

/-- The response before headers are written to it: they are not touched, up to the encoding. -/
theorem encoded_get (hk : Kept n) (gzipped : Bool) :
    (if gzipped then response.setHeader "Content-Encoding" "gzip" else response).headers.get n =
      response.headers.get n := by
  split
  · exact setHeader_get hk.contentEncoding
  · rfl

theorem writeResponse_faithful (hs : StoredFrom a cached) (hh : SameHeaders a response)
    (hits : cached.hits = 0) : Faithful lib rq a (writeResponse lib rq response cached) := by
  have hnone : ¬ 0 < cached.hits := by omega
  refine ⟨?_, ?_, sentBody_cases hs, ?_, fun n hk => ?_⟩
  · simp only [writeResponse, if_neg hnone]
    exact hs.status
  · simp only [writeResponse, if_neg hnone]
    exact hs.contentType
  · simp only [writeResponse, if_neg hnone]
  · simp only [writeResponse, if_neg hnone]
    rw [encoded_get hk, hh n hk]

theorem writeResponse_replayed (hs : StoredFrom a cached) (hp : Plain a)
    (hits : 0 < cached.hits) : Faithful lib rq a (writeResponse lib rq {} cached) := by
  refine ⟨?_, ?_, sentBody_cases hs, ?_, fun n hk => ?_⟩
  · simp only [writeResponse, if_pos hits]
    rw [writeCachedHeaders, setHeaders_status]
    exact hs.status
  · simp only [writeResponse, if_pos hits]
    exact writeCachedHeaders_contentType hs hs.contentType
  · simp only [writeResponse, if_pos hits]
    exact writeCachedHeaders_contentLength hs hp
  · simp only [writeResponse, if_pos hits]
    refine writeCachedHeaders_get hs hp hk fun _ => ?_
    exact encoded_get hk _

/-! ## Conditional answers -/

theorem modifiedSince_some {since : String} (h : modifiedSince lib rq cached = some since) :
    rq.ifModifiedSince = some since ∧ 0 < lib.getLastModified cached.headers := by
  unfold modifiedSince at h
  split at h
  · rename_i hpos
    exact ⟨Option.eq_some_of_filter_eq_some h, hpos⟩
  · cases h

theorem conditional_answered {since : String} (hs : StoredFrom a cached) (hp : Plain a)
    (hsince : modifiedSince lib rq cached = some since) (hstatus : response.status = a.status)
    (hbody : response.body = [])
    (hh : ∀ n, Kept n → a.headers.get n = [] → response.headers.get n = []) :
    let r := writeCachedHeaders
      (handleModifiedHeaders lib since response cached (lib.getLastModified cached.headers)) cached
    Faithful lib rq a r ∨ Unchanged lib rq a r := by
  obtain ⟨hheader, hpos⟩ := modifiedSince_some hsince
  cases hmod : notModified lib since (lib.getLastModified cached.headers) with
  | true =>
    simp only [handleModifiedHeaders, hmod, if_true]
    refine .inr ⟨?_, setHeaders_status _, (setHeaders_body _).trans hbody, fun n hk => ?_⟩
    · unfold notModified at hmod
      split at hmod
      · cases hmod
      · rename_i date hdate
        rw [hs.lastModified] at hmod
        exact ⟨since, date, hheader, hdate, of_decide_eq_true hmod⟩
    · exact writeCachedHeaders_get hs hp hk (hh n hk)
  | false =>
    simp only [handleModifiedHeaders, hmod, Bool.false_eq_true, if_false]
    refine .inl ⟨?_, ?_, ?_, ?_, fun n hk => ?_⟩
    · exact (setHeaders_status _).trans (setHeader_status.trans hstatus)
    · exact writeCachedHeaders_contentType hs hs.contentType
    · exact .inl ((setHeaders_body _).trans hs.data)
    · rw [writeCachedHeaders_contentLength hs hp, writeCachedHeaders, setHeaders_body]
    · refine writeCachedHeaders_get hs hp hk fun hnone => ?_
      have hlast : sameName "Last-Modified" n = false := by
        rw [Bool.eq_false_iff]
        intro hsame
        rw [hs.lastModified, lib.lastModified_none _ ((get_congr hsame).trans hnone)] at hpos
        cases hpos
      exact (setHeader_get hlast).trans (hh n hk hnone)

/-! ## Misses and hits -/

theorem setCaching_response {ttl : Int} :
    (setCaching ttl (captured a)).status = a.status ∧
      (setCaching ttl (captured a)).body = [] ∧ SameHeaders a (setCaching ttl (captured a)) := by
  refine ⟨?_, ?_, fun n hk => ?_⟩
  · unfold setCaching
    split <;> simp [captured]
  · unfold setCaching
    split <;> simp [captured]
  · exact setCaching_get hk.cacheControl hk.expires

theorem miss_faithful (h4xx : is4xx a.status = false) (hrq : rq.ifModifiedSince = none)
    (h : missAnswer lib site rq a = some r) : Faithful lib rq a r := by
  obtain ⟨stored, hstored, rfl⟩ := Option.map_eq_some_iff.mp h
  have hs : StoredFrom a stored := storedFrom hstored stored.hits
  have hcond : modifiedSince lib rq stored = none := by
    unfold modifiedSince
    rw [hrq]
    split <;> rfl
  unfold deliver
  rw [hs.status, h4xx, hcond]
  exact writeResponse_faithful hs setCaching_response.2.2 (performRequest_id hstored).2.2.2.2

theorem deliver_answered (hs : StoredFrom a cached) (hp : Plain a) (h4xx : is4xx a.status = false)
    (hstatus : response.status = a.status) (hbody : response.body = [])
    (hh : ∀ n, Kept n → a.headers.get n = [] → response.headers.get n = [])
    (hwrite : Faithful lib rq a (writeResponse lib rq response cached)) :
    Faithful lib rq a (deliver lib rq response cached) ∨
      Unchanged lib rq a (deliver lib rq response cached) := by
  unfold deliver
  rw [hs.status, h4xx]
  cases hcond : modifiedSince lib rq cached with
  | none => exact .inl hwrite
  | some since => exact conditional_answered hs hp hcond hstatus hbody hh

theorem answered_of_miss (h4xx : is4xx a.status = false) (hp : Plain a)
    (h : missAnswer lib site rq a = some r) : Faithful lib rq a r ∨ Unchanged lib rq a r := by
  obtain ⟨stored, hstored, rfl⟩ := Option.map_eq_some_iff.mp h
  have hs : StoredFrom a stored := storedFrom hstored stored.hits
  obtain ⟨hstatus, hbody, hh⟩ := setCaching_response (a := a)
  exact deliver_answered hs hp h4xx hstatus hbody (fun n hk hnone => (hh n hk).trans hnone)
    (writeResponse_faithful hs hh (performRequest_id hstored).2.2.2.2)

theorem answered_of_hit {hits : Nat} (hp : Plain a)
    (hstored : (performRequest lib site rq a).2 = some stored) (hok : stored.isOk = true)
    {rq' : Request} (hgranted : isDenied { stored with hits } rq' = false) :
    Faithful lib rq' a (hitAnswer lib rq' { stored with hits }) ∨
      Unchanged lib rq' a (hitAnswer lib rq' { stored with hits }) := by
  have hs : StoredFrom a { stored with hits := hits + 1 } := storedFrom hstored (hits + 1)
  have hstatus : a.status = 200 := by
    have hstatus := (Bool.and_eq_true _ _ ▸ hok).1
    rw [(performRequest_id hstored).2.1] at hstatus
    exact beq_iff_eq.mp hstatus
  have hhit : hitResponse { stored with hits } rq' = { stored with hits := hits + 1 } := by
    unfold hitResponse
    rw [hgranted]
    rfl
  unfold hitAnswer
  rw [hhit]
  exact deliver_answered hs hp (by rw [hstatus]; rfl) hstatus.symm rfl (fun _ _ _ => rfl)
    (writeResponse_replayed hs hp (Nat.succ_pos hits))

/-- The entry under the key is the response that the application gave to a request with that
key. -/
def FilledBy (lib : Library) (site : SiteCache) (es : Log) (key : String) (cached : CachedResponse)
    (a : AppResponse) : Prop :=
  ∃ rq r stored hits, (Event.respond rq a, r) ∈ es ∧ calculateKey rq = key ∧
    (performRequest lib site rq a).2 = some stored ∧ stored.isOk = true ∧
    cached = { stored with hits }

/-- The response is for sessions with some roles, and the session has none of them. -/
def Refused (rq : Request) (a : AppResponse) : Prop :=
  requiredRoles a ≠ [] ∧ ¬ HoldsRole rq (requiredRoles a)

theorem Origin.filledBy {es : Log} {key : String} (h : Origin lib site es key cached) :
    ∃ a, FilledBy lib site es key cached a := by
  obtain ⟨rq, a, r, stored, hits, hmem, hkey, -, hstored, hok, hcached⟩ := h
  exact ⟨a, rq, r, stored, hits, hmem, hkey, hstored, hok, hcached⟩

theorem denied_of_not_held (hrequired : cached.headers.get requiredRole ≠ [])
    (hheld : ¬ HoldsRole rq (cached.headers.get requiredRole)) : isDenied cached rq = true := by
  cases hdenied : isDenied cached rq with
  | true => rfl
  | false => exact absurd (holdsRole_of_granted hdenied hrequired) hheld

theorem granted_of_ok (hstatus : is4xx cached.status = false)
    (hheld : cached.headers.get requiredRole = [] ∨
      HoldsRole rq (cached.headers.get requiredRole)) : isDenied cached rq = false := by
  rcases hheld with hnone | ⟨roles, hroles, role, hrole, hmem⟩
  · unfold isDenied
    rw [hnone]
    rfl
  · have hany : (cached.headers.get requiredRole).any roles.contains = true :=
      List.any_eq_true.mpr ⟨role, hrole, List.contains_iff_mem.mpr hmem⟩
    unfold isDenied hitStatus
    simp only [hroles, hany, if_true, ite_self, hstatus, Bool.and_false]

theorem is4xx_of_ok (h : cached.isOk = true) : is4xx cached.status = false := by
  have hstatus : cached.status = 200 := beq_iff_eq.mp (Bool.and_eq_true _ _ ▸ h).1
  rw [hstatus]
  rfl

/-- A hit is answered with a status only if a role is missing, and else as the response was that
made the entry. -/
theorem hitAnswer_answered {es : Log} (h : FilledBy lib site es (calculateKey rq) cached a) :
    (Refused rq a → is4xx (hitAnswer lib rq cached).status = true ∧
      (hitAnswer lib rq cached).body = []) ∧
    (¬ Refused rq a → Plain a → Faithful lib rq a (hitAnswer lib rq cached) ∨
      Unchanged lib rq a (hitAnswer lib rq cached)) := by
  obtain ⟨rq₀, r₀, stored, hits, -, -, hstored, hok, rfl⟩ := h
  have hroles : stored.headers.get requiredRole = requiredRoles a :=
    performRequest_get hstored rfl rfl rfl
  refine ⟨fun hrefused => ?_, fun hnot hp => ?_⟩
  · have hdenied : isDenied { stored with hits } rq = true := by
      refine denied_of_not_held ?_ ?_
      · simpa [hroles] using hrefused.1
      · simpa [hroles] using hrefused.2
    rw [hitAnswer_denied hdenied]
    exact ⟨(Bool.and_eq_true _ _ ▸ hdenied).2, rfl⟩
  · refine answered_of_hit hp hstored hok (granted_of_ok (is4xx_of_ok hok) ?_)
    rw [Refused, not_and_or, not_not, not_not] at hnot
    simpa [hroles] using hnot

/-- A hit of a run meets an entry that some response of the application made, and is answered
according to each response that could have made it. -/
theorem hits_answered {es : Log} {s t : State} {answer : Option Response}
    (h : Runs lib site es s) (hstep : step lib site s (.hit rq) = some (t, answer)) :
    ∃ cached r, s.cache (calculateKey rq) = some cached ∧ answer = some r ∧
      (∃ a, FilledBy lib site es (calculateKey rq) cached a) ∧
      ∀ a, FilledBy lib site es (calculateKey rq) cached a →
        (Refused rq a → is4xx r.status = true ∧ r.body = []) ∧
          (¬ Refused rq a → Plain a → Faithful lib rq a r ∨ Unchanged lib rq a r) := by
  rcases step_cases hstep with ⟨_, _, he, _⟩ | ⟨_, he, _⟩ | ⟨_, _, he, _⟩ |
    ⟨rq', cached, he, hcached, _, _, _, hr⟩ | ⟨_, he, _⟩ | ⟨_, _, he, _⟩
  all_goals cases he
  exact ⟨cached, hitAnswer lib rq cached, hcached, hr,
    ((traced_of_runs h).cached _ cached hcached).filledBy, fun a ha => hitAnswer_answered ha⟩

def datedPage : AppResponse where
  status := 200
  contentType := some "text/html"
  contentLength := none
  headers := [("Last-Modified", "today")]
  body := [1, 2, 3]
  listed_type := by decide

theorem get_token : '/' ∉ "GET".toList ∧ '?' ∉ "GET".toList := by decide

def conditionalRequest : Request :=
  { sampleRequest "GET" get_token none with ifModifiedSince := some "today" }

end Cache
end AppNG
