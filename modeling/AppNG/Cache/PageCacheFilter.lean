import AppNG.Lib.JavaString

/-!
# Cache.PageCacheFilter

`PageCacheFilter`: which requests go through the cache of a site, what is stored, and what the
client is sent, on a miss and on a hit.

Spring, the wrapper that captures a response, the date format and gzip stand outside
(`Library`). The wrapper hands status, content type and headers on to the response of the
container and keeps the body back.
-/

namespace AppNG
namespace Cache

abbrev Bytes := List UInt8

/-- The fields of a header in order. Names are compared ignoring case. -/
abbrev Headers := List (String × String)

def sameName (m n : String) : Bool := Java.toLowerCase m == Java.toLowerCase n

def Headers.get (headers : Headers) (name : String) : List String :=
  (headers.filter fun f => sameName f.1 name).map (·.2)

def Headers.set (headers : Headers) (name value : String) : Headers :=
  headers.filter (fun f => !sameName f.1 name) ++ [(name, value)]

structure Response where
  status : Nat := 200
  contentType : Option String := none
  contentLength : Option Nat := none
  headers : Headers := []
  body : Bytes := []
  deriving DecidableEq, Repr

/-- `setHeader`. Type and length of the content have a place of their own. -/
def Response.setHeader (response : Response) (name value : String) : Response :=
  if sameName name "Content-Type" then { response with contentType := some value }
  else if sameName name "Content-Length" then
    match value.toNat? with
    | some n => { response with contentLength := some n }
    | none => { response with headers := response.headers.set name value }
  else { response with headers := response.headers.set name value }

/-- A request as the container parses it: the method is a token, and a servlet path that is not
empty starts with a slash. -/
structure Request where
  method : String
  servletPath : String
  queryString : Option String
  ifModifiedSince : Option String
  acceptEncoding : Option String
  roles : Option (List String)
  method_token : '/' ∉ method.toList ∧ '?' ∉ method.toList
  servletPath_slash : servletPath = "" ∨ servletPath.toList.head? = some '/'
  deriving DecidableEq, Repr

/-- What the application produces. A content type among the headers is the content type. -/
structure AppResponse where
  status : Nat
  contentType : Option String
  contentLength : Option Nat
  headers : Headers
  body : Bytes
  listed_type : ∀ value ∈ headers.get "Content-Type", contentType = some value

structure CachedResponse where
  id : String
  status : Nat
  contentType : Option String
  data : Bytes
  headers : Headers
  hits : Nat := 0
  deriving DecidableEq, Repr

/-- What the filter calls, as far as it is not in the repository. -/
structure Library where
  knownStatus : Nat → Bool
  gzip : Bytes → Bytes
  shouldBodyBeZero : Nat → Bool
  shouldGzippedBodyBeZero : Bytes → Bool
  /-- `HttpHeaders.getLastModified`, -1 without a date. -/
  getLastModified : Headers → Int
  parseDate : String → Option Int
  formatDate : Int → String
  isPattern : List Char → Bool
  pathMatches : List Char → String → Bool
  /-- No content and not modified have no body. -/
  body_zero : ∀ status, shouldBodyBeZero status = (status == 204 || status == 304)
  /-- Compressed data is never empty. -/
  gzipped_not_empty : shouldGzippedBodyBeZero [] = false
  /-- The date is that of the header. -/
  lastModified_get : ∀ h h' : Headers, h.get "Last-Modified" = h'.get "Last-Modified" →
    getLastModified h = getLastModified h'
  lastModified_none : ∀ h : Headers, h.get "Last-Modified" = [] → getLastModified h = -1

structure SiteCache where
  cacheEnabled : Bool
  cacheExceptions : Option String
  cacheHitStats : Bool
  clientTtl : String → Int

def requiredRole : String := "x-appng-required-role"

/-! ## Requests -/

def isCacheableRequest (rq : Request) : Bool :=
  Java.toUpperCase rq.method == ['G', 'E', 'T'] ||
    Java.toUpperCase rq.method == ['H', 'E', 'A', 'D']

def isException (lib : Library) (exceptionsProp : Option String) (servletPath : String) : Bool :=
  match exceptionsProp with
  | none => false
  | some rules => (Java.split '\n' rules).any fun e =>
      let rule := Java.trim e
      if lib.isPattern rule then lib.pathMatches rule servletPath
      else rule.isPrefixOf servletPath.toList

/-- `doFilter` handles the request with the cache. -/
def usesCache (lib : Library) (site : SiteCache) (rq : Request) : Bool :=
  isCacheableRequest rq && site.cacheEnabled &&
    !isException lib site.cacheExceptions rq.servletPath

def querySuffix (rq : Request) : String :=
  match rq.queryString with
  | none => ""
  | some query => if Java.isBlank (some query) then "" else "?" ++ query

def calculateKey (rq : Request) : String := rq.method ++ rq.servletPath ++ querySuffix rq

def acceptsGzipEncoding (rq : Request) : Bool := Java.containsIgnoreCase rq.acceptEncoding "gzip"

/-! ## Storing -/

def is4xx (status : Nat) : Bool := 400 ≤ status && status < 500

def CachedResponse.isOk (cached : CachedResponse) : Bool :=
  cached.status == 200 && !cached.data.isEmpty

def captured (a : AppResponse) : Response where
  status := a.status
  contentType := a.contentType
  contentLength := a.contentLength
  headers := a.headers

def setCaching (ttl : Int) (response : Response) : Response :=
  if ttl ≤ 0 then
    (response.setHeader "Cache-Control" "no-cache,no-store,max-age=0").setHeader "Expires"
      "Thu, 01 Jan 1970 00:00:00 GMT"
  else response.setHeader "Cache-Control" ("max-age=" ++ toString ttl)

def cacheableHeaders (response : Response) : Headers :=
  response.headers.filter fun f => !"Set-Cookie".toList.isPrefixOf f.1.toList

/-- `performRequest`: the response of the container and what is made of it. `none` stands for the
exception that an unknown status raises. -/
def performRequest (lib : Library) (site : SiteCache) (rq : Request) (a : AppResponse) :
    Response × Option CachedResponse :=
  let response := setCaching (site.clientTtl rq.servletPath) (captured a)
  (response,
    if lib.knownStatus a.status then
      some { id := calculateKey rq, status := a.status, contentType := a.contentType
             data := a.body, headers := cacheableHeaders response }
    else none)

/-! ## Hits -/

def hitStatus (cached : CachedResponse) (rq : Request) : Nat :=
  let requiredRoles := cached.headers.get requiredRole
  if requiredRoles.isEmpty then cached.status
  else
    match rq.roles with
    | none => 401
    | some roles => if requiredRoles.any roles.contains then cached.status else 403

def isDenied (cached : CachedResponse) (rq : Request) : Bool :=
  !(cached.headers.get requiredRole).isEmpty && is4xx (hitStatus cached rq)

/-- `getCachedResponse` for an entry of the cache. -/
def hitResponse (cached : CachedResponse) (rq : Request) : CachedResponse :=
  if isDenied cached rq then
    { id := cached.id, status := hitStatus cached rq, contentType := none, data := [], headers := [] }
  else { cached with hits := cached.hits + 1 }

/-! ## Writing -/

def setHeaders (fields : Headers) (response : Response) : Response :=
  fields.foldl (fun r f => r.setHeader f.1 f.2) response

def writeCachedHeaders (response : Response) (cached : CachedResponse) : Response :=
  setHeaders (cached.headers.filter (·.1 != requiredRole)) response

/-- The body that `writeResponse` sends, and whether it is compressed. -/
def sentBody (lib : Library) (rq : Request) (cached : CachedResponse) : Bytes × Bool :=
  if lib.shouldBodyBeZero cached.status then ([], false)
  else if acceptsGzipEncoding rq then
    if lib.shouldGzippedBodyBeZero [] then ([], false) else (lib.gzip cached.data, true)
  else (cached.data, false)

def writeResponse (lib : Library) (rq : Request) (response : Response) (cached : CachedResponse) :
    Response :=
  let sent := sentBody lib rq cached
  let response := if sent.2 then response.setHeader "Content-Encoding" "gzip" else response
  let response := { response with
    status := cached.status
    contentLength := some sent.1.length
    contentType := cached.contentType }
  let response := if 0 < cached.hits then writeCachedHeaders response cached else response
  { response with body := sent.1 }

/-- The client has the resource as it is. A date that cannot be parsed does not count. -/
def notModified (lib : Library) (ifModifiedSinceHeader : String) (lastModified : Int) : Bool :=
  match lib.parseDate ifModifiedSinceHeader with
  | none => false
  | some ifModifiedSince => lastModified ≤ ifModifiedSince

/-- `HttpHeaderUtils.handleModifiedHeaders`, for a resource that is up to date. -/
def handleModifiedHeaders (lib : Library) (ifModifiedSinceHeader : String) (response : Response)
    (cached : CachedResponse) (lastModified : Int) : Response :=
  if notModified lib ifModifiedSinceHeader lastModified then { response with status := 304 }
  else
    { response.setHeader "Last-Modified" (lib.formatDate lastModified) with
      contentType := cached.contentType
      contentLength := some cached.data.length
      body := cached.data }

def modifiedSince (lib : Library) (rq : Request) (cached : CachedResponse) : Option String :=
  if 0 < lib.getLastModified cached.headers then
    rq.ifModifiedSince.filter fun since => !Java.isBlank (some since)
  else none

/-- `handleCaching` after `getCachedResponse`. -/
def deliver (lib : Library) (rq : Request) (response : Response) (cached : CachedResponse) :
    Response :=
  if is4xx cached.status then { response with status := cached.status }
  else
    match modifiedSince lib rq cached with
    | some since =>
      let lastModified := lib.getLastModified cached.headers
      writeCachedHeaders (handleModifiedHeaders lib since response cached lastModified) cached
    | none => writeResponse lib rq response cached

def missAnswer (lib : Library) (site : SiteCache) (rq : Request) (a : AppResponse) :
    Option Response :=
  (performRequest lib site rq a).2.map (deliver lib rq (performRequest lib site rq a).1)

def hitAnswer (lib : Library) (rq : Request) (cached : CachedResponse) : Response :=
  deliver lib rq {} (hitResponse cached rq)

/-! ## Names and headers -/

variable {lib : Library} {site : SiteCache}

theorem sameName_iff {m n : String} :
    sameName m n = true ↔ Java.toLowerCase m = Java.toLowerCase n := beq_iff_eq

theorem get_set {headers : Headers} {m n value : String} :
    (headers.set m value).get n = if sameName m n then [value] else headers.get n := by
  simp only [Headers.get, Headers.set, List.filter_append, List.map_append, List.filter_filter]
  by_cases h : sameName m n = true
  · have hnone : headers.filter (fun f => sameName f.1 n && !sameName f.1 m) = [] := by
      refine List.filter_eq_nil_iff.mpr fun f _ => ?_
      have heq : sameName f.1 n = sameName f.1 m := by
        rw [Bool.eq_iff_iff, sameName_iff, sameName_iff, sameName_iff.mp h]
      simp [heq]
    simp [h, hnone]
  · have hsame : headers.filter (fun f => sameName f.1 n && !sameName f.1 m) =
        headers.filter fun f => sameName f.1 n := by
      refine List.filter_congr fun f _ => ?_
      by_cases hf : sameName f.1 n = true
      · have hfm : ¬ sameName f.1 m = true := by
          rw [sameName_iff] at h hf ⊢
          intro hm
          exact h (hm.symm.trans hf)
        simp [hf, hfm]
      · simp [hf]
    simp [h, hsame]

/-- A header is set as the content type, as the content length or among the others. -/
theorem setHeader_cases (response : Response) (m value : String) :
    (sameName m "Content-Type" = true ∧
      response.setHeader m value = { response with contentType := some value }) ∨
    (sameName m "Content-Type" = false ∧ sameName m "Content-Length" = true ∧
      ∃ n, response.setHeader m value = { response with contentLength := some n }) ∨
    (sameName m "Content-Type" = false ∧
      response.setHeader m value =
        { response with headers := response.headers.set m value }) := by
  unfold Response.setHeader
  split
  · rename_i htype
    exact .inl ⟨htype, rfl⟩
  · rename_i htype
    have htype : sameName m "Content-Type" = false := Bool.not_eq_true _ ▸ htype
    split
    · rename_i hlength
      split
      · rename_i n _
        exact .inr (.inl ⟨htype, hlength, n, rfl⟩)
      · exact .inr (.inr ⟨htype, rfl⟩)
    · exact .inr (.inr ⟨htype, rfl⟩)

@[simp] theorem setHeader_status {response : Response} {m value : String} :
    (response.setHeader m value).status = response.status := by
  obtain ⟨-, h⟩ | ⟨-, -, n, h⟩ | ⟨-, h⟩ := setHeader_cases response m value <;> rw [h]

@[simp] theorem setHeader_body {response : Response} {m value : String} :
    (response.setHeader m value).body = response.body := by
  obtain ⟨-, h⟩ | ⟨-, -, n, h⟩ | ⟨-, h⟩ := setHeader_cases response m value <;> rw [h]

theorem setHeader_contentType {response : Response} {m value : String} :
    (response.setHeader m value).contentType =
      if sameName m "Content-Type" then some value else response.contentType := by
  obtain ⟨htype, h⟩ | ⟨htype, -, n, h⟩ | ⟨htype, h⟩ := setHeader_cases response m value <;>
    rw [h, htype] <;> rfl

theorem setHeader_contentLength {response : Response} {m value : String}
    (hlength : sameName m "Content-Length" = false) :
    (response.setHeader m value).contentLength = response.contentLength := by
  obtain ⟨-, h⟩ | ⟨-, hsame, -⟩ | ⟨-, h⟩ := setHeader_cases response m value
  · rw [h]
  · rw [hlength] at hsame
    cases hsame
  · rw [h]

theorem setHeader_get {response : Response} {m n value : String} (hne : sameName m n = false) :
    (response.setHeader m value).headers.get n = response.headers.get n := by
  obtain ⟨-, h⟩ | ⟨-, -, l, h⟩ | ⟨-, h⟩ := setHeader_cases response m value
  · rw [h]
  · rw [h]
  · rw [h, get_set, hne]
    rfl

theorem setCaching_get {ttl : Int} {response : Response} {n : String}
    (hc : sameName "Cache-Control" n = false) (he : sameName "Expires" n = false) :
    (setCaching ttl response).headers.get n = response.headers.get n := by
  unfold setCaching
  split
  · rw [setHeader_get he, setHeader_get hc]
  · rw [setHeader_get hc]

def NoCookie (n : String) : Prop :=
  (Java.toLowerCase "Set-Cookie").isPrefixOf (Java.toLowerCase n) = false

theorem cacheableHeaders_get {response : Response} {n : String} (h : NoCookie n) :
    (cacheableHeaders response).get n = response.headers.get n := by
  simp only [cacheableHeaders, Headers.get, List.filter_filter]
  congr 1
  refine List.filter_congr fun f _ => ?_
  by_cases hf : sameName f.1 n = true
  · have hcookie : ("Set-Cookie".toList.isPrefixOf f.1.toList) = false := by
      rw [Bool.eq_false_iff]
      intro hp
      obtain ⟨rest, hrest⟩ := List.isPrefixOf_iff_prefix.mp hp
      rw [NoCookie, ← sameName_iff.mp hf, Bool.eq_false_iff] at h
      refine h (List.isPrefixOf_iff_prefix.mpr ⟨rest.map Char.toLower, ?_⟩)
      rw [Java.toLowerCase, Java.toLowerCase, ← hrest, List.map_append]
    rw [hf, hcookie]
    rfl
  · simp [hf]

theorem performRequest_get {rq : Request} {a : AppResponse} {cached : CachedResponse} {n : String}
    (h : (performRequest lib site rq a).2 = some cached) (hcookie : NoCookie n)
    (hc : sameName "Cache-Control" n = false) (he : sameName "Expires" n = false) :
    cached.headers.get n = a.headers.get n := by
  simp only [performRequest] at h
  split at h
  · cases h
    rw [cacheableHeaders_get hcookie, setCaching_get hc he]
    rfl
  · cases h

end Cache
end AppNG
