import AppNG.Cache.PageCacheFilter

/-!
# Http.ModifiedHeaders

The conditional requests of `HttpHeaderUtils`: `handleModifiedHeaders` for a servlet response, and
the overload for the headers of a `ResponseEntity`.

Instants are milliseconds. A header shows seconds only, so what a client sends back is the
`toSecond` of a last-modified time.

* `servlet_notModified_iff`: the servlet response is a 304 if and only if the last-modified time, with
  its milliseconds, is not after the date of the header.
* `servlet_notModified_filter`: this is the decision that `Cache.PageCacheFilter` has.
* `spring_notModified_iff`: the other overload wants it before that date.
* `handlesModified_iff`: both answer as they should and alike if and only if both dates lie on the
  right side of the last-modified time.
-/

namespace AppNG
namespace Http

abbrev Bytes := List UInt8

/-- A resource after `update`. -/
structure HttpResource where
  /-- what `update` returned -/
  lastModified : Int
  needsUpdate : Bool
  contentType : String
  data : Bytes

/-- The readers of a date. `getIfModifiedSince` returns -1 where the second one finds none. -/
structure HttpDates where
  /-- `FastDateFormat.parse` -/
  parse : String → Option Int
  /-- the date of `HttpHeaders` -/
  getFirstDate : String → Option Int

/-- The instant that a header with this time shows. -/
def toSecond (ms : Int) : Int := ms / 1000 * 1000

structure Response where
  notModified : Bool := false
  lastModified : Option Int := none
  contentType : Option String := none
  contentLength : Option Nat := none
  /-- what was written to the output stream -/
  written : Bytes := []

/-! ## The two overloads -/

variable (dates : HttpDates) (header : Option String) (resource : HttpResource) (output : Bool)

/-- The date of a header that is not blank. A `ParseException` is caught. -/
def ifModifiedSince : Option Int :=
  if Java.isBlank header then none else header.bind dates.parse

/-- The overload for a servlet response: the array it returns, and the response. -/
def handleModifiedHeadersServlet : Bytes × Response :=
  let hasModifiedSince := (ifModifiedSince dates header).isSome
  let isModifiedAfter := (ifModifiedSince dates header).any (· < resource.lastModified)
  let result :=
    if resource.needsUpdate || isModifiedAfter || !hasModifiedSince then resource.data else []
  if hasModifiedSince && !isModifiedAfter then (result, { notModified := true })
  else if output then
    (result, {
      lastModified := some (toSecond resource.lastModified)
      contentType := some resource.contentType
      contentLength := some result.length
      written := result })
  else (result, { lastModified := some (toSecond resource.lastModified) })

def getIfModifiedSince : Int := (header.bind dates.getFirstDate).getD (-1)

/-- The overload for the headers of Spring. -/
def handleModifiedHeadersSpring : Bytes × Response :=
  if 0 < getIfModifiedSince dates header then
    if resource.lastModified < getIfModifiedSince dates header then ([], { notModified := true })
    else ([], {})
  else
    (resource.data, {
      lastModified := some (toSecond resource.lastModified)
      contentType := some resource.contentType
      contentLength := some resource.data.length })

/-- Without `output` the caller sends what is returned. -/
def servletBody : Bytes :=
  let answer := handleModifiedHeadersServlet dates header resource output
  if output then answer.2.written else answer.1

/-! ## What they should do -/

/-- A 304 without a body, or the complete data with the last-modified time. -/
def Answered (body : Bytes) (response : Response) : Prop :=
  response.notModified = true ∧ body = [] ∨
    response.notModified = false ∧ body = resource.data ∧
      response.lastModified = some (toSecond resource.lastModified)

/-- A 304 says that the resource, as the header shows it, has not changed after the date. -/
def Decided (since : Option Int) (response : Response) : Prop :=
  response.notModified = true ↔ ∃ t, since = some t ∧ toSecond resource.lastModified ≤ t

structure HandlesModified : Prop where
  servlet_answered : Answered resource (servletBody dates header resource output)
    (handleModifiedHeadersServlet dates header resource output).2
  servlet_decided : Decided resource (ifModifiedSince dates header)
    (handleModifiedHeadersServlet dates header resource output).2
  spring_answered : Answered resource (handleModifiedHeadersSpring dates header resource).1
    (handleModifiedHeadersSpring dates header resource).2
  spring_decided : Decided resource (header.bind dates.getFirstDate)
    (handleModifiedHeadersSpring dates header resource).2
  same_decision : (handleModifiedHeadersServlet dates header resource output).2.notModified =
    (handleModifiedHeadersSpring dates header resource).2.notModified

/-- Both dates are late enough for a 304, and there is no body to give back with it. -/
def BothCurrent : Prop :=
  (∃ t, ifModifiedSince dates header = some t ∧ resource.lastModified ≤ t) ∧
    (∃ t, header.bind dates.getFirstDate = some t ∧ 0 < t ∧ resource.lastModified < t) ∧
    (output = true ∨ resource.needsUpdate = false ∨ resource.data = [])

/-- A date that there is lies before the second of the last-modified time, and that of Spring is not
after 1970. -/
def BothStale : Prop :=
  (∀ t, ifModifiedSince dates header = some t → t < toSecond resource.lastModified) ∧
    ∀ t, header.bind dates.getFirstDate = some t → t ≤ 0 ∧ t < toSecond resource.lastModified

variable {dates header resource output}

/-! ## The decisions -/

theorem toSecond_le (ms : Int) : toSecond ms ≤ ms := by
  unfold toSecond
  omega

theorem servlet_notModified_iff :
    (handleModifiedHeadersServlet dates header resource output).2.notModified = true ↔
      ∃ t, ifModifiedSince dates header = some t ∧ resource.lastModified ≤ t := by
  unfold handleModifiedHeadersServlet
  cases hsince : ifModifiedSince dates header with
  | none => cases output <;> simp
  | some t =>
    by_cases hle : resource.lastModified ≤ t
    · simp [hle]
    · cases output <;> simp [hle]

/-- `PageCacheFilter` asks with a header that is not blank, for a resource that is up to date. -/
theorem servlet_notModified_filter {lib : Cache.Library} {since : String}
    (h : Java.isBlank (some since) = false) (hparse : dates.parse = lib.parseDate) :
    (handleModifiedHeadersServlet dates (some since) resource output).2.notModified =
      Cache.notModified lib since resource.lastModified := by
  have hsince : ifModifiedSince dates (some since) = lib.parseDate since := by
    simp [ifModifiedSince, h, hparse]
  rw [Bool.eq_iff_iff, servlet_notModified_iff, hsince, Cache.notModified]
  cases lib.parseDate since with
  | none => simp
  | some t => simp

theorem spring_notModified_iff :
    (handleModifiedHeadersSpring dates header resource).2.notModified = true ↔
      ∃ t, header.bind dates.getFirstDate = some t ∧ 0 < t ∧ resource.lastModified < t := by
  unfold handleModifiedHeadersSpring getIfModifiedSince
  cases header.bind dates.getFirstDate with
  | none => simp
  | some t =>
    by_cases hpos : 0 < t
    · by_cases hlt : resource.lastModified < t
      · simp [hpos, hlt]
      · simp [hpos, hlt]
    · simp [hpos]

theorem servlet_answered_iff :
    Answered resource (servletBody dates header resource output)
        (handleModifiedHeadersServlet dates header resource output).2 ↔
      ∀ t, ifModifiedSince dates header = some t → resource.lastModified ≤ t →
        output = true ∨ resource.needsUpdate = false ∨ resource.data = [] := by
  unfold Answered servletBody handleModifiedHeadersServlet
  cases hsince : ifModifiedSince dates header with
  | none => cases output <;> simp
  | some t =>
    by_cases hle : resource.lastModified ≤ t
    · cases output with
      | true => simp [hle]
      | false => cases resource.needsUpdate <;> simp [hle, Int.not_lt.mpr hle]
    · cases output <;> simp [hle]

theorem spring_answered_iff :
    Answered resource (handleModifiedHeadersSpring dates header resource).1
        (handleModifiedHeadersSpring dates header resource).2 ↔
      ∀ t, header.bind dates.getFirstDate = some t → 0 < t → resource.lastModified < t := by
  unfold Answered handleModifiedHeadersSpring getIfModifiedSince
  cases header.bind dates.getFirstDate with
  | none => simp
  | some t =>
    by_cases hpos : 0 < t
    · by_cases hlt : resource.lastModified < t
      · simp [hpos, hlt]
      · simp [hpos, hlt]
    · simp [hpos]

/-- What the servlet response echoes is current for it if and only if no milliseconds were cut off. -/
theorem servlet_echo_iff
    (h : ifModifiedSince dates header = some (toSecond resource.lastModified)) :
    (handleModifiedHeadersServlet dates header resource output).2.notModified = true ↔
      toSecond resource.lastModified = resource.lastModified := by
  have hle : toSecond resource.lastModified ≤ resource.lastModified := toSecond_le _
  rw [servlet_notModified_iff, h]
  constructor
  · rintro ⟨t, ⟨rfl⟩, hcurrent⟩
    omega
  · intro heq
    exact ⟨toSecond resource.lastModified, rfl, by omega⟩

/-! ## The two together -/

theorem handlesModified_of_current (h : BothCurrent dates header resource output) :
    HandlesModified dates header resource output := by
  obtain ⟨⟨t, hsince, hle⟩, ⟨u, hdate, hpos, hlt⟩, hbody⟩ := h
  have hsecond : toSecond resource.lastModified ≤ resource.lastModified := toSecond_le _
  have hservlet : (handleModifiedHeadersServlet dates header resource output).2.notModified = true :=
    servlet_notModified_iff.mpr ⟨t, hsince, hle⟩
  have hspring : (handleModifiedHeadersSpring dates header resource).2.notModified = true :=
    spring_notModified_iff.mpr ⟨u, hdate, hpos, hlt⟩
  refine ⟨servlet_answered_iff.mpr fun _ _ _ => hbody, ?_, spring_answered_iff.mpr ?_, ?_,
    hservlet.trans hspring.symm⟩
  · exact iff_of_true hservlet ⟨t, hsince, by omega⟩
  · intro u' hdate' _
    rw [hdate] at hdate'
    cases hdate'
    exact hlt
  · exact iff_of_true hspring ⟨u, hdate, by omega⟩

theorem handlesModified_of_stale (h : BothStale dates header resource) :
    HandlesModified dates header resource output := by
  obtain ⟨hsince, hdate⟩ := h
  have hsecond : toSecond resource.lastModified ≤ resource.lastModified := toSecond_le _
  have hservlet :
      ¬ (handleModifiedHeadersServlet dates header resource output).2.notModified = true := by
    rw [servlet_notModified_iff]
    rintro ⟨t, ht, hle⟩
    have hlt := hsince t ht
    omega
  have hspring : ¬ (handleModifiedHeadersSpring dates header resource).2.notModified = true := by
    rw [spring_notModified_iff]
    rintro ⟨u, hu, hpos, -⟩
    have hnot := (hdate u hu).1
    omega
  refine ⟨servlet_answered_iff.mpr ?_, iff_of_false hservlet ?_, spring_answered_iff.mpr ?_,
    iff_of_false hspring ?_, ?_⟩
  · intro t ht hle
    have hlt := hsince t ht
    omega
  · rintro ⟨t, ht, hle⟩
    have hlt := hsince t ht
    omega
  · intro u hu hpos
    have hnot := (hdate u hu).1
    omega
  · rintro ⟨u, hu, hle⟩
    have hlt := (hdate u hu).2
    omega
  · rw [Bool.eq_false_iff.mpr hservlet, Bool.eq_false_iff.mpr hspring]

theorem handlesModified_iff (dates : HttpDates) (header : Option String) (resource : HttpResource)
    (output : Bool) :
    HandlesModified dates header resource output ↔
      BothCurrent dates header resource output ∨ BothStale dates header resource := by
  constructor
  · intro h
    by_cases hnotModified :
        (handleModifiedHeadersServlet dates header resource output).2.notModified = true
    · have hcurrent := servlet_notModified_iff.mp hnotModified
      have hdate := spring_notModified_iff.mp (h.same_decision.symm.trans hnotModified)
      obtain ⟨t, ht, hle⟩ := hcurrent
      exact Or.inl ⟨⟨t, ht, hle⟩, hdate, servlet_answered_iff.mp h.servlet_answered t ht hle⟩
    · have hspring : ¬ (handleModifiedHeadersSpring dates header resource).2.notModified = true := by
        rw [← h.same_decision]
        exact hnotModified
      refine Or.inr ⟨fun t ht => ?_, fun u hu => ⟨?_, ?_⟩⟩
      · by_contra hnot
        exact hnotModified (h.servlet_decided.mpr ⟨t, ht, by omega⟩)
      · by_contra hpos
        have hlt := spring_answered_iff.mp h.spring_answered u hu (by omega)
        exact hspring (spring_notModified_iff.mpr ⟨u, hu, by omega, hlt⟩)
      · by_contra hnot
        exact hspring (h.spring_decided.mpr ⟨u, hu, by omega⟩)
  · rintro (hcurrent | hstale)
    · exact handlesModified_of_current hcurrent
    · exact handlesModified_of_stale hstale

section Example

def lastModifiedHeader : String := "Wed, 22 Nov 2023 10:00:00 GMT"

/-- Both read the header that was sent. -/
def httpDates : HttpDates :=
  { parse := fun s => if s = lastModifiedHeader then some 1700647200000 else none
    getFirstDate := fun s => if s = lastModifiedHeader then some 1700647200000 else none }

/-- Half a second after the header that is sent for it. -/
def page : HttpResource := ⟨1700647200500, false, "text/html", [112]⟩

/-- The client echoes the header: it gets the page again, or an empty body. -/
theorem echo_not_modified :
    handleModifiedHeadersSpring httpDates (some lastModifiedHeader) page = ([], {}) ∧
      (handleModifiedHeadersServlet httpDates (some lastModifiedHeader) page true).2.notModified =
        false ∧
      ¬ HandlesModified httpDates (some lastModifiedHeader) page true := by
  have hdate : (some lastModifiedHeader).bind httpDates.getFirstDate = some 1700647200000 := by
    simp [httpDates]
  have hspring : handleModifiedHeadersSpring httpDates (some lastModifiedHeader) page = ([], {}) := by
    unfold handleModifiedHeadersSpring getIfModifiedSince
    rw [hdate]
    rfl
  have hsince : ifModifiedSince httpDates (some lastModifiedHeader) = some 1700647200000 := by
    have hblank : Java.isBlank (some lastModifiedHeader) = false := by decide
    simp [ifModifiedSince, hblank, httpDates]
  refine ⟨hspring, ?_, fun h => ?_⟩
  · unfold handleModifiedHeadersServlet
    rw [hsince]
    rfl
  · obtain ⟨hnotModified, -⟩ | ⟨-, hbody, -⟩ := h.spring_answered
    · rw [hspring] at hnotModified
      cases hnotModified
    · rw [hspring] at hbody
      cases hbody

end Example

end Http
end AppNG
