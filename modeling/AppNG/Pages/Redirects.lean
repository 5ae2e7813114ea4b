import AppNG.Gui.PathParts
import AppNG.Pages.PageParameters

/-!
# Pages.Redirects

`ApplicationProvider.process` answers with a redirect where no page is asked for, and where a
parameter of the path got its value from the session. The target holds the values up to the first
blank one, and is the path of the next request as it stands.

* `splitPath_of_front`, `behind_of_segments`, `behind_of_slash`: what the target is split into.
* `processUrlParams_reads`: each parameter of the path is read with what the request and those before
  leave for its name.
* `answers_segment`, `answers_none_iff`: what a parameter does in the next request, with a segment and
  without one.
* `settles_iff`: the next request shows the page with the same values, if and only if the values up
  to the first blank one are segments, and the others come without one.
-/

namespace AppNG
namespace Pages
namespace PageParameterProcessor

open Gui

/-- A page is named by one segment of the path. -/
structure IsPageId (id : String) : Prop where
  nonempty : id ≠ ""
  single : '/' ∉ id.toList
  anchor : cutAnchor id = id

structure Application where
  paths : SegmentPaths
  site : Segment
  application : Segment
  sessionParamNames : List String
  defaultPage : String
  pages : String → Option UrlSchema
  site_ne : Java.startsWith site.name '_' = false
  ids : ∀ id urlSchema, pages id = some urlSchema → IsPageId id

/-! ## The code -/

structure Page where
  pageId : String
  isDefault : Bool
  urlSchema : UrlSchema
  deriving DecidableEq, Repr

/-- The requested page, or the default page. None: no page was found. -/
def findPage (app : Application) (pathInfo : PathInfo) : Option Page :=
  let isDefault := pathInfo.getPage.isNone
  let pageId := pathInfo.getPage.getD app.defaultPage
  match app.pages pageId with
  | some urlSchema => some ⟨pageId, isDefault, urlSchema⟩
  | none =>
    if isDefault then none
    else (app.pages app.defaultPage).map fun urlSchema => ⟨app.defaultPage, true, urlSchema⟩

def appendValues : List TypedParam → String → String
  | [], sb => sb
  | p :: ps, sb =>
    match p.value with
    | some value => if !Java.isBlank (some value) then appendValues ps (sb ++ "/" ++ value) else sb
    | none => sb

def getRedirectPath (app : Application) (pageId : String) (urlParams : List TypedParam) : String :=
  appendValues urlParams (app.application.name ++ "/" ++ pageId)

structure Response where
  result : UrlParams
  redirectTarget : Option String

def respond (app : Application) (request : Request) (pathInfo : PathInfo)
    (session : String → Option String) (page : Page) : Response :=
  let result := processPageParams app.sessionParamNames request
    (pathInfo.getApplicationUrlParameters app.paths.toSitePaths) page.urlSchema session
  { result
    redirectTarget :=
      if result.paramAdded || page.isDefault then
        some (getRedirectPath app page.pageId result.urlParams)
      else none }

/-- None: no page was found. -/
def process (app : Application) (request : Request) (pathInfo : PathInfo)
    (session : String → Option String) : Option Response :=
  (findPage app pathInfo).map (respond app request pathInfo session)

/-- The path of a redirect. -/
def sendRedirect (app : Application) (target : String) : String :=
  if Java.startsWith target '/' then target
  else app.paths.toSitePaths.guiPath ++ "/" ++ app.site.name ++ "/" ++ target

/-- The request that follows a redirect. -/
def follow : Request where
  isPost := false
  isGet := true
  parameterNames := []
  getParameter _ := none

/-! ## When it settles -/

/-- The target is the same page with the same values, and no redirect. -/
def Settles (app : Application) (currentSite : String) (page : Page) (response : Response)
    (target : String) : Prop :=
  ∃ pathInfo next, PathInfo.parse app.paths.toSitePaths currentSite (sendRedirect app target) =
      some pathInfo ∧
    (∃ found, findPage app pathInfo = some found ∧ found.pageId = page.pageId) ∧
    process app follow pathInfo response.result.state.session = some next ∧
    next.redirectTarget = none ∧
    next.result.urlParams.map (fun p => p.value) = response.result.urlParams.map fun p => p.value

/-- A value is added: it is neither what was there nor the default. -/
def added (sessionParamNames : List String) (p : TypedParam) (segment : Option String) (c : Cell) :
    Bool :=
  let value := urlValue sessionParamNames p segment c
  value.isSome && !(value == c.input segment || value == p.default)

/-- What there is for each name behind a parameter of the path. -/
def advance (sessionParamNames : List String) (cells : String → Cell)
    (d : TypedParam × Option String) : String → Cell :=
  fun name =>
    if d.1.name = name then
      (cells name).inPath (decide (name ∈ sessionParamNames)) (d.1.rule, d.2)
    else cells name

/-- The value of each parameter of the path and whether it is added, by its segment and by what there
is for its name. -/
def reads (sessionParamNames : List String) :
    List (TypedParam × Option String) → (String → Cell) → List (Option String × Bool)
  | [], _ => []
  | d :: ds, cells =>
    (urlValue sessionParamNames d.1 d.2 (cells d.1.name),
        added sessionParamNames d.1 d.2 (cells d.1.name)) ::
      reads sessionParamNames ds (advance sessionParamNames cells d)

/-- The value of each parameter of the path, by its segment, the parameters of the request and those
of the path before it, the session and the default. -/
def values (sessionParamNames : List String) (request : Request)
    (applicationUrlParameters : List String) (urlSchema : UrlSchema)
    (session : String → Option String) : List (Option String) :=
  (reads sessionParamNames (inPath applicationUrlParameters (urlSchema.urlParams.getD []))
    (processRequestParams sessionParamNames request urlSchema session).cell).map Prod.fst

/-- What the session holds for each name afterwards. -/
def remembered (sessionParamNames : List String) (request : Request)
    (applicationUrlParameters : List String) (urlSchema : UrlSchema)
    (session : String → Option String) (name : String) : Option String :=
  ((inPath applicationUrlParameters (urlSchema.urlParams.getD [])).foldl (advance sessionParamNames)
    (processRequestParams sessionParamNames request urlSchema session).cell name).session

/-- The values before the first that is blank. -/
def carried : List (Option String) → List String
  | some value :: values => if Java.isBlank (some value) then [] else value :: carried values
  | _ => []

/-- What there is for each name before a parameter of the path, where the parameters of a `GET` have no
value and those before have the segments. -/
def before (sessionParamNames : List String) (urlSchema : UrlSchema) (segments : List String)
    (held : String → Option String) (i : Nat) : String → Cell :=
  ((inPath segments (urlSchema.urlParams.getD [])).take i).foldl (advance sessionParamNames)
    fun name => requestCell sessionParamNames follow urlSchema name (held name)

/-- The value is that of the other parameters of the name or the default, and the session has no other
one to add. -/
def Unmoved (sessionParamNames : List String) (p : TypedParam) (c : Cell) (value : Option String) :
    Prop :=
  value = p.rule.checked ((c.input none).or p.default) ∧
    (p.name ∈ sessionParamNames → c.input none = none →
      Java.isEmpty c.session = true ∨ ¬ p.rule.Accepts c.session ∨ c.session = p.default)

/-- The values up to the first blank one are segments, and the others come without one. -/
structure Returns (sessionParamNames : List String) (urlSchema : UrlSchema)
    (values : List (Option String)) (held : String → Option String) : Prop where
  slash : ∀ value ∈ carried values, '/' ∉ value.toList
  anchor : ∀ value, (carried values).getLast? = some value → cutAnchor value = value
  behind : ∀ i p value, (carried values).length ≤ i →
    (urlSchema.urlParams.getD [])[i]? = some p → values[i]? = some value →
      Unmoved sessionParamNames p
        (before sessionParamNames urlSchema (carried values) held i p.name) value

/-! ## The target -/

section Target

variable {app : Application} {pageId : String} {path : String} {value : String}
  {segments : List String}

theorem appendValues_eq (ps : List TypedParam) (sb : String) :
    appendValues ps sb = sb ++ String.join ((carried (ps.map fun p => p.value)).map ("/" ++ ·)) := by
  induction ps generalizing sb with
  | nil => simp [appendValues, carried]
  | cons p ps ih =>
    rw [List.map_cons]
    cases hvalue : p.value with
    | none => simp [appendValues, hvalue, carried]
    | some v =>
      cases hblank : Java.isBlank (some v) with
      | true => simp [appendValues, hvalue, carried, hblank]
      | false =>
        simp only [appendValues, hvalue, hblank, Bool.not_false, if_true, carried,
          Bool.false_eq_true, if_false, ih, List.map_cons, String.join_cons]
        simp only [String.append_assoc]

/-- What every target starts with. -/
def front (app : Application) (pageId : String) : List String :=
  ["", app.paths.manager.name, app.site.name, app.application.name] ++ [pageId]

theorem front_single (hid : IsPageId pageId) : ∀ part ∈ front app pageId, '/' ∉ part.toList := by
  intro part hpart
  simp only [front, List.cons_append, List.nil_append, List.mem_cons, List.not_mem_nil,
    or_false] at hpart
  rcases hpart with rfl | rfl | rfl | rfl | rfl
  · exact List.not_mem_nil
  · exact app.paths.manager.single
  · exact app.site.single
  · exact app.application.single
  · exact hid.single

theorem sendRedirect_toList (ps : List TypedParam) :
    (sendRedirect app (getRedirectPath app pageId ps)).toList = ['/'].intercalate
      ((front app pageId ++ carried (ps.map fun p => p.value)).map String.toList) := by
  obtain ⟨c, cs, hname⟩ := List.exists_cons_of_ne_nil fun h : app.application.name.toList = [] =>
    app.application.nonempty (String.toList_eq_nil_iff.mp h)
  have hc : c ≠ '/' := by
    intro hc
    refine app.application.single ?_
    rw [hname, hc]
    exact List.mem_cons_self
  have hrelative : Java.startsWith (getRedirectPath app pageId ps) '/' = false := by
    simp [Java.startsWith, getRedirectPath, appendValues_eq, hname, hc]
  have hguiPath : app.paths.toSitePaths.guiPath = "/" ++ app.paths.manager.name := rfl
  have hjoin := join_eq ([app.paths.manager.name, app.site.name, app.application.name, pageId] ++
    carried (ps.map fun p => p.value)) ""
  have hfront : front app pageId ++ carried (ps.map fun p => p.value) =
      "" :: ([app.paths.manager.name, app.site.name, app.application.name, pageId] ++
        carried (ps.map fun p => p.value)) := rfl
  rw [sendRedirect, hrelative, if_neg Bool.false_ne_true, hguiPath, getRedirectPath,
    appendValues_eq, hfront, hjoin]
  simp [String.join_cons, String.append_assoc]

/-- The segments behind the page. -/
def behind (path : String) : List String := (splitPath path).drop 5

theorem splitPath_of_front (hid : IsPageId pageId) {more : List String}
    (h : Java.split '/' path = front app pageId ++ more) :
    splitPath path = front app pageId ++ behind path := by
  have hsome : ∃ rest, splitPath path = front app pageId ++ rest := by
    cases more using List.reverseRecOn with
    | nil =>
      rw [List.append_nil, front] at h
      rw [splitPath_of_split _ h, hid.anchor]
      exact ⟨[], (List.append_nil _).symm⟩
    | append_singleton more last =>
      rw [← List.append_assoc] at h
      rw [splitPath_of_split _ h]
      exact ⟨more ++ [cutAnchor last], List.append_assoc _ _ _⟩
  obtain ⟨rest, hrest⟩ := hsome
  rw [behind, hrest]
  rfl

/-- Segments come back as they are. -/
theorem behind_of_segments (hid : IsPageId pageId)
    (hpath : path.toList = ['/'].intercalate ((front app pageId ++ segments).map String.toList))
    (hsingle : ∀ v ∈ segments, '/' ∉ v.toList) (hnonempty : ∀ v ∈ segments, v ≠ "") :
    Java.split '/' path = front app pageId ++ segments := by
  have hall : ∀ part ∈ front app pageId ++ segments, '/' ∉ part.toList := by
    intro part hpart
    rcases List.mem_append.mp hpart with hpart | hpart
    · exact front_single hid part hpart
    · exact hsingle part hpart
  cases segments using List.reverseRecOn with
  | nil =>
    rw [List.append_nil] at hpath hall ⊢
    exact Java.split_join hid.nonempty hall (k := 0) (by rw [hpath]; simp [front])
  | append_singleton segments last =>
    rw [← List.append_assoc] at hpath hall ⊢
    exact Java.split_join (hnonempty last (by simp)) hall (k := 0) (by rw [hpath]; simp)

/-- A value with a `/` in it comes back as the part before. -/
theorem behind_of_slash (hid : IsPageId pageId) {init post : List String} {part rest : List Char}
    (hpath : path.toList = ['/'].intercalate
      ((front app pageId ++ (init ++ value :: post)).map String.toList))
    (hinit : ∀ v ∈ init, '/' ∉ v.toList) (hvalue : value.toList = part ++ '/' :: rest)
    (hpart : part ≠ []) (hsingle : '/' ∉ part) :
    ∃ more, Java.split '/' path = front app pageId ++ init ++ [String.ofList part] ++ more := by
  have hne : String.ofList part ≠ "" := by simpa using hpart
  have hall : ∀ p ∈ front app pageId ++ init ++ [String.ofList part], '/' ∉ p.toList := by
    intro p hp
    rcases List.mem_append.mp hp with hp | hp
    · rcases List.mem_append.mp hp with hp | hp
      · exact front_single hid p hp
      · exact hinit p hp
    · rw [List.mem_singleton.mp hp, String.toList_ofList]
      exact hsingle
  obtain ⟨tail, htail⟩ : ∃ tail, ['/'].intercalate ((value :: post).map String.toList) =
      value.toList ++ tail := by
    cases post with
    | nil => exact ⟨[], by simp⟩
    | cons next post =>
      rw [List.map_cons, List.intercalate_cons_of_ne_nil (by simp)]
      exact ⟨_, List.append_assoc _ _ _⟩
  have hlist : path.toList = ((front app pageId ++ init ++ [String.ofList part]).flatMap fun p =>
      p.toList ++ ['/']) ++ (rest ++ tail) := by
    rw [hpath, ← List.append_assoc, Java.intercalate_followed _ (List.cons_ne_nil _ _), htail, hvalue]
    simp
  exact ⟨_, Java.split_followed hne hall hlist⟩

theorem parse_target (currentSite : String)
    (h : splitPath path = front app pageId ++ segments) :
    ∃ pathInfo, PathInfo.parse app.paths.toSitePaths currentSite path = some pathInfo ∧
      pathInfo.getPage = some pageId ∧
      pathInfo.getApplicationUrlParameters app.paths.toSitePaths = segments := by
  have hgui : (splitPath path)[1]? = some app.paths.manager.name := by rw [h]; rfl
  have hsite : PathInfo.siteIndex (splitPath path) 2 = some 2 := by
    rw [h]
    simp [PathInfo.siteIndex, front, app.site_ne]
  refine ⟨PathInfo.located currentSite (splitPath path) 2, ?_, ?_, ?_⟩
  · have hmanager : splitPath path = "" :: app.paths.manager.name ::
        (app.site.name :: app.application.name :: pageId :: segments) := h
    rw [parse_manager hmanager, if_neg (List.cons_ne_nil _ _), hsite]
    rfl
  · rw [located_getPage, h]
    rfl
  · rw [located_params currentSite 2 hgui, h]
    rfl

theorem findPage_pages {pathInfo : PathInfo} {page : Page} (h : findPage app pathInfo = some page) :
    app.pages page.pageId = some page.urlSchema := by
  unfold findPage at h
  cases hpage : app.pages (pathInfo.getPage.getD app.defaultPage) with
  | some urlSchema =>
    simp only [hpage, Option.some.injEq] at h
    rw [← h]
    exact hpage
  | none =>
    simp only [hpage] at h
    split at h
    · cases h
    · obtain ⟨urlSchema, hschema, rfl⟩ := Option.map_eq_some_iff.mp h
      exact hschema

theorem findPage_of_getPage {pathInfo : PathInfo} {urlSchema : UrlSchema}
    (hpage : pathInfo.getPage = some pageId) (h : app.pages pageId = some urlSchema) :
    findPage app pathInfo = some ⟨pageId, false, urlSchema⟩ := by
  unfold findPage
  simp only [hpage, Option.getD_some, h, Option.isNone_some]

end Target

/-! ## Types -/

section Types

variable {cs : List Char} {c : Char}

theorem isDigit_of_isDigits (h : isDigits cs = true) (hc : c ∈ cs) : c.isDigit = true := by
  rw [isDigits, Bool.and_eq_true, List.all_eq_true] at h
  exact h.2 c hc

theorem mem_unsigned (hc : c ∈ cs) : c ∈ unsigned cs ∨ c = '-' ∨ c = '+' := by
  unfold unsigned
  split
  · rcases List.mem_cons.mp hc with rfl | hc
    · exact .inr (.inl rfl)
    · exact .inl hc
  · rcases List.mem_cons.mp hc with rfl | hc
    · exact .inr (.inr rfl)
    · exact .inl hc
  · exact .inl hc

theorem mem_of_isInt (h : isInt cs = true) (hc : c ∈ cs) :
    c.isDigit = true ∨ c = '-' ∨ c = '+' :=
  (mem_unsigned hc).imp_left (isDigit_of_isDigits h)

theorem mem_of_isDecimal (h : isDecimal cs = true) (hc : c ∈ cs) :
    c.isDigit = true ∨ c = '.' ∨ c = '-' ∨ c = '+' := by
  rcases mem_unsigned hc with hc | hsign
  · rw [isDecimal, Bool.and_eq_true] at h
    obtain ⟨hwhole, hfraction⟩ := h
    rw [← List.takeWhile_append_dropWhile (p := Char.isDigit) (l := unsigned cs)] at hc
    rcases List.mem_append.mp hc with hc | hc
    · exact .inl (isDigit_of_isDigits hwhole hc)
    · split at hfraction
      · rename_i hnil
        rw [hnil] at hc
        cases hc
      · rename_i d fraction hcons
        rw [hcons] at hc
        rw [Bool.and_eq_true, beq_iff_eq] at hfraction
        rcases List.mem_cons.mp hc with rfl | hc
        · exact .inr (.inl hfraction.1)
        · exact .inl (isDigit_of_isDigits hfraction.2 hc)
  · exact .inr (.inr hsign)

theorem mem_of_isBoolean (h : isBoolean cs = true) (hc : c ∈ cs) :
    upper c ∈ ['T', 'R', 'U', 'E', 'F', 'A', 'L', 'S', 'E'] := by
  have hupper := List.mem_map_of_mem (f := upper) hc
  rw [isBoolean, Bool.or_eq_true, beq_iff_eq, beq_iff_eq] at h
  rcases h with h | h
  · rw [h] at hupper
    exact List.mem_append_left ['F', 'A', 'L', 'S', 'E'] hupper
  · rw [h] at hupper
    exact List.mem_append_right ['T', 'R', 'U', 'E'] hupper

/-- Only a text holds a `/` or a `#`, and every value is one. -/
theorem Rule.accepts_all {rule : Rule} {v : String} (h : rule.Accepts (some v))
    (hc : '/' ∈ v.toList ∨ '#' ∈ v.toList) (value : Option String) : rule.Accepts value := by
  intro type htype
  have hok : isParamOk (some v) type = true := h type htype
  cases type with
  | text => cases value <;> rfl
  | boolean =>
    rcases hc with hc | hc
    · exact absurd (mem_of_isBoolean hok hc) (by decide)
    · exact absurd (mem_of_isBoolean hok hc) (by decide)
  | decimal =>
    rcases hc with hc | hc
    · exact absurd (mem_of_isDecimal hok hc) (by decide)
    · exact absurd (mem_of_isDecimal hok hc) (by decide)
  | int =>
    rcases hc with hc | hc
    · exact absurd (mem_of_isInt hok hc) (by decide)
    · exact absurd (mem_of_isInt hok hc) (by decide)

end Types

/-! ## The values -/

section Values

variable {sessionParamNames : List String} {p : TypedParam} {segment value : Option String} {c : Cell}

theorem inPath_getElem? (segments : List String) (ps : List TypedParam) (i : Nat) :
    (inPath segments ps)[i]? = ps[i]?.map fun p => (p, segments[i]?) := by
  induction ps generalizing segments i with
  | nil => simp [inPath]
  | cons p ps ih =>
    cases i with
    | zero => simp [inPath, List.head?_eq_getElem?]
    | succ i => simp [inPath, ih]

theorem urlState_cells (p : TypedParam) (segment : Option String) (st : State) :
    (urlState sessionParamNames p segment st).cell =
      advance sessionParamNames st.cell (p, segment) := by
  funext name
  exact urlState_cell p segment st

theorem reads_getElem? (ds : List (TypedParam × Option String)) (cells : String → Cell) (i : Nat) :
    (reads sessionParamNames ds cells)[i]? = ds[i]?.map fun d =>
      let c := (ds.take i).foldl (advance sessionParamNames) cells d.1.name
      (urlValue sessionParamNames d.1 d.2 c, added sessionParamNames d.1 d.2 c) := by
  induction ds generalizing cells i with
  | nil => simp [reads]
  | cons d ds ih =>
    cases i with
    | zero => simp [reads]
    | succ i => simp [reads, ih]

/-- The loop of the source, by what there is for each name. -/
theorem processUrlParams_reads (sessionParamNames : List String) (ps : List TypedParam)
    (segments : List String) (st : State) :
    let result := processUrlParams sessionParamNames segments ps st
    let read := reads sessionParamNames (inPath segments ps) st.cell
    result.urlParams.map (fun p => p.value) = read.map Prod.fst ∧
      result.paramAdded = (read.map Prod.snd).any id ∧
      result.state.cell = (inPath segments ps).foldl (advance sessionParamNames) st.cell := by
  induction ps generalizing segments st with
  | nil => exact ⟨rfl, rfl, rfl⟩
  | cons p ps ih =>
    intro result read
    obtain ⟨hvalues, hadded, hcells⟩ := ih segments.tail
      (urlState sessionParamNames p segments.head? st)
    rw [urlState_cells] at hvalues hadded hcells
    simp only [result, read, processUrlParams_cons, inPath, reads, List.map_cons, List.any_cons,
      List.foldl_cons]
    exact ⟨congrArg _ hvalues, congrArg _ hadded, hcells⟩

theorem added_eq_false_iff : added sessionParamNames p segment c = false ↔
    urlValue sessionParamNames p segment c = none ∨
      urlValue sessionParamNames p segment c = c.input segment ∨
      urlValue sessionParamNames p segment c = p.default := by
  simp only [added]
  cases urlValue sessionParamNames p segment c with
  | none => simp
  | some v => simp [beq_iff_eq, imp_iff_or_not, or_comm]

/-- Only what comes from the session is added. -/
theorem added_of_offered
    (h : p.rule.offered (decide (p.name ∈ sessionParamNames)) c.session (c.input segment) =
        c.input segment ∨
      p.rule.offered (decide (p.name ∈ sessionParamNames)) c.session (c.input segment) = p.default) :
    added sessionParamNames p segment c = false := by
  rw [added_eq_false_iff, urlValue]
  rcases p.rule.checked_cases
    (p.rule.offered (decide (p.name ∈ sessionParamNames)) c.session (c.input segment)) with
    ⟨-, hsame⟩ | ⟨-, hfallback, -⟩
  · rw [hsame]
    exact .inr h
  · rw [hfallback]
    rcases p.rule.fallback_cases with hdefault | hnone
    · exact .inr (.inr hdefault)
    · exact .inl hnone

/-- A parameter has the value, and nothing is added. -/
def Answers (sessionParamNames : List String) (p : TypedParam) (segment : Option String) (c : Cell)
    (value : Option String) : Prop :=
  urlValue sessionParamNames p segment c = value ∧ added sessionParamNames p segment c = false

theorem offered_of_nonempty {rule : Rule} {isSessionParam : Bool} {s : Option String} {v : String}
    (hv : v ≠ "") : rule.offered isSessionParam s (some v) = some v := by
  cases isSessionParam with
  | true => rfl
  | false => simp [Rule.offered, Java.isEmpty, hv]

theorem answers_segment {v : String} (haccepts : p.rule.Accepts (some v)) (hv : v ≠ "") :
    Answers sessionParamNames p (some v) c (some v) := by
  constructor
  · change p.rule.checked (p.rule.offered _ _ (some v)) = some v
    rw [offered_of_nonempty hv, Rule.checked_of_accepts haccepts]
  · exact added_of_offered (.inl (offered_of_nonempty hv))

/-- A parameter that takes every value takes the segment as it is. -/
theorem eq_of_answers {v : String} (hall : ∀ x, p.rule.Accepts x) (hv : v ≠ "")
    (h : Answers sessionParamNames p (some v) c value) : value = some v := by
  obtain ⟨hvalue, -⟩ := h
  change p.rule.checked (p.rule.offered _ _ (some v)) = value at hvalue
  rw [offered_of_nonempty hv, Rule.checked_of_accepts (hall _)] at hvalue
  exact hvalue.symm

/-- Where the session is not asked, or has nothing. -/
theorem offered_input_none
    (h : p.name ∈ sessionParamNames → c.input none = none → Java.isEmpty c.session = true) :
    p.rule.offered (decide (p.name ∈ sessionParamNames)) c.session (c.input none) =
      (c.input none).or p.default := by
  have hdefault : p.rule.default = p.default := rfl
  rcases input_none_cases c with ⟨hnone, -⟩ | ⟨e, he, hsome, -⟩
  · rw [hnone]
    by_cases hname : p.name ∈ sessionParamNames
    · simp [Rule.offered, hname, h hname hnone, hdefault]
    · simp [Rule.offered, hname, Java.isEmpty, hdefault]
  · rw [hsome, offered_of_nonempty he]
    rfl

/-- The session has a value where nothing else has one: it is added, unless it is the default or of the
wrong type. -/
theorem answers_held (hname : p.name ∈ sessionParamNames) (hinput : c.input none = none)
    (hsession : ¬ Java.isEmpty c.session = true) :
    Answers sessionParamNames p none c value ↔
      value = p.rule.fallback ∧ (¬ p.rule.Accepts c.session ∨ c.session = p.default) := by
  have hdefault : p.rule.default = p.default := rfl
  have hoffered : p.rule.offered (decide (p.name ∈ sessionParamNames)) c.session (c.input none) =
      c.session := by
    simp [Rule.offered, hname, hinput, hsession]
  rw [Answers, added_eq_false_iff, urlValue, hoffered, hinput]
  rcases p.rule.checked_cases c.session with ⟨haccepts, hsame⟩ | ⟨hnot, hfallback, -⟩
  · rw [hsame]
    constructor
    · rintro ⟨rfl, hnone | hnone | heq⟩
      · rw [hnone] at hsession
        exact absurd rfl hsession
      · rw [hnone] at hsession
        exact absurd rfl hsession
      · refine ⟨?_, .inr heq⟩
        rw [Rule.fallback, hdefault, ← heq, hsame]
    · rintro ⟨rfl, hnot | heq⟩
      · exact absurd haccepts hnot
      · refine ⟨?_, .inr (.inr heq)⟩
        rw [Rule.fallback, hdefault, ← heq, hsame]
  · rw [hfallback]
    constructor
    · rintro ⟨rfl, -⟩
      exact ⟨rfl, .inl hnot⟩
    · rintro ⟨rfl, -⟩
      refine ⟨rfl, ?_⟩
      rcases p.rule.fallback_cases with heq | hnone
      · exact .inr (.inr heq)
      · exact .inl hnone

/-- A parameter without a segment keeps its value if and only if it does not move. -/
theorem answers_none_iff :
    Answers sessionParamNames p none c value ↔ Unmoved sessionParamNames p c value := by
  by_cases h : p.name ∈ sessionParamNames → c.input none = none → Java.isEmpty c.session = true
  · have hoffered := offered_input_none h
    have hadded : added sessionParamNames p none c = false := by
      apply added_of_offered
      rw [hoffered]
      cases c.input none with
      | none => exact .inr rfl
      | some e => exact .inl rfl
    rw [Answers, Unmoved, urlValue, hoffered]
    constructor
    · rintro ⟨rfl, -⟩
      exact ⟨rfl, fun hname hinput => .inl (h hname hinput)⟩
    · rintro ⟨rfl, -⟩
      exact ⟨rfl, hadded⟩
  · push Not at h
    obtain ⟨hname, hinput, hsession⟩ := h
    rw [answers_held hname hinput hsession, Unmoved, hinput]
    simp [hname, hsession, Rule.fallback, TypedParam.rule]

end Values

/-! ## The next request -/

section Next

variable {app : Application} {request : Request} {pathInfo : PathInfo}
  {session : String → Option String} {page : Page} {target : String}

theorem carried_getElem? {vs : List (Option String)} {i : Nat} {v : String}
    (h : (carried vs)[i]? = some v) : vs[i]? = some (some v) ∧ v ≠ "" := by
  induction vs generalizing i with
  | nil => cases h
  | cons value vs ih =>
    cases value with
    | none => cases h
    | some w =>
      rw [carried] at h
      split at h
      · cases h
      · rename_i hblank
        cases i with
        | zero =>
          rw [List.getElem?_cons_zero, Option.some.injEq] at h
          subst h
          exact ⟨rfl, fun hempty => hblank (by rw [hempty]; rfl)⟩
        | succ i => exact ih h

/-- The parameters of the path in the request that follows. -/
theorem reads_follow (sessionParamNames : List String) (urlSchema : UrlSchema)
    (segments : List String) (session : String → Option String) (i : Nat) :
    (reads sessionParamNames (inPath segments (urlSchema.urlParams.getD []))
      (processRequestParams sessionParamNames follow urlSchema session).cell)[i]? =
      (urlSchema.urlParams.getD [])[i]?.map fun p =>
        let c := before sessionParamNames urlSchema segments session i p.name
        (urlValue sessionParamNames p segments[i]? c, added sessionParamNames p segments[i]? c) := by
  have hcell : (processRequestParams sessionParamNames follow urlSchema session).cell =
      fun name => requestCell sessionParamNames follow urlSchema name (session name) := by
    funext name
    exact processRequestParams_cell (fun _ => List.not_mem_nil) urlSchema session
  rw [reads_getElem?, inPath_getElem?, Option.map_map, hcell]
  rfl

/-- The values of the next request are those before, and none is added. -/
theorem next_iff (sessionParamNames : List String) {urlSchema : UrlSchema} (segments : List String)
    (session : String → Option String) {vs : List (Option String)}
    (hlength : vs.length = (urlSchema.urlParams.getD []).length) :
    (processPageParams sessionParamNames follow segments urlSchema session).urlParams.map
          (fun p => p.value) = vs ∧
        (processPageParams sessionParamNames follow segments urlSchema session).paramAdded = false ↔
      ∀ (i : Nat) p v, (urlSchema.urlParams.getD [])[i]? = some p → vs[i]? = some v →
        Answers sessionParamNames p segments[i]?
          (before sessionParamNames urlSchema segments session i p.name) v := by
  obtain ⟨hvalues, hadded, -⟩ := processUrlParams_reads sessionParamNames
    (urlSchema.urlParams.getD []) segments
    (processRequestParams sessionParamNames follow urlSchema session)
  have hread := reads_follow sessionParamNames urlSchema segments session
  rw [processPageParams, hvalues, hadded]
  generalize reads sessionParamNames _ _ = read at hread
  rw [List.any_map, List.any_eq_false]
  constructor
  · rintro ⟨rfl, hnone⟩ i p v hp hv
    have hi := hread i
    rw [hp, Option.map_some] at hi
    rw [List.getElem?_map, hi, Option.map_some, Option.some.injEq] at hv
    exact ⟨hv, Bool.eq_false_iff.mpr (hnone _ (List.mem_of_getElem? hi))⟩
  · intro h
    constructor
    · refine List.ext_getElem? fun i => ?_
      rw [List.getElem?_map, hread]
      cases hp : (urlSchema.urlParams.getD [])[i]? with
      | none =>
        have hle := List.getElem?_eq_none_iff.mp hp
        rw [← hlength] at hle
        rw [List.getElem?_eq_none_iff.mpr hle]
        rfl
      | some p =>
        have hlt := (List.getElem?_eq_some_iff.mp hp).1
        rw [← hlength] at hlt
        have hv := List.getElem?_eq_getElem hlt
        rw [hv]
        exact congrArg some (h i p _ hp hv).1
    · intro d hd
      obtain ⟨i, hi⟩ := List.mem_iff_getElem?.mp hd
      rw [hread] at hi
      obtain ⟨p, hp, rfl⟩ := Option.map_eq_some_iff.mp hi
      have hlt := (List.getElem?_eq_some_iff.mp hp).1
      rw [← hlength] at hlt
      exact Bool.eq_false_iff.mp (h i p _ hp (List.getElem?_eq_getElem hlt)).2

variable (app request pathInfo session page) in
/-- The values at the redirect. -/
def pageValues : List (Option String) :=
  values app.sessionParamNames request
    (pathInfo.getApplicationUrlParameters app.paths.toSitePaths) page.urlSchema session

variable (app request pathInfo session page) in
/-- The session after the redirect. -/
def pageRemembered : String → Option String :=
  remembered app.sessionParamNames request
    (pathInfo.getApplicationUrlParameters app.paths.toSitePaths) page.urlSchema session

theorem reads_length (sessionParamNames : List String) (ds : List (TypedParam × Option String))
    (cells : String → Cell) : (reads sessionParamNames ds cells).length = ds.length := by
  induction ds generalizing cells with
  | nil => rfl
  | cons d ds ih => exact congrArg (· + 1) (ih _)

theorem length_pageValues : (pageValues app request pathInfo session page).length =
    (page.urlSchema.urlParams.getD []).length := by
  rw [pageValues, values, List.length_map, reads_length, ← List.length_map (f := Prod.fst),
    map_fst_inPath]

theorem respond_values : (respond app request pathInfo session page).result.urlParams.map
    (fun p => p.value) = pageValues app request pathInfo session page :=
  (processUrlParams_reads app.sessionParamNames _ _ _).1

theorem respond_session : (respond app request pathInfo session page).result.state.session =
    pageRemembered app request pathInfo session page := by
  funext name
  have hcells := (processUrlParams_reads app.sessionParamNames (page.urlSchema.urlParams.getD [])
    (pathInfo.getApplicationUrlParameters app.paths.toSitePaths)
    (processRequestParams app.sessionParamNames request page.urlSchema session)).2.2
  exact congrArg Cell.session (congrFun hcells name)

theorem respond_target
    (h : (respond app request pathInfo session page).redirectTarget = some target) :
    target = getRedirectPath app page.pageId
      (respond app request pathInfo session page).result.urlParams := by
  simp only [respond] at h ⊢
  split at h
  · exact (Option.some.inj h).symm
  · cases h

/-- The next request, by what each parameter does with its segment. -/
theorem settles_answers (currentSite : String) (hpage : findPage app pathInfo = some page)
    (hsplit : splitPath (sendRedirect app target) =
      front app page.pageId ++ behind (sendRedirect app target)) :
    Settles app currentSite page (respond app request pathInfo session page) target ↔
      ∀ (i : Nat) p v, (page.urlSchema.urlParams.getD [])[i]? = some p →
        (pageValues app request pathInfo session page)[i]? = some v →
          Answers app.sessionParamNames p (behind (sendRedirect app target))[i]?
            (before app.sessionParamNames page.urlSchema (behind (sendRedirect app target))
              (pageRemembered app request pathInfo session page) i p.name) v := by
  obtain ⟨next, hparse, hgetPage, hsegments⟩ := parse_target currentSite hsplit
  have hfound := findPage_of_getPage hgetPage (findPage_pages hpage)
  have hlength : (pageValues app request pathInfo session page).length = _ := length_pageValues
  have hnext := next_iff app.sessionParamNames (behind (sendRedirect app target))
    (pageRemembered app request pathInfo session page) hlength
  have hrespond : ∀ s, respond app follow next s ⟨page.pageId, false, page.urlSchema⟩ =
      ⟨processPageParams app.sessionParamNames follow (behind (sendRedirect app target))
          page.urlSchema s,
        if (processPageParams app.sessionParamNames follow (behind (sendRedirect app target))
          page.urlSchema s).paramAdded = true then
          some (getRedirectPath app page.pageId (processPageParams app.sessionParamNames follow
            (behind (sendRedirect app target)) page.urlSchema s).urlParams)
        else none⟩ := by
    intro s
    simp only [respond, hsegments, Bool.or_false]
  rw [Settles, respond_values, respond_session]
  refine Iff.trans ?_ hnext
  constructor
  · rintro ⟨pathInfo', response, hparse', -, hprocess, hredirect, hvalues⟩
    obtain rfl : next = pathInfo' := Option.some.inj (hparse.symm.trans hparse')
    rw [process, hfound, Option.map_some, hrespond] at hprocess
    obtain rfl := Option.some.inj hprocess
    refine ⟨hvalues, Bool.eq_false_iff.mpr fun hadded => ?_⟩
    rw [if_pos hadded] at hredirect
    cases hredirect
  · rintro ⟨hvalues, hadded⟩
    refine ⟨next, _, hparse, ⟨_, hfound, rfl⟩, congrArg (Option.map _) hfound, ?_, ?_⟩
    · rw [hrespond]
      exact if_neg (Bool.eq_false_iff.mp hadded)
    · rw [hrespond]
      exact hvalues

/-- Values without a `/`, and without a `#` in the last one, come back. -/
theorem behind_of_returns (hid : IsPageId page.pageId) {vs : List (Option String)} {path : String}
    (hpath : path.toList =
      ['/'].intercalate ((front app page.pageId ++ carried vs).map String.toList))
    (hslash : ∀ value ∈ carried vs, '/' ∉ value.toList)
    (hanchor : ∀ value, (carried vs).getLast? = some value → cutAnchor value = value) :
    splitPath path = front app page.pageId ++ behind path ∧ behind path = carried vs := by
  have hsplit := behind_of_segments hid hpath hslash fun v hv => by
    obtain ⟨i, hi⟩ := List.mem_iff_getElem?.mp hv
    exact (carried_getElem? hi).2
  have hall : splitPath path = front app page.pageId ++ carried vs := by
    cases hcarried : carried vs using List.reverseRecOn with
    | nil =>
      rw [hcarried, List.append_nil, front] at hsplit
      rw [splitPath_of_split _ hsplit, hid.anchor, List.append_nil]
      rfl
    | append_singleton init last =>
      rw [hcarried, ← List.append_assoc] at hsplit
      rw [splitPath_of_split _ hsplit, hanchor last (by rw [hcarried, List.getLast?_concat]),
        List.append_assoc]
  have hbehind : behind path = carried vs := by
    rw [behind, hall]
    rfl
  exact ⟨by rw [hbehind, hall], hbehind⟩

/-- The first value with a `/`. -/
theorem exists_first_slash {vs : List String} (h : ∃ v ∈ vs, '/' ∈ v.toList) :
    ∃ init value post, vs = init ++ value :: post ∧ '/' ∈ value.toList ∧
      ∀ v ∈ init, '/' ∉ v.toList := by
  obtain ⟨value, hvalue⟩ : ∃ value, vs.find? (fun v => decide ('/' ∈ v.toList)) = some value := by
    rw [← Option.isSome_iff_exists, List.find?_isSome]
    simpa using h
  obtain ⟨hmem, init, post, hvs, hinit⟩ := List.find?_eq_some_iff_append.mp hvalue
  exact ⟨init, value, post, hvs, by simpa using hmem, fun v hv => by simpa using hinit v hv⟩

theorem target_toList
    (htarget : (respond app request pathInfo session page).redirectTarget = some target) :
    (sendRedirect app target).toList = ['/'].intercalate
    ((front app page.pageId ++ carried (pageValues app request pathInfo session page)).map
      String.toList) := by
  rw [respond_target htarget, sendRedirect_toList, respond_values]

/-- What the type of a parameter accepts of its value. -/
theorem accepts_value {i : Nat} {p : TypedParam} {v : Option String}
    (hp : (page.urlSchema.urlParams.getD [])[i]? = some p)
    (hv : (pageValues app request pathInfo session page)[i]? = some v) : p.rule.Accepts v := by
  rw [pageValues, values, List.getElem?_map, reads_getElem?, inPath_getElem?, hp] at hv
  rw [← Option.some.inj hv]
  exact Rule.accepts_checked

theorem exists_param {i : Nat} {v : Option String}
    (hv : (pageValues app request pathInfo session page)[i]? = some v) :
    ∃ p, (page.urlSchema.urlParams.getD [])[i]? = some p := by
  have hlt := (List.getElem?_eq_some_iff.mp hv).1
  rw [length_pageValues] at hlt
  exact ⟨_, List.getElem?_eq_getElem hlt⟩

/-- What comes back at the place of a value that its parameter takes as a text is the value. -/
theorem eq_of_answers_at {segments : List String} {cells : Nat → String → Cell}
    (hanswers : ∀ (i : Nat) p v, (page.urlSchema.urlParams.getD [])[i]? = some p →
      (pageValues app request pathInfo session page)[i]? = some v →
        Answers app.sessionParamNames p segments[i]? (cells i p.name) v)
    {i : Nat} {value part : String}
    (hvalue : (carried (pageValues app request pathInfo session page))[i]? = some value)
    (hspecial : '/' ∈ value.toList ∨ '#' ∈ value.toList) (hpart : segments[i]? = some part)
    (hne : part ≠ "") : value = part := by
  have hv := (carried_getElem? hvalue).1
  obtain ⟨p, hp⟩ := exists_param hv
  have hanswer := hanswers i p (some value) hp hv
  rw [hpart] at hanswer
  exact Option.some.inj
    (eq_of_answers (Rule.accepts_all (accepts_value hp hv) hspecial) hne hanswer)

/-- What is found behind the page, by what the path is split into. -/
theorem behind_getElem? {path part : String} {init more : List String}
    (h : Java.split '/' path = front app page.pageId ++ init ++ [part] ++ more) :
    (behind path)[init.length]? = some part ∨ (behind path)[init.length]? = some (cutAnchor part) := by
  have hindex : (Java.split '/' path)[5 + init.length]? = some part := by
    have hlength : (front app page.pageId ++ init).length = 5 + init.length := by
      rw [List.length_append]
      rfl
    rw [h, List.append_assoc, List.getElem?_append_right (by omega), hlength, Nat.sub_self]
    rfl
  rw [behind, List.getElem?_drop]
  exact getElem?_splitPath hindex

section Redirected

variable (currentSite : String) (hpage : findPage app pathInfo = some page)
  (htarget : (respond app request pathInfo session page).redirectTarget = some target)

include hpage htarget

theorem settles_of_returns
    (h : Returns app.sessionParamNames page.urlSchema
      (pageValues app request pathInfo session page)
      (pageRemembered app request pathInfo session page)) :
    Settles app currentSite page (respond app request pathInfo session page) target := by
  obtain ⟨hsplit, hbehind⟩ := behind_of_returns (app.ids _ _ (findPage_pages hpage))
    (target_toList htarget) h.slash h.anchor
  rw [settles_answers currentSite hpage hsplit, hbehind]
  intro i p v hp hv
  cases hsegment : (carried (pageValues app request pathInfo session page))[i]? with
  | some w =>
    obtain ⟨hw, hne⟩ := carried_getElem? hsegment
    obtain rfl : v = some w := Option.some.inj (hv.symm.trans hw)
    exact answers_segment (accepts_value hp hv) hne
  | none =>
    exact answers_none_iff.mpr (h.behind i p v (List.getElem?_eq_none_iff.mp hsegment) hp hv)

/-- Of the first value with a `/` only the part before would come back. -/
theorem slash_of_settles
    (hrelative : ∀ value, some value ∈ pageValues app request pathInfo session page →
      Java.startsWith value '/' = false)
    (h : Settles app currentSite page (respond app request pathInfo session page) target) :
    ∀ value ∈ carried (pageValues app request pathInfo session page), '/' ∉ value.toList := by
  have hid := app.ids _ _ (findPage_pages hpage)
  have hpath := target_toList htarget
  by_contra hsome
  push Not at hsome
  obtain ⟨init, value, post, hvs, hvalue, hinit⟩ := exists_first_slash hsome
  have hget : (carried (pageValues app request pathInfo session page))[init.length]? =
      some value := by
    rw [hvs]
    simp
  obtain ⟨part, rest, hparts, hsingle⟩ := List.eq_append_cons_of_mem hvalue
  have hpart : part ≠ [] := by
    rintro rfl
    have hstarts := hrelative value (List.mem_of_getElem? (carried_getElem? hget).1)
    simp [Java.startsWith, hparts] at hstarts
  rw [hvs] at hpath
  obtain ⟨more, hsplit⟩ := behind_of_slash hid hpath hinit hparts hpart hsingle
  have hfront := hsplit
  rw [List.append_assoc, List.append_assoc] at hfront
  have hanswers := (settles_answers currentSite hpage (splitPath_of_front hid hfront)).mp h
  have hne : String.ofList part ≠ "" := by simpa using hpart
  have hfree : '/' ∉ (String.ofList part).toList := by
    rw [String.toList_ofList]
    exact hsingle
  rcases behind_getElem? hsplit with hbehind | hbehind
  · have heq := eq_of_answers_at hanswers hget (.inl hvalue) hbehind hne
    exact hfree (heq ▸ hvalue)
  · have heq := eq_of_answers_at hanswers hget (.inl hvalue) hbehind (cutAnchor_ne hne)
    exact hfree (cutAnchor_subset _ (heq ▸ hvalue))

/-- Of the last value only what is before a `#` would come back. -/
theorem anchor_of_settles
    (hslash : ∀ value ∈ carried (pageValues app request pathInfo session page), '/' ∉ value.toList)
    (h : Settles app currentSite page (respond app request pathInfo session page) target)
    (value : String)
    (hlast : (carried (pageValues app request pathInfo session page)).getLast? = some value) :
    cutAnchor value = value := by
  have hid := app.ids _ _ (findPage_pages hpage)
  have hsplit := behind_of_segments hid (target_toList htarget) hslash fun v hv => by
    obtain ⟨i, hi⟩ := List.mem_iff_getElem?.mp hv
    exact (carried_getElem? hi).2
  have hanswers := (settles_answers currentSite hpage (splitPath_of_front hid hsplit)).mp h
  by_cases hmem : '#' ∈ value.toList
  · obtain ⟨init, hvs⟩ := List.getLast?_eq_some_iff.mp hlast
    have hget : (carried (pageValues app request pathInfo session page))[init.length]? =
        some value := by
      rw [hvs]
      simp
    have hbehind : (behind (sendRedirect app target))[init.length]? = some (cutAnchor value) := by
      rw [hvs, ← List.append_assoc] at hsplit
      rw [behind, splitPath_of_split _ hsplit, front]
      simp
    exact (eq_of_answers_at hanswers hget (.inr hmem) hbehind
      (cutAnchor_ne (carried_getElem? hget).2)).symm
  · exact cutAnchor_of_not_mem hmem

theorem returns_of_settles
    (hrelative : ∀ value, some value ∈ pageValues app request pathInfo session page →
      Java.startsWith value '/' = false)
    (h : Settles app currentSite page (respond app request pathInfo session page) target) :
    Returns app.sessionParamNames page.urlSchema (pageValues app request pathInfo session page)
      (pageRemembered app request pathInfo session page) := by
  have hslash := slash_of_settles currentSite hpage htarget hrelative h
  have hanchor := anchor_of_settles currentSite hpage htarget hslash h
  refine ⟨hslash, hanchor, fun i p v hi hp hv => ?_⟩
  obtain ⟨hsplit, hbehind⟩ := behind_of_returns (app.ids _ _ (findPage_pages hpage))
    (target_toList htarget) hslash hanchor
  have hanswer := (settles_answers currentSite hpage hsplit).mp h i p v hp hv
  rw [hbehind, List.getElem?_eq_none_iff.mpr hi] at hanswer
  exact answers_none_iff.mp hanswer

end Redirected

theorem settles_iff (currentSite : String) (hpage : findPage app pathInfo = some page)
    (htarget : (respond app request pathInfo session page).redirectTarget = some target) :
    (Returns app.sessionParamNames page.urlSchema (pageValues app request pathInfo session page)
        (pageRemembered app request pathInfo session page) →
      Settles app currentSite page (respond app request pathInfo session page) target) ∧
    ((∀ value, some value ∈ pageValues app request pathInfo session page →
        Java.startsWith value '/' = false) →
      (Settles app currentSite page (respond app request pathInfo session page) target ↔
        Returns app.sessionParamNames page.urlSchema (pageValues app request pathInfo session page)
          (pageRemembered app request pathInfo session page))) :=
  ⟨settles_of_returns currentSite hpage htarget, fun hrelative =>
    ⟨returns_of_settles currentSite hpage htarget hrelative,
      settles_of_returns currentSite hpage htarget⟩⟩

end Next

section Example

def plainParam (name : String) : TypedParam where
  name := name
  value := none
  default := none
  type := none

def listSchema : UrlSchema := ⟨none, none, some [plainParam "filter", plainParam "lang"]⟩

def folderSchema : UrlSchema := ⟨none, none, some [plainParam "folder"]⟩

/-- The language and the folder are session parameters. -/
def demo : Application where
  paths := samplePathSegments
  site := ⟨"main", by decide, by decide⟩
  application := ⟨"demo", by decide, by decide⟩
  sessionParamNames := ["lang", "folder"]
  defaultPage := "list"
  pages id :=
    if id = "list" then some listSchema else if id = "open" then some folderSchema else none
  site_ne := by decide
  ids := by
    intro id urlSchema h
    split at h
    · rename_i hid
      subst hid
      exact ⟨by decide, by decide, by decide⟩
    · split at h
      · rename_i hid
        subst hid
        exact ⟨by decide, by decide, by decide⟩
      · cases h

def pathOf (site application page : Nat) (elements : List String) : PathInfo where
  currentSite := "main"
  pathElements := elements
  siteIdx := some site
  applicationIdx := some application
  pageIdx := some page

def german (name : String) : Option String := if name = "lang" then some "de" else none

def inFolder (name : String) : Option String := if name = "folder" then some "a/b" else none

def listPage : Page := ⟨"list", false, listSchema⟩

/-- The language is added behind the filter. -/
theorem settles_iff_filter : Settles demo "main" listPage
    (respond demo follow (pathOf 2 3 4 ["", "manager", "main", "demo", "list", "x"]) german listPage)
    "demo/list/x/de" := by
  have hpage : findPage demo (pathOf 2 3 4 ["", "manager", "main", "demo", "list", "x"]) =
      some listPage := by decide
  refine (settles_iff "main" hpage (by decide)).1 ⟨by decide, ?_, ?_⟩
  · intro value hvalue
    have hde : some "de" = some value := hvalue
    rw [← Option.some.inj hde]
    decide
  · intro i p value hi hp
    have hnone : (listPage.urlSchema.urlParams.getD [])[i]? = none :=
      List.getElem?_eq_none_iff.mpr hi
    rw [hnone] at hp
    cases hp

/-- Without a filter the target is the path that was asked for, in the same session; and of a value
with a `/` only the part before it comes back. -/
theorem redirects_to_itself :
    (let pathInfo := pathOf 2 3 4 ["", "manager", "main", "demo", "list"]
      let response := respond demo follow pathInfo german listPage
      PathInfo.parse demo.paths.toSitePaths "main" "/manager/main/demo/list" = some pathInfo ∧
      process demo follow pathInfo german = some response ∧
      response.redirectTarget = some "demo/list" ∧
      sendRedirect demo "demo/list" = "/manager/main/demo/list" ∧
      response.result.state.session = german ∧
      ¬ Settles demo "main" listPage response "demo/list") ∧
    (let page : Page := ⟨"open", false, folderSchema⟩
      let response := respond demo follow (pathOf 2 3 4 ["", "manager", "main", "demo", "open"])
        inFolder page
      response.redirectTarget = some "demo/open/a/b" ∧
      response.result.urlParams.map (fun p => p.value) = [some "a/b"] ∧
      (respond demo follow (pathOf 2 3 4 ["", "manager", "main", "demo", "open", "a", "b"])
        response.result.state.session page).result.urlParams.map (fun p => p.value) = [some "a"]) := by
  have hparse : PathInfo.parse demo.paths.toSitePaths "main" "/manager/main/demo/list" =
      some (pathOf 2 3 4 ["", "manager", "main", "demo", "list"]) := by decide
  have hpage : findPage demo (pathOf 2 3 4 ["", "manager", "main", "demo", "list"]) =
      some listPage := by decide
  refine ⟨⟨hparse, by rw [process, hpage]; rfl, by decide, by decide, rfl, ?_⟩, by decide⟩
  rintro ⟨pathInfo, next, hparse', -, hprocess, hnone, -⟩
  have hsame : sendRedirect demo "demo/list" = "/manager/main/demo/list" := by decide
  rw [hsame, hparse, Option.some.injEq] at hparse'
  rw [← hparse', process, hpage] at hprocess
  rw [Option.map_some, Option.some.injEq] at hprocess
  rw [← hprocess] at hnone
  exact absurd hnone (by decide)

end Example

end PageParameterProcessor
end Pages
end AppNG
