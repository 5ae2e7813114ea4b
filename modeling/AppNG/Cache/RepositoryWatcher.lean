import AppNG.Cache.Key
import AppNG.Cache.Listener
import AppNG.Lib.Loop
import AppNG.Lib.Occurrences

/-!
# Cache.RepositoryWatcher

`RepositoryWatcher`: the pages of a document are removed from the cache when its file changes, and with them the pages
of the forward rules that lead to it.

A file is known by its path behind that of the web directory, a rule by its expression without `^`, `$` and a suffix,
which is taken for the beginning of the paths that it matches. Removals run later.

A document is served under its path with and without the extension, and with further segments behind it.

* `mem_readUrlRewrites`: the map of the rules that are read, the first ones that have a source and a target.
* `removed_of_belongs`: the pages of a document are among those that are to be removed, if its path and the rules that
  lead to it are plain.
* `inv_perform`: a page that was cached before a change is to be removed, or the change is still to be processed.
* `fresh_of_run`: along a run without overflows, with a configuration that does not change while documents do, the loop
  goes on and no page from before a change is left in the end.
-/

namespace AppNG
namespace Cache
namespace RepositoryWatcher

open CacheService (CacheableRequest keyOf startsWith Covered)

abbrev Text := List Char

/-! ## The code -/

/-- What the elements contain; none: there is no such element. -/
structure Rule where
  from_ : Option String
  to_ : Option String
  deriving DecidableEq, Repr

/-- None: the event does not tell what has changed. -/
inductive WatchEvent where
  | overflow
  | file (path : String)
  deriving DecidableEq, Repr

abbrev ForwardMap := Text → Option (List Text)

/-- With what is not in the repository. -/
structure Watcher where
  jspExtension : String
  wwwDir : String
  configFile : String
  ruleSourceSuffix : String
  useCacheEntryListener : Bool
  /-- `FilenameUtils.normalize` -/
  normalize : String → Option String
  /-- Where a request is forwarded to if the rule matches it, with what the rules behind it make of that. -/
  forwards : Rule → Request → Option String

/-- The rules of the configuration are those that `parseConfig` returns, none if it cannot be read. A page is stale if
it was cached before its document changed. -/
structure State where
  config : Option (List Rule)
  forwardMap : ForwardMap
  cache : CacheService.State
  stale : List String := []
  pending : List WatchEvent := []
  /-- Beginnings of paths, whose entries are to be removed. -/
  removals : List Text := []
  running : Bool := true

namespace Watcher

variable (w : Watcher)

def sourceOf (from_ : String) : Text :=
  let from_ := Occurrences.replace ['$'] [] (Occurrences.replace ['^'] [] from_.toList)
  Occurrences.replace w.ruleSourceSuffix.toList [] from_

def targetOf (to_ : String) : Text :=
  match Occurrences.first w.jspExtension.toList to_.toList with
  | some i => to_.toList.take i
  | none => to_.toList

def addForward (forwardMap : ForwardMap) (to_ from_ : Text) : ForwardMap := fun target =>
  if target = to_ then some ((forwardMap to_).getD [] ++ [from_]) else forwardMap target

/-- Without one of the elements there is an exception, and what was read so far is kept. -/
def readRules (forwardMap : ForwardMap) : List Rule → ForwardMap
  | [] => forwardMap
  | rule :: rules =>
    match rule.from_, rule.to_ with
    | some from_, some to_ => readRules (addForward forwardMap (w.targetOf to_) (w.sourceOf from_)) rules
    | _, _ => forwardMap

def readUrlRewrites (config : Option (List Rule)) : ForwardMap := w.readRules (fun _ => none) (config.getD [])

def removeExtension (path : Text) : Text :=
  if w.jspExtension.toList.isSuffixOf path then path.take (path.length - w.jspExtension.toList.length) else path

/-- None: an exception, as the path is null or too short. -/
def relativePathName (path : String) : Option Text :=
  match w.normalize path with
  | none => none
  | some absolutePath =>
    if absolutePath.toList.length < w.wwwDir.toList.length then none
    else some (w.removeExtension (absolutePath.toList.drop w.wwwDir.toList.length))

/-- One event of the loop. -/
def processEvent (t : State) : WatchEvent → State
  | .overflow => t
  | .file path =>
    if path = w.configFile then { t with forwardMap := w.readUrlRewrites t.config }
    else
      match w.relativePathName path with
      | none => { t with running := false }
      | some relativePathName =>
        { t with removals := t.removals ++ relativePathName :: (t.forwardMap relativePathName).getD [] }

/-! ## Documents and their pages -/

def webRoot : Text := w.wwwDir.toList.rdropWhile (· == '/')

/-- The path of a document, if the file is one. -/
def documentOf (path : String) : Option Text :=
  if path = w.configFile then none
  else (w.normalize path).bind fun absolutePath =>
    if (w.webRoot ++ ['/']).isPrefixOf absolutePath.toList then some (absolutePath.toList.drop w.webRoot.length) else none

/-- The path of the document, with or without the extension. -/
def isNameOf (document name : Text) : Bool := name == document || name ++ w.jspExtension.toList == document

/-- Further segments are parameters of the document. -/
def isPageOf (document path : Text) : Bool :=
  path.inits.any fun name => w.isNameOf document name && (name == path || (name ++ ['/']).isPrefixOf path)

def forwardsTo (document : Text) (rule : Rule) (rq : Request) : Bool :=
  (w.forwards rule rq).any fun target => w.isPageOf document (target.toList.takeWhile (· != '?'))

/-- The request is one for the document, or a rule leads to it. -/
def belongs (config : Option (List Rule)) (document : Text) (rq : Request) : Bool :=
  w.isPageOf document rq.servletPath.toList || (config.getD []).any fun rule => w.forwardsTo document rule rq

/-- The keys of the pages that are stale once the document has changed. -/
def pagesOf (t : State) (document : Text) : List String :=
  (t.cache.cache.values.filter fun rq => w.belongs t.config document rq.1).map keyOf

/-! ## Runs -/

inductive Step where
  /-- Of requests and of others that use the cache. -/
  | cache (s : CacheService.Step)
  | changed (path : String)
  | configured (config : Option (List Rule))
  /-- These documents have changed, but there are no events for them. -/
  | overflow (lost : List Text)
  /-- The loop goes on with one of the events. -/
  | process (i : Nat)
  | remove (i : Nat)

def perform (t : State) : Step → State
  | .cache s =>
    { t with
      cache := t.cache.perform s
      stale := match s with
        | .put rq => t.stale.filter (· != keyOf rq)
        | _ => t.stale }
  | .changed path =>
    { t with
      pending := t.pending ++ [.file path]
      stale := t.stale ++ ((w.documentOf path).map (w.pagesOf t)).getD [] }
  | .configured config => { t with config, pending := t.pending ++ [.file w.configFile] }
  | .overflow lost =>
    { t with
      pending := t.pending ++ [.overflow]
      stale := t.stale ++ lost.flatMap (w.pagesOf t) }
  | .process i =>
    if t.running then
      match t.pending[i]? with
      | none => t
      | some event => w.processEvent { t with pending := t.pending.eraseIdx i } event
    else t
  | .remove i =>
    match t.removals[i]? with
    | none => t
    | some path =>
      { t with
        removals := t.removals.eraseIdx i
        cache := t.cache.expireByPrefix w.useCacheEntryListener (String.ofList path) }

def start (config : Option (List Rule)) (useListener : Bool) : State where
  config
  forwardMap := w.readUrlRewrites config
  cache := CacheService.start useListener

end Watcher

/-- The loop goes on, and there are no stale pages once there is nothing left to do. -/
structure Fresh (t : State) : Prop where
  running : t.running = true
  fresh : t.pending = [] → t.removals = [] → ∀ rq ∈ t.cache.cache.values, keyOf rq ∉ t.stale

/-- The rules up to the first one that lacks a source or a target. -/
def rulesRead (config : Option (List Rule)) : List Rule :=
  (config.getD []).takeWhile fun rule => rule.from_.isSome && rule.to_.isSome

/-- What is left of the source is how the path of the request begins, and what is left of the target is the document
without its extension. -/
structure Plain (w : Watcher) (config : Option (List Rule)) (document : Text) (rule : Rule) (rq : Request) : Prop where
  read : rule ∈ rulesRead config
  source : ∀ from_, rule.from_ = some from_ → startsWith rq.servletPath (String.ofList (w.sourceOf from_)) = true
  target : ∀ to_, rule.to_ = some to_ → w.targetOf to_ = w.removeExtension document

/-- The condition on an event that is processed: the path can be cut; for a document, the web directory does not end
with a slash, the configuration is read, and a rule that leads to it from a stale page elsewhere is plain. -/
structure Processable (w : Watcher) (t : State) (path : String) : Prop where
  long : ∃ absolutePath, w.normalize path = some absolutePath ∧
    w.wwwDir.toList.length ≤ absolutePath.toList.length
  root : w.documentOf path ≠ none → w.wwwDir.toList.getLast? ≠ some '/'
  current : w.documentOf path ≠ none → .file w.configFile ∉ t.pending
  plain : ∀ document, w.documentOf path = some document → ∀ rule ∈ t.config.getD [], ∀ rq ∈ t.cache.cache.values,
    keyOf rq ∈ t.stale → w.forwardsTo document rule rq.1 = true →
    startsWith rq.1.servletPath (String.ofList (w.removeExtension document)) = false →
    Plain w t.config document rule rq.1

def Allowed (w : Watcher) (t : State) : Watcher.Step → Prop
  | .cache s => t.cache.Clearable s
  | .changed _ => True
  | .configured _ => ∀ path, .file path ∈ t.pending → w.documentOf path = none
  | .overflow lost => ∀ document ∈ lost, ∀ rq ∈ t.cache.cache.values, w.belongs t.config document rq.1 = false
  | .process i => ∀ path, t.pending[i]? = some (.file path) → path ≠ w.configFile → Processable w t path
  | .remove i => ∀ path, t.removals[i]? = some path → t.cache.events = [] ∧ ∀ rq ∈ t.cache.cache.values,
    startsWith rq.1.servletPath (String.ofList path) = true → rq.1.method = "GET"

/-! ## The rules -/

namespace Watcher

variable {w : Watcher}

theorem mem_addForward {forwardMap : ForwardMap} {to_ from_ target source : Text}
    (h : source ∈ (forwardMap target).getD [] ∨ target = to_ ∧ source = from_) :
    source ∈ (addForward forwardMap to_ from_ target).getD [] := by
  rw [addForward]
  by_cases htarget : target = to_
  · rw [if_pos htarget, Option.getD_some, List.mem_append, List.mem_singleton, ← htarget]
    exact h.imp_right fun ⟨_, hsource⟩ => hsource
  · rw [if_neg htarget]
    exact h.resolve_right fun ⟨heq, _⟩ => htarget heq

theorem mem_readRules {rules : List Rule} {forwardMap : ForwardMap} {target source : Text}
    (h : source ∈ (forwardMap target).getD [] ∨ ∃ rule ∈ rulesRead (some rules), ∃ from_ to_, rule.from_ = some from_ ∧
      rule.to_ = some to_ ∧ target = w.targetOf to_ ∧ source = w.sourceOf from_) :
    source ∈ (w.readRules forwardMap rules target).getD [] := by
  induction rules generalizing forwardMap with
  | nil => exact h.resolve_right fun ⟨_, hrule, _⟩ => List.not_mem_nil hrule
  | cons rule rules ih =>
    rw [rulesRead, Option.getD_some, List.takeWhile_cons] at h
    cases hfrom : rule.from_ with
    | none =>
      rw [hfrom] at h
      rw [readRules, hfrom]
      exact h.resolve_right fun ⟨_, hother, _⟩ => List.not_mem_nil hother
    | some from_ =>
      cases hto : rule.to_ with
      | none =>
        rw [hfrom, hto] at h
        rw [readRules, hfrom, hto]
        exact h.resolve_right fun ⟨_, hother, _⟩ => List.not_mem_nil hother
      | some to_ =>
        rw [hfrom, hto] at h
        rw [readRules, hfrom, hto]
        refine ih ?_
        rcases h with h | ⟨other, hother, from', to', hfrom', hto', htarget, hsource⟩
        · exact .inl (mem_addForward (.inl h))
        · rcases List.mem_cons.mp hother with rfl | hother
          · obtain rfl := Option.some.inj (hfrom.symm.trans hfrom')
            obtain rfl := Option.some.inj (hto.symm.trans hto')
            exact .inl (mem_addForward (.inr ⟨htarget, hsource⟩))
          · exact .inr ⟨other, hother, from', to', hfrom', hto', htarget, hsource⟩

theorem mem_readUrlRewrites {config : Option (List Rule)} {rule : Rule} (hrule : rule ∈ rulesRead config)
    {from_ to_ : String} (hfrom : rule.from_ = some from_) (hto : rule.to_ = some to_) :
    w.sourceOf from_ ∈ (w.readUrlRewrites config (w.targetOf to_)).getD [] :=
  mem_readRules (.inr ⟨rule, hrule, from_, to_, hfrom, hto, rfl, rfl⟩)

theorem complete_of_read {config : Option (List Rule)} {rule : Rule} (hrule : rule ∈ rulesRead config) :
    (∃ from_, rule.from_ = some from_) ∧ ∃ to_, rule.to_ = some to_ := by
  have hcomplete := List.mem_takeWhile_imp hrule
  rw [Bool.and_eq_true] at hcomplete
  exact ⟨Option.isSome_iff_exists.mp hcomplete.1, Option.isSome_iff_exists.mp hcomplete.2⟩

/-! ## What is removed -/

theorem removeExtension_isPrefix (path : Text) : w.removeExtension path <+: path := by
  rw [removeExtension]
  split
  · exact List.take_prefix _ _
  · exact List.prefix_refl path

theorem webRoot_eq (h : w.wwwDir.toList.getLast? ≠ some '/') : w.webRoot = w.wwwDir.toList := by
  rw [webRoot, List.rdropWhile_eq_self_iff]
  intro hne hlast
  rw [beq_iff_eq] at hlast
  exact h ((List.getLast?_eq_some_getLast hne).trans (congrArg some hlast))

theorem documentOf_eq_some {path : String} {document : Text} (h : w.documentOf path = some document) :
    path ≠ w.configFile ∧ ∃ absolutePath, w.normalize path = some absolutePath ∧
      document = absolutePath.toList.drop w.webRoot.length := by
  rw [documentOf] at h
  split at h
  · cases h
  · rename_i hpath
    obtain ⟨absolutePath, hnormalize, hdocument⟩ := Option.bind_eq_some_iff.mp h
    split at hdocument
    · exact ⟨hpath, absolutePath, hnormalize, (Option.some.inj hdocument).symm⟩
    · cases hdocument

theorem relativePathName_document {t : State} {path : String} {document : Text} (h : Processable w t path)
    (hdocument : w.documentOf path = some document) : w.relativePathName path = some (w.removeExtension document) := by
  obtain ⟨_, absolutePath, hnormalize, rfl⟩ := documentOf_eq_some hdocument
  obtain ⟨other, hother, hlong⟩ := h.long
  obtain rfl := Option.some.inj (hnormalize.symm.trans hother)
  have hroot : w.webRoot = w.wwwDir.toList := webRoot_eq (h.root (by rw [hdocument]; exact Option.some_ne_none _))
  rw [relativePathName, hnormalize, hroot]
  exact if_neg (Nat.not_lt.mpr hlong)

theorem startsWith_of_isPrefix {path : String} {front : Text} (h : front <+: path.toList) :
    startsWith path (String.ofList front) = true := by
  rw [CacheService.startsWith_iff, String.toList_ofList]
  exact h

theorem removeExtension_append (name : Text) : w.removeExtension (name ++ w.jspExtension.toList) = name := by
  rw [removeExtension, if_pos (List.isSuffixOf_iff_suffix.mpr (List.suffix_append name _)), List.length_append,
    Nat.add_sub_cancel, List.take_left]

theorem isPrefix_of_isNameOf {document name : Text} (h : w.isNameOf document name = true) :
    w.removeExtension document <+: name := by
  rw [isNameOf, Bool.or_eq_true, beq_iff_eq, beq_iff_eq] at h
  rcases h with rfl | rfl
  · exact removeExtension_isPrefix name
  · rw [removeExtension_append]

theorem isPrefix_of_isPageOf {document path : Text} (h : w.isPageOf document path = true) :
    w.removeExtension document <+: path := by
  obtain ⟨name, hmem, hname⟩ := List.any_eq_true.mp h
  exact (isPrefix_of_isNameOf (Bool.and_eq_true_iff.mp hname).1).trans ((List.mem_inits name path).mp hmem)

/-- A page of the document is under its name or under the source of a rule. -/
theorem removed_of_belongs {t : State} {path : String} {document : Text} (h : Processable w t path)
    (hdocument : w.documentOf path = some document) (hread : t.forwardMap = w.readUrlRewrites t.config)
    {rq : CacheableRequest} (hrq : rq ∈ t.cache.cache.values) (hstale : keyOf rq ∈ t.stale)
    (hbelongs : w.belongs t.config document rq.1 = true) :
    ∃ front ∈ w.removeExtension document :: (t.forwardMap (w.removeExtension document)).getD [],
      startsWith rq.1.servletPath (String.ofList front) = true := by
  rw [belongs, Bool.or_eq_true, List.any_eq_true] at hbelongs
  rcases hbelongs with hown | ⟨rule, hrule, hleads⟩
  · exact ⟨_, List.mem_cons_self, startsWith_of_isPrefix (isPrefix_of_isPageOf hown)⟩
  · cases hname : startsWith rq.1.servletPath (String.ofList (w.removeExtension document)) with
    | true => exact ⟨_, List.mem_cons_self, hname⟩
    | false =>
      have hplain := h.plain document hdocument rule hrule rq hrq hstale hleads hname
      obtain ⟨⟨from_, hfrom⟩, to_, hto⟩ := complete_of_read hplain.read
      refine ⟨w.sourceOf from_, List.mem_cons_of_mem _ ?_, hplain.source from_ hfrom⟩
      rw [hread, ← hplain.target to_ hto]
      exact mem_readUrlRewrites hplain.read hfrom hto

/-! ## Steps -/

/-- Something is to be done about a page. -/
inductive Announced (w : Watcher) (t : State) (rq : Request) : Prop where
  | pending {path : String} {document : Text} : .file path ∈ t.pending → w.documentOf path = some document →
      w.belongs t.config document rq = true → Announced w t rq
  | removal {front : Text} : front ∈ t.removals → startsWith rq.servletPath (String.ofList front) = true →
      Announced w t rq

theorem Announced.mono {t u : State} {rq : Request} (h : Announced w t rq) (hconfig : u.config = t.config)
    (hpending : ∀ event ∈ t.pending, event ∈ u.pending) (hremovals : ∀ front ∈ t.removals, front ∈ u.removals) :
    Announced w u rq := by
  cases h with
  | pending hmem hdocument hbelongs => exact .pending (hpending _ hmem) hdocument (by rwa [hconfig])
  | removal hmem hstarts => exact .removal (hremovals _ hmem) hstarts

structure Inv (w : Watcher) (t : State) : Prop where
  running : t.running = true
  covered : Covered t.cache
  read : t.forwardMap = w.readUrlRewrites t.config ∨ .file w.configFile ∈ t.pending
  announced : ∀ rq ∈ t.cache.cache.values, keyOf rq ∈ t.stale → Announced w t rq.1

theorem fresh_of_inv {t : State} (h : Inv w t) : Fresh t where
  running := h.running
  fresh hpending hremovals rq hrq hstale := by
    cases h.announced rq hrq hstale with
    | pending hmem => rw [hpending] at hmem; cases hmem
    | removal hmem => rw [hremovals] at hmem; cases hmem

theorem inv_start (config : Option (List Rule)) (useListener : Bool) : Inv w (w.start config useListener) where
  running := rfl
  covered := CacheService.State.covered_of_empty rfl
  read := .inl rfl
  announced _ _ hstale := absurd hstale List.not_mem_nil

/-- Only a request adds an entry. -/
theorem mem_cache_perform {t : CacheService.State} {s : CacheService.Step} {rq : CacheableRequest}
    (h : rq ∈ (t.perform s).cache.values) : rq ∈ t.cache.values ∨ s = .put rq := by
  cases s with
  | put other =>
    have hput : rq ∈ (t.cache.put other).values := by
      simp only [CacheService.State.perform, CacheService.State.put] at h
      split at h
      · exact h
      · rwa [CacheService.State.raise_cache] at h
    rcases Keyed.mem_put.mp hput with rfl | ⟨hrq, _⟩
    · exact .inr rfl
    · exact .inl hrq
  | remove key =>
    rw [CacheService.State.perform, CacheService.State.remove_cache] at h
    exact .inl (Keyed.mem_erase.mp h).1
  | expire key =>
    rw [CacheService.State.perform, CacheService.State.expire] at h
    split at h
    · rw [CacheService.State.raise_cache] at h
      exact .inl (Keyed.mem_erase.mp h).1
    · exact .inl h
  | evict key => exact .inl (Keyed.mem_erase.mp h).1
  | deliver =>
    rw [CacheService.State.perform, CacheService.State.deliver] at h
    split at h <;> exact .inl h
  | removeAll =>
    rw [CacheService.State.perform, CacheService.State.removeAll, CacheService.State.raise_cache] at h
    exact absurd h Keyed.not_mem_empty
  | clear =>
    simp only [CacheService.State.perform, CacheService.State.clear] at h
    split at h
    · cases hlistener : t.listener with
      | none => rw [hlistener] at h; exact .inl h
      | some keys => rw [hlistener] at h; exact .inl h
    · exact .inl h
  | expireByPrefix useCacheEntryListener cacheElementPrefix =>
    rw [CacheService.State.perform, CacheService.State.expireByPrefix, CacheService.State.foldl_remove_cache] at h
    exact .inl (Keyed.mem_filter.mp h).1

theorem inv_cache {t : State} {s : CacheService.Step} (h : Inv w t) (hallowed : t.cache.Clearable s) :
    Inv w (w.perform t (.cache s)) where
  running := h.running
  covered := (CacheService.State.covered_step h.covered s).mpr hallowed
  read := h.read
  announced rq hrq hstale := by
    have hannounced : rq ∈ t.cache.cache.values ∧ keyOf rq ∈ t.stale := by
      rcases mem_cache_perform hrq with hold | rfl
      · refine ⟨hold, ?_⟩
        cases s with
        | put => exact (List.mem_filter.mp hstale).1
        | _ => exact hstale
      · -- the page is a new one
        exact absurd (List.mem_filter.mp hstale).2 (by simp)
    exact (h.announced rq hannounced.1 hannounced.2).mono rfl (fun _ hmem => hmem) fun _ hmem => hmem

/-- A key in the cache is that of one request. -/
theorem belongs_of_mem_pagesOf {t : State} {document : Text} {rq : CacheableRequest} (hrq : rq ∈ t.cache.cache.values)
    (h : keyOf rq ∈ w.pagesOf t document) : w.belongs t.config document rq.1 = true := by
  obtain ⟨other, hother, hkey⟩ := List.mem_map.mp h
  obtain ⟨hmem, hbelongs⟩ := List.mem_filter.mp hother
  rwa [← Keyed.eq_of_key_eq hmem hrq hkey]

theorem inv_changed {t : State} (h : Inv w t) (path : String) : Inv w (w.perform t (.changed path)) where
  running := h.running
  covered := h.covered
  read := h.read.imp_right fun hmem => List.mem_append_left _ hmem
  announced rq hrq hstale := by
    rcases List.mem_append.mp hstale with hstale | hpage
    · exact (h.announced rq hrq hstale).mono rfl (fun _ => List.mem_append_left _) fun _ hmem => hmem
    · cases hdocument : w.documentOf path with
      | none =>
        rw [hdocument] at hpage
        cases hpage
      | some document =>
        rw [hdocument] at hpage
        exact .pending (List.mem_append_right _ List.mem_cons_self) hdocument (belongs_of_mem_pagesOf hrq hpage)

theorem inv_configured {t : State} (h : Inv w t) (config : Option (List Rule))
    (hnone : ∀ path, .file path ∈ t.pending → w.documentOf path = none) : Inv w (w.perform t (.configured config)) where
  running := h.running
  covered := h.covered
  read := .inr (List.mem_append_right _ List.mem_cons_self)
  announced rq hrq hstale := by
    cases h.announced rq hrq hstale with
    | pending hmem hdocument _ =>
      rw [hnone _ hmem] at hdocument
      cases hdocument
    | removal hmem hstarts => exact .removal hmem hstarts

theorem inv_overflow {t : State} (h : Inv w t) {lost : List Text}
    (hlost : ∀ document ∈ lost, ∀ rq ∈ t.cache.cache.values, w.belongs t.config document rq.1 = false) :
    Inv w (w.perform t (.overflow lost)) where
  running := h.running
  covered := h.covered
  read := h.read.imp_right fun hmem => List.mem_append_left _ hmem
  announced rq hrq hstale := by
    rcases List.mem_append.mp hstale with hstale | hpage
    · exact (h.announced rq hrq hstale).mono rfl (fun _ => List.mem_append_left _) fun _ hmem => hmem
    · obtain ⟨document, hdocument, hpage⟩ := List.mem_flatMap.mp hpage
      have hbelongs : w.belongs t.config document rq.1 = true := belongs_of_mem_pagesOf hrq hpage
      rw [hlost document hdocument rq hrq] at hbelongs
      cases hbelongs

theorem mem_eraseIdx_of_ne {α : Type} {as : List α} {i : Nat} {a b : α} (hi : as[i]? = some b) (ha : a ∈ as)
    (hne : a ≠ b) : a ∈ as.eraseIdx i := by
  obtain ⟨j, hj⟩ := List.mem_iff_getElem?.mp ha
  refine List.mem_eraseIdx_iff_getElem?.mpr ⟨j, fun heq => hne ?_, hj⟩
  rw [heq, hi] at hj
  exact (Option.some.inj hj).symm

/-- With one event less, if it was not for a document. -/
theorem announced_erase {t u : State} {i : Nat} {event : WatchEvent} {rq : Request} (hi : t.pending[i]? = some event)
    (hpending : u.pending = t.pending.eraseIdx i) (hconfig : u.config = t.config)
    (hremovals : ∀ front ∈ t.removals, front ∈ u.removals)
    (hnone : ∀ path, event = .file path → w.documentOf path = none) (h : Announced w t rq) : Announced w u rq := by
  cases h with
  | @pending path document hmem hdocument hbelongs =>
    have hleft : .file path ∈ t.pending.eraseIdx i := by
      refine mem_eraseIdx_of_ne hi hmem fun heq => ?_
      rw [hnone path heq.symm] at hdocument
      cases hdocument
    rw [← hpending] at hleft
    exact .pending hleft hdocument (by rwa [hconfig])
  | removal hmem hstarts => exact .removal (hremovals _ hmem) hstarts

theorem inv_configFile {t : State} (h : Inv w t) {i : Nat} (hi : t.pending[i]? = some (.file w.configFile)) :
    Inv w (w.processEvent { t with pending := t.pending.eraseIdx i } (.file w.configFile)) := by
  rw [processEvent, if_pos rfl]
  refine ⟨h.running, h.covered, .inl rfl, fun rq hrq hstale => ?_⟩
  refine announced_erase hi rfl rfl (fun _ hmem => hmem) (fun path heq => ?_) (h.announced rq hrq hstale)
  rw [← WatchEvent.file.inj heq]
  exact if_pos rfl

theorem inv_overflowed {t : State} (h : Inv w t) {i : Nat} (hi : t.pending[i]? = some .overflow) :
    Inv w (w.processEvent { t with pending := t.pending.eraseIdx i } .overflow) where
  running := h.running
  covered := h.covered
  read := h.read.imp_right fun hmem => mem_eraseIdx_of_ne hi hmem WatchEvent.noConfusion
  announced rq hrq hstale := announced_erase hi rfl rfl (fun _ hmem => hmem) nofun (h.announced rq hrq hstale)

theorem inv_file {t : State} (h : Inv w t) {i : Nat} {path : String} (hi : t.pending[i]? = some (.file path))
    (hpath : path ≠ w.configFile) (hprocessable : Processable w t path) :
    Inv w (w.processEvent { t with pending := t.pending.eraseIdx i } (.file path)) := by
  obtain ⟨absolutePath, hnormalize, hlong⟩ := hprocessable.long
  have hrelative : w.relativePathName path =
      some (w.removeExtension (absolutePath.toList.drop w.wwwDir.toList.length)) := by
    rw [relativePathName, hnormalize]
    exact if_neg (Nat.not_lt.mpr hlong)
  have hread : t.forwardMap = w.readUrlRewrites t.config ∨ .file w.configFile ∈ t.pending.eraseIdx i :=
    h.read.imp_right fun hmem => mem_eraseIdx_of_ne hi hmem fun heq => hpath (WatchEvent.file.inj heq).symm
  rw [processEvent, if_neg hpath, hrelative]
  refine ⟨h.running, h.covered, hread, fun rq hrq hstale => ?_⟩
  cases hdocument : w.documentOf path with
  | none =>
    refine announced_erase hi rfl rfl (fun _ hmem => List.mem_append_left _ hmem) (fun other heq => ?_)
      (h.announced rq hrq hstale)
    rw [← WatchEvent.file.inj heq, hdocument]
  | some document =>
    have hsome : w.documentOf path ≠ none := by rw [hdocument]; exact Option.some_ne_none _
    have hcurrent := h.read.resolve_right (hprocessable.current hsome)
    have hname := (relativePathName_document hprocessable hdocument).symm.trans hrelative
    cases h.announced rq hrq hstale with
    | @pending other document' hmem hdocument' hbelongs =>
      by_cases hsame : other = path
      · -- the event that is processed
        rw [hsame] at hdocument'
        obtain rfl := Option.some.inj (hdocument.symm.trans hdocument')
        obtain ⟨front, hfront, hstarts⟩ := removed_of_belongs hprocessable hdocument hcurrent hrq hstale hbelongs
        rw [Option.some.inj hname] at hfront
        exact .removal (List.mem_append_right _ hfront) hstarts
      · exact .pending (mem_eraseIdx_of_ne hi hmem fun heq => hsame (WatchEvent.file.inj heq)) hdocument' hbelongs
    | removal hmem hstarts => exact .removal (List.mem_append_left _ hmem) hstarts

theorem inv_process {t : State} (h : Inv w t) {i : Nat} (hallowed : Allowed w t (.process i)) :
    Inv w (w.perform t (.process i)) := by
  rw [perform, if_pos h.running]
  cases hi : t.pending[i]? with
  | none => exact h
  | some event =>
    cases event with
    | overflow => exact inv_overflowed h hi
    | file path =>
      by_cases hpath : path = w.configFile
      · subst hpath
        exact inv_configFile h hi
      · exact inv_file h hi hpath (hallowed path hi hpath)

theorem inv_remove {t : State} (h : Inv w t) {i : Nat} (hallowed : Allowed w t (.remove i)) :
    Inv w (w.perform t (.remove i)) := by
  rw [perform]
  cases hi : t.removals[i]? with
  | none => exact h
  | some front =>
    obtain ⟨hevents, hget⟩ := hallowed front hi
    have hexpired := (CacheService.expired_iff h.covered hevents w.useCacheEntryListener (String.ofList front)).mpr hget
    refine ⟨h.running, CacheService.State.covered_expireByPrefix h.covered _ _, h.read, fun rq hrq hstale => ?_⟩
    have hold : rq ∈ t.cache.cache.values := by
      rw [CacheService.expireByPrefix_cache h.covered hevents] at hrq
      exact (Keyed.mem_filter.mp hrq).1
    cases h.announced rq hold hstale with
    | pending hmem hdocument hbelongs => exact .pending hmem hdocument hbelongs
    | @removal other hmem hstarts =>
      refine .removal (mem_eraseIdx_of_ne hi hmem fun heq => ?_) hstarts
      rw [heq, hexpired rq hrq] at hstarts
      cases hstarts

theorem inv_perform {t : State} (h : Inv w t) {s : Step} (hallowed : Allowed w t s) : Inv w (w.perform t s) := by
  cases s with
  | cache s => exact inv_cache h hallowed
  | changed path => exact inv_changed h path
  | configured config => exact inv_configured h config hallowed
  | overflow lost => exact inv_overflow h hallowed
  | process i => exact inv_process h hallowed
  | remove i => exact inv_remove h hallowed

theorem fresh_of_run (w : Watcher) (config : Option (List Rule)) (useListener : Bool) (steps : List Step)
    (hallowed : ∀ pre s post, steps = pre ++ s :: post →
      Allowed w (pre.foldl w.perform (w.start config useListener)) s) :
    ∀ pre post, steps = pre ++ post → Fresh (pre.foldl w.perform (w.start config useListener)) := by
  intro pre post hsteps
  exact fresh_of_inv (Machine.foldl_inv_of_allowed (inv_start config useListener) (fun _ _ h hs => inv_perform h hs)
    hallowed pre post hsteps)

section Example

def suffix : String := "((\\?\\S+)?)"

def faultRule : Rule := { from_ := some ("^/de/fault" ++ suffix ++ "$"), to_ := some "/de/fehler.jsp$1" }

/-- An alternative is no beginning of a path. -/
def faultRules : Rule := { from_ := some "^/(de|en)/fault$", to_ := some "/de/fehler.jsp" }

/-- As in the documentation, without the extension. -/
def beautyRule : Rule := { from_ := some ("/a-beauty-url" ++ suffix), to_ := some "/en/an-ugly-url$1" }

def siteWatcher : Watcher where
  jspExtension := ".jsp"
  wwwDir := "/srv/site/www"
  configFile := "/srv/site/urlrewrite.xml"
  ruleSourceSuffix := suffix
  useCacheEntryListener := true
  normalize path := some path
  forwards rule rq :=
    if rq.queryString ≠ none then none
    else if rule = beautyRule then if rq.servletPath = "/a-beauty-url" then some "/en/an-ugly-url" else none
    else if rq.servletPath = "/de/fault" then some "/de/fehler.jsp" else none

def faultPage : CacheableRequest := ⟨getRequest "/de/fault" none (.inr rfl), by decide⟩

/-- With a parameter behind the name of the document. -/
def detailPage : CacheableRequest := ⟨getRequest "/de/fehler/a" none (.inr rfl), by decide⟩

def beautyPage : CacheableRequest := ⟨getRequest "/a-beauty-url" none (.inr rfl), by decide⟩

def watchedRun : List Step :=
  [.cache (.put faultPage), .cache (.put detailPage), .cache .deliver, .cache .deliver,
    .changed "/srv/site/www/de/fehler.jsp", .process 0, .remove 0, .cache .deliver, .remove 0]

theorem plain_faultRule : Plain siteWatcher (some [faultRule]) "/de/fehler.jsp".toList faultRule faultPage.1 where
  read := List.mem_singleton.mpr rfl
  source from_ hfrom := by
    obtain rfl := Option.some.inj hfrom
    decide
  target to_ hto := by
    obtain rfl := Option.some.inj hto
    decide

theorem processable_fehler {t : State} (hcurrent : .file siteWatcher.configFile ∉ t.pending)
    (hconfig : t.config = some [faultRule]) (hvalues : ∀ rq ∈ t.cache.cache.values, rq = faultPage ∨ rq = detailPage) :
    Processable siteWatcher t "/srv/site/www/de/fehler.jsp" where
  long := ⟨_, rfl, by decide⟩
  root _ := by decide
  current _ := hcurrent
  plain document hdocument rule hrule rq hrq _ hleads _ := by
    have hfehler : siteWatcher.documentOf "/srv/site/www/de/fehler.jsp" = some "/de/fehler.jsp".toList := by decide
    obtain rfl := Option.some.inj (hfehler.symm.trans hdocument)
    rw [hconfig, Option.getD_some, List.mem_singleton] at hrule
    subst hrule
    rw [hconfig]
    rcases hvalues rq hrq with rfl | rfl
    · exact plain_faultRule
    · -- the rule does not match
      exact absurd hleads (by decide)

theorem allowed_remove {t : State} {i : Nat} (hevents : t.cache.events = [])
    (hvalues : ∀ rq ∈ t.cache.cache.values, rq = faultPage ∨ rq = detailPage) : Allowed siteWatcher t (.remove i) := by
  refine fun path _ => ⟨hevents, fun rq hrq _ => ?_⟩
  rcases hvalues rq hrq with rfl | rfl
  · rfl
  · rfl

theorem watchedRun_fresh : Fresh (watchedRun.foldl siteWatcher.perform (siteWatcher.start (some [faultRule]) true)) ∧
    (watchedRun.foldl siteWatcher.perform (siteWatcher.start (some [faultRule]) true)).cache.cache.values = [] := by
  refine ⟨?_, by decide +kernel⟩
  refine fresh_of_run siteWatcher (some [faultRule]) true watchedRun ?_ watchedRun [] (List.append_nil _).symm
  rw [watchedRun]
  simp only [Loop.forall_split_cons]
  refine ⟨trivial, trivial, trivial, trivial, trivial, ?_, ?_, trivial, ?_, by simp⟩
  · intro path hpending _
    have hpath : some (WatchEvent.file "/srv/site/www/de/fehler.jsp") = some (.file path) := hpending
    rw [← WatchEvent.file.inj (Option.some.inj hpath)]
    exact processable_fehler (by decide) rfl (by decide +kernel)
  · exact allowed_remove (by decide +kernel) (by decide +kernel)
  · exact allowed_remove (by decide +kernel) (by decide +kernel)

/-- The pages are still cached though nothing is left to do: after an overflow, with an alternative in a rule, and with
the rule of the documentation. After a change next to the configuration the loop has ended. -/
theorem fault_stays :
    (let t := ([.cache (.put faultPage), .overflow ["/de/fehler.jsp".toList], .process 0] : List Step).foldl
      siteWatcher.perform (siteWatcher.start (some [faultRule]) true)
    t.pending = [] ∧ t.removals = [] ∧ t.cache.cache.values = [faultPage] ∧ t.stale = ["GET/de/fault"]) ∧
    (([.changed "/srv/site/a", .process 0] : List Step).foldl siteWatcher.perform
      (siteWatcher.start (some [faultRule]) true)).running = false ∧
    (let t := ([.cache (.put faultPage), .cache .deliver, .changed "/srv/site/www/de/fehler.jsp", .process 0,
        .remove 0, .remove 0] : List Step).foldl siteWatcher.perform (siteWatcher.start (some [faultRules]) true)
    t.pending = [] ∧ t.removals = [] ∧ t.cache.cache.values = [faultPage] ∧ t.stale = ["GET/de/fault"]) ∧
    (let t := ([.cache (.put beautyPage), .cache .deliver, .changed "/srv/site/www/en/an-ugly-url.jsp", .process 0,
        .remove 0] : List Step).foldl siteWatcher.perform (siteWatcher.start (some [beautyRule]) true)
    t.pending = [] ∧ t.removals = [] ∧ t.cache.cache.values = [beautyPage] ∧ t.stale = ["GET/a-beauty-url"]) ∧
    ¬ ∀ (w : Watcher) (config : Option (List Rule)) (useListener : Bool) (steps : List Step),
      Fresh (steps.foldl w.perform (w.start config useListener)) := by
  refine ⟨by decide +kernel, by decide +kernel, by decide +kernel, by decide +kernel, fun h => ?_⟩
  have hrunning := (h siteWatcher (some [faultRule]) true [.changed "/srv/site/a", .process 0]).running
  exact absurd hrunning (by decide +kernel)

end Example

end Watcher

end RepositoryWatcher
end Cache
end AppNG
