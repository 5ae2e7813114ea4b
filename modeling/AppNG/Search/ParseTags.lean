import AppNG.Lib.JavaString
import AppNG.Lib.Words
import Mathlib.Logic.Function.Basic

/-!
# Search.ParseTags

`ParseTags.parse`: the texts below the searchable tags of a page, by the fields that the tags name.

All searchable tags are visited in document order, also those below other ones, and the nodes that are not indexed
are collected in one list on the way.

* `appendChildren_spec`: what is collected below a tag, and which nodes are skipped from then on.
* `visit_spec`: the tags that are visited are those without a tag above them that is not indexed.
* `lookup_parse`: the text of a field.
* `indexes_page_iff`: when its words are those of its tags.
-/

namespace AppNG
namespace Search
namespace ParseTags

open Words

/-! ## Documents -/

/-- The attributes are those that are read, empty where they are missing. -/
structure Element where
  nodeName : String
  index : String
  field : String
  deriving DecidableEq, Repr

/-- Sibling nodes with what is below them. Nodes are told apart by their numbers. -/
inductive Nodes where
  | nil
  | element (id : Nat) (e : Element) (childNodes next : Nodes)
  | text (id : Nat) (text : String) (next : Nodes)
  | other (id : Nat) (next : Nodes)
  deriving DecidableEq, Repr

def Nodes.ids : Nodes → List Nat
  | .nil => []
  | .element id _ childNodes next => id :: (childNodes.ids ++ next.ids)
  | .text id _ next => id :: next.ids
  | .other id next => id :: next.ids

structure Document where
  nodes : Nodes
  nodup : nodes.ids.Nodup

/-- `TextNode.toString`, as far as it depends on the text and not on what is around it, and
`StringEscapeUtils.unescapeHtml4`. -/
structure Html where
  toString : String → String
  unescapeHtml4 : String → String

def NBSP : Char := '\u00a0'
def BLANK : Char := ' '

/-- The characters that `trim` cuts off. -/
def isWhite (c : Char) : Bool := c.toNat ≤ 0x20

/-- `replace(NBSP, BLANK)`. -/
def blanks (text : List Char) : List Char := text.map fun c => if c = NBSP then BLANK else c

def equalsIgnoreCase (s t : String) : Bool := Java.toLowerCase s == Java.toLowerCase t

/-! ## The code -/

section Code

variable (tagPrefix : String) (html : Html)

def isSearchable (e : Element) : Bool := equalsIgnoreCase e.nodeName (tagPrefix ++ ":searchable")

/-- `above` are the parents of the element. -/
def doIndex (skipped above : List Nat) (e : Element) : Bool :=
  let skip := above.any skipped.contains
  !skip && (!isSearchable tagPrefix e || equalsIgnoreCase "true" e.index)

/-- The shared list, and the text so far. -/
structure State where
  skipped : List Nat
  content : List Char

def skip (id : Nat) (st : State) : State :=
  if id ∈ st.skipped then st else { st with skipped := st.skipped ++ [id] }

/-- `content.lastIndexOf(" ") == content.length() - 1`, which holds for an empty text as well. -/
def endsBlank (content : List Char) : Bool := content.getLast?.all (· == ' ')

def appendText (content : List Char) (text : String) : List Char :=
  let content := if endsBlank content then content else content ++ [' ']
  content ++ blanks (Java.trim (html.unescapeHtml4 (html.toString text)))

/-- The loop over child nodes in `append`. A node that is not an element is never indexed. -/
def appendChildren (above : List Nat) : Nodes → State → State
  | .nil, st => st
  | .element id e childNodes next, st =>
    appendChildren above next
      (if id ∈ st.skipped then st
      else if doIndex tagPrefix st.skipped above e then appendChildren (id :: above) childNodes st
      else skip id st)
  | .text id text next, st =>
    appendChildren above next (skip id { st with content := appendText html st.content text })
  | .other id next, st => appendChildren above next (skip id st)

/-- An element of the document, with its parents. -/
structure Located where
  above : List Nat
  id : Nat
  element : Element
  childNodes : Nodes

def append (node : Located) (st : State) : State × Bool :=
  if node.id ∈ st.skipped then (st, false)
  else if doIndex tagPrefix st.skipped node.above node.element then
    (appendChildren tagPrefix html (node.id :: node.above) node.childNodes st, true)
  else (skip node.id st, false)

/-- In document order. -/
def getElementsByTag (above : List Nat) : Nodes → List Located
  | .nil => []
  | .element id e childNodes next =>
    (if isSearchable tagPrefix e then [⟨above, id, e, childNodes⟩] else []) ++
      (getElementsByTag (id :: above) childNodes ++ getElementsByTag above next)
  | .text _ _ next => getElementsByTag above next
  | .other _ next => getElementsByTag above next

abbrev FieldMap := String → Option (List Char)

def put (fieldMap : FieldMap) (field : String) (content : List Char) : FieldMap :=
  match fieldMap field with
  | none => Function.update fieldMap field (some content)
  | some existingBuffer => Function.update fieldMap field (some (existingBuffer ++ strip isWhite content))

/-- One turn of the loop in `parse`. -/
def visit (st : List Nat × FieldMap) (node : Located) : List Nat × FieldMap :=
  let result := append tagPrefix html node { skipped := st.1, content := [] }
  (result.1.skipped, if result.2 then put st.2 node.element.field result.1.content else st.2)

def parse (doc : Document) : FieldMap :=
  ((getElementsByTag tagPrefix [] doc.nodes).foldl (visit tagPrefix html) ([], fun _ => none)).2

end Code

/-! ## What is searchable -/

section Searchable

variable (tagPrefix : String) (html : Html)

/-- A searchable tag that is not indexed, and hides what is below it. -/
def hides (e : Element) : Bool := isSearchable tagPrefix e && !equalsIgnoreCase "true" e.index

/-- The text nodes with nothing above them that hides them. -/
def visible : Nodes → List String
  | .nil => []
  | .element _ e childNodes next => (if hides tagPrefix e then [] else visible childNodes) ++ visible next
  | .text _ text next => text :: visible next
  | .other _ next => visible next

/-- The searchable tags that are indexed, with nothing above them that hides them. -/
def tags : Nodes → List (Element × Nodes)
  | .nil => []
  | .element _ e childNodes next =>
    (if hides tagPrefix e then []
      else (if isSearchable tagPrefix e then [(e, childNodes)] else []) ++ tags childNodes) ++ tags next
  | .text _ _ next => tags next
  | .other _ next => tags next

def tagsOf (doc : Document) (field : String) : List (Element × Nodes) :=
  (tags tagPrefix doc.nodes).filter fun tag => tag.1.field == field

/-- A non-breaking space is white space, too. -/
def textWords (text : String) : List (List Char) := words isWhite (blanks text.toList)

def tagWords (tag : Element × Nodes) : List (List Char) := (visible tagPrefix tag.2).flatMap textWords

/-- The entry of a field: the words of its tags, if it has any. -/
def Indexes (doc : Document) (field : String) : Prop :=
  match parse tagPrefix html doc field with
  | none => tagsOf tagPrefix doc field = []
  | some text => tagsOf tagPrefix doc field ≠ [] ∧
      words isWhite text = (tagsOf tagPrefix doc field).flatMap (tagWords tagPrefix)

/-- The last text below a tag ends in a word, and not in a non-breaking space or with white space only. -/
def endsInText (tag : Element × Nodes) : Bool :=
  (visible tagPrefix tag.2).getLast?.any fun text =>
    endsInWord isWhite (blanks (Java.trim (html.unescapeHtml4 (html.toString text))))

/-- Behind the first tag of a field only one has words, and none if the first one ends in a word. -/
def Separate (doc : Document) (field : String) : Prop :=
  match tagsOf tagPrefix doc field with
  | [] => True
  | first :: others => others.countP (fun tag => !(tagWords tagPrefix tag).isEmpty) ≤
      if endsInText tagPrefix html first = true then 0 else 1

end Searchable

/-! ## Below one tag -/

section Below

variable {tagPrefix : String} {html : Html} {above skipped : List Nat} {nodes : Nodes} {e : Element} {st : State}

/-- The elements that are gone through, and the other nodes that are met on the way. -/
def opened (tagPrefix : String) : Nodes → List Nat
  | .nil => []
  | .element id e childNodes next =>
    (if hides tagPrefix e then [] else id :: opened tagPrefix childNodes) ++ opened tagPrefix next
  | .text _ _ next => opened tagPrefix next
  | .other _ next => opened tagPrefix next

def closed (tagPrefix : String) : Nodes → List Nat
  | .nil => []
  | .element id e childNodes next =>
    (if hides tagPrefix e then [id] else closed tagPrefix childNodes) ++ closed tagPrefix next
  | .text id _ next => id :: closed tagPrefix next
  | .other id next => id :: closed tagPrefix next

theorem opened_subset : opened tagPrefix nodes ⊆ nodes.ids := by
  induction nodes with
  | nil => exact List.Subset.refl _
  | element id e childNodes next ihBelow ihNext =>
    intro i hi
    simp only [opened, Nodes.ids, List.mem_append, List.mem_cons] at hi ⊢
    rcases hi with hi | hi
    · split at hi
      · cases hi
      · exact (List.mem_cons.mp hi).imp_right fun h => Or.inl (ihBelow h)
    · exact Or.inr (Or.inr (ihNext hi))
  | text id text next ih => exact List.subset_cons_of_subset id ih
  | other id next ih => exact List.subset_cons_of_subset id ih

theorem closed_subset : closed tagPrefix nodes ⊆ nodes.ids := by
  induction nodes with
  | nil => exact List.Subset.refl _
  | element id e childNodes next ihBelow ihNext =>
    intro i hi
    simp only [closed, Nodes.ids, List.mem_append, List.mem_cons] at hi ⊢
    rcases hi with hi | hi
    · split at hi
      · exact Or.inl (List.mem_singleton.mp hi)
      · exact Or.inr (Or.inl (ihBelow hi))
    · exact Or.inr (Or.inr (ihNext hi))
  | text id text next ih => exact List.cons_subset_cons id ih
  | other id next ih => exact List.cons_subset_cons id ih

theorem mem_skip (st : State) (id : Nat) {i : Nat} : i ∈ (skip id st).skipped ↔ i ∈ st.skipped ∨ i = id := by
  unfold skip
  split
  · rename_i h
    exact ⟨Or.inl, fun hi => hi.elim (fun hmem => hmem) fun heq => heq ▸ h⟩
  · simp

theorem content_skip {id : Nat} : (skip id st).content = st.content := by
  unfold skip
  split <;> rfl

/-- With nothing skipped above it, an element is indexed unless it hides what is below it. -/
theorem doIndex_open (tagPrefix : String) (e : Element) (h : ∀ a ∈ above, a ∉ skipped) :
    doIndex tagPrefix skipped above e = !hides tagPrefix e := by
  have hskip : above.any skipped.contains = false := by simpa using h
  rw [doIndex, hskip, hides]
  cases isSearchable tagPrefix e <;> simp

theorem doIndex_hidden (h : ∃ a ∈ above, a ∈ skipped) : doIndex tagPrefix skipped above e = false := by
  have hskip : above.any skipped.contains = true := by simpa using h
  rw [doIndex, hskip]
  rfl

/-- Nothing that is not hidden is skipped: neither above the nodes nor among them. -/
structure Clear (tagPrefix : String) (above : List Nat) (nodes : Nodes) (skipped : List Nat) : Prop where
  nodup : nodes.ids.Nodup
  above_not_mem : ∀ a ∈ above, a ∉ nodes.ids
  above_clear : ∀ a ∈ above, a ∉ skipped
  opened_clear : ∀ i ∈ opened tagPrefix nodes, i ∉ skipped

namespace Clear

variable {id : Nat} {text : String} {childNodes next : Nodes} {skipped' : List Nat}

/-- Other nodes may be skipped. -/
theorem mono (h : Clear tagPrefix above nodes skipped)
    (hnew : ∀ i ∈ skipped', i ∈ skipped ∨ i ∉ nodes.ids ∧ i ∉ above) : Clear tagPrefix above nodes skipped' where
  nodup := h.nodup
  above_not_mem := h.above_not_mem
  above_clear a ha hmem := (hnew a hmem).elim (h.above_clear a ha) fun hnot => hnot.2 ha
  opened_clear i hi hmem := (hnew i hmem).elim (h.opened_clear i hi) fun hnot => hnot.1 (opened_subset hi)

/-- Behind a node without others below it. -/
theorem leaf (h : Clear tagPrefix above nodes skipped) (hids : nodes.ids = id :: next.ids)
    (hopened : opened tagPrefix nodes = opened tagPrefix next) : Clear tagPrefix above next skipped where
  nodup := by
    have hnodup := h.nodup
    rw [hids] at hnodup
    exact (List.nodup_cons.mp hnodup).2
  above_not_mem a ha hmem := h.above_not_mem a ha (hids ▸ List.mem_cons_of_mem id hmem)
  above_clear := h.above_clear
  opened_clear i hi := h.opened_clear i (hopened ▸ hi)

theorem leaf_skip (h : Clear tagPrefix above nodes skipped) (hids : nodes.ids = id :: next.ids)
    (hopened : opened tagPrefix nodes = opened tagPrefix next) (hnew : ∀ i ∈ skipped', i ∈ skipped ∨ i = id) :
    Clear tagPrefix above next skipped' := by
  have hnodup := h.nodup
  rw [hids] at hnodup
  refine (h.leaf hids hopened).mono fun i hi => (hnew i hi).imp_right ?_
  rintro rfl
  exact ⟨(List.nodup_cons.mp hnodup).1, fun ha => h.above_not_mem i ha (hids ▸ List.mem_cons_self)⟩

variable (h : Clear tagPrefix above (.element id e childNodes next) skipped)
include h

theorem beside : Clear tagPrefix above next skipped where
  nodup := (List.nodup_append.mp (List.nodup_cons.mp h.nodup).2).2.1
  above_not_mem a ha hmem := h.above_not_mem a ha (List.mem_cons_of_mem id (List.mem_append_right _ hmem))
  above_clear := h.above_clear
  opened_clear i hi := h.opened_clear i (List.mem_append_right _ hi)

theorem below (hhides : hides tagPrefix e = false) : Clear tagPrefix (id :: above) childNodes skipped := by
  obtain ⟨hid, hrest⟩ := List.nodup_cons.mp h.nodup
  have hopened : ∀ i ∈ id :: opened tagPrefix childNodes, i ∉ skipped := by
    intro i hi
    refine h.opened_clear i (List.mem_append_left _ ?_)
    rw [if_neg (Bool.eq_false_iff.mp hhides)]
    exact hi
  refine ⟨(List.nodup_append.mp hrest).1, ?_, ?_, fun i hi => hopened i (List.mem_cons_of_mem id hi)⟩
  · intro a ha hmem
    rcases List.mem_cons.mp ha with rfl | ha
    · exact hid (List.mem_append_left _ hmem)
    · exact h.above_not_mem a ha (List.mem_cons_of_mem id (List.mem_append_left _ hmem))
  · intro a ha
    rcases List.mem_cons.mp ha with rfl | ha
    · exact hopened a List.mem_cons_self
    · exact h.above_clear a ha

/-- What belongs to the element is neither beside nor above it. -/
theorem apart {i : Nat} (hi : i ∈ id :: childNodes.ids) : i ∉ next.ids ∧ i ∉ above := by
  obtain ⟨hid, hrest⟩ := List.nodup_cons.mp h.nodup
  have hmem : i ∈ (Nodes.element id e childNodes next).ids := by
    rcases List.mem_cons.mp hi with rfl | hi
    · exact List.mem_cons_self
    · exact List.mem_cons_of_mem id (List.mem_append_left _ hi)
  refine ⟨fun hnext => ?_, fun ha => h.above_not_mem i ha hmem⟩
  rcases List.mem_cons.mp hi with rfl | hi
  · exact hid (List.mem_append_right _ hnext)
  · exact (List.nodup_append.mp hrest).2.2 i hi i hnext rfl

end Clear

/-- What the loop over the nodes below an indexed element leaves behind. -/
theorem appendChildren_spec (html : Html) : ∀ {above : List Nat} (st : State), Clear tagPrefix above nodes st.skipped →
    (appendChildren tagPrefix html above nodes st).content =
        (visible tagPrefix nodes).foldl (appendText html) st.content ∧
      ∀ i, i ∈ (appendChildren tagPrefix html above nodes st).skipped ↔
        i ∈ st.skipped ∨ i ∈ closed tagPrefix nodes := by
  induction nodes with
  | nil => exact fun _ _ => ⟨rfl, by simp [appendChildren, closed]⟩
  | text id text next ih =>
    intro above st h
    have hclear := h.leaf_skip rfl rfl fun i => (mem_skip { st with content := appendText html st.content text } id).mp
    obtain ⟨hcontent, hskipped⟩ := ih _ hclear
    rw [appendChildren, hcontent, content_skip]
    refine ⟨rfl, fun i => ?_⟩
    rw [hskipped, mem_skip, closed, List.mem_cons, or_assoc]
  | other id next ih =>
    intro above st h
    have hclear := h.leaf_skip rfl rfl fun i => (mem_skip st id).mp
    obtain ⟨hcontent, hskipped⟩ := ih _ hclear
    rw [appendChildren, hcontent, content_skip]
    refine ⟨rfl, fun i => ?_⟩
    rw [hskipped, mem_skip, closed, List.mem_cons, or_assoc]
  | element id e childNodes next ihBelow ihNext =>
    intro above st h
    have hindex := doIndex_open tagPrefix e h.above_clear
    rw [appendChildren]
    by_cases hhides : hides tagPrefix e = true
    · have hstep : (if id ∈ st.skipped then st
          else if doIndex tagPrefix st.skipped above e then appendChildren tagPrefix html (id :: above) childNodes st
          else skip id st) = skip id st := by
        rw [hindex, hhides]
        unfold skip
        split <;> rfl
      have hclear : Clear tagPrefix above next (skip id st).skipped := by
        refine h.beside.mono fun i hi => ((mem_skip st id).mp hi).imp_right ?_
        rintro rfl
        exact h.apart List.mem_cons_self
      obtain ⟨hcontent, hskipped⟩ := ihNext _ hclear
      rw [hstep, hcontent, content_skip, visible, closed, if_pos hhides, if_pos hhides]
      refine ⟨rfl, fun i => ?_⟩
      rw [hskipped, mem_skip, List.mem_append, List.mem_singleton, or_assoc]
    · have hhides' := Bool.eq_false_iff.mpr hhides
      have hbelow := h.below hhides'
      have hid : id ∉ st.skipped := hbelow.above_clear id List.mem_cons_self
      obtain ⟨hcontentBelow, hskippedBelow⟩ := ihBelow _ hbelow
      have hclear : Clear tagPrefix above next (appendChildren tagPrefix html (id :: above) childNodes st).skipped :=
        h.beside.mono fun i hi => ((hskippedBelow i).mp hi).imp_right fun hmem =>
          h.apart (List.mem_cons_of_mem id (closed_subset hmem))
      obtain ⟨hcontent, hskipped⟩ := ihNext _ hclear
      rw [if_neg hid, hindex, hhides', Bool.not_false, if_pos rfl, hcontent, hcontentBelow, visible, closed,
        if_neg hhides, if_neg hhides, List.foldl_append]
      refine ⟨rfl, fun i => ?_⟩
      rw [hskipped, hskippedBelow, List.mem_append, or_assoc]

theorem not_closed_of_opened (hnodup : nodes.ids.Nodup) {i : Nat} (hi : i ∈ opened tagPrefix nodes) :
    i ∉ closed tagPrefix nodes := by
  induction nodes with
  | nil => cases hi
  | text id text next ih =>
    obtain ⟨hid, hnext⟩ := List.nodup_cons.mp hnodup
    intro hmem
    rcases List.mem_cons.mp hmem with rfl | hmem
    · exact hid (opened_subset hi)
    · exact ih hnext hi hmem
  | other id next ih =>
    obtain ⟨hid, hnext⟩ := List.nodup_cons.mp hnodup
    intro hmem
    rcases List.mem_cons.mp hmem with rfl | hmem
    · exact hid (opened_subset hi)
    · exact ih hnext hi hmem
  | element id e childNodes next ihBelow ihNext =>
    obtain ⟨hid, hrest⟩ := List.nodup_cons.mp hnodup
    obtain ⟨hbelow, hnext, hapart⟩ := List.nodup_append.mp hrest
    have hidNext : id ∉ next.ids := fun h => hid (List.mem_append_right _ h)
    simp only [opened, closed, List.mem_append] at hi ⊢
    by_cases hhides : hides tagPrefix e = true
    · rw [if_pos hhides] at hi ⊢
      have hi := hi.resolve_left List.not_mem_nil
      rintro (hmem | hmem)
      · rw [List.mem_singleton.mp hmem] at hi
        exact hidNext (opened_subset hi)
      · exact ihNext hnext hi hmem
    · rw [if_neg hhides] at hi ⊢
      rintro (hmem | hmem)
      · rcases hi with hi | hi
        · rcases List.mem_cons.mp hi with rfl | hi
          · exact hid (List.mem_append_left _ (closed_subset hmem))
          · exact ihBelow hbelow hi hmem
        · exact hapart i (closed_subset hmem) i (opened_subset hi) rfl
      · rcases hi with hi | hi
        · rcases List.mem_cons.mp hi with rfl | hi
          · exact hidNext (closed_subset hmem)
          · exact hapart i (opened_subset hi) i (closed_subset hmem) rfl
        · exact ihNext hnext hi hmem

/-- What a pass over the nodes skips does not hide anything from a second one. -/
theorem Clear.again (h : Clear tagPrefix above nodes skipped) {skipped' : List Nat}
    (hnew : ∀ i ∈ skipped', i ∈ skipped ∨ i ∈ closed tagPrefix nodes) : Clear tagPrefix above nodes skipped' where
  nodup := h.nodup
  above_not_mem := h.above_not_mem
  above_clear a ha hmem := (hnew a hmem).elim (h.above_clear a ha) fun hc => h.above_not_mem a ha (closed_subset hc)
  opened_clear i hi hmem := (hnew i hmem).elim (h.opened_clear i hi) (not_closed_of_opened h.nodup hi)

end Below

/-! ## All tags -/

section Visits

variable {tagPrefix : String} {html : Html} {above skipped : List Nat} {nodes : Nodes} {m : FieldMap}

/-- The text that is collected for a tag. -/
def contentOf (tagPrefix : String) (html : Html) (tag : Element × Nodes) : List Char :=
  (visible tagPrefix tag.2).foldl (appendText html) []

/-- Visits that only skip nodes among some others. -/
structure Skips (skipped skipped' ids : List Nat) : Prop where
  subset : skipped ⊆ skipped'
  new : ∀ i ∈ skipped', i ∈ skipped ∨ i ∈ ids

theorem Skips.refl (skipped ids : List Nat) : Skips skipped skipped ids := ⟨List.Subset.refl _, fun _ => Or.inl⟩

theorem Skips.trans {a b c ids ids' : List Nat} (h : Skips a b ids) (h' : Skips b c ids') :
    Skips a c (ids ++ ids') where
  subset := List.Subset.trans h.subset h'.subset
  new i hi := by
    rw [List.mem_append, ← or_assoc]
    exact (h'.new i hi).imp_left (h.new i)

theorem Skips.mono {a b ids ids' : List Nat} (h : Skips a b ids) (hsub : ids ⊆ ids') : Skips a b ids' where
  subset := h.subset
  new i hi := (h.new i hi).imp_right (hsub ·)

theorem Skips.skip (st : State) (id : Nat) : Skips st.skipped (skip id st).skipped [id] where
  subset _ hi := (mem_skip st id).mpr (Or.inl hi)
  new _ hi := ((mem_skip st id).mp hi).imp_right fun h => List.mem_singleton.mpr h

/-- A tag that is not indexed, or is below one that is not, is skipped. -/
theorem visit_skips (html : Html) (m : FieldMap) (node : Located)
    (h : node.id ∈ skipped ∨ doIndex tagPrefix skipped node.above node.element = false) :
    ∃ skipped', visit tagPrefix html (skipped, m) node = (skipped', m) ∧ node.id ∈ skipped' ∧
      Skips skipped skipped' [node.id] := by
  have happend : append tagPrefix html node { skipped, content := [] } =
      (skip node.id { skipped, content := [] }, false) := by
    unfold append skip
    by_cases hid : node.id ∈ skipped
    · rw [if_pos hid, if_pos hid]
    · rw [if_neg hid, if_neg hid, h.resolve_left hid]
      rfl
  refine ⟨(skip node.id { skipped, content := [] }).skipped, ?_, (mem_skip _ node.id).mpr (Or.inr rfl), ?_⟩
  · rw [visit, happend]
    rfl
  · exact Skips.skip { skipped, content := [] } node.id

/-- Below a tag that is skipped nothing is indexed. -/
theorem visit_hidden (tagPrefix : String) (html : Html) (nodes : Nodes) :
    ∀ {above skipped : List Nat} {m : FieldMap}, (∃ a ∈ above, a ∈ skipped) →
    ∃ skipped', (getElementsByTag tagPrefix above nodes).foldl (visit tagPrefix html) (skipped, m) = (skipped', m) ∧
      Skips skipped skipped' nodes.ids := by
  induction nodes with
  | nil => exact fun {_ skipped _} _ => ⟨skipped, rfl, Skips.refl _ _⟩
  | text id text next ih =>
    intro above skipped m h
    obtain ⟨skipped', hfold, hskips⟩ := ih (m := m) h
    exact ⟨skipped', hfold, (Skips.refl skipped [id]).trans hskips⟩
  | other id next ih =>
    intro above skipped m h
    obtain ⟨skipped', hfold, hskips⟩ := ih (m := m) h
    exact ⟨skipped', hfold, (Skips.refl skipped [id]).trans hskips⟩
  | element id e childNodes next ihBelow ihNext =>
    intro above skipped m h
    have hfirst : ∃ skipped₁, (if isSearchable tagPrefix e then [⟨above, id, e, childNodes⟩] else []).foldl
        (visit tagPrefix html) (skipped, m) = (skipped₁, m) ∧ Skips skipped skipped₁ [id] := by
      split
      · obtain ⟨skipped₁, hvisit, _, hskips⟩ :=
          visit_skips html m ⟨above, id, e, childNodes⟩ (Or.inr (doIndex_hidden h))
        exact ⟨skipped₁, hvisit, hskips⟩
      · exact ⟨skipped, rfl, Skips.refl _ _⟩
    obtain ⟨skipped₁, hfold₁, hskips₁⟩ := hfirst
    obtain ⟨a, ha, hmem⟩ := h
    obtain ⟨skipped₂, hfold₂, hskips₂⟩ := ihBelow (m := m) ⟨a, List.mem_cons_of_mem id ha, hskips₁.subset hmem⟩
    obtain ⟨skipped₃, hfold₃, hskips₃⟩ := ihNext (m := m) ⟨a, ha, hskips₂.subset (hskips₁.subset hmem)⟩
    refine ⟨skipped₃, ?_, ?_⟩
    · rw [getElementsByTag, List.foldl_append, List.foldl_append, hfold₁, hfold₂, hfold₃]
    · exact hskips₁.trans (hskips₂.trans hskips₃)

def putTag (tagPrefix : String) (html : Html) (m : FieldMap) (tag : Element × Nodes) : FieldMap :=
  put m tag.1.field (contentOf tagPrefix html tag)

/-- An indexed tag is put under its field. -/
theorem visit_indexed (html : Html) (m : FieldMap) {id : Nat} {e : Element} {childNodes : Nodes} (hid : id ∉ skipped)
    (habove : ∀ a ∈ above, a ∉ skipped) (hhides : hides tagPrefix e = false)
    (hbelow : Clear tagPrefix (id :: above) childNodes skipped) :
    ∃ skipped', visit tagPrefix html (skipped, m) ⟨above, id, e, childNodes⟩ =
        (skipped', putTag tagPrefix html m (e, childNodes)) ∧
      ∀ i, i ∈ skipped' ↔ i ∈ skipped ∨ i ∈ closed tagPrefix childNodes := by
  obtain ⟨hcontent, hskipped⟩ := appendChildren_spec html { skipped, content := [] } hbelow
  refine ⟨_, ?_, hskipped⟩
  have hindex : doIndex tagPrefix skipped above e = true := by
    rw [doIndex_open tagPrefix e habove, hhides]
    rfl
  simp only [visit, append]
  rw [if_neg hid, hindex]
  show (_, put m e.field (appendChildren tagPrefix html (id :: above) childNodes _).content) = _
  rw [hcontent]
  rfl

/-- The tags with nothing above them that hides them are put, in their order. -/
theorem visit_spec (html : Html) : ∀ {above skipped : List Nat} {m : FieldMap}, Clear tagPrefix above nodes skipped →
    ∃ skipped', (getElementsByTag tagPrefix above nodes).foldl (visit tagPrefix html) (skipped, m) =
        (skipped', (tags tagPrefix nodes).foldl (putTag tagPrefix html) m) ∧ Skips skipped skipped' nodes.ids := by
  induction nodes with
  | nil => exact fun {_ skipped _} _ => ⟨skipped, rfl, Skips.refl _ _⟩
  | text id text next ih =>
    intro above skipped m h
    obtain ⟨skipped', hfold, hskips⟩ := ih (m := m) (h.leaf rfl rfl)
    exact ⟨skipped', hfold, (Skips.refl skipped [id]).trans hskips⟩
  | other id next ih =>
    intro above skipped m h
    obtain ⟨skipped', hfold, hskips⟩ := ih (m := m) (h.leaf rfl rfl)
    exact ⟨skipped', hfold, (Skips.refl skipped [id]).trans hskips⟩
  | element id e childNodes next ihBelow ihNext =>
    intro above skipped m h
    -- the element itself and what is below it, with what it leaves behind
    have hown : ∃ skipped₂, (getElementsByTag tagPrefix (id :: above) childNodes).foldl (visit tagPrefix html)
          ((if isSearchable tagPrefix e then [⟨above, id, e, childNodes⟩] else []).foldl (visit tagPrefix html)
            (skipped, m)) =
        (skipped₂, (if hides tagPrefix e then []
          else (if isSearchable tagPrefix e then [(e, childNodes)] else []) ++ tags tagPrefix childNodes).foldl
            (putTag tagPrefix html) m) ∧ Skips skipped skipped₂ (id :: childNodes.ids) := by
      by_cases hhides : hides tagPrefix e = true
      · have hsearchable : isSearchable tagPrefix e = true := by
          rw [hides, Bool.and_eq_true] at hhides
          exact hhides.1
        have hindex : doIndex tagPrefix skipped above e = false := by
          rw [doIndex_open tagPrefix e h.above_clear, hhides]
          rfl
        obtain ⟨skipped₁, hvisit, hid, hskips₁⟩ := visit_skips html m ⟨above, id, e, childNodes⟩ (Or.inr hindex)
        obtain ⟨skipped₂, hfold, hskips₂⟩ :=
          visit_hidden tagPrefix html childNodes (m := m) ⟨id, List.mem_cons_self, hid⟩
        refine ⟨skipped₂, ?_, hskips₁.trans hskips₂⟩
        rw [if_pos hsearchable, if_pos hhides, List.foldl_cons, List.foldl_nil, hvisit]
        exact hfold
      · have hhides' := Bool.eq_false_iff.mpr hhides
        have hbelow := h.below hhides'
        have hid : id ∉ skipped := hbelow.above_clear id List.mem_cons_self
        rw [if_neg hhides, List.foldl_append]
        by_cases hsearchable : isSearchable tagPrefix e = true
        · obtain ⟨skipped₁, hvisit, hskipped₁⟩ := visit_indexed html m hid h.above_clear hhides' hbelow
          obtain ⟨skipped₂, hfold, hskips₂⟩ := ihBelow (m := putTag tagPrefix html m (e, childNodes))
            (hbelow.again fun i => (hskipped₁ i).mp)
          have hskips₁ : Skips skipped skipped₁ childNodes.ids :=
            ⟨fun i hi => (hskipped₁ i).mpr (Or.inl hi), fun i hi => ((hskipped₁ i).mp hi).imp_right (closed_subset ·)⟩
          refine ⟨skipped₂, ?_, (hskips₁.trans hskips₂).mono ?_⟩
          · rw [if_pos hsearchable, if_pos hsearchable, List.foldl_cons, List.foldl_nil, hvisit]
            exact hfold
          · intro i hi
            exact List.mem_cons_of_mem id ((List.mem_append.mp hi).elim (fun h => h) fun h => h)
        · obtain ⟨skipped₂, hfold, hskips₂⟩ := ihBelow (m := m) hbelow
          rw [if_neg hsearchable, if_neg hsearchable]
          exact ⟨skipped₂, hfold, (Skips.refl skipped [id]).trans hskips₂⟩
    obtain ⟨skipped₂, hfold₂, hskips₂⟩ := hown
    have hnext : Clear tagPrefix above next skipped₂ :=
      h.beside.mono fun i hi => (hskips₂.new i hi).imp_right h.apart
    obtain ⟨skipped₃, hfold₃, hskips₃⟩ := ihNext (m := _) hnext
    refine ⟨skipped₃, ?_, hskips₂.trans hskips₃⟩
    rw [getElementsByTag, List.foldl_append, List.foldl_append, hfold₂, hfold₃, tags, List.foldl_append]

end Visits

/-! ## Texts -/

section Texts

variable (tagPrefix : String) (html : Html)

/-- What is appended for a text node, without the blank in front of it. -/
def piece (text : String) : List Char := blanks (Java.trim (html.unescapeHtml4 (html.toString text)))

theorem endsInWord_of_endsBlank {content : List Char} (h : endsBlank content = true) :
    endsInWord isWhite content = false := by
  unfold endsBlank at h
  unfold endsInWord
  cases hlast : content.getLast? with
  | none => rfl
  | some c =>
    rw [hlast] at h
    obtain rfl : c = ' ' := by simpa using h
    rfl

/-- The blank that comes before a text keeps it apart. -/
theorem appendText_spec (content : List Char) (text : String) : ∃ before, appendText html content text =
    before ++ piece html text ∧ endsInWord isWhite before = false ∧ words isWhite before = words isWhite content := by
  by_cases h : endsBlank content = true
  · refine ⟨content, ?_, endsInWord_of_endsBlank h, rfl⟩
    rw [appendText, if_pos h]
    rfl
  · refine ⟨content ++ [' '], ?_, by simp [endsInWord, isWhite], ?_⟩
    · rw [appendText, if_neg h]
      rfl
    · rw [words_append_sep (by decide), words_nil, List.append_nil]

theorem words_appendText (content : List Char) (text : String) :
    words isWhite (appendText html content text) = words isWhite content ++ words isWhite (piece html text) := by
  obtain ⟨before, heq, hend, hwords⟩ := appendText_spec html content text
  rw [heq, words_append_of_end hend, hwords]

theorem endsInWord_appendText (content : List Char) (text : String) :
    endsInWord isWhite (appendText html content text) = endsInWord isWhite (piece html text) := by
  obtain ⟨before, heq, hend, _⟩ := appendText_spec html content text
  rw [heq]
  by_cases hpiece : piece html text = []
  · rw [hpiece, List.append_nil, hend]
    rfl
  · rw [endsInWord, endsInWord, List.getLast?_append_of_ne_nil _ hpiece]

theorem words_foldl_appendText (texts : List String) (content : List Char) :
    words isWhite (texts.foldl (appendText html) content) =
      words isWhite content ++ texts.flatMap fun text => words isWhite (piece html text) := by
  induction texts generalizing content with
  | nil => simp
  | cons text texts ih => rw [List.foldl_cons, ih, words_appendText, List.flatMap_cons, List.append_assoc]

theorem endsInWord_contentOf (tag : Element × Nodes) :
    endsInWord isWhite (contentOf tagPrefix html tag) = endsInText tagPrefix html tag := by
  unfold contentOf endsInText
  rcases List.eq_nil_or_concat' (visible tagPrefix tag.2) with h | ⟨texts, text, h⟩
  · rw [h]
    rfl
  · rw [h, List.foldl_append, List.foldl_cons, List.foldl_nil, endsInWord_appendText, List.getLast?_concat]
    rfl

/-- Trimming cuts off no words. -/
theorem words_piece (text : String) : words isWhite (piece html text) =
    words isWhite (blanks (html.unescapeHtml4 (html.toString text)).toList) := by
  refine words_map_strip (fun c hc => ?_) _
  have hne : c ≠ NBSP := by
    rintro rfl
    exact absurd hc (by decide)
  rw [if_neg hne]
  exact hc

end Texts

/-! ## Fields -/

section Fields

variable {tagPrefix : String} {html : Html} {doc : Document} {field : String}

theorem lookup_putTag (m : FieldMap) (tag : Element × Nodes) : putTag tagPrefix html m tag field =
    if tag.1.field = field then
      some (match m field with
        | none => contentOf tagPrefix html tag
        | some existing => existing ++ strip isWhite (contentOf tagPrefix html tag))
    else m field := by
  by_cases h : tag.1.field = field
  · subst h
    rw [if_pos rfl, putTag, put]
    cases m tag.1.field with
    | none => exact Function.update_self _ _ _
    | some existing => exact Function.update_self _ _ _
  · rw [if_neg h, putTag, put]
    cases m tag.1.field with
    | none => exact Function.update_of_ne (Ne.symm h) _ _
    | some existing => exact Function.update_of_ne (Ne.symm h) _ _

/-- Behind the first tag of a field, the texts of the other ones are put without a blank. -/
theorem lookup_foldl_putTag (l : List (Element × Nodes)) (m : FieldMap) : l.foldl (putTag tagPrefix html) m field =
    match m field, (l.filter fun tag => tag.1.field == field).map (contentOf tagPrefix html) with
    | some existing, contents => some (joined isWhite existing contents)
    | none, [] => none
    | none, first :: others => some (joined isWhite first others) := by
  induction l generalizing m with
  | nil =>
    cases hm : m field with
    | none => exact hm
    | some existing => exact hm
  | cons tag l ih =>
    rw [List.foldl_cons, ih, lookup_putTag, List.filter_cons]
    by_cases h : tag.1.field = field
    · rw [if_pos h, if_pos (by simpa using h), List.map_cons]
      cases m field <;> rfl
    · rw [if_neg h, if_neg (by simpa using h)]

theorem lookup_parse : parse tagPrefix html doc field =
    match (tagsOf tagPrefix doc field).map (contentOf tagPrefix html) with
    | [] => none
    | first :: others => some (joined isWhite first others) := by
  have hclear : Clear tagPrefix [] doc.nodes [] := ⟨doc.nodup, nofun, nofun, fun _ _ => List.not_mem_nil⟩
  obtain ⟨skipped, hfold, _⟩ := visit_spec html (m := fun _ => none) hclear
  rw [parse, hfold]
  show (tags tagPrefix doc.nodes).foldl (putTag tagPrefix html) (fun _ => none) field = _
  rw [lookup_foldl_putTag]
  unfold tagsOf
  cases List.map (contentOf tagPrefix html) _ <;> rfl

/-- The words of a field are those of its tags if and only if nothing is put behind a word. -/
theorem indexes_page_iff (tagPrefix : String) (html : Html)
    (hround : ∀ text, words isWhite (blanks (html.unescapeHtml4 (html.toString text)).toList) = textWords text)
    (doc : Document) (field : String) : Indexes tagPrefix html doc field ↔ Separate tagPrefix html doc field := by
  have hcontent : ∀ tag, words isWhite (contentOf tagPrefix html tag) = tagWords tagPrefix tag := by
    intro tag
    rw [contentOf, words_foldl_appendText, words_nil, List.nil_append]
    refine congrArg (List.flatMap · (visible tagPrefix tag.2)) (funext fun text => ?_)
    rw [words_piece, hround]
  unfold Indexes Separate
  rw [lookup_parse]
  cases tagsOf tagPrefix doc field with
  | nil => simp
  | cons first others =>
    have hiff := words_joined_iff (p := isWhite) (others.map (contentOf tagPrefix html))
      (contentOf tagPrefix html first)
    rw [endsInWord_contentOf, hcontent, List.flatMap_map, List.countP_map] at hiff
    simp only [List.map_cons, ne_eq, List.cons_ne_nil, not_false_eq_true, true_and, List.flatMap_cons]
    simp only [hcontent] at hiff
    rw [hiff]
    simp only [Function.comp_def, hcontent]

end Fields

/-- Pages without characters that are escaped. -/
def plain : Html := ⟨id, id⟩

def tagOf (index field : String) : Element := ⟨"appng:searchable", index, field⟩

/-- A tag with two indexed ones below it and one that is not. -/
def nested : Document where
  nodes := .element 0 (tagOf "true" "contents")
    (.element 1 (tagOf "true" "field1") (.text 2 " A " .nil)
      (.element 3 (tagOf "true" "field2") (.text 4 " B " .nil)
        (.element 5 (tagOf "false" "") (.text 6 " C " .nil) (.text 7 " D " .nil)))) .nil
  nodup := by decide

/-- Two tags of one field. -/
def repeated : Document where
  nodes := .element 0 (tagOf "true" "contents") (.text 1 "A" .nil)
    (.element 2 (tagOf "true" "contents") (.text 3 "B" .nil) .nil)
  nodup := by decide

theorem indexes_page_iff_nested : Indexes "appNG" plain nested "contents" := by
  refine (indexes_page_iff "appNG" plain (fun _ => rfl) nested "contents").mpr ?_
  have htags : ∃ tag, tagsOf "appNG" nested "contents" = [tag] := ⟨_, rfl⟩
  obtain ⟨tag, htag⟩ := htags
  rw [Separate, htag]
  exact Nat.zero_le _

/-- The words of the two tags become one. -/
theorem repeated_glued : parse "appNG" plain repeated "contents" = some ['A', 'B'] ∧
    ¬ Indexes "appNG" plain repeated "contents" := by
  have hparse : parse "appNG" plain repeated "contents" = some ['A', 'B'] := by decide +kernel
  refine ⟨hparse, ?_⟩
  rw [Indexes, hparse]
  decide +kernel

end ParseTags
end Search
end AppNG
