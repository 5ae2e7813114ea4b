import AppNG.Lib.ChildNodes
import AppNG.Lib.Collect
import AppNG.Lib.StableSort
import AppNG.Transform.StyleSheets
import Mathlib.Data.List.Induction

/-!
# Transform.Assembly

`StyleSheetProvider.getStyleSheet`: one stylesheet made of a master and of others that are included.

What is included is put in front of an insertion point, or at the end, by inserting one node after the other in front
of the one inserted before. So the children of a stylesheet come out in reverse order.

* `includeStyleSheet_split`: what is inserted for one stylesheet, and where.
* `getStyleSheet_eq`: the children of the master with all that is inserted.
* `assembled_iff`: they are the ones that should be there if and only if the children of each stylesheet read the same
  backwards, and the root of each is the first node of its document.
-/

namespace AppNG
namespace Transform
namespace Assembly

open ChildNodes

variable {C : Type}

/-! ## The code -/

inductive Node (C : Type) where
  | element (name : String) (href : Option String) (content : C)
  | comment (text : String)
  /-- Text, processing instructions. -/
  | other (name : String) (content : C)
  deriving DecidableEq, Repr

def Node.nodeName : Node C → String
  | .element name _ _ => name
  | .comment _ => "#comment"
  | .other name _ => name

/-- `getAttributes().getNamedItem("href")`. None: it throws, or is null. -/
def Node.href : Node C → Option String
  | .element _ href _ => href
  | _ => none

structure Document (C : Type) where
  /-- In front of the root element: comments, processing instructions, a document type. -/
  prolog : List (Node C) := []
  /-- The children of the root element. -/
  children : List (Node C)
  deriving DecidableEq, Repr

/-- `getFirstChild().getChildNodes()`. Nodes of the prolog have no children. -/
def Document.firstChildNodes (document : Document C) : List (Node C) :=
  match document.prolog with
  | [] => document.children
  | _ :: _ => []

abbrev Provider (C : Type) := StyleSheetProvider (Document C)

def xslInclude : String := "xsl:include"

/-- The children of the root, and the number that the next node gets. -/
structure Root (C : Type) where
  nodes : Nodes (Node C)
  next : Nat

/-- The number of the new node is returned. -/
def Root.insertBefore (root : Root C) (node : Node C) (reference : Option Nat) : Option (Root C × Nat) :=
  (ChildNodes.insertBefore (root.next, node) reference root.nodes).map fun nodes => (⟨nodes, root.next + 1⟩, root.next)

/-- `importNode`, and `inserted = rootNode.insertBefore(adoptedNode, inserted)`. -/
def insertNode (state : Root C × Nat) (node : Node C) : Option (Root C × Nat) :=
  state.1.insertBefore node (some state.2)

def beginComment (reference : String) : Node C := .comment ("[BEGIN] embed '" ++ reference ++ "'")

def endComment (reference : String) : Node C := .comment ("[END] embed '" ++ reference ++ "'")

def includeStyleSheet (insertionPoint : Option Nat) (root : Root C) (entry : String × Document C) : Option (Root C) := do
  let atEnd ← root.insertBefore (endComment entry.1) insertionPoint
  let inserted ← entry.2.firstChildNodes.foldlM insertNode atEnd
  let atBegin ← insertNode inserted (beginComment entry.1)
  return atBegin.1

/-- The includes and the insertion point among the children of the root. -/
structure Scanned (C : Type) where
  includes : Nodes (Node C) := []
  insertionPoint : Option Nat := none

def scan (insertBefore : String) (s : Scanned C) (node : Nat × Node C) : Scanned C :=
  if node.2.nodeName = xslInclude then { s with includes := s.includes ++ [node] }
  else if insertBefore = node.2.nodeName then { s with insertionPoint := some node.1 }
  else s

/-- An include is removed; unless includes are deleted, its file is added. None: an exception. -/
def removeInclude (file : String → Option (Document C)) (deleteIncludes : Bool) (state : Provider C × Nodes (Node C))
    (node : Nat × Node C) : Option (Provider C × Nodes (Node C)) := do
  let reference ← node.2.href
  let nodes := removeChild state.2 node.1
  if deleteIncludes then return (state.1, nodes)
  else return (state.1.addStyleSheet (← file reference) reference, nodes)

/-- With the name of the nodes to insert before, and the files of the template. None: an exception, of which null
comes. A comment takes no children, so nothing can be inserted if there is one in front of the root. -/
def getStyleSheet (insertBefore : String) (file : String → Option (Document C)) (provider : Provider C)
    (deleteIncludes : Bool) : Option (Document C) := do
  let master ← provider.masterSource
  match master.prolog with
  | _ :: _ => if provider.references.isEmpty then return master else none
  | [] =>
    let nodes := number 0 master.children
    let s := nodes.foldl (scan insertBefore) {}
    let (provider, nodes) ← s.includes.foldlM (removeInclude file deleteIncludes) (provider, nodes)
    let root ← provider.references.foldlM (includeStyleSheet s.insertionPoint) ⟨nodes, master.children.length⟩
    return { master with children := root.nodes.map Prod.snd }

/-! ## What should be there -/

/-- A name that elements may have. -/
structure InsertionName where
  value : String
  ne_comment : value ≠ "#comment"

def kept (master : Document C) : List (Node C) := master.children.filter fun node => node.nodeName != xslInclude

def block (entry : String × Document C) : List (Node C) :=
  beginComment entry.1 :: (entry.2.children ++ [endComment entry.1])

/-- The place is in front of a node with the name, or behind all nodes if there is none. -/
def Place (insertBefore : String) (front behind : List (Node C)) : Prop :=
  (∃ node rest, behind = node :: rest ∧ node.nodeName = insertBefore) ∨
    behind = [] ∧ ∀ node ∈ front, node.nodeName ≠ insertBefore

def Assembled (insertBefore : String) (references : List (String × Document C)) (master result : Document C) : Prop :=
  result.prolog = master.prolog ∧ ∃ front behind, kept master = front ++ behind ∧ Place insertBefore front behind ∧
    result.children = front ++ (references.flatMap block ++ behind)

/-- What is inserted for a stylesheet. -/
def inserted (entry : String × Document C) : List (Node C) :=
  beginComment entry.1 :: (entry.2.firstChildNodes.reverse ++ [endComment entry.1])

/-! ## One stylesheet -/

/-- Where the insertion point is. -/
inductive Points : Option Nat → Nodes (Node C) → Nodes (Node C) → Prop where
  | end_ {front : Nodes (Node C)} : Points none front []
  | child {front behind : Nodes (Node C)} {node : Nat × Node C} :
      (∀ other ∈ front, other.1 ≠ node.1) → Points (some node.1) front (node :: behind)

theorem insertBefore_points {point : Option Nat} {front behind : Nodes (Node C)} (h : Points point front behind)
    (node : Nat × Node C) : ChildNodes.insertBefore node point (front ++ behind) = some (front ++ node :: behind) := by
  cases h with
  | end_ => simp [ChildNodes.insertBefore]
  | child hnot => exact insertBefore_split node hnot _

theorem Points.append {point : Option Nat} {front behind added : Nodes (Node C)} {n : Nat}
    (h : Points point front behind) (hbelow : Below n behind) (hadded : ∀ node ∈ added, n ≤ node.1) :
    Points point (front ++ added) behind := by
  cases h with
  | end_ => exact .end_
  | child hnot =>
    refine .child fun other hother => ?_
    rcases List.mem_append.mp hother with hother | hother
    · exact hnot other hother
    · have hlt := hbelow _ List.mem_cons_self
      have hle := hadded other hother
      omega

theorem insertNode_split {front : Nodes (Node C)} (behind : Nodes (Node C)) {reference : Nat × Node C} (n : Nat)
    (hnot : ∀ other ∈ front, other.1 ≠ reference.1) (node : Node C) :
    insertNode ((⟨front ++ reference :: behind, n⟩ : Root C), reference.1) node =
      some (⟨front ++ (n, node) :: reference :: behind, n + 1⟩, n) := by
  rw [insertNode, Root.insertBefore, insertBefore_split _ hnot]
  rfl

/-- Each node goes in front of the one inserted before. -/
theorem foldlM_insertNode (kids : List (Node C)) : ∀ {front : Nodes (Node C)} (behind : Nodes (Node C))
    (reference : Nat × Node C) {n : Nat}, Below n front → (∀ other ∈ front, other.1 ≠ reference.1) →
    ∃ (top : Nat × Node C) (more : Nodes (Node C)),
      kids.foldlM insertNode ((⟨front ++ reference :: behind, n⟩ : Root C), reference.1) =
        some (⟨front ++ (top :: more ++ behind), n + kids.length⟩, top.1) ∧
      (top :: more).map Prod.snd = kids.reverse ++ [reference.2] ∧
      ∀ node ∈ top :: more, node = reference ∨ n ≤ node.1 ∧ node.1 < n + kids.length := by
  induction kids with
  | nil =>
    intro front behind reference n _ _
    exact ⟨reference, [], rfl, rfl, fun node hnode => .inl (List.mem_singleton.mp hnode)⟩
  | cons kid kids ih =>
    intro front behind reference n hbelow hnot
    obtain ⟨top, more, hfold, hmap, hrange⟩ := ih (reference :: behind) (n, kid)
      (hbelow.mono (Nat.le_succ n)) fun other hother => Nat.ne_of_lt (hbelow other hother)
    refine ⟨top, more ++ [reference], ?_, ?_, fun node hnode => ?_⟩
    · rw [List.foldlM_cons, insertNode_split behind n hnot]
      refine hfold.trans ?_
      rw [List.length_cons, List.cons_append, List.cons_append, List.append_assoc, List.singleton_append,
        Nat.succ_add_eq_add_succ]
    · rw [← List.cons_append, List.map_append, hmap]
      simp
    · rw [← List.cons_append, List.mem_append, List.mem_singleton] at hnode
      rw [List.length_cons]
      rcases hnode with hnode | hnode
      · rcases hrange node hnode with rfl | ⟨hge, hlt⟩
        · exact .inr ⟨Nat.le_refl n, by show n < _; omega⟩
        · exact .inr ⟨by omega, by omega⟩
      · exact .inl hnode

theorem includeStyleSheet_split {point : Option Nat} {front behind : Nodes (Node C)} {n : Nat}
    (hpoint : Points point front behind) (hfront : Below n front) (entry : String × Document C) :
    ∃ (added : Nodes (Node C)) (n' : Nat),
      includeStyleSheet point ⟨front ++ behind, n⟩ entry = some ⟨front ++ (added ++ behind), n'⟩ ∧
      added.map Prod.snd = inserted entry ∧ n ≤ n' ∧ ∀ node ∈ added, n ≤ node.1 ∧ node.1 < n' := by
  have hend : (⟨front ++ behind, n⟩ : Root C).insertBefore (endComment entry.1) point =
      some (⟨front ++ (n, endComment entry.1) :: behind, n + 1⟩, n) := by
    rw [Root.insertBefore, insertBefore_points hpoint]
    rfl
  obtain ⟨top, more, hkids, hmap, hrange⟩ := foldlM_insertNode entry.2.firstChildNodes behind
    (n, endComment entry.1) (hfront.mono (Nat.le_succ n))
    fun other hother => Nat.ne_of_lt (hfront other hother)
  have htop : ∀ other ∈ front, other.1 ≠ top.1 := by
    intro other hother
    have hlt := hfront other hother
    rcases hrange top List.mem_cons_self with rfl | ⟨hge, _⟩
    · exact Nat.ne_of_lt hlt
    · omega
  refine ⟨(n + 1 + entry.2.firstChildNodes.length, beginComment entry.1) :: top :: more,
    n + 1 + entry.2.firstChildNodes.length + 1, ?_, ?_, by omega, fun node hnode => ?_⟩
  · have hbegin := insertNode_split (more ++ behind) (n + 1 + entry.2.firstChildNodes.length) htop
      (beginComment entry.1)
    rw [includeStyleSheet, hend]
    show (entry.2.firstChildNodes.foldlM insertNode _ >>= fun inserted => _) = _
    rw [hkids]
    show (insertNode _ (beginComment entry.1) >>= fun atBegin => some atBegin.1) = _
    rw [List.cons_append, hbegin]
    rfl
  · rw [List.map_cons, hmap]
    rfl
  · rcases List.mem_cons.mp hnode with rfl | hnode
    · exact ⟨by show n ≤ n + 1 + _; omega, Nat.lt_succ_self _⟩
    · rcases hrange node hnode with rfl | ⟨hge, hlt⟩
      · exact ⟨Nat.le_refl n, by show n < _; omega⟩
      · exact ⟨by omega, by omega⟩

theorem includeAll_split {point : Option Nat} {behind : Nodes (Node C)} (references : List (String × Document C)) :
    ∀ {front : Nodes (Node C)} {n : Nat}, Points point front behind → Below n front → Below n behind →
      ∃ root, references.foldlM (includeStyleSheet point) ⟨front ++ behind, n⟩ = some root ∧
        root.nodes.map Prod.snd =
          front.map Prod.snd ++ (references.flatMap inserted ++ behind.map Prod.snd) := by
  induction references with
  | nil => exact fun _ _ _ => ⟨_, rfl, List.map_append⟩
  | cons entry references ih =>
    intro front n hpoint hfront hbehind
    obtain ⟨added, n', hfirst, hmap, hle, hrange⟩ := includeStyleSheet_split hpoint hfront entry
    obtain ⟨root, hrest, hnodes⟩ := ih (hpoint.append hbehind fun node hnode => (hrange node hnode).1)
      (below_append.mpr ⟨hfront.mono hle, fun node hnode => (hrange node hnode).2⟩) (hbehind.mono hle)
    refine ⟨root, ?_, ?_⟩
    · rw [List.foldlM_cons, hfirst, ← List.append_assoc]
      exact hrest
    · rw [hnodes, List.map_append, hmap, List.flatMap_cons, List.append_assoc, List.append_assoc]

/-! ## The master -/

theorem scan_eq (insertBefore : String) (nodes : Nodes (Node C)) :
    nodes.foldl (scan insertBefore) {} =
      ⟨nodes.filter fun node => node.2.nodeName == xslInclude,
        ((nodes.filter fun node => node.2.nodeName != xslInclude && insertBefore == node.2.nodeName).getLast?).map
          Prod.fst⟩ := by
  induction nodes using List.reverseRecOn with
  | nil => rfl
  | append_singleton nodes node ih =>
    rw [List.foldl_append, ih, List.filter_append, List.filter_append, List.getLast?_append]
    by_cases hinclude : node.2.nodeName = xslInclude
    · simp [scan, hinclude]
    · by_cases hinsert : insertBefore = node.2.nodeName
      · have hne : insertBefore ≠ xslInclude := fun heq => hinclude (hinsert.symm.trans heq)
        simp [scan, ← hinsert, hne]
      · simp [scan, hinclude, hinsert]

theorem foldlM_removeInclude {file : String → Option (Document C)} {provider : Provider C} {includes : Nodes (Node C)} :
    ∀ {nodes : Nodes (Node C)}, includes.foldlM (removeInclude file true) (provider, nodes) =
      if ∀ node ∈ includes, node.2.href.isSome then some (provider, (includes.map Prod.fst).foldl removeChild nodes)
      else none := by
  induction includes with
  | nil => exact fun {nodes} => (if_pos nofun).symm
  | cons first includes ih =>
    intro nodes
    rw [List.foldlM_cons, removeInclude]
    cases hhref : first.2.href with
    | none =>
      rw [if_neg fun hall => by simpa [hhref] using hall first List.mem_cons_self]
      rfl
    | some reference =>
      show includes.foldlM (removeInclude file true) (provider, removeChild nodes first.1) = _
      rw [ih, List.map_cons, List.foldl_cons]
      refine if_congr ?_ rfl rfl
      rw [List.forall_mem_cons, hhref, Option.isSome_some, and_iff_right rfl]

/-- Where the insertion point is among the children that are kept. -/
theorem exists_points (insertBefore : String) {nodes : Nodes (Node C)}
    (hdistinct : nodes.Pairwise fun node other => node.1 < other.1) :
    ∃ front behind, nodes = front ++ behind ∧
      Points (((nodes.filter fun node => insertBefore == node.2.nodeName).getLast?).map Prod.fst) front behind ∧
      Place insertBefore (front.map Prod.snd) (behind.map Prod.snd) := by
  cases hlast : (nodes.filter fun node => insertBefore == node.2.nodeName).getLast? with
  | none =>
    refine ⟨nodes, [], (List.append_nil nodes).symm, .end_, .inr ⟨rfl, fun node hnode heq => ?_⟩⟩
    obtain ⟨entry, hentry, rfl⟩ := List.mem_map.mp hnode
    have hmem : entry ∈ nodes.filter fun node => insertBefore == node.2.nodeName :=
      List.mem_filter.mpr ⟨hentry, by simp [heq]⟩
    rw [List.getLast?_eq_none_iff.mp hlast] at hmem
    cases hmem
  | some node =>
    obtain ⟨hmem, hname⟩ := List.mem_filter.mp (List.mem_of_getLast? hlast)
    obtain ⟨front, behind, rfl⟩ := List.append_of_mem hmem
    refine ⟨front, node :: behind, rfl, .child fun other hother => ?_, .inl ⟨node.2, behind.map Prod.snd, rfl, ?_⟩⟩
    · exact Nat.ne_of_lt ((List.pairwise_append.mp hdistinct).2.2 other hother node List.mem_cons_self)
    · exact (beq_iff_eq.mp hname).symm

/-- All includes have a reference to be removed. -/
def Removable (master : Document C) : Prop :=
  ∀ node ∈ master.children, node.nodeName = xslInclude → node.href.isSome

theorem removable_iff (master : Document C) :
    (∀ node ∈ (number 0 master.children).filter fun node => node.2.nodeName == xslInclude, node.2.href.isSome) ↔
      Removable master := by
  constructor
  · intro h node hnode hname
    rw [← map_snd_number 0 master.children] at hnode
    obtain ⟨entry, hentry, rfl⟩ := List.mem_map.mp hnode
    exact h entry (List.mem_filter.mpr ⟨hentry, by simpa using hname⟩)
  · intro h node hnode
    obtain ⟨hmem, hname⟩ := List.mem_filter.mp hnode
    refine h node.2 ?_ (by simpa using hname)
    rw [← map_snd_number 0 master.children]
    exact List.mem_map_of_mem hmem

/-- With the root in front: what is inserted stands at one place among the children that are kept. -/
theorem getStyleSheet_eq (insertBefore : String) (file : String → Option (Document C)) (provider : Provider C)
    {master : Document C} (hmaster : provider.masterSource = some master) (hprolog : master.prolog = []) :
    (¬ Removable master → getStyleSheet insertBefore file provider true = none) ∧
    (Removable master → ∃ front behind, kept master = front ++ behind ∧ Place insertBefore front behind ∧
      getStyleSheet insertBefore file provider true =
        some { master with children := front ++ (provider.references.flatMap inserted ++ behind) }) := by
  have hget : getStyleSheet insertBefore file provider true = (do
      let (provider, nodes) ← ((number 0 master.children).foldl (scan insertBefore) {}).includes.foldlM
        (removeInclude file true) (provider, number 0 master.children)
      let root ← provider.references.foldlM
        (includeStyleSheet ((number 0 master.children).foldl (scan insertBefore) {}).insertionPoint)
        ⟨nodes, master.children.length⟩
      return { master with children := root.nodes.map Prod.snd }) := by
    rw [getStyleSheet, hmaster]
    show (match master.prolog with | _ :: _ => _ | [] => _) = _
    rw [hprolog]
  rw [hget, scan_eq, foldlM_removeInclude]
  constructor
  · intro hnot
    rw [if_neg fun hall => hnot ((removable_iff master).mp hall)]
    rfl
  · intro hremovable
    rw [if_pos ((removable_iff master).mpr hremovable), filter_number]
    obtain ⟨front, behind, hsplit, hpoints, hplace⟩ := exists_points insertBefore
      ((number_pairwise 0 master.children).filter fun node => !(node.2.nodeName == xslInclude))
    have hpoint : ((number 0 master.children).filter fun node =>
        node.2.nodeName != xslInclude && insertBefore == node.2.nodeName) =
        ((number 0 master.children).filter fun node => !(node.2.nodeName == xslInclude)).filter fun node =>
          insertBefore == node.2.nodeName := by
      rw [List.filter_filter]
      exact List.filter_congr fun node _ => Bool.and_comm _ _
    have hbelow : Below master.children.length (front ++ behind) := by
      intro node hnode
      rw [← hsplit] at hnode
      have hrange := number_range node (List.mem_filter.mp hnode).1
      omega
    obtain ⟨hfront, hbehind⟩ := below_append.mp hbelow
    obtain ⟨root, hroot, hnodes⟩ := includeAll_split provider.references hpoints hfront hbehind
    refine ⟨front.map Prod.snd, behind.map Prod.snd, ?_, hplace, ?_⟩
    · rw [← List.map_append, ← hsplit]
      exact (filter_snd_number 0 master.children _).symm
    · rw [hpoint, hsplit]
      rw [hsplit] at hroot
      simp only [Option.bind_eq_bind, Option.bind_some, hroot, Option.pure_def, hnodes]

/-! ## All stylesheets -/

section Blocks

variable {references : List (String × Document C)}

theorem length_inserted_le (entry : String × Document C) : (inserted entry).length ≤ (block entry).length := by
  have hkids : entry.2.firstChildNodes.length ≤ entry.2.children.length := by
    rw [Document.firstChildNodes]
    split
    · exact Nat.le_refl _
    · exact Nat.zero_le _
  simp only [inserted, block, List.length_cons, List.length_append, List.length_reverse, List.length_nil]
  omega

theorem inserted_eq_iff (entry : String × Document C) :
    inserted entry = block entry ↔ entry.2.firstChildNodes.reverse = entry.2.children := by
  rw [inserted, block, List.cons.injEq, and_iff_right rfl, List.append_left_inj]

theorem flatMap_inserted_iff : references.flatMap inserted = references.flatMap block ↔
    ∀ entry ∈ references, entry.2.firstChildNodes.reverse = entry.2.children := by
  rw [Collect.flatMap_eq_iff fun entry _ => length_inserted_le entry]
  exact forall₂_congr fun entry _ => inserted_eq_iff entry

/-- Both begin with the same comment. -/
theorem head_blocks (hne : references ≠ []) :
    ∃ text more more', references.flatMap block = .comment text :: more ∧ references.flatMap inserted = .comment text :: more' := by
  obtain ⟨entry, references, rfl⟩ := List.exists_cons_of_ne_nil hne
  exact ⟨_, _, _, by rw [List.flatMap_cons, block, List.cons_append]; rfl,
    by rw [List.flatMap_cons, inserted, List.cons_append]; rfl⟩

end Blocks

/-- The node behind a place is no comment. -/
theorem Place.not_comment {insertBefore : InsertionName} {front behind rest : List (Node C)} {text : String}
    (h : Place insertBefore.value front behind) : behind ≠ .comment text :: rest := by
  rintro rfl
  rcases h with ⟨node, rest', hcons, hname⟩ | ⟨hnil, _⟩
  · obtain ⟨rfl, _⟩ := List.cons.inj hcons
    exact insertBefore.ne_comment hname.symm
  · cases hnil

/-- What is inserted determines the place. -/
theorem inserted_unique (insertBefore : InsertionName) {front behind front' behind' more more' : List (Node C)}
    {text : String} (hplace : Place insertBefore.value front behind) (hplace' : Place insertBefore.value front' behind')
    (hsplit : front ++ behind = front' ++ behind')
    (heq : front ++ (.comment text :: more ++ behind) = front' ++ (.comment text :: more' ++ behind')) :
    more = more' := by
  rcases List.append_eq_append_iff.mp hsplit with ⟨between, rfl, rfl⟩ | ⟨between, rfl, rfl⟩
  · rw [List.append_assoc, List.append_cancel_left_eq] at heq
    cases between with
    | nil => simpa using heq
    | cons node between =>
      simp only [List.cons_append, List.cons.injEq] at heq
      rw [List.cons_append, ← heq.1] at hplace
      exact absurd rfl hplace.not_comment
  · rw [List.append_assoc, List.append_cancel_left_eq] at heq
    cases between with
    | nil => simpa using heq
    | cons node between =>
      simp only [List.cons_append, List.cons.injEq] at heq
      rw [List.cons_append, heq.1] at hplace'
      exact absurd rfl hplace'.not_comment

/-- The children of every stylesheet read the same backwards, and its root comes first. The root of the master comes
first as well and its includes can be removed, unless there is nothing to do. -/
def Fits (references : List (String × Document C)) (master : Document C) : Prop :=
  (∀ entry ∈ references, entry.2.firstChildNodes.reverse = entry.2.children) ∧
    (master.prolog = [] ∧ Removable master ∨
      references = [] ∧ ∀ node ∈ master.children, node.nodeName ≠ xslInclude)

theorem getStyleSheet_prolog (insertBefore : String) (file : String → Option (Document C)) (provider : Provider C)
    {master : Document C} (hmaster : provider.masterSource = some master) (hprolog : master.prolog ≠ []) :
    getStyleSheet insertBefore file provider true = if provider.references = [] then some master else none := by
  obtain ⟨node, nodes, hcons⟩ := List.exists_cons_of_ne_nil hprolog
  rw [getStyleSheet, hmaster]
  show (match master.prolog with | _ :: _ => _ | [] => _) = _
  rw [hcons]
  simp only [List.isEmpty_iff]
  rfl

theorem kept_eq_self_iff (master : Document C) :
    kept master = master.children ↔ ∀ node ∈ master.children, node.nodeName ≠ xslInclude := by
  rw [kept, List.filter_eq_self]
  simp

theorem exists_place (insertBefore : String) (nodes : List (Node C)) :
    ∃ front behind, nodes = front ++ behind ∧ Place insertBefore front behind := by
  obtain ⟨front, behind, hsplit, _, hplace⟩ := exists_points insertBefore (number_pairwise 0 nodes)
  refine ⟨_, _, ?_, hplace⟩
  rw [← List.map_append, ← hsplit, map_snd_number]

theorem assembled_iff (insertBefore : InsertionName) (file : String → Option (Document C)) (provider : Provider C)
    (master : Document C) :
    (∃ result, getStyleSheet insertBefore.value file (provider.setMasterSource master) true = some result ∧
      Assembled insertBefore.value provider.references master result) ↔ Fits provider.references master := by
  have hmaster : (provider.setMasterSource master).masterSource = some master := rfl
  have hreferences : (provider.setMasterSource master).references = provider.references := rfl
  by_cases hprolog : master.prolog = []
  · obtain ⟨hthrows, hsome⟩ := getStyleSheet_eq insertBefore.value file (provider.setMasterSource master) hmaster hprolog
    rw [hreferences] at hsome
    by_cases hremovable : Removable master
    · obtain ⟨front, behind, hkept, hplace, hget⟩ := hsome hremovable
      have hfits : Fits provider.references master ↔
          provider.references.flatMap inserted = provider.references.flatMap block := by
        rw [flatMap_inserted_iff]
        exact and_iff_left (.inl ⟨hprolog, hremovable⟩)
      rw [hget, hfits]
      constructor
      · rintro ⟨result, hresult, _, front', behind', hkept', hplace', hchildren⟩
        obtain rfl := Option.some.inj hresult
        by_cases hne : provider.references = []
        · rw [hne]
          rfl
        · obtain ⟨text, more, more', hblock, hinserted⟩ := head_blocks hne
          dsimp only at hchildren
          rw [hblock, hinserted] at hchildren
          rw [hblock, hinserted, inserted_unique insertBefore hplace hplace' (hkept.symm.trans hkept') hchildren]
      · intro heq
        exact ⟨_, rfl, rfl, front, behind, hkept, hplace, by rw [heq]⟩
    · rw [hthrows hremovable]
      refine iff_of_false (fun ⟨_, hnone, _⟩ => Option.some_ne_none _ hnone.symm) ?_
      rintro ⟨_, ⟨_, h⟩ | ⟨_, h⟩⟩
      · exact hremovable h
      · exact hremovable fun node hnode hname => absurd hname (h node hnode)
  · rw [getStyleSheet_prolog insertBefore.value file _ hmaster hprolog, hreferences]
    by_cases hne : provider.references = []
    · rw [if_pos hne, hne]
      constructor
      · rintro ⟨result, hresult, _, front, behind, hkept, _, hchildren⟩
        obtain rfl := Option.some.inj hresult
        refine ⟨nofun, .inr ⟨rfl, (kept_eq_self_iff master).mp ?_⟩⟩
        rw [hkept, hchildren]
        rfl
      · rintro ⟨_, ⟨h, _⟩ | ⟨_, h⟩⟩
        · exact absurd h hprolog
        · obtain ⟨front, behind, hsplit, hplace⟩ := exists_place insertBefore.value (kept master)
          exact ⟨master, rfl, rfl, front, behind, hsplit, hplace, ((kept_eq_self_iff master).mpr h).symm.trans hsplit⟩
    · rw [if_neg hne]
      refine iff_of_false (fun ⟨_, hnone, _⟩ => Option.some_ne_none _ hnone.symm) ?_
      rintro ⟨_, ⟨h, _⟩ | ⟨h, _⟩⟩
      · exact hprolog h
      · exact hne h

/-- The references are taken in ascending order, each once. -/
theorem references_sorted (provider : Provider C) :
    provider.references.Pairwise fun r s => Java.compareTo r.1 s.1 = .lt := by
  have hcmp : Std.TransCmp fun r s : String × Document C => Java.compareTo r.1 s.1 :=
    { eq_swap := Std.OrientedCmp.eq_swap, isLE_trans := Std.TransCmp.isLE_trans }
  have hsorted : provider.references.Pairwise fun r s => (Java.compareTo r.1 s.1).isLE = true :=
    StableSort.pairwise_sort hcmp _
  have hperm : provider.references.Perm provider.styleReferences.values := List.perm_insertionSort _ _
  have hdistinct : provider.references.Pairwise fun r s => r.1 ≠ s.1 :=
    List.pairwise_map.mp ((hperm.map Prod.fst).nodup_iff.mpr provider.styleReferences.nodup)
  refine (hsorted.and hdistinct).imp fun {r s} ⟨hle, hne⟩ => ?_
  cases hcompare : Java.compareTo r.1 s.1 with
  | lt => rfl
  | eq => exact absurd (Std.LawfulEqCmp.eq_of_compare hcompare) hne
  | gt => rw [hcompare] at hle; cases hle

def outputElement : Node String := .element "xsl:output" none ""

def template (content : String) : Node String := .element "xsl:template" none content

def includedSheet : Document String := { children := [template "a", template "b"] }

def oneSheet : Provider String := StyleSheetProvider.addStyleSheet {} includedSheet "a.xsl"

def assembledSheet : Document String where
  children := [outputElement, beginComment "a.xsl", template "b", template "a", endComment "a.xsl"]

/-- The second template is inserted in front of the first one. -/
theorem templates_reversed :
    getStyleSheet "xsl:variables" (fun _ => none) (oneSheet.setMasterSource { children := [outputElement] }) true =
        some assembledSheet ∧
      ¬ Assembled "xsl:variables" oneSheet.references { children := [outputElement] } assembledSheet := by
  refine ⟨by decide +kernel, ?_⟩
  rintro ⟨_, front, behind, hkept, hplace, hchildren⟩
  have hplace' : Place "xsl:variables" [outputElement] [] := .inr ⟨rfl, by simp [outputElement, Node.nodeName]⟩
  have hsame : [template "a", template "b", endComment "a.xsl"] = [template "b", template "a", endComment "a.xsl"] :=
    inserted_unique ⟨"xsl:variables", by decide⟩ hplace hplace' hkept.symm
      hchildren.symm
  exact absurd hsame (by decide)

end Assembly
end Transform
end AppNG
