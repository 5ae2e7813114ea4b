import AppNG.Lib.ChildNodes
import AppNG.Lib.Collect
import AppNG.Lib.LiveList

/-!
# Http.RewriteConfig

`RedirectFilter.parseConfig`: the rules of included files are moved to the root, and what included them is removed.

The lists of nodes are live. A rule that is moved leaves its list, so the node behind it is passed over.

* `parseConfig_eq`: the loops end, and the nodes that are left below the root.
* `complete_iff`: these are all rules, in order, if and only if in every other element no rule directly follows another
  one, and none is further inside.
-/

namespace AppNG
namespace Http
namespace RewriteConfig

open ChildNodes LiveList

variable {C : Type}

/-! ## The code -/

/-- With what else belongs to the node. -/
inductive Node (C : Type) where
  | element (name : String) (content : C) (children : List (Node C))
  /-- Text, processing instructions. -/
  | other (content : C)

namespace Node

def isElement : Node C → Bool
  | element _ _ _ => true
  | other _ => false

def isRule : Node C → Bool
  | element name _ _ => name == "rule"
  | other _ => false

/-- An element that is no rule. -/
def isContainer (node : Node C) : Bool := node.isElement && !node.isRule

def children : Node C → List (Node C)
  | element _ _ children => children
  | other _ => []

def withChildren : Node C → List (Node C) → Node C
  | element name content _, children => element name content children
  | other content, _ => other content

end Node

/-- Enough for the loop over the children of the root. -/
def steps : List (Node C) → Nat
  | [] => 0
  | node :: nodes => (if node.isContainer then node.children.length else 0) + 1 + steps nodes

/-- At index `i`, with the indices of the `deprecatedNodes`. None: out of fuel. -/
def moveRules : Nat → Nat → List (Node C) → List Nat → Option (List (Node C) × List Nat)
  | 0, _, _, _ => none
  | fuel + 1, i, children, deprecatedNodes =>
    match children[i]? with
    | none => some (children, deprecatedNodes)
    | some node =>
      if node.isContainer then do
        let (rulesNode, children) ← takeOut Node.isRule (node.children.length + 1) 0 node.children children
        moveRules fuel (i + 1) (children.set i (node.withChildren rulesNode)) (deprecatedNodes ++ [i])
      else moveRules fuel (i + 1) children deprecatedNodes

/-- From the children of the root that are parsed, the ones that are returned. -/
def parseConfig (children : List (Node C)) : Option (List (Node C)) := do
  let (children, deprecatedNodes) ← moveRules (steps children + 1) 0 children []
  return (deprecatedNodes.foldl removeChild (number 0 children)).map Prod.snd

/-! ## What should be returned -/

mutual

/-- The rules from a node on. -/
def Node.rules : Node C → List (Node C)
  | .element name content children =>
    if name = "rule" then [.element name content children] else rulesIn children
  | .other _ => []

def rulesIn : List (Node C) → List (Node C)
  | [] => []
  | node :: nodes => node.rules ++ rulesIn nodes

end

/-- The elements are the rules at the top, and then those that are nested. -/
def Complete (children result : List (Node C)) : Prop :=
  result.filter Node.isElement =
    children.filter Node.isRule ++ (children.filter Node.isContainer).flatMap Node.rules

/-- Rules that are not next to each other, and not further inside. -/
structure Apart (nodes : List (Node C)) : Prop where
  separate : nodes.IsChain fun node next => node.isRule = true → next.isRule = false
  direct : ∀ node ∈ nodes, node.isRule = false → node.rules = []

/-! ## The loops -/

/-- The indices of the elements that are no rules. -/
def containers (nodes : List (Node C)) : List Nat :=
  ((number 0 nodes).filter fun node => node.2.isContainer).map Prod.fst

/-- What is moved to the root from one of its children. -/
def moved (node : Node C) : List (Node C) :=
  if node.isContainer then out Node.isRule node.children else []

namespace Node

theorem isContainer_iff {node : Node C} : node.isContainer = true ↔ node.isElement = true ∧ node.isRule = false := by
  rw [isContainer, Bool.and_eq_true, Bool.not_eq_true']

theorem isRule_element {node : Node C} (h : node.isRule = true) : node.isElement = true := by
  cases node with
  | element => rfl
  | other => cases h

@[simp] theorem isContainer_withChildren (node : Node C) (children : List (Node C)) :
    (node.withChildren children).isContainer = node.isContainer := by
  cases node <;> rfl

theorem rules_of_isRule {node : Node C} (h : node.isRule = true) : node.rules = [node] := by
  cases node with
  | element name content children => rw [rules, if_pos (beq_iff_eq.mp h)]
  | other => cases h

theorem rules_of_isContainer {node : Node C} (h : node.isContainer = true) : node.rules = rulesIn node.children := by
  cases node with
  | element name content children =>
    have hname : name ≠ "rule" := beq_eq_false_iff_ne.mp (isContainer_iff.mp h).2
    rw [rules, if_neg hname, Node.children]
  | other => cases h

end Node

theorem containers_append_singleton (nodes : List (Node C)) (node : Node C) :
    containers (nodes ++ [node]) = containers nodes ++ (if node.isContainer then [nodes.length] else []) := by
  rw [containers, number_append_singleton, List.filter_append, List.map_append, Nat.zero_add]
  cases h : node.isContainer <;> simp [containers, h]

theorem steps_append (nodes others : List (Node C)) : steps (nodes ++ others) = steps nodes + steps others := by
  induction nodes with
  | nil => simp [steps]
  | cons node nodes ih => simp only [List.cons_append, steps, ih]; omega

theorem steps_rules {nodes : List (Node C)} (h : ∀ node ∈ nodes, node.isContainer = false) :
    steps nodes = nodes.length := by
  induction nodes with
  | nil => rfl
  | cons node nodes ih =>
    obtain ⟨hnode, hnodes⟩ := List.forall_mem_cons.mp h
    rw [steps, ih hnodes, List.length_cons, hnode]
    simp; omega

theorem moved_isRule {node rule : Node C} (h : rule ∈ moved node) : rule.isRule = true := by
  rw [moved] at h
  split at h
  · exact (List.mem_filter.mp ((out_sublist _ _).subset h)).2
  · cases h

theorem moved_not_container {node rule : Node C} (h : rule ∈ moved node) : rule.isContainer = false := by
  rw [Node.isContainer, moved_isRule h, Bool.not_true, Bool.and_false]

theorem length_moved_le (node : Node C) :
    (moved node).length ≤ if node.isContainer then node.children.length else 0 := by
  rw [moved]
  split
  · exact (out_sublist _ _).length_le.trans (List.length_filter_le _ _)
  · exact Nat.le_refl 0

theorem flatMap_moved_rules {nodes : List (Node C)} (h : ∀ node ∈ nodes, node.isContainer = false) :
    nodes.flatMap moved = [] := by
  rw [List.flatMap_eq_nil_iff]
  intro node hnode
  rw [moved, h node hnode]
  rfl

theorem moveRules_end {fuel : Nat} (nodes : List (Node C)) (deprecatedNodes : List Nat) :
    moveRules (fuel + 1) nodes.length nodes deprecatedNodes = some (nodes, deprecatedNodes) := by
  rw [moveRules, List.getElem?_eq_none (Nat.le_refl _)]

theorem moveRules_skip {fuel : Nat} (front : List (Node C)) {node : Node C} (rest : List (Node C))
    (deprecatedNodes : List Nat) (h : node.isContainer = false) :
    moveRules (fuel + 1) front.length (front ++ node :: rest) deprecatedNodes =
      moveRules fuel (front ++ [node]).length ((front ++ [node]) ++ rest) deprecatedNodes := by
  have hhead : (front ++ node :: rest)[front.length]? = some node := by simp
  rw [moveRules, hhead]
  simp [h]

theorem moveRules_container (fuel : Nat) (front : List (Node C)) {node : Node C} (rest : List (Node C))
    (deprecatedNodes : List Nat) (h : node.isContainer = true) :
    ∃ left, moveRules (fuel + 1) front.length (front ++ node :: rest) deprecatedNodes =
      moveRules fuel (front ++ [node.withChildren left]).length
        ((front ++ [node.withChildren left]) ++ (rest ++ moved node)) (deprecatedNodes ++ [front.length]) := by
  have hhead : (front ++ node :: rest)[front.length]? = some node := by simp
  obtain ⟨left, hleft⟩ :=
    takeOut_eq Node.isRule node.children [] (front ++ node :: rest) (Nat.lt_succ_self _)
  have htake : takeOut Node.isRule (node.children.length + 1) 0 node.children (front ++ node :: rest) =
      some (left, front ++ node :: rest ++ moved node) := by
    rw [moved, if_pos h]
    exact hleft
  have hset : (front ++ node :: rest ++ moved node).set front.length (node.withChildren left) =
      front ++ [node.withChildren left] ++ (rest ++ moved node) := by
    simp [List.set_append_right]
  refine ⟨left, ?_⟩
  rw [moveRules, hhead]
  show (if node.isContainer = true then _ else _) = _
  rw [if_pos h, htake, ← hset, List.length_append]
  rfl

/-- `rest` is what the loop has not come to. What is moved is behind it. -/
theorem moveRules_eq {fuel : Nat} : ∀ (front rest : List (Node C)), steps rest < fuel →
    ∃ result, moveRules fuel front.length (front ++ rest) (containers front) = some (result, containers result) ∧
      (result.filter fun node => !node.isContainer) =
        ((front ++ rest).filter fun node => !node.isContainer) ++ rest.flatMap moved := by
  induction fuel with
  | zero => exact fun _ _ h => absurd h (Nat.not_lt_zero _)
  | succ fuel ih =>
    intro front rest hfuel
    cases rest with
    | nil =>
      refine ⟨front, ?_, by simp⟩
      rw [List.append_nil, moveRules_end]
    | cons node rest =>
      rw [steps] at hfuel
      cases hcontainer : node.isContainer with
      | false =>
        obtain ⟨result, hresult, hfilter⟩ := ih (front ++ [node]) rest (by omega)
        rw [containers_append_singleton, hcontainer, if_neg Bool.false_ne_true, List.append_nil] at hresult
        refine ⟨result, by rw [moveRules_skip front rest _ hcontainer, hresult], ?_⟩
        rw [hfilter, List.flatMap_cons, moved, hcontainer]
        simp
      | true =>
        obtain ⟨left, hstep⟩ := moveRules_container fuel front rest (containers front) hcontainer
        have hless : steps (rest ++ moved node) < fuel := by
          have hlength := length_moved_le node
          rw [steps_append, steps_rules fun _ => moved_not_container]
          omega
        obtain ⟨result, hresult, hfilter⟩ := ih (front ++ [node.withChildren left]) (rest ++ moved node) hless
        rw [containers_append_singleton, Node.isContainer_withChildren, hcontainer, if_pos rfl] at hresult
        refine ⟨result, by rw [hstep, hresult], ?_⟩
        have hnone : (moved node).filter (fun node => !node.isContainer) = moved node :=
          List.filter_eq_self.mpr fun rule hrule => by rw [moved_not_container hrule]; rfl
        rw [hfilter, List.flatMap_append, flatMap_moved_rules fun _ => moved_not_container, List.append_nil,
          List.flatMap_cons]
        simp [hcontainer, hnone]

theorem parseConfig_eq (children : List (Node C)) :
    parseConfig children = some ((children.filter fun node => !node.isContainer) ++ children.flatMap moved) := by
  obtain ⟨result, hresult, hfilter⟩ := moveRules_eq [] children (Nat.lt_succ_self _)
  have hmove : moveRules (steps children + 1) 0 children [] = some (result, containers result) := hresult
  have hremove : ((containers result).foldl removeChild (number 0 result)).map Prod.snd =
      result.filter fun node => !node.isContainer := by
    rw [containers, filter_number, filter_snd_number 0 result fun node => !node.isContainer]
  rw [parseConfig, hmove]
  show some _ = _
  rw [hremove, hfilter]
  rfl

/-! ## All rules -/

theorem rulesIn_flatMap (nodes : List (Node C)) : rulesIn nodes = nodes.flatMap Node.rules := by
  induction nodes with
  | nil => rw [rulesIn, List.flatMap_nil]
  | cons node nodes ih => rw [rulesIn, List.flatMap_cons, ih]

theorem filter_isRule (nodes : List (Node C)) :
    nodes.filter Node.isRule = nodes.flatMap fun node => if node.isRule then [node] else [] := by
  rw [← Collect.flatMap_filter, List.flatMap_singleton']

theorem length_top_le (node : Node C) : (if node.isRule then [node] else []).length ≤ node.rules.length := by
  split
  case isTrue h => rw [Node.rules_of_isRule h]
  case isFalse => exact Nat.zero_le _

theorem length_filter_isRule_le (nodes : List (Node C)) : (nodes.filter Node.isRule).length ≤ (rulesIn nodes).length := by
  rw [filter_isRule, rulesIn_flatMap]
  exact Collect.length_flatMap_le fun node _ => length_top_le node

theorem filter_eq_rulesIn_iff (nodes : List (Node C)) :
    nodes.filter Node.isRule = rulesIn nodes ↔ ∀ node ∈ nodes, node.isRule = false → node.rules = [] := by
  rw [filter_isRule, rulesIn_flatMap, Collect.flatMap_eq_iff fun node _ => length_top_le node]
  refine forall₂_congr fun node _ => ?_
  cases h : node.isRule with
  | true => exact iff_of_true (Node.rules_of_isRule h).symm nofun
  | false => exact ⟨fun heq _ => heq.symm, fun hnone => (hnone rfl).symm⟩

theorem out_eq_rulesIn_iff (nodes : List (Node C)) : out Node.isRule nodes = rulesIn nodes ↔ Apart nodes := by
  constructor
  · intro h
    have hfilter : out Node.isRule nodes = nodes.filter Node.isRule :=
      (out_sublist _ _).eq_of_length_le (by rw [h]; exact length_filter_isRule_le nodes)
    exact ⟨(out_eq_filter_iff _ _).mp hfilter, (filter_eq_rulesIn_iff nodes).mp (hfilter.symm.trans h)⟩
  · intro h
    exact ((out_eq_filter_iff _ _).mpr h.separate).trans ((filter_eq_rulesIn_iff nodes).mpr h.direct)

theorem length_out_le (nodes : List (Node C)) : (out Node.isRule nodes).length ≤ (rulesIn nodes).length :=
  (out_sublist _ _).length_le.trans (length_filter_isRule_le nodes)

theorem filter_isElement (children : List (Node C)) :
    ((children.filter fun node => !node.isContainer) ++ children.flatMap moved).filter Node.isElement =
      children.filter Node.isRule ++ children.flatMap moved := by
  rw [List.filter_append, List.filter_filter]
  congr 1
  · refine List.filter_congr fun node _ => ?_
    cases node with
    | element name => simp [Node.isContainer, Node.isElement]
    | other => rfl
  · refine List.filter_eq_self.mpr fun rule hrule => ?_
    obtain ⟨node, _, hmoved⟩ := List.mem_flatMap.mp hrule
    exact Node.isRule_element (moved_isRule hmoved)

theorem complete_iff (children : List (Node C)) : (∃ result, parseConfig children = some result ∧
    Complete children result) ↔ ∀ node ∈ children, node.isContainer = true → Apart node.children := by
  have hle : ∀ node ∈ children,
      (moved node).length ≤ (if node.isContainer then node.rules else []).length := by
    intro node _
    rw [moved]
    split
    case isTrue h => rw [Node.rules_of_isContainer h]; exact length_out_le _
    case isFalse => exact Nat.le_refl 0
  calc (∃ result, parseConfig children = some result ∧ Complete children result)
    _ ↔ children.flatMap moved = (children.filter Node.isContainer).flatMap Node.rules := by
      rw [parseConfig_eq]
      simp only [Option.some.injEq, exists_eq_left', Complete, filter_isElement, List.append_cancel_left_eq]
    _ ↔ ∀ node ∈ children, moved node = if node.isContainer then node.rules else [] := by
      rw [Collect.flatMap_filter, Collect.flatMap_eq_iff hle]
    _ ↔ ∀ node ∈ children, node.isContainer = true → Apart node.children := by
      refine forall₂_congr fun node _ => ?_
      cases h : node.isContainer with
      | true => rw [moved, if_pos h, if_pos rfl, Node.rules_of_isContainer h, out_eq_rulesIn_iff]; simp
      | false => simp [moved, h]

def rule (content : String) : Node String := .element "rule" content []

def includedRules : List (Node String) := [.element "rules" "" [rule "a", rule "b"]]

/-- The second rule has no white space in front of it. -/
theorem drops_rule : parseConfig includedRules = some [rule "a"] ∧ ¬ Complete includedRules [rule "a"] := by
  constructor
  · rw [parseConfig_eq]
    rfl
  · intro h
    have hlength : 1 = 2 := congrArg List.length h
    cases hlength

end RewriteConfig
end Http
end AppNG
