import AppNG.Lib.JavaInt
import AppNG.Lib.JavaString

/-!
# Persistence.SearchQuery

`SearchQuery`: criteria are collected by calls, and a count query and a query for the results are
made of them.

The values of the criteria are opaque; some are embedded in a pattern by their text.

* `run_criteria`, `run_andClauses`: what the calls leave, in their order.
* `appendJoinAndWhereClause_eq`: the where-clause is a conjunction, with the placeholders numbered.
* `positions_setQueryParameters`: the values are bound to 1, 2, and so on.
* `execute_sound`: both queries carry the same clause and the same parameters, and every placeholder is
  bound to the value of the criterion that wrote it.
-/

namespace AppNG
namespace Persistence

inductive Operand where
  | EQ
  | NE
  | LE
  | GE
  | LT
  | GT
  | IN
  | NOT_IN
  | LIKE
  | NOT_LIKE
  | NOT_NULL
  | NULL
  deriving DecidableEq, Repr

def Operand.presentation : Operand → String
  | EQ => "="
  | NE => "!="
  | LE => "<="
  | GE => ">="
  | LT => "<"
  | GT => ">"
  | IN => "in"
  | NOT_IN => "not in"
  | LIKE => "like"
  | NOT_LIKE => "not like"
  | NOT_NULL => "is not null"
  | NULL => "is null"

inductive Value (V : Type) where
  | object (v : V)
  | collection (vs : List V)
  | string (s : String)
  deriving DecidableEq, Repr

structure Criterion (V : Type) where
  name : String
  value : Option (Value V)
  operand : Operand
  valueMandatory : Bool
  deriving DecidableEq, Repr

structure Clause (V : Type) where
  clause : String
  params : List (String × V)
  deriving DecidableEq, Repr

structure SearchQuery (V : Type) where
  /-- The simple name of the domain class. -/
  domainClass : String
  criteria : List (Criterion V) := []
  distinct : Bool := false
  joinQuery : Option String := none
  appendEntityAlias : Bool := true
  entityAlias : String := "e"
  andClauses : List (Clause V) := []

variable {V : Type}

def Criterion.isValid (c : Criterion V) : Bool := c.value.isSome || !c.valueMandatory

/-! ## The calls -/

/-- A call of one of the methods, with none for null. -/
inductive Call (V : Type) where
  | equals (name : String) (value : Option V)
  | notEquals (name : String) (value : Option V)
  | greaterThan (name : String) (value : Option V)
  | greaterEquals (name : String) (value : Option V)
  | lessThan (name : String) (value : Option V)
  | lessEquals (name : String) (value : Option V)
  | isIn (name : String) (values : Option (List V))
  | notIn (name : String) (values : Option (List V))
  | contains (name : String) (value : Option V)
  | like (name : String) (value : Option V)
  | notLike (name : String) (value : Option V)
  | startsWith (name : String) (value : Option V)
  | endsWith (name : String) (value : Option V)
  | isNotNull (name : String)
  | isNull (name : String)
  | and (clause : String) (params : List (String × V))
  | join (joinQuery : String)
  | distinct
  | setEntityAlias (entityAlias : String)
  | setAppendEntityAlias (appendEntityAlias : Bool)

namespace SearchQuery

def add (q : SearchQuery V) (name : String) (value : Option (Value V)) (operand : Operand)
    (valueMandatory : Bool) : SearchQuery V :=
  let sc : Criterion V := ⟨name, value, operand, valueMandatory⟩
  if sc.isValid then { q with criteria := q.criteria ++ [sc] } else q

/-- The collection to compare with; an empty one is ignored. -/
def values (values : Option (List V)) : Option (Value V) :=
  values.bind fun vs => if vs.isEmpty then none else some (.collection vs)

/-- `text`: what `toString` gives. -/
def call (text : V → String) (q : SearchQuery V) : Call V → SearchQuery V
  | .equals name value => q.add name (value.map .object) .EQ true
  | .notEquals name value => q.add name (value.map .object) .NE true
  | .greaterThan name value => q.add name (value.map .object) .GT true
  | .greaterEquals name value => q.add name (value.map .object) .GE true
  | .lessThan name value => q.add name (value.map .object) .LT true
  | .lessEquals name value => q.add name (value.map .object) .LE true
  | .isIn name vs => q.add name (values vs) .IN true
  | .notIn name vs => q.add name (values vs) .NOT_IN true
  | .contains name value => q.add name (value.map fun v => .string ("%" ++ text v ++ "%")) .LIKE true
  | .like name value => q.add name (value.map .object) .LIKE true
  | .notLike name value => q.add name (value.map .object) .NOT_LIKE true
  | .startsWith name value => q.add name (value.map fun v => .string (text v ++ "%")) .LIKE true
  | .endsWith name value => q.add name (value.map fun v => .string ("%" ++ text v)) .LIKE true
  | .isNotNull name => q.add name none .NOT_NULL false
  | .isNull name => q.add name none .NULL false
  | .and clause params =>
    { q with andClauses := q.andClauses ++ [⟨String.ofList (Java.trim clause), params⟩] }
  | .join joinQuery => { q with joinQuery := some joinQuery }
  | .distinct => { q with distinct := true }
  | .setEntityAlias entityAlias => { q with entityAlias }
  | .setAppendEntityAlias appendEntityAlias => { q with appendEntityAlias }

def run (text : V → String) (domainClass : String) (calls : List (Call V)) : SearchQuery V :=
  calls.foldl (call text) { domainClass }

/-! ## The queries -/

/-- One round of the loop over the criteria: the text so far, the next index, and whether it is the
first round. -/
def appendCriterion (q : SearchQuery V) (state : String × Nat × Bool) (criterion : Criterion V) :
    String × Nat × Bool :=
  let (queryBuilder, i, isFirst) := state
  let queryBuilder := queryBuilder ++ (if isFirst then " where " else " and ")
  let queryBuilder := if q.appendEntityAlias then queryBuilder ++ (q.entityAlias ++ ".") else queryBuilder
  let queryBuilder := queryBuilder ++ (criterion.name ++ " " ++ criterion.operand.presentation)
  match criterion.value with
  | some _ => (queryBuilder ++ (" ?" ++ toString i), i + 1, false)
  | none => (queryBuilder, i, false)

def appendClause (state : String × Bool) (clause : Clause V) : String × Bool :=
  (state.1 ++ (if state.2 then " where " else " and ") ++ (" " ++ clause.clause ++ " "), false)

def appendJoin (q : SearchQuery V) (queryBuilder : String) : String :=
  if Java.isBlank q.joinQuery then queryBuilder
  else queryBuilder ++ (" " ++ String.ofList (Java.trim (q.joinQuery.getD "")) ++ " ")

def appendJoinAndWhereClause (q : SearchQuery V) (queryBuilder : String) : String :=
  let (queryBuilder, _, _) := q.criteria.foldl (appendCriterion q) (q.appendJoin queryBuilder, 1, true)
  (q.andClauses.foldl appendClause (queryBuilder, q.criteria.length == 0)).1

def buildQueryString (q : SearchQuery V) : String :=
  q.appendJoinAndWhereClause ("from " ++ q.domainClass ++ " " ++ q.entityAlias)

structure Order where
  property : String
  direction : String
  deriving DecidableEq, Repr

/-- A page that is asked for; a sort without orders is unsorted. -/
structure Pageable where
  pageNumber : Int
  pageSize : Int
  sort : List Order
  deriving DecidableEq, Repr

def Pageable.getOffset (pageable : Pageable) : Int := pageable.pageNumber * pageable.pageSize

/-- One round of the loop over the orders. -/
def appendOneOrder (entityName : String) (state : String × Bool) (order : Order) : String × Bool :=
  (state.1 ++ (if state.2 then " order by " else ", ") ++
    (if Java.isBlank (some entityName) then entityName else entityName ++ ".") ++
    (order.property ++ " " ++ order.direction), false)

def appendOrder (pageable : Option Pageable) (queryBuilder entityName : String) : String :=
  match pageable with
  | none => queryBuilder
  | some pageable => (pageable.sort.foldl (appendOneOrder entityName) (queryBuilder, true)).1

inductive Parameter where
  | position (i : Nat)
  | name (name : String)
  deriving DecidableEq, Repr

structure JpaQuery (V : Type) where
  text : String
  /-- The calls of `setParameter`. -/
  parameters : List (Parameter × Value V) := []
  firstResult : Option Int := none
  maxResults : Option Int := none
  deriving DecidableEq, Repr

/-- The positions that are set by the loop over the criteria, and the next one. -/
def setPositions (criteria : List (Criterion V)) : List (Parameter × Value V) × Nat :=
  criteria.foldl (fun (parameters, i) criterion =>
    match criterion.value with
    | some value => (parameters ++ [(.position i, value)], i + 1)
    | none => (parameters, i)) ([], 1)

def setQueryParameters (q : SearchQuery V) (query : JpaQuery V) : JpaQuery V :=
  { query with
    parameters := query.parameters ++ (setPositions q.criteria).1 ++
      q.andClauses.flatMap fun clause =>
        clause.params.map fun (name, value) => (.name name, .object value) }

/-- For a page beyond the total, the first page. -/
def applyPagination (query : JpaQuery V) (total : Int) (pageable : Pageable) : JpaQuery V :=
  let pageable := if total ≤ pageable.getOffset then { pageable with pageNumber := 0 } else pageable
  { query with
    firstResult := some (Java.wrap pageable.getOffset)
    maxResults := some pageable.pageSize }

/-- The count query and the query for the results; the first is run for a page only. -/
def execute (q : SearchQuery V) (pageable : Option Pageable) (getSingleResult : JpaQuery V → Int) :
    JpaQuery V × JpaQuery V :=
  let sb := q.buildQueryString
  let distinctPart := if q.distinct then "distinct " ++ q.entityAlias else q.entityAlias
  let countQuery := q.setQueryParameters { text := "select count(" ++ distinctPart ++ ") " ++ sb }
  let sb := appendOrder pageable sb (if q.appendEntityAlias then q.entityAlias else "")
  let query := q.setQueryParameters { text := "select " ++ distinctPart ++ " " ++ sb }
  match pageable with
  | none => (countQuery, query)
  | some pageable => (countQuery, applyPagination query (getSingleResult countQuery) pageable)

end SearchQuery

/-! ## What the calls ask for -/

/-- The criterion of a call, if it applies. -/
def Call.criterion (text : V → String) : Call V → Option (Criterion V)
  | .equals name value => value.map fun v => ⟨name, some (.object v), .EQ, true⟩
  | .notEquals name value => value.map fun v => ⟨name, some (.object v), .NE, true⟩
  | .greaterThan name value => value.map fun v => ⟨name, some (.object v), .GT, true⟩
  | .greaterEquals name value => value.map fun v => ⟨name, some (.object v), .GE, true⟩
  | .lessThan name value => value.map fun v => ⟨name, some (.object v), .LT, true⟩
  | .lessEquals name value => value.map fun v => ⟨name, some (.object v), .LE, true⟩
  | .isIn name vs => (vs.filter fun vs => !vs.isEmpty).map fun vs => ⟨name, some (.collection vs), .IN, true⟩
  | .notIn name vs => (vs.filter fun vs => !vs.isEmpty).map fun vs => ⟨name, some (.collection vs), .NOT_IN, true⟩
  | .contains name value =>
    value.map fun v => ⟨name, some (.string ("%" ++ text v ++ "%")), .LIKE, true⟩
  | .like name value => value.map fun v => ⟨name, some (.object v), .LIKE, true⟩
  | .notLike name value => value.map fun v => ⟨name, some (.object v), .NOT_LIKE, true⟩
  | .startsWith name value => value.map fun v => ⟨name, some (.string (text v ++ "%")), .LIKE, true⟩
  | .endsWith name value => value.map fun v => ⟨name, some (.string ("%" ++ text v)), .LIKE, true⟩
  | .isNotNull name => some ⟨name, none, .NOT_NULL, false⟩
  | .isNull name => some ⟨name, none, .NULL, false⟩
  | _ => none

def Call.clause : Call V → Option (Clause V)
  | .and clause params => some ⟨String.ofList (Java.trim clause), params⟩
  | _ => none

/-- The number of the placeholder of a criterion: behind those of the criteria before it. -/
def placeholder (before : List (Criterion V)) : Nat :=
  1 + (before.filter fun c => c.value.isSome).length

/-- A criterion, behind those before it. -/
def conjunct (dotted : String) (before : List (Criterion V)) (c : Criterion V) : String :=
  dotted ++ c.name ++ " " ++ c.operand.presentation ++
    (if c.value.isSome then " ?" ++ toString (placeholder before) else "")

/-- A function of every element and those before it. -/
def mapBefore {α β : Type} (f : List α → α → β) (as : List α) : List β :=
  as.mapIdx fun j a => f (as.take j) a

def conjuncts (dotted : String) (criteria : List (Criterion V)) : List String :=
  mapBefore (conjunct dotted) criteria

def Clause.conjunct (clause : Clause V) : String := " " ++ clause.clause ++ " "

/-- The placeholders in the order of the text, each with the value of the criterion that wrote it. -/
def written (criteria : List (Criterion V)) : List (Nat × Value V) :=
  (mapBefore (fun before c => c.value.map (placeholder before, ·)) criteria).filterMap id

def whereClause : List String → String
  | [] => ""
  | c :: cs => " where " ++ " and ".intercalate (c :: cs)

namespace SearchQuery

def dottedAlias (q : SearchQuery V) : String := if q.appendEntityAlias then q.entityAlias ++ "." else ""

/-! ## The calls, one by one -/

theorem call_criteria (text : V → String) (q : SearchQuery V) (c : Call V) :
    (q.call text c).criteria = q.criteria ++ (c.criterion text).toList := by
  cases c with
  | isIn name vs | notIn name vs =>
    cases vs with
    | none => simp [call, add, values, Call.criterion, Criterion.isValid]
    | some vs =>
      cases vs with
      | nil => simp [call, add, values, Call.criterion, Criterion.isValid]
      | cons v vs => simp [call, add, values, Call.criterion, Criterion.isValid, Option.filter]
  | isNotNull name | isNull name => simp [call, add, Call.criterion, Criterion.isValid]
  | and clause params | join joinQuery | distinct | setEntityAlias a | setAppendEntityAlias b =>
    simp [call, Call.criterion]
  | equals name value | notEquals name value | greaterThan name value | greaterEquals name value
  | lessThan name value | lessEquals name value | contains name value | like name value
  | notLike name value | startsWith name value | endsWith name value =>
    cases value with
    | none => simp [call, add, Call.criterion, Criterion.isValid]
    | some v => simp [call, add, Call.criterion, Criterion.isValid]

theorem add_andClauses (q : SearchQuery V) (name : String) (value : Option (Value V))
    (operand : Operand) (valueMandatory : Bool) :
    (q.add name value operand valueMandatory).andClauses = q.andClauses := by
  unfold add
  dsimp only
  split <;> rfl

theorem call_andClauses (text : V → String) (q : SearchQuery V) (c : Call V) :
    (q.call text c).andClauses = q.andClauses ++ c.clause.toList := by
  cases c <;> simp [call, Call.clause, add_andClauses]

theorem run_criteria (text : V → String) (domainClass : String) (calls : List (Call V)) :
    (run text domainClass calls).criteria = calls.filterMap (Call.criterion text) := by
  suffices h : ∀ q : SearchQuery V, (calls.foldl (call text) q).criteria =
      q.criteria ++ calls.filterMap (Call.criterion text) from h { domainClass }
  induction calls with
  | nil => intro q; simp
  | cons c calls ih =>
    intro q
    rw [List.foldl_cons, ih, call_criteria, List.append_assoc, List.filterMap_cons]
    cases c.criterion text <;> rfl

theorem run_andClauses (text : V → String) (domainClass : String) (calls : List (Call V)) :
    (run text domainClass calls).andClauses = calls.filterMap Call.clause := by
  suffices h : ∀ q : SearchQuery V, (calls.foldl (call text) q).andClauses =
      q.andClauses ++ calls.filterMap Call.clause from h { domainClass }
  induction calls with
  | nil => intro q; simp
  | cons c calls ih =>
    intro q
    rw [List.foldl_cons, ih, call_andClauses, List.append_assoc, List.filterMap_cons]
    cases c.clause <;> rfl

/-! ## The where-clause -/

/-- The keyword before the next conjunct. -/
def keyword (isFirst : Bool) : String := if isFirst then " where " else " and "

theorem whereClause_append (cs : List String) (c : String) :
    whereClause (cs ++ [c]) = whereClause cs ++ keyword cs.isEmpty ++ c := by
  cases cs with
  | nil => simp [whereClause, keyword]
  | cons d ds =>
    have hlast : " and ".intercalate (d :: ds ++ [c]) = " and ".intercalate (d :: ds) ++ " and " ++ c := by
      rw [String.intercalate_append_of_ne_nil (List.cons_ne_nil d ds) (List.cons_ne_nil c []),
        String.intercalate_singleton]
    show " where " ++ " and ".intercalate (d :: ds ++ [c]) = _
    rw [hlast]
    simp [whereClause, keyword, String.append_assoc]

theorem mapBefore_append {α β : Type} (f : List α → α → β) (as : List α) (a : α) :
    mapBefore f (as ++ [a]) = mapBefore f as ++ [f as a] := by
  unfold mapBefore
  rw [List.mapIdx_concat, List.take_left]
  refine congrArg (· ++ _) ((List.mapIdx_eq_mapIdx_iff).mpr fun j hj => ?_)
  rw [List.take_append_of_le_length hj.le]

/-- What the loop has appended after some of the criteria. -/
theorem appendCriteria_eq (q : SearchQuery V) (start : String) (criteria : List (Criterion V)) :
    criteria.foldl (appendCriterion q) (start, 1, true) =
      (start ++ whereClause (conjuncts q.dottedAlias criteria), placeholder criteria,
        criteria.isEmpty) := by
  induction criteria using List.reverseRecOn with
  | nil => simp [conjuncts, mapBefore, whereClause, placeholder]
  | append_singleton criteria c ih =>
    have hempty : (conjuncts q.dottedAlias criteria).isEmpty = criteria.isEmpty := by
      cases criteria <;> simp [conjuncts, mapBefore]
    have hlast : conjuncts q.dottedAlias (criteria ++ [c]) =
        conjuncts q.dottedAlias criteria ++ [conjunct q.dottedAlias criteria c] :=
      mapBefore_append _ criteria c
    rw [List.foldl_append, ih, List.foldl_cons, List.foldl_nil, hlast, whereClause_append, hempty]
    cases hvalue : c.value with
    | none =>
      cases halias : q.appendEntityAlias <;>
        simp [appendCriterion, conjunct, placeholder, dottedAlias, keyword, hvalue, halias,
          String.append_assoc]
    | some v =>
      cases halias : q.appendEntityAlias <;>
        simp [appendCriterion, conjunct, placeholder, dottedAlias, keyword, hvalue, halias,
          String.append_assoc, Nat.add_assoc]

theorem appendClauses_eq (start : String) (clauses : List (Clause V)) :
    ∀ cs : List String, (clauses.foldl appendClause (start ++ whereClause cs, cs.isEmpty)).1 =
      start ++ whereClause (cs ++ clauses.map Clause.conjunct) := by
  induction clauses with
  | nil => intro cs; simp
  | cons clause clauses ih =>
    intro cs
    have hone : appendClause (start ++ whereClause cs, cs.isEmpty) clause =
        (start ++ whereClause (cs ++ [clause.conjunct]), (cs ++ [clause.conjunct]).isEmpty) := by
      rw [whereClause_append]
      simp [appendClause, Clause.conjunct, keyword, String.append_assoc]
    rw [List.foldl_cons, hone, ih]
    simp

theorem appendJoinAndWhereClause_eq (q : SearchQuery V) (queryBuilder : String) :
    q.appendJoinAndWhereClause queryBuilder = q.appendJoin queryBuilder ++
      whereClause (conjuncts q.dottedAlias q.criteria ++ q.andClauses.map Clause.conjunct) := by
  have hempty : (q.criteria.length == 0) = (conjuncts q.dottedAlias q.criteria).isEmpty := by
    cases q.criteria <;> simp [conjuncts, mapBefore]
  unfold appendJoinAndWhereClause
  rw [appendCriteria_eq, hempty]
  exact appendClauses_eq _ _ _

/-! ## The parameters -/

theorem written_append (criteria : List (Criterion V)) (c : Criterion V) :
    written (criteria ++ [c]) =
      written criteria ++ (c.value.map (placeholder criteria, ·)).toList := by
  unfold written
  rw [mapBefore_append, List.filterMap_append]
  cases c.value <;> rfl

theorem setPositions_eq (criteria : List (Criterion V)) :
    setPositions criteria =
      ((written criteria).map fun (i, value) => (.position i, value), placeholder criteria) := by
  unfold setPositions
  induction criteria using List.reverseRecOn with
  | nil => rfl
  | append_singleton criteria c ih =>
    rw [List.foldl_append, ih, written_append]
    cases hvalue : c.value with
    | none => simp [placeholder, hvalue]
    | some v => simp [placeholder, hvalue, Nat.add_assoc]

/-- The placeholders are 1, 2, and so on. -/
theorem written_positions (criteria : List (Criterion V)) :
    (written criteria).map Prod.fst = List.range' 1 (written criteria).length := by
  suffices h : (written criteria).map Prod.fst = List.range' 1 (written criteria).length ∧
      placeholder criteria = 1 + (written criteria).length from h.1
  induction criteria using List.reverseRecOn with
  | nil => exact ⟨rfl, rfl⟩
  | append_singleton criteria c ih =>
    obtain ⟨hpositions, hnext⟩ := ih
    rw [written_append]
    cases hvalue : c.value with
    | none =>
      have hsame : placeholder (criteria ++ [c]) = placeholder criteria := by
        simp [placeholder, hvalue]
      simpa [hsame] using ⟨hpositions, hnext⟩
    | some v =>
      have hone : placeholder (criteria ++ [c]) = placeholder criteria + 1 := by
        simp [placeholder, hvalue, Nat.add_assoc]
      rw [hone, hnext]
      simp [List.range'_concat, hpositions, Nat.add_assoc]

/-- The values that are bound by position. -/
def JpaQuery.positions (query : JpaQuery V) : List (Nat × Value V) :=
  query.parameters.filterMap fun
    | (.position i, value) => some (i, value)
    | (.name _, _) => none

theorem positions_setQueryParameters (q : SearchQuery V) (text : String) :
    (q.setQueryParameters { text }).positions = written q.criteria := by
  have hnames : ∀ clauses : List (Clause V), ((clauses.flatMap fun clause =>
      clause.params.map fun (name, value) => (Parameter.name name, Value.object value)).filterMap
        fun | (.position i, value) => some (i, value) | (.name _, _) => none) = [] := by
    intro clauses
    rw [List.filterMap_eq_nil_iff]
    intro parameter hmem
    obtain ⟨clause, -, hmem⟩ := List.mem_flatMap.mp hmem
    obtain ⟨⟨name, value⟩, -, rfl⟩ := List.mem_map.mp hmem
    rfl
  simp only [JpaQuery.positions, setQueryParameters, List.nil_append, setPositions_eq,
    List.filterMap_append, hnames, List.append_nil, List.filterMap_map]
  exact (List.filterMap_congr fun _ _ => rfl).trans List.filterMap_some

/-! ## Both queries -/

/-- What is selected from, without the where-clause. -/
def source (q : SearchQuery V) : String := q.appendJoin ("from " ++ q.domainClass ++ " " ++ q.entityAlias)

def selected (q : SearchQuery V) : String :=
  if q.distinct then "distinct " ++ q.entityAlias else q.entityAlias

def orderBy (q : SearchQuery V) (pageable : Option Pageable) : String :=
  appendOrder pageable "" (if q.appendEntityAlias then q.entityAlias else "")

theorem appendOneOrder_append (entityName sb sb' : String) (first : Bool) (order : Order) :
    appendOneOrder entityName (sb ++ sb', first) order =
      (sb ++ (appendOneOrder entityName (sb', first) order).1, false) := by
  simp only [appendOneOrder, String.append_assoc]

theorem appendOrder_eq (pageable : Option Pageable) (queryBuilder entityName : String) :
    appendOrder pageable queryBuilder entityName =
      queryBuilder ++ appendOrder pageable "" entityName := by
  cases pageable with
  | none => exact String.append_empty.symm
  | some pageable =>
    suffices h : ∀ (os : List Order) (sb : String) (first : Bool),
        (os.foldl (appendOneOrder entityName) (queryBuilder ++ sb, first)).1 =
          queryBuilder ++ (os.foldl (appendOneOrder entityName) (sb, first)).1 by
      have hstart := h pageable.sort "" true
      rw [String.append_empty] at hstart
      exact hstart
    intro os
    induction os with
    | nil => intro sb first; rfl
    | cons order os ih =>
      intro sb first
      rw [List.foldl_cons, List.foldl_cons, appendOneOrder_append, ih]
      rfl

theorem buildQueryString_run (text : V → String) (domainClass : String) (calls : List (Call V)) :
    (run text domainClass calls).buildQueryString = (run text domainClass calls).source ++
      whereClause (conjuncts (run text domainClass calls).dottedAlias
        (calls.filterMap (Call.criterion text)) ++
          (calls.filterMap Call.clause).map Clause.conjunct) := by
  unfold buildQueryString
  rw [appendJoinAndWhereClause_eq, run_criteria, run_andClauses]
  rfl

/-- What the two queries are for the calls. -/
structure Sound (text : V → String) (q : SearchQuery V) (calls : List (Call V))
    (pageable : Option Pageable) (countQuery query : JpaQuery V) : Prop where
  count_text : countQuery.text = "select count(" ++ q.selected ++ ") " ++ q.source ++
    whereClause (conjuncts q.dottedAlias (calls.filterMap (Call.criterion text)) ++
      (calls.filterMap Call.clause).map Clause.conjunct)
  query_text : query.text = "select " ++ q.selected ++ " " ++ q.source ++
    whereClause (conjuncts q.dottedAlias (calls.filterMap (Call.criterion text)) ++
      (calls.filterMap Call.clause).map Clause.conjunct) ++ q.orderBy pageable
  /-- The value bound to a placeholder is that of the criterion that wrote it. -/
  bound : query.positions = written (calls.filterMap (Call.criterion text))
  ascending : query.positions.map Prod.fst = List.range' 1 query.positions.length
  same : countQuery.parameters = query.parameters

theorem execute_sound (text : V → String) (domainClass : String) (calls : List (Call V))
    (pageable : Option Pageable) (getSingleResult : JpaQuery V → Int) :
    Sound text (run text domainClass calls) calls pageable
      ((run text domainClass calls).execute pageable getSingleResult).1
      ((run text domainClass calls).execute pageable getSingleResult).2 := by
  have hbuilt := buildQueryString_run text domainClass calls
  have hpositions : ((run text domainClass calls).execute pageable getSingleResult).2.positions =
      written (calls.filterMap (Call.criterion text)) := by
    rw [← run_criteria text domainClass]
    cases pageable <;> exact positions_setQueryParameters _ _
  constructor
  · rw [String.append_assoc, ← hbuilt]
    cases pageable <;> rfl
  · have hordered : ((run text domainClass calls).execute pageable getSingleResult).2.text =
        "select " ++ (run text domainClass calls).selected ++ " " ++
          appendOrder pageable (run text domainClass calls).buildQueryString
            (if (run text domainClass calls).appendEntityAlias then
              (run text domainClass calls).entityAlias else "") := by
      cases pageable <;> rfl
    rw [hordered, appendOrder_eq, hbuilt]
    simp only [orderBy, String.append_assoc]
  · exact hpositions
  · rw [hpositions]
    exact written_positions _
  · cases pageable <;> rfl

/-- A call with null between two others, and an operand without a value. -/
example :
    let q : SearchQuery Nat := run toString "User" [.equals "id" (some 7), .like "name" none,
      .isNull "email", .contains "phone" (some 49)]
    q.buildQueryString = "from User e where e.id = ?1 and e.email is null and e.phone like ?2" ∧
      (q.setQueryParameters { text := "" }).positions = [(1, .object 7), (2, .string "%49%")] := by
  decide

end SearchQuery
end Persistence
end AppNG
