import AppNG.Config.Provider
import AppNG.Lib.Keyed

/-!
# Config.Inheritance

`ApplicationConfigProviderImpl.processInheritance`: datasources that inherit from others are built
round by round, from the files that were read.

* `Resolves`: the content of a datasource whose chain of ancestors ends, by the chain.
* `step_inv`, `pass_inv`, `processInheritance_inv`: what one datasource, one round and all rounds
  keep, and why they fail.
* `processes_iff`: whatever the order of the definitions, exactly the datasources with such a chain
  are registered and the others reported, if and only if every definition that inherits stands in a
  list and all that is inherited has the parts that the code relies on.
-/

namespace AppNG
namespace Config

variable {C : Type}

/-- A file with a datasource, or with a list of them. -/
inductive DatasourceFile (C : Type) where
  | datasource (ds : Datasource C)
  | datasources (datasourceList : List (Datasource C))

def DatasourceFile.toObject : DatasourceFile C → ConfigObject C
  | datasource ds => .datasource ds
  | datasources datasourceList => .datasources datasourceList

/-- The definitions of a file, each with whether it stands in a list. -/
def DatasourceFile.reads : DatasourceFile C → List (Bool × Datasource C)
  | datasource ds => [(false, ds)]
  | datasources datasourceList => datasourceList.map (true, ·)

def reads (files : List (DatasourceFile C)) : List (Bool × Datasource C) :=
  files.flatMap DatasourceFile.reads

def definitions (files : List (DatasourceFile C)) : List (Datasource C) :=
  (reads files).map Prod.snd

/-- The files are read, and the inheritance is processed. -/
def inheritAll (files : List (DatasourceFile C)) :
    ((String → Option (Datasource C)) × List (Datasource C)) × Option Failure :=
  let config := (Loop.foldUntil readConfig clear (files.map DatasourceFile.toObject)).1
  processInheritance config.datasourceMap config.descendantDatasources

/-! ## What it should do -/

def finalId (ds : Datasource C) : String :=
  if isInheriting ds.id then getDescendantId ds.id else ds.id

/-- The content, bindings set, of the datasource with a final id. -/
inductive Resolves (defs : List (Datasource C)) : String → Datasource C → Prop where
  | root {ds : Datasource C} : ds ∈ defs → isInheriting ds.id = false →
      Resolves defs ds.id (settled ds)
  | child {ds ancestor : Datasource C} : ds ∈ defs → isInheriting ds.id = true →
      Resolves defs (getAncestorId ds.id) ancestor →
      Resolves defs (getDescendantId ds.id) (settled (inherited ds ancestor))

structure Processes (files : List (DatasourceFile C)) (defs : List (Datasource C)) : Prop where
  ends : (inheritAll files).2 = none
  registered : ∀ id content, settledMap (inheritAll files).1.1 id = some content ↔
    Resolves defs id content
  reported : ∀ ds, ds ∈ (inheritAll files).1.2 ↔
    ds ∈ defs ∧ isInheriting ds.id = true ∧ ∀ ancestor, ¬ Resolves defs (getAncestorId ds.id) ancestor

/-! ## Reading -/

/-- What waits for its ancestor. -/
def waits (read : Bool × Datasource C) : Bool := read.1 && isInheriting read.2.id

def readOne (config : LoadState C) (read : Bool × Datasource C) : LoadState C :=
  if waits read then
    { config with descendantDatasources := config.descendantDatasources ++ [read.2] }
  else addDataSource config read.2

theorem readConfig_file (config : LoadState C) (file : DatasourceFile C) :
    readConfig config file.toObject = (file.reads.foldl readOne config, none) := by
  cases file with
  | datasource ds => rfl
  | datasources datasourceList =>
    simp only [DatasourceFile.toObject, readConfig, DatasourceFile.reads, List.foldl_map]
    rfl

theorem foldUntil_readConfig (files : List (DatasourceFile C)) :
    ∀ config : LoadState C, Loop.foldUntil readConfig config (files.map DatasourceFile.toObject) =
      ((reads files).foldl readOne config, none) := by
  induction files with
  | nil => intro config; rfl
  | cons file files ih =>
    intro config
    rw [List.map_cons, Loop.foldUntil_cons_ok (readConfig_file config file), ih]
    simp [reads, List.foldl_append]

theorem foldl_readOne (rs : List (Bool × Datasource C)) :
    ∀ config : LoadState C,
      (rs.foldl readOne config).datasourceMap =
          Keyed.overlay Datasource.id config.datasourceMap
            ((rs.filter fun r => !waits r).map Prod.snd) ∧
        (rs.foldl readOne config).descendantDatasources =
          config.descendantDatasources ++ (rs.filter waits).map Prod.snd := by
  induction rs with
  | nil => intro config; exact ⟨rfl, (List.append_nil _).symm⟩
  | cons r rs ih =>
    intro config
    obtain ⟨hmap, hwait⟩ := ih (readOne config r)
    rw [List.foldl_cons, hmap, hwait]
    cases hr : waits r with
    | true =>
      have hone : readOne config r =
          { config with descendantDatasources := config.descendantDatasources ++ [r.2] } := if_pos hr
      simp [hone, hr]
    | false =>
      have hone : readOne config r = addDataSource config r.2 := if_neg (by rw [hr]; simp)
      simp [hone, hr, addDataSource, Keyed.overlay]

/-! ## Ids -/

theorem cut_cons {c : Char} {cs before behind : List Char} (h : cut (c :: cs) = some (before, behind)) :
    before = [] ∨ ¬ (c = ':' ∧ cs.head? = some ':') ∧
      ∃ before', cut cs = some (before', behind) ∧ before = c :: before' := by
  unfold cut at h
  split at h
  · cases h
    exact .inl rfl
  · rename_i c' cs' hne hcs
    obtain ⟨rfl, rfl⟩ := List.cons.inj hcs
    obtain ⟨⟨before', behind'⟩, hcut, heq⟩ := Option.map_eq_some_iff.mp h
    cases heq
    refine .inr ⟨?_, before', hcut, rfl⟩
    rintro ⟨rfl, hhead⟩
    obtain ⟨t, rfl⟩ := List.head?_eq_some_iff.mp hhead
    exact hne t rfl rfl
  · cases h

theorem head_cut {cs before behind : List Char} {c : Char}
    (h : cut cs = some (c :: before, behind)) : cs.head? = some c := by
  cases cs with
  | nil => cases h
  | cons d cs =>
    rcases cut_cons h with h | ⟨-, before', -, h⟩
    · cases h
    · cases h
      rfl

theorem countMatches_cons {c : Char} {cs : List Char} (h : ¬ (c = ':' ∧ cs.head? = some ':')) :
    countMatches (c :: cs) = countMatches cs := by
  rw [countMatches.eq_2]
  rintro t rfl rfl
  exact h ⟨rfl, rfl⟩

/-- The first part of an id has no separator in it. -/
theorem countMatches_cut :
    ∀ {id before behind : List Char}, cut id = some (before, behind) → countMatches before = 0 := by
  intro id
  induction id with
  | nil => intro before behind h; cases h
  | cons c cs ih =>
    intro before behind h
    rcases cut_cons h with rfl | ⟨hne, before', hcut, rfl⟩
    · rfl
    · rw [countMatches_cons]
      · exact ih hcut
      · rintro ⟨rfl, hhead⟩
        obtain ⟨t, rfl⟩ := List.head?_eq_some_iff.mp hhead
        exact hne ⟨rfl, head_cut hcut⟩

theorem not_isInheriting_getDescendantId (id : String) :
    isInheriting (getDescendantId id) = false := by
  have hcount : countMatches (getDescendantId id).toList = 0 := by
    rw [getDescendantId, String.toList_ofList]
    cases h : cut id.toList with
    | none => rfl
    | some p => exact countMatches_cut h
  simp [isInheriting, hcount]

/-! ## What a datasource resolves to -/

variable {defs : List (Datasource C)} {id : String}

theorem Resolves.not_isInheriting {content : Datasource C} (h : Resolves defs id content) :
    isInheriting id = false := by
  cases h with
  | root _ hid => exact hid
  | child _ _ _ => exact not_isInheriting_getDescendantId _

theorem Resolves.settled {content : Datasource C} (h : Resolves defs id content) :
    Config.settled content = content := by
  cases h with
  | root _ _ => exact settled_idem _
  | child _ _ _ => exact settled_idem _

theorem finalId_root {ds : Datasource C} (h : isInheriting ds.id = false) : finalId ds = ds.id :=
  if_neg (by rw [h]; exact Bool.false_ne_true)

theorem finalId_child {ds : Datasource C} (h : isInheriting ds.id = true) :
    finalId ds = getDescendantId ds.id := if_pos h

/-- One definition for each final id. -/
theorem eq_of_finalId (hnodup : (defs.map finalId).Nodup) {ds ds' : Datasource C} (h : ds ∈ defs)
    (h' : ds' ∈ defs) (heq : finalId ds = finalId ds') : ds = ds' :=
  List.inj_on_of_nodup_map hnodup h h' heq

theorem Resolves.unique (hnodup : (defs.map finalId).Nodup) {content content' : Datasource C}
    (h : Resolves defs id content) (h' : Resolves defs id content') : content = content' := by
  induction h generalizing content' with
  | @root ds hmem hid =>
    generalize hk : ds.id = k at h'
    cases h' with
    | @root ds' hmem' hid' =>
      have hfinal : finalId ds = finalId ds' := by rw [finalId_root hid, finalId_root hid', hk]
      rw [eq_of_finalId hnodup hmem hmem' hfinal]
    | @child ds' _ hmem' hid' _ =>
      have hfinal : finalId ds = finalId ds' := by rw [finalId_root hid, finalId_child hid', hk]
      rw [eq_of_finalId hnodup hmem hmem' hfinal, hid'] at hid
      cases hid
  | @child ds ancestor hmem hid hres ih =>
    generalize hk : getDescendantId ds.id = k at h'
    cases h' with
    | @root ds' hmem' hid' =>
      have hfinal : finalId ds = finalId ds' := by rw [finalId_child hid, finalId_root hid', hk]
      rw [eq_of_finalId hnodup hmem hmem' hfinal, hid'] at hid
      cases hid
    | @child ds' ancestor' hmem' hid' hres' =>
      have hfinal : finalId ds = finalId ds' := by rw [finalId_child hid, finalId_child hid', hk]
      obtain rfl := eq_of_finalId hnodup hmem hmem' hfinal
      rw [ih hres']

/-- Only the set of the definitions matters. -/
theorem Resolves.mono {defs' : List (Datasource C)} (hsub : ∀ ds ∈ defs, ds ∈ defs')
    {content : Datasource C} (h : Resolves defs id content) : Resolves defs' id content := by
  induction h with
  | root hmem hid => exact .root (hsub _ hmem) hid
  | child hmem hid _ ih => exact .child (hsub _ hmem) hid ih

/-! ## One datasource -/

/-- A definition whose ancestor is there, but not all that the code relies on. -/
def Breaks (defs : List (Datasource C)) (ds : Datasource C) : Prop :=
  ∃ ancestor, Resolves defs (getAncestorId ds.id) ancestor ∧ ¬ Inheritable ds ancestor

/-- The map holds what its datasources resolve to, and lacks only what is left. -/
structure Inv (defs : List (Datasource C)) (m : String → Option (Datasource C))
    (left : List (Datasource C)) : Prop where
  sound : ∀ id ds, m id = some ds → Resolves defs id (settled ds)
  roots : ∀ ds ∈ defs, isInheriting ds.id = false → (m ds.id).isSome
  others : ∀ ds ∈ defs, isInheriting ds.id = true → ds ∈ left ∨ (m (getDescendantId ds.id)).isSome ∧
    ∃ ancestor, Resolves defs (getAncestorId ds.id) ancestor ∧ Inheritable ds ancestor
  waiting : ∀ ds ∈ left, ds ∈ defs ∧ isInheriting ds.id = true

theorem isSome_update {m : String → Option (Datasource C)} {k : String} (ds : Datasource C)
    (h : (m id).isSome) : (Function.update m k (some ds) id).isSome := by
  by_cases hk : id = k
  · rw [hk, Function.update_self]
    rfl
  · rw [Function.update_of_ne hk]
    exact h

/-- The bindings of the ancestor are set, and the descendant is registered. -/
theorem Inv.register {m : String → Option (Datasource C)} {left rest : List (Datasource C)}
    {ds ancestor : Datasource C} (h : Inv defs m (left ++ ds :: rest))
    (hres : Resolves defs (getAncestorId ds.id) ancestor) (hinh : Inheritable ds ancestor) :
    Inv defs (Function.update (Function.update m (getAncestorId ds.id) (some ancestor))
      (getDescendantId ds.id) (some (inherited ds ancestor))) (left ++ rest) := by
  obtain ⟨hds, hid⟩ := h.waiting ds (by simp)
  have hkeeps : ∀ id, (m id).isSome → (Function.update (Function.update m
      (getAncestorId ds.id) (some ancestor)) (getDescendantId ds.id)
        (some (inherited ds ancestor)) id).isSome :=
    fun id hsome => isSome_update _ (isSome_update _ hsome)
  constructor
  · intro id x hx
    by_cases hfinal : id = getDescendantId ds.id
    · rw [hfinal, Function.update_self] at hx
      cases hx
      rw [hfinal]
      exact .child hds hid hres
    · rw [Function.update_of_ne hfinal] at hx
      by_cases hanc : id = getAncestorId ds.id
      · rw [hanc, Function.update_self] at hx
        cases hx
        rw [hanc, hres.settled]
        exact hres
      · rw [Function.update_of_ne hanc] at hx
        exact h.sound id x hx
  · intro d hd hroot
    exact hkeeps _ (h.roots d hd hroot)
  · intro d hd hchild
    rcases h.others d hd hchild with hleft | ⟨hsome, hrest⟩
    · rcases List.mem_append.mp hleft with hleft | hleft
      · exact .inl (List.mem_append_left rest hleft)
      · rcases List.mem_cons.mp hleft with rfl | hleft
        · right
          refine ⟨?_, ancestor, hres, hinh⟩
          rw [Function.update_self]
          rfl
        · exact .inl (List.mem_append_right left hleft)
    · exact .inr ⟨hkeeps _ hsome, hrest⟩
  · intro d hd
    refine h.waiting d ?_
    rcases List.mem_append.mp hd with hd | hd
    · exact List.mem_append_left _ hd
    · exact List.mem_append_right _ (List.mem_cons_of_mem ds hd)

/-- What one round of the inner loop does: the datasource waits on, it breaks, or it is
registered. -/
theorem step_inv {m : String → Option (Datasource C)} {left rest : List (Datasource C)}
    {ds : Datasource C} (h : Inv defs m (left ++ ds :: rest)) :
    (m (getAncestorId ds.id) = none ∧ processDescendant (m, left) ds = ((m, left ++ [ds]), none)) ∨
      (Breaks defs ds ∧ ∃ state, processDescendant (m, left) ds = (state, some .nullPointer)) ∨
      ∃ m', processDescendant (m, left) ds = ((m', left), none) ∧ Inv defs m' (left ++ rest) := by
  cases hm : m (getAncestorId ds.id) with
  | none =>
    left
    exact ⟨rfl, by simp only [processDescendant, hm]⟩
  | some ancestor =>
    right
    have hres := h.sound _ _ hm
    cases hinit : initMetaData ancestor with
    | none =>
      left
      refine ⟨⟨settled ancestor, hres, fun hinh => ?_⟩, _,
        by simp only [processDescendant, hm, hinit]; rfl⟩
      obtain ⟨metaData, hmeta⟩ := Option.isSome_iff_exists.mp hinh.metaData.2
      rw [← initMetaData_settled, initMetaData, hmeta] at hinit
      cases hinit
    | some ancestor' =>
      rw [settled_of_initMetaData hinit] at hres
      cases hinherit : inherit ds ancestor' with
      | none =>
        left
        refine ⟨⟨ancestor', hres, fun hinh => ?_⟩, _,
          by simp only [processDescendant, hm, hinit, hinherit]; rfl⟩
        rw [inherit_eq_some.mpr ⟨hinh, rfl⟩] at hinherit
        cases hinherit
      | some descendant =>
        right
        obtain ⟨hinh, rfl⟩ := inherit_eq_some.mp hinherit
        exact ⟨_, by simp only [processDescendant, hm, hinit, hinherit]; rfl, h.register hres hinh⟩

/-! ## One round -/

/-- A round ends with the invariant, or something breaks. If it leaves as many as there were, then
no ancestor was there. -/
theorem pass_inv :
    ∀ {rest left : List (Datasource C)} {m : String → Option (Datasource C)},
      Inv defs m (left ++ rest) →
      (∃ ds ∈ defs, isInheriting ds.id = true ∧ Breaks defs ds) ∧
          (Loop.foldUntil processDescendant (m, left) rest).2 = some .nullPointer ∨
        ∃ m' left', Loop.foldUntil processDescendant (m, left) rest = ((m', left'), none) ∧
          Inv defs m' left' ∧ left'.length ≤ left.length + rest.length ∧
          (left'.length = left.length + rest.length →
            m' = m ∧ left' = left ++ rest ∧ ∀ ds ∈ rest, m (getAncestorId ds.id) = none) := by
  intro rest
  induction rest with
  | nil =>
    intro left m h
    rw [List.append_nil] at h
    exact .inr ⟨m, left, rfl, h, by simp, by simp⟩
  | cons ds rest ih =>
    intro left m h
    rcases step_inv h with ⟨hnone, hstep⟩ | ⟨hbreaks, state, hthrew⟩ | ⟨m', hstep, hinv⟩
    · rw [Loop.foldUntil_cons_ok hstep]
      have hsplit : left ++ ds :: rest = left ++ [ds] ++ rest := by simp
      rw [hsplit] at h
      rcases ih h with hthrew | ⟨m', left', hrest, hinv, hle, hsame⟩
      · exact .inl hthrew
      · simp only [List.length_append, List.length_cons, List.length_nil] at hle hsame ⊢
        refine .inr ⟨m', left', hrest, hinv, by omega, fun hlen => ?_⟩
        obtain ⟨rfl, rfl, hall⟩ := hsame (by omega)
        refine ⟨rfl, hsplit.symm, fun d hd => ?_⟩
        rcases List.mem_cons.mp hd with rfl | hd
        · exact hnone
        · exact hall d hd
    · left
      obtain ⟨hds, hid⟩ := h.waiting ds (by simp)
      refine ⟨⟨ds, hds, hid, hbreaks⟩, ?_⟩
      rw [Loop.foldUntil_cons_threw hthrew]
    · rw [Loop.foldUntil_cons_ok hstep]
      rcases ih hinv with hthrew | ⟨m'', left', hrest, hinv', hle, -⟩
      · exact .inl hthrew
      · simp only [List.length_cons]
        exact .inr ⟨m'', left', hrest, hinv', by omega, fun hlen => by omega⟩

/-! ## All rounds -/

/-- At the end no ancestor of what is left is there. -/
theorem processInheritance_inv (m : String → Option (Datasource C)) (left : List (Datasource C))
    (h : Inv defs m left) :
    (∃ ds ∈ defs, isInheriting ds.id = true ∧ Breaks defs ds) ∧
        (processInheritance m left).2 = some .nullPointer ∨
      ∃ m' left', processInheritance m left = ((m', left'), none) ∧ Inv defs m' left' ∧
        ∀ ds ∈ left', m' (getAncestorId ds.id) = none := by
  fun_induction processInheritance m left with
  | case1 m => exact .inr ⟨m, [], rfl, h, by simp⟩
  | case2 m ds dss state failure hpass =>
    have hstart : Inv defs m ([] ++ ds :: dss) := h
    rcases pass_inv hstart with ⟨hbreaks, hthrew⟩ | ⟨m', left', hok, -⟩
    · rw [hpass] at hthrew
      exact .inl ⟨hbreaks, hthrew⟩
    · rw [hpass] at hok
      cases hok
  | case3 m ds dss state hpass hle =>
    have hstart : Inv defs m ([] ++ ds :: dss) := h
    rcases pass_inv hstart with ⟨-, hthrew⟩ | ⟨m', left', hok, hinv, hlen, hsame⟩
    · rw [hpass] at hthrew
      cases hthrew
    · rw [hpass] at hok
      cases hok
      simp only [List.length_nil, Nat.zero_add] at hlen hsame
      obtain ⟨rfl, rfl, hall⟩ := hsame (Nat.le_antisymm hlen hle)
      exact .inr ⟨m', _, rfl, hinv, hall⟩
  | case4 m ds dss state hpass hlt ih =>
    have hstart : Inv defs m ([] ++ ds :: dss) := h
    rcases pass_inv hstart with ⟨-, hthrew⟩ | ⟨m', left', hok, hinv, -⟩
    · rw [hpass] at hthrew
      cases hthrew
    · rw [hpass] at hok
      cases hok
      exact ih hinv

/-- Whatever is there stays there, also in a run that fails. -/
theorem processDescendant_keeps (state : (String → Option (Datasource C)) × List (Datasource C))
    (ds : Datasource C) (h : (state.1 id).isSome) :
    ((processDescendant state ds).1.1 id).isSome := by
  obtain ⟨m, left⟩ := state
  simp only [processDescendant]
  split
  · exact h
  · split
    · exact h
    · split
      · exact isSome_update _ h
      · exact isSome_update _ (isSome_update _ h)

theorem processInheritance_keeps (m : String → Option (Datasource C)) (left : List (Datasource C))
    (h : (m id).isSome) : ((processInheritance m left).1.1 id).isSome := by
  have hpass : ∀ (state : (String → Option (Datasource C)) × List (Datasource C)) dss,
      (state.1 id).isSome → ((Loop.foldUntil processDescendant state dss).1.1 id).isSome := by
    intro state dss hstate
    let P (state : (String → Option (Datasource C)) × List (Datasource C)) : Prop :=
      (state.1 id).isSome = true
    have hstep : ∀ state ds, ds ∈ dss → P state → P (processDescendant state ds).1 :=
      fun state ds _ hkept => processDescendant_keeps state ds hkept
    exact Loop.foldUntil_inv hstep hstate
  fun_induction processInheritance m left with
  | case1 m => exact h
  | case2 m ds dss state failure hstate =>
    have hkept := hpass (m, []) (ds :: dss) h
    rw [hstate] at hkept
    exact hkept
  | case3 m ds dss state hstate hle =>
    have hkept := hpass (m, []) (ds :: dss) h
    rw [hstate] at hkept
    exact hkept
  | case4 m ds dss state hstate hlt ih =>
    have hkept := hpass (m, []) (ds :: dss) h
    rw [hstate] at hkept
    exact ih hkept

/-- The map has all that resolves, once no ancestor of what is left is there. -/
theorem Inv.complete {m : String → Option (Datasource C)} {left : List (Datasource C)}
    (h : Inv defs m left) (hend : ∀ ds ∈ left, m (getAncestorId ds.id) = none)
    {content : Datasource C} (hres : Resolves defs id content) : (m id).isSome := by
  induction hres with
  | root hmem hid => exact h.roots _ hmem hid
  | @child ds ancestor hmem hid _ ih =>
    rcases h.others ds hmem hid with hleft | ⟨hsome, -⟩
    · rw [hend ds hleft] at ih
      cases ih
    · exact hsome

/-! ## From the files -/

variable {files : List (DatasourceFile C)}

/-- Every definition that inherits stands in a list. -/
def Listed (files : List (DatasourceFile C)) : Prop :=
  ∀ read ∈ reads files, isInheriting read.2.id = true → read.1 = true

theorem mem_definitions {ds : Datasource C} :
    ds ∈ definitions files ↔ ∃ listed, (listed, ds) ∈ reads files := by
  simp [definitions]

/-- The datasources that do not wait when the files are read. -/
def readAtOnce (files : List (DatasourceFile C)) : List (Datasource C) :=
  ((reads files).filter fun r => !waits r).map Prod.snd

def readLater (files : List (DatasourceFile C)) : List (Datasource C) :=
  ((reads files).filter waits).map Prod.snd

theorem inheritAll_eq (files : List (DatasourceFile C)) :
    inheritAll files = processInheritance
      (Keyed.overlay Datasource.id (fun _ => none) (readAtOnce files)) (readLater files) := by
  obtain ⟨hmap, hwait⟩ := foldl_readOne (reads files) clear
  simp only [inheritAll, foldUntil_readConfig, hmap, hwait]
  rfl

theorem mem_readAtOnce (hlisted : Listed files) {ds : Datasource C} :
    ds ∈ readAtOnce files ↔ ds ∈ definitions files ∧ isInheriting ds.id = false := by
  simp only [readAtOnce, List.mem_map, List.mem_filter, Prod.exists, exists_eq_right,
    mem_definitions, waits, Bool.not_eq_true', Bool.and_eq_false_iff]
  constructor
  · rintro ⟨listed, hread, hwaits⟩
    refine ⟨⟨listed, hread⟩, ?_⟩
    rcases hwaits with hfalse | hid
    · rw [Bool.eq_false_iff]
      intro hid
      have htrue := hlisted _ hread hid
      rw [hfalse] at htrue
      cases htrue
    · exact hid
  · rintro ⟨⟨listed, hread⟩, hid⟩
    exact ⟨listed, hread, .inr hid⟩

theorem mem_readLater (hlisted : Listed files) {ds : Datasource C} :
    ds ∈ readLater files ↔ ds ∈ definitions files ∧ isInheriting ds.id = true := by
  simp only [readLater, List.mem_map, List.mem_filter, Prod.exists, exists_eq_right,
    mem_definitions, waits, Bool.and_eq_true]
  constructor
  · rintro ⟨listed, hread, -, hid⟩
    exact ⟨⟨listed, hread⟩, hid⟩
  · rintro ⟨⟨listed, hread⟩, hid⟩
    exact ⟨listed, hread, hlisted _ hread hid, hid⟩

/-- After reading, the datasources that do not inherit are there, and the others wait. -/
theorem inv_init (hnodup : ((definitions files).map finalId).Nodup) (hlisted : Listed files) :
    Inv (definitions files) (Keyed.overlay Datasource.id (fun _ => none) (readAtOnce files))
      (readLater files) := by
  have hinj : ∀ v ∈ readAtOnce files, ∀ w ∈ readAtOnce files, v.id = w.id → v = w := by
    intro v hv w hw hvw
    obtain ⟨hv, hvroot⟩ := (mem_readAtOnce hlisted).mp hv
    obtain ⟨hw, hwroot⟩ := (mem_readAtOnce hlisted).mp hw
    refine eq_of_finalId hnodup hv hw ?_
    rw [finalId_root hvroot, finalId_root hwroot, hvw]
  constructor
  · intro id ds hds
    obtain ⟨hmem, rfl⟩ := (Keyed.overlay_eq_some hinj).mp hds
    obtain ⟨hmem, hroot⟩ := (mem_readAtOnce hlisted).mp hmem
    exact .root hmem hroot
  · intro ds hmem hroot
    have hds := (Keyed.overlay_eq_some hinj).mpr ⟨(mem_readAtOnce hlisted).mpr ⟨hmem, hroot⟩, rfl⟩
    rw [hds]
    rfl
  · intro ds hmem hid
    exact .inl ((mem_readLater hlisted).mpr ⟨hmem, hid⟩)
  · intro ds hds
    exact (mem_readLater hlisted).mp hds

/-- All that is inherited has the parts that the code relies on. -/
def AllInheritable (defs : List (Datasource C)) : Prop :=
  ∀ ds ∈ defs, isInheriting ds.id = true →
    ∀ ancestor, Resolves defs (getAncestorId ds.id) ancestor → Inheritable ds ancestor

/-- A datasource of a file of its own is registered as it is. -/
theorem listed_of_processes (h : Processes files (definitions files)) : Listed files := by
  rintro ⟨listed, ds⟩ hread hid
  cases listed with
  | true => rfl
  | false =>
    have hmem : ds ∈ readAtOnce files := by
      refine List.mem_map.mpr ⟨(false, ds), List.mem_filter.mpr ⟨hread, rfl⟩, rfl⟩
    obtain ⟨w, -, -, hpresent⟩ : ∃ w ∈ readAtOnce files, w.id = ds.id ∧
        Keyed.overlay Datasource.id (fun _ => none) (readAtOnce files) ds.id = some w :=
      Keyed.overlay_of_present ⟨ds, hmem, rfl⟩
    have hthere := Option.isSome_iff_exists.mpr ⟨w, hpresent⟩
    have hsome := processInheritance_keeps _ (readLater files) hthere
    rw [← inheritAll_eq] at hsome
    obtain ⟨x, hx⟩ := Option.isSome_iff_exists.mp hsome
    have hres := (h.registered ds.id (settled x)).mp (by rw [settledMap, hx]; rfl)
    have hno : isInheriting ds.id = false := hres.not_isInheriting
    rw [hid] at hno
    cases hno

/-- In the order in which the definitions are read. -/
theorem processes_iff_order (hnodup : ((definitions files).map finalId).Nodup) :
    Processes files (definitions files) ↔
      Listed files ∧ AllInheritable (definitions files) := by
  constructor
  · intro h
    have hlisted := listed_of_processes h
    refine ⟨hlisted, fun ds hds hid ancestor hres => ?_⟩
    have hends := h.ends
    rw [inheritAll_eq] at hends
    rcases processInheritance_inv _ _ (inv_init hnodup hlisted) with
      ⟨-, hthrew⟩ | ⟨m, left, -, hinv, hend⟩
    · rw [hthrew] at hends
      cases hends
    · rcases hinv.others ds hds hid with hleft | ⟨-, ancestor', hres', hinh⟩
      · have hsome := hinv.complete hend hres
        rw [hend ds hleft] at hsome
        cases hsome
      · rw [hres.unique hnodup hres']
        exact hinh
  · rintro ⟨hlisted, hall⟩
    rcases processInheritance_inv _ _ (inv_init hnodup hlisted) with
      ⟨⟨ds, hds, hid, ancestor, hres, hbreaks⟩, -⟩ | ⟨m, left, hresult, hinv, hend⟩
    · exact absurd (hall ds hds hid ancestor hres) hbreaks
    · rw [← inheritAll_eq] at hresult
      constructor
      · rw [hresult]
      · intro id content
        rw [hresult]
        constructor
        · intro hsome
          obtain ⟨ds, hds, rfl⟩ := Option.map_eq_some_iff.mp hsome
          exact hinv.sound id ds hds
        · intro hres
          obtain ⟨ds, hds⟩ := Option.isSome_iff_exists.mp (hinv.complete hend hres)
          rw [hres.unique hnodup (hinv.sound id ds hds)]
          exact congrArg (Option.map settled) hds
      · intro ds
        rw [hresult]
        constructor
        · intro hleft
          obtain ⟨hds, hid⟩ := hinv.waiting ds hleft
          refine ⟨hds, hid, fun ancestor hres => ?_⟩
          have hsome := hinv.complete hend hres
          rw [hend ds hleft] at hsome
          cases hsome
        · rintro ⟨hds, hid, hnone⟩
          rcases hinv.others ds hds hid with hleft | ⟨-, ancestor, hres, -⟩
          · exact hleft
          · exact absurd hres (hnone ancestor)

theorem resolves_congr {defs' : List (Datasource C)} (hmem : ∀ ds, ds ∈ defs ↔ ds ∈ defs')
    {content : Datasource C} : Resolves defs id content ↔ Resolves defs' id content :=
  ⟨Resolves.mono fun ds => (hmem ds).mp, Resolves.mono fun ds => (hmem ds).mpr⟩

/-- In every order. -/
theorem processes_iff (hnodup : ((definitions files).map finalId).Nodup) :
    (∀ files' : List (DatasourceFile C), (reads files').Perm (reads files) →
      Processes files' (definitions files)) ↔
      Listed files ∧ AllInheritable (definitions files) := by
  constructor
  · intro h
    exact (processes_iff_order hnodup).mp (h files (List.Perm.refl _))
  · rintro ⟨hlisted, hall⟩ files' hperm
    have hdefs : (definitions files').Perm (definitions files) := hperm.map Prod.snd
    have hmem : ∀ ds, ds ∈ definitions files' ↔ ds ∈ definitions files := fun ds => hdefs.mem_iff
    have hlisted' : Listed files' := fun read hread => hlisted read (hperm.mem_iff.mp hread)
    have hall' : AllInheritable (definitions files') := by
      intro ds hds hid ancestor hres
      exact hall ds ((hmem ds).mp hds) hid ancestor ((resolves_congr hmem).mp hres)
    have hnodup' : ((definitions files').map finalId).Nodup :=
      ((hdefs.map finalId).nodup_iff).mpr hnodup
    have hprocesses := (processes_iff_order hnodup').mpr ⟨hlisted', hall'⟩
    refine ⟨hprocesses.ends, fun id content => ?_, fun ds => ?_⟩
    · rw [hprocesses.registered, resolves_congr hmem]
    · rw [hprocesses.reported, hmem]
      simp only [resolves_congr hmem]

section Example

/-- A datasource without texts and fields. -/
def plain (id : String) : Datasource Unit where
  id := id
  config := ⟨none, none, none, none, none, some ⟨none, none, [], ()⟩, [], ()⟩
  bean := some ⟨some "bean", []⟩
  content := ()

/-- A child that stands before its parent, in one list. -/
def inOneList : List (DatasourceFile Unit) := [.datasources [plain "b::a", plain "a"]]

/-- The same with a file for each of them. -/
def inTwoFiles : List (DatasourceFile Unit) := [.datasource (plain "b::a"), .datasource (plain "a")]

/-- In the other order. -/
theorem processes_iff_inOneList :
    Processes [.datasources [plain "a", plain "b::a"]] (definitions inOneList) := by
  have hnodup : ((definitions inOneList).map finalId).Nodup := by decide
  refine (processes_iff hnodup).mpr ⟨?_, ?_⟩ _ (List.Perm.swap _ _ _)
  · intro read hread hid
    simp only [reads, inOneList, DatasourceFile.reads, List.flatMap_cons, List.flatMap_nil,
      List.append_nil, List.mem_map] at hread
    obtain ⟨_, -, rfl⟩ := hread
    rfl
  · intro ds hds hid ancestor hres
    have hparent : plain "a" ∈ definitions inOneList := by
      simp [definitions, reads, inOneList, DatasourceFile.reads]
    have hroot : Resolves (definitions inOneList) "a" (settled (plain "a")) :=
      .root hparent (by decide)
    have hchild : ds = plain "b::a" := by
      simp only [definitions, reads, inOneList, DatasourceFile.reads, List.flatMap_cons,
        List.flatMap_nil, List.append_nil, List.map_cons, List.map_nil, List.mem_cons,
        List.not_mem_nil, or_false] at hds
      rcases hds with rfl | rfl
      · rfl
      · exact absurd hid (by decide)
    subst hchild
    have hid : getAncestorId (plain "b::a").id = "a" := by decide
    rw [hid] at hres
    obtain rfl := hres.unique hnodup hroot
    exact ⟨⟨rfl, rfl⟩, ⟨rfl, rfl⟩, by simp [plain], by simp [plain], by simp [plain, Addable]⟩

/-- The child is registered under the id with the separator. -/
theorem registered_with_separator :
    ((inheritAll inTwoFiles).1.1 "b::a").isSome = true ∧
    ((inheritAll inTwoFiles).1.1 "b").isSome = false ∧
    ¬ ∀ files : List (DatasourceFile Unit), ((definitions files).map finalId).Nodup →
      Processes files (definitions files) := by
  have hread : inheritAll inTwoFiles =
      ((Function.update (Function.update (fun _ => none) "b::a" (some (plain "b::a"))) "a"
        (some (plain "a")), []), none) := by
    simp [inheritAll, inTwoFiles, Loop.foldUntil, DatasourceFile.toObject, readConfig, addDataSource,
      clear, plain]
  refine ⟨?_, ?_, fun h => ?_⟩
  · simp [hread]
  · simp [hread]
  · have hlisted := listed_of_processes (h inTwoFiles (by decide))
    have hfalse := hlisted (false, plain "b::a")
      (by simp [reads, inTwoFiles, DatasourceFile.reads]) (by decide)
    cases hfalse

end Example

end Config
end AppNG
