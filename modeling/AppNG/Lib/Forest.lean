import Mathlib.Tactic.Tauto

/-!
# Lib.Forest

Lists of trees. A forest is empty, or it is a first tree, that is a label and the trees below it, and the
trees beside it.

* `nodes` are all labels, in front of those below them; `tops` are the labels of the trees themselves,
  `nested` the other ones.
* `append` puts the trees of one forest behind those of another one.
* `Rel R`: forests of the same shape whose labels are related by `R`.
* `passes_agree_iff`: a pass through all nodes and one through the tops only give related forests if and only
  if both do the same at the tops, and the first one nothing below.
-/

namespace AppNG

inductive Forest (α : Type) where
  | nil
  | cons (label : α) (below beside : Forest α)
  deriving DecidableEq, Repr

namespace Forest

variable {α β γ : Type}

def nodes : Forest α → List α
  | nil => []
  | cons a below beside => a :: (nodes below ++ nodes beside)

def tops : Forest α → List α
  | nil => []
  | cons a _ beside => a :: tops beside

def nested : Forest α → List α
  | nil => []
  | cons _ below beside => nodes below ++ nested beside

@[simp] theorem nodes_nil : (nil : Forest α).nodes = [] := rfl

@[simp] theorem nodes_cons (a : α) (below beside : Forest α) :
    (cons a below beside).nodes = a :: (below.nodes ++ beside.nodes) := rfl

@[simp] theorem tops_nil : (nil : Forest α).tops = [] := rfl

@[simp] theorem tops_cons (a : α) (below beside : Forest α) :
    (cons a below beside).tops = a :: beside.tops := rfl

@[simp] theorem nested_nil : (nil : Forest α).nested = [] := rfl

@[simp] theorem nested_cons (a : α) (below beside : Forest α) :
    (cons a below beside).nested = below.nodes ++ beside.nested := rfl

/-- The trees of a forest, and behind them those of another one. -/
def append : Forest α → Forest α → Forest α
  | nil, us => us
  | cons a below beside, us => cons a below (append beside us)

@[simp] theorem nil_append (us : Forest α) : append nil us = us := rfl

@[simp] theorem append_nil (ts : Forest α) : ts.append nil = ts := by
  induction ts with
  | nil => rfl
  | cons a below beside _ ih => rw [append, ih]

@[simp] theorem append_assoc (ts us vs : Forest α) :
    (ts.append us).append vs = ts.append (us.append vs) := by
  induction ts with
  | nil => rfl
  | cons a below beside _ ih => simp only [append, ih]

@[simp] theorem nodes_append (ts us : Forest α) : (ts.append us).nodes = ts.nodes ++ us.nodes := by
  induction ts with
  | nil => rfl
  | cons a below beside _ ih => simp [append, ih]

@[simp] theorem tops_append (ts us : Forest α) : (ts.append us).tops = ts.tops ++ us.tops := by
  induction ts with
  | nil => rfl
  | cons a below beside _ ih => simp [append, ih]

/-! ## Passes that may fail -/

/-- Through all nodes, each in front of those below it. -/
def mapM (f : α → Option β) : Forest α → Option (Forest β)
  | nil => some nil
  | cons a below beside =>
    match f a with
    | none => none
    | some b =>
      match mapM f below with
      | none => none
      | some below => (mapM f beside).map (cons b below)

/-- Through the tops only. -/
def mapTopsM (f : α → Option α) : Forest α → Option (Forest α)
  | nil => some nil
  | cons a below beside =>
    match f a with
    | none => none
    | some b => (mapTopsM f beside).map (cons b below)

def Rel (R : α → β → Prop) : Forest α → Forest β → Prop
  | nil, nil => True
  | cons a below beside, cons b below' beside' => R a b ∧ Rel R below below' ∧ Rel R beside beside'
  | _, _ => False

theorem mapM_cons_eq_some {f : α → Option β} {a : α} {below beside : Forest α} {us : Forest β} :
    mapM f (cons a below beside) = some us ↔
      ∃ b below' beside', f a = some b ∧ mapM f below = some below' ∧
        mapM f beside = some beside' ∧ us = cons b below' beside' := by
  rw [mapM]
  cases f a with
  | none => simp
  | some b =>
    cases mapM f below with
    | none => simp
    | some below' =>
      cases mapM f beside with
      | none => simp
      | some beside' => simp [eq_comm]

theorem mapTopsM_cons_eq_some {f : α → Option α} {a : α} {below beside us : Forest α} :
    mapTopsM f (cons a below beside) = some us ↔
      ∃ b beside', f a = some b ∧ mapTopsM f beside = some beside' ∧ us = cons b below beside' := by
  rw [mapTopsM]
  cases f a with
  | none => simp
  | some b =>
    cases mapTopsM f beside with
    | none => simp
    | some beside' => simp [eq_comm]

variable {R : α → α → Prop} {f g : α → Option α}

theorem mapM_rel_iff {ts : Forest α} :
    (∃ us, ts.mapM f = some us ∧ Rel R us ts) ↔ ∀ a ∈ ts.nodes, ∃ b, f a = some b ∧ R b a := by
  induction ts with
  | nil => simp [mapM, Rel]
  | cons a below beside ihBelow ihBeside =>
    simp only [nodes_cons, List.forall_mem_cons, List.forall_mem_append, ← ihBelow, ← ihBeside]
    constructor
    · rintro ⟨us, hmap, hrel⟩
      obtain ⟨b, below', beside', hf, hbelow, hbeside, rfl⟩ := mapM_cons_eq_some.mp hmap
      exact ⟨⟨b, hf, hrel.1⟩, ⟨below', hbelow, hrel.2.1⟩, ⟨beside', hbeside, hrel.2.2⟩⟩
    · rintro ⟨⟨b, hf, hb⟩, ⟨below', hbelow, hrel⟩, ⟨beside', hbeside, hrel'⟩⟩
      exact ⟨_, mapM_cons_eq_some.mpr ⟨b, below', beside', hf, hbelow, hbeside, rfl⟩, hb, hrel,
        hrel'⟩

theorem passes_agree_iff {ts : Forest α} :
    (∃ us vs, ts.mapM f = some us ∧ ts.mapTopsM g = some vs ∧ Rel R us vs) ↔
      (∀ a ∈ ts.tops, ∃ b c, f a = some b ∧ g a = some c ∧ R b c) ∧
        ∀ a ∈ ts.nested, ∃ b, f a = some b ∧ R b a := by
  induction ts with
  | nil => simp [mapM, mapTopsM, Rel]
  | cons a below beside _ ih =>
    simp only [tops_cons, nested_cons, List.forall_mem_cons, List.forall_mem_append, ← mapM_rel_iff]
    constructor
    · rintro ⟨us, vs, hmap, htops, hrel⟩
      obtain ⟨b, below', beside', hf, hbelow, hbeside, rfl⟩ := mapM_cons_eq_some.mp hmap
      obtain ⟨c, beside'', hg, hbeside', rfl⟩ := mapTopsM_cons_eq_some.mp htops
      obtain ⟨hagree, hnested⟩ := ih.mp ⟨beside', beside'', hbeside, hbeside', hrel.2.2⟩
      exact ⟨⟨⟨b, c, hf, hg, hrel.1⟩, hagree⟩, ⟨below', hbelow, hrel.2.1⟩, hnested⟩
    · rintro ⟨⟨⟨b, c, hf, hg, hbc⟩, hagree⟩, ⟨below', hbelow, hrel⟩, hnested⟩
      obtain ⟨beside', beside'', hbeside, htops, hrel'⟩ := ih.mpr ⟨hagree, hnested⟩
      exact ⟨_, _, mapM_cons_eq_some.mpr ⟨b, below', beside', hf, hbelow, hbeside, rfl⟩,
        mapTopsM_cons_eq_some.mpr ⟨c, beside'', hg, htops, rfl⟩, hbc, hrel, hrel'⟩

end Forest
end AppNG
