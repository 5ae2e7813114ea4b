import AppNG.Config.Datasource
import AppNG.Lib.KeyedMerge

/-!
# Config.Merge

What `DatasourceInheritanceHelper.inherit` makes of the lists of a datasource and its ancestor.

* `inheritObject`: the ancestor is an object that is copied, and the copy is what is changed.
* `keyedMerge_added`, `keyedMerge_overrideFields`, `keyedMerge_overridePanels`: the lists are merged by
  parameter name, label id, field name and panel id.
* `overrideFields_order`: new fields keep their order, if there is a panel that they are placed before.
* `inherit_merges`: all of this, for a datasource and an ancestor that has what the code relies on.
-/

namespace AppNG
namespace Config

variable {C : Type}

/-- A copy of the ancestor is made, and changed. References are indices. None: it throws. -/
def inheritObject (objects : List (Datasource C)) (definition ancestor : Nat) :
    Option (List (Datasource C) × Nat) := do
  let descendantDefinition ← objects[definition]?
  let ancestorObject ← objects[ancestor]?
  let descendant := objects.length
  let objects := objects ++ [ancestorObject]
  let changed ← inherit descendantDefinition ancestorObject
  return (objects.set descendant changed, descendant)

def Datasource.params (d : Datasource C) : List (Param C) := d.config.params.getD []

def Datasource.labels (d : Datasource C) : List Label := d.config.labels.getD []

def Datasource.fields (d : Datasource C) : List (FieldDef C) :=
  (d.config.metaData.map MetaData.fields).getD []

def Datasource.linkpanels (d : Datasource C) : List (Linkpanel C) := d.config.linkpanel

/-- No name and no id is there twice. -/
structure Distinct (d : Datasource C) : Prop where
  params : (d.params.map Param.name).Nodup
  labels : (d.labels.map Label.id).Nodup
  fields : (d.fields.map FieldDef.name).Nodup
  linkpanels : (d.linkpanels.map Linkpanel.id).Nodup

abbrev IsPanel (field : FieldDef C) : Prop := field.type = .linkpanel

/-- The ancestor has a field for links, and the definition neither adds nor takes away one. -/
def KeepsPanels (fields inheritedFields : List (FieldDef C)) : Prop :=
  (∃ f ∈ inheritedFields, IsPanel f) ∧
    ∀ f ∈ fields, IsPanel f ↔ ∃ g ∈ inheritedFields, g.name = f.name ∧ IsPanel g

structure Merged (definition ancestor result : Datasource C) : Prop where
  params : KeyedMerge Param.name definition.params ancestor.params result.params
  labels : KeyedMerge Label.id definition.labels ancestor.labels result.labels
  fields : KeyedMerge FieldDef.name definition.fields ancestor.fields result.fields
  linkpanels : KeyedMerge Linkpanel.id definition.linkpanels ancestor.linkpanels result.linkpanels
  newFields : KeepsPanels definition.fields ancestor.fields →
    (definition.fields.filter fun f => f.name ∉ ancestor.fields.map FieldDef.name).Sublist
      result.fields

/-! ## Elements that are added -/

section Added

variable {α : Type} {key : α → Option String} {a : α} {as inherited : List α}

theorem overrides_addedOne (hnodup : (inherited.map key).Nodup)
    (h : Searchable key (key a) inherited) : Overrides key a inherited (addedOne key inherited a) := by
  unfold addedOne
  by_cases hmem : key a ∈ inherited.map key
  · obtain ⟨b, hb, hkey⟩ := List.mem_map.mp hmem
    have hsome : (key a).isSome = true := by
      rcases h with hall | htake
      · exact hkey ▸ hall b hb
      · exact List.mem_takeWhile_imp htake
    obtain ⟨c, l, r, -, hc, rfl, herase⟩ := List.exists_of_eraseP
      (p := fun b => (key a).isSome && key b = key a) hb (by simp [hsome, hkey])
    have hc : key c = key a := by simpa [hsome] using hc
    rw [herase]
    rw [List.map_append, List.map_cons, List.nodup_middle, List.nodup_cons, hc, ← List.map_append]
      at hnodup
    have hinsert : Overrides key a (l ++ r) (l ++ r ++ [a]) := by
      simpa using Overrides.insert (l := l ++ r) (r := []) (by simpa using hnodup.1)
    exact ⟨by rw [hinsert.others]; simp [hc], hinsert.single⟩
  · rw [List.eraseP_of_forall_not fun b hb hkey => hmem (List.mem_map.mpr ⟨b, hb, by simp_all⟩)]
    simpa using Overrides.insert (l := inherited) (r := []) (by simpa using hmem)

theorem mergeSteps_added (hnodup : (inherited.map key).Nodup) (h : Addable key inherited as) :
    MergeSteps key as inherited (added key inherited as) := by
  induction as generalizing inherited with
  | nil => exact .nil
  | cons a as ih =>
    have hone := overrides_addedOne hnodup h.1
    exact .cons hone (ih (hone.nodup hnodup) h.2)

end Added

/-! ## Elements that are replaced -/

section Replaced

variable {α : Type} {key : α → String} {a : α} {as bs : List α}

theorem replaceBy_eq_none : replaceBy key a as = none ↔ key a ∉ as.map key := by
  induction as with
  | nil => simp [replaceBy]
  | cons b as ih =>
    rw [replaceBy]
    by_cases hkey : key b = key a
    · simp [hkey]
    · simp [hkey, ih, Ne.symm hkey]

theorem replaceBy_eq_some (h : replaceBy key a as = some bs) :
    ∃ l b r, as = l ++ b :: r ∧ key b = key a ∧ bs = l ++ a :: r := by
  induction as generalizing bs with
  | nil => cases h
  | cons b as ih =>
    rw [replaceBy] at h
    by_cases hkey : key b = key a
    · rw [if_pos hkey, Option.some.injEq] at h
      exact ⟨[], b, as, rfl, hkey, h.symm⟩
    · rw [if_neg hkey] at h
      obtain ⟨cs, hcs, rfl⟩ := Option.map_eq_some_iff.mp h
      obtain ⟨l, c, r, rfl, hc, rfl⟩ := ih hcs
      exact ⟨b :: l, c, r, rfl, hc, rfl⟩

/-- An element takes the place of the one with its key, or is put somewhere. -/
theorem overrides_replaceBy (put : α → List α → List α)
    (hput : ∀ as, ∃ l r, as = l ++ r ∧ put a as = l ++ a :: r) (hnodup : (as.map key).Nodup) :
    Overrides key a as ((replaceBy key a as).getD (put a as)) := by
  cases hreplace : replaceBy key a as with
  | none =>
    obtain ⟨l, r, rfl, hl⟩ := hput as
    rw [Option.getD_none, hl]
    exact .insert (replaceBy_eq_none.mp hreplace)
  | some bs =>
    obtain ⟨l, b, r, rfl, hkey, rfl⟩ := replaceBy_eq_some hreplace
    exact .replace hnodup hkey

theorem mergeSteps_replaceBy (put : α → List α → List α)
    (hput : ∀ a as, ∃ l r, as = l ++ r ∧ put a as = l ++ a :: r) {own : List α}
    (hnodup : (as.map key).Nodup) :
    MergeSteps key own as
      (own.foldl (fun inherited a => (replaceBy key a inherited).getD (put a inherited)) as) := by
  induction own generalizing as with
  | nil => exact .nil
  | cons a own ih =>
    have hone := overrides_replaceBy put (hput a) hnodup
    exact .cons hone (ih (hone.nodup hnodup))

end Replaced

theorem mergeSteps_overridePanels {panels inherited : List (Linkpanel C)}
    (hnodup : (inherited.map Linkpanel.id).Nodup) :
    MergeSteps Linkpanel.id panels inherited (overridePanels panels inherited) :=
  mergeSteps_replaceBy (fun panel inherited => inherited ++ [panel])
    (fun _ as => ⟨as, [], (List.append_nil as).symm, rfl⟩) hnodup

theorem placeField_eq (field : FieldDef C) (fields : List (FieldDef C)) :
    ∃ l r, fields = l ++ r ∧ placeField field fields = l ++ field :: r := by
  unfold placeField
  split
  · exact ⟨_, _, List.takeWhile_append_dropWhile.symm, rfl⟩
  · exact ⟨[], fields, rfl, rfl⟩

theorem mergeSteps_overrideFields {fields inherited : List (FieldDef C)}
    (hnodup : (inherited.map FieldDef.name).Nodup) :
    MergeSteps FieldDef.name fields inherited (overrideFields fields inherited) :=
  mergeSteps_replaceBy placeField placeField_eq hnodup

/-! ## The order of new fields -/

section Order

variable {fields inherited l r : List (FieldDef C)} {a b : FieldDef C}

/-- `inherited` after `fields` were put, all new ones before the first panel. -/
structure Placed (fields inherited result : List (FieldDef C)) : Prop where
  nodup : (result.map FieldDef.name).Nodup
  names : ∀ n, n ∈ result.map FieldDef.name ↔
    n ∈ inherited.map FieldDef.name ∨ n ∈ fields.map FieldDef.name
  panels : ∀ n, (∃ f ∈ result, f.name = n ∧ IsPanel f) ↔ ∃ g ∈ inherited, g.name = n ∧ IsPanel g
  order : (fields.filter fun f => f.name ∉ inherited.map FieldDef.name).Sublist
    (result.takeWhile fun f => f.type ≠ .linkpanel)

theorem sublist_takeWhile_replace {own : List (FieldDef C)}
    (hown : a.name ∉ own.map FieldDef.name) (hname : b.name = a.name) (hpanel : IsPanel a ↔ IsPanel b)
    (h : own.Sublist ((l ++ b :: r).takeWhile fun f => f.type ≠ .linkpanel)) :
    own.Sublist ((l ++ a :: r).takeWhile fun f => f.type ≠ .linkpanel) := by
  have hfilter : (own.filter fun f => f.name ≠ a.name) = own := by
    rw [List.filter_eq_self]
    intro f hf
    exact decide_eq_true fun hfa => hown (List.mem_map.mpr ⟨f, hf, hfa⟩)
  rw [List.takeWhile_append] at h ⊢
  split at h
  · rename_i hl
    rw [if_pos hl]
    by_cases hb : IsPanel b
    · have ha := hpanel.mpr hb
      simpa [ha, hb] using h
    · have ha : ¬ IsPanel a := fun ha => hb (hpanel.mp ha)
      simp only [List.takeWhile_cons, ha, hb, ne_eq, not_false_eq_true, decide_true, if_true] at h ⊢
      have hkept := h.filter fun f => f.name ≠ a.name
      rw [hfilter] at hkept
      refine hkept.trans ?_
      simp only [List.filter_append, List.filter_cons, hname, ne_eq, not_true_eq_false, decide_false,
        Bool.false_eq_true, if_false]
      exact List.filter_sublist.append (List.filter_sublist.cons a)
  · rename_i hl
    rwa [if_neg hl]

theorem takeWhile_insert (ha : ¬ IsPanel a) :
    ((inherited.takeWhile fun f => f.type ≠ .linkpanel) ++
        a :: inherited.dropWhile fun f => f.type ≠ .linkpanel).takeWhile (fun f => f.type ≠ .linkpanel) =
      (inherited.takeWhile fun f => f.type ≠ .linkpanel) ++ [a] := by
  induction inherited with
  | nil => simpa using ha
  | cons c inherited ih =>
    by_cases hc : IsPanel c
    · simp [hc, ha]
    · simpa [hc] using ih

/-- A field takes the place of one with its name. -/
theorem Placed.replaced {bs : List (FieldDef C)} (h : Placed fields inherited l)
    (ha : a.name ∉ fields.map FieldDef.name)
    (hpanel : IsPanel a ↔ ∃ g ∈ inherited, g.name = a.name ∧ IsPanel g)
    (hreplace : replaceBy FieldDef.name a l = some bs) : Placed (fields ++ [a]) inherited bs := by
  have hnodup := (overrides_replaceBy placeField (placeField_eq a) h.nodup).nodup h.nodup
  rw [hreplace, Option.getD_some] at hnodup
  obtain ⟨before, b, after, rfl, hname, rfl⟩ := replaceBy_eq_some hreplace
  have hsame : (before ++ a :: after).map FieldDef.name =
      (before ++ b :: after).map FieldDef.name := by simp [hname]
  have hmem : a.name ∈ inherited.map FieldDef.name :=
    ((h.names a.name).mp (by simp [hname])).resolve_right ha
  have hb : IsPanel a ↔ IsPanel b := by
    rw [hpanel, ← h.panels]
    refine ⟨fun ⟨f, hf, hfa, hfpanel⟩ => ?_, fun hb => ⟨b, by simp, hname, hb⟩⟩
    have hfb : f = b := List.inj_on_of_nodup_map h.nodup hf (by simp) (hfa.trans hname.symm)
    exact hfb ▸ hfpanel
  have hkept : ((fields ++ [a]).filter fun f => f.name ∉ inherited.map FieldDef.name) =
      fields.filter fun f => f.name ∉ inherited.map FieldDef.name := by
    rw [List.filter_append, List.filter_cons_of_neg (by simpa using hmem), List.filter_nil,
      List.append_nil]
  refine ⟨hnodup, fun n => ?_, fun n => ?_, ?_⟩
  · rw [hsame, h.names, List.map_append, List.mem_append, ← or_assoc]
    refine ⟨.inl, fun hn => hn.elim id fun hn => .inl ?_⟩
    rw [List.map_singleton, List.mem_singleton] at hn
    exact hn ▸ hmem
  · rw [← h.panels]
    simp only [List.mem_append, List.mem_cons, or_and_right, exists_or, exists_eq_left, hname, hb]
  · rw [hkept]
    refine sublist_takeWhile_replace (fun hmem' => ha ?_) hname hb h.order
    obtain ⟨f, hf, hfa⟩ := List.mem_map.mp hmem'
    exact List.mem_map.mpr ⟨f, (List.mem_filter.mp hf).1, hfa⟩

/-- A field whose name is new comes before the panels. -/
theorem Placed.added (h : Placed fields inherited l) (hsome : ∃ f ∈ inherited, IsPanel f)
    (hpanel : IsPanel a ↔ ∃ g ∈ inherited, g.name = a.name ∧ IsPanel g)
    (hreplace : replaceBy FieldDef.name a l = none) :
    Placed (fields ++ [a]) inherited (placeField a l) := by
  have hnodup := (overrides_replaceBy placeField (placeField_eq a) h.nodup).nodup h.nodup
  rw [hreplace, Option.getD_none] at hnodup
  have hnew := replaceBy_eq_none.mp hreplace
  have hmem : a.name ∉ inherited.map FieldDef.name := fun hmem =>
    hnew ((h.names a.name).mpr (.inl hmem))
  have hnotPanel : ¬ IsPanel a := by
    intro hpanelA
    obtain ⟨g, hg, hga, -⟩ := hpanel.mp hpanelA
    exact hmem (List.mem_map.mpr ⟨g, hg, hga⟩)
  have hany : l.any (fun f => f.type = .linkpanel) = true := by
    obtain ⟨f, hf, hfpanel⟩ := hsome
    obtain ⟨g, hg, -, hgpanel⟩ := (h.panels f.name).mpr ⟨f, hf, rfl, hfpanel⟩
    exact List.any_eq_true.mpr ⟨g, hg, decide_eq_true hgpanel⟩
  have hplace : placeField a l = (l.takeWhile fun f => f.type ≠ .linkpanel) ++
      a :: l.dropWhile fun f => f.type ≠ .linkpanel := if_pos hany
  have hperm : ∀ f, f ∈ placeField a l ↔ f = a ∨ f ∈ l := by
    intro f
    obtain ⟨before, after, hl, hplaced⟩ := placeField_eq a l
    rw [hplaced, hl]
    simp only [List.mem_append, List.mem_cons]
    exact or_left_comm
  refine ⟨hnodup, fun n => ?_, fun n => ?_, ?_⟩
  · rw [List.map_append, List.mem_append, ← or_assoc, ← h.names]
    simp only [List.mem_map, hperm, List.mem_singleton, or_and_right, exists_or, exists_eq_left]
    exact or_comm
  · rw [← h.panels]
    simp only [hperm, or_and_right, exists_or, exists_eq_left, hnotPanel, and_false, false_or]
  · rw [hplace, takeWhile_insert hnotPanel, List.filter_append,
      List.filter_cons_of_pos (by simpa using hmem), List.filter_nil]
    exact h.order.append (List.Sublist.refl _)

theorem placed_step (h : Placed fields inherited l) (ha : a.name ∉ fields.map FieldDef.name)
    (hsome : ∃ f ∈ inherited, IsPanel f)
    (hpanel : IsPanel a ↔ ∃ g ∈ inherited, g.name = a.name ∧ IsPanel g) :
    Placed (fields ++ [a]) inherited ((replaceBy FieldDef.name a l).getD (placeField a l)) := by
  cases hreplace : replaceBy FieldDef.name a l with
  | some bs => exact h.replaced ha hpanel hreplace
  | none => exact h.added hsome hpanel hreplace

theorem placed_overrideFields (hown : (fields.map FieldDef.name).Nodup)
    (hinherited : (inherited.map FieldDef.name).Nodup) (h : KeepsPanels fields inherited) :
    Placed fields inherited (overrideFields fields inherited) := by
  induction fields using List.reverseRecOn with
  | nil => exact ⟨hinherited, by simp [overrideFields], fun n => Iff.rfl, List.nil_sublist _⟩
  | append_singleton fields a ih =>
    rw [List.map_append, List.nodup_append] at hown
    have ha : a.name ∉ fields.map FieldDef.name := fun hmem => hown.2.2 _ hmem _ (by simp) rfl
    have hplaced := ih hown.1 ⟨h.1, fun f hf => h.2 f (List.mem_append_left _ hf)⟩
    have hstep := placed_step hplaced ha h.1 (h.2 a (by simp))
    rw [overrideFields, List.foldl_append]
    exact hstep

theorem overrideFields_order (hown : (fields.map FieldDef.name).Nodup)
    (hinherited : (inherited.map FieldDef.name).Nodup) (h : KeepsPanels fields inherited) :
    (fields.filter fun f => f.name ∉ inherited.map FieldDef.name).Sublist
      (overrideFields fields inherited) :=
  (placed_overrideFields hown hinherited h).order.trans (List.takeWhile_sublist _)

end Order

/-! ## All lists -/

theorem keyedMerge_addedTo {α κ : Type} [DecidableEq κ] {name : α → κ} {f : κ → Option String}
    (hf : Function.Injective f) {own inherited : Option (List α)}
    (hown : ((own.getD []).map name).Nodup) (hinherited : ((inherited.getD []).map name).Nodup)
    (h : ∀ as ∈ own, Addable (fun a => f (name a)) (inherited.getD []) as) :
    KeyedMerge name (own.getD []) (inherited.getD [])
      ((addedTo (fun a => f (name a)) inherited own).getD []) := by
  have hnodup : ∀ as : List α, (as.map name).Nodup → (as.map fun a => f (name a)).Nodup := by
    intro as has
    have hmap := has.map hf
    rwa [List.map_map] at hmap
  cases own with
  | none => exact MergeSteps.nil.keyedMerge hown hinherited
  | some as =>
    have hsteps := mergeSteps_added (hnodup _ hinherited) (h as rfl)
    exact (hsteps.keyedMerge (hnodup as hown) (hnodup _ hinherited)).of_injective hf

theorem merged_inherited {definition ancestor : Datasource C} (h : Inheritable definition ancestor)
    (hdefinition : Distinct definition) (hancestor : Distinct ancestor) :
    Merged definition ancestor (inherited definition ancestor) := by
  obtain ⟨metaData, hmeta⟩ := Option.isSome_iff_exists.mp h.metaData.1
  obtain ⟨ancestorMeta, hmeta'⟩ := Option.isSome_iff_exists.mp h.metaData.2
  have hfields : definition.fields = metaData.fields := by simp [Datasource.fields, hmeta]
  have hfields' : ancestor.fields = ancestorMeta.fields := by simp [Datasource.fields, hmeta']
  have hresult : (inherited definition ancestor).fields =
      overrideFields definition.fields ancestor.fields := by
    rw [hfields, hfields']
    simp [inherited, Datasource.fields, overriding, hmeta, hmeta', overrideMetaData]
  refine ⟨?_, ?_, ?_, ?_, fun hpanels => ?_⟩
  · exact keyedMerge_addedTo (fun _ _ => Option.some.inj) hdefinition.params hancestor.params
      fun as _ => addable_of_isSome (fun _ => rfl) as _
  · refine keyedMerge_addedTo Function.injective_id hdefinition.labels hancestor.labels fun as has => ?_
    obtain ⟨labels, hlabels, hadd⟩ := h.labels as has
    rw [Option.mem_def.mp hlabels]
    exact hadd
  · rw [hresult]
    exact (mergeSteps_overrideFields hancestor.fields).keyedMerge hdefinition.fields hancestor.fields
  · exact (mergeSteps_overridePanels hancestor.linkpanels).keyedMerge hdefinition.linkpanels
      hancestor.linkpanels
  · rw [hresult]
    exact overrideFields_order hdefinition.fields hancestor.fields hpanels

theorem inherit_merges {objects : List (Datasource C)} {definition ancestor : Nat}
    {descendantDefinition ancestorObject : Datasource C}
    (hdefinition : objects[definition]? = some descendantDefinition)
    (hancestor : objects[ancestor]? = some ancestorObject)
    (h : Inheritable descendantDefinition ancestorObject) (hdistinct : Distinct descendantDefinition)
    (hdistinct' : Distinct ancestorObject) :
    ∃ objects' descendant result, inheritObject objects definition ancestor =
        some (objects', descendant) ∧ objects'[descendant]? = some result ∧
      Merged descendantDefinition ancestorObject result ∧
      ∀ i < objects.length, i ≠ descendant ∧ objects'[i]? = objects[i]? := by
  have hinherit := inherit_eq_some.mpr ⟨h, rfl⟩
  refine ⟨(objects ++ [ancestorObject]).set objects.length
      (inherited descendantDefinition ancestorObject), objects.length, _, ?_, ?_,
    merged_inherited h hdistinct hdistinct', fun i hi => ⟨Nat.ne_of_lt hi, ?_⟩⟩
  · simp only [inheritObject, hdefinition, hancestor, hinherit, Option.bind_eq_bind, Option.bind_some]
    rfl
  · simp
  · rw [List.getElem?_set_ne (Ne.symm (Nat.ne_of_lt hi)), List.getElem?_append_left hi]

section Example

/-- A datasource with parameters, text fields, and one panel with these links. -/
def withLinks (id : String) (params fields links : List String) : Datasource (List String) where
  id := id
  config := {
    title := none
    description := none
    labels := none
    permissions := none
    params := some (params.map fun name => ⟨name, []⟩)
    metaData := some ⟨none, none, fields.map fun name => .mk name .text none [] [], []⟩
    linkpanel := [⟨"actions", links⟩]
    content := [] }
  bean := some ⟨none, []⟩
  content := []

def linksOf (d : Datasource (List String)) : List String := d.linkpanels.flatMap Linkpanel.content

theorem inherit_merges_links :
    ∃ objects' descendant result,
      inheritObject [withLinks "b::a" ["p"] ["x"] ["edit"], withLinks "a" ["p", "q"] ["x"] ["delete"]]
        0 1 = some (objects', descendant) ∧ objects'[descendant]? = some result ∧
      Merged (withLinks "b::a" ["p"] ["x"] ["edit"]) (withLinks "a" ["p", "q"] ["x"] ["delete"])
        result ∧
      ∀ i < 2, i ≠ descendant ∧ objects'[i]? =
        [withLinks "b::a" ["p"] ["x"] ["edit"], withLinks "a" ["p", "q"] ["x"] ["delete"]][i]? :=
  inherit_merges rfl rfl
    ⟨⟨rfl, rfl⟩, ⟨rfl, rfl⟩, fun _ h => absurd h (Option.not_mem_none _), fun _ => rfl,
      fun _ h _ _ => Option.some.inj h ▸ trivial⟩
    ⟨by decide, by decide, by decide, by decide⟩ ⟨by decide, by decide, by decide, by decide⟩

/-- The links of a panel that is overridden are lost, a parameter that the ancestor has twice stays
twice, and new fields without a panel of links are put in front, one before the other. -/
theorem overridden_panel_loses_links :
    ((inherit (withLinks "b::a" [] ["x", "y"] ["edit"])
      (withLinks "a" ["p", "p"] [] ["delete"])).map fun r =>
        (linksOf r, r.params.map Param.name, r.fields.map FieldDef.name)) =
      some (["edit"], ["p", "p"], ["y", "x"]) ∧
    ¬ ∀ definition ancestor : Datasource (List String), ∃ r, inherit definition ancestor = some r ∧
      ∀ link, link ∈ linksOf definition ∨ link ∈ linksOf ancestor → (linksOf r).count link = 1 := by
  have hresult : ((inherit (withLinks "b::a" [] ["x", "y"] ["edit"])
      (withLinks "a" ["p", "p"] [] ["delete"])).map fun r =>
        (linksOf r, r.params.map Param.name, r.fields.map FieldDef.name)) =
      some (["edit"], ["p", "p"], ["y", "x"]) := by decide
  refine ⟨hresult, fun h => ?_⟩
  obtain ⟨r, hr, hcount⟩ := h (withLinks "b::a" [] ["x", "y"] ["edit"])
    (withLinks "a" ["p", "p"] [] ["delete"])
  rw [hr, Option.map_some, Option.some.injEq, Prod.mk.injEq] at hresult
  have hdelete := hcount "delete" (.inr (by decide))
  rw [hresult.1] at hdelete
  exact absurd hdelete (by decide)

end Example

end Config
end AppNG
