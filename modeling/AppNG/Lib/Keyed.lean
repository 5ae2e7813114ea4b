import Mathlib.Data.List.Nodup
import Mathlib.Logic.Function.Basic

/-!
# Lib.Keyed

Finite maps whose keys are a function of their values.

`Keyed key` holds values no two of which have the same key, so that an entry under a key that is not
its own cannot be built. Where nothing but `get`, `put` and `erase` is used, the order of the values
means nothing: a loop over the map is a loop over some permutation of them. `filter` and `place` keep
the order, for maps that are lists without repeated keys.

`overlay key m vs` is what a lookup in `m` becomes when the values `vs` are put one after another:
a key of some of them gives one of them, every other key what it gave before.
-/

namespace AppNG

structure Keyed {κ ν : Type} (key : ν → κ) where
  values : List ν
  nodup : (values.map key).Nodup

namespace Keyed

variable {κ ν : Type} {key : ν → κ}

theorem eq_of_key_eq {m : Keyed key} {v w : ν} (hv : v ∈ m.values) (hw : w ∈ m.values)
    (h : key v = key w) : v = w :=
  List.inj_on_of_nodup_map m.nodup hv hw h

def empty : Keyed key := ⟨[], List.nodup_nil⟩

def filter (m : Keyed key) (p : ν → Bool) : Keyed key :=
  ⟨m.values.filter p, m.nodup.sublist (List.filter_sublist.map key)⟩

@[simp] theorem mem_filter {m : Keyed key} {p : ν → Bool} {v : ν} :
    v ∈ (m.filter p).values ↔ v ∈ m.values ∧ p v = true := List.mem_filter

theorem filter_congr {m : Keyed key} {p q : ν → Bool} (h : ∀ v ∈ m.values, p v = q v) :
    m.filter p = m.filter q := by
  have hvalues : m.values.filter p = m.values.filter q := List.filter_congr h
  simp only [filter, hvalues]

theorem ext_values {m n : Keyed key} (h : m.values = n.values) : m = n := by
  cases m
  cases h
  rfl

theorem eq_empty {m : Keyed key} (h : m.values = []) : m = empty := ext_values h

@[simp] theorem not_mem_empty {v : ν} : v ∉ (empty : Keyed key).values := List.not_mem_nil

/-- Every value is replaced by one with its key. -/
def mapValues (m : Keyed key) (f : ν → ν) (hf : ∀ v, key (f v) = key v) : Keyed key :=
  ⟨m.values.map f, by
    rw [List.map_map, show key ∘ f = key from funext hf]
    exact m.nodup⟩

theorem mem_mapValues {m : Keyed key} {f : ν → ν} (hf : ∀ v, key (f v) = key v) {w : ν} :
    w ∈ (m.mapValues f hf).values ↔ ∃ v ∈ m.values, f v = w := List.mem_map

variable [DecidableEq κ] {m : Keyed key} {k : κ} {v w : ν}

theorem nodup_erase (m : Keyed key) (k : κ) :
    ((m.values.filter fun v => key v ≠ k).map key).Nodup :=
  m.nodup.sublist (List.filter_sublist.map key)

def erase (m : Keyed key) (k : κ) : Keyed key :=
  ⟨m.values.filter fun v => key v ≠ k, nodup_erase m k⟩

@[simp] theorem mem_erase : w ∈ (m.erase k).values ↔ w ∈ m.values ∧ key w ≠ k := by
  simp [erase]

theorem nodup_put (m : Keyed key) (v : ν) : ((v :: (m.erase (key v)).values).map key).Nodup := by
  rw [List.map_cons, List.nodup_cons]
  refine ⟨fun h => ?_, (m.erase (key v)).nodup⟩
  obtain ⟨w, hw, hkey⟩ := List.mem_map.mp h
  exact (mem_erase.mp hw).2 hkey

/-- A value takes the place of the one with its key. -/
def put (m : Keyed key) (v : ν) : Keyed key := ⟨v :: (m.erase (key v)).values, nodup_put m v⟩

@[simp] theorem mem_put : w ∈ (m.put v).values ↔ w = v ∨ w ∈ m.values ∧ key w ≠ key v := by
  simp [put]

def get (m : Keyed key) (k : κ) : Option ν := m.values.find? fun v => key v = k

theorem get_eq_some : m.get k = some v ↔ v ∈ m.values ∧ key v = k := by
  constructor
  · intro h
    exact ⟨List.mem_of_find?_eq_some h, by simpa using List.find?_some h⟩
  · rintro ⟨hv, hk⟩
    cases hget : m.get k with
    | none =>
      have hnone := List.find?_eq_none.mp hget v hv
      simp [hk] at hnone
    | some w =>
      have hw : w ∈ m.values := List.mem_of_find?_eq_some hget
      have hkw : key w = k := by simpa using List.find?_some hget
      rw [eq_of_key_eq hw hv (hkw.trans hk.symm)]

theorem get_eq_none : m.get k = none ↔ ∀ v ∈ m.values, key v ≠ k := by
  simp [get]

theorem isSome_get : (m.get k).isSome ↔ k ∈ m.values.map key := by
  rw [Option.isSome_iff_exists, List.mem_map]
  simp only [get_eq_some]

theorem get_key (h : v ∈ m.values) : m.get (key v) = some v := get_eq_some.mpr ⟨h, rfl⟩

theorem get_put : (m.put v).get k = if key v = k then some v else m.get k := by
  split
  · rename_i hk
    exact get_eq_some.mpr ⟨mem_put.mpr (.inl rfl), hk⟩
  · rename_i hk
    cases hget : m.get k with
    | none =>
      rw [get_eq_none] at hget ⊢
      intro w hw
      rcases mem_put.mp hw with rfl | ⟨hw, -⟩
      · exact hk
      · exact hget w hw
    | some w =>
      obtain ⟨hw, rfl⟩ := get_eq_some.mp hget
      exact get_key (mem_put.mpr (.inr ⟨hw, Ne.symm hk⟩))

theorem get_erase {l : κ} : (m.erase l).get k = if k = l then none else m.get k := by
  split
  · rename_i hk
    rw [get_eq_none]
    intro w hw
    exact hk ▸ (mem_erase.mp hw).2
  · rename_i hk
    cases hget : m.get k with
    | none =>
      rw [get_eq_none] at hget ⊢
      intro w hw
      exact hget w (mem_erase.mp hw).1
    | some w =>
      obtain ⟨hw, rfl⟩ := get_eq_some.mp hget
      exact get_key (mem_erase.mpr ⟨hw, hk⟩)

theorem get_filter {p : ν → Bool} : (m.filter p).get k = (m.get k).filter p := by
  cases hget : m.get k with
  | none =>
    rw [get_eq_none] at hget
    exact get_eq_none.mpr fun v hv => hget v (mem_filter.mp hv).1
  | some v =>
    obtain ⟨hv, hk⟩ := get_eq_some.mp hget
    by_cases hp : p v = true
    · rw [Option.filter_some_pos hp]
      exact get_eq_some.mpr ⟨mem_filter.mpr ⟨hv, hp⟩, hk⟩
    · rw [Option.filter_some_neg (by simpa using hp)]
      refine get_eq_none.mpr fun w hw hkey => hp ?_
      obtain ⟨hw, hpw⟩ := mem_filter.mp hw
      rwa [eq_of_key_eq hw hv (hkey.trans hk.symm)] at hpw

/-! ## Keys -/

/-- There is a value with the key. -/
def Has (m : Keyed key) (k : κ) : Prop := ∃ v ∈ m.values, key v = k

omit [DecidableEq κ] in
theorem has_of_mem (h : v ∈ m.values) : m.Has (key v) := ⟨v, h, rfl⟩

theorem has_iff_isSome : m.Has k ↔ (m.get k).isSome = true := by
  rw [isSome_get, List.mem_map]
  exact Iff.rfl

theorem has_of_get (h : m.get k = some v) : m.Has k := has_iff_isSome.mpr (by rw [h]; rfl)

theorem has_put : (m.put v).Has k ↔ key v = k ∨ m.Has k := by
  rw [has_iff_isSome, has_iff_isSome, get_put]
  by_cases h : key v = k
  · simp [h]
  · simp [h]

theorem has_erase {l : κ} : (m.erase l).Has k ↔ m.Has k ∧ k ≠ l := by
  rw [has_iff_isSome, has_iff_isSome, get_erase]
  by_cases h : k = l
  · simp [h]
  · simp [h]

omit [DecidableEq κ] in
theorem has_mapValues {f : ν → ν} (hf : ∀ v, key (f v) = key v) : (m.mapValues f hf).Has k ↔ m.Has k := by
  constructor
  · rintro ⟨w, hw, rfl⟩
    obtain ⟨v, hv, rfl⟩ := (mem_mapValues hf).mp hw
    exact ⟨v, hv, (hf v).symm⟩
  · rintro ⟨v, hv, rfl⟩
    exact ⟨f v, (mem_mapValues hf).mpr ⟨v, hv, rfl⟩, hf v⟩

/-! ## Counting -/

theorem filter_key : m.values.filter (fun v => key v = k) = (m.get k).toList := by
  cases hget : m.get k with
  | none =>
    rw [Option.toList_none, List.filter_eq_nil_iff]
    intro v hv
    simpa using get_eq_none.mp hget v hv
  | some v =>
    obtain ⟨hv, rfl⟩ := get_eq_some.mp hget
    have hnodup : (m.values.filter fun w => key w = key v).Nodup := (List.Nodup.of_map key m.nodup).filter _
    refine List.perm_singleton.mp ((List.perm_ext_iff_of_nodup hnodup (List.nodup_singleton v)).mpr fun w => ?_)
    rw [List.mem_filter, List.mem_singleton]
    constructor
    · rintro ⟨hw, hkey⟩
      exact eq_of_key_eq hw hv (by simpa using hkey)
    · rintro rfl
      exact ⟨hv, by simp⟩

theorem countP_put (p : ν → Bool) :
    (m.put v).values.countP p + (m.get (key v)).toList.countP p = m.values.countP p + [v].countP p := by
  have hsplit := List.countP_eq_countP_filter_add m.values p fun w => key w ≠ key v
  have hrest : m.values.filter (fun w => !decide (key w ≠ key v)) = (m.get (key v)).toList := by
    rw [← filter_key]
    exact List.filter_congr fun w _ => by simp
  rw [hrest] at hsplit
  have hput : (m.put v).values.countP p = [v].countP p + (m.erase (key v)).values.countP p := by
    show (v :: (m.erase (key v)).values).countP p = _
    rw [← List.singleton_append, List.countP_append]
  rw [hput, hsplit]
  show _ + (m.values.filter fun w => key w ≠ key v).countP p + _ = _
  omega

/-! ## Maps with an order -/

section Place

/-- Replacing a value by one with its key. -/
def swap (key : ν → κ) (v w : ν) : ν := if key w = key v then v else w

theorem key_swap : key (swap key v w) = key w := by
  unfold swap
  split
  · rename_i h
    exact h.symm
  · rfl

theorem map_key_swap (vs : List ν) : (vs.map (swap key v)).map key = vs.map key := by
  rw [List.map_map]
  exact List.map_congr_left fun w _ => key_swap

def placed (key : ν → κ) (vs : List ν) (v : ν) : List ν :=
  if key v ∈ vs.map key then vs.map (swap key v) else vs ++ [v]

theorem map_key_placed (vs : List ν) (v : ν) :
    (placed key vs v).map key =
      if key v ∈ vs.map key then vs.map key else vs.map key ++ [key v] := by
  unfold placed
  split
  · exact map_key_swap vs
  · rw [List.map_append]
    rfl

theorem nodup_placed (m : Keyed key) (v : ν) : ((placed key m.values v).map key).Nodup := by
  rw [map_key_placed]
  split
  · exact m.nodup
  · rename_i h
    exact List.nodup_append.mpr ⟨m.nodup, List.nodup_singleton _, by
      intro k hk l hl
      rw [List.mem_singleton.mp hl]
      exact fun hkl => h (hkl ▸ hk)⟩

/-- A value takes the position of the one with its key, or the last one. -/
def place (m : Keyed key) (v : ν) : Keyed key := ⟨placed key m.values v, nodup_placed m v⟩

theorem mem_of_mem_placed {vs : List ν} {v w : ν} (h : w ∈ placed key vs v) : w ∈ vs ∨ w = v := by
  unfold placed at h
  split at h
  · obtain ⟨u, hu, rfl⟩ := List.mem_map.mp h
    unfold swap
    split
    · exact .inr rfl
    · exact .inl hu
  · rcases List.mem_append.mp h with h | h
    · exact .inl h
    · exact .inr (List.mem_singleton.mp h)

theorem mem_of_mem_foldl_place {vs : List ν} :
    ∀ {m : Keyed key}, w ∈ (vs.foldl place m).values → w ∈ m.values ∨ w ∈ vs := by
  induction vs with
  | nil => intro m h; exact .inl h
  | cons v vs ih =>
    intro m h
    rcases ih h with h | h
    · rcases mem_of_mem_placed h with h | h
      · exact .inl h
      · exact .inr (by rw [h]; exact List.mem_cons_self)
    · exact .inr (List.mem_cons_of_mem v h)

theorem place_of_not_mem (h : key v ∉ m.values.map key) : (m.place v).values = m.values ++ [v] :=
  if_neg h

theorem place_of_getElem? {i : Nat} (h : (m.values.map key)[i]? = some (key v)) :
    (m.place v).values = m.values.set i v := by
  have hmem : key v ∈ m.values.map key := List.mem_of_getElem? h
  have hvalues : (m.place v).values = m.values.map (swap key v) := if_pos hmem
  rw [hvalues]
  refine List.ext_getElem? fun j => ?_
  rw [List.getElem?_map, List.getElem?_set]
  rw [List.getElem?_map] at h
  obtain ⟨u, hu, huv⟩ := Option.map_eq_some_iff.mp h
  by_cases hij : i = j
  · subst hij
    have hlt : i < m.values.length := (List.getElem?_eq_some_iff.mp hu).1
    rw [if_pos rfl, if_pos hlt, hu]
    simp [swap, huv]
  · rw [if_neg hij]
    cases hj : m.values[j]? with
    | none => rfl
    | some w =>
      have hne : key w ≠ key v := by
        intro hwv
        have hkeys : (m.values.map key)[i]? = (m.values.map key)[j]? := by
          rw [List.getElem?_map, List.getElem?_map, hu, hj, Option.map_some, Option.map_some, huv,
            hwv]
        have hlt : i < (m.values.map key).length := by
          rw [List.length_map]
          exact (List.getElem?_eq_some_iff.mp hu).1
        exact hij ((List.getElem?_inj hlt m.nodup).mp hkeys)
      simp [swap, hne]

theorem map_key_place (m : Keyed key) (v : ν) :
    (m.place v).values.map key =
      if key v ∈ m.values.map key then m.values.map key else m.values.map key ++ [key v] :=
  map_key_placed m.values v

/-- No value moves. -/
theorem keys_place (m : Keyed key) (v : ν) :
    m.values.map key <+: (m.place v).values.map key := by
  rw [map_key_place]
  split
  · exact List.prefix_rfl
  · exact List.prefix_append _ _

theorem mem_keys_place (h : k ∈ (m.place v).values.map key) :
    k ∈ m.values.map key ∨ k = key v := by
  rw [map_key_place] at h
  split at h
  · exact .inl h
  · rcases List.mem_append.mp h with h | h
    · exact .inl h
    · exact .inr (List.mem_singleton.mp h)

end Place

/-! ## Putting one value after another -/

def overlay (key : ν → κ) (m : κ → Option ν) (vs : List ν) : κ → Option ν :=
  vs.foldl (fun m v => Function.update m (key v) (some v)) m

section Overlay

variable {m : κ → Option ν} {vs ws : List ν}

@[simp] theorem overlay_nil : overlay key m [] = m := rfl

theorem overlay_append : overlay key m (vs ++ ws) = overlay key (overlay key m vs) ws :=
  List.foldl_append

theorem get_foldl_put {m : Keyed key} {vs : List ν} :
    (vs.foldl put m).get = overlay key m.get vs := by
  induction vs generalizing m with
  | nil => rfl
  | cons v vs ih =>
    have hput : (m.put v).get = Function.update m.get (key v) (some v) := by
      funext l
      rw [get_put, Function.update_apply]
      simp only [eq_comm]
    rw [List.foldl_cons, ih, hput]
    rfl

theorem overlay_of_absent (h : ∀ v ∈ vs, key v ≠ k) : overlay key m vs k = m k := by
  induction vs generalizing m with
  | nil => rfl
  | cons v vs ih =>
    have hrest : overlay key m (v :: vs) k = Function.update m (key v) (some v) k :=
      ih fun w hw => h w (List.mem_cons_of_mem v hw)
    rw [hrest, Function.update_of_ne (Ne.symm (h v List.mem_cons_self))]

theorem overlay_of_present (h : ∃ v ∈ vs, key v = k) :
    ∃ w ∈ vs, key w = k ∧ overlay key m vs k = some w := by
  induction vs generalizing m with
  | nil =>
    obtain ⟨v, hv, -⟩ := h
    cases hv
  | cons v vs ih =>
    by_cases hlater : ∃ w ∈ vs, key w = k
    · obtain ⟨w, hw, hkey, heq⟩ := ih hlater (m := Function.update m (key v) (some v))
      exact ⟨w, List.mem_cons_of_mem v hw, hkey, heq⟩
    · have habsent : ∀ w ∈ vs, key w ≠ k := fun w hw hkey => hlater ⟨w, hw, hkey⟩
      have hv : key v = k := by
        obtain ⟨u, hu, hkey⟩ := h
        rcases List.mem_cons.mp hu with rfl | hu
        · exact hkey
        · exact absurd hkey (habsent u hu)
      refine ⟨v, List.mem_cons_self, hv, ?_⟩
      calc overlay key m (v :: vs) k
          = Function.update m (key v) (some v) k := overlay_of_absent habsent
        _ = some v := by rw [← hv, Function.update_self]

/-- A map that is filled with values of which no two have the same key. -/
theorem get_foldl_put_empty (h : ∀ v ∈ vs, ∀ w ∈ vs, key v = key w → v = w) :
    (vs.foldl put (empty : Keyed key)).get k = some v ↔ v ∈ vs ∧ key v = k := by
  rw [get_foldl_put]
  constructor
  · intro hv
    by_cases hk : ∃ w ∈ vs, key w = k
    · obtain ⟨w, hw, hkey, heq⟩ := overlay_of_present (m := (empty : Keyed key).get) hk
      obtain rfl := Option.some.inj (heq.symm.trans hv)
      exact ⟨hw, hkey⟩
    · rw [overlay_of_absent fun w hw hkey => hk ⟨w, hw, hkey⟩] at hv
      cases hv
  · rintro ⟨hv, rfl⟩
    obtain ⟨w, hw, hkey, heq⟩ := overlay_of_present (m := (empty : Keyed key).get) ⟨v, hv, rfl⟩
    rw [heq, h w hw v hv hkey]

theorem overlay_eq_some (h : ∀ v ∈ vs, ∀ w ∈ vs, key v = key w → v = w) :
    overlay key (fun _ => none) vs k = some v ↔ v ∈ vs ∧ key v = k := by
  have hput := get_foldl_put_empty (k := k) (v := v) h
  rw [get_foldl_put] at hput
  exact hput

/-- Values are put in an empty map: what is there afterwards is one of them. -/
theorem mem_of_mem_foldl_put_empty (h : v ∈ (vs.foldl put (empty : Keyed key)).values) :
    v ∈ vs := by
  have hget := get_key h
  rw [get_foldl_put] at hget
  by_cases hk : ∃ w ∈ vs, key w = key v
  · obtain ⟨w, hw, -, heq⟩ := overlay_of_present (m := (empty : Keyed key).get) hk
    obtain rfl := Option.some.inj (heq.symm.trans hget)
    exact hw
  · rw [overlay_of_absent fun w hw hkey => hk ⟨w, hw, hkey⟩] at hget
    cases hget

/-- And under the key of each of them there is one. -/
theorem exists_mem_foldl_put {m : Keyed key} (h : v ∈ vs) :
    ∃ w ∈ (vs.foldl put m).values, key w = key v := by
  obtain ⟨w, -, hkey, heq⟩ := overlay_of_present (m := m.get) ⟨v, h, rfl⟩
  rw [← get_foldl_put] at heq
  exact ⟨w, (get_eq_some.mp heq).1, hkey⟩

end Overlay

end Keyed
end AppNG
