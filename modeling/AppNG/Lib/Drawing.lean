import Mathlib.Data.List.Forall2
import Mathlib.Data.List.Basic

/-!
# Lib.Drawing

Elements that are drawn at random: from each source as many as it is asked for.

A source is a list of elements and a number. `Drawn sources draws` says that the draws may come out; nothing is
said of how likely they are.

* `drawn_map`: drawing the images of elements is drawing the elements.
* `exists_drawn`: something can be drawn, unless a source is empty.
* `exists_drawn_mem`: an element of a source that is asked for can be drawn.
-/

namespace AppNG
namespace Drawing

variable {α β : Type}

abbrev Source (α : Type) := List α × Nat

def Drawn (sources : List (Source α)) (draws : List (List α)) : Prop :=
  List.Forall₂ (fun source draw => draw.length = source.2 ∧ ∀ a ∈ draw, a ∈ source.1) sources draws

/-- A source that is asked for has elements. -/
def Drawable (sources : List (Source α)) : Prop := ∀ source ∈ sources, source.1 = [] → source.2 = 0

def sumBy (f : α → Nat) (as : List α) : Nat := as.foldr (fun a n => f a + n) 0

@[simp] theorem sumBy_nil (f : α → Nat) : sumBy f [] = 0 := rfl

@[simp] theorem sumBy_cons (f : α → Nat) (a : α) (as : List α) : sumBy f (a :: as) = f a + sumBy f as := rfl

theorem sumBy_append (f : α → Nat) (as bs : List α) : sumBy f (as ++ bs) = sumBy f as + sumBy f bs := by
  induction as with
  | nil => simp
  | cons a as ih =>
    simp only [List.cons_append, sumBy_cons, ih]
    omega

theorem sumBy_le {f g : α → Nat} {as : List α} (h : ∀ a ∈ as, f a ≤ g a) : sumBy f as ≤ sumBy g as := by
  induction as with
  | nil => simp
  | cons a as ih =>
    have ha := h a List.mem_cons_self
    have has := ih fun b hb => h b (List.mem_cons_of_mem _ hb)
    simp only [sumBy_cons]
    omega

theorem sumBy_congr {f g : α → Nat} {as : List α} (h : ∀ a ∈ as, f a = g a) : sumBy f as = sumBy g as :=
  Nat.le_antisymm (sumBy_le fun a ha => Nat.le_of_eq (h a ha)) (sumBy_le fun a ha => Nat.le_of_eq (h a ha).symm)

theorem sumBy_eq_zero {f : α → Nat} {as : List α} (h : ∀ a ∈ as, f a = 0) : sumBy f as = 0 := by
  induction as with
  | nil => rfl
  | cons a as ih =>
    rw [sumBy_cons, h a List.mem_cons_self, ih fun b hb => h b (List.mem_cons_of_mem _ hb)]

theorem sumBy_add (f g : α → Nat) (as : List α) : sumBy (fun a => f a + g a) as = sumBy f as + sumBy g as := by
  induction as with
  | nil => simp
  | cons a as ih =>
    simp only [sumBy_cons, ih]
    omega

def total (sources : List (Source α)) : Nat := sumBy Prod.snd sources

theorem length_of_drawn {sources : List (Source α)} {draws : List (List α)} (h : Drawn sources draws) :
    draws.flatten.length = total sources := by
  induction h with
  | nil => rfl
  | @cons source draw sources draws hdraw _ ih =>
    rw [List.flatten_cons, List.length_append, ih, hdraw.1]
    rfl

theorem mem_of_drawn {sources : List (Source α)} {draws : List (List α)} (h : Drawn sources draws) {a : α}
    (ha : a ∈ draws.flatten) : ∃ source ∈ sources, a ∈ source.1 := by
  induction h with
  | nil => cases ha
  | @cons source draw sources draws hdraw _ ih =>
    rw [List.flatten_cons, List.mem_append] at ha
    rcases ha with ha | ha
    · exact ⟨source, List.mem_cons_self, hdraw.2 a ha⟩
    · obtain ⟨source', hmem, ha'⟩ := ih ha
      exact ⟨source', List.mem_cons_of_mem _ hmem, ha'⟩

theorem drawable_of_drawn {sources : List (Source α)} {draws : List (List α)} (h : Drawn sources draws) :
    Drawable sources := by
  induction h with
  | nil => exact nofun
  | @cons source draw sources draws hdraw _ ih =>
    intro source' hmem hnil
    rcases List.mem_cons.mp hmem with rfl | hmem
    · obtain ⟨hlen, hall⟩ := hdraw
      rw [hnil] at hall
      rw [← hlen, List.eq_nil_iff_forall_not_mem.mpr fun a ha => List.not_mem_nil (hall a ha)]
      rfl
    · exact ih source' hmem hnil

theorem exists_drawn {sources : List (Source α)} (h : Drawable sources) : ∃ draws, Drawn sources draws := by
  induction sources with
  | nil => exact ⟨[], .nil⟩
  | cons source sources ih =>
    obtain ⟨draws, hdraws⟩ := ih fun source' hmem => h source' (List.mem_cons_of_mem _ hmem)
    have hfirst : ∃ draw : List α, draw.length = source.2 ∧ ∀ a ∈ draw, a ∈ source.1 := by
      cases hsource : source.1 with
      | nil => exact ⟨[], (h source List.mem_cons_self hsource).symm, nofun⟩
      | cons a as =>
        refine ⟨List.replicate source.2 a, List.length_replicate, fun b hb => ?_⟩
        rw [List.eq_of_mem_replicate hb]
        exact List.mem_cons_self
    obtain ⟨draw, hdraw⟩ := hfirst
    exact ⟨draw :: draws, .cons hdraw hdraws⟩

/-- Each element of a source that is asked for may be drawn. -/
theorem exists_drawn_mem {sources : List (Source α)} (h : Drawable sources) {source : Source α}
    (hsource : source ∈ sources) (hpos : 0 < source.2) {a : α} (ha : a ∈ source.1) :
    ∃ draws, Drawn sources draws ∧ a ∈ draws.flatten := by
  obtain ⟨before, after, rfl⟩ := List.append_of_mem hsource
  obtain ⟨draws₁, h₁⟩ := exists_drawn fun s hs => h s (List.mem_append_left _ hs)
  obtain ⟨draws₂, h₂⟩ := exists_drawn fun s hs => h s (List.mem_append_right _ (List.mem_cons_of_mem _ hs))
  refine ⟨draws₁ ++ List.replicate source.2 a :: draws₂, ?_, ?_⟩
  · refine List.rel_append h₁ (.cons ⟨List.length_replicate, fun b hb => ?_⟩ h₂)
    rw [List.eq_of_mem_replicate hb]
    exact ha
  · rw [List.flatten_append, List.flatten_cons]
    exact List.mem_append_right _ (List.mem_append_left _ (List.mem_replicate.mpr ⟨by omega, rfl⟩))

theorem drawn_append_singleton {sources : List (Source α)} {source : Source α} {draws : List (List α)} :
    Drawn (sources ++ [source]) draws ↔ ∃ before draw, draws = before ++ [draw] ∧ Drawn sources before ∧
      draw.length = source.2 ∧ ∀ a ∈ draw, a ∈ source.1 := by
  constructor
  · intro h
    induction sources generalizing draws with
    | nil =>
      cases h with
      | @cons _ draw _ _ hdraw hrest =>
        cases hrest
        exact ⟨[], draw, rfl, .nil, hdraw⟩
    | cons first sources ih =>
      cases h with
      | @cons _ draw _ _ hdraw hrest =>
        obtain ⟨before, last, rfl, hbefore, hlast⟩ := ih hrest
        exact ⟨draw :: before, last, rfl, .cons hdraw hbefore, hlast⟩
  · rintro ⟨before, draw, rfl, hbefore, hdraw⟩
    exact List.rel_append hbefore (.cons hdraw .nil)

/-- The sources of the images. -/
def mapped (f : α → β) (sources : List (Source α)) : List (Source β) :=
  sources.map fun source => (source.1.map f, source.2)

theorem exists_of_drawn_mapped (f : α → β) (source : Source α) {draw : List β}
    (h : draw.length = source.2 ∧ ∀ b ∈ draw, b ∈ source.1.map f) :
    ∃ draw' : List α, draw'.map f = draw ∧ draw'.length = source.2 ∧ ∀ a ∈ draw', a ∈ source.1 := by
  obtain ⟨hlen, hall⟩ := h
  have hlift : ∃ draw' : List α, draw'.map f = draw ∧ ∀ a ∈ draw', a ∈ source.1 := by
    clear hlen
    induction draw with
    | nil => exact ⟨[], rfl, nofun⟩
    | cons b draw ih =>
      obtain ⟨draw', hdraw', hmem⟩ := ih fun b' hb' => hall b' (List.mem_cons_of_mem _ hb')
      obtain ⟨a, ha, rfl⟩ := List.mem_map.mp (hall b List.mem_cons_self)
      refine ⟨a :: draw', by rw [List.map_cons, hdraw'], fun a' ha' => ?_⟩
      rcases List.mem_cons.mp ha' with rfl | ha'
      · exact ha
      · exact hmem a' ha'
  obtain ⟨draw', rfl, hmem⟩ := hlift
  exact ⟨draw', rfl, by rwa [List.length_map] at hlen, hmem⟩

/-- Drawing images is drawing elements. -/
theorem drawn_map (f : α → β) (sources : List (Source α)) (images : List (List β)) :
    Drawn (mapped f sources) images ↔ ∃ draws, Drawn sources draws ∧ draws.map (List.map f) = images := by
  constructor
  · intro h
    induction sources generalizing images with
    | nil =>
      cases h
      exact ⟨[], .nil, rfl⟩
    | cons source sources ih =>
      cases h with
      | cons hfirst hrest =>
        obtain ⟨draws, hdraws, rfl⟩ := ih _ hrest
        obtain ⟨draw, rfl, hdraw⟩ := exists_of_drawn_mapped f source hfirst
        exact ⟨draw :: draws, .cons hdraw hdraws, rfl⟩
  · rintro ⟨draws, h, rfl⟩
    induction h with
    | nil => exact .nil
    | cons hdraw _ ih =>
      refine .cons ⟨by rw [List.length_map, hdraw.1], fun b hb => ?_⟩ ih
      obtain ⟨a, ha, rfl⟩ := List.mem_map.mp hb
      exact List.mem_map_of_mem (hdraw.2 a ha)

end Drawing
end AppNG
