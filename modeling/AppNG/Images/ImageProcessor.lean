import Mathlib.Algebra.Order.Round
import Mathlib.Data.Rat.Floor
import Mathlib.Tactic.FieldSimp
import Mathlib.Tactic.Linarith
import Mathlib.Tactic.Ring

/-!
# Images.ImageProcessor

The methods of `ImageProcessor` that fit an image into a maximum width, a maximum height, or both.

The documentation of all three promises that nothing is scaled up and that the aspect ratio is kept. The quotients
are exact here, and `Math.round` is the nearest integer.

* `side_round_iff`: a side that is scaled and rounded is as it should be unless it is rounded to zero.
* `side_unscaled_iff`: a side that stays as it is while the other one is cut is right only for sizes next to each
  other.
* `fitted_iff`: when each of the three methods keeps its promise.
-/

namespace AppNG
namespace Images

structure ImageMetaData where
  width : Int
  height : Int
  width_pos : 0 < width
  height_pos : 0 < height

/-- Of the options of the convert-command there are the sizes to which the image is resized, in their order. -/
structure ImageProcessor where
  metaData : ImageMetaData
  op : List (Int × Int)

namespace ImageProcessor

variable (p : ImageProcessor)

def resize (targetWidth targetHeight : Int) : ImageProcessor :=
  if 0 < targetWidth ∧ 0 < targetHeight then { p with op := p.op ++ [(targetWidth, targetHeight)] } else p

def fitToWidthAndHeight (maxwidth maxHeight : Int) : ImageProcessor :=
  let width := p.metaData.width
  let height := p.metaData.height
  let ratioWidth : ℚ := maxwidth / width
  let ratioHeight : ℚ := maxHeight / height
  let ratio := min ratioWidth ratioHeight
  let scaledWidth := round (width * ratio)
  let scaledHeight := round (height * ratio)
  p.resize scaledWidth scaledHeight

def fitToWidth (maxWidth : Int) : ImageProcessor :=
  let width := p.metaData.width
  let height := p.metaData.height
  if width > maxWidth then
    -- the width that the next line divides by is the one assigned here
    let width := maxWidth
    let height := round ((maxWidth : ℚ) / width * height)
    p.resize width height
  else p.resize width height

def fitToHeight (maxHeight : Int) : ImageProcessor :=
  let width := p.metaData.width
  let height := p.metaData.height
  if height > maxHeight then
    let height := maxHeight
    let width := round ((maxHeight : ℚ) / height * width)
    p.resize width height
  else p.resize width height

end ImageProcessor

/-! ## The promise -/

/-- The factor for one side; a side without a maximum needs none. -/
def ratio (size : Int) : Option Int → ℚ
  | none => 1
  | some max => max / size

/-- The factor of the largest proportional image that is not scaled up. -/
def factor (source : ImageMetaData) (maxWidth maxHeight : Option Int) : ℚ :=
  min 1 (min (ratio source.width maxWidth) (ratio source.height maxHeight))

/-- A side of the resized image: no longer than it may be, and at most one pixel off. -/
structure Side (size : Int) (max : Option Int) (r : ℚ) (side : Int) : Prop where
  pos : 0 < side
  le_max : ∀ m ∈ max, side ≤ m
  le_size : side ≤ size
  near : |(side : ℚ) - size * r| ≤ 1

/-- `q` is `p` with one more request, for an image that fits. -/
def Fits (p : ImageProcessor) (maxWidth maxHeight : Option Int) (q : ImageProcessor) : Prop :=
  ∃ width height, q = { p with op := p.op ++ [(width, height)] } ∧
    Side p.metaData.width maxWidth (factor p.metaData maxWidth maxHeight) width ∧
    Side p.metaData.height maxHeight (factor p.metaData maxWidth maxHeight) height ∧
    ((∀ m ∈ maxWidth, p.metaData.width ≤ m) → (∀ m ∈ maxHeight, p.metaData.height ≤ m) →
      width = p.metaData.width ∧ height = p.metaData.height)

/-! ## Sides -/

section Side

variable {size m : Int} {max : Option Int} {r : ℚ}

theorem side_self (hpos : 0 < size) (hmax : ∀ m ∈ max, size ≤ m) : Side size max 1 size where
  pos := hpos
  le_max := hmax
  le_size := Int.le_refl size
  near := by simp

theorem side_max (hm : 0 < m) (hle : m ≤ size) : Side size (some m) (m / size) m where
  pos := hm
  le_max := by simp
  le_size := hle
  near := by
    have hsize : (size : ℚ) ≠ 0 := by
      have hpos : 0 < size := by omega
      exact_mod_cast hpos.ne'
    rw [mul_div_cancel₀ _ hsize]
    simp

theorem side_round_iff (hsize : 0 < size) (hr : r ≤ 1) (hmax : ∀ m ∈ max, size * r ≤ m) :
    Side size max r (round (size * r)) ↔ 1 ≤ 2 * (size * r) := by
  have hnear := abs_sub_round (size * r : ℚ)
  constructor
  · intro h
    have hone : (1 : ℚ) ≤ round (size * r) := by exact_mod_cast h.pos
    have hle := round_le_add_half (size * r : ℚ)
    linarith
  · intro h
    have hle : ∀ n : Int, size * r ≤ n → round (size * r) ≤ n := by
      intro n hn
      rw [round_eq, ← Int.lt_add_one_iff, Int.floor_lt]
      push_cast
      linarith
    refine ⟨?_, fun m hm => hle m (hmax m hm), hle size ?_, ?_⟩
    · have hfloor : 1 ≤ ⌊(size * r : ℚ) + 1 / 2⌋ := by
        rw [Int.le_floor]
        push_cast
        linarith
      rw [round_eq]
      omega
    · have hnonneg : (0 : ℚ) ≤ size := by exact_mod_cast hsize.le
      exact mul_le_of_le_one_right hnonneg hr
    · rw [abs_sub_comm]
      linarith

/-- A side that keeps its size while the other one is cut from `other` to `m`. -/
theorem side_unscaled_iff {other : Int} (hsize : 0 < size) (hm : 0 < m) (hlt : m < other) :
    Side size none (m / other) size ↔ size * (other - m) ≤ other := by
  have hother : (0 : ℚ) < other := by exact_mod_cast hm.trans hlt
  have hoff : (size : ℚ) - size * (m / other) = size * (other - m) / other := by
    field_simp
  have hnonneg : (0 : ℚ) ≤ size * (other - m) / other := by
    have hdiff : (0 : ℚ) ≤ other - m := by
      have hle : (m : ℚ) ≤ other := by exact_mod_cast hlt.le
      linarith
    have hpos : (0 : ℚ) ≤ size := by exact_mod_cast hsize.le
    positivity
  have hnear : |(size : ℚ) - size * (m / other)| ≤ 1 ↔ size * (other - m) ≤ other := by
    rw [hoff, abs_of_nonneg hnonneg, div_le_one hother]
    exact_mod_cast Iff.rfl
  constructor
  · intro h
    exact hnear.mp h.near
  · intro h
    exact ⟨hsize, by simp, Int.le_refl size, hnear.mpr h⟩

end Side

/-! ## Factors -/

section Factor

variable {source : ImageMetaData} {maxWidth maxHeight : Option Int} {m n : Int}

theorem one_le_ratio {size : Int} {max : Option Int} (hpos : 0 < size) (h : ∀ m ∈ max, size ≤ m) :
    1 ≤ ratio size max := by
  cases max with
  | none => exact le_refl 1
  | some m =>
    have hsize : (0 : ℚ) < size := by exact_mod_cast hpos
    rw [ratio, one_le_div hsize]
    exact_mod_cast h m rfl

theorem ratio_lt_one {size m : Int} (hm : 0 < m) (hlt : m < size) : ratio size (some m) < 1 := by
  have hsize : (0 : ℚ) < size := by exact_mod_cast hm.trans hlt
  rw [ratio, div_lt_one hsize]
  exact_mod_cast hlt

/-- An image that fits keeps its size. -/
theorem factor_of_fits (hwidth : ∀ m ∈ maxWidth, source.width ≤ m) (hheight : ∀ m ∈ maxHeight, source.height ≤ m) :
    factor source maxWidth maxHeight = 1 :=
  min_eq_left (le_min (one_le_ratio source.width_pos hwidth) (one_le_ratio source.height_pos hheight))

theorem factor_width (hm : 0 < m) (hlt : m < source.width) : factor source (some m) none = m / source.width := by
  have hratio := ratio_lt_one hm hlt
  rw [factor, show ratio source.height none = 1 from rfl, min_eq_left hratio.le, min_eq_right hratio.le]
  rfl

theorem factor_height (hm : 0 < m) (hlt : m < source.height) : factor source none (some m) = m / source.height := by
  have hratio := ratio_lt_one hm hlt
  rw [factor, show ratio source.width none = 1 from rfl, min_eq_right hratio.le, min_eq_right hratio.le]
  rfl

end Factor

/-! ## The three methods -/

section Methods

variable {p : ImageProcessor} {maxWidth maxHeight : Option Int} {width height m n : Int}

/-- Nothing is requested where a side is not positive. -/
theorem fits_resize_iff : Fits p maxWidth maxHeight (p.resize width height) ↔
    Side p.metaData.width maxWidth (factor p.metaData maxWidth maxHeight) width ∧
    Side p.metaData.height maxHeight (factor p.metaData maxWidth maxHeight) height ∧
    ((∀ m ∈ maxWidth, p.metaData.width ≤ m) → (∀ m ∈ maxHeight, p.metaData.height ≤ m) →
      width = p.metaData.width ∧ height = p.metaData.height) := by
  constructor
  · rintro ⟨w, h, heq, hrest⟩
    unfold ImageProcessor.resize at heq
    split at heq
    · have hop := congrArg ImageProcessor.op heq
      simp only [List.append_cancel_left_eq, List.cons.injEq, Prod.mk.injEq, and_true] at hop
      obtain ⟨rfl, rfl⟩ := hop
      exact hrest
    · have hlen := congrArg (fun q => q.op.length) heq
      simp at hlen
  · intro h
    exact ⟨width, height, if_pos ⟨h.1.pos, h.2.1.pos⟩, h⟩

theorem fits_self (hwidth : ∀ m ∈ maxWidth, p.metaData.width ≤ m) (hheight : ∀ m ∈ maxHeight, p.metaData.height ≤ m) :
    Fits p maxWidth maxHeight (p.resize p.metaData.width p.metaData.height) := by
  rw [fits_resize_iff, factor_of_fits hwidth hheight]
  exact ⟨side_self p.metaData.width_pos hwidth, side_self p.metaData.height_pos hheight, fun _ _ => ⟨rfl, rfl⟩⟩

theorem fitToWidth_iff (hm : 0 < m) : Fits p (some m) none (p.fitToWidth m) ↔
    p.metaData.width ≤ m ∨ p.metaData.height * (p.metaData.width - m) ≤ p.metaData.width := by
  simp only [ImageProcessor.fitToWidth]
  by_cases hlt : m < p.metaData.width
  · -- the quotient is that of the maximum and itself
    have hone : ((m : ℚ) / m * p.metaData.height) = p.metaData.height := by
      rw [div_self (by exact_mod_cast hm.ne'), one_mul]
    have hnot : ¬ p.metaData.width ≤ m := by omega
    rw [if_pos hlt, hone, round_intCast, fits_resize_iff, factor_width hm hlt,
      side_unscaled_iff p.metaData.height_pos hm hlt, or_iff_right hnot]
    refine ⟨fun h => h.2.1, fun h => ⟨side_max hm hlt.le, h, fun hfits => ?_⟩⟩
    exact absurd (hfits m rfl) hnot
  · have hle : p.metaData.width ≤ m := by omega
    rw [if_neg hlt]
    exact iff_of_true (fits_self (by simpa using hle) (by simp)) (Or.inl hle)

theorem fitToHeight_iff (hm : 0 < m) : Fits p none (some m) (p.fitToHeight m) ↔
    p.metaData.height ≤ m ∨ p.metaData.width * (p.metaData.height - m) ≤ p.metaData.height := by
  simp only [ImageProcessor.fitToHeight]
  by_cases hlt : m < p.metaData.height
  · have hone : ((m : ℚ) / m * p.metaData.width) = p.metaData.width := by
      rw [div_self (by exact_mod_cast hm.ne'), one_mul]
    have hnot : ¬ p.metaData.height ≤ m := by omega
    rw [if_pos hlt, hone, round_intCast, fits_resize_iff, factor_height hm hlt,
      side_unscaled_iff p.metaData.width_pos hm hlt, or_iff_right hnot]
    refine ⟨fun h => h.1, fun h => ⟨h, side_max hm hlt.le, fun _ hfits => ?_⟩⟩
    exact absurd (hfits m rfl) hnot
  · have hle : p.metaData.height ≤ m := by omega
    rw [if_neg hlt]
    exact iff_of_true (fits_self (by simp) (by simpa using hle)) (Or.inl hle)

/-- One of two sides that are scaled alike: the other maximum may let it be rounded to zero. -/
theorem side_shared_iff {size other m n : Int} (hsize : 0 < size) (hother : 0 < other) (hm : 0 < m)
    (hle : min ((m : ℚ) / size) (n / other) ≤ 1) :
    Side size (some m) (min ((m : ℚ) / size) (n / other)) (round (size * min ((m : ℚ) / size) (n / other))) ↔
      other ≤ 2 * (size * n) := by
  have hsize' : (0 : ℚ) < size := by exact_mod_cast hsize
  have hother' : (0 : ℚ) < other := by exact_mod_cast hother
  have hm' : (1 : ℚ) ≤ m := by exact_mod_cast hm
  have hscaled : (size : ℚ) * min ((m : ℚ) / size) (n / other) = min (m : ℚ) (size * n / other) := by
    rw [mul_min_of_nonneg _ _ hsize'.le, mul_div_cancel₀ _ hsize'.ne', mul_div_assoc]
  have hother_le : (1 : ℚ) ≤ 2 * (size * n / other) ↔ other ≤ 2 * (size * n) := by
    rw [← mul_div_assoc, one_le_div hother']
    exact_mod_cast Iff.rfl
  have hmax : ∀ m' ∈ some m, (size : ℚ) * min ((m : ℚ) / size) (n / other) ≤ m' := by
    rintro _ ⟨⟩
    rw [hscaled]
    exact min_le_left _ _
  rw [side_round_iff hsize hle hmax, hscaled, ← hother_le]
  constructor
  · intro h
    exact h.trans (mul_le_mul_of_nonneg_left (min_le_right _ _) (by norm_num))
  · intro h
    rcases min_choice (m : ℚ) (size * n / other) with heq | heq
    · rw [heq]
      linarith
    · rw [heq]
      exact h

/-- Where both maxima are beyond the image, the request is for a larger one. -/
theorem not_side_of_lt {size other m n : Int} (hsize : 0 < size) (hother : 0 < other) (hm : size < m) (hn : other < n)
    {max max' : Option Int} {r : ℚ} :
    ¬ (Side size max r (round (size * min ((m : ℚ) / size) (n / other))) ∧
      Side other max' r (round (other * min ((m : ℚ) / size) (n / other)))) := by
  have hsize' : (size : ℚ) ≠ 0 := by exact_mod_cast hsize.ne'
  have hother' : (other : ℚ) ≠ 0 := by exact_mod_cast hother.ne'
  rintro ⟨hside, hside'⟩
  rcases min_choice ((m : ℚ) / size) (n / other) with heq | heq
  · have hle := hside.le_size
    rw [heq, mul_div_cancel₀ _ hsize', round_intCast] at hle
    omega
  · have hle := hside'.le_size
    rw [heq, mul_div_cancel₀ _ hother', round_intCast] at hle
    omega

theorem fitToWidthAndHeight_iff (hm : 0 < m) (hn : 0 < n) :
    Fits p (some m) (some n) (p.fitToWidthAndHeight m n) ↔
      (m ≤ p.metaData.width ∨ n ≤ p.metaData.height) ∧
        p.metaData.height ≤ 2 * (p.metaData.width * n) ∧ p.metaData.width ≤ 2 * (p.metaData.height * m) := by
  have hwidth := p.metaData.width_pos
  have hheight := p.metaData.height_pos
  simp only [ImageProcessor.fitToWidthAndHeight]
  rw [fits_resize_iff]
  by_cases hdown : m ≤ p.metaData.width ∨ n ≤ p.metaData.height
  · have hle : min ((m : ℚ) / p.metaData.width) (n / p.metaData.height) ≤ 1 := by
      rw [min_le_iff, div_le_one (by exact_mod_cast hwidth), div_le_one (by exact_mod_cast hheight)]
      exact_mod_cast hdown
    have hfactor : factor p.metaData (some m) (some n) = min ((m : ℚ) / p.metaData.width) (n / p.metaData.height) :=
      min_eq_right hle
    have hsides := side_shared_iff hwidth hheight hm hle
    have hsides' := side_shared_iff hheight hwidth hn (by rwa [min_comm])
    rw [min_comm] at hsides'
    rw [hfactor, hsides, hsides', and_iff_right hdown, and_congr_right_iff]
    refine fun _ => and_iff_left fun hfitsWidth hfitsHeight => ?_
    -- an image that fits and is not scaled up keeps its size
    have hone : factor p.metaData (some m) (some n) = 1 := factor_of_fits hfitsWidth hfitsHeight
    rw [← hfactor, hone, mul_one, mul_one, round_intCast, round_intCast]
    exact ⟨rfl, rfl⟩
  · refine iff_of_false (fun h => ?_) fun h => hdown h.1
    exact not_side_of_lt hwidth hheight (by omega) (by omega) ⟨h.1, h.2.1⟩

/-- When each of the methods requests an image that fits, and that is proportional up to a pixel. -/
theorem fitted_iff (p : ImageProcessor) {maxWidth maxHeight : Int} (hwidth : 0 < maxWidth) (hheight : 0 < maxHeight) :
    (Fits p (some maxWidth) none (p.fitToWidth maxWidth) ↔
      p.metaData.width ≤ maxWidth ∨ p.metaData.height * (p.metaData.width - maxWidth) ≤ p.metaData.width) ∧
    (Fits p none (some maxHeight) (p.fitToHeight maxHeight) ↔
      p.metaData.height ≤ maxHeight ∨ p.metaData.width * (p.metaData.height - maxHeight) ≤ p.metaData.height) ∧
    (Fits p (some maxWidth) (some maxHeight) (p.fitToWidthAndHeight maxWidth maxHeight) ↔
      (maxWidth ≤ p.metaData.width ∨ maxHeight ≤ p.metaData.height) ∧
        p.metaData.height ≤ 2 * (p.metaData.width * maxHeight) ∧
        p.metaData.width ≤ 2 * (p.metaData.height * maxWidth)) :=
  ⟨fitToWidth_iff hwidth, fitToHeight_iff hheight, fitToWidthAndHeight_iff hwidth hheight⟩

end Methods

/-- An image of 1024 by 768 without requests. -/
def landscape : ImageProcessor := ⟨⟨1024, 768, by decide, by decide⟩, []⟩

theorem fitted_iff_landscape : Fits landscape (some 512) (some 512) (landscape.fitToWidthAndHeight 512 512) :=
  (fitted_iff landscape (show (0 : Int) < 512 by decide) (show (0 : Int) < 512 by decide)).2.2.mpr (by decide)

/-- The other side keeps its length where one is cut, and the last request is for a larger image. -/
theorem landscape_not_fits :
    ((landscape.fitToWidth 100).op = [(100, 768)] ∧ ¬ Fits landscape (some 100) none (landscape.fitToWidth 100)) ∧
    ((landscape.fitToHeight 100).op = [(1024, 100)] ∧ ¬ Fits landscape none (some 100) (landscape.fitToHeight 100)) ∧
    ((landscape.fitToWidthAndHeight 2048 2048).op = [(2048, 1536)] ∧
      ¬ Fits landscape (some 2048) (some 2048) (landscape.fitToWidthAndHeight 2048 2048)) := by
  refine ⟨⟨by decide +kernel, ?_⟩, ⟨by decide +kernel, ?_⟩, by decide +kernel, ?_⟩
  · rw [fitToWidth_iff (by decide)]
    decide
  · rw [fitToHeight_iff (by decide)]
    decide
  · rw [fitToWidthAndHeight_iff (by decide) (by decide)]
    decide

end Images
end AppNG
