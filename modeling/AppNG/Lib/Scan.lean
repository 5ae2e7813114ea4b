/-!
# Lib.Scan

The matches of a pattern in a text, found from left to right without overlaps.

A reader looks at a text and says whether a match starts there: its value, and how many elements it
takes after the first one. `scan read 0 as` is `as` with every match that is found replaced by its
value; `render f` writes such a list out, and `renderM f` does so where a value may fail to have a
text.

* `scan_item`, `scan_plain`: what a scan does where a match starts, and where none does.
* `scan_unmatched`: elements where no match starts stay, and the scan goes on behind them.
* `render_scan`: a scan loses nothing.
-/

namespace AppNG
namespace Scan

variable {α β : Type}

inductive Token (α β : Type) where
  | plain (a : α)
  | item (b : β)
  deriving DecidableEq, Repr

/-- The first `skip` elements belong to a match that was found. -/
def scan (read : List α → Option (β × Nat)) : Nat → List α → List (Token α β)
  | _, [] => []
  | skip + 1, _ :: as => scan read skip as
  | 0, a :: as =>
    match read (a :: as) with
    | some (b, n) => .item b :: scan read n as
    | none => .plain a :: scan read 0 as

def items (ts : List (Token α β)) : List β :=
  ts.filterMap fun
    | .plain _ => none
    | .item b => some b

def textOf (f : β → List α) : Token α β → List α
  | .plain a => [a]
  | .item b => f b

def render (f : β → List α) (ts : List (Token α β)) : List α := ts.flatMap (textOf f)

def renderM (f : β → Option (List α)) : List (Token α β) → Option (List α)
  | [] => some []
  | .plain a :: ts => (renderM f ts).map (a :: ·)
  | .item b :: ts => (f b).bind fun bs => (renderM f ts).map (bs ++ ·)

section Scan

variable {read : List α → Option (β × Nat)}

theorem scan_drop : ∀ (skip : Nat) (as : List α), scan read skip as = scan read 0 (as.drop skip) := by
  intro skip
  induction skip with
  | zero => intro as; rw [List.drop_zero]
  | succ skip ih =>
    intro as
    cases as with
    | nil => rfl
    | cons a as => exact ih as

theorem scan_item {b : β} {n : Nat} {a : α} {as : List α} (h : read (a :: as) = some (b, n)) :
    scan read 0 (a :: as) = .item b :: scan read 0 (as.drop n) := by
  rw [scan, h]
  show Token.item b :: scan read n as = _
  rw [scan_drop n]

/-- A match that takes `w` and nothing else. -/
theorem scan_item_append {b : β} {w as : List α} (hw : w ≠ [])
    (h : read (w ++ as) = some (b, w.length - 1)) :
    scan read 0 (w ++ as) = .item b :: scan read 0 as := by
  cases w with
  | nil => exact absurd rfl hw
  | cons a w =>
    rw [List.cons_append] at h ⊢
    rw [scan_item h]
    simp

theorem scan_plain {a : α} {as : List α} (h : read (a :: as) = none) :
    scan read 0 (a :: as) = .plain a :: scan read 0 as := by
  rw [scan, h]

theorem scan_unmatched {rest : List α} :
    ∀ {w : List α}, (∀ w₁ w₂, w = w₁ ++ w₂ → w₂ ≠ [] → read (w₂ ++ rest) = none) →
      scan read 0 (w ++ rest) = w.map .plain ++ scan read 0 rest := by
  intro w
  induction w with
  | nil => intro _; rfl
  | cons a w ih =>
    intro h
    have ha : read (a :: (w ++ rest)) = none := h [] (a :: w) rfl (List.cons_ne_nil a w)
    have hw : scan read 0 (w ++ rest) = w.map .plain ++ scan read 0 rest :=
      ih fun w₁ w₂ hsplit => h (a :: w₁) w₂ (by rw [hsplit, List.cons_append])
    rw [List.cons_append, scan_plain ha, hw, List.map_cons, List.cons_append]

theorem of_item_mem_scan {b : β} :
    ∀ {as : List α} {skip : Nat}, .item b ∈ scan read skip as → ∃ as' n, read as' = some (b, n) := by
  intro as
  induction as with
  | nil => intro skip h; cases skip <;> cases h
  | cons a as ih =>
    intro skip h
    cases skip with
    | succ skip => exact ih h
    | zero =>
      cases hread : read (a :: as) with
      | none =>
        rw [scan_plain hread, List.mem_cons] at h
        rcases h with h | h
        · cases h
        · exact ih h
      | some m =>
        obtain ⟨b', n⟩ := m
        rw [scan_item hread, ← scan_drop, List.mem_cons] at h
        rcases h with h | h
        · cases h
          exact ⟨a :: as, n, hread⟩
        · exact ih h

theorem mem_items {b : β} {ts : List (Token α β)} : b ∈ items ts ↔ .item b ∈ ts := by
  simp only [items, List.mem_filterMap]
  constructor
  · rintro ⟨t, ht, h⟩
    cases t with
    | plain a => cases h
    | item b' => cases h; exact ht
  · intro h
    exact ⟨.item b, h, rfl⟩

end Scan

theorem items_plain (w : List α) (ts : List (Token α β)) :
    items (w.map .plain ++ ts) = items ts := by
  induction w with
  | nil => rfl
  | cons a w ih => exact ih

/-- A reader whose values are a function of those of another one finds the same matches. -/
theorem items_scan_map {γ : Type} {read : List α → Option (β × Nat)}
    {read' : List α → Option (γ × Nat)} {g : γ → β}
    (h : ∀ as, read as = (read' as).map fun m => (g m.1, m.2)) :
    ∀ (as : List α) (skip : Nat),
      items (scan read skip as) = (items (scan read' skip as)).map g := by
  intro as
  induction as with
  | nil => intro skip; cases skip <;> rfl
  | cons a as ih =>
    intro skip
    cases skip with
    | succ skip => exact ih skip
    | zero =>
      have hread := h (a :: as)
      cases hm : read' (a :: as) with
      | none =>
        rw [hm] at hread
        rw [scan_plain hread, scan_plain hm]
        exact ih 0
      | some m =>
        rw [hm] at hread
        rw [scan_item hread, scan_item (b := m.1) (n := m.2) hm, ← scan_drop, ← scan_drop]
        exact congrArg (g m.1 :: ·) (ih m.2)

section Render

variable {f : β → List α} {ts : List (Token α β)}

@[simp] theorem render_nil : render f ([] : List (Token α β)) = [] := rfl

@[simp] theorem render_cons (t : Token α β) : render f (t :: ts) = textOf f t ++ render f ts := rfl

@[simp] theorem render_append (us : List (Token α β)) :
    render f (ts ++ us) = render f ts ++ render f us := List.flatMap_append

@[simp] theorem render_plain (w : List α) : render f (w.map .plain) = w := by
  induction w with
  | nil => rfl
  | cons a w ih => rw [List.map_cons, render_cons, ih]; rfl

theorem render_congr {g : β → List α} (h : ∀ b, Token.item b ∈ ts → f b = g b) :
    render f ts = render g ts := by
  induction ts with
  | nil => rfl
  | cons t ts ih =>
    have hts : render f ts = render g ts := ih fun b hb => h b (List.mem_cons_of_mem t hb)
    have ht : textOf f t = textOf g t := by
      cases t with
      | plain a => rfl
      | item b => exact h b List.mem_cons_self
    rw [render_cons, render_cons, ht, hts]

/-- What is written for the tokens before one of them is no longer than the whole. -/
theorem length_render_take_le {k l : Nat} (h : k ≤ l) :
    (render f (ts.take k)).length ≤ (render f (ts.take l)).length := by
  have hsplit := List.take_append_drop k (ts.take l)
  rw [List.take_take, Nat.min_eq_left h] at hsplit
  rw [← hsplit, render_append, List.length_append]
  omega

theorem length_render_take_succ {k : Nat} {t : Token α β} (h : ts[k]? = some t) :
    (render f (ts.take (k + 1))).length = (render f (ts.take k)).length + (textOf f t).length := by
  rw [List.take_add_one, h]
  simp

/-- A token whose text is not empty starts inside the text of `t` only if it is `t`. -/
theorem eq_of_length_render {t u : Token α β} {us : List (Token α β)} {k n : Nat}
    (hu : (ts ++ t :: us)[k]? = some u) (hne : textOf f u ≠ []) (hn : n < (textOf f t).length)
    (hlen : (render f ((ts ++ t :: us).take k)).length = (render f ts).length + n) :
    u = t := by
  have hts : (ts ++ t :: us).take ts.length = ts := List.take_left
  have hpos : 0 < (textOf f u).length := List.length_pos_iff.mpr hne
  rcases Nat.lt_trichotomy k ts.length with hk | hk | hk
  · have hle : (render f ((ts ++ t :: us).take (k + 1))).length ≤
        (render f ((ts ++ t :: us).take ts.length)).length := length_render_take_le hk
    rw [hts] at hle
    rw [length_render_take_succ hu] at hle
    omega
  · subst hk
    simpa using hu.symm
  · have hle : (render f ((ts ++ t :: us).take (ts.length + 1))).length ≤
        (render f ((ts ++ t :: us).take k)).length := length_render_take_le hk
    rw [length_render_take_succ (t := t) (by simp), hts] at hle
    omega

theorem render_scan {read : List α → Option (β × Nat)}
    (h : ∀ as b n, read as = some (b, n) → f b = as.take (n + 1)) :
    ∀ (as : List α), render f (scan read 0 as) = as := by
  suffices hskip : ∀ (as : List α) (skip : Nat), render f (scan read skip as) = as.drop skip from
    fun as => hskip as 0
  intro as
  induction as with
  | nil => intro skip; cases skip <;> rfl
  | cons a as ih =>
    intro skip
    cases skip with
    | succ skip => exact ih skip
    | zero =>
      cases hread : read (a :: as) with
      | none => rw [scan_plain hread, render_cons, ih 0]; rfl
      | some m =>
        have htext : f m.1 = a :: as.take m.2 := h (a :: as) m.1 m.2 hread
        rw [scan, hread]
        show f m.1 ++ render f (scan read m.2 as) = a :: as
        rw [ih m.2, htext, List.cons_append, List.take_append_drop]

end Render

section RenderM

variable {f : β → Option (List α)}

theorem renderM_plain (w : List α) (ts : List (Token α β)) :
    renderM f (w.map .plain ++ ts) = (renderM f ts).map (w ++ ·) := by
  induction w with
  | nil => simp
  | cons a w ih =>
    rw [List.map_cons, List.cons_append, renderM, ih]
    cases renderM f ts <;> rfl

theorem renderM_item {b : β} {bs : List α} (h : f b = some bs) (ts : List (Token α β)) :
    renderM f (.item b :: ts) = (renderM f ts).map (bs ++ ·) := by
  rw [renderM, h]
  rfl

end RenderM

end Scan
end AppNG
