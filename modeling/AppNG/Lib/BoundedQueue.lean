/-!
# Lib.BoundedQueue

A first-in first-out queue with room for a number of elements that is fixed when it is made. The bound
is part of the type, so that no queue with too many elements can be built.

`offer` puts an element at the end unless the queue is full, `poll` takes the first one unless it is
empty.

* `elements_offer`, `elements_poll`: what becomes of the elements.
* `offer_eq_none`: a full queue.
-/

namespace AppNG

structure BoundedQueue (α : Type) where
  capacity : Nat
  elements : List α
  bounded : elements.length ≤ capacity

namespace BoundedQueue

variable {α : Type} {q q' : BoundedQueue α} {a : α}

def empty (capacity : Nat) : BoundedQueue α := ⟨capacity, [], Nat.zero_le _⟩

@[simp] theorem elements_empty (capacity : Nat) : (empty capacity : BoundedQueue α).elements = [] := rfl

def Full (q : BoundedQueue α) : Prop := q.elements.length = q.capacity

def offer (q : BoundedQueue α) (a : α) : Option (BoundedQueue α) :=
  if h : q.elements.length < q.capacity then
    some ⟨q.capacity, q.elements ++ [a], by rw [List.length_append]; exact h⟩
  else none

def poll (q : BoundedQueue α) : Option (α × BoundedQueue α) :=
  match h : q.elements with
  | [] => none
  | a :: as => some (a, ⟨q.capacity, as, by have := q.bounded; rw [h, List.length_cons] at this; omega⟩)

theorem offer_eq_none : q.offer a = none ↔ q.Full := by
  have hbounded := q.bounded
  unfold offer Full
  split
  · exact iff_of_false (Option.some_ne_none _) (by omega)
  · exact iff_of_true rfl (by omega)

theorem elements_offer (h : q.offer a = some q') : q'.elements = q.elements ++ [a] := by
  unfold offer at h
  split at h
  · cases h
    rfl
  · cases h

theorem capacity_offer (h : q.offer a = some q') : q'.capacity = q.capacity := by
  unfold offer at h
  split at h
  · cases h
    rfl
  · cases h

theorem elements_poll (h : q.poll = some (a, q')) : q.elements = a :: q'.elements := by
  unfold poll at h
  split at h
  · cases h
  · rename_i heq
    cases h
    exact heq

end BoundedQueue
end AppNG
