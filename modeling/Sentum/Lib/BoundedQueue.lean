import Mathlib.Data.List.Basic

/-!
# A bounded queue

First in, first out; a push that finds no room is refused.
-/

structure BoundedQueue (α : Type*) (capacity : Nat) where
  items : List α := []
  bounded : items.length ≤ capacity := by exact Nat.zero_le _

namespace BoundedQueue

variable {α : Type*} {capacity : Nat}

def tryPush (q : BoundedQueue α capacity) (value : α) : Option (BoundedQueue α capacity) :=
  if h : q.items.length < capacity then
    some { items := q.items ++ [value], bounded := by rw [List.length_append]; exact h }
  else none

def tryPop : BoundedQueue α capacity → Option (α × BoundedQueue α capacity)
  | ⟨[], _⟩ => none
  | ⟨value :: rest, h⟩ => some (value, ⟨rest, Nat.le_of_succ_le h⟩)

variable {q q' : BoundedQueue α capacity} {value : α}

theorem items_of_tryPush (h : q.tryPush value = some q') : q'.items = q.items ++ [value] := by
  unfold tryPush at h
  split at h
  · exact (congrArg items (Option.some.inj h)).symm
  · cases h

theorem items_of_tryPop (h : q.tryPop = some (value, q')) : q.items = value :: q'.items := by
  rcases q with ⟨_ | ⟨first, rest⟩, hq⟩
  · cases h
  · simp only [tryPop, Option.some.injEq, Prod.mk.injEq] at h
    obtain ⟨rfl, rfl⟩ := h
    rfl

theorem tryPush_isSome : (q.tryPush value).isSome ↔ q.items.length < capacity := by
  unfold tryPush
  split
  · next h => exact iff_of_true rfl h
  · next h => exact iff_of_false nofun h

end BoundedQueue
