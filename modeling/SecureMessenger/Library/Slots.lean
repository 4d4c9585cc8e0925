import Mathlib.Data.List.Forall2

/-!
# Places that are taken once

Handles are named by their places in a list. A new handle takes a new place, and one
that is closed leaves its place empty, so a name never passes to another handle. Two
such lists are related when the same places are taken, by related handles.
-/

namespace Slots

variable {α β : Type*} {R S : α → β → Prop} {xs : List (Option α)} {ys : List (Option β)}

/-- The handle at a place, if there is one. -/
def lookup (xs : List (Option α)) (place : Nat) : Option α := xs[place]?.join

theorem set_lookup {place : Nat} {a : α} (found : lookup xs place = some a) :
    xs.set place (some a) = xs := by
  obtain ⟨inside, same⟩ := List.getElem?_eq_some_iff.mp (Option.join_eq_some_iff.mp found)
  rw [← same, List.set_getElem_self]

/-- The same places are taken, by related handles. -/
def Related (R : α → β → Prop) : List (Option α) → List (Option β) → Prop :=
  List.Forall₂ (Option.Rel R)

namespace Related

theorem mono (weaker : ∀ {a b}, R a b → S a b) (related : Related R xs ys) : Related S xs ys := by
  refine List.Forall₂.imp ?_ related
  intro held held' both
  cases both with
  | none => exact .none
  | some same => exact .some (weaker same)

theorem length_eq (related : Related R xs ys) : xs.length = ys.length :=
  List.Forall₂.length_eq related

theorem lookup (related : Related R xs ys) (place : Nat) :
    Option.Rel R (lookup xs place) (lookup ys place) := by
  induction related generalizing place with
  | nil => exact .none
  | cons first _ ih =>
      cases place with
      | zero => exact first
      | succ place => exact ih place

theorem lookup_none (related : Related R xs ys) {place : Nat}
    (empty : Slots.lookup xs place = none) : Slots.lookup ys place = none := by
  have both := related.lookup place
  rw [empty] at both
  generalize Slots.lookup ys place = held at both ⊢
  cases both
  rfl

theorem lookup_some (related : Related R xs ys) {place : Nat} {a : α}
    (found : Slots.lookup xs place = some a) : ∃ b, Slots.lookup ys place = some b ∧ R a b := by
  have both := related.lookup place
  rw [found] at both
  generalize Slots.lookup ys place = held at both ⊢
  cases both with
  | some same => exact ⟨_, rfl, same⟩

theorem add (related : Related R xs ys) {a : α} {b : β} (same : R a b) :
    Related R (xs ++ [some a]) (ys ++ [some b]) :=
  List.rel_append related (.cons (.some same) .nil)

theorem set (related : Related R xs ys) (place : Nat) {held : Option α} {held' : Option β}
    (both : Option.Rel R held held') : Related R (xs.set place held) (ys.set place held') := by
  induction related generalizing place with
  | nil => exact .nil
  | cons first rest ih =>
      cases place with
      | zero => exact .cons both rest
      | succ place => exact .cons first (ih place)

/-- Closing all handles. -/
theorem close (related : Related R xs ys) :
    Related R (xs.map fun _ => none) (ys.map fun _ => none) :=
  List.forall₂_map_left_iff.mpr (List.forall₂_map_right_iff.mpr
    (List.Forall₂.imp (fun _ _ _ => .none) related))

/-- Closing the handles that a test picks, if related handles pass it alike. -/
theorem keep (related : Related R xs ys) {p : α → Bool} {q : β → Bool}
    (alike : ∀ {a b}, R a b → p a = q b) :
    Related R (xs.map fun held => held.filter p) (ys.map fun held => held.filter q) := by
  refine List.forall₂_map_left_iff.mpr (List.forall₂_map_right_iff.mpr (related.imp ?_))
  intro held held' both
  cases both with
  | none => exact .none
  | @some a b same =>
      rw [Option.filter_some, Option.filter_some, alike same]
      split
      · exact .some same
      · exact .none

end Related

end Slots
