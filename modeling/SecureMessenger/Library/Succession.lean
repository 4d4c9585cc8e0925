import Mathlib.Data.List.Nodup

/-!
# Values numbered in the order they succeed each other

A succession is a list whose members carry the numbers one, two, three and so on.
It grows at its end only, and a number determines the member that carries it.
-/

namespace Succession

variable {α : Type*} {number : α → Nat} {chain : List α} {a b : α}

/-- The members carry the numbers from one on, without gap or repeat. -/
def Numbered (number : α → Nat) (chain : List α) : Prop :=
  chain.map number = List.range' 1 chain.length

theorem numbered_nil : Numbered number [] := rfl

theorem Numbered.concat (numbered : Numbered number chain) (next : number a = chain.length + 1) :
    Numbered number (chain ++ [a]) := by
  show (chain ++ [a]).map number = List.range' 1 (chain ++ [a]).length
  rw [List.map_append, numbered, List.length_append, List.length_singleton, List.range'_concat,
    List.map_singleton, next, Nat.one_mul, Nat.add_comm]

/-- The last member carries the number of members. -/
theorem Numbered.number_last (numbered : Numbered number chain)
    (last : chain.getLast? = some a) : number a = chain.length := by
  obtain ⟨front, rfl⟩ := List.getLast?_eq_some_iff.mp last
  have ends := congrArg List.getLast? numbered
  rw [List.length_append, List.length_singleton, List.range'_concat, List.map_append,
    List.map_singleton, List.getLast?_concat, List.getLast?_concat] at ends
  rw [Option.some.inj ends, List.length_append, List.length_singleton, Nat.one_mul, Nat.add_comm]

/-- A number determines its member. -/
theorem Numbered.eq_of_number (numbered : Numbered number chain) (memberA : a ∈ chain)
    (memberB : b ∈ chain) (same : number a = number b) : a = b := by
  have distinct : (chain.map number).Nodup := numbered ▸ List.nodup_range'
  exact List.inj_on_of_nodup_map distinct memberA memberB same

end Succession
