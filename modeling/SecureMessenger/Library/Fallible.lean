/-!
# Fallible computations in lockstep

Two computations that may fail with an error run in lockstep when they fail
with the same error or succeed with related values. The rules for sequencing and
branching let a proof follow the text of the two computations.
-/

namespace Fallible

variable {ε α β γ δ : Type}

/-- Fail with `error` when the condition holds, otherwise continue. -/
def rejectIf (condition : Prop) [Decidable condition] (error : ε) : Except ε Unit :=
  if condition then .error error else .ok ()

@[simp] theorem rejectIf_eq_ok {condition : Prop} [Decidable condition] {error : ε} {u : Unit} :
    rejectIf condition error = .ok u ↔ ¬ condition := by
  rw [rejectIf]
  split <;> simp_all

theorem rejectIf_of_not {condition : Prop} [Decidable condition] {error : ε}
    (h : ¬ condition) : rejectIf condition error = .ok () := if_neg h

theorem rejectIf_of {condition : Prop} [Decidable condition] {error : ε}
    (h : condition) : rejectIf condition error = .error error := if_pos h

/-- A sequence succeeds exactly when its first part does and the rest does. -/
@[simp] theorem bind_eq_ok {x : Except ε α} {f : α → Except ε β} {b : β} :
    (x >>= f) = .ok b ↔ ∃ a, x = .ok a ∧ f a = .ok b := by
  cases x with
  | error e => simp [bind, Except.bind]
  | ok a => simp [bind, Except.bind]

@[simp] theorem ok_bind (a : α) (f : α → Except ε β) : (Except.ok a >>= f) = f a := rfl

@[simp] theorem error_bind (e : ε) (f : α → Except ε β) :
    ((Except.error e : Except ε α) >>= f) = .error e := rfl

@[simp] theorem pure_eq_ok (a : α) : (pure a : Except ε α) = .ok a := rfl

theorem map_bind (x : Except ε α) (f : α → Except ε β) (g : β → γ) :
    (x >>= f).map g = x >>= fun a => (f a).map g := by
  cases x <;> rfl

theorem bind_map (x : Except ε α) (g : α → β) (f : β → Except ε γ) :
    x.map g >>= f = x >>= fun a => f (g a) := by
  cases x <;> rfl

@[simp] theorem map_ok (a : α) (g : α → β) : (Except.ok a : Except ε α).map g = .ok (g a) := rfl

@[simp] theorem toOption_eq_some {x : Except ε α} {a : α} : x.toOption = some a ↔ x = .ok a := by
  cases x with
  | error e => simp [Except.toOption]
  | ok a => simp [Except.toOption]

/-- The computation can fail with one error only. -/
def FailsOnly (error : ε) (x : Except ε α) : Prop := ∀ e, x = .error e → e = error

namespace FailsOnly

variable {error : ε}

theorem ok (a : α) : FailsOnly error (.ok a) := by
  intro e impossible
  cases impossible

theorem refl : FailsOnly error (.error error : Except ε α) := by
  intro e same
  exact (Except.error.inj same).symm

theorem reject (condition : Prop) [Decidable condition] :
    FailsOnly error (rejectIf condition error) := by
  by_cases h : condition
  · rw [rejectIf_of h]
    exact refl
  · rw [rejectIf_of_not h]
    exact ok ()

theorem bind {x : Except ε α} {f : α → Except ε β} (first : FailsOnly error x)
    (rest : ∀ a, x = .ok a → FailsOnly error (f a)) : FailsOnly error (x >>= f) := by
  cases h : x with
  | ok a => exact rest a h
  | error e =>
      intro e' same
      rw [error_bind, Except.error.injEq] at same
      exact same ▸ first e h

/-- A computation that does not succeed fails with the error. -/
theorem eq_error {x : Except ε α} (only : FailsOnly error x) (fails : ∀ a, x ≠ .ok a) :
    x = .error error := by
  cases h : x with
  | ok a => exact absurd h (fails a)
  | error e => exact congrArg Except.error (only e h)

end FailsOnly

/-- A value behind an injective function. -/
theorem eq_ok_of_map {f : α → β} (injective : ∀ {a b}, f a = f b → a = b) {x : Except ε α} {a : α}
    (mapped : x.map f = .ok (f a)) : x = .ok a := by
  cases x with
  | error e => cases mapped
  | ok b => exact congrArg Except.ok (injective (Except.ok.inj mapped))

/-- A list is processed if every element can be. -/
theorem mapM_succeeds {f : α → Except ε β} {list : List α}
    (each : ∀ a ∈ list, ∃ b, f a = .ok b) : ∃ bs, list.mapM f = .ok bs := by
  induction list with
  | nil => exact ⟨[], rfl⟩
  | cons a list ih =>
      obtain ⟨b, first⟩ := each a (List.mem_cons_self ..)
      obtain ⟨bs, rest⟩ := ih fun a member => each a (List.mem_cons_of_mem _ member)
      refine ⟨b :: bs, ?_⟩
      rw [List.mapM_cons, first, ok_bind, rest]
      rfl

/-- Every result of a processed list comes from one of its elements. -/
theorem mem_of_mapM_eq_ok {f : α → Except ε β} {list : List α} {bs : List β}
    (processed : list.mapM f = .ok bs) {b : β} (member : b ∈ bs) : ∃ a ∈ list, f a = .ok b := by
  induction list generalizing bs with
  | nil =>
      cases processed
      cases member
  | cons a list ih =>
      simp only [List.mapM_cons, bind_eq_ok, pure_eq_ok, Except.ok.injEq] at processed
      obtain ⟨first, one, rest, more, rfl⟩ := processed
      obtain rfl | later := List.mem_cons.mp member
      · exact ⟨a, List.mem_cons_self .., one⟩
      · obtain ⟨a, listed, same⟩ := ih more later
        exact ⟨a, List.mem_cons_of_mem _ listed, same⟩

/-- Both computations fail with the same error, or both succeed with values
related by `R`. -/
inductive Lockstep (R : α → β → Prop) : Except ε α → Except ε β → Prop where
  | ok {a : α} {b : β} : R a b → Lockstep R (.ok a) (.ok b)
  | error (e : ε) : Lockstep R (.error e) (.error e)

namespace Lockstep

variable {R : α → β → Prop} {S : γ → δ → Prop}

theorem bind {x : Except ε α} {y : Except ε β} {f : α → Except ε γ} {g : β → Except ε δ}
    (first : Lockstep R x y) (rest : ∀ a b, R a b → Lockstep S (f a) (g b)) :
    Lockstep S (x >>= f) (y >>= g) := by
  cases first with
  | ok related => exact rest _ _ related
  | error e => exact .error e

/-- A computation shared by both sides contributes the same value to both. -/
theorem bind_same {x : Except ε α} {f : α → Except ε γ} {g : α → Except ε δ}
    (rest : ∀ a, x = .ok a → Lockstep S (f a) (g a)) :
    Lockstep S (x >>= f) (x >>= g) := by
  cases h : x with
  | ok a => exact rest a h
  | error e => exact .error e

theorem ite {condition : Prop} [Decidable condition] {x x' : Except ε α} {y y' : Except ε β}
    (yes : condition → Lockstep R x y) (no : ¬ condition → Lockstep R x' y') :
    Lockstep R (if condition then x else x') (if condition then y else y') := by
  by_cases h : condition
  · simpa only [if_pos h] using yes h
  · simpa only [if_neg h] using no h

end Lockstep

end Fallible
