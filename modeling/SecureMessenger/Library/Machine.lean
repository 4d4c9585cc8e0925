import Mathlib.Data.List.Basic
import Mathlib.Data.List.Induction

/-!
# Runs of a machine that answers every input

A machine reads one input at a time, answers it and moves to its next state. A
run is a list of inputs; its trace pairs each input with the answer it received.
Nothing is assumed about who chooses the inputs, so a property of all lists is a
property of every interleaving.

The timed rules are for machines whose inputs carry a clock reading. They speak
about runs with nondecreasing readings, and their invariants may mention the
latest reading. `Once` is the rule behind "at most once": the accepted input
leaves a mark, the mark survives every later step, and a marked state does not
accept again.
-/

namespace Machine

universe u v w

variable {σ : Type u} {ι : Type v} {ο : Type w}

/-- The state after a list of inputs. -/
def run (step : σ → ι → ο × σ) : σ → List ι → σ
  | s, [] => s
  | s, i :: is => run step (step s i).2 is

/-- Each input of a run with the answer it received. -/
def trace (step : σ → ι → ο × σ) : σ → List ι → List (ι × ο)
  | _, [] => []
  | s, i :: is => (i, (step s i).1) :: trace step (step s i).2 is

variable {step : σ → ι → ο × σ}

@[simp] theorem run_cons (s : σ) (i : ι) (is : List ι) :
    run step s (i :: is) = run step (step s i).2 is := rfl

theorem run_append (s : σ) (is js : List ι) :
    run step s (is ++ js) = run step (run step s is) js := by
  induction is generalizing s with
  | nil => rfl
  | cons i is ih => exact ih (step s i).2

@[simp] theorem run_concat (s : σ) (is : List ι) (i : ι) :
    run step s (is ++ [i]) = (step (run step s is) i).2 := by
  rw [run_append]
  rfl

@[simp] theorem trace_nil (s : σ) : trace step s [] = [] := rfl

@[simp] theorem trace_cons (s : σ) (i : ι) (is : List ι) :
    trace step s (i :: is) = (i, (step s i).1) :: trace step (step s i).2 is := rfl

theorem trace_append (s : σ) (is js : List ι) :
    trace step s (is ++ js) = trace step s is ++ trace step (run step s is) js := by
  induction is generalizing s with
  | nil => rfl
  | cons i is ih =>
      simp only [List.cons_append, trace_cons, run_cons]
      rw [ih]

@[simp] theorem trace_concat (s : σ) (is : List ι) (i : ι) :
    trace step s (is ++ [i]) = trace step s is ++ [(i, (step (run step s is) i).1)] := by
  rw [trace_append]
  rfl

/-- An entry of a trace is an actual step from an actual earlier state. -/
theorem mem_trace {s : σ} {is : List ι} {entry : ι × ο} (member : entry ∈ trace step s is) :
    ∃ before after, is = before ++ entry.1 :: after ∧
      entry.2 = (step (run step s before) entry.1).1 := by
  induction is generalizing s with
  | nil => simp at member
  | cons i is ih =>
      obtain rfl | later := List.mem_cons.mp member
      · exact ⟨[], is, rfl, rfl⟩
      · obtain ⟨before, after, split, answer⟩ := ih later
        exact ⟨i :: before, after, by rw [split]; rfl, answer⟩

theorem fst_mem_of_mem_trace {s : σ} {is : List ι} {entry : ι × ο}
    (member : entry ∈ trace step s is) : entry.1 ∈ is := by
  obtain ⟨before, after, split, _⟩ := mem_trace member
  rw [split]
  simp

theorem map_fst_trace (s : σ) (is : List ι) : (trace step s is).map Prod.fst = is := by
  induction is generalizing s with
  | nil => rfl
  | cons i is ih => exact congrArg (i :: ·) (ih (step s i).2)

/-- The two parts of a trace are traces of the two parts of the run. -/
theorem trace_eq_append {s : σ} {is : List ι} {before later : List (ι × ο)}
    (split : trace step s is = before ++ later) :
    is = before.map Prod.fst ++ later.map Prod.fst ∧
      before = trace step s (before.map Prod.fst) ∧
      later = trace step (run step s (before.map Prod.fst)) (later.map Prod.fst) := by
  have inputs : is = before.map Prod.fst ++ later.map Prod.fst := by
    rw [← List.map_append, ← split, map_fst_trace]
  rw [inputs, trace_append] at split
  have length : (trace step s (before.map Prod.fst)).length = before.length := by
    rw [← List.length_map Prod.fst, map_fst_trace, List.length_map]
  obtain ⟨first, second⟩ := List.append_inj split length
  exact ⟨inputs, first.symm, second.symm⟩

/-- What one step preserves, a whole run preserves. -/
theorem invariant_run (invariant : σ → Prop)
    (keeps : ∀ s i, invariant s → invariant (step s i).2)
    {s : σ} (initial : invariant s) (is : List ι) : invariant (run step s is) := by
  induction is generalizing s with
  | nil => exact initial
  | cons i is ih => exact ih (keeps s i initial)

/-- Two states that answer alike and stay related are not told apart by any later
answer, as far as the view goes. -/
theorem trace_congr {ρ : Type*} (view : ο → ρ) (related : σ → σ → Prop) (allowed : ι → Prop)
    (one : ∀ s s' i, related s s' → allowed i →
      view (step s i).1 = view (step s' i).1 ∧ related (step s i).2 (step s' i).2)
    {s s' : σ} (start : related s s') {is : List ι} (each : ∀ i ∈ is, allowed i) :
    (trace step s is).map (fun entry => (entry.1, view entry.2)) =
      (trace step s' is).map (fun entry => (entry.1, view entry.2)) := by
  induction is generalizing s s' with
  | nil => rfl
  | cons i is ih =>
      obtain ⟨same, next⟩ := one s s' i start (each i (List.mem_cons_self ..))
      simp only [trace_cons, List.map_cons, same]
      rw [ih next fun j later => each j (List.mem_cons_of_mem i later)]

/-- Two machines in related states answer alike. What relates them may depend on the
inputs that are still to come. -/
theorem trace_simulates {τ : Type*} {abstract : τ → ι → ο × τ}
    (related : List ι → σ → τ → Prop)
    (one : ∀ {i is s t}, related (i :: is) s t →
      (step s i).1 = (abstract t i).1 ∧ related is (step s i).2 (abstract t i).2)
    {s : σ} {t : τ} {is : List ι} (start : related is s t) :
    trace step s is = trace abstract t is := by
  induction is generalizing s t with
  | nil => rfl
  | cons i is ih =>
      obtain ⟨same, next⟩ := one start
      rw [trace_cons, trace_cons, same, ih next]

/-- Machines that stay related from step to step are related when the inputs are used up. -/
theorem run_simulates {τ : Type*} {abstract : τ → ι → ο × τ}
    (related : List ι → σ → τ → Prop)
    (one : ∀ {i is s t}, related (i :: is) s t → related is (step s i).2 (abstract t i).2)
    {s : σ} {t : τ} {is : List ι} (start : related is s t) :
    related [] (run step s is) (run abstract t is) := by
  induction is generalizing s t with
  | nil => exact start
  | cons i is ih => exact ih (one start)

section Equivariance

variable {σ' : Type*} {ι' : Type*} {ο' : Type*} {step' : σ' → ι' → ο' × σ'}
variable {state : σ → σ'} {input : ι → ι'} {output : ο → ο'}

/-- A renaming that one step respects, a whole run respects. -/
theorem run_map (one : ∀ s i, step' (state s) (input i) = (step s i).map output state)
    (s : σ) (is : List ι) : run step' (state s) (is.map input) = state (run step s is) := by
  induction is generalizing s with
  | nil => rfl
  | cons i is ih =>
      rw [List.map_cons, run_cons, one]
      exact ih (step s i).2

theorem trace_map (one : ∀ s i, step' (state s) (input i) = (step s i).map output state)
    (s : σ) (is : List ι) :
    trace step' (state s) (is.map input) = (trace step s is).map (Prod.map input output) := by
  induction is generalizing s with
  | nil => rfl
  | cons i is ih =>
      rw [List.map_cons, trace_cons, one, trace_cons, List.map_cons]
      exact congrArg _ (ih (step s i).2)

end Equivariance

/-- Inputs that leave the state alone can be taken out of a run. The others are answered
as before. -/
theorem trace_filter (idle : ι × ο → Bool)
    (unchanged : ∀ s i, idle (i, (step s i).1) = true → (step s i).2 = s) (s : σ) (is : List ι) :
    trace step s (((trace step s is).filter (fun entry => !idle entry)).map Prod.fst) =
      (trace step s is).filter (fun entry => !idle entry) := by
  induction is generalizing s with
  | nil => rfl
  | cons i is ih =>
      rw [trace_cons, List.filter_cons]
      split
      · rw [List.map_cons, trace_cons, ih]
      · next dropped =>
        rw [unchanged s i (by simpa using dropped), ih]

/-- What a run ends with and did not begin with was brought by one of its inputs. -/
theorem brought_run (invariant : σ → Prop)
    (keeps : ∀ s i, invariant s → invariant (step s i).2) (has : σ → Prop) (brings : ι → Prop)
    (one : ∀ s i, invariant s → has (step s i).2 → has s ∨ brings i)
    {s : σ} (initial : invariant s) (absent : ¬ has s) {is : List ι}
    (final : has (run step s is)) : ∃ i ∈ is, brings i := by
  induction is generalizing s with
  | nil => exact absurd final absent
  | cons i is ih =>
      by_cases now : has (step s i).2
      · exact ⟨i, List.mem_cons_self .., (one s i initial now).resolve_left absent⟩
      · obtain ⟨j, member, brings⟩ := ih (keeps s i initial) now final
        exact ⟨j, List.mem_cons_of_mem i member, brings⟩

section Collect

variable {α : Type*} {observe : σ → ι → Option α}

/-- What an observer of the steps notes along a run. -/
def collect (step : σ → ι → ο × σ) (observe : σ → ι → Option α) : σ → List ι → List α
  | _, [] => []
  | s, i :: is => (observe s i).toList ++ collect step observe (step s i).2 is

theorem collect_append (s : σ) (is js : List ι) :
    collect step observe s (is ++ js) =
      collect step observe s is ++ collect step observe (run step s is) js := by
  induction is generalizing s with
  | nil => rfl
  | cons i is ih =>
      show (observe s i).toList ++ collect step observe (step s i).2 (is ++ js) = _
      rw [ih, ← List.append_assoc]
      rfl

theorem collect_concat (s : σ) (is : List ι) (i : ι) :
    collect step observe s (is ++ [i]) =
      collect step observe s is ++ (observe (run step s is) i).toList := by
  rw [collect_append]
  exact congrArg _ (List.append_nil _)

/-- A note of a run stems from one of its steps. -/
theorem mem_collect {s : σ} {is : List ι} {a : α} (member : a ∈ collect step observe s is) :
    ∃ before i after, is = before ++ i :: after ∧ observe (run step s before) i = some a := by
  induction is generalizing s with
  | nil => cases member
  | cons i is ih =>
      have split : a ∈ (observe s i).toList ++ collect step observe (step s i).2 is := member
      obtain first | later := List.mem_append.mp split
      · exact ⟨[], i, is, rfl, Option.mem_toList.mp first⟩
      · obtain ⟨before, j, after, rfl, observed⟩ := ih later
        exact ⟨i :: before, j, after, rfl, observed⟩

/-- An observer that notes more has all the notes. -/
theorem mem_collect_of_observe {observe' : σ → ι → Option α}
    (each : ∀ s i a, observe s i = some a → observe' s i = some a) {s : σ} {is : List ι} {a : α}
    (member : a ∈ collect step observe s is) : a ∈ collect step observe' s is := by
  induction is generalizing s with
  | nil => cases member
  | cons i is ih =>
      have split : a ∈ (observe s i).toList ++ collect step observe (step s i).2 is := member
      show a ∈ (observe' s i).toList ++ collect step observe' (step s i).2 is
      obtain first | later := List.mem_append.mp split
      · have noted := each s i a (Option.mem_toList.mp first)
        exact List.mem_append_left _ (Option.mem_toList.mpr noted)
      · exact List.mem_append_right _ (ih later)

/-- The first note of a run stems from its first step that was noted. -/
theorem collect_cons {s : σ} {is : List ι} {a : α} {rest : List α}
    (noted : collect step observe s is = a :: rest) :
    ∃ before i after, is = before ++ i :: after ∧ collect step observe s before = [] ∧
      observe (run step s before) i = some a := by
  induction is generalizing s with
  | nil => cases noted
  | cons i is ih =>
      have split : (observe s i).toList ++ collect step observe (step s i).2 is = a :: rest := noted
      cases first : observe s i with
      | some b =>
          rw [first] at split
          cases split
          exact ⟨[], i, is, rfl, rfl, first⟩
      | none =>
          rw [first] at split
          obtain ⟨before, j, after, rfl, silent, observed⟩ := ih split
          refine ⟨i :: before, j, after, rfl, ?_, observed⟩
          show (observe s i).toList ++ collect step observe (step s i).2 before = []
          rw [first, silent]
          rfl

end Collect

section Timed

variable {clock : ι → Nat}

/-- The latest clock reading of a run that began at `start`. -/
def latest (clock : ι → Nat) (start : Nat) : List ι → Nat
  | [] => start
  | i :: is => latest clock (clock i) is

@[simp] theorem latest_concat (start : Nat) (is : List ι) (i : ι) :
    latest clock start (is ++ [i]) = clock i := by
  induction is generalizing start with
  | nil => rfl
  | cons j is ih => exact ih (clock j)

theorem latest_le {start bound : Nat} {is : List ι} (first : start ≤ bound)
    (each : ∀ i ∈ is, clock i ≤ bound) : latest clock start is ≤ bound := by
  induction is generalizing start with
  | nil => exact first
  | cons i is ih =>
      exact ih (each i (List.mem_cons_self ..)) fun j later => each j (List.mem_cons_of_mem i later)

/-- Clock readings never decrease from one input to a later one. -/
def Nondecreasing (clock : ι → Nat) (is : List ι) : Prop :=
  is.Pairwise (fun i j => clock i ≤ clock j)

theorem Nondecreasing.left {is js : List ι} (h : Nondecreasing clock (is ++ js)) :
    Nondecreasing clock is := (List.pairwise_append.mp h).1

theorem Nondecreasing.right {is js : List ι} (h : Nondecreasing clock (is ++ js)) :
    Nondecreasing clock js := (List.pairwise_append.mp h).2.1

/-- After a first part, no later reading is below the latest one. -/
theorem Nondecreasing.latest_le {is js : List ι} (h : Nondecreasing clock (is ++ js))
    {start : Nat} (early : ∀ i ∈ js, start ≤ clock i) :
    ∀ i ∈ js, latest clock start is ≤ clock i := by
  intro i member
  exact Machine.latest_le (early i member) fun j first =>
    (List.pairwise_append.mp h).2.2 j first i member

/-- A timed invariant holds at the end of every run with nondecreasing clock. -/
theorem invariant_timed_run (invariant : Nat → σ → Prop)
    (keeps : ∀ time s i, invariant time s → time ≤ clock i → invariant (clock i) (step s i).2)
    {start : Nat} {s : σ} (initial : invariant start s) {is : List ι}
    (early : ∀ i ∈ is, start ≤ clock i) (timed : Nondecreasing clock is) :
    invariant (latest clock start is) (run step s is) := by
  induction is generalizing start s with
  | nil => exact initial
  | cons i is ih =>
      obtain ⟨first, rest⟩ := List.pairwise_cons.mp timed
      exact ih (keeps start s i initial (early i (by simp))) first rest

/-- A part of a machine that runs like a machine of its own. If the part answers
its own inputs like the small machine and no other input disturbs the relation
between them, then what the part answers in a run is what the small machine
answers to the part's inputs alone. -/
theorem filter_trace_eq {τ : Type*} {small : τ → ι → ο × τ} (own : ι → Bool)
    (relation : Nat → σ → τ → Prop)
    (answers : ∀ time s t i, relation time s t → time ≤ clock i → own i = true →
      (step s i).1 = (small t i).1 ∧ relation (clock i) (step s i).2 (small t i).2)
    (ignores : ∀ time s t i, relation time s t → time ≤ clock i → own i = false →
      relation (clock i) (step s i).2 t)
    {start : Nat} {s : σ} {t : τ} (related : relation start s t) {is : List ι}
    (early : ∀ i ∈ is, start ≤ clock i) (timed : Nondecreasing clock is) :
    (trace step s is).filter (fun entry => own entry.1) = trace small t (is.filter own) := by
  induction is generalizing start s t with
  | nil => rfl
  | cons i is ih =>
      obtain ⟨first, rest⟩ := List.pairwise_cons.mp timed
      have later := early i (List.mem_cons_self ..)
      cases mine : own i with
      | true =>
          obtain ⟨same, related'⟩ := answers start s t i related later mine
          simp only [trace_cons, List.filter_cons, mine, if_true, same]
          rw [ih related' first rest]
      | false =>
          simp only [trace_cons, List.filter_cons, mine, Bool.false_eq_true, if_false]
          exact ih (ignores start s t i related later mine) first rest

/-- Why an input is accepted at most once: acceptance leaves a mark, the mark
survives every later step, and a marked state does not accept. -/
structure Once (step : σ → ι → ο × σ) (clock : ι → Nat) (accepts : ι × ο → Bool) where
  invariant : σ → Prop
  mark : Nat → σ → Prop
  holds : ∀ s i, invariant s → invariant (step s i).2
  marks : ∀ s i, invariant s → accepts (i, (step s i).1) = true → mark (clock i) (step s i).2
  keeps : ∀ time s i, invariant s → mark time s → time ≤ clock i → mark (clock i) (step s i).2
  blocks : ∀ time s i, invariant s → mark time s → time ≤ clock i →
    accepts (i, (step s i).1) = false

namespace Once

variable {accepts : ι × ο → Bool} (once : Once step clock accepts)
include once

/-- A mark lasts to the end of the run. -/
theorem mark_run {start : Nat} {s : σ} (initial : once.invariant s) (marked : once.mark start s)
    {is : List ι} (early : ∀ i ∈ is, start ≤ clock i) (timed : Nondecreasing clock is) :
    once.mark (latest clock start is) (run step s is) := by
  have both : once.invariant (run step s is) ∧ once.mark (latest clock start is) (run step s is) :=
    invariant_timed_run (fun time s => once.invariant s ∧ once.mark time s)
      (fun time s i h le => ⟨once.holds s i h.1, once.keeps time s i h.1 h.2 le⟩)
      ⟨initial, marked⟩ early timed
  exact both.2

/-- A marked state accepts nothing for the rest of the run. -/
theorem countP_eq_zero {start : Nat} {s : σ} (initial : once.invariant s)
    (marked : once.mark start s) {is : List ι}
    (early : ∀ i ∈ is, start ≤ clock i) (timed : Nondecreasing clock is) :
    (trace step s is).countP accepts = 0 := by
  induction is generalizing start s with
  | nil => rfl
  | cons i is ih =>
      obtain ⟨first, rest⟩ := List.pairwise_cons.mp timed
      have later := early i (by simp)
      rw [trace_cons, List.countP_cons,
        ih (once.holds s i initial) (once.keeps start s i initial marked later) first rest,
        once.blocks start s i initial marked later]
      rfl

theorem countP_le_one {s : σ} (initial : once.invariant s) {is : List ι}
    (timed : Nondecreasing clock is) : (trace step s is).countP accepts ≤ 1 := by
  induction is generalizing s with
  | nil => simp
  | cons i is ih =>
      obtain ⟨first, rest⟩ := List.pairwise_cons.mp timed
      rw [trace_cons, List.countP_cons]
      by_cases accepted : accepts (i, (step s i).1) = true
      · rw [once.countP_eq_zero (once.holds s i initial) (once.marks s i initial accepted)
          first rest]
        simp [accepted]
      · rw [if_neg accepted]
        exact ih (once.holds s i initial) rest

/-- Once something was accepted, the final state is marked. -/
theorem mark_of_accepted {s : σ} (initial : once.invariant s) {is : List ι}
    (timed : Nondecreasing clock is) {entry : ι × ο} (member : entry ∈ trace step s is)
    (accepted : accepts entry = true) (start : Nat) :
    once.mark (latest clock start is) (run step s is) := by
  induction is generalizing s start with
  | nil => simp at member
  | cons i is ih =>
      obtain ⟨first, rest⟩ := List.pairwise_cons.mp timed
      obtain rfl | later := List.mem_cons.mp member
      · exact once.mark_run (once.holds s i initial) (once.marks s i initial accepted) first rest
      · exact ih (once.holds s i initial) rest later (clock i)

end Once

end Timed

end Machine
