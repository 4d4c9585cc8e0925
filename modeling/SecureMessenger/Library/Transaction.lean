import SecureMessenger.Library.Fallible

/-!
# Statements on a transactional store

A connection sees what is committed or, inside a transaction, its own working copy. A
statement tests what it sees or changes it, and may fail; outside a transaction a change
takes effect at once. Whoever closes a connection, or drops a transaction after an
error, drops the working copy.

A script that only tests before it begins its transaction takes effect as a whole or not
at all.
-/

namespace Transaction

open Fallible

variable {δ ε : Type}

/-- The committed content and the working copy of the transaction, if there is one. -/
structure Connection (δ : Type) where
  committed : δ
  working : Option δ

/-- What the statements of a connection see. -/
def Connection.visible (c : Connection δ) : δ := c.working.getD c.committed

/-- A test or a change of the content. -/
inductive Action (δ ε : Type)
  | test (condition : δ → Except ε Unit)
  | change (update : δ → Except ε δ)

inductive Statement (δ ε : Type)
  | perform (action : Action δ ε)
  | begin
  | commit

/-- An action on a content of its own. -/
def Action.apply : Action δ ε → δ → Except ε δ
  | test condition, d => do
      condition d
      .ok d
  | change update, d => update d

def Action.reads : Action δ ε → Bool
  | test _ => true
  | change _ => false

/-- One statement. A statement that fails changes nothing. -/
def execute (c : Connection δ) : Statement δ ε → Except ε (Connection δ)
  | .perform action => do
      let d ← action.apply c.visible
      .ok (if c.working.isSome then { c with working := some d } else { c with committed := d })
  | .begin => .ok { c with working := some c.committed }
  | .commit => .ok ⟨c.visible, none⟩

/-- The statements up to the first that fails, with the connection they leave. -/
def run (c : Connection δ) : List (Statement δ ε) → Except ε Unit × Connection δ
  | [] => (.ok (), c)
  | statement :: rest =>
      match execute c statement with
      | .ok c => run c rest
      | .error e => (.error e, c)

/-- Tests, and then actions in one transaction. -/
def script (tests actions : List (Action δ ε)) : List (Statement δ ε) :=
  tests.map .perform ++ .begin :: (actions.map .perform ++ [.commit])

/-- A list of actions on a content of its own. -/
def applyAll (d : δ) (actions : List (Action δ ε)) : Except ε δ :=
  actions.foldlM (fun d action => action.apply d) d

theorem applyAll_cons (d : δ) (action : Action δ ε) (actions : List (Action δ ε)) :
    applyAll d (action :: actions) = action.apply d >>= fun d => applyAll d actions :=
  List.foldlM_cons ..

theorem applyAll_test (d : δ) (condition : δ → Except ε Unit) :
    applyAll d [.test condition] = condition d >>= fun _ => .ok d := by
  rw [applyAll_cons, Action.apply]
  cases condition d <;> rfl

theorem applyAll_change (d : δ) (update : δ → δ) (actions : List (Action δ ε)) :
    applyAll d (.change (fun d => .ok (update d)) :: actions) = applyAll (update d) actions := rfl

theorem applyAll_append (d : δ) (actions actions' : List (Action δ ε)) :
    applyAll d (actions ++ actions') = applyAll d actions >>= fun d => applyAll d actions' :=
  List.foldlM_append ..

/-- Inside a transaction nothing but the final statement reaches the store. -/
theorem run_actions (base d : δ) (actions : List (Action δ ε)) :
    (run ⟨base, some d⟩ (actions.map .perform ++ [.commit])).1 =
        (applyAll d actions).map (fun _ => ()) ∧
      (run ⟨base, some d⟩ (actions.map .perform ++ [.commit])).2.committed =
        (applyAll d actions).toOption.getD base := by
  induction actions generalizing d with
  | nil => exact ⟨rfl, rfl⟩
  | cons action actions ih =>
      rw [applyAll_cons, List.map_cons, List.cons_append, run]
      cases applied : action.apply d with
      | error e =>
          have failed : execute ⟨base, some d⟩ (.perform action) = .error e :=
            congrArg (· >>= _) applied
          rw [failed]
          exact ⟨rfl, rfl⟩
      | ok d' =>
          have done : execute ⟨base, some d⟩ (.perform action) = .ok ⟨base, some d'⟩ :=
            congrArg (· >>= _) applied
          rw [done]
          exact ih d'

/-- A script takes effect as a whole or not at all. -/
theorem run_script {tests : List (Action δ ε)} (only : ∀ action ∈ tests, action.reads = true)
    (d : δ) (actions : List (Action δ ε)) :
    (run ⟨d, none⟩ (script tests actions)).1 =
        (applyAll d (tests ++ actions)).map (fun _ => ()) ∧
      (run ⟨d, none⟩ (script tests actions)).2.committed =
        (applyAll d (tests ++ actions)).toOption.getD d := by
  induction tests with
  | nil => exact run_actions d d actions
  | cons action tests ih =>
      rw [List.cons_append, applyAll_cons, script, List.map_cons, List.cons_append, run]
      cases action with
      | change update => cases only _ (List.mem_cons_self ..)
      | test condition =>
          cases holds : condition d with
          | error e =>
              have refused : (Action.test condition).apply d = .error e :=
                congrArg (· >>= _) holds
              have failed : execute ⟨d, none⟩ (.perform (.test condition)) = .error e :=
                congrArg (· >>= _) refused
              rw [failed, refused]
              exact ⟨rfl, rfl⟩
          | ok u =>
              have passed : (Action.test condition).apply d = .ok d := congrArg (· >>= _) holds
              have done : execute ⟨d, none⟩ (.perform (.test condition)) = .ok ⟨d, none⟩ :=
                congrArg (· >>= _) passed
              rw [done, passed]
              exact ih fun action member => only action (List.mem_cons_of_mem _ member)

end Transaction
