import Mathlib.Data.List.Basic
import Mathlib.Data.List.Nodup
import Mathlib.Tactic.Ring

/-!
# Tables keyed by an integer row number

A table stores its rows in a tree ordered by row number. A row inserted without
an explicit number receives the largest number of the table plus one, or one if
the table is empty; numbers freed at the upper end are therefore used again. The
ordering is a field of the structure, so no operation can build a table whose
rows are out of order or share a number.

Clients read `contents`: the rows in ascending row number. Insertion appends to
that list and deletion filters it, whatever numbers the surviving rows carry.
-/

/-- Rows in strictly ascending row number. -/
structure Table (α : Type) where
  rows : List (Nat × α)
  ascending : rows.Pairwise (fun a b => a.1 < b.1)

namespace Table

variable {α κ : Type}

def empty : Table α := ⟨[], List.Pairwise.nil⟩

/-- The rows read in ascending row number. -/
def contents (t : Table α) : List α := t.rows.map Prod.snd

/-- The largest row number plus one, or one for an empty table. -/
def nextRowid (t : Table α) : Nat :=
  match t.rows.getLast? with
  | none => 1
  | some row => row.1 + 1

theorem rowid_lt_next (t : Table α) {row : Nat × α} (member : row ∈ t.rows) :
    row.1 < t.nextRowid := by
  rw [nextRowid]
  obtain ⟨front, last, split⟩ := List.eq_nil_or_concat t.rows |>.resolve_left
    (List.ne_nil_of_mem member)
  rw [List.concat_eq_append] at split
  have ordered := t.ascending
  rw [split, List.pairwise_append] at ordered
  rw [split] at member ⊢
  simp only [List.getLast?_append, List.getLast?_singleton, Option.some_or]
  obtain inFront | atEnd := List.mem_append.mp member
  · exact Nat.lt_succ_of_lt (ordered.2.2 row inFront last (by simp))
  · rw [List.mem_singleton.mp atEnd]
    exact Nat.lt_succ_self _

/-- Insert a row without an explicit number. -/
def append (t : Table α) (row : α) : Table α where
  rows := t.rows ++ [(t.nextRowid, row)]
  ascending := by
    refine List.pairwise_append.mpr ⟨t.ascending, List.pairwise_singleton _ _, ?_⟩
    intro a member b last
    rw [List.mem_singleton.mp last]
    exact t.rowid_lt_next member

@[simp] theorem contents_append (t : Table α) (row : α) :
    (t.append row).contents = t.contents ++ [row] := by
  simp [append, contents]

/-- Keep the rows that satisfy a predicate, with their numbers. -/
def keep (t : Table α) (p : α → Bool) : Table α where
  rows := t.rows.filter (fun row => p row.2)
  ascending := t.ascending.filter _

@[simp] theorem contents_keep (t : Table α) (p : α → Bool) :
    (t.keep p).contents = t.contents.filter p := by
  simp only [keep, contents, List.filter_map]
  rfl

theorem sublist_keep (t : Table α) (p : α → Bool) : (t.keep p).contents.Sublist t.contents := by
  rw [contents_keep]
  exact List.filter_sublist

/-- A stronger predicate makes an earlier selection superfluous. -/
theorem keep_keep {p q : α → Bool} (stronger : ∀ row, q row = true → p row = true) (t : Table α) :
    (t.keep p).keep q = t.keep q := by
  have both : ∀ row, (q row && p row) = q row := by
    intro row
    cases selected : q row with
    | true => simp [stronger row selected]
    | false => rfl
  simp only [keep, List.filter_filter, both]

/-- Delete the rows that satisfy a predicate and report how many there were. -/
def deleteWhere (t : Table α) (p : α → Bool) : Nat × Table α :=
  (t.contents.countP p, t.keep (fun row => !p row))

/-- The first row that satisfies a predicate, if any. -/
def find? (t : Table α) (p : α → Bool) : Option α := t.contents.find? p

/-- Whether some row satisfies a predicate. -/
def exists? (t : Table α) (p : α → Bool) : Bool := t.contents.any p

/-- Insert unless a row with the same key is present; report the rows inserted. -/
def insertOrIgnore [DecidableEq κ] (key : α → κ) (t : Table α) (row : α) : Nat × Table α :=
  if t.exists? (fun other => key other = key row) then (0, t) else (1, t.append row)

/-- Insert, or fail when a row with the same key is present. -/
def insertUnique [DecidableEq κ] (key : α → κ) (t : Table α) (row : α) : Option (Table α) :=
  if t.exists? (fun other => key other = key row) then none else some (t.append row)

/-- Replace every row by an updated copy, keeping the row numbers. -/
def update (t : Table α) (f : α → α) : Table α where
  rows := t.rows.map (fun row => (row.1, f row.2))
  ascending := List.pairwise_map.mpr t.ascending

@[simp] theorem contents_update (t : Table α) (f : α → α) :
    (t.update f).contents = t.contents.map f := by
  simp [update, contents, Function.comp_def]

/-- Insert, or update the rows that already carry the key. -/
def upsert [DecidableEq κ] (t : Table α) (key : α → κ) (row : α) (change : α → α) : Table α :=
  if t.exists? (fun other => key other = key row) then
    t.update (fun other => if key other = key row then change other else other)
  else t.append row

/-- A selection that the change does not affect commutes with the upsert. -/
theorem filter_upsert [DecidableEq κ] {key : α → κ} {change : α → α} {p : α → Bool}
    (unaffected : ∀ row, p (change row) = p row) (t : Table α) (row : α) :
    (t.upsert key row change).contents.filter p =
      if t.exists? (fun other => key other = key row) then
        (t.contents.filter p).map (fun other => if key other = key row then change other else other)
      else t.contents.filter p ++ [row].filter p := by
  rw [upsert]
  split
  · have selects : (p ∘ fun other => if key other = key row then change other else other) = p := by
      funext other
      simp only [Function.comp_apply]
      split
      · exact unaffected other
      · rfl
    rw [contents_update, List.filter_map, selects]
  · rw [contents_append, List.filter_append]

/-- An upsert whose change turns an old row with the key into the new row leaves
the new row and the rows with other keys. -/
theorem mem_contents_upsert [DecidableEq κ] {key : α → κ} {change : α → α} {t : Table α} {row : α}
    (replaces : ∀ old, key old = key row → change old = row) {other : α} :
    other ∈ (t.upsert key row change).contents ↔
      (other ∈ t.contents ∧ key other ≠ key row) ∨ other = row := by
  rw [upsert]
  split
  · next present =>
    rw [contents_update, List.mem_map]
    obtain ⟨old, member, same⟩ := List.any_eq_true.mp present
    have same : key old = key row := by simpa using same
    constructor
    · rintro ⟨old, member, rfl⟩
      split
      · next same => exact .inr (replaces old same)
      · next differs => exact .inl ⟨member, differs⟩
    · rintro (⟨member, differs⟩ | rfl)
      · exact ⟨other, member, if_neg differs⟩
      · exact ⟨old, member, by rw [if_pos same, replaces old same]⟩
  · next missing =>
    rw [contents_append, List.mem_append, List.mem_singleton]
    have differs : ∀ old ∈ t.contents, key old ≠ key row := by
      intro old member same
      exact missing (List.any_eq_true.mpr ⟨old, member, by simpa using same⟩)
    constructor
    · rintro (member | same)
      · exact .inl ⟨member, differs other member⟩
      · exact .inr same
    · rintro (⟨member, _⟩ | same)
      · exact .inl member
      · exact .inr same

/-! Uniqueness of a key over the rows read from a table. -/

/-- A row with a new key may be appended. -/
theorem nodup_map_concat {key : α → κ} {rows : List α} {row : α} (distinct : (rows.map key).Nodup)
    (fresh : ∀ other ∈ rows, key other ≠ key row) : ((rows ++ [row]).map key).Nodup := by
  rw [List.map_append, List.nodup_append]
  refine ⟨distinct, List.nodup_singleton _, ?_⟩
  intro k old k' new
  obtain ⟨other, member, rfl⟩ := List.mem_map.mp old
  obtain rfl := List.mem_singleton.mp new
  exact fresh other member

/-- A key that determines the part a row belongs to is unique if it is unique in
the part of every row. -/
theorem nodup_map_of_parts {β : Type} [DecidableEq β] {key : α → κ} (part : α → β)
    (determines : ∀ a b, key a = key b → part a = part b) {rows : List α}
    (each : ∀ row ∈ rows, ((rows.filter (fun other => part other = part row)).map key).Nodup) :
    (rows.map key).Nodup := by
  induction rows with
  | nil => exact List.nodup_nil
  | cons row rows ih =>
      rw [List.map_cons, List.nodup_cons]
      constructor
      · intro again
        obtain ⟨other, member, same⟩ := List.mem_map.mp again
        have alone := each row (List.mem_cons_self ..)
        rw [List.filter_cons_of_pos (by simp), List.map_cons, List.nodup_cons] at alone
        refine alone.1 (List.mem_map.mpr ⟨other, List.mem_filter.mpr ⟨member, ?_⟩, same⟩)
        simpa using determines other row same
      · refine ih fun other member => ?_
        refine (each other (List.mem_cons_of_mem row member)).sublist (List.Sublist.map key ?_)
        exact (List.sublist_cons_self row rows).filter _

/-- A key that consists of the part and a key within the part. -/
theorem nodup_map_prod {β : Type} [DecidableEq β] {part : α → β} {key : α → κ} {rows : List α}
    (each : ∀ row ∈ rows, ((rows.filter (fun other => part other = part row)).map key).Nodup) :
    (rows.map fun row => (part row, key row)).Nodup := by
  refine nodup_map_of_parts part (fun a b same => congrArg Prod.fst same) fun row member => ?_
  refine List.Nodup.of_map Prod.snd ?_
  rw [List.map_map]
  exact each row member

end Table
