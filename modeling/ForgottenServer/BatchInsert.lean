/-
# Rows for the database

`DBInsert` collects rows and sends them in few queries: a row goes into the
buffer, and the buffer is executed when a running length passes the packet
limit. The running length counts the rows only. It leaves out parentheses and
commas, and the row that caused a flush, so a query may be longer than the
limit (`Overruns`). No row is lost (`insertRows_batches`).

Key definitions: `addRow`, `execute`, `insertRows`, `Overruns`.
Key theorems: `addRow_spec`, `insertRows_batches`, `within_limit_iff`.
-/
import Mathlib.Tactic
import ForgottenServer.Lib.Run

namespace ForgottenServer
namespace BatchInsert

abbrev Text := List UInt8

/-- The connection: the packet limit, the queries that the server accepts and
the executed ones, oldest first. -/
structure Database where
  maxPacketSize : ℕ := 1048576
  accepts : Text → Bool := fun _ => true
  executed : List Text := []

def Database.executeQuery (db : Database) (query : Text) : Bool × Database :=
  (db.accepts query, { db with executed := db.executed ++ [query] })

structure DBInsert where
  query : Text
  values : Text := []
  length : ℕ := query.length

def execute (s : DBInsert) (db : Database) : Bool × DBInsert × Database :=
  if s.values = [] then (true, s, db)
  else
    let res := db.executeQuery (s.query ++ s.values)
    (res.1, { s with values := [], length := s.query.length }, res.2)

/-- `(row)` -/
def parenthesised (row : Text) : Text := 0x28 :: row ++ [0x29]

def append (values row : Text) : Text :=
  if values = [] then parenthesised row else values ++ 0x2C :: parenthesised row

def addRow (s : DBInsert) (db : Database) (row : Text) : Bool × DBInsert × Database :=
  let s := { s with length := s.length + row.length }
  let r := if db.maxPacketSize < s.length then execute s db else (true, s, db)
  if !r.1 then (false, r.2.1, r.2.2)
  else (true, { r.2.1 with values := append r.2.1.values row }, r.2.2)

/-- How the rows are saved: one after the other, then what is left. -/
def insertRows (s : DBInsert) (db : Database) : List Text → Bool × Database
  | [] =>
    let r := execute s db
    (r.1, r.2.2)
  | row :: rows =>
    let r := addRow s db row
    if r.1 then insertRows r.2.1 r.2.2 rows else (false, r.2.2)

/-! ### What is still to come -/

/-- The queries when the buffer is executed as it is. -/
def queries (p : DBInsert × Database) : List Text :=
  p.2.executed ++ if p.1.values = [] then [] else [p.1.query ++ p.1.values]

/-- A row that the running length lets into the buffer, where there is no room
for it with its parentheses and the comma. -/
def Overruns (p : DBInsert × Database) (row : Text) : Prop :=
  p.1.length + row.length ≤ p.2.maxPacketSize ∧ p.1.values ≠ [] ∧
    p.2.maxPacketSize < p.1.query.length + p.1.values.length + row.length + 3

/-- The state after a row. -/
def step (p : DBInsert × Database) (row : Text) : DBInsert × Database := (addRow p.1 p.2 row).2

/-- The values of a query. -/
def valueList (rows : List Text) : Text := [0x2C].intercalate (rows.map parenthesised)

/-- The queries are batches of the rows, in order and none empty. -/
def Batched (query : Text) (executed rows : List Text) : Prop :=
  ∃ batches : List (List Text), executed = batches.map (fun b => query ++ valueList b) ∧
    (∀ b ∈ batches, b ≠ []) ∧ batches.flatten = rows

section

variable {query : Text} {p : DBInsert × Database} {row : Text} {rows : List Text}

theorem valueList_concat (h : rows ≠ []) :
    valueList (rows ++ [row]) = valueList rows ++ 0x2C :: parenthesised row := by
  unfold valueList
  induction rows with
  | nil => exact absurd rfl h
  | cons r rows ih =>
    cases rows with
    | nil => simp [parenthesised]
    | cons r' rows =>
      have hr := ih (List.cons_ne_nil r' rows)
      simp only [List.cons_append, List.map_cons, List.intercalate_cons_cons] at hr ⊢
      simp only [hr, List.append_assoc]

theorem valueList_eq_nil : valueList rows = [] ↔ rows = [] := by
  cases rows with
  | nil => exact ⟨fun _ => rfl, fun _ => rfl⟩
  | cons r rows =>
    refine ⟨fun h => ?_, fun h => nomatch h⟩
    cases rows <;> simp [valueList, parenthesised] at h

/-- The buffer after a row. -/
theorem append_valueList : append (valueList rows) row = valueList (rows ++ [row]) := by
  unfold append
  by_cases h : rows = []
  · subst h
    simp [valueList]
  · rw [if_neg (mt valueList_eq_nil.1 h), valueList_concat h]

theorem length_append (values : Text) :
    (append values row).length = if values = [] then row.length + 2 else values.length + row.length + 3 := by
  unfold append parenthesised
  split
  · simp
  · simp only [List.length_append, List.length_cons, List.length_nil]
    omega

/-- An accepted query empties the buffer. -/
theorem execute_eq (ha : ∀ q, p.2.accepts q = true) :
    execute p.1 p.2 = (true, if p.1.values = [] then p.1 else
      { p.1 with values := [], length := p.1.query.length }, { p.2 with executed := queries p }) := by
  unfold execute queries Database.executeQuery
  split
  · rw [List.append_nil]
  · rw [ha]

/-- What a row does when the queries are accepted: the buffer is executed
first when the running length is past the limit. -/
theorem addRow_spec (ha : ∀ q, p.2.accepts q = true) (row : Text) :
    (addRow p.1 p.2 row).1 = true ∧ (step p row).1.query = p.1.query ∧
      (step p row).2.accepts = p.2.accepts ∧ (step p row).2.maxPacketSize = p.2.maxPacketSize ∧
      ((p.2.maxPacketSize < p.1.length + row.length ∧ (step p row).1.values = append [] row ∧
          (step p row).2.executed = queries p) ∨
        (p.1.length + row.length ≤ p.2.maxPacketSize ∧
          (step p row).1.values = append p.1.values row ∧
          (step p row).1.length = p.1.length + row.length ∧ (step p row).2 = p.2)) := by
  unfold step addRow
  dsimp only
  by_cases h : p.2.maxPacketSize < p.1.length + row.length
  · have hq : queries ({ p.1 with length := p.1.length + row.length }, p.2) = queries p := rfl
    rw [if_pos h, execute_eq (p := ({ p.1 with length := p.1.length + row.length }, p.2)) ha, hq]
    by_cases hv : p.1.values = []
    · simp only [hv, Bool.not_true, Bool.false_eq_true, if_false, if_true, true_and]
      exact .inl ⟨h, trivial⟩
    · simp only [hv, Bool.not_true, Bool.false_eq_true, if_false, true_and]
      exact .inl ⟨h, trivial⟩
  · rw [if_neg h]
    exact ⟨rfl, rfl, rfl, rfl, .inr ⟨Nat.le_of_not_lt h, rfl, rfl, rfl⟩⟩

/-! ### Runs of rows -/

theorem insertRows_eq (rows : List Text) : ∀ {p : DBInsert × Database}, (∀ q, p.2.accepts q = true) →
    ∃ db, insertRows p.1 p.2 rows = (true, db) ∧ db.executed = queries (Run.run step p rows) := by
  induction rows with
  | nil =>
    intro p ha
    refine ⟨{ p.2 with executed := queries p }, ?_, rfl⟩
    rw [insertRows, execute_eq ha]
  | cons row rows ih =>
    intro p ha
    obtain ⟨hok, -, hacc, -⟩ := addRow_spec ha row
    rw [insertRows, if_pos hok]
    exact ih (p := step p row) (hacc ▸ ha)

/-- The rows so far, in the executed queries and in the buffer. -/
def Holds (query : Text) (p : DBInsert × Database) (done : List Text) : Prop :=
  p.1.query = query ∧ ∃ before last, Batched query p.2.executed before ∧ p.1.values = valueList last ∧
    before ++ last = done

theorem Batched.append {executed : List Text} {last : List Text} (h : Batched query executed rows)
    (hl : last ≠ []) : Batched query (executed ++ [query ++ valueList last]) (rows ++ last) := by
  obtain ⟨batches, rfl, hne, rfl⟩ := h
  refine ⟨batches ++ [last], by simp, ?_, by simp⟩
  intro b hb
  rcases List.mem_append.1 hb with hb | hb
  · exact hne b hb
  · rwa [List.mem_singleton.1 hb]

theorem Holds.queries {done : List Text} (h : Holds query p done) : Batched query (queries p) done := by
  obtain ⟨rfl, before, last, hb, hv, rfl⟩ := h
  unfold BatchInsert.queries
  by_cases hl : last = []
  · subst hl
    rw [hv, if_pos (valueList_eq_nil.2 rfl), List.append_nil, List.append_nil]
    exact hb
  · rw [hv, if_neg (mt valueList_eq_nil.1 hl)]
    exact hb.append hl

/-- A row comes after the rows so far. -/
theorem Holds.step {done : List Text} (h : Holds query p done) (ha : ∀ q, p.2.accepts q = true)
    (row : Text) : Holds query (step p row) (done ++ [row]) := by
  obtain ⟨-, hq, -, -, ⟨-, hv, he⟩ | ⟨-, hv, -, hdb⟩⟩ := addRow_spec ha row
  · refine ⟨hq.trans h.1, done, [row], he ▸ h.queries, ?_, rfl⟩
    rw [hv, ← List.nil_append [row], ← append_valueList]
    rfl
  · obtain ⟨rfl, before, last, hb, hvl, rfl⟩ := h
    refine ⟨hq, before, last ++ [row], hdb ▸ hb, ?_, (List.append_assoc ..).symm⟩
    rw [hv, hvl, append_valueList]

theorem Holds.run (rows : List Text) : ∀ {p : DBInsert × Database} {done : List Text},
    Holds query p done → (∀ q, p.2.accepts q = true) →
      Holds query (Run.run BatchInsert.step p rows) (done ++ rows) := by
  induction rows with
  | nil => exact fun h _ => (List.append_nil _).symm ▸ h
  | cons row rows ih =>
    intro p done h ha
    have hacc := (addRow_spec ha row).2.2.1
    have hrun := ih (h.step ha row) (hacc ▸ ha)
    rwa [List.append_assoc] at hrun

/-! ### The packet limit -/

/-- **A row keeps the queries within the limit, unless it overruns.** -/
theorem within_step (ha : ∀ q, p.2.accepts q = true)
    (hrow : p.1.query.length + row.length + 2 ≤ p.2.maxPacketSize) :
    (∀ q ∈ queries (step p row), q.length ≤ p.2.maxPacketSize) ↔
      (∀ q ∈ queries p, q.length ≤ p.2.maxPacketSize) ∧ ¬ Overruns p row := by
  have hne : ∀ values, append values row ≠ [] := fun values h => by
    have hl := congrArg List.length h
    rw [length_append] at hl
    split at hl <;> simp at hl
  obtain ⟨-, hq, -, -, ⟨hlt, hv, he⟩ | ⟨hle, hv, -, hdb⟩⟩ := addRow_spec ha row
  · -- the buffer has been executed
    have hnot : ¬ Overruns p row := fun h => absurd h.1 (Nat.not_le_of_lt hlt)
    have hnew : (p.1.query ++ append [] row).length ≤ p.2.maxPacketSize := by
      rw [List.length_append, length_append, if_pos rfl]
      omega
    unfold queries at he ⊢
    rw [he, hv, hq, if_neg (hne []), List.forall_mem_append, List.forall_mem_singleton]
    exact ⟨fun h => ⟨h.1, hnot⟩, fun h => ⟨h.1, hnew⟩⟩
  · unfold queries
    rw [hdb, hv, hq, if_neg (hne _), List.forall_mem_append, List.forall_mem_singleton,
      List.forall_mem_append, List.length_append, length_append, and_assoc]
    refine and_congr_right fun _ => ?_
    unfold Overruns
    by_cases h0 : p.1.values = []
    · simp only [h0, if_true, List.not_mem_nil, ne_eq, not_true, false_and, and_false, not_false_iff,
        IsEmpty.forall_iff, implies_true, and_self, iff_true]
      omega
    · simp only [h0, if_false, List.forall_mem_singleton, List.length_append, ne_eq, not_false_iff,
        true_and, hle]
      omega

theorem within_run (rows : List Text) : ∀ {p : DBInsert × Database}, (∀ q, p.2.accepts q = true) →
    (∀ row ∈ rows, p.1.query.length + row.length + 2 ≤ p.2.maxPacketSize) →
      ((∀ q ∈ queries (Run.run step p rows), q.length ≤ p.2.maxPacketSize) ↔
        (∀ q ∈ queries p, q.length ≤ p.2.maxPacketSize) ∧
          Run.Along step (fun p row => ¬ Overruns p row) p rows) := by
  induction rows with
  | nil => exact fun _ _ => (and_iff_left trivial).symm
  | cons row rows ih =>
    intro p ha hrows
    obtain ⟨hrow, hrows⟩ := List.forall_mem_cons.1 hrows
    obtain ⟨-, hq, hacc, hmax, -⟩ := addRow_spec ha row
    have hrun := ih (p := step p row) (hacc ▸ ha) (by rwa [hq, hmax])
    rw [hmax, within_step ha hrow, and_assoc] at hrun
    exact hrun

end

/-- **The queries carry the rows, and stay within the packet limit unless a row
overruns.** -/
theorem within_limit_iff (query : Text) (db : Database) (rows : List Text)
    (ha : ∀ q, db.accepts q = true) (hdb : db.executed = [])
    (hrows : ∀ row ∈ rows, query.length + row.length + 2 ≤ db.maxPacketSize) :
    (∃ db', insertRows { query } db rows = (true, db') ∧ Batched query db'.executed rows ∧
        ∀ q ∈ db'.executed, q.length ≤ db.maxPacketSize) ↔
      Run.Along step (fun p row => ¬ Overruns p row) ({ query }, db) rows := by
  obtain ⟨db', hinsert, hexec⟩ := insertRows_eq rows (p := ({ query }, db)) ha
  have hstart : Holds query ({ query }, db) [] :=
    ⟨rfl, [], [], ⟨[], by rw [hdb]; rfl, nofun, rfl⟩, rfl, rfl⟩
  have hbatched : Batched query db'.executed rows := hexec ▸ (hstart.run rows ha).queries
  have hwithin := within_run rows (p := ({ query }, db)) ha hrows
  have hempty : ∀ q ∈ queries ({ query }, db), q.length ≤ db.maxPacketSize := by
    unfold queries
    rw [hdb]
    exact nofun
  rw [← hexec, and_iff_right hempty] at hwithin
  rw [← hwithin]
  constructor
  · rintro ⟨db'', h, -, hle⟩
    obtain rfl := (Prod.mk.inj (hinsert.symm.trans h)).2
    exact hle
  · intro hle
    exact ⟨db', hinsert, hbatched, hle⟩

/-- Two rows that fit into one query. -/
theorem within_limit_iff_two :
    ∃ db', insertRows { query := [0x51] } { maxPacketSize := 20 } [[1, 2, 3], [4, 5]] = (true, db') ∧
      Batched [0x51] db'.executed [[1, 2, 3], [4, 5]] ∧ ∀ q ∈ db'.executed, q.length ≤ 20 := by
  apply (within_limit_iff [0x51] { maxPacketSize := 20 } [[1, 2, 3], [4, 5]] (fun _ => rfl) rfl
    (by decide)).2
  refine ⟨fun h => absurd h.2.1 (by decide), fun h => absurd h.2.2 (by decide), trivial⟩

/-- Rows of ten and nine bytes make a query of 25 bytes under a limit of 20. -/
theorem limit_exceeded : ¬ ∀ (query : Text) (db : Database) (rows : List Text),
    (∀ q, db.accepts q = true) → db.executed = [] →
      (∀ row ∈ rows, query.length + row.length + 2 ≤ db.maxPacketSize) →
        ∃ db', insertRows { query } db rows = (true, db') ∧ Batched query db'.executed rows ∧
          ∀ q ∈ db'.executed, q.length ≤ db.maxPacketSize := by
  intro h
  obtain ⟨db', hinsert, -, hle⟩ := h [0x51] { maxPacketSize := 20 }
    [List.replicate 10 0x61, List.replicate 9 0x62] (fun _ => rfl) rfl (by decide)
  have hlong : ∀ q ∈ (insertRows { query := [0x51] } { maxPacketSize := 20 }
      [List.replicate 10 0x61, List.replicate 9 0x62]).2.executed, q.length ≤ 20 := by
    rw [hinsert]
    exact hle
  exact absurd hlong (by decide)

end BatchInsert
end ForgottenServer
