/-
# The creatures a client knows

The server tells a client the name of a creature once: `AddCreature` names a
creature that is not in `knownCreatureSet` after `0x61`, with the id of a
creature the client may forget for it, and refers to one that is in the set
after `0x62`. The set holds 150 ids. What `checkCreatureAsKnown` forgets
depends on the order in which an `unordered_set` is gone through and on what
the player can see at that moment; both may change from call to call.

Key definitions: `checkCreatureAsKnown`, `Header`, `Header.apply`, `step`.
Key theorems: `checkCreatureAsKnown_cases`, `tables_agree`.
-/
import Mathlib.Tactic
import ForgottenServer.Lib.Run

namespace ForgottenServer
namespace ProtocolGame

open Run

/-- What `checkCreatureAsKnown` finds: the set afterwards, in its order, and
the two results. `removedKnown` is not set for a known creature. -/
structure Checked where
  knownCreatureSet : List UInt32
  known : Bool
  removedKnown : UInt32
  deriving DecidableEq, Repr

/-- The first id that is not the one just inserted. -/
def anyone (id : UInt32) : List UInt32 → UInt32
  | a :: b :: _ => if a = id then b else a
  | [a] => a
  | [] => 0

/-- `ProtocolGame::checkCreatureAsKnown`. The set is a list in the order of its
iteration; `order` is that order once `id` is inserted. -/
def checkCreatureAsKnown (canSee : UInt32 → Bool) (order knownCreatureSet : List UInt32)
    (id : UInt32) : Checked :=
  if id ∈ knownCreatureSet then ⟨knownCreatureSet, true, 0⟩
  else if 150 < order.length then
    match order.find? fun c => !canSee c with
    | some removedKnown => ⟨order.erase removedKnown, false, removedKnown⟩
    | none => ⟨order.erase (anyone id order), false, anyone id order⟩
  else ⟨order, false, 0⟩

/-- How `ProtocolGame::AddCreature` starts. -/
inductive Header
  | known (id : UInt32)
  | named (remove id : UInt32)
  deriving DecidableEq, Repr

def Checked.header (c : Checked) (id : UInt32) : Header :=
  if c.known then .known id else .named c.removedKnown id

/-- What a header does to the table of a client. -/
def Header.apply : Header → Finset UInt32 → Finset UInt32
  | .known _, table => table
  | .named remove id, table => insert id (table.erase remove)

/-- The server's set and the client's table. -/
structure Tables where
  knownCreatureSet : List UInt32 := []
  client : Finset UInt32 := ∅

/-- A creature is described: its id, what the player can see at that moment,
and the order of the set once the id is in it. -/
structure Call where
  id : UInt32
  canSee : UInt32 → Bool
  order : List UInt32

def Tables.check (t : Tables) (c : Call) : Checked :=
  checkCreatureAsKnown c.canSee c.order t.knownCreatureSet c.id

/-- The header the client receives. -/
def Tables.header (t : Tables) (c : Call) : Header := (t.check c).header c.id

/-- The server looks the creature up and the client reads the header. -/
def step (t : Tables) (c : Call) : Tables :=
  ⟨(t.check c).knownCreatureSet, (t.header c).apply t.client⟩

/-- The calls of the server: ids are not zero, the creature can be seen, and
an `unordered_set` is gone through in some order. -/
structure Valid (t : Tables) (c : Call) : Prop where
  id_ne : c.id ≠ 0
  sees : c.canSee c.id = true
  order : c.id ∉ t.knownCreatureSet → c.order.Perm (c.id :: t.knownCreatureSet)

/-- The two tables are the same, of at most 150 different ids. -/
structure Tables.Inv (t : Tables) : Prop where
  nodup : t.knownCreatureSet.Nodup
  zero : 0 ∉ t.knownCreatureSet
  size : t.knownCreatureSet.length ≤ 150
  agree : t.client = t.knownCreatureSet.toFinset

/-- What a call promises. -/
structure Agreed (t : Tables) (c : Call) : Prop where
  known : t.header c = .known c.id → c.id ∈ t.client
  agree : (step t c).client = (step t c).knownCreatureSet.toFinset
  size : (step t c).client.card ≤ 150
  removed : ∀ remove, t.header c = .named remove c.id → remove ≠ c.id
  visible : ∀ remove ∈ t.client, t.header c = .named remove c.id → c.canSee remove →
    ∀ other ∈ t.client, c.canSee other

theorem anyone_spec (id : UInt32) {order : List UInt32} (h : order.Nodup) (hlen : 1 < order.length) :
    anyone id order ∈ order ∧ anyone id order ≠ id := by
  match order, h, hlen with
  | a :: b :: l, h, _ =>
    have hab : a ≠ b := fun hab => (List.nodup_cons.1 h).1 (hab ▸ List.mem_cons_self)
    show (if a = id then b else a) ∈ a :: b :: l ∧ (if a = id then b else a) ≠ id
    split_ifs with ha
    · exact ⟨by simp, fun hb => hab (ha.trans hb.symm)⟩
    · exact ⟨by simp, ha⟩

variable {t : Tables} {c : Call}

/-- All that a call can do: nothing, insert, or insert and forget another. -/
theorem checkCreatureAsKnown_cases (h : t.Inv) (hv : Valid t c) :
    (c.id ∈ t.knownCreatureSet ∧ t.check c = ⟨t.knownCreatureSet, true, 0⟩) ∨
    (c.id ∉ t.knownCreatureSet ∧ t.knownCreatureSet.length < 150 ∧ t.check c = ⟨c.order, false, 0⟩) ∨
    (c.id ∉ t.knownCreatureSet ∧ t.knownCreatureSet.length = 150 ∧ ∃ remove ∈ t.knownCreatureSet,
      t.check c = ⟨c.order.erase remove, false, remove⟩ ∧
        (c.canSee remove → ∀ other ∈ t.knownCreatureSet, c.canSee other)) := by
  unfold Tables.check checkCreatureAsKnown
  by_cases hmem : c.id ∈ t.knownCreatureSet
  · exact .inl ⟨hmem, if_pos hmem⟩
  right
  rw [if_neg hmem]
  have hperm := hv.order hmem
  have hlen : c.order.length = t.knownCreatureSet.length + 1 := hperm.length_eq
  have hmem_order : ∀ x ∈ c.order, x ≠ c.id → x ∈ t.knownCreatureSet := fun x hx hne =>
    (List.mem_cons.1 (hperm.mem_iff.1 hx)).resolve_left hne
  by_cases hfull : 150 < c.order.length
  · have h150 : t.knownCreatureSet.length = 150 := by
      have := h.size
      omega
    rw [if_pos hfull]
    refine .inr ⟨hmem, h150, ?_⟩
    cases hfind : c.order.find? fun x => !c.canSee x with
    | some remove =>
      have hsee : c.canSee remove = false := by simpa using List.find?_some hfind
      have hne : remove ≠ c.id := by
        rintro rfl
        rw [hv.sees] at hsee
        cases hsee
      refine ⟨remove, hmem_order _ (List.mem_of_find?_eq_some hfind) hne, rfl, ?_⟩
      intro hs
      rw [hsee] at hs
      cases hs
    | none =>
      have hnodup : c.order.Nodup := hperm.nodup_iff.2 (List.nodup_cons.2 ⟨hmem, h.nodup⟩)
      obtain ⟨hany, hne⟩ := anyone_spec c.id hnodup (by omega)
      refine ⟨anyone c.id c.order, hmem_order _ hany hne, rfl, ?_⟩
      intro _ other hother
      have := List.find?_eq_none.1 hfind other (hperm.mem_iff.2 (List.mem_cons_of_mem _ hother))
      simpa using this
  · rw [if_neg hfull]
    exact .inl ⟨hmem, by omega, rfl⟩

theorem inv_init : Tables.Inv {} :=
  ⟨List.nodup_nil, List.not_mem_nil, Nat.zero_le _, rfl⟩

/-- A call keeps the invariant. -/
theorem inv_step (h : t.Inv) (hv : Valid t c) : (step t c).Inv := by
  have hzero : (0 : UInt32) ∉ t.client := by
    rw [h.agree, List.mem_toFinset]
    exact h.zero
  unfold step Tables.header Checked.header
  rcases checkCreatureAsKnown_cases h hv with ⟨-, hc⟩ | ⟨hnew, hlen, hc⟩ | ⟨hnew, hlen, remove, hr, hc, -⟩
  · rw [hc]
    exact ⟨h.nodup, h.zero, h.size, h.agree⟩
  · have hperm := hv.order hnew
    rw [hc]
    constructor
    · exact hperm.nodup_iff.2 (List.nodup_cons.2 ⟨hnew, h.nodup⟩)
    · intro h0
      rcases List.mem_cons.1 (hperm.mem_iff.1 h0) with h0 | h0
      · exact hv.id_ne h0.symm
      · exact h.zero h0
    · have := hperm.length_eq
      rw [List.length_cons] at this
      show c.order.length ≤ 150
      omega
    · show insert c.id (t.client.erase 0) = c.order.toFinset
      rw [Finset.erase_eq_of_notMem hzero, h.agree, ← List.toFinset_cons]
      exact (List.toFinset_eq_of_perm _ _ hperm).symm
  · have hperm := hv.order hnew
    have hnodup : c.order.Nodup := hperm.nodup_iff.2 (List.nodup_cons.2 ⟨hnew, h.nodup⟩)
    have hne : c.id ≠ remove := fun he => hnew (he ▸ hr)
    rw [hc]
    constructor
    · exact hnodup.erase _
    · intro h0
      rcases List.mem_cons.1 (hperm.mem_iff.1 (List.mem_of_mem_erase h0)) with h0 | h0
      · exact hv.id_ne h0.symm
      · exact h.zero h0
    · have := hperm.length_eq
      rw [List.length_cons] at this
      have hmem : remove ∈ c.order := hperm.mem_iff.2 (List.mem_cons_of_mem _ hr)
      show (c.order.erase remove).length ≤ 150
      rw [List.length_erase_of_mem hmem]
      omega
    · show insert c.id (t.client.erase remove) = (c.order.erase remove).toFinset
      ext x
      rw [h.agree, List.mem_toFinset, hnodup.mem_erase_iff, hperm.mem_iff, Finset.mem_insert,
        Finset.mem_erase, List.mem_toFinset, List.mem_cons]
      constructor
      · rintro (rfl | ⟨hx, hx'⟩)
        · exact ⟨hne, .inl rfl⟩
        · exact ⟨hx, .inr hx'⟩
      · rintro ⟨hx, rfl | hx'⟩
        · exact .inl rfl
        · exact .inr ⟨hx, hx'⟩

theorem Tables.Inv.card (h : t.Inv) : t.client.card ≤ 150 := by
  rw [h.agree, List.toFinset_card_of_nodup h.nodup]
  exact h.size

theorem agreed_of_inv (h : t.Inv) (hv : Valid t c) : Agreed t c := by
  have hstep := inv_step h hv
  have hmem : ∀ x, x ∈ t.client ↔ x ∈ t.knownCreatureSet := fun x => by
    rw [h.agree, List.mem_toFinset]
  refine { agree := hstep.agree, size := hstep.card, known := ?_, removed := ?_, visible := ?_ }
  · unfold Tables.header Checked.header
    rcases checkCreatureAsKnown_cases h hv with ⟨hk, hc⟩ | ⟨-, -, hc⟩ | ⟨-, -, remove, -, hc, -⟩
    · intro _
      exact (hmem _).2 hk
    · rw [hc]
      intro hh
      cases hh
    · rw [hc]
      intro hh
      cases hh
  · unfold Tables.header Checked.header
    rcases checkCreatureAsKnown_cases h hv with ⟨-, hc⟩ | ⟨-, -, hc⟩ | ⟨hnew, -, remove, hr, hc, -⟩
    · rw [hc]
      intro remove hh
      cases hh
    · rw [hc]
      rintro _ ⟨⟩
      exact hv.id_ne.symm
    · rw [hc]
      rintro _ ⟨⟩ he
      exact hnew (he ▸ hr)
  · unfold Tables.header Checked.header
    rcases checkCreatureAsKnown_cases h hv with ⟨-, hc⟩ | ⟨-, -, hc⟩ | ⟨-, -, remove, hr, hc, hsee⟩
    · rw [hc]
      intro remove _ hh
      cases hh
    · rw [hc]
      rintro _ h0 ⟨⟩
      exact absurd ((hmem _).1 h0) h.zero
    · rw [hc]
      rintro _ - ⟨⟩ hs other hother
      exact hsee hs other ((hmem _).1 hother)

/-- **The known-creature tables agree.** Along every run of calls from empty
tables, whatever the order of the set and whatever can be seen at each call,
the client knows every creature it is referred to, its table is the server's
set, of at most 150 ids, the id removed is not the one added, and a creature
that is seen is forgotten only if all known ones are seen. -/
theorem tables_agree (calls : List Call) (h : Along step Valid {} calls) :
    Along step Agreed {} calls ∧
      (run step {} calls).client = (run step {} calls).knownCreatureSet.toFinset ∧
      (run step {} calls).client.card ≤ 150 := by
  have hrun : (run step {} calls).Inv := run_inv (fun _ _ => inv_step) calls inv_init h
  exact ⟨along_of_inv (fun _ _ => inv_step) (fun _ _ => agreed_of_inv) calls inv_init h,
    hrun.agree, hrun.card⟩

/-- A creature is met, then another, then the first again. -/
def metAgain : List Call :=
  [⟨7, fun _ => true, [7]⟩, ⟨9, fun _ => true, [9, 7]⟩, ⟨7, fun c => c == 7, []⟩]

theorem tables_agree_metAgain :
    Along step Agreed {} metAgain ∧ (run step {} metAgain).client = {7, 9} := by
  have h : Along step Valid {} metAgain := by
    refine ⟨⟨by decide, rfl, fun _ => .refl _⟩, ⟨by decide, rfl, fun _ => .refl _⟩,
      ⟨by decide, rfl, fun hn => absurd (by decide) hn⟩, trivial⟩
  obtain ⟨h1, h2, -⟩ := tables_agree metAgain h
  exact ⟨h1, h2.trans (by decide)⟩

end ProtocolGame
end ForgottenServer
