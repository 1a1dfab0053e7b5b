/-
# Rows that stay as they are

What a row says of its item changes when `Item::CreateItem` builds the item under
another id, when a decay state of `DECAYING_TRUE` becomes `DECAYING_PENDING`, and when
a value does not fit the width of its field, or is one that no setter leaves behind. A
row that was written stays as it is if and only if it is that of an item of which
nothing of this holds (`Settled`): what reading leaves behind is such an item.

Key definitions: `Settled`, `Legible`, `SettledRow`.
Key theorems: `resave_of_settled`, `settled_reload`, `resave_eq_iff`, `resave_eq_self_iff`.
-/
import ForgottenServer.IOLoginResave

namespace ForgottenServer
namespace IOLoginData

open Item PropWriteStream

variable {E : Env} {items : UInt16 → ItemType} {it r : Item}

/-- An item whose row is written back as it was. A door says nothing of itself and a
bed only who sleeps in it and since when, so that they are as they are built. -/
structure Settled (E : Env) (it : Item) : Prop extends Buildable E.items it.id where
  cls : it.cls = classOf (E.items it.id)
  fits : it.cls ≠ .door → it.cls ≠ .bed → it.Fits E.items
  resting : it.cls ≠ .door → it.cls ≠ .bed → it.getDecaying ≠ 1
  charged : it.cls ≠ .door → it.cls ≠ .bed → Charged (E.items it.id) → it.getCharges = 0 →
    (E.items it.id).charges.toNat % 2 ^ 16 = 0
  subType : it.cls = .door ∨ it.cls = .bed →
    it.getSubType E.items = (built E.items it.id 0).getSubType E.items
  sleeper : it.cls = .bed → it.sleeperGUID ≠ 0 → E.getNameByGuid it.sleeperGUID.toNat ≠ []
  sleepStart : it.cls = .bed → it.sleepStart.toNat < 2 ^ 32

/-- What the format holds is settled, unless it is decaying. -/
theorem settled_of_saveable (h : it.Saveable E.items) (hd : it.getDecaying ≠ 1) : Settled E it :=
  { h.buildable with
    cls := h.cls
    fits := fun _ _ => h.fits
    resting := fun _ _ => hd
    charged := fun _ _ hc h0 => absurd h0 (h.charges.2 hc)
    subType := fun hc => (hc.elim h.plain.1 h.plain.2.1).elim
    sleeper := fun hc => absurd hc h.plain.2.1
    sleepStart := fun hc => absurd hc h.plain.2.1 }

/-! ### Their rows stay -/

/-- The bytes are those of what the format holds and of the decay state. -/
theorem baseSerializeAttr_congr (hid : r.id = it.id) (hsub : r.getSubType items = it.getSubType items)
    (hstr : ∀ t, t.isStr → r.getStrAttr t = it.getStrAttr t)
    (hint : ∀ t ∈ savedInts, (t = .actionId → (items it.id).moveable) → r.getIntAttr t = it.getIntAttr t)
    (hhas : ∀ t, savedIfSet t → r.hasAttribute t = it.hasAttribute t)
    (hd : r.getDecaying = it.getDecaying) : r.baseSerializeAttr items = it.baseSerializeAttr items := by
  have hne : ∀ t ∈ savedInts, t ≠ .actionId → r.getIntAttr t = it.getIntAttr t :=
    fun t ht hna => hint t ht fun he => absurd he hna
  have hcharges : r.getCharges = it.getCharges := congrArg (uint 2) (hne .charges (by decide) (by decide))
  have haction : (items it.id).moveable → r.getActionId = it.getActionId :=
    fun hm => congrArg (uint 2) (hint .actionId (by decide) fun _ => hm)
  have hactionId : (if (items it.id).moveable && r.getActionId ≠ 0 then
        writeAttr .actionId (write 2 r.getActionId) else []) =
      if (items it.id).moveable && it.getActionId ≠ 0 then
        writeAttr .actionId (write 2 it.getActionId) else [] := by
    cases hm : (items it.id).moveable with
    | false => rfl
    | true => rw [haction hm]
  have hdate : r.getDate = it.getDate := hne .date (by decide) (by decide)
  have htext : r.getText = it.getText := hstr _ rfl
  have hwriter : r.getWriter = it.getWriter := hstr _ rfl
  have hdesc : r.getSpecialDescription = it.getSpecialDescription := hstr _ rfl
  unfold baseSerializeAttr
  rw [hid, hsub, hcharges, hdate, htext, hwriter, hdesc, hd,
    hhas .duration rfl, hhas .name rfl, hhas .article rfl, hhas .pluralName rfl,
    hhas .weight rfl, hhas .attack rfl, hhas .defense rfl, hhas .extraDefense rfl,
    hhas .armor rfl, hhas .hitChance rfl, hhas .shootRange rfl,
    hstr .name rfl, hstr .article rfl, hstr .pluralName rfl,
    hne .duration (by decide) (by decide), hne .weight (by decide) (by decide),
    hne .attack (by decide) (by decide), hne .defense (by decide) (by decide),
    hne .extraDefense (by decide) (by decide), hne .armor (by decide) (by decide),
    hne .hitChance (by decide) (by decide), hne .shootRange (by decide) (by decide)]
  dsimp only
  rw [hactionId]

/-- Where a teleport leads stands behind the fields of every item. -/
theorem serializeAttr_base (h1 : it.cls ≠ .door) (h2 : it.cls ≠ .bed) : it.serializeAttr items =
    it.baseSerializeAttr items ++ if it.cls = .teleport then
      writeAttr .teleDest
        (write 2 it.destPos.1.toNat ++ write 2 it.destPos.2.1.toNat ++ write 1 it.destPos.2.2.toNat)
    else [] := by
  unfold serializeAttr
  cases hc : it.cls <;> simp_all

theorem restore_baseSerializeAttr (items : UInt16 → ItemType) (it i : Item) :
    (it.restore items i).baseSerializeAttr items = (it.baseRestore items i).baseSerializeAttr items ∧
    (it.restore items i).getSubType items = (it.baseRestore items i).getSubType items ∧
    (it.cls = .teleport → (it.restore items i).destPos = it.destPos) := by
  unfold restore
  split
  · exact ⟨rfl, rfl, fun _ => rfl⟩
  · next hc => exact ⟨rfl, rfl, fun h => absurd h hc⟩

/-- The empty string is not set. -/
theorem existing_setStrAttr_nil (i : Item) (t u : ItemAttr) : (i.setStrAttr t []).existing u = i.existing u := by
  unfold setStrAttr ItemAttributes.setStrAttr
  rw [dif_neg fun h => h.2 rfl]
  exact existing_getAttributes i u

/-- A string does not change the integers. -/
theorem existing_setStrAttr_int (i : Item) {t u : ItemAttr} (ht : t.isStr) (hu : u.isInt) (s : Bytes) :
    (i.setStrAttr t s).existing u = i.existing u := by
  by_cases hs : s = []
  · rw [hs, existing_setStrAttr_nil]
  · rw [existing_setStrAttr i ht hs, if_neg]
    rintro rfl
    simp [ItemAttr.isInt, ht] at hu

theorem getSubType_setStrAttr (i : Item) {t : ItemAttr} (ht : t.isStr) (s : Bytes) :
    (i.setStrAttr t s).getSubType items = i.getSubType items := by
  have hint : ∀ u, u.isInt → (i.setStrAttr t s).getIntAttr u = i.getIntAttr u :=
    fun u hu => getIntAttr_congr hu (existing_setStrAttr_int i ht hu s)
  have hfluid : (i.setStrAttr t s).getFluidType = i.getFluidType := congrArg (uint 2) (hint _ rfl)
  have hcharges : (i.setStrAttr t s).getCharges = i.getCharges := congrArg (uint 2) (hint _ rfl)
  unfold getSubType
  rw [setStrAttr_id, setStrAttr_count, hfluid, hcharges]

theorem getSubType_of_charged (h : Charged (items it.id)) : it.getSubType items = it.getCharges := by
  obtain ⟨hcharges, hstack, hfluid, hsplash⟩ := h
  simp [getSubType, hcharges, hstack, hfluid, hsplash]

/-- A charged item that is built for no count has the charges of its type. -/
theorem getIntAttr_built_charges {id : UInt16} (h : Charged (items id)) :
    (built items id 0).getIntAttr .charges = ((items id).charges.toNat % 2 ^ 16 : ℕ) := by
  obtain ⟨hcharges, hstack, hfluid, hsplash⟩ := h
  have hne : ¬ ((items id).isFluidContainer || (items id).isSplash) = true := by simp [hfluid, hsplash]
  unfold built construct
  simp only [if_neg hne, hstack, Bool.false_and, Bool.false_eq_true, if_false, ite_self, ne_eq,
    not_true, hcharges, not_false_iff, if_true]
  have hmod := Nat.mod_lt (items id).charges.toNat (show 0 < 2 ^ 16 by decide)
  have hset : ∀ i : Item, ((i.setCharges ((items id).charges.toNat % 2 ^ 16)).setDefaultDuration items).existing
      .charges = some (.integer (int32 ((items id).charges.toNat % 2 ^ 16 : ℕ))) := by
    intro i
    rw [existing_setDefaultDuration _ _ (by simp), setCharges, existing_setIntAttr _ _ rfl, if_pos rfl]
  rw [getIntAttr_of_existing (hset _) rfl, int32_of_range (int32_range _), int32_of_range (by omega)]

/-- Only a plain item is built for a count. -/
theorem built_zero {id : UInt16} (h : classOf (items id) ≠ .item) (n : ℕ) :
    built items id n = built items id 0 := by
  unfold built
  rw [if_neg h, if_neg h]

section Rows

variable {pid sid : ℕ}

theorem rowOf_congr (hid : r.id = it.id) (hsub : r.getSubType items = it.getSubType items)
    (hbytes : r.serializeAttr items = it.serializeAttr items) : rowOf items pid sid r = rowOf items pid sid it := by
  unfold rowOf
  rw [hid, hsub, hbytes]

theorem Settled.resave_base (h : Settled E it) (h1 : it.cls ≠ .door) (h2 : it.cls ≠ .bed) :
    (rowOf E.items pid sid it).resave E = rowOf E.items pid sid it := by
  have hf := h.fits h1 h2
  have hz : Charged (E.items it.id) → it.getCharges = 0 →
      (built E.items it.id (it.getSubType E.items)).getIntAttr .charges = 0 := by
    intro hc h0
    rw [getSubType_of_charged hc, h0, getIntAttr_built_charges hc, h.charged h1 h2 hc h0]
    rfl
  have hsub := getSubType_baseRestore hf rfl hz
  have hbase : (it.baseRestore E.items (built E.items it.id (it.getSubType E.items))).baseSerializeAttr E.items =
      it.baseSerializeAttr E.items := by
    refine baseSerializeAttr_congr ?_ hsub
      (fun t ht => (getStrAttr_baseRestore hf.nonEmpty hf.decays rfl ht).1) (fun t ht hm => ?_)
      (fun t ht => hasAttribute_baseRestore hf rfl ht) ?_
    · obtain ⟨hi, -⟩ := restoreFields_frame E.items it
        (it.restoreSubType E.items (built E.items it.id (it.getSubType E.items)))
      rw [baseRestore, hi, (restoreSubType_frame _ _ _).1, built_id]
    · by_cases hc : t = .charges
      · rw [hc]
        exact getCharges_baseRestore hf rfl hz
      · exact getIntAttr_baseRestore hf rfl ht hc hm
    · rw [getDecaying_baseRestore hf rfl, if_neg (h.resting h1 h2)]
  obtain ⟨hbytes, hsame, hdest⟩ :=
    restore_baseSerializeAttr E.items it (built E.items it.id (it.getSubType E.items))
  have hcls := reload_cls h.toKnown h.cls
  rw [resave_rowOf h.toKnown]
  refine rowOf_congr (reload_id h.toBuildable) ?_ ?_
  · rw [reload_eq_restore h.toBuildable h.cls hf.short h1 h2, hsame, hsub]
  · rw [serializeAttr_base (hcls ▸ h1) (hcls ▸ h2), serializeAttr_base h1 h2, hcls]
    rw [reload_eq_restore h.toBuildable h.cls hf.short h1 h2, hbytes, hbase]
    split
    · next ht => rw [hdest ht]
    · rfl

/-- A door is loaded as it is built. -/
theorem reload_door (hb : Buildable E.items it.id) (hcls : it.cls = classOf (E.items it.id))
    (hdoor : it.cls = .door) : reload E it = built E.items it.id 0 := by
  have hne : classOf (E.items it.id) ≠ .item := by
    rw [← hcls, hdoor]
    decide
  have hbytes : it.serializeAttr E.items = [] := by
    unfold serializeAttr
    rw [hdoor]
  rw [reload_eq hb, hbytes, unserializeAttr_nil, built_zero hne]

end Rows

/-! ### Beds -/

/-- A bed without a sleeper. -/
def Vacant (i : Item) : Prop := i.cls = .bed ∧ i.sleeperGUID = 0 ∧ i.sleepStart = 0

theorem vacant_built {id : UInt16} (h : classOf (items id) = .bed) (n : ℕ) : Vacant (built items id n) := by
  refine ⟨(built_cls items).trans h, ?_, ?_⟩
  · unfold built construct setDefaultDuration
    simp only [apply_ite Item.sleeperGUID, setDuration, setIntAttr, setFluidType, setCharges, setItemCount, ite_self]
  · unfold built construct setDefaultDuration
    simp only [apply_ite Item.sleepStart, setDuration, setIntAttr, setFluidType, setCharges, setItemCount, ite_self]

theorem writes_sleeperGuid {i : Item} (hi : i.cls = .bed) (guid : UInt32) (s : Bytes) (n : ℕ) :
    unserializeAttr E ⟨i, writeAttr .sleeperGuid (write 4 guid.toNat) ++ s, n⟩ =
      unserializeAttr E ⟨if guid.toNat ≠ 0 ∧ E.getNameByGuid guid.toNat ≠ [] then
          { i.setStrAttr .description
              (E.getNameByGuid guid.toNat ++ " is sleeping there.".toUTF8.toList) with sleeperGUID := guid }
        else i, s, n⟩ := by
  have hguid : uint 4 (guid.toNat : ℤ) = guid.toNat := uint_natCast guid.toNat_lt
  rw [writeAttr, List.append_assoc, unserializeAttr_tag]
  by_cases hname : guid.toNat ≠ 0 ∧ E.getNameByGuid guid.toNat ≠ []
  · simp only [readAttr, hi, Reader.read, get_write, hguid, if_pos hname, Reader.set, UInt32.ofNat_toNat]
  · simp only [readAttr, hi, Reader.read, get_write, hguid, if_neg hname]

theorem writes_sleepStart {i : Item} (hi : i.cls = .bed) (start : UInt64) (s : Bytes) (n : ℕ) :
    unserializeAttr E ⟨i, writeAttr .sleepStart (write 4 start.toNat) ++ s, n⟩ =
      unserializeAttr E ⟨{ i with sleepStart := .ofNat (start.toNat % 2 ^ 32) }, s, n⟩ := by
  have hstart : uint 4 (start.toNat : ℤ) = start.toNat % 2 ^ 32 := by
    unfold uint
    norm_cast
  rw [writeAttr, List.append_assoc, unserializeAttr_tag]
  simp only [readAttr, hi, Reader.read, get_write, hstart, Reader.set]

/-- What a bed reads of its sleeper. -/
theorem unserializeAttr_bed {i : Item} (hi : Vacant i) (hbed : it.cls = .bed) :
    let j := (unserializeAttr E ⟨i, it.serializeAttr E.items, 0⟩).2.item
    j.getSubType E.items = i.getSubType E.items ∧
      j.sleeperGUID = (if E.getNameByGuid it.sleeperGUID.toNat ≠ [] then it.sleeperGUID else 0) ∧
      j.sleepStart = .ofNat (it.sleepStart.toNat % 2 ^ 32) := by
  obtain ⟨hcls, hguid, hstart⟩ := hi
  -- the sleeper's name may be gone
  let k := if it.sleeperGUID.toNat ≠ 0 ∧ E.getNameByGuid it.sleeperGUID.toNat ≠ [] then
      { i.setStrAttr .description
          (E.getNameByGuid it.sleeperGUID.toNat ++ " is sleeping there.".toUTF8.toList) with
        sleeperGUID := it.sleeperGUID }
    else i
  have hk : k.cls = .bed ∧ k.getSubType E.items = i.getSubType E.items ∧ k.sleepStart = 0 ∧
      k.sleeperGUID = if E.getNameByGuid it.sleeperGUID.toNat ≠ [] then it.sleeperGUID else 0 := by
    by_cases hname : it.sleeperGUID.toNat ≠ 0 ∧ E.getNameByGuid it.sleeperGUID.toNat ≠ []
    · dsimp only [k]
      rw [if_pos hname, if_pos hname.2]
      exact ⟨hcls, getSubType_setStrAttr i rfl _, hstart, rfl⟩
    · dsimp only [k]
      rw [if_neg hname]
      refine ⟨hcls, rfl, hstart, ?_⟩
      rw [hguid]
      split
      · next hne =>
        have hzero : it.sleeperGUID.toNat = 0 := by tauto
        exact (UInt32.toNat_inj.1 hzero).symm
      · rfl
  have hread : ∀ s, unserializeAttr E ⟨i, (if it.sleeperGUID ≠ 0 then
      writeAttr .sleeperGuid (write 4 it.sleeperGUID.toNat) else []) ++ s, 0⟩ = unserializeAttr E ⟨k, s, 0⟩ := by
    intro s
    split
    · exact writes_sleeperGuid hcls _ s 0
    · next h0 =>
      have hzero : it.sleeperGUID.toNat = 0 := by simpa using congrArg UInt32.toNat (not_not.1 h0)
      simp only [k, hzero, ne_eq, not_true, false_and, if_false, List.nil_append]
  intro j
  have hj : j = if it.sleepStart ≠ 0 then { k with sleepStart := .ofNat (it.sleepStart.toNat % 2 ^ 32) } else k := by
    have hbytes : it.serializeAttr E.items = (if it.sleeperGUID ≠ 0 then
          writeAttr .sleeperGuid (write 4 it.sleeperGUID.toNat) else []) ++
        ((if it.sleepStart ≠ 0 then writeAttr .sleepStart (write 4 it.sleepStart.toNat) else []) ++ []) := by
      unfold serializeAttr
      rw [hbed, List.append_nil]
    simp only [j, hbytes, hread]
    split
    · rw [writes_sleepStart hk.1, unserializeAttr_nil]
    · rfl
  rw [hj]
  split
  · exact ⟨hk.2.1, hk.2.2.2, rfl⟩
  · next h0 =>
    refine ⟨hk.2.1, hk.2.2.2, ?_⟩
    rw [hk.2.2.1, not_not.1 h0]
    rfl

section Beds

variable {pid sid : ℕ}

theorem reload_bed (hb : Buildable E.items it.id) (hcls : it.cls = classOf (E.items it.id)) (hbed : it.cls = .bed) :
    (reload E it).getSubType E.items = (built E.items it.id 0).getSubType E.items ∧
      (reload E it).sleeperGUID = (if E.getNameByGuid it.sleeperGUID.toNat ≠ [] then it.sleeperGUID else 0) ∧
      (reload E it).sleepStart = .ofNat (it.sleepStart.toNat % 2 ^ 32) := by
  have hclass : classOf (E.items it.id) = .bed := hcls ▸ hbed
  have hne : classOf (E.items it.id) ≠ .item := by simp [hclass]
  rw [reload_eq hb, built_zero hne]
  exact unserializeAttr_bed (vacant_built hclass 0) hbed

theorem Settled.resave_bed (h : Settled E it) (hbed : it.cls = .bed) :
    (rowOf E.items pid sid it).resave E = rowOf E.items pid sid it := by
  obtain ⟨hsub, hguid, hstart⟩ := reload_bed h.toBuildable h.cls hbed
  have hsame : (reload E it).sleeperGUID = it.sleeperGUID := by
    rw [hguid]
    by_cases h0 : it.sleeperGUID = 0
    · rw [h0, ite_self]
    · rw [if_pos (h.sleeper hbed h0)]
  have hsince : (reload E it).sleepStart = it.sleepStart := by
    rw [hstart, Nat.mod_eq_of_lt (h.sleepStart hbed), UInt64.ofNat_toNat]
  rw [resave_rowOf h.toKnown]
  refine rowOf_congr (reload_id h.toBuildable) (hsub.trans (h.subType (.inr hbed)).symm) ?_
  unfold serializeAttr
  rw [reload_cls h.toKnown h.cls, hbed, hsame, hsince]

theorem Settled.resave_door (h : Settled E it) (hdoor : it.cls = .door) :
    (rowOf E.items pid sid it).resave E = rowOf E.items pid sid it := by
  rw [resave_rowOf h.toKnown]
  refine rowOf_congr (reload_id h.toBuildable) ?_ ?_
  · rw [reload_door h.toBuildable h.cls hdoor]
    exact (h.subType (.inl hdoor)).symm
  · unfold serializeAttr
    rw [reload_cls h.toKnown h.cls, hdoor]

/-- **The row of a settled item** is written back as it was. -/
theorem resave_of_settled (h : Settled E it) : (rowOf E.items pid sid it).resave E = rowOf E.items pid sid it := by
  by_cases hdoor : it.cls = .door
  · exact h.resave_door hdoor
  · by_cases hbed : it.cls = .bed
    · exact h.resave_bed hbed
    · exact h.resave_base hdoor hbed

end Beds

/-! ### What reading leaves behind -/

/-- A loaded bed or door is settled, whatever its row said. -/
theorem settled_reload_unread (hb : Buildable E.items it.id) (hcls : it.cls = classOf (E.items it.id))
    (h : it.cls = .door ∨ it.cls = .bed) : Settled E (reload E it) := by
  have hid := reload_id hb
  have hc := reload_cls hb.toKnown hcls
  have hread : (reload E it).cls ≠ .door → (reload E it).cls ≠ .bed → False := by
    rw [hc]
    intro h1 h2
    exact h.elim h1 h2
  refine { hid ▸ hb with
    cls := by rw [hc, hid, hcls]
    fits := fun h1 h2 => (hread h1 h2).elim
    resting := fun h1 h2 => (hread h1 h2).elim
    charged := fun h1 h2 => (hread h1 h2).elim
    subType := fun _ => ?_
    sleeper := fun hbed hne => ?_
    sleepStart := fun hbed => ?_ }
  · rw [hid]
    rcases h with h | h
    · rw [reload_door hb hcls h]
    · exact (reload_bed hb hcls h).1
  · obtain ⟨-, hguid, -⟩ := reload_bed hb hcls (hc ▸ hbed)
    rw [hguid] at hne ⊢
    split at hne
    · next hname => rwa [if_pos hname]
    · exact absurd rfl hne
  · obtain ⟨-, -, hstart⟩ := reload_bed hb hcls (hc ▸ hbed)
    have hlt := Nat.mod_lt it.sleepStart.toNat (show 0 < 2 ^ 32 by decide)
    rw [hstart, UInt64.toNat_ofNat']
    omega

/-- What no reader changes for the worse: strings that are there fit their fields, charges
belong to a charged type, and an item that decays has a duration. -/
structure Legible (items : UInt16 → ItemType) (i : Item) : Prop where
  str : ∀ t s, i.existing t = some (.string s) → s ≠ [] ∧ s.length ≤ 65535
  charges : i.existing .charges ≠ none → Charged (items i.id)
  decays : (items i.id).decayTime * 1000 ≠ 0 → i.existing .duration ≠ none
  count : i.count < 256

section Legible

variable {i : Item} {t : ItemAttr} {s : Bytes}

theorem Legible.setIntAttr (h : Legible items i) (n : ℤ) (ht : t.isInt)
    (hc : t = .charges → Charged (items i.id)) : Legible items (i.setIntAttr t n) where
  str u s hu := by
    rw [existing_setIntAttr _ _ ht] at hu
    split at hu
    · simp at hu
    · exact h.str u s hu
  charges hu := by
    rw [existing_setIntAttr _ _ ht] at hu
    split at hu
    · next he => exact hc he.symm
    · exact h.charges hu
  decays hd := by
    rw [existing_setIntAttr _ _ ht]
    split
    · simp
    · exact h.decays hd
  count := h.count

theorem Legible.setStrAttr (h : Legible items i) (ht : t.isStr) (hs : s.length ≤ 65535) :
    Legible items (i.setStrAttr t s) := by
  have hother : ∀ u, u.isInt → (i.setStrAttr t s).existing u = i.existing u :=
    fun u hu => existing_setStrAttr_int i ht hu s
  refine ⟨fun u v hu => ?_, fun hu => h.charges (hother .charges rfl ▸ hu),
    fun hd => (hother .duration rfl).symm ▸ h.decays hd, h.count⟩
  by_cases hnil : s = []
  · rw [hnil, existing_setStrAttr_nil] at hu
    exact h.str u v hu
  · rw [existing_setStrAttr _ ht hnil] at hu
    split at hu
    · obtain rfl : s = v := by simpa using hu
      exact ⟨hnil, hs⟩
    · exact h.str u v hu

theorem Legible.setItemCount (h : Legible items i) (n : ℕ) : Legible items (i.setItemCount n) :=
  ⟨h.str, h.charges, h.decays, Nat.mod_lt _ (by decide)⟩

theorem Legible.setSubType (h : Legible items i) (n : ℕ) : Legible items (i.setSubType items n) := by
  unfold Item.setSubType
  split
  · exact h.setIntAttr _ rfl (by simp)
  · next hfluid =>
    split
    · exact h.setItemCount n
    · next hstack =>
      split
      · next hcharges =>
        rw [Bool.not_eq_true, Bool.or_eq_false_iff] at hfluid
        exact h.setIntAttr _ rfl fun _ => ⟨hcharges, by simpa using hstack, by simp [hfluid], by simp [hfluid]⟩
      · exact h.setItemCount n

theorem Legible.setUniqueId (h : Legible E.items i) (n : ℕ) : Legible E.items (i.setUniqueId E n) := by
  unfold Item.setUniqueId
  split
  · exact h
  · split
    · exact h.setIntAttr _ rfl (by simp)
    · exact h

theorem legible_baseReadAttr (attr : Option AttrTypes) {r : Reader} (h : Legible E.items r.item) :
    Legible E.items (baseReadAttr E attr r).2.item := by
  unfold baseReadAttr
  split
  all_goals first
    | exact h
    | exact skip_keeps h
    | exact read_keeps h fun n _ _ h' => h'.setSubType n
    | exact read_keeps h fun n _ _ h' => h'.setUniqueId n
    | exact readString_keeps h fun _ _ hs h' => h'.setStrAttr rfl hs
    | exact read_keeps h fun _ _ _ h' => h'.setIntAttr _ rfl (by simp)
    | exact read_keeps h fun _ _ _ h' => by
        split
        · exact h'.setIntAttr _ rfl (by simp)
        · exact h'

/-- A bed takes the name of its sleeper as it is. -/
theorem legible_readAttr (attr : Option AttrTypes) {r : Reader}
    (h : r.item.cls ≠ .bed ∧ Legible E.items r.item) :
    (readAttr E attr r).2.item.cls ≠ .bed ∧ Legible E.items (readAttr E attr r).2.item := by
  refine ⟨?_, ?_⟩
  · rw [(readAttr_kind attr ⟨rfl, rfl⟩).2]
    exact h.1
  obtain ⟨hcls, h⟩ := h
  unfold readAttr
  split
  · exact read_keeps h fun _ _ _ h' => h'
  · exact read_keeps h fun _ _ _ h' => ⟨h'.str, h'.charges, h'.decays, h'.count⟩
  · exact read_keeps h fun _ _ _ h1 => read_keeps (P := Legible E.items) ⟨h1.str, h1.charges, h1.decays, h1.count⟩
      fun _ _ _ h2 => read_keeps (P := Legible E.items) ⟨h2.str, h2.charges, h2.decays, h2.count⟩
        fun _ _ _ h3 => ⟨h3.str, h3.charges, h3.decays, h3.count⟩
  · exact read_keeps h fun _ _ _ h' => h'.setIntAttr _ rfl (by simp)
  · next hbed => exact absurd hbed hcls
  · next hbed => exact absurd hbed hcls
  · exact legible_baseReadAttr _ h

theorem construct_count_lt (cls : ItemClass) (id : UInt16) (n : ℕ) : (construct items cls id n).count < 256 := by
  have hset : ∀ (i : Item) (m : ℕ), (i.setItemCount m).count < 256 := fun _ _ => Nat.mod_lt _ (by decide)
  unfold construct
  rw [setDefaultDuration_count]
  split
  · exact Nat.one_lt_succ_succ _
  · split
    · split
      · exact hset _ _
      · split
        · exact hset _ _
        · exact Nat.one_lt_succ_succ _
    · split
      · split <;> exact Nat.one_lt_succ_succ _
      · exact Nat.one_lt_succ_succ _

theorem existing_duration_setDefaultDuration (i : Item) (h : (items i.id).decayTime * 1000 ≠ 0) :
    (i.setDefaultDuration items).existing .duration ≠ none := by
  unfold setDefaultDuration getDefaultDuration
  rw [if_pos h, setDuration, existing_setIntAttr _ _ rfl, if_pos rfl]
  simp

theorem legible_built (id : UInt16) (n : ℕ) : Legible items (built items id n) := by
  refine ⟨fun t s ht => ?_, fun hc => ?_, fun hd => ?_, construct_count_lt _ _ _⟩
  · -- a new item has no strings
    by_cases hstr : t.isStr
    · have hnone : (built items id n).existing t = none := by
        apply existing_construct
        · rintro rfl
          simp [ItemAttr.isStr] at hstr
        · rintro rfl
          simp [ItemAttr.isStr] at hstr
        · rintro rfl
          simp [ItemAttr.isStr] at hstr
      simp [hnone] at ht
    · have hint : t.isInt := by simp [ItemAttr.isInt, hstr]
      obtain ⟨m, hm⟩ := existing_int hint (by rw [ht]; simp)
      simp [hm] at ht
  · by_contra hcharged
    refine hc (existing_construct_charges items ?_)
    rw [built_id] at hcharged
    unfold Charged at hcharged
    simp only [Bool.or_eq_true, decide_eq_true_eq]
    tauto
  · rw [built_id] at hd
    unfold built construct
    apply existing_duration_setDefaultDuration
    simpa only [apply_ite Item.id, setFluidType, setCharges, setItemCount, setIntAttr_id, ite_self] using hd

/-- A loaded item that is no bed is legible, whatever its row said. -/
theorem legible_reload (hb : Buildable E.items it.id) (hcls : it.cls = classOf (E.items it.id))
    (h : it.cls ≠ .bed) : Legible E.items (reload E it) := by
  rw [reload_eq hb]
  refine (unserializeAttr_keeps (P := fun i => i.cls ≠ .bed ∧ Legible E.items i)
    (fun attr _ hr => legible_readAttr attr hr) ⟨?_, legible_built _ _⟩).2
  rw [built_cls, ← hcls]
  exact h

theorem Legible.shortStrings (h : Legible items i) : i.ShortStrings := by
  intro t ht
  by_cases hn : i.existing t = none
  · rw [getStrAttr_of_none hn]
    exact Nat.zero_le _
  · obtain ⟨s, hs⟩ := existing_str ht hn
    rw [getStrAttr_of_existing hs ht]
    exact (h.str t s hs).2

theorem Legible.nonEmptyStrings (h : Legible items i) : i.NonEmptyStrings := by
  intro t ht hhas
  rw [hasAttribute_eq, Option.isSome_iff_ne_none] at hhas
  obtain ⟨s, hs⟩ := existing_str ht hhas
  rw [getStrAttr_of_existing hs ht]
  exact (h.str t s hs).1

theorem Legible.hasDuration (h : Legible items i) (hd : (items i.id).decayTime * 1000 ≠ 0) :
    i.hasAttribute .duration := by
  rw [hasAttribute_eq, Option.isSome_iff_ne_none]
  exact h.decays hd

theorem Legible.charged (h : Legible items i) (hc : i.getCharges ≠ 0) : Charged (items i.id) := by
  refine h.charges fun hn => hc ?_
  unfold getCharges getUInt16Attr
  rw [getIntAttr_of_none hn]
  rfl

theorem hasSubType_of_charged {type : ItemType} (h : Charged type) : type.hasSubType := by
  simp [ItemType.hasSubType, h.1]

end Legible

/-! ### A loaded item is settled -/

section Reload

/-- The attributes and the count of a loaded item that is no door and no bed. -/
theorem reload_frame (hb : Buildable E.items it.id) (hcls : it.cls = classOf (E.items it.id))
    (hs : it.ShortStrings) (h1 : it.cls ≠ .door) (h2 : it.cls ≠ .bed) :
    let j := it.baseRestore E.items (built E.items it.id (it.getSubType E.items))
    (∀ t, (reload E it).existing t = j.existing t) ∧ (reload E it).count = j.count := by
  rw [reload_eq_restore hb hcls hs h1 h2]
  unfold restore
  split
  · exact ⟨fun _ => rfl, rfl⟩
  · exact ⟨fun _ => rfl, rfl⟩

/-- The charges of a loaded item are those of its field or, where there is none, the
default ones. -/
theorem charges_reload (hb : Buildable E.items it.id) (hcls : it.cls = classOf (E.items it.id))
    (hl : Legible E.items it) (h1 : it.cls ≠ .door) (h2 : it.cls ≠ .bed) :
    (it.getCharges ≠ 0 → (reload E it).getIntAttr .charges = it.getCharges) ∧
    (it.getCharges = 0 → Charged (E.items it.id) →
      (reload E it).getIntAttr .charges = ((E.items it.id).charges.toNat % 2 ^ 16 : ℕ)) ∧
    (¬ Charged (E.items it.id) → (reload E it).getIntAttr .charges = 0) := by
  have hex := (reload_frame hb hcls hl.shortStrings h1 h2).1 .charges
  rw [existing_charges_baseRestore hl.nonEmptyStrings hl.charged (built_id _)] at hex
  refine ⟨fun hne => ?_, fun hzero hc => ?_, fun hc => ?_⟩
  · have hlt : it.getCharges < 256 ^ 2 := uint_lt 2 _
    rw [if_pos hne, uint_natCast hlt] at hex
    rw [getIntAttr_of_existing hex rfl, int32_of_range (int32_range _), int32_of_range (by omega)]
  · rw [if_neg (not_not.2 hzero), getSubType_of_charged hc, hzero] at hex
    rw [getIntAttr_congr rfl hex, getIntAttr_built_charges hc]
  · have hzero : ¬ it.getCharges ≠ 0 := fun hne => hc (hl.charged hne)
    rw [if_neg hzero] at hex
    apply getIntAttr_of_none
    rw [hex, built, existing_construct_charges E.items]
    unfold Charged at hc
    simp only [Bool.or_eq_true, decide_eq_true_eq]
    tauto

theorem fits_reload (hb : Buildable E.items it.id) (hcls : it.cls = classOf (E.items it.id))
    (hl : Legible E.items it) (h1 : it.cls ≠ .door) (h2 : it.cls ≠ .bed) : (reload E it).Fits E.items := by
  have hr := legible_reload hb hcls h2
  have hid := reload_id hb
  obtain ⟨hex, hcount⟩ := reload_frame hb hcls hl.shortStrings h1 h2
  -- all but the charges and the fluid type is what the fields say
  have hfield : ∀ t, t ≠ .charges → t ≠ .fluidType → (reload E it).existing t = it.written E.items t :=
    fun t ht hf => (hex t).trans (existing_baseRestore hl.nonEmptyStrings hl.hasDuration rfl ht hf)
  have hnone : ¬ Charged (E.items it.id) → ¬ it.getCharges ≠ 0 := fun hc hne => hc (hl.charged hne)
  refine ⟨fun _ => hr.count, fun hf => ?_, hr.charged, fun _ => ?_, hr.shortStrings, hr.nonEmptyStrings, ?_, ?_, ?_,
    ?_, fun hs => ?_, hr.hasDuration, ?_, ?_⟩
  · rw [hid] at hf
    have hc : ¬ Charged (E.items it.id) := by
      unfold Charged
      simp only [Bool.or_eq_true] at hf
      tauto
    have he := (hex .fluidType).trans
      (existing_fluidType_baseRestore hl.nonEmptyStrings (hnone hc) (built_id _) hf)
    have hlt := uint_lt 1 it.getFluidType
    unfold getFluidType getUInt16Attr at hlt he ⊢
    rw [getIntAttr_of_existing he rfl, int32_of_range (int32_range _), int32_of_range (by omega),
      uint_natCast (by omega)]
    omega
  · have hd := getIntAttr_of_field rfl (hfield .duration (by decide) (by decide))
      (by have := int32_range (uint 4 (it.getIntAttr .duration)); omega)
    rw [hd]
    split
    · exact le_max_left _ _
    · exact le_rfl
  · have hlt := uint_lt 2 it.getActionId
    have ha := getIntAttr_of_field rfl (hfield .actionId (by decide) (by decide)) (by split <;> omega)
    rw [ha]
    split
    · split <;> omega
    · omega
  · obtain ⟨hne, hdefault, hno⟩ := charges_reload hb hcls hl h1 h2
    by_cases hc : Charged (E.items it.id)
    · by_cases hzero : it.getCharges = 0
      · rw [hdefault hzero hc]
        omega
      · have hlt : it.getCharges < 256 ^ 2 := uint_lt 2 _
        rw [hne hzero]
        omega
    · rw [hno hc]
      decide
  · have hrange := int8_range (uint 1 (it.getIntAttr .hitChance))
    have hh := getIntAttr_of_field rfl (hfield .hitChance (by decide) (by decide)) (by omega)
    rw [hh]
    split
    · exact hrange
    · decide
  · have hlt := uint_lt 1 (it.getIntAttr .shootRange)
    have hs := getIntAttr_of_field rfl (hfield .shootRange (by decide) (by decide)) (by omega)
    rw [hs]
    split <;> omega
  · rw [hid] at hs
    have hc : ¬ Charged (E.items it.id) := fun hc => hs (hasSubType_of_charged hc)
    rw [hcount]
    refine count_baseRestore (hnone hc) rfl ?_
    simp only [ItemType.hasSubType, Bool.or_eq_true, decide_eq_true_eq] at hs ⊢
    tauto
  · have hd := getIntAttr_of_field rfl (hfield .decayState (by decide) (by decide)) (by decide)
    rw [hd]
    split
    · exact .inr (.inr rfl)
    · exact .inl rfl
  · have hlt := uint_lt 2 it.getActionId
    have ha := getIntAttr_of_field rfl (hfield .actionId (by decide) (by decide)) (by split <;> omega)
    rw [ha]
    split
    · right
      split <;> omega
    · exact .inl rfl

/-- **A loaded item is settled** if its row was that of a legible item. -/
theorem settled_reload (hb : Buildable E.items it.id) (hcls : it.cls = classOf (E.items it.id))
    (hl : it.cls ≠ .bed → Legible E.items it) : Settled E (reload E it) := by
  by_cases hdoor : it.cls = .door
  · exact settled_reload_unread hb hcls (.inl hdoor)
  by_cases hbed : it.cls = .bed
  · exact settled_reload_unread hb hcls (.inr hbed)
  have hl := hl hbed
  have hid := reload_id hb
  have hc := reload_cls hb.toKnown hcls
  refine { hid ▸ hb with
    cls := by rw [hc, hid, hcls]
    fits := fun _ _ => fits_reload hb hcls hl hdoor hbed
    resting := fun _ _ => ?_
    charged := fun _ _ hcharged hzero => ?_
    subType := fun h => (h.elim (hc ▸ hdoor) (hc ▸ hbed)).elim
    sleeper := fun h => absurd (hc ▸ h) hbed
    sleepStart := fun h => absurd (hc ▸ h) hbed }
  · have hex := (reload_frame hb hcls hl.shortStrings hdoor hbed).1 .decayState
    rw [existing_baseRestore hl.nonEmptyStrings hl.hasDuration rfl (by decide) (by decide)] at hex
    unfold getDecaying
    rw [getIntAttr_of_field rfl hex (by decide)]
    split <;> decide
  · rw [hid] at hcharged ⊢
    obtain ⟨hne, hdefault, -⟩ := charges_reload hb hcls hl hdoor hbed
    have hlt : it.getCharges < 256 ^ 2 := uint_lt 2 _
    unfold getCharges getUInt16Attr at hzero
    by_cases h0 : it.getCharges = 0
    · rw [hdefault h0 hcharged, uint_natCast (by omega)] at hzero
      exact hzero
    · rw [hne h0, uint_natCast hlt] at hzero
      exact absurd hzero h0

end Reload

/-! ### The rows that stay -/

section Rows

variable {pid sid : ℕ}

/-- A worn ring comes back as the ring that is not worn. -/
theorem reload_rewritten (hk : Known E.items it.id) (hc : classOf (E.items it.id) = .item)
    (hr : Rewritten (E.items it.id).id) : (reload E it).id ≠ it.id := by
  have hne : ∀ k : UInt16, k ≠ 0 → it.id - k ≠ it.id := fun k hk h => hk (by
    grind)
  unfold reload createItem
  simp only [if_neg hk.group, if_pos hk.id_ne, hc]
  by_cases h1 : 2210 ≤ (E.items it.id).id ∧ (E.items it.id).id ≤ 2212
  · simp only [if_pos h1]
    rw [(unserializeAttr_kind _).1, construct_id]
    exact hne _ (by decide)
  · by_cases h2 : (E.items it.id).id = 2215 ∨ (E.items it.id).id = 2216
    · simp only [if_neg h1, if_pos h2]
      rw [(unserializeAttr_kind _).1, construct_id]
      exact hne _ (by decide)
    · have h3 : 2202 ≤ (E.items it.id).id ∧ (E.items it.id).id ≤ 2206 :=
        (hr.resolve_left h1).resolve_left h2
      simp only [if_neg h1, if_neg h2, if_pos h3]
      rw [(unserializeAttr_kind _).1, construct_id]
      exact hne _ (by decide)

theorem resave_of_rewritten (hk : Known E.items it.id) (hc : classOf (E.items it.id) = .item)
    (hr : Rewritten (E.items it.id).id) (pid sid : ℕ) :
    (rowOf E.items pid sid it).resave E ≠ rowOf E.items pid sid it := by
  rw [resave_rowOf hk]
  exact fun h => reload_rewritten hk hc hr (congrArg Row.itemtype h)

/-- **The row of an item stays as it is** if and only if it is that of a settled item. -/
theorem resave_eq_iff (hk : Known E.items it.id) (hcls : it.cls = classOf (E.items it.id)) :
    (rowOf E.items pid sid it).resave E = rowOf E.items pid sid it ↔
      ∃ i, Settled E i ∧ rowOf E.items pid sid it = rowOf E.items pid sid i := by
  constructor
  · intro h
    have hb : Buildable E.items it.id := { hk with
      kept := fun hc hr => resave_of_rewritten hk hc hr pid sid h }
    have hrow : rowOf E.items pid sid it = rowOf E.items pid sid (reload E it) := by
      rw [← resave_rowOf hk, h]
    by_cases hbed : it.cls = .bed
    · exact ⟨reload E it, settled_reload hb hcls fun hne => absurd hbed hne, hrow⟩
    · -- the item of the row is legible, and what its row is loaded to is settled
      have hid := reload_id hb
      have hb' : Buildable E.items (reload E it).id := hid ▸ hb
      have hcls' : (reload E it).cls = classOf (E.items (reload E it).id) := by
        rw [reload_cls hk hcls, hid, hcls]
      refine ⟨reload E (reload E it), settled_reload hb' hcls' fun _ => legible_reload hb hcls hbed, ?_⟩
      rw [← resave_rowOf hb'.toKnown, ← hrow, h]
  · rintro ⟨i, hi, hrow⟩
    rw [hrow, resave_of_settled hi]

end Rows

/-! ### The rows of an inventory -/

section Inventory

/-- The row of an item that `Item::CreateItem` builds as an object of its class. -/
def IsRow (items : UInt16 → ItemType) (row : Row) : Prop :=
  ∃ it, Known items it.id ∧ it.cls = classOf (items it.id) ∧ row = rowOf items row.pid row.sid it

theorem isRow_emit : ∀ {l : List ItemBlock} {r : ℕ} {row : Row}, CreatableBlocks items l →
    row ∈ emit items l r → IsRow items row
  | (pid, it, c) :: l, r, row, hc, h => by
    rcases List.mem_cons.1 h with rfl | h
    · obtain ⟨hk, hcls, -⟩ := (hc _ List.mem_cons_self).1
      exact ⟨it, hk, hcls, rfl⟩
    · exact isRow_emit (fun b hb => hc b (List.mem_cons_of_mem _ hb)) h

theorem isRow_saveQueue (q : List (Forest Item × ℕ)) (r : ℕ) (hq : CreatableQueue E.items q) :
    ∀ row ∈ saveQueue E.items q r, IsRow E.items row := by
  induction q, r using saveQueue.induct with
  | case1 r => simp [saveQueue]
  | case2 f p q r ih =>
    have hf : CreatableBlocks E.items (children p f) := creatable_children (hq _ List.mem_cons_self)
    have ih := ih fun b hb => by
      rcases List.mem_append.1 hb with hb | hb
      · exact hq b (List.mem_cons_of_mem _ hb)
      · exact creatable_enqueue hf b hb
    intro row hrow
    rw [saveQueue] at hrow
    rcases List.mem_append.1 hrow with h | h
    · exact isRow_emit hf h
    · exact ih row h

theorem isRow_saveItems {l : List ItemBlock} (hc : CreatableBlocks E.items l) :
    ∀ row ∈ saveItems E.items l, IsRow E.items row := by
  intro row hrow
  rcases List.mem_append.1 hrow with h | h
  · exact isRow_emit hc h
  · exact isRow_saveQueue _ _ (creatable_enqueue hc) row h

/-- The row of a settled item. -/
def SettledRow (E : Env) (row : Row) : Prop :=
  ∃ it, Settled E it ∧ row = rowOf E.items row.pid row.sid it

/-- Of the rows of an inventory, those of settled items stay as they are. -/
theorem resave_eq_self_iff {l : List ItemBlock} (hc : CreatableBlocks E.items l) {row : Row}
    (hrow : row ∈ saveItems E.items l) : row.resave E = row ↔ SettledRow E row := by
  obtain ⟨it, hk, hcls, he⟩ := isRow_saveItems hc row hrow
  rw [he, resave_eq_iff hk hcls]
  rfl

end Inventory

end IOLoginData
end ForgottenServer
