/-
# What an item's attribute bytes restore

Reading back the bytes of `serializeAttr` into a newly created item runs the
setters of the written fields in order, `restore`. For an item whose values
fit the widths of the format the item read back has the id, the sub-type and
the written attributes of the item that was saved; only the decay state
changes, from decaying to pending.

Key definitions: `Item.restore`, `Item.Saveable`, `Item.Restored`.
Key theorems: `Item.writes_serializeAttr`, `Item.restored_restore`.
-/
import ForgottenServer.ItemStream

namespace ForgottenServer
namespace Item

open PropWriteStream

variable {E : Env} {items : UInt16 → ItemType}

/-- The setters that the count and charges fields of `it` run on an item. -/
def restoreSubType (items : UInt16 → ItemType) (it i : Item) : Item :=
  let type := items it.id
  i |> doIf (type.stackable || type.isFluidContainer || type.isSplash)
      (·.setSubType items (uint 1 (it.getSubType items)))
    |> doIf (it.getCharges ≠ 0) (·.setSubType items (uint 2 it.getCharges))

/-- The setters that the other fields of `it` run on an item. -/
def restoreFields (items : UInt16 → ItemType) (it i : Item) : Item :=
  i |> doIf ((items it.id).moveable && it.getActionId ≠ 0)
      (·.setActionId (uint 2 it.getActionId))
    |> doIf (it.getText ≠ []) (·.setStrAttr .text it.getText)
    |> doIf (it.getDate ≠ 0) (·.setIntAttr .date (uint 4 it.getDate))
    |> doIf (it.getWriter ≠ []) (·.setStrAttr .writer it.getWriter)
    |> doIf (it.getSpecialDescription ≠ []) (·.setStrAttr .description it.getSpecialDescription)
    |> doIf (it.hasAttribute .duration)
      (·.setDuration (max 0 (int32 (uint 4 (it.getIntAttr .duration)))))
    |> doIf (it.getDecaying = 1 ∨ it.getDecaying = 2) (·.setDecaying 2)
    |> doIf (it.hasAttribute .name) (·.setStrAttr .name (it.getStrAttr .name))
    |> doIf (it.hasAttribute .article) (·.setStrAttr .article (it.getStrAttr .article))
    |> doIf (it.hasAttribute .pluralName) (·.setStrAttr .pluralName (it.getStrAttr .pluralName))
    |> doIf (it.hasAttribute .weight) (·.setIntAttr .weight (uint 4 (it.getIntAttr .weight)))
    |> doIf (it.hasAttribute .attack) (·.setIntAttr .attack (uint 4 (it.getIntAttr .attack)))
    |> doIf (it.hasAttribute .defense) (·.setIntAttr .defense (uint 4 (it.getIntAttr .defense)))
    |> doIf (it.hasAttribute .extraDefense)
      (·.setIntAttr .extraDefense (uint 4 (it.getIntAttr .extraDefense)))
    |> doIf (it.hasAttribute .armor) (·.setIntAttr .armor (uint 4 (it.getIntAttr .armor)))
    |> doIf (it.hasAttribute .hitChance)
      (·.setIntAttr .hitChance (int8 (uint 1 (it.getIntAttr .hitChance))))
    |> doIf (it.hasAttribute .shootRange)
      (·.setIntAttr .shootRange (uint 1 (it.getIntAttr .shootRange)))

/-- The setters that reading `it.baseSerializeAttr` back runs on an item. -/
def baseRestore (items : UInt16 → ItemType) (it i : Item) : Item :=
  it.restoreFields items (it.restoreSubType items i)

/-- The decaying field: any state but `DECAYING_FALSE` is read as pending. -/
theorem writes_decaying {n : ℕ} (h : n = 1 ∨ n = 2) :
    Writes E (writeAttr .decayingState (write 1 n)) fun i => i.setDecaying 2 := fun i s m => by
  have hn : uint 1 (n : ℤ) ≠ 0 := by rcases h with rfl | rfl <;> decide
  rw [writeAttr, List.append_assoc, unserializeAttr_tag, readAttr_base rfl]
  simp only [baseReadAttr, Reader.read, get_write, if_pos hn, Reader.set]

/-- Every string that `Item::serializeAttr` writes fits in a string field. -/
def ShortStrings (it : Item) : Prop := ∀ t, t.isStr → (it.getStrAttr t).length ≤ 65535

theorem writes_base {it : Item} (h : it.ShortStrings) :
    Writes E (it.baseSerializeAttr E.items) (it.baseRestore E.items) := fun i s n => by
  have htext : it.getText.length ≤ 65535 := h _ rfl
  have hwriter : it.getWriter.length ≤ 65535 := h _ rfl
  have hdesc : it.getSpecialDescription.length ≤ 65535 := h _ rfl
  unfold baseSerializeAttr
  simp only [List.append_assoc]
  rw [Writes.ite fun _ => writes_num (f := fun n i => i.setSubType E.items n) rfl (fun _ => rfl) _,
    Writes.ite fun _ => writes_num (f := fun n i => i.setSubType E.items n) rfl (fun _ => rfl) _,
    Writes.ite fun _ => writes_num (f := fun n i => i.setActionId n) rfl (fun _ => rfl) _,
    Writes.ite fun _ => writes_str (f := fun s i => i.setStrAttr .text s) rfl (fun _ => rfl)
      htext,
    Writes.ite fun _ => writes_num (f := fun n i => i.setIntAttr .date n) rfl (fun _ => rfl) _,
    Writes.ite fun _ => writes_str (f := fun s i => i.setStrAttr .writer s) rfl (fun _ => rfl)
      hwriter,
    Writes.ite fun _ => writes_str (f := fun s i => i.setStrAttr .description s) rfl (fun _ => rfl)
      hdesc,
    Writes.ite fun _ => writes_num (f := fun n i => i.setDuration (max 0 (int32 n))) rfl
      (fun _ => rfl) _,
    Writes.ite writes_decaying,
    Writes.ite fun _ => writes_str (f := fun s i => i.setStrAttr .name s) rfl (fun _ => rfl)
      (h .name rfl),
    Writes.ite fun _ => writes_str (f := fun s i => i.setStrAttr .article s) rfl (fun _ => rfl)
      (h .article rfl),
    Writes.ite fun _ => writes_str (f := fun s i => i.setStrAttr .pluralName s) rfl (fun _ => rfl)
      (h .pluralName rfl),
    Writes.ite fun _ => writes_num (f := fun n i => i.setIntAttr .weight n) rfl (fun _ => rfl) _,
    Writes.ite fun _ => writes_num (f := fun n i => i.setIntAttr .attack n) rfl (fun _ => rfl) _,
    Writes.ite fun _ => writes_num (f := fun n i => i.setIntAttr .defense n) rfl (fun _ => rfl) _,
    Writes.ite fun _ => writes_num (f := fun n i => i.setIntAttr .extraDefense n) rfl
      (fun _ => rfl) _,
    Writes.ite fun _ => writes_num (f := fun n i => i.setIntAttr .armor n) rfl (fun _ => rfl) _,
    Writes.ite fun _ => writes_num (f := fun n i => i.setIntAttr .hitChance (int8 n)) rfl
      (fun _ => rfl) _,
    Writes.ite fun _ => writes_num (f := fun n i => i.setIntAttr .shootRange n) rfl
      (fun _ => rfl) _]
  rfl

/-! ### What the setters leave -/

section Setters

variable {c : Prop} [Decidable c] {i it : Item} {t u : ItemAttr}

@[simp] theorem doIf_setIntAttr_frame (n : ℤ) :
    (doIf c (·.setIntAttr t n) i).id = i.id ∧ (doIf c (·.setIntAttr t n) i).cls = i.cls ∧
    (doIf c (·.setIntAttr t n) i).count = i.count ∧
    (doIf c (·.setIntAttr t n) i).destPos = i.destPos := by
  unfold doIf
  split
  · exact ⟨rfl, rfl, rfl, rfl⟩
  · exact ⟨rfl, rfl, rfl, rfl⟩

@[simp] theorem doIf_setStrAttr_frame (s : Bytes) :
    (doIf c (·.setStrAttr t s) i).id = i.id ∧ (doIf c (·.setStrAttr t s) i).cls = i.cls ∧
    (doIf c (·.setStrAttr t s) i).count = i.count ∧
    (doIf c (·.setStrAttr t s) i).destPos = i.destPos := by
  unfold doIf
  split
  · exact ⟨rfl, rfl, rfl, rfl⟩
  · exact ⟨rfl, rfl, rfl, rfl⟩

theorem existing_doIf_int (n : ℤ) (ht : t.isInt) :
    (doIf c (·.setIntAttr t n) i).existing u =
      if u = t ∧ c then some (.integer (int32 n)) else i.existing u := by
  unfold doIf
  by_cases hc : c
  · rw [if_pos hc, existing_setIntAttr i n ht]; simp [hc]
  · simp [hc]

theorem existing_doIf_str {s : Bytes} (ht : t.isStr) (hs : c → s ≠ []) :
    (doIf c (·.setStrAttr t s) i).existing u =
      if u = t ∧ c then some (.string s) else i.existing u := by
  unfold doIf
  by_cases hc : c
  · rw [if_pos hc, existing_setStrAttr i ht (hs hc)]; simp [hc]
  · simp [hc]

end Setters

section Restore

variable {it : Item}

/-- No string attribute is empty: `setStrAttr` sets none. -/
def NonEmptyStrings (it : Item) : Prop := ∀ t, t.isStr → it.hasAttribute t → it.getStrAttr t ≠ []

/-- The attribute that the fields of `it` after the sub-type set. -/
def written (items : UInt16 → ItemType) (it : Item) : ItemAttr → Option AttrValue
  | .actionId =>
    if (items it.id).moveable && it.getActionId ≠ 0 then
      some (.integer (int32 (if uint 2 it.getActionId < 100 then 100 else uint 2 it.getActionId)))
    else none
  | .date => if it.getDate ≠ 0 then some (.integer (int32 (uint 4 it.getDate))) else none
  | .duration =>
    if it.hasAttribute .duration then
      some (.integer (int32 (max 0 (int32 (uint 4 (it.getIntAttr .duration))))))
    else none
  | .decayState => if it.getDecaying = 1 ∨ it.getDecaying = 2 then some (.integer (int32 2)) else none
  | .hitChance =>
    if it.hasAttribute .hitChance then
      some (.integer (int32 (int8 (uint 1 (it.getIntAttr .hitChance)))))
    else none
  | .shootRange =>
    if it.hasAttribute .shootRange then
      some (.integer (int32 (uint 1 (it.getIntAttr .shootRange))))
    else none
  | .uniqueId | .owner | .corpseOwner | .doorId | .charges | .fluidType => none
  | t =>
    if t.isStr then if it.getStrAttr t ≠ [] then some (.string (it.getStrAttr t)) else none
    else if it.hasAttribute t then some (.integer (int32 (uint 4 (it.getIntAttr t)))) else none

theorem hasAttribute_of_getStrAttr {t : ItemAttr} (h : it.getStrAttr t ≠ []) :
    it.hasAttribute t := by
  by_contra hn
  rw [hasAttribute_eq, Option.not_isSome_iff_eq_none] at hn
  exact h (getStrAttr_of_none hn)

theorem hasAttribute_str (hs : it.NonEmptyStrings) {t : ItemAttr} (ht : t.isStr) :
    it.hasAttribute t ↔ it.getStrAttr t ≠ [] :=
  ⟨hs t ht, hasAttribute_of_getStrAttr⟩

theorem ite_or {α : Type} (c : Prop) [Decidable c] (a b d : Option α) :
    (if c then a else b).or d = if c then a.or d else b.or d := apply_ite (·.or d) c a b

/-- What an attribute is after the fields of `it` were read into `i`. -/
theorem existing_restoreFields (hs : it.NonEmptyStrings) (i : Item) (t : ItemAttr) :
    (it.restoreFields items i).existing t = (it.written items t).or (i.existing t) := by
  have hn := hasAttribute_str hs (t := .name) rfl
  have ha := hasAttribute_str hs (t := .article) rfl
  have hp := hasAttribute_str hs (t := .pluralName) rfl
  unfold restoreFields
  simp only [setActionId, setDuration, setDecaying]
  rw [existing_doIf_int _ rfl, existing_doIf_int _ rfl, existing_doIf_int _ rfl,
    existing_doIf_int _ rfl, existing_doIf_int _ rfl, existing_doIf_int _ rfl,
    existing_doIf_int _ rfl, existing_doIf_str rfl hp.1, existing_doIf_str rfl ha.1,
    existing_doIf_str rfl hn.1, existing_doIf_int _ rfl, existing_doIf_int _ rfl,
    existing_doIf_str rfl (fun h => h), existing_doIf_str rfl (fun h => h),
    existing_doIf_int _ rfl, existing_doIf_str rfl (fun h => h), existing_doIf_int _ rfl]
  cases t <;> simp [written, ite_or, hn, ha, hp, ItemAttr.isStr, getText, getWriter,
    getSpecialDescription]

theorem restoreFields_frame (items : UInt16 → ItemType) (it i : Item) :
    (it.restoreFields items i).id = i.id ∧ (it.restoreFields items i).cls = i.cls ∧
    (it.restoreFields items i).count = i.count ∧
    (it.restoreFields items i).destPos = i.destPos := by
  unfold restoreFields
  simp only [setActionId, setDuration, setDecaying, doIf_setIntAttr_frame, doIf_setStrAttr_frame,
    and_self]

theorem setSubType_frame (i : Item) (n : ℕ) :
    (i.setSubType items n).id = i.id ∧ (i.setSubType items n).cls = i.cls ∧
    (i.setSubType items n).destPos = i.destPos := by
  unfold setSubType
  split
  · exact ⟨rfl, rfl, rfl⟩
  split
  · exact ⟨rfl, rfl, rfl⟩
  split
  · exact ⟨rfl, rfl, rfl⟩
  · exact ⟨rfl, rfl, rfl⟩

theorem existing_setSubType (i : Item) (n : ℕ) {t : ItemAttr} (h1 : t ≠ .charges)
    (h2 : t ≠ .fluidType) : (i.setSubType items n).existing t = i.existing t := by
  unfold setSubType
  split
  · rw [setFluidType, existing_setIntAttr _ _ rfl, if_neg h2]
  split
  · rfl
  split
  · rw [setCharges, existing_setIntAttr _ _ rfl, if_neg h1]
  · rfl

theorem restoreSubType_frame (items : UInt16 → ItemType) (it i : Item) :
    (it.restoreSubType items i).id = i.id ∧ (it.restoreSubType items i).cls = i.cls ∧
    (it.restoreSubType items i).destPos = i.destPos := by
  have step (c : Prop) [Decidable c] (n : ℕ) (j : Item) :
      (doIf c (·.setSubType items n) j).id = j.id ∧
      (doIf c (·.setSubType items n) j).cls = j.cls ∧
      (doIf c (·.setSubType items n) j).destPos = j.destPos := by
    unfold doIf
    split
    · exact setSubType_frame j n
    · exact ⟨rfl, rfl, rfl⟩
  unfold restoreSubType
  simp only [step, and_self]

theorem existing_restoreSubType (i : Item) {t : ItemAttr} (h1 : t ≠ .charges)
    (h2 : t ≠ .fluidType) : (it.restoreSubType items i).existing t = i.existing t := by
  have step (c : Prop) [Decidable c] (n : ℕ) (j : Item) :
      (doIf c (·.setSubType items n) j).existing t = j.existing t := by
    unfold doIf
    split
    · exact existing_setSubType j n h1 h2
    · rfl
  unfold restoreSubType
  simp only [step]

end Restore

/-! ### Values that fit their fields -/

section Widths

theorem uint_eq (w : ℕ) (n : ℤ) : (uint w n : ℤ) = n % (256 ^ w : ℕ) :=
  Int.toNat_of_nonneg (Int.emod_nonneg n (by positivity))

theorem int32_range (n : ℤ) : -2 ^ 31 ≤ int32 n ∧ int32 n < 2 ^ 31 := by
  unfold int32
  split <;> omega

theorem int32_of_range {n : ℤ} (h : -2 ^ 31 ≤ n ∧ n < 2 ^ 31) : int32 n = n := by
  unfold int32
  split <;> omega

theorem int8_range (n : ℤ) : -2 ^ 7 ≤ int8 n ∧ int8 n < 2 ^ 7 := by
  unfold int8
  split <;> omega

/-- An `int32_t` survives the four bytes of its field. -/
theorem int32_uint {n : ℤ} (h : -2 ^ 31 ≤ n ∧ n < 2 ^ 31) : int32 (uint 4 n) = n := by
  have h4 : (uint 4 n : ℤ) = n % 2 ^ 32 := by rw [uint_eq]; norm_num
  rw [h4]
  unfold int32
  split <;> omega

/-- An `int8_t` survives the byte of its field. -/
theorem int8_uint {n : ℤ} (h : -2 ^ 7 ≤ n ∧ n < 2 ^ 7) : int8 (uint 1 n) = n := by
  have h1 : (uint 1 n : ℤ) = n % 2 ^ 8 := by rw [uint_eq]; norm_num
  rw [h1]
  unfold int8
  split <;> omega

theorem getIntAttr_range (it : Item) (t : ItemAttr) :
    -2 ^ 31 ≤ it.getIntAttr t ∧ it.getIntAttr t < 2 ^ 31 := by
  unfold getIntAttr
  split
  · exact int32_range _
  · norm_num

end Widths

/-! ### An item that fits the format is restored -/

/-- A type whose sub-type is a number of charges. -/
def Charged (type : ItemType) : Prop :=
  type.charges ≠ 0 ∧ ¬ type.stackable ∧ ¬ type.isFluidContainer ∧ ¬ type.isSplash

/-- An item whose values fit the fields that they are written in. -/
structure WithinWidths (items : UInt16 → ItemType) (it : Item) : Prop where
  moveable : (items it.id).moveable
  stackable : (items it.id).stackable → it.count < 256
  fluid : (items it.id).isFluidContainer || (items it.id).isSplash → it.getFluidType < 256
  charges : it.getCharges ≠ 0 ↔ Charged (items it.id)
  duration : it.hasAttribute .duration → 0 ≤ it.getIntAttr .duration
  short : it.ShortStrings
  nonEmpty : it.NonEmptyStrings
  actionWidth : 0 ≤ it.getIntAttr .actionId ∧ it.getIntAttr .actionId < 2 ^ 16
  chargesWidth : 0 ≤ it.getIntAttr .charges ∧ it.getIntAttr .charges < 2 ^ 16
  hitChance : -2 ^ 7 ≤ it.getIntAttr .hitChance ∧ it.getIntAttr .hitChance < 2 ^ 7
  shootRange : 0 ≤ it.getIntAttr .shootRange ∧ it.getIntAttr .shootRange < 2 ^ 8

/-- An item that the format can hold: besides, `Item::CreateItem` builds its
type as an object of its class and with no attributes but those that it has,
and `setActionId` would not raise its action id. -/
structure Saveable (items : UInt16 → ItemType) (it : Item) : Prop extends WithinWidths items it where
  buildable : Buildable items it.id
  cls : it.cls = classOf (items it.id)
  plain : it.cls ≠ .door ∧ it.cls ≠ .bed ∧ it.cls ≠ .depotLocker
  single : ¬ (items it.id).hasSubType → it.count = 1
  decays : (items it.id).decayTime * 1000 ≠ 0 → it.hasAttribute .duration
  decayState : it.getIntAttr .decayState = 0 ∨ it.getIntAttr .decayState = 1 ∨
    it.getIntAttr .decayState = 2
  actionId : it.getIntAttr .actionId = 0 ∨ 100 ≤ it.getIntAttr .actionId

/-- What the fields of `it` are to be like for a new item of its type to get them
back. -/
structure Fits (items : UInt16 → ItemType) (it : Item) : Prop where
  stackable : (items it.id).stackable → it.count < 256
  fluid : (items it.id).isFluidContainer || (items it.id).isSplash → it.getFluidType < 256
  charges : it.getCharges ≠ 0 → Charged (items it.id)
  duration : it.hasAttribute .duration → 0 ≤ it.getIntAttr .duration
  short : it.ShortStrings
  nonEmpty : it.NonEmptyStrings
  actionWidth : 0 ≤ it.getIntAttr .actionId ∧ it.getIntAttr .actionId < 2 ^ 16
  chargesWidth : 0 ≤ it.getIntAttr .charges ∧ it.getIntAttr .charges < 2 ^ 16
  hitChance : -2 ^ 7 ≤ it.getIntAttr .hitChance ∧ it.getIntAttr .hitChance < 2 ^ 7
  shootRange : 0 ≤ it.getIntAttr .shootRange ∧ it.getIntAttr .shootRange < 2 ^ 8
  single : ¬ (items it.id).hasSubType → it.count = 1
  decays : (items it.id).decayTime * 1000 ≠ 0 → it.hasAttribute .duration
  decayState : it.getIntAttr .decayState = 0 ∨ it.getIntAttr .decayState = 1 ∨
    it.getIntAttr .decayState = 2
  actionId : it.getIntAttr .actionId = 0 ∨ 100 ≤ it.getIntAttr .actionId

theorem Saveable.fits {it : Item} (h : it.Saveable items) : it.Fits items where
  stackable := h.stackable
  fluid := h.fluid
  charges := h.charges.1
  duration := h.duration
  short := h.short
  nonEmpty := h.nonEmpty
  actionWidth := h.actionWidth
  chargesWidth := h.chargesWidth
  hitChance := h.hitChance
  shootRange := h.shootRange
  single := h.single
  decays := h.decays
  decayState := h.decayState
  actionId := h.actionId

/-- The integer attributes of the format. -/
def savedInts : List ItemAttr :=
  [.actionId, .charges, .date, .duration, .weight, .attack, .defense, .extraDefense, .armor,
    .hitChance, .shootRange]

/-- The attributes that are written whenever they are there. -/
def savedIfSet (t : ItemAttr) : Bool :=
  t.isStr || t ∈ [.duration, .weight, .attack, .defense, .extraDefense, .armor, .hitChance,
    .shootRange]

/-- The item `r` is `it` as far as the format goes; a decay state of
`DECAYING_TRUE` has become `DECAYING_PENDING`. -/
structure Restored (items : UInt16 → ItemType) (it r : Item) : Prop where
  id : r.id = it.id
  cls : r.cls = it.cls
  subType : r.getSubType items = it.getSubType items
  str : ∀ t, t.isStr → r.getStrAttr t = it.getStrAttr t
  int : ∀ t ∈ savedInts, r.getIntAttr t = it.getIntAttr t
  has : ∀ t, savedIfSet t → r.hasAttribute t = it.hasAttribute t
  decaying : r.getDecaying = if it.getDecaying = 1 then 2 else it.getDecaying
  destPos : it.cls = .teleport → r.destPos = it.destPos

section

variable {it i b : Item} {t : ItemAttr}

theorem getIntAttr_of_ite {c : Prop} [Decidable c] {n v : ℤ} (ht : t.isInt)
    (h : b.existing t = if c then some (.integer n) else none) (h1 : c → int32 n = v)
    (h0 : ¬ c → v = 0) : b.getIntAttr t = v := by
  by_cases hc : c
  · rw [if_pos hc] at h
    rw [getIntAttr_of_existing h ht, h1 hc]
  · rw [if_neg hc] at h
    rw [getIntAttr_of_none h, h0 hc]

/-- An integer that a field of the format set. -/
theorem getIntAttr_of_field {c : Prop} [Decidable c] {n : ℤ} (ht : t.isInt)
    (h : b.existing t = if c then some (.integer (int32 n)) else none) (hn : -2 ^ 31 ≤ n ∧ n < 2 ^ 31) :
    b.getIntAttr t = if c then n else 0 := by
  refine getIntAttr_of_ite ht h (fun hc => ?_) fun hc => if_neg hc
  rw [if_pos hc, int32_of_range (int32_range n), int32_of_range hn]

theorem getIntAttr_eq_zero (h : ¬ it.hasAttribute t) : it.getIntAttr t = 0 := by
  rw [hasAttribute_eq, Option.not_isSome_iff_eq_none] at h
  exact getIntAttr_of_none h

/-- A new item that the fields of `it` were read into has the written
attributes of `it` and no others. -/
theorem existing_baseRestore (hs : it.NonEmptyStrings)
    (hdecays : (items it.id).decayTime * 1000 ≠ 0 → it.hasAttribute .duration) {n : ℕ}
    (hi : i = built items it.id n) (h1 : t ≠ .charges)
    (h2 : t ≠ .fluidType) : (it.baseRestore items i).existing t = it.written items t := by
  rw [baseRestore, existing_restoreFields hs, existing_restoreSubType _ h1 h2]
  by_cases hd : t = .duration ∧ (items it.id).decayTime * 1000 ≠ 0
  · obtain ⟨rfl, hd⟩ := hd
    simp only [written, if_pos (hdecays hd), Option.some_or]
  · rw [hi, built, existing_construct items h1 h2 (by push Not at hd; exact hd), Option.or_none]

theorem getStrAttr_baseRestore (hs : it.NonEmptyStrings)
    (hdecays : (items it.id).decayTime * 1000 ≠ 0 → it.hasAttribute .duration) {n : ℕ}
    (hi : i = built items it.id n) (ht : t.isStr) :
    (it.baseRestore items i).getStrAttr t = it.getStrAttr t ∧
    (it.baseRestore items i).hasAttribute t = it.hasAttribute t := by
  have he : (it.baseRestore items i).existing t =
      if it.getStrAttr t ≠ [] then some (.string (it.getStrAttr t)) else none := by
    rw [existing_baseRestore hs hdecays hi (by rintro rfl; simp [ItemAttr.isStr] at ht)
      (by rintro rfl; simp [ItemAttr.isStr] at ht)]
    cases t <;> simp [ItemAttr.isStr] at ht <;> simp [written, ItemAttr.isStr]
  have hh := hasAttribute_str hs ht
  by_cases hne : it.getStrAttr t ≠ []
  · rw [if_pos hne] at he
    exact ⟨getStrAttr_of_existing he ht, by rw [hasAttribute_eq, he, hh.2 hne]; rfl⟩
  · rw [if_neg hne] at he
    refine ⟨by rw [getStrAttr_of_none he]; exact (not_not.1 hne).symm, ?_⟩
    rw [hasAttribute_eq, he, Bool.eq_false_iff.2 fun hc => hne (hh.1 hc)]
    rfl

/-- The integers of the format, charges apart. Where the item cannot be moved there is no
field for the action id. -/
theorem getIntAttr_baseRestore (h : it.Fits items) {n : ℕ}
    (hi : i = built items it.id n) (ht : t ∈ savedInts)
    (hc : t ≠ .charges) (hm : t = .actionId → (items it.id).moveable) :
    (it.baseRestore items i).getIntAttr t = it.getIntAttr t := by
  have hr := it.getIntAttr_range t
  have he := existing_baseRestore h.nonEmpty h.decays hi hc (by rintro rfl; simp [savedInts] at ht)
  have hz : ¬ it.hasAttribute t → it.getIntAttr t = 0 := getIntAttr_eq_zero
  have h4 : int32 (int32 (uint 4 (it.getIntAttr t))) = it.getIntAttr t := by
    rw [int32_of_range (int32_range _), int32_uint hr]
  simp only [savedInts, List.mem_cons, List.not_mem_nil, or_false] at ht
  rcases ht with rfl | rfl | rfl | rfl | rfl | rfl | rfl | rfl | rfl | rfl | rfl
  · -- the action id is raised to 100 when it is read
    have hw := h.actionWidth
    have ha : (it.getActionId : ℤ) = it.getIntAttr .actionId := by
      unfold getActionId getUInt16Attr
      rw [uint_eq]
      rcases h.actionId with h0 | h0 <;> omega
    refine getIntAttr_of_ite rfl he (fun hc => ?_) fun hc => ?_
    · have h2 : uint 2 (it.getActionId : ℤ) = it.getActionId :=
        uint_natCast (by rcases h.actionId with h0 | h0 <;> omega)
      have hne : it.getActionId ≠ 0 := by simpa using (Bool.and_eq_true_iff.1 hc).2
      rw [h2, if_neg (by rcases h.actionId with h0 | h0 <;> omega), ha,
        int32_of_range (int32_range _), int32_of_range hr]
    · have : it.getActionId = 0 := by simpa [hm rfl] using hc
      omega
  · exact absurd rfl hc
  · exact getIntAttr_of_ite rfl he (fun _ => h4) fun hc => not_not.1 hc
  · refine getIntAttr_of_ite rfl he (fun hd => ?_) hz
    have := h.duration hd
    rw [int32_uint hr, max_eq_right this, int32_of_range (int32_range _), int32_of_range hr]
  · exact getIntAttr_of_ite rfl he (fun _ => h4) hz
  · exact getIntAttr_of_ite rfl he (fun _ => h4) hz
  · exact getIntAttr_of_ite rfl he (fun _ => h4) hz
  · exact getIntAttr_of_ite rfl he (fun _ => h4) hz
  · exact getIntAttr_of_ite rfl he (fun _ => h4) hz
  · refine getIntAttr_of_ite rfl he (fun _ => ?_) hz
    rw [int32_of_range (int32_range _), int8_uint h.hitChance, int32_of_range hr]
  · refine getIntAttr_of_ite rfl he (fun _ => ?_) hz
    have h1 : (uint 1 (it.getIntAttr .shootRange) : ℤ) = it.getIntAttr .shootRange := by
      rw [uint_eq]
      have := h.shootRange
      omega
    rw [int32_of_range (int32_range _), h1, int32_of_range hr]

theorem hasAttribute_baseRestore (h : it.Fits items) {n : ℕ}
    (hi : i = built items it.id n) (ht : savedIfSet t) :
    (it.baseRestore items i).hasAttribute t = it.hasAttribute t := by
  by_cases hs : t.isStr
  · exact (getStrAttr_baseRestore h.nonEmpty h.decays hi hs).2
  have he := existing_baseRestore h.nonEmpty h.decays hi (t := t)
    (by rintro rfl; simp [savedIfSet, ItemAttr.isStr] at ht)
    (by rintro rfl; simp [savedIfSet, ItemAttr.isStr] at ht)
  simp only [savedIfSet, hs, Bool.false_or, decide_eq_true_eq, List.mem_cons, List.not_mem_nil,
    or_false] at ht
  rw [hasAttribute_eq, he]
  rcases ht with rfl | rfl | rfl | rfl | rfl | rfl | rfl | rfl <;>
    cases hc : it.hasAttribute _ <;> simp [written, hc, ItemAttr.isStr]

/-- The charges come from their field, and are left alone where there is none. -/
theorem existing_charges_baseRestore (hs : it.NonEmptyStrings)
    (hc : it.getCharges ≠ 0 → Charged (items it.id)) (hid : i.id = it.id) :
    (it.baseRestore items i).existing .charges =
      if it.getCharges ≠ 0 then some (.integer (int32 (uint 2 it.getCharges))) else i.existing .charges := by
  rw [baseRestore, existing_restoreFields hs]
  simp only [written, Option.none_or, restoreSubType]
  by_cases hne : it.getCharges ≠ 0
  · obtain ⟨h1, h2, h3, h4⟩ := hc hne
    simp only [doIf, if_pos hne, h2, h3, h4, Bool.or_self, Bool.false_eq_true, ↓reduceIte,
      setSubType, hid, h1, ne_eq, not_false_eq_true]
    rw [setCharges, existing_setIntAttr _ _ rfl, if_pos rfl]
  · simp only [doIf, if_neg hne]
    split
    · next hcount =>
      unfold setSubType
      rw [hid]
      split
      · rw [setFluidType, existing_setIntAttr _ _ rfl, if_neg (by simp)]
      · rw [if_pos (by simp_all)]
        rfl
    · rfl

/-- `charges` of the item read back, which is the default where there is no field for
it. -/
theorem getCharges_baseRestore (h : it.Fits items) {n : ℕ}
    (hi : i = built items it.id n)
    (hz : Charged (items it.id) → it.getCharges = 0 → i.getIntAttr .charges = 0) :
    (it.baseRestore items i).getIntAttr .charges = it.getIntAttr .charges := by
  have hw := h.chargesWidth
  have hu : (it.getCharges : ℤ) = it.getIntAttr .charges := by
    unfold getCharges getUInt16Attr
    rw [uint_eq]
    omega
  have hid : i.id = it.id := by rw [hi, built_id]
  have he := existing_charges_baseRestore h.nonEmpty h.charges hid
  by_cases hc : it.getCharges ≠ 0
  · rw [if_pos hc] at he
    have h2 : uint 2 (it.getCharges : ℤ) = it.getCharges := uint_natCast (by omega)
    rw [getIntAttr_of_existing he rfl, h2, hu, int32_of_range (int32_range _), int32_of_range (by omega)]
  · rw [if_neg hc] at he
    have hzero : it.getCharges = 0 := not_not.1 hc
    rw [getIntAttr_congr rfl he, ← hu, hzero]
    by_cases hcharged : Charged (items it.id)
    · exact hz hcharged hzero
    · apply getIntAttr_of_none
      unfold Charged at hcharged
      rw [hi, built, existing_construct_charges items]
      simp only [Bool.or_eq_true, decide_eq_true_eq]
      tauto

/-- The fluid type comes from the count field. -/
theorem existing_fluidType_baseRestore (hs : it.NonEmptyStrings) (hn : ¬ it.getCharges ≠ 0) (hid : i.id = it.id)
    (hf : (items it.id).isFluidContainer || (items it.id).isSplash) :
    (it.baseRestore items i).existing .fluidType = some (.integer (int32 (uint 1 it.getFluidType))) := by
  have hc : (items it.id).stackable || (items it.id).isFluidContainer || (items it.id).isSplash := by
    rw [Bool.or_assoc, hf, Bool.or_true]
  rw [baseRestore, existing_restoreFields hs]
  simp only [written, Option.none_or, restoreSubType, doIf, if_neg hn, if_pos hc, setSubType, hid,
    if_pos hf, getSubType]
  rw [setFluidType, existing_setIntAttr _ _ rfl, if_pos rfl]

/-- Without a field for it a new item has count 1. -/
theorem count_baseRestore (hn : ¬ it.getCharges ≠ 0) {n : ℕ} (hi : i = built items it.id n)
    (hc : ¬ ((items it.id).stackable || (items it.id).isFluidContainer || (items it.id).isSplash) = true) :
    (it.baseRestore items i).count = 1 := by
  obtain ⟨-, -, hcount, -⟩ := restoreFields_frame items it (it.restoreSubType items i)
  have hstack : (items it.id).stackable = false := by
    simp only [Bool.or_eq_true, not_or, Bool.not_eq_true] at hc
    exact hc.1.1
  rw [baseRestore, hcount]
  simp only [restoreSubType, doIf, if_neg hn, if_neg hc]
  rw [hi, built, construct_count items (by simp [hstack])]

theorem getSubType_baseRestore (h : it.Fits items) {n : ℕ}
    (hi : i = built items it.id n)
    (hz : Charged (items it.id) → it.getCharges = 0 → i.getIntAttr .charges = 0) :
    (it.baseRestore items i).getSubType items = it.getSubType items := by
  have hid : i.id = it.id := by rw [hi, built_id]
  obtain ⟨h1, -, h3, -⟩ := restoreFields_frame items it (it.restoreSubType items i)
  have hid' : (it.baseRestore items i).id = it.id := by
    rw [baseRestore, h1, (restoreSubType_frame _ _ i).1, hid]
  have hcharges : (it.baseRestore items i).getCharges = it.getCharges := by
    unfold getCharges getUInt16Attr
    rw [getCharges_baseRestore h hi hz]
  by_cases hf : (items it.id).isFluidContainer || (items it.id).isSplash
  · -- the fluid type comes from the count field
    have hn : ¬ it.getCharges ≠ 0 := by
      intro hne
      have hcharged := h.charges hne
      unfold Charged at hcharged
      simp only [Bool.or_eq_true] at hf
      tauto
    have he := existing_fluidType_baseRestore h.nonEmpty hn hid hf
    have hlt := h.fluid hf
    have hu : uint 1 (it.getFluidType : ℤ) = it.getFluidType := uint_natCast (by omega)
    unfold getSubType
    rw [hid', if_pos hf, if_pos hf]
    unfold getFluidType getUInt16Attr at hu hlt he ⊢
    rw [getIntAttr_of_existing he rfl, hu, int32_of_range (int32_range _), int32_of_range (by omega)]
    exact uint_natCast (by omega)
  unfold getSubType
  rw [hid', if_neg hf, if_neg hf]
  have hn : ¬ ((items it.id).isFluidContainer = true ∨ (items it.id).isSplash = true) := by
    simpa using hf
  by_cases hs : (items it.id).stackable
  · -- the count comes from the count field
    have hch : ¬ it.getCharges ≠ 0 := by
      intro hne
      have hcharged := h.charges hne
      unfold Charged at hcharged
      tauto
    have hlt := h.stackable hs
    rw [if_pos hs, if_pos hs, baseRestore, h3]
    simp only [restoreSubType, doIf, if_neg hch, hs, Bool.true_or, ↓reduceIte, setSubType, hid, if_neg hf,
      getSubType, setItemCount]
    rw [uint_natCast (by omega), Nat.mod_eq_of_lt hlt]
  rw [if_neg hs, if_neg hs, hcharges]
  split
  · rfl
  next hz =>
  -- no field: a new item has count 1
  have h0 : (items it.id).charges = 0 := not_not.1 hz
  have hch : ¬ it.getCharges ≠ 0 := by
    intro hne
    have hcharged := h.charges hne
    unfold Charged at hcharged
    tauto
  have hsingle := h.single (by simp [ItemType.hasSubType, h0, hs, not_or.1 hn])
  have hc : ¬ ((items it.id).stackable || (items it.id).isFluidContainer ||
      (items it.id).isSplash) = true := by simp [hs, not_or.1 hn]
  rw [count_baseRestore hch hi hc, hsingle]

theorem getDecaying_baseRestore (h : it.Fits items) {n : ℕ}
    (hi : i = built items it.id n) :
    (it.baseRestore items i).getDecaying = if it.getDecaying = 1 then 2 else it.getDecaying := by
  have he := existing_baseRestore h.nonEmpty h.decays hi (t := .decayState) (by simp) (by simp)
  have hd : it.getDecaying = 0 ∨ it.getDecaying = 1 ∨ it.getDecaying = 2 := by
    unfold getDecaying
    rcases h.decayState with e | e | e <;> rw [e] <;> decide
  unfold written at he
  unfold getDecaying at he hd ⊢
  rcases hd with e | e | e
  · simp only [e] at he
    rw [getIntAttr_of_none (by simpa using he), e]
    decide
  · simp only [e] at he
    rw [getIntAttr_of_existing (by simpa using he) rfl, e]
    decide
  · simp only [e] at he
    rw [getIntAttr_of_existing (by simpa using he) rfl, e]
    decide

/-- The setters that reading the bytes of `it` back runs on an item. -/
def restore (items : UInt16 → ItemType) (it i : Item) : Item :=
  if it.cls = .teleport then { it.baseRestore items i with destPos := it.destPos }
  else it.baseRestore items i

theorem restore_frame (items : UInt16 → ItemType) (it i : Item) : (it.restore items i).id = i.id ∧
    (it.restore items i).cls = i.cls := by
  obtain ⟨h1, h2, -⟩ := restoreFields_frame items it (it.restoreSubType items i)
  obtain ⟨h3, h4, -⟩ := restoreSubType_frame items it i
  unfold restore baseRestore
  split
  · exact ⟨h1.trans h3, h2.trans h4⟩
  · exact ⟨h1.trans h3, h2.trans h4⟩

/-- A teleport reads its destination back. -/
theorem writes_teleDest {i : Item} (hi : i.cls = .teleport) (d : UInt16 × UInt16 × UInt8) (s : Bytes)
    (n : ℕ) :
    unserializeAttr E ⟨i, writeAttr .teleDest
      (write 2 d.1.toNat ++ write 2 d.2.1.toNat ++ write 1 d.2.2.toNat) ++ s, n⟩ =
    unserializeAttr E ⟨{ i with destPos := d }, s, n⟩ := by
  have h1 : uint 2 (d.1.toNat : ℤ) = d.1.toNat := uint_natCast d.1.toNat_lt
  have h2 : uint 2 (d.2.1.toNat : ℤ) = d.2.1.toNat := uint_natCast d.2.1.toNat_lt
  have h3 : uint 1 (d.2.2.toNat : ℤ) = d.2.2.toNat := uint_natCast d.2.2.toNat_lt
  rw [writeAttr, List.append_assoc, unserializeAttr_tag]
  simp only [readAttr, hi, Reader.read, List.append_assoc, get_write, h1, h2, h3, Reader.set,
    UInt16.ofNat_toNat, UInt8.ofNat_toNat]

/-- Reading the bytes of an item back runs `restore`. -/
theorem writes_serializeAttr {i : Item} (hs : it.ShortStrings)
    (h1 : it.cls ≠ .door) (h2 : it.cls ≠ .bed) (hi : i.cls = it.cls) (s : Bytes)
    (n : ℕ) : unserializeAttr E ⟨i, it.serializeAttr E.items ++ s, n⟩ =
      unserializeAttr E ⟨it.restore E.items i, s, n⟩ := by
  unfold serializeAttr restore
  split
  · next h => exact absurd h h1
  · next h => exact absurd h h2
  · next h =>
    have hc : (it.baseRestore E.items i).cls = .teleport := by
      obtain ⟨-, h1, -⟩ := restoreFields_frame E.items it
        (it.restoreSubType E.items i)
      exact h1.trans ((restoreSubType_frame _ _ i).2.1.trans (hi.trans h))
    rw [if_pos h, List.append_assoc, writes_base hs, writes_teleDest hc]
  · next h => rw [if_neg h, writes_base hs]

/-- The bytes of a saveable item, read into a new item of its type, restore it. -/
theorem restored_restore (h : it.Saveable items) {n : ℕ}
    (hi : i = built items it.id n) :
    Restored items it (it.restore items i) := by
  have hf := h.fits
  have hz : Charged (items it.id) → it.getCharges = 0 → i.getIntAttr .charges = 0 :=
    fun hc h0 => absurd h0 (h.charges.2 hc)
  have hb : Restored items it { it.baseRestore items i with destPos := it.destPos } := by
    obtain ⟨h1, h2⟩ := restore_frame items { it with cls := .item } i
    refine ⟨?_, ?_, getSubType_baseRestore hf hi hz, fun t ht => (getStrAttr_baseRestore hf.nonEmpty hf.decays hi ht).1,
      fun t ht => ?_, fun t ht => hasAttribute_baseRestore hf hi ht, getDecaying_baseRestore hf hi,
      fun _ => rfl⟩
    · exact h1.trans (by rw [hi, built_id])
    · exact h2.trans (by rw [hi, built_cls, h.cls])
    · by_cases hc : t = .charges
      · subst hc; exact getCharges_baseRestore hf hi hz
      · exact getIntAttr_baseRestore hf hi ht hc fun _ => h.moveable
  unfold restore
  split
  · exact hb
  · next hc =>
    exact ⟨hb.id, hb.cls, hb.subType, hb.str, hb.int, hb.has, hb.decaying, fun h => absurd h hc⟩

/-- An item without attributes fits if its count does. -/
theorem withinWidths_of_none (ha : it.attributes = none) (hm : (items it.id).moveable)
    (hc : it.count < 256) (hch : ¬ Charged (items it.id)) : it.WithinWidths items := by
  have hi : ∀ t, it.getIntAttr t = 0 := fun t => by unfold getIntAttr; rw [ha]
  have hs : ∀ t, it.getStrAttr t = [] := fun t => by unfold getStrAttr; rw [ha]
  have hh : ∀ t, ¬ it.hasAttribute t := fun t => by unfold hasAttribute; simp [ha]
  have h16 : ∀ t, it.getUInt16Attr t = 0 := fun t => by unfold getUInt16Attr; rw [hi]; rfl
  refine ⟨hm, fun _ => hc, fun _ => ?_, ?_, fun h => absurd h (hh _), fun t _ => ?_,
    fun t _ h => absurd h (hh _), ?_, ?_, ?_, ?_⟩
  · unfold getFluidType
    rw [h16]
    decide
  · unfold getCharges
    simp [h16, hch]
  · rw [hs]
    exact Nat.zero_le _
  all_goals
    rw [hi]
    decide

theorem saveable_of_none (ha : it.attributes = none) (hm : (items it.id).moveable)
    (hc : it.count < 256) (hch : ¬ Charged (items it.id)) (hb : Buildable items it.id)
    (hcls : it.cls = classOf (items it.id))
    (hp : it.cls ≠ .door ∧ it.cls ≠ .bed ∧ it.cls ≠ .depotLocker)
    (hs : ¬ (items it.id).hasSubType → it.count = 1) (hd : (items it.id).decayTime * 1000 = 0) :
    it.Saveable items := by
  have hi : ∀ t, it.getIntAttr t = 0 := fun t => by unfold getIntAttr; rw [ha]
  exact ⟨withinWidths_of_none ha hm hc hch, hb, hcls, hp, hs, fun h => absurd hd h, .inl (hi _),
    .inl (hi _)⟩

end

end Item
end ForgottenServer
