/-
# Item types, items and their attributes

An item is a type id, a stack count and an optional attribute record; every
fact about the type is read from the table `Item::items`, here the parameter
`items`. The class of the object (`Item`, `Container`, `Door` and so on) is
chosen once, by `Item::CreateItem`, and never changes. The attribute record is
a list of typed values together with a bit mask of the types in it; that the
two agree is carried by the structure.

Key definitions: `ItemType`, `ItemAttributes`, `Item`, `createItem`,
`Item.getSubType`, `Item.setSubType`, `Item.equals`.
Key theorems: `ItemAttributes.existing_set`, `Item.equals_iff`.
-/
import Mathlib.Data.Finset.Dedup
import Mathlib.Data.List.Nodup
import Mathlib.Tactic

namespace ForgottenServer

/-- The bytes of a `std::string` or of a stream. -/
abbrev Bytes := List UInt8

/-- `itemgroup_t` -/
inductive ItemGroup
  | none | ground | container | weapon | ammunition | armor | charges | teleport | magicField
  | writeable | key | splash | fluid | door | deprecated
  deriving DecidableEq, Repr

/-- `ItemTypes_t` -/
inductive ItemTypes
  | none | depot | mailbox | trashHolder | container | door | magicField | teleport | bed | key
  | rune
  deriving DecidableEq, Repr

/-- `WeaponType_t` -/
inductive WeaponType
  | none | sword | club | axe | shield | distance | wand | ammo
  deriving DecidableEq, Repr

/-- The fields of `ItemType` that the modelled functions read, with the values
of its constructor. -/
structure ItemType where
  group : ItemGroup := .none
  type : ItemTypes := .none
  id : UInt16 := 0
  stackable : Bool := false
  weight : UInt32 := 0
  decayTime : UInt32 := 0
  decayTo : ℤ := -1
  stopTime : Bool := false
  charges : UInt32 := 0
  maxItems : ℕ := 8
  alwaysOnTop : Bool := false
  alwaysOnTopOrder : ℕ := 0
  moveable : Bool := false
  pickupable : Bool := false
  canWriteText : Bool := false
  slotPosition : UInt16 := 48
  weaponType : WeaponType := .none
  blockSolid : Bool := false
  blockPathFind : Bool := false
  isVertical : Bool := false
  isHorizontal : Bool := false
  isHangable : Bool := false
  hasHeight : Bool := false
  allowPickupable : Bool := false
  replaceable : Bool := true
  -- the seven bits of `TILESTATE_FLOORCHANGE`
  floorChange : BitVec 7 := 0
  deriving DecidableEq, Repr

namespace ItemType

def isGroundTile (it : ItemType) : Bool := it.group = .ground
def isContainer (it : ItemType) : Bool := it.group = .container
def isSplash (it : ItemType) : Bool := it.group = .splash
def isFluidContainer (it : ItemType) : Bool := it.group = .fluid
def isDoor (it : ItemType) : Bool := it.type = .door
def isMagicField (it : ItemType) : Bool := it.type = .magicField
def isTeleport (it : ItemType) : Bool := it.type = .teleport
def isDepot (it : ItemType) : Bool := it.type = .depot
def isMailbox (it : ItemType) : Bool := it.type = .mailbox
def isTrashHolder (it : ItemType) : Bool := it.type = .trashHolder
def isBed (it : ItemType) : Bool := it.type = .bed
def isRune (it : ItemType) : Bool := it.type = .rune

def hasSubType (it : ItemType) : Bool :=
  it.isFluidContainer || it.isSplash || it.stackable || it.charges ≠ 0

end ItemType

/-! ### Attributes -/

/-- `itemAttrTypes` -/
inductive ItemAttr
  | actionId | uniqueId | description | text | date | writer | name | article | pluralName
  | weight | attack | defense | extraDefense | armor | hitChance | shootRange | owner | duration
  | decayState | corpseOwner | charges | fluidType | doorId
  deriving DecidableEq, Repr

/-- `ItemAttributes::isStrAttrType` -/
def ItemAttr.isStr : ItemAttr → Bool
  | .description | .text | .writer | .name | .article | .pluralName => true
  | _ => false

/-- `ItemAttributes::isIntAttrType` -/
def ItemAttr.isInt (t : ItemAttr) : Bool := !t.isStr

/-- The union of `Attribute`: a 64-bit integer or a string. -/
inductive AttrValue
  | integer (n : ℤ)
  | string (s : Bytes)
  deriving DecidableEq, Repr

def AttrValue.isStr : AttrValue → Bool
  | .integer _ => false
  | .string _ => true

/-- `ItemAttributes`: a list of attributes, at most one of each type, and the
mask of the types in it. -/
structure ItemAttributes where
  attributes : List (ItemAttr × AttrValue)
  attributeBits : Finset ItemAttr
  nodup : (attributes.map Prod.fst).Nodup
  mem_bits : ∀ t, t ∈ attributeBits ↔ t ∈ attributes.map Prod.fst
  typed : ∀ p ∈ attributes, p.2.isStr = p.1.isStr
  deriving DecidableEq

namespace ItemAttributes

/-- `new ItemAttributes()` -/
def empty : ItemAttributes := ⟨[], ∅, List.nodup_nil, by simp, by simp⟩

def hasAttribute (a : ItemAttributes) (t : ItemAttr) : Bool := t ∈ a.attributeBits

/-- `getExistingAttr` -/
def existing (a : ItemAttributes) (t : ItemAttr) : Option AttrValue :=
  if a.hasAttribute t then a.attributes.lookup t else none

private theorem map_fst_replace (l : List (ItemAttr × AttrValue)) (t : ItemAttr) (v : AttrValue) :
    (l.map fun p => if p.1 = t then (t, v) else p).map Prod.fst = l.map Prod.fst := by
  rw [List.map_map]
  exact List.map_congr_left fun p _ => by by_cases h : p.1 = t <;> simp [h]

/-- `getAttr(type).value = v`: the attribute of this type, added in front when
there is none. -/
def set (a : ItemAttributes) (t : ItemAttr) (v : AttrValue) (hv : v.isStr = t.isStr) :
    ItemAttributes :=
  if h : t ∈ a.attributeBits then
    { attributes := a.attributes.map fun p => if p.1 = t then (t, v) else p
      attributeBits := a.attributeBits
      nodup := by rw [map_fst_replace]; exact a.nodup
      mem_bits := by rw [map_fst_replace]; exact a.mem_bits
      typed := fun p hp => by
        obtain ⟨q, hq, rfl⟩ := List.mem_map.1 hp
        split
        · exact hv
        · exact a.typed q hq }
  else
    { attributes := (t, v) :: a.attributes
      attributeBits := insert t a.attributeBits
      nodup := List.nodup_cons.2 ⟨fun hm => h ((a.mem_bits t).2 hm), a.nodup⟩
      mem_bits := by simp [a.mem_bits]
      typed := fun p hp => by
        rcases List.mem_cons.1 hp with rfl | hp
        · exact hv
        · exact a.typed p hp }

private theorem mem_map_fst_filter (l : List (ItemAttr × AttrValue)) (t u : ItemAttr) :
    u ∈ (l.filter fun p => p.1 ≠ t).map Prod.fst ↔ u ≠ t ∧ u ∈ l.map Prod.fst := by
  simp only [List.mem_map, List.mem_filter, decide_eq_true_eq]
  constructor
  · rintro ⟨p, ⟨hp, hne⟩, rfl⟩
    exact ⟨hne, p, hp, rfl⟩
  · rintro ⟨hne, p, hp, rfl⟩
    exact ⟨p, ⟨hp, hne⟩, rfl⟩

def removeAttribute (a : ItemAttributes) (t : ItemAttr) : ItemAttributes :=
  { attributes := a.attributes.filter fun p => p.1 ≠ t
    attributeBits := a.attributeBits.erase t
    nodup := (List.filter_sublist.map _).nodup a.nodup
    mem_bits := fun u => by rw [mem_map_fst_filter, Finset.mem_erase, a.mem_bits]
    typed := fun p hp => a.typed p (List.mem_filter.1 hp).1 }

/-- `getIntAttr` -/
def getIntAttr (a : ItemAttributes) (t : ItemAttr) : ℤ :=
  if t.isInt then
    match a.existing t with
    | some (.integer n) => n
    | _ => 0
  else 0

/-- `getStrAttr` -/
def getStrAttr (a : ItemAttributes) (t : ItemAttr) : Bytes :=
  if t.isStr then
    match a.existing t with
    | some (.string s) => s
    | _ => []
  else []

/-- `setIntAttr` -/
def setIntAttr (a : ItemAttributes) (t : ItemAttr) (n : ℤ) : ItemAttributes :=
  if h : t.isInt then a.set t (.integer n) (by simpa [ItemAttr.isInt, AttrValue.isStr] using h)
  else a

/-- `setStrAttr`: an empty string is not set. -/
def setStrAttr (a : ItemAttributes) (t : ItemAttr) (s : Bytes) : ItemAttributes :=
  if h : t.isStr ∧ s ≠ [] then a.set t (.string s) (by rw [h.1]; rfl) else a

variable {a : ItemAttributes} {t u : ItemAttr} {v : AttrValue}

theorem lookup_isSome : ∀ {l : List (ItemAttr × AttrValue)}, (l.lookup t).isSome ↔ t ∈ l.map Prod.fst
  | [] => by simp
  | (u, v) :: l => by
    by_cases h : t = u
    · subst h; simp
    · have hb : (t == u) = false := by simpa using h
      rw [List.lookup_cons, hb, lookup_isSome]
      simp [h]

theorem existing_eq_lookup (a : ItemAttributes) (t : ItemAttr) :
    a.existing t = a.attributes.lookup t := by
  unfold existing hasAttribute
  by_cases h : t ∈ a.attributeBits
  · simp [h]
  · rw [a.mem_bits, ← lookup_isSome] at h
    simp [a.mem_bits, ← lookup_isSome, Option.not_isSome_iff_eq_none.1 h]

theorem hasAttribute_eq (a : ItemAttributes) (t : ItemAttr) :
    a.hasAttribute t = (a.existing t).isSome := by
  rw [Bool.eq_iff_iff, existing_eq_lookup, lookup_isSome, ← a.mem_bits]
  simp [hasAttribute]

@[simp] theorem existing_empty (t : ItemAttr) : empty.existing t = none := rfl

theorem lookup_replace {t u : ItemAttr} {v : AttrValue} :
    ∀ l : List (ItemAttr × AttrValue), t ∈ l.map Prod.fst →
    (l.map fun p => if p.1 = t then (t, v) else p).lookup u =
      if u = t then some v else l.lookup u
  | [], h => by simp at h
  | (w, x) :: l, h => by
    by_cases hw : w = t
    · subst hw
      by_cases hu : u = w
      · subst hu; simp
      · have hb : (u == w) = false := by simpa using hu
        have hl : (l.map fun p => if p.1 = w then (w, v) else p).lookup u = l.lookup u := by
          by_cases hm : w ∈ l.map Prod.fst
          · rw [lookup_replace l hm, if_neg hu]
          · have hid : ∀ p ∈ l, (if p.1 = w then (w, v) else p) = id p := fun p hp =>
              if_neg fun e => hm (List.mem_map.2 ⟨p, hp, e⟩)
            rw [List.map_congr_left hid, List.map_id]
        simp only [List.map_cons, if_true, List.lookup_cons, hb, if_neg hu, hl]
    · have hm : t ∈ l.map Prod.fst := by
        rcases List.mem_cons.1 h with e | e
        · exact absurd e.symm hw
        · exact e
      simp only [List.map_cons, if_neg hw, List.lookup_cons, lookup_replace l hm]
      by_cases hu : u = w
      · subst hu; simp [hw]
      · have hb : (u == w) = false := by simpa using hu
        simp [hb]

/-- Reading after a write. -/
@[simp] theorem existing_set {hv : v.isStr = t.isStr} :
    (a.set t v hv).existing u = if u = t then some v else a.existing u := by
  rw [existing_eq_lookup, existing_eq_lookup]
  unfold set
  split
  · next h => exact lookup_replace _ ((a.mem_bits t).1 h)
  · by_cases hu : u = t
    · subst hu; simp
    · have hb : (u == t) = false := by simpa using hu
      simp [List.lookup_cons, hb, hu]

theorem lookup_filter {t u : ItemAttr} : ∀ l : List (ItemAttr × AttrValue),
    (l.filter fun p => p.1 ≠ t).lookup u = if u = t then none else l.lookup u
  | [] => by simp
  | (w, x) :: l => by
    by_cases hw : w = t
    · subst hw
      rw [List.filter_cons_of_neg (by simp), lookup_filter l]
      by_cases hu : u = w
      · simp [hu]
      · have hb : (u == w) = false := by simpa using hu
        simp [List.lookup_cons, hb, hu]
    · rw [List.filter_cons_of_pos (by simpa using hw), List.lookup_cons, List.lookup_cons,
        lookup_filter l]
      by_cases hu : u = w
      · subst hu; simp [hw]
      · have hb : (u == w) = false := by simpa using hu
        simp [hb]

/-- Reading after a removal. -/
@[simp] theorem existing_removeAttribute :
    (a.removeAttribute t).existing u = if u = t then none else a.existing u := by
  rw [existing_eq_lookup, existing_eq_lookup]
  exact lookup_filter _

theorem mem_iff_lookup {t : ItemAttr} {v : AttrValue} : ∀ {l : List (ItemAttr × AttrValue)},
    (l.map Prod.fst).Nodup → ((t, v) ∈ l ↔ l.lookup t = some v)
  | [], _ => by simp
  | (w, x) :: l, h => by
    obtain ⟨hw, hl⟩ := List.nodup_cons.1 h
    have ih := mem_iff_lookup (t := t) (v := v) hl
    by_cases ht : t = w
    · subst ht
      have : (t, v) ∉ l := fun hm => hw (List.mem_map.2 ⟨_, hm, rfl⟩)
      simp [this, eq_comm]
    · have hb : (t == w) = false := by simpa using ht
      simp [List.lookup_cons, hb, ht, ih]

theorem mem_iff_existing : (t, v) ∈ a.attributes ↔ a.existing t = some v := by
  rw [existing_eq_lookup, mem_iff_lookup a.nodup]

end ItemAttributes

/-! ### Items -/

/-- The class of an item object. -/
inductive ItemClass
  | item | container | depotLocker | teleport | magicField | door | trashHolder | mailbox | bed
  deriving DecidableEq, Repr

/-- An item object: the members of `Item`, and those that `Teleport`,
`DepotLocker` and `BedItem` add. -/
structure Item where
  cls : ItemClass
  id : UInt16
  count : ℕ
  attributes : Option ItemAttributes
  destPos : UInt16 × UInt16 × UInt8 := (0, 0, 0)
  depotId : UInt16 := 0
  sleeperGUID : UInt32 := 0
  sleepStart : UInt64 := 0
  deriving DecidableEq

/-- Conversion to `int32_t`. -/
def int32 (n : ℤ) : ℤ := if n % 2 ^ 32 < 2 ^ 31 then n % 2 ^ 32 else n % 2 ^ 32 - 2 ^ 32

/-- Conversion to `int8_t`. -/
def int8 (n : ℤ) : ℤ := if n % 2 ^ 8 < 2 ^ 7 then n % 2 ^ 8 else n % 2 ^ 8 - 2 ^ 8

/-- Conversion to an unsigned type of `w` bytes. -/
def uint (w : ℕ) (n : ℤ) : ℕ := (n % (256 ^ w : ℕ)).toNat

namespace Item

/-- `getContainer() != nullptr` -/
def isContainer (it : Item) : Bool :=
  it.cls = .container || it.cls = .depotLocker

def getAttributes (it : Item) : ItemAttributes := it.attributes.getD .empty

def hasAttribute (it : Item) (t : ItemAttr) : Bool :=
  match it.attributes with
  | some a => a.hasAttribute t
  | none => false

def getIntAttr (it : Item) (t : ItemAttr) : ℤ :=
  match it.attributes with
  | some a => int32 (a.getIntAttr t)
  | none => 0

def getStrAttr (it : Item) (t : ItemAttr) : Bytes :=
  match it.attributes with
  | some a => a.getStrAttr t
  | none => []

def setIntAttr (it : Item) (t : ItemAttr) (n : ℤ) : Item :=
  { it with attributes := some (it.getAttributes.setIntAttr t (int32 n)) }

def setStrAttr (it : Item) (t : ItemAttr) (s : Bytes) : Item :=
  { it with attributes := some (it.getAttributes.setStrAttr t s) }

/-- `getActionId`, `getUniqueId`, `getCharges`, `getFluidType`: a 16-bit attribute. -/
def getUInt16Attr (it : Item) (t : ItemAttr) : ℕ := uint 2 (it.getIntAttr t)

def getActionId (it : Item) : ℕ := it.getUInt16Attr .actionId
def getCharges (it : Item) : ℕ := it.getUInt16Attr .charges
def getFluidType (it : Item) : ℕ := it.getUInt16Attr .fluidType
def getDate (it : Item) : ℤ := it.getIntAttr .date
def getText (it : Item) : Bytes := it.getStrAttr .text
def getWriter (it : Item) : Bytes := it.getStrAttr .writer
def getSpecialDescription (it : Item) : Bytes := it.getStrAttr .description

/-- `setActionId`: ids below 100 are raised to 100. -/
def setActionId (it : Item) (n : ℕ) : Item := it.setIntAttr .actionId (if n < 100 then 100 else n)
def setCharges (it : Item) (n : ℕ) : Item := it.setIntAttr .charges n
def setFluidType (it : Item) (n : ℕ) : Item := it.setIntAttr .fluidType n
def setDuration (it : Item) (n : ℤ) : Item := it.setIntAttr .duration n

def removeAttribute (it : Item) (t : ItemAttr) : Item :=
  { it with attributes := it.attributes.map (·.removeAttribute t) }

/-- `setItemCount`: the parameter is a byte. -/
def setItemCount (it : Item) (n : ℕ) : Item := { it with count := n % 256 }

/-- The attribute of a type, if the item has it. -/
def existing (it : Item) (t : ItemAttr) : Option AttrValue :=
  it.attributes.bind fun a => a.existing t

section Attributes

variable {it : Item} {t u : ItemAttr}

theorem hasAttribute_eq (it : Item) (t : ItemAttr) :
    it.hasAttribute t = (it.existing t).isSome := by
  unfold hasAttribute existing
  cases it.attributes with
  | none => rfl
  | some a => exact a.hasAttribute_eq t

theorem existing_removeAttribute (it : Item) (t u : ItemAttr) :
    (it.removeAttribute t).existing u = if u = t then none else it.existing u := by
  unfold removeAttribute existing
  cases it.attributes with
  | none => exact (ite_self none).symm
  | some a => exact ItemAttributes.existing_removeAttribute

theorem existing_getAttributes (it : Item) (t : ItemAttr) :
    it.getAttributes.existing t = it.existing t := by
  unfold getAttributes existing
  cases it.attributes <;> rfl

theorem getIntAttr_of_existing {n : ℤ} (h : it.existing t = some (.integer n))
    (ht : t.isInt) : it.getIntAttr t = int32 n := by
  unfold existing at h
  unfold getIntAttr
  cases ha : it.attributes with
  | none => simp [ha] at h
  | some a =>
    have : a.existing t = some (.integer n) := by simpa [ha] using h
    simp [ItemAttributes.getIntAttr, ht, this]

theorem getIntAttr_of_none (h : it.existing t = none) : it.getIntAttr t = 0 := by
  unfold existing at h
  unfold getIntAttr
  cases ha : it.attributes with
  | none => rfl
  | some a =>
    have : a.existing t = none := by simpa [ha] using h
    simp [ItemAttributes.getIntAttr, this, int32]

theorem getStrAttr_of_existing {s : Bytes} (h : it.existing t = some (.string s))
    (ht : t.isStr) : it.getStrAttr t = s := by
  unfold existing at h
  unfold getStrAttr
  cases ha : it.attributes with
  | none => simp [ha] at h
  | some a =>
    have : a.existing t = some (.string s) := by simpa [ha] using h
    simp [ItemAttributes.getStrAttr, ht, this]

theorem getStrAttr_of_none (h : it.existing t = none) : it.getStrAttr t = [] := by
  unfold existing at h
  unfold getStrAttr
  cases ha : it.attributes with
  | none => rfl
  | some a =>
    have : a.existing t = none := by simpa [ha] using h
    simp [ItemAttributes.getStrAttr, this]

/-- An integer attribute holds an integer. -/
theorem existing_int (ht : t.isInt) (h : it.existing t ≠ none) :
    ∃ n, it.existing t = some (.integer n) := by
  unfold existing at h ⊢
  cases ha : it.attributes with
  | none => simp [ha] at h
  | some a =>
    obtain ⟨v, hv⟩ := Option.ne_none_iff_exists'.1 h
    have hm : (t, v) ∈ a.attributes := ItemAttributes.mem_iff_existing.2 (by simpa [ha] using hv)
    cases v with
    | integer n => exact ⟨n, by simpa [ha] using hv⟩
    | string s =>
      have := a.typed _ hm
      simp only [AttrValue.isStr, ItemAttr.isInt, Bool.not_eq_true'] at this ht
      simp [ht] at this

/-- A string attribute holds a string. -/
theorem existing_str (ht : t.isStr) (h : it.existing t ≠ none) :
    ∃ s, it.existing t = some (.string s) := by
  unfold existing at h ⊢
  cases ha : it.attributes with
  | none => simp [ha] at h
  | some a =>
    obtain ⟨v, hv⟩ := Option.ne_none_iff_exists'.1 h
    have hm : (t, v) ∈ a.attributes := ItemAttributes.mem_iff_existing.2 (by simpa [ha] using hv)
    cases v with
    | string s => exact ⟨s, by simpa [ha] using hv⟩
    | integer n =>
      have := a.typed _ hm
      simp [AttrValue.isStr, ht] at this

theorem getIntAttr_congr {a b : Item} {t : ItemAttr} (ht : t.isInt)
    (h : a.existing t = b.existing t) : a.getIntAttr t = b.getIntAttr t := by
  by_cases h0 : a.existing t = none
  · rw [getIntAttr_of_none h0, getIntAttr_of_none (h ▸ h0)]
  · obtain ⟨n, hn⟩ := existing_int ht h0
    rw [getIntAttr_of_existing hn ht, getIntAttr_of_existing (h ▸ hn) ht]

theorem getStrAttr_congr {a b : Item} {t : ItemAttr} (ht : t.isStr)
    (h : a.existing t = b.existing t) : a.getStrAttr t = b.getStrAttr t := by
  by_cases h0 : a.existing t = none
  · rw [getStrAttr_of_none h0, getStrAttr_of_none (h ▸ h0)]
  · obtain ⟨s, hs⟩ := existing_str ht h0
    rw [getStrAttr_of_existing hs ht, getStrAttr_of_existing (h ▸ hs) ht]

theorem existing_setIntAttr (it : Item) {t : ItemAttr} (n : ℤ) (ht : t.isInt) (u : ItemAttr) :
    (it.setIntAttr t n).existing u =
      if u = t then some (.integer (int32 n)) else it.existing u := by
  unfold setIntAttr ItemAttributes.setIntAttr existing
  rw [dif_pos ht, Option.bind_some, ItemAttributes.existing_set, existing_getAttributes]
  rfl

theorem existing_setStrAttr (it : Item) {t : ItemAttr} {s : Bytes} (ht : t.isStr) (hs : s ≠ [])
    (u : ItemAttr) : (it.setStrAttr t s).existing u =
      if u = t then some (.string s) else it.existing u := by
  unfold setStrAttr ItemAttributes.setStrAttr existing
  rw [dif_pos ⟨ht, hs⟩, Option.bind_some, ItemAttributes.existing_set, existing_getAttributes]
  rfl

@[simp] theorem setIntAttr_id (n : ℤ) : (it.setIntAttr t n).id = it.id := rfl
@[simp] theorem setIntAttr_cls (n : ℤ) : (it.setIntAttr t n).cls = it.cls := rfl
@[simp] theorem setIntAttr_count (n : ℤ) : (it.setIntAttr t n).count = it.count := rfl
@[simp] theorem setStrAttr_id (s : Bytes) : (it.setStrAttr t s).id = it.id := rfl
@[simp] theorem setStrAttr_cls (s : Bytes) : (it.setStrAttr t s).cls = it.cls := rfl
@[simp] theorem setStrAttr_count (s : Bytes) : (it.setStrAttr t s).count = it.count := rfl

end Attributes

section Types

variable (items : UInt16 → ItemType)

def getSubType (it : Item) : ℕ :=
  if (items it.id).isFluidContainer || (items it.id).isSplash then it.getFluidType
  else if (items it.id).stackable then it.count
  else if (items it.id).charges ≠ 0 then it.getCharges
  else it.count

def setSubType (it : Item) (n : ℕ) : Item :=
  if (items it.id).isFluidContainer || (items it.id).isSplash then it.setFluidType n
  else if (items it.id).stackable then it.setItemCount n
  else if (items it.id).charges ≠ 0 then it.setCharges n
  else it.setItemCount n

/-- `Item::setDefaultSubtype` -/
def setDefaultSubtype (it : Item) : Item :=
  let type := items it.id
  let it := it.setItemCount 1
  if type.charges ≠ 0 then
    if type.stackable then it.setItemCount type.charges.toNat
    else it.setCharges (type.charges.toNat % 2 ^ 16)
  else it

/-- `Item::setID` -/
def setID (it : Item) (newid : UInt16) : Item :=
  let prevIt := items it.id
  let type := items newid
  let newDuration := type.decayTime * 1000
  let it := { it with id := newid }
  let it :=
    if newDuration = 0 ∧ ¬ type.stopTime ∧ type.decayTo < 0 then
      (it.removeAttribute .decayState).removeAttribute .duration
    else it
  let it := it.removeAttribute .corpseOwner
  if 0 < newDuration ∧ (¬ prevIt.stopTime ∨ ¬ it.hasAttribute .duration) then
    (it.setIntAttr .decayState 0).setDuration newDuration.toNat
  else it

/-- `getDefaultDuration`, in 32-bit arithmetic. -/
def getDefaultDuration (it : Item) : UInt32 := (items it.id).decayTime * 1000

def setDefaultDuration (it : Item) : Item :=
  if it.getDefaultDuration items ≠ 0 then it.setDuration (it.getDefaultDuration items).toNat
  else it

/-- `getBaseWeight` -/
def getBaseWeight (it : Item) : UInt32 :=
  if it.hasAttribute .weight then .ofInt (it.getIntAttr .weight) else (items it.id).weight

/-- `Item::getWeight`: the weight of the item without what it holds. -/
def getWeight (it : Item) : UInt32 :=
  if (items it.id).stackable then it.getBaseWeight items * .ofNat (max 1 it.count)
  else it.getBaseWeight items

/-- The constructor `Item::Item(_type, _count)`. -/
def construct (cls : ItemClass) (type : UInt16) (count : ℕ) : Item :=
  let it := items type
  let i : Item := { cls, id := type, count := 1, attributes := none }
  setDefaultDuration items <|
    if it.isFluidContainer || it.isSplash then i.setFluidType count
    else if it.stackable then
      if count ≠ 0 then i.setItemCount count
      else if it.charges ≠ 0 then i.setItemCount it.charges.toNat
      else i
    else if it.charges ≠ 0 then
      if count ≠ 0 then i.setCharges count
      else i.setCharges (it.charges.toNat % 2 ^ 16)
    else i

/-- The class that `Item::CreateItem` chooses for a type. -/
def classOf (it : ItemType) : ItemClass :=
  if it.isDepot then .depotLocker
  else if it.isContainer then .container
  else if it.isTeleport then .teleport
  else if it.isMagicField then .magicField
  else if it.isDoor then .door
  else if it.isTrashHolder then .trashHolder
  else if it.isMailbox then .mailbox
  else if it.isBed then .bed
  else .item

/-- `Item::CreateItem(_type, _count)` -/
def createItem (type : UInt16) (count : ℕ) : Option Item :=
  let it := items type
  if it.group = .deprecated then none
  else
    let count := if it.stackable && count = 0 then 1 else count
    if it.id ≠ 0 then
      match classOf it with
      | .item =>
        if 2210 ≤ it.id ∧ it.id ≤ 2212 then some (construct items .item (type - 3) count)
        else if it.id = 2215 ∨ it.id = 2216 then some (construct items .item (type - 2) count)
        else if 2202 ≤ it.id ∧ it.id ≤ 2206 then some (construct items .item (type - 37) count)
        else some (construct items .item type count)
      -- the other constructors take no count
      | cls => some (construct items cls type 0)
    else none

/-- The ids in whose place `Item::CreateItem` builds another. -/
def Rewritten (id : UInt16) : Prop :=
  (2210 ≤ id ∧ id ≤ 2212) ∨ (id = 2215 ∨ id = 2216) ∨ (2202 ≤ id ∧ id ≤ 2206)

instance (id : UInt16) : Decidable (Rewritten id) := inferInstanceAs (Decidable (_ ∨ _))

/-- A type that `Item::CreateItem` can build. -/
structure Known (id : UInt16) : Prop where
  group : (items id).group ≠ .deprecated
  id_ne : (items id).id ≠ 0

/-- A type that `Item::CreateItem` can build without id rewriting. -/
structure Buildable (id : UInt16) : Prop extends Known items id where
  kept : classOf (items id) = .item → ¬ Rewritten (items id).id

/-- What `Item::CreateItem` builds for a buildable type: only the plain class
takes the count. -/
def built (id : UInt16) (n : ℕ) : Item :=
  construct items (classOf (items id)) id
    (if classOf (items id) = .item then if (items id).stackable && n = 0 then 1 else n else 0)

theorem createItem_eq {items : UInt16 → ItemType} {id : UInt16} (h : Buildable items id) (n : ℕ) :
    createItem items id n = some (built items id n) := by
  unfold createItem built
  simp only [if_neg h.group, if_pos h.id_ne]
  split
  · next hc =>
    have := h.kept hc
    unfold Rewritten at this
    push Not at this
    obtain ⟨h1, h2, h3⟩ := this
    rw [if_neg (by simpa using h1), if_neg (by simpa using h2), if_neg (by simpa using h3), if_pos hc, hc]
  · next hc => rw [if_neg hc]

section Construct

variable {cls : ItemClass} {id : UInt16} {n : ℕ}

theorem setDefaultDuration_id (it : Item) : (it.setDefaultDuration items).id = it.id := by
  unfold setDefaultDuration; split <;> rfl

theorem setDefaultDuration_cls (it : Item) : (it.setDefaultDuration items).cls = it.cls := by
  unfold setDefaultDuration; split <;> rfl

theorem setDefaultDuration_count (it : Item) : (it.setDefaultDuration items).count = it.count := by
  unfold setDefaultDuration; split <;> rfl

theorem existing_setDefaultDuration (it : Item) {t : ItemAttr}
    (ht : t = .duration → it.getDefaultDuration items = 0) :
    (it.setDefaultDuration items).existing t = it.existing t := by
  unfold setDefaultDuration
  split
  · next h => rw [setDuration, existing_setIntAttr _ _ rfl, if_neg fun e => h (ht e)]
  · rfl

@[simp] theorem construct_id : (construct items cls id n).id = id := by
  unfold construct
  rw [setDefaultDuration_id]
  simp only [apply_ite Item.id, setFluidType, setCharges, setItemCount, setIntAttr_id, ite_self]

@[simp] theorem construct_cls : (construct items cls id n).cls = cls := by
  unfold construct
  rw [setDefaultDuration_cls]
  simp only [apply_ite Item.cls, setFluidType, setCharges, setItemCount, setIntAttr_cls, ite_self]

theorem createItem_known (h : Known items id) (n : ℕ) :
    ∃ i, createItem items id n = some i ∧ i.cls = classOf (items id) := by
  unfold createItem
  simp only [if_neg h.group, if_pos h.id_ne]
  split
  · next hc =>
    rw [hc]
    split_ifs <;> exact ⟨_, rfl, construct_cls items⟩
  · exact ⟨_, rfl, construct_cls items⟩

@[simp] theorem built_id : (built items id n).id = id := construct_id items

@[simp] theorem built_cls : (built items id n).cls = classOf (items id) := construct_cls items

/-- An item of a type that is not counted is built with count 1. -/
theorem construct_count (h : (items id).isFluidContainer || (items id).isSplash ||
    !(items id).stackable) : (construct items cls id n).count = 1 := by
  unfold construct
  rw [setDefaultDuration_count]
  simp only [Bool.or_eq_true, Bool.not_eq_true'] at h ⊢
  by_cases hf : (items id).isFluidContainer ∨ (items id).isSplash
  · rw [if_pos hf]; rfl
  · rw [if_neg hf, if_neg (by simpa [hf] using h)]
    simp only [apply_ite Item.count, setCharges, setIntAttr_count, ite_self]

theorem existing_construct_charges (h : (items id).isFluidContainer || (items id).isSplash ||
    (items id).stackable || (items id).charges = 0) :
    (construct items cls id n).existing .charges = none := by
  unfold construct
  rw [existing_setDefaultDuration _ _ (by simp)]
  have hf (i : Item) (m : ℕ) : (i.setFluidType m).existing .charges = i.existing .charges := by
    rw [setFluidType, existing_setIntAttr _ _ rfl, if_neg (by simp)]
  by_cases h1 : (items id).isFluidContainer || (items id).isSplash
  · rw [if_pos h1, hf]; rfl
  rw [if_neg h1]
  by_cases h2 : (items id).stackable
  · rw [if_pos h2]
    simp only [apply_ite (fun i : Item => i.existing .charges)]
    simp [setItemCount, existing]
  · rw [if_neg h2, if_neg (by simpa [h1, h2] using h)]; rfl

/-- A new item has charges, a fluid type and its default duration at most. -/
theorem existing_construct {t : ItemAttr} (h1 : t ≠ .charges) (h2 : t ≠ .fluidType)
    (h3 : t = .duration → (items id).decayTime * 1000 = 0) :
    (construct items cls id n).existing t = none := by
  unfold construct
  rw [existing_setDefaultDuration]
  rotate_left
  · unfold getDefaultDuration
    simpa only [apply_ite Item.id, setFluidType, setCharges, setItemCount, setIntAttr_id,
      ite_self] using h3
  have hf (i : Item) (m : ℕ) : (i.setFluidType m).existing t = i.existing t := by
    rw [setFluidType, existing_setIntAttr _ _ rfl, if_neg h2]
  have hc (i : Item) (m : ℕ) : (i.setCharges m).existing t = i.existing t := by
    rw [setCharges, existing_setIntAttr _ _ rfl, if_neg h1]
  have hn (i : Item) (m : ℕ) : (i.setItemCount m).existing t = i.existing t := rfl
  simp only [apply_ite (fun i : Item => i.existing t), hf, hc, hn, ite_self]
  rfl

end Construct

end Types

/-- `Item::equals` -/
def equals (a b : Item) : Bool :=
  a.id = b.id &&
  match a.attributes, b.attributes with
  | none, none => true
  | some x, some y =>
    x.attributeBits = y.attributeBits &&
    x.attributes.all fun p => y.attributes.all fun q => !(p.1 = q.1 && p.2 ≠ q.2)
  | _, _ => false

/-- Two items are equal when they have the same id and the same attributes. -/
theorem equals_iff {a b : Item} : a.equals b ↔
    a.id = b.id ∧ a.attributes.map ItemAttributes.existing =
      b.attributes.map ItemAttributes.existing := by
  unfold equals
  rcases a.attributes with - | x <;> rcases b.attributes with - | y
  · simp
  · simp
  · simp
  simp only [Bool.and_eq_true, decide_eq_true_eq, List.all_eq_true, Bool.not_eq_true',
    Bool.and_eq_false_imp, Option.map_some, Option.some.injEq, Prod.forall]
  refine and_congr_right fun _ => ⟨fun ⟨hb, hv⟩ => ?_, fun h => ⟨?_, ?_⟩⟩
  · funext t
    have hs : (x.existing t).isSome = (y.existing t).isSome := by
      rw [← ItemAttributes.hasAttribute_eq, ← ItemAttributes.hasAttribute_eq]
      unfold ItemAttributes.hasAttribute
      rw [hb]
    rcases hx : x.existing t with - | v
    · rw [hx] at hs
      exact (Option.not_isSome_iff_eq_none.1 (by simp [← hs])).symm
    · obtain ⟨w, hw⟩ := Option.isSome_iff_exists.1 (hs ▸ by simp [hx] : (y.existing t).isSome)
      have := hv t v (ItemAttributes.mem_iff_existing.2 hx) t w
        (ItemAttributes.mem_iff_existing.2 hw) rfl
      rw [hw]
      simpa using this
  · ext t
    have := ItemAttributes.hasAttribute_eq x t
    rw [h, ← ItemAttributes.hasAttribute_eq y t] at this
    simpa [ItemAttributes.hasAttribute] using this
  · intro t v hv u w hw e
    subst e
    rw [ItemAttributes.mem_iff_existing] at hv hw
    rw [h, hw] at hv
    simpa using hv.symm

end Item
end ForgottenServer
