/-
# Map descriptions

`GetMapDescription` describes a box of cells, floor by floor and column by
column. A cell with a tile is described by its things; the empty cells behind
it are counted, and the count is written before the next tile, after 255 cells,
or at the end. The counter runs on from floor to floor. The client reads things
until it finds such a count, which is told apart by its second byte, `0xFF`.

Key definitions: `addItem`, `AddCreature`, `GetFloorDescription`, `GetMapDescription`,
`mapCells`, `describe`, `readTile`.
Key theorems: `GetMapDescription_eq`, `describe_bytes`, `decode_GetMapDescription`,
`legible_creature`.
-/
import Mathlib.Tactic
import ForgottenServer.Item
import ForgottenServer.KnownCreatures
import ForgottenServer.NetworkMessage
import ForgottenServer.TileDescription
import ForgottenServer.Lib.SkipCode

namespace ForgottenServer
namespace ProtocolGame

open NetworkMessage TileStack

/-! ### Things in a message -/

/-- `Outfit_t` -/
structure Outfit where
  lookType : UInt16 := 0
  lookTypeEx : UInt16 := 0
  lookHead : UInt8 := 0
  lookBody : UInt8 := 0
  lookLegs : UInt8 := 0
  lookFeet : UInt8 := 0
  deriving DecidableEq, Repr

/-- What `AddCreature` reads of a creature. The health is the percentage that is
shown, which the source computes with floating point. -/
structure Creature where
  id : UInt32
  name : List UInt8
  isHealthHidden : Bool
  health : UInt8
  direction : UInt8
  isInGhostMode : Bool
  isInvisible : Bool
  currentOutfit : Outfit
  lightLevel : UInt8
  lightColor : UInt8
  stepSpeed : ℤ
  deriving DecidableEq, Repr

/-- What a client sees: the map, and the player's view of creatures. -/
structure View where
  items : UInt16 → ItemType
  clientId : UInt16 → UInt16
  getTile : UInt16 → UInt16 → UInt8 → Option (TileStack.Tile Item Creature)
  canSeeCreature : Creature → Bool
  /-- `ProtocolGame::canSee` of the creature with an id. -/
  canSee : UInt32 → Bool
  /-- How `knownCreatureSet` is gone through once an id is inserted, at each look-up. -/
  order : ℕ → UInt32 → List UInt32 → List UInt32
  isAccessPlayer : Bool
  getSkullClient : Creature → UInt8
  getPartyShield : Creature → UInt8

/-- `fluidMap`: the client's colours in the order of the server's. -/
def fluidMap : List UInt8 := [0, 1, 2, 3, 4, 5, 6, 7]

section Messages

variable (v : View)

/-- `NetworkMessage::addItem` -/
def addItem (item : Item) (msg : NetworkMessage) : NetworkMessage :=
  let it := v.items item.id
  let msg := msg.add 2 (v.clientId item.id).toNat
  if it.stackable then msg.addByte (UInt8.ofNat (min 0xFF item.count))
  else if it.isSplash || it.isFluidContainer then
    msg.addByte ((fluidMap[item.getSubType v.items % 8]?).getD 0)
  else msg

def addItemId (itemId : UInt16) (msg : NetworkMessage) : NetworkMessage :=
  msg.add 2 (v.clientId itemId).toNat

def AddOutfit (msg : NetworkMessage) (outfit : Outfit) : NetworkMessage :=
  let msg := msg.add 2 outfit.lookType.toNat
  if outfit.lookType ≠ 0 then
    (((msg.addByte outfit.lookHead).addByte outfit.lookBody).addByte outfit.lookLegs).addByte
      outfit.lookFeet
  else addItemId v outfit.lookTypeEx msg

/-- `ProtocolGame::AddCreature` -/
def AddCreature (msg : NetworkMessage) (creature : Creature) (known : Bool) (remove : UInt32) :
    NetworkMessage :=
  let msg :=
    if known then (msg.add 2 0x62).add 4 creature.id.toNat
    else (((msg.add 2 0x61).add 4 remove.toNat).add 4 creature.id.toNat).addString creature.name
  let msg := msg.addByte (if creature.isHealthHidden then 0 else creature.health)
  let msg := msg.addByte creature.direction
  let msg := AddOutfit v msg
    (if !creature.isInGhostMode && !creature.isInvisible then creature.currentOutfit else {})
  let msg := msg.addByte (if v.isAccessPlayer then 0xFF else creature.lightLevel)
  let msg := msg.addByte creature.lightColor
  let msg := msg.add 2 (uint 2 creature.stepSpeed)
  let msg := msg.addByte (v.getSkullClient creature)
  msg.addByte (v.getPartyShield creature)

end Messages

/-! ### Describing the map -/

/-- The creatures the client knows, and how many were looked up. -/
structure Session where
  knownCreatureSet : List UInt32 := []
  lookups : ℕ := 0

def Session.check (v : View) (s : Session) (id : UInt32) : Checked × Session :=
  let c := checkCreatureAsKnown v.canSee (v.order s.lookups id s.knownCreatureSet)
    s.knownCreatureSet id
  (c, ⟨c.knownCreatureSet, s.lookups + 1⟩)

/-- How a description is written to a state. -/
structure MapWriter (σ : Type) extends Writer Item Creature σ where
  addByte : UInt8 → σ → σ

/-- The message, with the session of the protocol. -/
def messageWriter (v : View) : MapWriter (Session × NetworkMessage) where
  addItem item s := (s.1, addItem v item s.2)
  AddCreature creature s :=
    let c := s.1.check v creature.id
    (c.2, AddCreature v s.2 creature c.1.known c.1.removedKnown)
  addByte b s := (s.1, s.2.addByte b)

section Describe

variable {σ : Type} (w : MapWriter σ) (v : View)

/-- `msg.addByte(skip); msg.addByte(0xFF);` -/
def MapWriter.addSkip (skip : ℤ) (s : σ) : σ := w.addByte 0xFF (w.addByte (UInt8.ofInt skip) s)

/-- One cell of `ProtocolGame::GetFloorDescription`, with its counter. -/
def describeCell (x y z : ℤ) : σ × ℤ → σ × ℤ
  | (s, skip) =>
    match v.getTile (UInt16.ofInt x) (UInt16.ofInt y) (UInt8.ofInt z) with
    | some tile =>
      (GetTileDescription w.toWriter v.canSeeCreature tile
        (if 0 ≤ skip then w.addSkip skip s else s), 0)
    | none =>
      if skip = 0xFE then (w.addByte 0xFF (w.addByte 0xFF s), -1) else (s, skip + 1)

/-- `ProtocolGame::GetFloorDescription` -/
def GetFloorDescription (x y z width height offset : ℤ) (s : σ × ℤ) : σ × ℤ :=
  (List.range width.toNat).foldl (fun s (nx : ℕ) =>
    (List.range height.toNat).foldl (fun s (ny : ℕ) =>
      describeCell w v (x + nx + offset) (y + ny + offset) z s) s) s

/-- The floors of `ProtocolGame::GetMapDescription`, from `startz` to `endz`, for a floor
`z` of the map: the loop of the source does not end for `z` from 19 on. -/
def floors (z : ℤ) : List ℤ :=
  if z > 7 then
    (List.range (min (16 - 1) (z + 2) + 1 - (z - 2)).toNat).map fun (k : ℕ) => z - 2 + k
  else [7, 6, 5, 4, 3, 2, 1, 0]

/-- The counter at the end of a run of cells. -/
def endSkip (s : σ × ℤ) : σ := if 0 ≤ s.2 then w.addSkip s.2 s.1 else s.1

/-- `ProtocolGame::GetMapDescription` -/
def GetMapDescription (x y z width height : ℤ) (s : σ) : σ :=
  endSkip w ((floors z).foldl (fun s nz =>
    GetFloorDescription w v x y nz width height (z - nz) s) (s, -1))

end Describe

/-! ### The cells of a description -/

/-- A cell of the map, in the arithmetic of `int32_t`. -/
structure Cell where
  x : ℤ
  y : ℤ
  z : ℤ
  deriving DecidableEq, Repr

/-- The cells of `GetFloorDescription`, column by column. -/
def floorCells (x y z width height offset : ℤ) : List Cell :=
  (List.range width.toNat).flatMap fun (nx : ℕ) =>
    (List.range height.toNat).map fun (ny : ℕ) => ⟨x + nx + offset, y + ny + offset, z⟩

/-- The cells of `GetMapDescription`, floor by floor. -/
def mapCells (x y z width height : ℤ) : List Cell :=
  (floors z).flatMap fun nz => floorCells x y nz width height (z - nz)

def View.tile (v : View) (c : Cell) : Option (TileStack.Tile Item Creature) :=
  v.getTile (UInt16.ofInt c.x) (UInt16.ofInt c.y) (UInt8.ofInt c.z)

section Cells

variable {σ : Type} (w : MapWriter σ) (v : View)

/-- Cells described with one counter. -/
def describe (cells : List Cell) (s : σ) : σ :=
  endSkip w (cells.foldl (fun s c => describeCell w v c.x c.y c.z s) (s, -1))

theorem GetFloorDescription_eq (x y z width height offset : ℤ) (s : σ × ℤ) :
    GetFloorDescription w v x y z width height offset s =
      (floorCells x y z width height offset).foldl
        (fun s c => describeCell w v c.x c.y c.z s) s := by
  unfold GetFloorDescription floorCells
  simp only [List.foldl_flatMap, List.foldl_map]

/-- The floors are described with one counter. -/
theorem GetMapDescription_eq (x y z width height : ℤ) (s : σ) :
    GetMapDescription w v x y z width height s = describe w v (mapCells x y z width height) s := by
  unfold GetMapDescription describe mapCells
  simp only [GetFloorDescription_eq, List.foldl_flatMap]

end Cells

/-! ### The bytes of a thing -/

section Bytes

variable (v : View)

def itemBytes (item : Item) : List UInt8 :=
  let it := v.items item.id
  Bytes.put 2 (v.clientId item.id).toNat ++
    if it.stackable then [UInt8.ofNat (min 0xFF item.count)]
    else if it.isSplash || it.isFluidContainer then
      [(fluidMap[item.getSubType v.items % 8]?).getD 0]
    else []

def outfitBytes (outfit : Outfit) : List UInt8 :=
  Bytes.put 2 outfit.lookType.toNat ++
    if outfit.lookType ≠ 0 then
      [outfit.lookHead] ++ [outfit.lookBody] ++ [outfit.lookLegs] ++ [outfit.lookFeet]
    else Bytes.put 2 (v.clientId outfit.lookTypeEx).toNat

def creatureBytes (creature : Creature) (known : Bool) (remove : UInt32) : List UInt8 :=
  (if known then Bytes.put 2 0x62 ++ Bytes.put 4 creature.id.toNat
    else Bytes.put 2 0x61 ++ Bytes.put 4 remove.toNat ++ Bytes.put 4 creature.id.toNat ++
      stringBytes creature.name) ++
  [if creature.isHealthHidden then 0 else creature.health] ++ [creature.direction] ++
  outfitBytes v
    (if !creature.isInGhostMode && !creature.isInvisible then creature.currentOutfit else {}) ++
  [if v.isAccessPlayer then 0xFF else creature.lightLevel] ++ [creature.lightColor] ++
  Bytes.put 2 (uint 2 creature.stepSpeed) ++ [v.getSkullClient creature] ++
  [v.getPartyShield creature]

theorem appends_addItem (item : Item) : Appends (addItem v item) (itemBytes v item) :=
  (appends_add 2 _).comp (.ite (appends_addByte _) (.ite (appends_addByte _) .id))

theorem appends_AddOutfit (outfit : Outfit) :
    Appends (fun msg => AddOutfit v msg outfit) (outfitBytes v outfit) :=
  (appends_add 2 _).comp (.ite
    ((((appends_addByte _).comp (appends_addByte _)).comp (appends_addByte _)).comp
      (appends_addByte _))
    (appends_add 2 _))

theorem appends_AddCreature (creature : Creature) (known : Bool) (remove : UInt32) :
    Appends (fun msg => AddCreature v msg creature known remove)
      (creatureBytes v creature known remove) := by
  have hknown := (appends_add 2 0x62).comp (appends_add 4 creature.id.toNat)
  have hnamed := (((appends_add 2 0x61).comp (appends_add 4 remove.toNat)).comp
    (appends_add 4 creature.id.toNat)).comp (appends_addString creature.name)
  have hheader := Appends.ite (p := known) hknown hnamed
  have hshown := ((hheader.comp
    (appends_addByte (if creature.isHealthHidden then 0 else creature.health))).comp
    (appends_addByte creature.direction)).comp
    (appends_AddOutfit v
      (if !creature.isInGhostMode && !creature.isInvisible then creature.currentOutfit else {}))
  have hlight := (hshown.comp
    (appends_addByte (if v.isAccessPlayer then 0xFF else creature.lightLevel))).comp
    (appends_addByte creature.lightColor)
  have hshield := ((hlight.comp (appends_add 2 (uint 2 creature.stepSpeed))).comp
    (appends_addByte (v.getSkullClient creature))).comp (appends_addByte (v.getPartyShield creature))
  unfold AddCreature creatureBytes
  dsimp only
  exact hshield

/-- The description without the message: the session and the bytes. -/
def bytesWriter : MapWriter (Session × List UInt8) where
  addItem item s := (s.1, s.2 ++ itemBytes v item)
  AddCreature creature s :=
    let c := s.1.check v creature.id
    (c.2, s.2 ++ creatureBytes v creature c.1.known c.1.removedKnown)
  addByte b s := (s.1, s.2 ++ [b])

end Bytes

/-! ### The message holds the bytes -/

/-- What two writers keep between their states. -/
structure MapWriter.Sim {σ τ : Type} (R : σ → τ → Prop) (w : MapWriter σ) (w' : MapWriter τ) :
    Prop where
  addItem : ∀ item s t, R s t → R (w.addItem item s) (w'.addItem item t)
  AddCreature : ∀ creature s t, R s t → R (w.AddCreature creature s) (w'.AddCreature creature t)
  addByte : ∀ b s t, R s t → R (w.addByte b s) (w'.addByte b t)

section Sim

variable {σ τ : Type} {R : σ → τ → Prop} {w : MapWriter σ} {w' : MapWriter τ} (v : View)

theorem MapWriter.Sim.addSkip (h : w.Sim R w') (skip : ℤ) {s : σ} {t : τ} (hst : R s t) :
    R (w.addSkip skip s) (w'.addSkip skip t) :=
  h.addByte _ _ _ (h.addByte _ _ _ hst)

theorem MapWriter.Sim.things (h : w.Sim R w') (things : List (Thing Item Creature)) :
    ∀ {s : σ} {t : τ}, R s t → R (things.foldl w.toWriter.add s) (things.foldl w'.toWriter.add t) := by
  induction things with
  | nil => exact id
  | cons thing things ih =>
    intro s t hst
    apply ih
    cases thing with
    | item item => exact h.addItem item s t hst
    | creature creature => exact h.AddCreature creature s t hst

/-- The states are kept and the counters are equal. -/
def Counted (R : σ → τ → Prop) (s : σ × ℤ) (t : τ × ℤ) : Prop := R s.1 t.1 ∧ s.2 = t.2

theorem MapWriter.Sim.describeCell (h : w.Sim R w') (c : Cell) {s : σ × ℤ} {t : τ × ℤ}
    (hst : Counted R s t) :
    Counted R (describeCell w v c.x c.y c.z s) (describeCell w' v c.x c.y c.z t) := by
  obtain ⟨s, skip⟩ := s
  obtain ⟨t, skip'⟩ := t
  obtain ⟨hst, rfl⟩ : R s t ∧ skip = skip' := hst
  unfold ProtocolGame.describeCell
  cases v.getTile (UInt16.ofInt c.x) (UInt16.ofInt c.y) (UInt8.ofInt c.z) with
  | some tile =>
    refine ⟨?_, rfl⟩
    dsimp only
    rw [GetTileDescription_described, GetTileDescription_described]
    apply h.things
    split
    · exact h.addSkip skip hst
    · exact hst
  | none =>
    dsimp only
    split
    · exact ⟨h.addByte _ _ _ (h.addByte _ _ _ hst), rfl⟩
    · exact ⟨hst, rfl⟩

/-- What the writers keep holds after a description. -/
theorem MapWriter.Sim.describe (h : w.Sim R w') (cells : List Cell) {s : σ} {t : τ} (hst : R s t) :
    R (describe w v cells s) (describe w' v cells t) := by
  have hcells : ∀ (cells : List Cell) {s : σ × ℤ} {t : τ × ℤ}, Counted R s t →
      Counted R (cells.foldl (fun s c => ProtocolGame.describeCell w v c.x c.y c.z s) s)
        (cells.foldl (fun s c => ProtocolGame.describeCell w' v c.x c.y c.z s) t) := by
    intro cells
    induction cells with
    | nil => exact id
    | cons c cells ih => exact fun hst => ih (h.describeCell v c hst)
  obtain ⟨h1, h2⟩ := hcells cells (s := (s, -1)) (t := (t, -1)) ⟨hst, rfl⟩
  unfold ProtocolGame.describe endSkip
  rw [h2]
  split
  · exact h.addSkip _ h1
  · exact h1

end Sim

/-- The message continues `m` with the bytes, if they fit. -/
def Holds (m : NetworkMessage) (s : Session × NetworkMessage) (t : Session × List UInt8) : Prop :=
  s.1 = t.1 ∧ (t.2.length + m.position < MAX_BODY_LENGTH → s.2.Written ∧ s.2.body = m.body ++ t.2)

theorem Holds.append {m m' : NetworkMessage} {s : Session} {l bytes : List UInt8}
    (h : Holds m (s, m') (s, l)) (hm : m.Written) (next : Session)
    {f : NetworkMessage → NetworkMessage} (hf : Appends f bytes) :
    Holds m (next, f m') (next, l ++ bytes) := by
  refine ⟨rfl, fun hroom => ?_⟩
  rw [List.length_append] at hroom
  obtain ⟨hwritten, hbody⟩ := h.2 (show l.length + m.position < MAX_BODY_LENGTH by omega)
  have hlen := congrArg List.length hbody
  rw [List.length_append, length_body, length_body] at hlen
  have hp := hm.position
  have hp' := hwritten.position
  obtain ⟨h1, h2⟩ := hf m' hwritten (by dsimp only at hp' hlen; omega)
  exact ⟨h1, by rw [h2, hbody, List.append_assoc]⟩

theorem holds_sim (v : View) {m : NetworkMessage} (hm : m.Written) :
    (messageWriter v).Sim (Holds m) (bytesWriter v) := by
  constructor
  · rintro item ⟨s, m'⟩ ⟨s', l⟩ h
    obtain rfl : s = s' := h.1
    have hholds := h.append hm s (appends_addItem v item)
    exact hholds
  · rintro creature ⟨s, m'⟩ ⟨s', l⟩ h
    obtain rfl : s = s' := h.1
    obtain ⟨⟨c, next⟩, hc⟩ : ∃ r, s.check v creature.id = r := ⟨_, rfl⟩
    have hadd : (messageWriter v).AddCreature creature (s, m') =
        (next, AddCreature v m' creature c.known c.removedKnown) := by
      unfold messageWriter
      dsimp only
      rw [hc]
    have hbytes : (bytesWriter v).AddCreature creature (s, l) =
        (next, l ++ creatureBytes v creature c.known c.removedKnown) := by
      unfold bytesWriter
      dsimp only
      rw [hc]
    rw [hadd, hbytes]
    have hholds := h.append hm next (appends_AddCreature v creature c.known c.removedKnown)
    exact hholds
  · rintro b ⟨s, m'⟩ ⟨s', l⟩ h
    obtain rfl : s = s' := h.1
    have hholds := h.append hm s (appends_addByte b)
    exact hholds

/-! ### A description is a code of gaps -/

section Contents

variable (v : View)

/-- The number of empty cells with its mark. -/
def marker (skip : ℕ) : List UInt8 := [UInt8.ofNat skip, 0xFF]

/-- What `GetTileDescription` writes for the tiles of the cells, one after another. -/
def contents : Session → List Cell → List (Option (List UInt8))
  | _, [] => []
  | s, c :: cells =>
    match v.tile c with
    | some tile =>
      let r := GetTileDescription (bytesWriter v).toWriter v.canSeeCreature tile (s, [])
      some r.2 :: contents r.1 cells
    | none => none :: contents s cells

@[simp] theorem length_contents (cells : List Cell) : ∀ s, (contents v s cells).length = cells.length := by
  induction cells with
  | nil => exact fun _ => rfl
  | cons c cells ih =>
    intro s
    unfold contents
    cases v.tile c with
    | none => exact congrArg (· + 1) (ih s)
    | some tile => exact congrArg (· + 1) (ih _)

theorem things_append (things : List (Thing Item Creature)) : ∀ (s : Session) (l l' : List UInt8),
    things.foldl (bytesWriter v).toWriter.add (s, l ++ l') =
      ((things.foldl (bytesWriter v).toWriter.add (s, l')).1,
        l ++ (things.foldl (bytesWriter v).toWriter.add (s, l')).2) := by
  induction things with
  | nil => exact fun _ _ _ => rfl
  | cons thing things ih =>
    intro s l l'
    have hadd : (bytesWriter v).toWriter.add (s, l ++ l') thing =
        (((bytesWriter v).toWriter.add (s, l') thing).1,
          l ++ ((bytesWriter v).toWriter.add (s, l') thing).2) := by
      cases thing with
      | item item => exact congrArg (Prod.mk s) (List.append_assoc l l' _)
      | creature creature => exact congrArg (Prod.mk _) (List.append_assoc l l' _)
    rw [List.foldl_cons, List.foldl_cons, hadd]
    exact ih _ l _

/-- The description of a tile is appended. -/
theorem tile_append (tile : TileStack.Tile Item Creature) (s : Session) (l : List UInt8) :
    GetTileDescription (bytesWriter v).toWriter v.canSeeCreature tile (s, l) =
      ((GetTileDescription (bytesWriter v).toWriter v.canSeeCreature tile (s, [])).1,
        l ++ (GetTileDescription (bytesWriter v).toWriter v.canSeeCreature tile (s, [])).2) := by
  rw [GetTileDescription_described, GetTileDescription_described]
  have := things_append v (tile.described v.canSeeCreature) s l []
  rwa [List.append_nil] at this

/-- The counter for the empty cells that are owed. -/
def counter : Option ℕ → ℤ
  | some k => k
  | none => -1

theorem addSkip_counter (s : Session) (l : List UInt8) (skip : Option ℕ) :
    (if 0 ≤ counter skip then (bytesWriter v).addSkip (counter skip) (s, l) else (s, l)) =
      (s, l ++ SkipCode.owed marker skip) := by
  cases skip with
  | none => exact congrArg (Prod.mk s) (List.append_nil l).symm
  | some k =>
    rw [if_pos (show 0 ≤ counter (some k) from Int.natCast_nonneg k)]
    show (s, l ++ [UInt8.ofInt (k : ℤ)] ++ [0xFF]) = (s, l ++ [UInt8.ofNat k, 0xFF])
    have hbyte : UInt8.ofInt (k : ℤ) = UInt8.ofNat k := by
      unfold UInt8.ofInt
      apply UInt8.toNat_inj.1
      rw [UInt8.toNat_ofNat', UInt8.toNat_ofNat']
      omega
    rw [List.append_assoc, hbyte]
    rfl

/-- The counter of the source is the one of the code. -/
theorem describe_encode (cells : List Cell) : ∀ (s : Session) (l : List UInt8) (skip : Option ℕ),
    (∀ k, skip = some k → k ≤ 254) →
    (endSkip (bytesWriter v) (cells.foldl
      (fun s c => describeCell (bytesWriter v) v c.x c.y c.z s) ((s, l), counter skip))).2 =
      l ++ SkipCode.encode marker 254 skip (contents v s cells) := by
  induction cells with
  | nil =>
    intro s l skip _
    exact congrArg Prod.snd (addSkip_counter v s l skip)
  | cons c cells ih =>
    intro s l skip hskip
    rw [List.foldl_cons]
    unfold describeCell contents View.tile
    cases v.getTile (UInt16.ofInt c.x) (UInt16.ofInt c.y) (UInt8.ofInt c.z) with
    | some tile =>
      dsimp only
      rw [addSkip_counter, tile_append]
      have hnext := ih (GetTileDescription (bytesWriter v).toWriter v.canSeeCreature tile (s, [])).1
        (l ++ SkipCode.owed marker skip ++
          (GetTileDescription (bytesWriter v).toWriter v.canSeeCreature tile (s, [])).2) (some 0)
        (fun k hk => by cases hk; exact Nat.zero_le _)
      refine hnext.trans ?_
      show _ = l ++ (SkipCode.owed marker skip ++ (_ ++ _))
      rw [List.append_assoc, List.append_assoc]
    | none =>
      dsimp only
      cases skip with
      | none => exact ih s l (some 0) fun k hk => by cases hk; exact Nat.zero_le _
      | some k =>
        have hk := hskip k rfl
        by_cases h254 : k = 254
        · subst h254
          rw [if_pos (show counter (some 254) = 0xFE from rfl)]
          refine (ih s (l ++ [0xFF] ++ [0xFF]) none fun _ h => by cases h).trans ?_
          rw [List.append_assoc, List.append_assoc]
          rfl
        · have hne : counter (some k) ≠ 0xFE := by
            show (k : ℤ) ≠ 254
            omega
          rw [if_neg hne]
          refine (ih s l (some (k + 1)) fun j hj => by cases hj; omega).trans ?_
          show _ = l ++ (if k = 254 then _ else _)
          rw [if_neg h254]

/-- A description without the message is the code of what the tiles are described by. -/
theorem describe_bytes (s : Session) (l : List UInt8) (cells : List Cell) :
    (describe (bytesWriter v) v cells (s, l)).2 =
      l ++ SkipCode.encode marker 254 none (contents v s cells) :=
  describe_encode v cells s l none fun _ h => by cases h

end Contents

/-! ### The client -/

/-- A cell as a client reads it: things, each as long as `thingSize` says, up to
a 16-bit value from `0xFF00` on, whose low byte is the number of empty cells
behind the cell. -/
def readTile (thingSize : List UInt8 → ℕ) (s : List UInt8) :
    Option (List UInt8 × ℕ × List UInt8) :=
  if s.length < 2 then none
  else if 0xFF00 ≤ Bytes.value (s.take 2) then
    some ([], Bytes.value (s.take 2) % 0x100, s.drop 2)
  else if 0 < thingSize s ∧ thingSize s ≤ s.length then
    (readTile thingSize (s.drop (thingSize s))).map fun r => (s.take (thingSize s) ++ r.1, r.2)
  else none
termination_by s.length
decreasing_by
  rw [List.length_drop]
  omega

/-- The bytes of a thing at a look-up. -/
def thingBytes (v : View) (s : Session) (thing : Thing Item Creature) : List UInt8 :=
  ((bytesWriter v).toWriter.add (s, []) thing).2

/-- However a thing is written, it starts below the marks and the client knows
its length. -/
structure Legible (v : View) (thingSize : List UInt8 → ℕ) (thing : Thing Item Creature) : Prop where
  start : ∀ s, Bytes.value ((thingBytes v s thing).take 2) < 0xFF00
  size : ∀ s rest, thingSize (thingBytes v s thing ++ rest) = (thingBytes v s thing).length

section Client

variable {v : View} {thingSize : List UInt8 → ℕ}

theorem two_le_itemBytes (v : View) (item : Item) : 2 ≤ (itemBytes v item).length := by
  unfold itemBytes
  rw [List.length_append, Bytes.length_put]
  exact Nat.le_add_right 2 _

theorem two_le_creatureBytes (v : View) (creature : Creature) (known : Bool) (remove : UInt32) :
    2 ≤ (creatureBytes v creature known remove).length := by
  unfold creatureBytes
  simp only [List.length_append, List.length_singleton]
  omega

theorem readTile_marker {k : ℕ} (hk : k ≤ 255) (s : List UInt8) :
    readTile thingSize (marker k ++ s) = some ([], k, s) := by
  have hvalue : Bytes.value ((marker k ++ s).take 2) = 0xFF00 + k := by
    show (UInt8.ofNat k).toNat + 256 * (255 + 256 * 0) = _
    rw [UInt8.toNat_ofNat']
    omega
  unfold readTile
  rw [if_neg (show ¬ (marker k ++ s).length < 2 by unfold marker; simp), hvalue,
    if_pos (by omega), show (0xFF00 + k) % 0x100 = k by omega]
  rfl

theorem readTile_thing {bytes s : List UInt8} (h2 : 2 ≤ bytes.length)
    (hstart : Bytes.value (bytes.take 2) < 0xFF00) (hsize : thingSize (bytes ++ s) = bytes.length) :
    readTile thingSize (bytes ++ s) =
      (readTile thingSize s).map fun r => (bytes ++ r.1, r.2) := by
  have htake : (bytes ++ s).take 2 = bytes.take 2 := List.take_append_of_le_length h2
  conv_lhs => unfold readTile
  rw [if_neg (by rw [List.length_append]; omega), htake, if_neg (by omega), hsize,
    if_pos ⟨by omega, by rw [List.length_append]; omega⟩, List.drop_left' rfl, List.take_left' rfl]

theorem two_le_thingBytes (v : View) (s : Session) (thing : Thing Item Creature) :
    2 ≤ (thingBytes v s thing).length := by
  cases thing with
  | item item => exact two_le_itemBytes v item
  | creature creature => exact two_le_creatureBytes v creature _ _

/-- The description of a tile is read up to its mark. -/
theorem things_reads (things : List (Thing Item Creature))
    (hlegible : ∀ thing ∈ things, Legible v thingSize thing) : ∀ s,
      SkipCode.Reads marker 254 (readTile thingSize)
        (things.foldl (bytesWriter v).toWriter.add (s, [])).2 := by
  induction things with
  | nil => exact fun _ k hk s => readTile_marker hk s
  | cons thing things ih =>
    intro s k hk rest
    have hthing := hlegible thing List.mem_cons_self
    have hbytes := things_append v things ((bytesWriter v).toWriter.add (s, []) thing).1
      (thingBytes v s thing) []
    rw [List.append_nil] at hbytes
    rw [List.foldl_cons]
    show readTile thingSize ((things.foldl (bytesWriter v).toWriter.add
      (((bytesWriter v).toWriter.add (s, []) thing).1, thingBytes v s thing)).2 ++ _) =
        some ((things.foldl (bytesWriter v).toWriter.add
          (((bytesWriter v).toWriter.add (s, []) thing).1, thingBytes v s thing)).2, k, rest)
    rw [hbytes, List.append_assoc, readTile_thing (two_le_thingBytes v s thing) (hthing.start s)
      (hthing.size s _), ih (fun t ht => hlegible t (List.mem_cons_of_mem _ ht)) _ k hk rest]
    rfl

theorem contents_reads (cells : List Cell)
    (hlegible : ∀ c ∈ cells, ∀ tile, v.tile c = some tile →
      ∀ thing ∈ tile.described v.canSeeCreature, Legible v thingSize thing) :
    ∀ s payload, some payload ∈ contents v s cells →
      SkipCode.Reads marker 254 (readTile thingSize) payload := by
  induction cells with
  | nil => exact fun _ _ h => by cases h
  | cons c cells ih =>
    specialize ih fun c' hc' => hlegible c' (List.mem_cons_of_mem _ hc')
    intro s payload h
    unfold contents at h
    cases htile : v.tile c with
    | none =>
      rw [htile] at h
      exact ih s payload (List.mem_of_ne_of_mem (by simp) h)
    | some tile =>
      rw [htile] at h
      rcases List.mem_cons.1 h with heq | h
      · rw [Option.some.inj heq, GetTileDescription_described]
        exact things_reads _ (hlegible c List.mem_cons_self tile htile) s
      · exact ih _ payload h

/-- What `GetTileDescription` writes to a new message. -/
def tileBytes (v : View) (s : Session) (tile : TileStack.Tile Item Creature) : Session × List UInt8 :=
  let r := GetTileDescription (messageWriter v).toWriter v.canSeeCreature tile
    (s, NetworkMessage.new fun _ => 0)
  (r.1, r.2.body)

/-- The bytes of the cells, one after another: those of its tile, or none. -/
def assigned (v : View) : Session → List Cell → List (List UInt8)
  | _, [] => []
  | s, c :: cells =>
    match v.tile c with
    | some tile => (tileBytes v s tile).2 :: assigned v (tileBytes v s tile).1 cells
    | none => [] :: assigned v s cells

theorem tileBytes_eq {s : Session} {tile : TileStack.Tile Item Creature} {r : Session × List UInt8}
    (hr : GetTileDescription (bytesWriter v).toWriter v.canSeeCreature tile (s, []) = r)
    (hfits : r.2.length + 4 < MAX_BODY_LENGTH) : tileBytes v s tile = r := by
  have hnew := written_new fun _ => 0
  have hholds := (holds_sim v hnew).things (tile.described v.canSeeCreature)
    (s := (s, NetworkMessage.new fun _ => 0)) (t := (s, [])) ⟨rfl, fun _ => ⟨hnew, rfl⟩⟩
  rw [← GetTileDescription_described, ← GetTileDescription_described, hr] at hholds
  unfold tileBytes
  exact Prod.ext hholds.1 (hholds.2 hfits).2

theorem assigned_eq (cells : List Cell) : ∀ s,
    (∀ payload, some payload ∈ contents v s cells → payload.length + 4 < MAX_BODY_LENGTH) →
      assigned v s cells = (contents v s cells).map (·.getD []) := by
  induction cells with
  | nil => exact fun _ _ => rfl
  | cons c cells ih =>
    intro s hfits
    unfold contents at hfits ⊢
    unfold assigned
    cases htile : v.tile c with
    | none =>
      rw [htile] at hfits
      dsimp only
      rw [List.map_cons, ih s fun payload h => hfits payload (List.mem_cons_of_mem _ h)]
      rfl
    | some tile =>
      rw [htile] at hfits
      dsimp only at hfits ⊢
      rw [tileBytes_eq rfl (hfits _ List.mem_cons_self), List.map_cons,
        ih _ fun payload h => hfits payload (List.mem_cons_of_mem _ h)]
      rfl

/-- **The map description is a code.** A client that reads the cells in the
order of `GetMapDescription` takes exactly the bytes written and finds each
tile described as `GetTileDescription` does, and nothing without a tile. -/
theorem decode_GetMapDescription (v : View) (thingSize : List UInt8 → ℕ)
    (x y z width height : ℤ) (s : Session) (m : NetworkMessage) (hm : m.Written)
    (hfits : (GetMapDescription (bytesWriter v) v x y z width height (s, [])).2.length +
      m.position < MAX_BODY_LENGTH)
    (hlegible : ∀ c ∈ mapCells x y z width height, ∀ tile, v.tile c = some tile →
      ∀ thing ∈ tile.described v.canSeeCreature, Legible v thingSize thing) :
    ∃ bytes, (GetMapDescription (messageWriter v) v x y z width height (s, m)).2.body =
        m.body ++ bytes ∧
      ∀ rest, SkipCode.decode (readTile thingSize) (mapCells x y z width height).length 0
        (bytes ++ rest) = some (assigned v s (mapCells x y z width height), rest) := by
  generalize hcells : mapCells x y z width height = cells at hlegible ⊢
  rw [GetMapDescription_eq, hcells] at hfits ⊢
  have hholds := (holds_sim v hm).describe v cells (s := (s, m)) (t := (s, []))
    ⟨rfl, fun _ => ⟨hm, (List.append_nil _).symm⟩⟩
  have hbytes := describe_bytes v s [] cells
  rw [List.nil_append] at hbytes
  have hcode := (hholds.2 hfits).2
  rw [hbytes] at hcode hfits
  have hposition := hm.position
  have hassigned : assigned v s cells = (contents v s cells).map (·.getD []) := by
    apply assigned_eq
    intro payload hpayload
    have := SkipCode.length_le_encode marker 254 _ none hpayload
    unfold INITIAL_BUFFER_POSITION at hposition
    omega
  refine ⟨_, hcode, fun rest => ?_⟩
  rw [hassigned]
  rw [← length_contents v cells s]
  exact SkipCode.decode_encode (fun k hk s => readTile_marker hk s) (contents v s cells)
    (contents_reads cells hlegible s) rest

end Client

/-! ### A client that knows the items -/

section KnownItems

/-- What a client reads behind the id or the name of a creature: health,
direction, outfit, light, speed, skull and shield. -/
def appearanceSize (s : List UInt8) : ℕ :=
  (if Bytes.value ((s.drop 2).take 2) = 0 then 4 else 6) + 8

/-- The length of a thing for a client that knows which ids have a second field. -/
def clientThingSize (counted : ℕ → Bool) (s : List UInt8) : ℕ :=
  if Bytes.value (s.take 2) = 0x61 then
    12 + Bytes.value ((s.drop 10).take 2) +
      appearanceSize (s.drop (12 + Bytes.value ((s.drop 10).take 2)))
  else if Bytes.value (s.take 2) = 0x62 then 6 + appearanceSize (s.drop 6)
  else if counted (Bytes.value (s.take 2)) then 3 else 2

variable {v : View} {counted : ℕ → Bool}

/-- What the client knows of the id of an item. -/
structure KnowsItem (v : View) (counted : ℕ → Bool) (item : Item) : Prop where
  mark : (v.clientId item.id).toNat < 0xFF00
  named : (v.clientId item.id).toNat ≠ 0x61
  known : (v.clientId item.id).toNat ≠ 0x62
  counted : counted (v.clientId item.id).toNat =
    ((v.items item.id).stackable || (v.items item.id).isSplash || (v.items item.id).isFluidContainer)

theorem value_put_u16 (n : UInt16) : Bytes.value (Bytes.put 2 n.toNat) = n.toNat :=
  Bytes.value_put_of_lt n.toNat_lt

theorem legible_item {item : Item} (h : KnowsItem v counted item) :
    Legible v (clientThingSize counted) (.item item) := by
  have htake : ∀ rest, ((itemBytes v item) ++ rest).take 2 =
      Bytes.put 2 (v.clientId item.id).toNat := by
    intro rest
    unfold itemBytes
    rw [List.append_assoc, List.take_left' (Bytes.length_put 2 _)]
  constructor
  · intro s
    show Bytes.value ((itemBytes v item).take 2) < _
    have := htake []
    rw [List.append_nil] at this
    rw [this, value_put_u16]
    exact h.mark
  · intro s rest
    show clientThingSize counted (itemBytes v item ++ rest) = (itemBytes v item).length
    unfold clientThingSize
    rw [htake rest, value_put_u16, if_neg h.named, if_neg h.known, h.counted]
    unfold itemBytes
    dsimp only
    rw [List.length_append, Bytes.length_put]
    cases (v.items item.id).stackable <;> cases (v.items item.id).isSplash <;>
      cases (v.items item.id).isFluidContainer <;> rfl

/-- What `AddCreature` writes behind the id or the name. -/
def appearanceBytes (v : View) (creature : Creature) : List UInt8 :=
  [if creature.isHealthHidden then 0 else creature.health] ++ ([creature.direction] ++ (outfitBytes v
    (if !creature.isInGhostMode && !creature.isInvisible then creature.currentOutfit else {}) ++
  ([if v.isAccessPlayer then 0xFF else creature.lightLevel] ++ ([creature.lightColor] ++
  (Bytes.put 2 (uint 2 creature.stepSpeed) ++ ([v.getSkullClient creature] ++
  [v.getPartyShield creature]))))))

theorem creatureBytes_known (v : View) (creature : Creature) (remove : UInt32) :
    creatureBytes v creature true remove =
      Bytes.put 2 0x62 ++ (Bytes.put 4 creature.id.toNat ++ appearanceBytes v creature) := by
  unfold creatureBytes appearanceBytes
  simp only [List.append_assoc, if_true]

theorem creatureBytes_named (v : View) (creature : Creature) (remove : UInt32)
    (hname : creature.name.length ≤ 8192) : creatureBytes v creature false remove =
      Bytes.put 2 0x61 ++ (Bytes.put 4 remove.toNat ++ (Bytes.put 4 creature.id.toNat ++
        (Bytes.put 2 creature.name.length ++ (creature.name ++ appearanceBytes v creature)))) := by
  unfold creatureBytes appearanceBytes stringBytes
  rw [if_neg (by omega : ¬ 8192 < creature.name.length)]
  simp only [List.append_assoc, Bool.false_eq_true, if_false]

theorem appearanceSize_eq (v : View) (creature : Creature) (rest : List UInt8) :
    appearanceSize (appearanceBytes v creature ++ rest) = (appearanceBytes v creature).length := by
  generalize houtfit : (if !creature.isInGhostMode && !creature.isInvisible then
    creature.currentOutfit else {}) = outfit
  have hlook : ((appearanceBytes v creature ++ rest).drop 2).take 2 =
      Bytes.put 2 outfit.lookType.toNat := by
    unfold appearanceBytes outfitBytes
    rw [houtfit]
    simp only [List.append_assoc]
    exact List.take_left' (Bytes.length_put 2 _)
  have hzero : outfit.lookType.toNat = 0 ↔ outfit.lookType = 0 := by
    rw [← UInt16.toNat_inj]
    rfl
  unfold appearanceSize
  rw [hlook, value_put_u16]
  unfold appearanceBytes outfitBytes
  rw [houtfit]
  simp only [List.length_append, List.length_singleton, Bytes.length_put, hzero, ne_eq]
  by_cases h : outfit.lookType = 0
  · rw [if_pos h, if_neg (not_not.2 h), Bytes.length_put]
  · rw [if_neg h, if_pos h]
    rfl

theorem size_known (creature : Creature) (remove : UInt32) (rest : List UInt8) :
    clientThingSize counted (creatureBytes v creature true remove ++ rest) =
      (creatureBytes v creature true remove).length := by
  rw [creatureBytes_known]
  generalize happearance : appearanceBytes v creature = bytes
  have htake : Bytes.value (((Bytes.put 2 0x62 ++ (Bytes.put 4 creature.id.toNat ++ bytes)) ++
      rest).take 2) = 0x62 := by
    rw [List.append_assoc, List.take_left' (Bytes.length_put 2 _)]
    rfl
  have hdrop : ((Bytes.put 2 0x62 ++ (Bytes.put 4 creature.id.toNat ++ bytes)) ++ rest).drop 6 =
      bytes ++ rest := by
    rw [← List.append_assoc, List.append_assoc _ bytes rest]
    exact List.drop_left' (by rw [List.length_append, Bytes.length_put, Bytes.length_put])
  unfold clientThingSize
  rw [htake, hdrop, ← happearance, appearanceSize_eq]
  simp only [List.length_append, Bytes.length_put, if_true]
  rw [if_neg (by omega)]
  omega

theorem size_named {creature : Creature} (hname : creature.name.length ≤ 8192) (remove : UInt32)
    (rest : List UInt8) :
    clientThingSize counted (creatureBytes v creature false remove ++ rest) =
      (creatureBytes v creature false remove).length := by
  rw [creatureBytes_named v creature remove hname]
  generalize happearance : appearanceBytes v creature = bytes
  generalize hstart : Bytes.put 2 0x61 ++ (Bytes.put 4 remove.toNat ++ (Bytes.put 4 creature.id.toNat ++
    (Bytes.put 2 creature.name.length ++ (creature.name ++ bytes)))) = all
  have htake : Bytes.value ((all ++ rest).take 2) = 0x61 := by
    rw [← hstart, List.append_assoc, List.take_left' (Bytes.length_put 2 _)]
    rfl
  have hlen : Bytes.value (((all ++ rest).drop 10).take 2) = creature.name.length := by
    have hdrop : (all ++ rest).drop 10 =
        Bytes.put 2 creature.name.length ++ (creature.name ++ bytes ++ rest) := by
      rw [← hstart]
      simp only [← List.append_assoc]
      simp only [List.append_assoc _ _ rest, List.append_assoc _ _ (bytes ++ rest),
        List.append_assoc _ _ (creature.name ++ (bytes ++ rest))]
      exact List.drop_left' (by simp)
    rw [hdrop, List.take_left' (Bytes.length_put 2 _)]
    exact Bytes.value_put_of_lt (by norm_num; omega)
  have hdrop : (all ++ rest).drop (12 + creature.name.length) = bytes ++ rest := by
    rw [← hstart]
    simp only [← List.append_assoc]
    rw [List.append_assoc _ bytes rest]
    apply List.drop_left'
    simp only [List.length_append, Bytes.length_put]
  unfold clientThingSize
  rw [htake, hlen, hdrop, ← happearance, appearanceSize_eq, ← hstart, happearance]
  simp only [List.length_append, Bytes.length_put, if_true]
  omega

theorem legible_creature {creature : Creature} (hname : creature.name.length ≤ 8192) :
    Legible v (clientThingSize counted) (.creature creature) := by
  constructor
  · intro s
    show Bytes.value ((creatureBytes v creature _ _).take 2) < _
    cases (s.check v creature.id).1.known with
    | true =>
      rw [creatureBytes_known, List.take_left' (Bytes.length_put 2 _)]
      decide
    | false =>
      rw [creatureBytes_named _ _ _ hname, List.take_left' (Bytes.length_put 2 _)]
      decide
  · intro s rest
    show clientThingSize counted (creatureBytes v creature _ _ ++ rest) =
      (creatureBytes v creature _ _).length
    cases (s.check v creature.id).1.known with
    | true => exact size_known creature _ rest
    | false => exact size_named hname _ rest

end KnownItems

/-- A creature without a name. -/
def sentry : Creature :=
  { id := 0x10000001, name := [], isHealthHidden := false, health := 100, direction := 2,
    isInGhostMode := false, isInvisible := false, currentOutfit := { lookType := 128 },
    lightLevel := 0, lightColor := 0, stepSpeed := 220 }

/-- A tile with ground and the sentry. -/
def yard : TileStack.Tile Item Creature :=
  { ground := some { cls := .item, id := 102, count := 1, attributes := none }
    creatures := some [sentry] }

/-- A map of the one tile. -/
def yardView : View where
  items _ := {}
  clientId id := id
  getTile x y z := if x = 101 ∧ y = 100 ∧ z = 7 then some yard else none
  canSeeCreature _ := true
  canSee _ := true
  order _ id set := id :: set
  isAccessPlayer := false
  getSkullClient _ := 0
  getPartyShield _ := 0

theorem legible_yard (c : Cell) (tile : TileStack.Tile Item Creature) (h : yardView.tile c = some tile) :
    ∀ thing ∈ tile.described yardView.canSeeCreature,
      Legible yardView (clientThingSize fun _ => false) thing := by
  unfold View.tile yardView at h
  dsimp only at h
  split at h
  · obtain rfl := Option.some.inj h
    intro thing hthing
    have hdescribed : yard.described yardView.canSeeCreature =
        [.item { cls := .item, id := 102, count := 1, attributes := none }, .creature sentry] := rfl
    rw [hdescribed] at hthing
    rcases List.mem_cons.1 hthing with rfl | hthing
    · exact legible_item ⟨by decide, by decide, by decide, rfl⟩
    · rw [List.mem_singleton.1 hthing]
      exact legible_creature (Nat.zero_le _)
  · cases h

theorem decode_GetMapDescription_yard : ∃ bytes,
    (GetMapDescription (messageWriter yardView) yardView 100 100 7 2 2
      ({}, NetworkMessage.new fun _ => 0)).2.body = [] ++ bytes ∧
    ∀ rest, SkipCode.decode (readTile (clientThingSize fun _ => false))
      (mapCells 100 100 7 2 2).length 0 (bytes ++ rest) =
        some (assigned yardView {} (mapCells 100 100 7 2 2), rest) :=
  decode_GetMapDescription yardView _ 100 100 7 2 2 {} (NetworkMessage.new fun _ => 0)
    (written_new _) (by decide +kernel) fun c _ tile h => legible_yard c tile h

end ProtocolGame
end ForgottenServer
