/-
# The conditions of a player in the database

`IOLoginData::savePlayer` writes the persistent conditions one after another,
each with a header of five tagged fields, the fields of its class and an end
mark. `IOLoginData::loadPlayer` reads a header, builds a condition of the class
that belongs to its type, and hands the fields to it until the end mark. The
entries of arrays carry no index: a counter in the condition says where the
next one goes. A damage condition forgets its ticks and sums them up again.

Key definitions: `Condition`, `serialize`, `unserializeProp`, `unserialize`,
`createCondition`, `saveConditions`, `loadConditions`.
Key theorems: `unserialize_serializeData`, `loadConditions_saveConditions`.
-/
import Mathlib.Tactic
import ForgottenServer.MapDescription

namespace ForgottenServer

open ProtocolGame (Outfit)

/-! ### Conditions -/

/-- `ConditionType_t` -/
inductive ConditionType
  | none | poison | fire | energy | bleeding | haste | paralyze | outfit | invisible | light
  | manaShield | inFight | drunk | exhaustWeapon | regeneration | soul | muted
  | channelMutedTicks | yellTicks | attributes | exhaustCombat | exhaustHeal | pacified
  deriving DecidableEq, Repr

namespace ConditionType

/-- `1 << n` -/
def flag (n : UInt32) : UInt32 := 1 <<< n

def code : ConditionType → UInt32
  | .none => 0
  | .poison => flag 0 | .fire => flag 1 | .energy => flag 2 | .bleeding => flag 3
  | .haste => flag 4 | .paralyze => flag 5 | .outfit => flag 6 | .invisible => flag 7
  | .light => flag 8 | .manaShield => flag 9 | .inFight => flag 10 | .drunk => flag 11
  | .exhaustWeapon => flag 12 | .regeneration => flag 13 | .soul => flag 14
  | .muted => flag 15 | .channelMutedTicks => flag 16 | .yellTicks => flag 17
  | .attributes => flag 18 | .exhaustCombat => flag 19 | .exhaustHeal => flag 20
  | .pacified => flag 21

def all : List ConditionType :=
  [.none, .poison, .fire, .energy, .bleeding, .haste, .paralyze, .outfit, .invisible, .light,
    .manaShield, .inFight, .drunk, .exhaustWeapon, .regeneration, .soul, .muted,
    .channelMutedTicks, .yellTicks, .attributes, .exhaustCombat, .exhaustHeal, .pacified]

/-- The type of a number, if it has one. -/
def ofCode (n : UInt32) : Option ConditionType := all.find? fun t => t.code = n

end ConditionType

/-- `ConditionAttr_t` -/
inductive ConditionAttr
  | type | id | ticks | healthTicks | healthGain | manaTicks | manaGain | delayed | owner
  | intervalData | speedDelta | formulaMinA | formulaMinB | formulaMaxA | formulaMaxB | lightColor
  | lightLevel | lightTicks | lightInterval | soulTicks | soulGain | skills | stats | outfit
  | periodDamage | isBuff | subId | endMark
  deriving DecidableEq, Repr

namespace ConditionAttr

def code : ConditionAttr → UInt8
  | .type => 1 | .id => 2 | .ticks => 3 | .healthTicks => 4 | .healthGain => 5 | .manaTicks => 6
  | .manaGain => 7 | .delayed => 8 | .owner => 9 | .intervalData => 10 | .speedDelta => 11
  | .formulaMinA => 12 | .formulaMinB => 13 | .formulaMaxA => 14 | .formulaMaxB => 15
  | .lightColor => 16 | .lightLevel => 17 | .lightTicks => 18 | .lightInterval => 19
  | .soulTicks => 20 | .soulGain => 21 | .skills => 22 | .stats => 23 | .outfit => 24
  | .periodDamage => 25 | .isBuff => 26 | .subId => 27 | .endMark => 254

/-- The attribute of a byte, if it has one. -/
def ofCode : UInt8 → Option ConditionAttr
  | 1 => some .type | 2 => some .id | 3 => some .ticks | 4 => some .healthTicks
  | 5 => some .healthGain | 6 => some .manaTicks | 7 => some .manaGain | 8 => some .delayed
  | 9 => some .owner | 10 => some .intervalData | 11 => some .speedDelta
  | 12 => some .formulaMinA | 13 => some .formulaMinB | 14 => some .formulaMaxA
  | 15 => some .formulaMaxB | 16 => some .lightColor | 17 => some .lightLevel
  | 18 => some .lightTicks | 19 => some .lightInterval | 20 => some .soulTicks
  | 21 => some .soulGain | 22 => some .skills | 23 => some .stats | 24 => some .outfit
  | 25 => some .periodDamage | 26 => some .isBuff | 27 => some .subId | 254 => some .endMark
  | _ => none

theorem ofCode_code (a : ConditionAttr) : ofCode a.code = some a := by cases a <;> rfl

end ConditionAttr

structure IntervalInfo where
  timeLeft : Int32
  value : Int32
  interval : Int32
  deriving DecidableEq, Repr

/-- The members that the classes add to `Condition`, where they are stored. The
formulas are the bits of their floating-point numbers. -/
inductive ConditionData
  | generic
  | invisible
  | attributes (skills : Fin 7 → Int32) (stats : Fin 4 → Int32) (currentSkill currentStat : ℕ)
  | regeneration (healthTicks healthGain manaTicks manaGain : UInt32)
  | soul (soulTicks soulGain : UInt32)
  | damage (damageList : List IntervalInfo) (periodDamage : Int32) (delayed : Bool)
  | speed (speedDelta : Int32) (mina minb maxa maxb : UInt32)
  | outfit (outfit : Outfit)
  | light (color level : UInt8) (internalLightTicks lightChangeInterval : UInt32)
  deriving DecidableEq

structure Condition where
  id : Int8
  conditionType : UInt32
  ticks : Int32
  isBuff : Bool
  subId : UInt32
  data : ConditionData
  deriving DecidableEq

namespace Condition

/-- `Condition::isPersistent` -/
def isPersistent (c : Condition) : Bool := c.ticks ≠ -1 && (c.id = -1 || c.id = 0)

/-- The class that `Condition::createCondition` builds for a type, with the
values of its constructor. -/
def createData (type : UInt32) : Option ConditionData :=
  match ConditionType.ofCode type with
  | some .poison | some .fire | some .energy | some .bleeding => some (.damage [] 0 false)
  | some .haste | some .paralyze => some (.speed 0 0 0 0 0)
  | some .invisible => some .invisible
  | some .outfit => some (.outfit {})
  | some .light => some (.light 0 0 0 0)
  | some .regeneration => some (.regeneration 1000 0 1000 0)
  | some .soul => some (.soul 0 0)
  | some .attributes => some (.attributes (fun _ => 0) (fun _ => 0) 0 0)
  | some .inFight | some .drunk | some .exhaustWeapon | some .exhaustCombat | some .exhaustHeal
  | some .muted | some .channelMutedTicks | some .yellTicks | some .pacified | some .manaShield =>
    some .generic
  | _ => none

/-- `Condition::createCondition`. A damage condition takes no ticks. -/
def build (id : Int8) (type : UInt32) (ticks : Int32) (buff : Bool) (subId : UInt32) :
    Option Condition :=
  (createData type).map fun data =>
    { id, conditionType := type, isBuff := buff, subId, data
      ticks := match data with | .damage .. => 0 | _ => ticks }

/-! ### Writing -/

def int32Bytes (n : Int32) : List UInt8 := Bytes.put 4 n.toUInt32.toNat
def uint32Bytes (n : UInt32) : List UInt8 := Bytes.put 4 n.toNat

/-- The members of an `Outfit_t` in memory. -/
def outfitBytes (o : Outfit) : List UInt8 :=
  Bytes.put 2 o.lookType.toNat ++ (Bytes.put 2 o.lookTypeEx.toNat ++
    [o.lookHead, o.lookBody, o.lookLegs, o.lookFeet])

/-- The members of an `IntervalInfo` in memory. -/
def intervalBytes (i : IntervalInfo) : List UInt8 :=
  int32Bytes i.timeLeft ++ (int32Bytes i.value ++ int32Bytes i.interval)

/-- A tagged field. -/
def field (a : ConditionAttr) (bytes : List UInt8) : List UInt8 := a.code :: bytes

/-- `Condition::serialize` of the base class. -/
def baseSerialize (c : Condition) : List UInt8 :=
  field .type (uint32Bytes c.conditionType) ++ field .id (int32Bytes c.id.toInt32) ++
    field .ticks (int32Bytes c.ticks) ++ field .isBuff [if c.isBuff then 1 else 0] ++
    field .subId (uint32Bytes c.subId)

/-- What the classes write behind the base class. -/
def serializeData : ConditionData → List UInt8
  | .generic | .invisible => []
  | .attributes skills stats _ _ =>
    (List.ofFn skills).flatMap (fun n => field .skills (int32Bytes n)) ++
      (List.ofFn stats).flatMap fun n => field .stats (int32Bytes n)
  | .regeneration healthTicks healthGain manaTicks manaGain =>
    field .healthTicks (uint32Bytes healthTicks) ++ field .healthGain (uint32Bytes healthGain) ++
      field .manaTicks (uint32Bytes manaTicks) ++ field .manaGain (uint32Bytes manaGain)
  | .soul soulTicks soulGain =>
    field .soulGain (uint32Bytes soulGain) ++ field .soulTicks (uint32Bytes soulTicks)
  | .damage damageList periodDamage delayed =>
    field .delayed [if delayed then 1 else 0] ++ field .periodDamage (int32Bytes periodDamage) ++
      damageList.flatMap fun info => field .intervalData (intervalBytes info)
  | .speed speedDelta mina minb maxa maxb =>
    field .speedDelta (int32Bytes speedDelta) ++ field .formulaMinA (uint32Bytes mina) ++
      field .formulaMinB (uint32Bytes minb) ++ field .formulaMaxA (uint32Bytes maxa) ++
      field .formulaMaxB (uint32Bytes maxb)
  | .outfit outfit => field .outfit (outfitBytes outfit)
  | .light color level internalLightTicks lightChangeInterval =>
    field .lightColor (uint32Bytes color.toUInt32) ++ field .lightLevel (uint32Bytes level.toUInt32) ++
      field .lightTicks (uint32Bytes internalLightTicks) ++
      field .lightInterval (uint32Bytes lightChangeInterval)

/-- `serialize`, of the class of the condition. -/
def serialize (c : Condition) : List UInt8 := c.baseSerialize ++ serializeData c.data

/-- The blob that `IOLoginData::savePlayer` writes. -/
def saveConditions (conditions : List Condition) : List UInt8 :=
  (conditions.filter (·.isPersistent)).flatMap fun c => c.serialize ++ [ConditionAttr.endMark.code]

/-! ### Reading -/

def uint32Of (b : List UInt8) : UInt32 := .ofNat (Bytes.value b)
def int32Of (b : List UInt8) : Int32 := (uint32Of b).toInt32

def outfitOf (b : List UInt8) : Outfit where
  lookType := .ofNat (Bytes.value (b.take 2))
  lookTypeEx := .ofNat (Bytes.value ((b.drop 2).take 2))
  lookHead := (b[4]?).getD 0
  lookBody := (b[5]?).getD 0
  lookLegs := (b[6]?).getD 0
  lookFeet := (b[7]?).getD 0

def intervalOf (b : List UInt8) : IntervalInfo where
  timeLeft := int32Of (b.take 4)
  value := int32Of ((b.drop 4).take 4)
  interval := int32Of ((b.drop 8).take 4)

/-- The result of a reading function: whether it succeeded, the condition and
the rest of the stream. -/
abbrev Parsed := Bool × Condition × List UInt8

/-- `propStream.read<T>` for a type of `n` bytes. -/
def read (n : ℕ) (c : Condition) (s : List UInt8) (f : List UInt8 → Condition) : Parsed :=
  match Bytes.take n s with
  | some (b, s) => (true, f b, s)
  | none => (false, c, s)

/-- `Condition::unserializeProp` of the base class. -/
def baseUnserializeProp (attr : Option ConditionAttr) (c : Condition) (s : List UInt8) : Parsed :=
  match attr with
  | some .type => read 4 c s fun b => { c with conditionType := uint32Of b }
  | some .id => read 4 c s fun b => { c with id := (int32Of b).toInt8 }
  | some .ticks => read 4 c s fun b => { c with ticks := int32Of b }
  | some .isBuff => read 1 c s fun b => { c with isBuff := Bytes.value b ≠ 0 }
  | some .subId => read 4 c s fun b => { c with subId := uint32Of b }
  | some .endMark => (true, c, s)
  | _ => (false, c, s)

/-- `skills[i] = value`; there is nothing to write to past the array. -/
def setAt {n : ℕ} (f : Fin n → Int32) (i : ℕ) (value : Int32) : Fin n → Int32 :=
  if h : i < n then Function.update f ⟨i, h⟩ value else f

/-- `unserializeProp`, of the class of the condition. -/
def unserializeProp (attr : Option ConditionAttr) (c : Condition) (s : List UInt8) : Parsed :=
  match c.data, attr with
  | .attributes skills stats i j, some .skills =>
    read 4 { c with data := .attributes skills stats (i + 1) j } s fun b =>
      { c with data := .attributes (setAt skills i (int32Of b)) stats (i + 1) j }
  | .attributes skills stats i j, some .stats =>
    read 4 { c with data := .attributes skills stats i (j + 1) } s fun b =>
      { c with data := .attributes skills (setAt stats j (int32Of b)) i (j + 1) }
  | .regeneration _ healthGain manaTicks manaGain, some .healthTicks =>
    read 4 c s fun b => { c with data := .regeneration (uint32Of b) healthGain manaTicks manaGain }
  | .regeneration healthTicks _ manaTicks manaGain, some .healthGain =>
    read 4 c s fun b => { c with data := .regeneration healthTicks (uint32Of b) manaTicks manaGain }
  | .regeneration healthTicks healthGain _ manaGain, some .manaTicks =>
    read 4 c s fun b => { c with data := .regeneration healthTicks healthGain (uint32Of b) manaGain }
  | .regeneration healthTicks healthGain manaTicks _, some .manaGain =>
    read 4 c s fun b => { c with data := .regeneration healthTicks healthGain manaTicks (uint32Of b) }
  | .soul soulTicks _, some .soulGain =>
    read 4 c s fun b => { c with data := .soul soulTicks (uint32Of b) }
  | .soul _ soulGain, some .soulTicks =>
    read 4 c s fun b => { c with data := .soul (uint32Of b) soulGain }
  | .damage damageList periodDamage _, some .delayed =>
    read 1 c s fun b => { c with data := .damage damageList periodDamage (Bytes.value b ≠ 0) }
  | .damage damageList _ delayed, some .periodDamage =>
    read 4 c s fun b => { c with data := .damage damageList (int32Of b) delayed }
  | .damage .., some .owner => read 4 c s fun _ => c
  | .damage damageList periodDamage delayed, some .intervalData =>
    read 12 c s fun b =>
      { c with
        data := .damage (damageList ++ [intervalOf b]) periodDamage delayed
        ticks := if c.ticks ≠ -1 then c.ticks + (intervalOf b).interval else c.ticks }
  | .speed _ mina minb maxa maxb, some .speedDelta =>
    read 4 c s fun b => { c with data := .speed (int32Of b) mina minb maxa maxb }
  | .speed speedDelta _ minb maxa maxb, some .formulaMinA =>
    read 4 c s fun b => { c with data := .speed speedDelta (uint32Of b) minb maxa maxb }
  | .speed speedDelta mina _ maxa maxb, some .formulaMinB =>
    read 4 c s fun b => { c with data := .speed speedDelta mina (uint32Of b) maxa maxb }
  | .speed speedDelta mina minb _ maxb, some .formulaMaxA =>
    read 4 c s fun b => { c with data := .speed speedDelta mina minb (uint32Of b) maxb }
  | .speed speedDelta mina minb maxa _, some .formulaMaxB =>
    read 4 c s fun b => { c with data := .speed speedDelta mina minb maxa (uint32Of b) }
  | .outfit _, some .outfit => read 8 c s fun b => { c with data := .outfit (outfitOf b) }
  | .light _ level internalLightTicks lightChangeInterval, some .lightColor =>
    read 4 c s fun b =>
      { c with data := .light (uint32Of b).toUInt8 level internalLightTicks lightChangeInterval }
  | .light color _ internalLightTicks lightChangeInterval, some .lightLevel =>
    read 4 c s fun b =>
      { c with data := .light color (uint32Of b).toUInt8 internalLightTicks lightChangeInterval }
  | .light color level _ lightChangeInterval, some .lightTicks =>
    read 4 c s fun b => { c with data := .light color level (uint32Of b) lightChangeInterval }
  | .light color level internalLightTicks _, some .lightInterval =>
    read 4 c s fun b => { c with data := .light color level internalLightTicks (uint32Of b) }
  | _, attr => baseUnserializeProp attr c s

theorem read_length (n : ℕ) (c : Condition) (s : List UInt8) (f : List UInt8 → Condition) :
    (read n c s f).2.2.length ≤ s.length := by
  unfold read
  cases h : Bytes.take n s with
  | none => exact le_refl _
  | some p =>
    have := Bytes.take_length h
    dsimp only
    omega

/-- A property of the stream left behind is one of the reads. -/
theorem unserializeProp_length (attr : Option ConditionAttr) (c : Condition) (s : List UInt8) :
    (unserializeProp attr c s).2.2.length ≤ s.length := by
  have hbase : (baseUnserializeProp attr c s).2.2.length ≤ s.length := by
    unfold baseUnserializeProp
    split <;> first | exact read_length .. | exact le_refl _
  unfold unserializeProp
  split <;> first | exact read_length .. | exact hbase

/-- `Condition::unserialize` -/
def unserialize (c : Condition) : List UInt8 → Parsed
  | [] => (true, c, [])
  | attr :: s =>
    if attr = ConditionAttr.endMark.code then (true, c, s)
    else
      let r := unserializeProp (ConditionAttr.ofCode attr) c s
      if r.1 then unserialize r.2.1 r.2.2 else r
termination_by s => s.length
decreasing_by
  have := unserializeProp_length (ConditionAttr.ofCode attr) c s
  rw [List.length_cons]
  omega

/-- A field of the header. -/
def expect (a : ConditionAttr) (n : ℕ) : List UInt8 → Option (List UInt8 × List UInt8)
  | [] => none
  | attr :: s => if attr = a.code then Bytes.take n s else none

/-- `Condition::createCondition` from a stream. -/
def createCondition (s : List UInt8) : Option (Condition × List UInt8) :=
  (expect .type 4 s).bind fun type =>
  (expect .id 4 type.2).bind fun id =>
  (expect .ticks 4 id.2).bind fun ticks =>
  (expect .isBuff 1 ticks.2).bind fun buff =>
  (expect .subId 4 buff.2).bind fun subId =>
    (build (int32Of id.1).toInt8 (uint32Of type.1) (int32Of ticks.1) (Bytes.value buff.1 ≠ 0)
      (uint32Of subId.1)).map fun c => (c, subId.2)

theorem expect_length {a : ConditionAttr} {n : ℕ} {s : List UInt8} {p : List UInt8 × List UInt8}
    (h : expect a n s = some p) : p.2.length < s.length := by
  cases s with
  | nil => cases h
  | cons attr s =>
    unfold expect at h
    dsimp only at h
    split at h
    · have := Bytes.take_length (a := p.1) (t := p.2) h
      rw [List.length_cons]
      omega
    · cases h

theorem createCondition_length {s : List UInt8} {p : Condition × List UInt8}
    (h : createCondition s = some p) : p.2.length < s.length := by
  obtain ⟨type, h1, h⟩ := Option.bind_eq_some_iff.1 h
  obtain ⟨id, h2, h⟩ := Option.bind_eq_some_iff.1 h
  obtain ⟨ticks, h3, h⟩ := Option.bind_eq_some_iff.1 h
  obtain ⟨buff, h4, h⟩ := Option.bind_eq_some_iff.1 h
  obtain ⟨subId, h5, h⟩ := Option.bind_eq_some_iff.1 h
  obtain ⟨c, -, rfl⟩ := Option.map_eq_some_iff.1 h
  have := expect_length h1
  have := expect_length h2
  have := expect_length h3
  have := expect_length h4
  have := expect_length h5
  dsimp only
  omega

theorem unserialize_length (c : Condition) (s : List UInt8) :
    (unserialize c s).2.2.length ≤ s.length := by
  induction hn : s.length using Nat.strong_induction_on generalizing c s with
  | _ n ih =>
    cases s with
    | nil =>
      unfold unserialize
      exact Nat.zero_le _
    | cons attr s =>
      have hprop := unserializeProp_length (ConditionAttr.ofCode attr) c s
      rw [List.length_cons] at hn
      unfold unserialize
      dsimp only
      split_ifs
      · dsimp only
        omega
      · have := ih _ (by omega) (unserializeProp (ConditionAttr.ofCode attr) c s).2.1
          (unserializeProp (ConditionAttr.ofCode attr) c s).2.2 rfl
        omega
      · omega

/-- The loop of `IOLoginData::loadPlayer`: the stored conditions, and the stream
where no condition starts. -/
def loadConditions (stored : List Condition) (s : List UInt8) : List Condition × List UInt8 :=
  match _h : createCondition s with
  | some (c, t) =>
    loadConditions (if (unserialize c t).1 then (unserialize c t).2.1 :: stored else stored)
      (unserialize c t).2.2
  | none => (stored, s)
termination_by s.length
decreasing_by
  have := createCondition_length _h
  have := unserialize_length c t
  dsimp only at *
  omega

/-! ### Bytes read back -/

@[simp] theorem length_uint32Bytes (n : UInt32) : (uint32Bytes n).length = 4 := Bytes.length_put 4 _
@[simp] theorem length_int32Bytes (n : Int32) : (int32Bytes n).length = 4 := Bytes.length_put 4 _

@[simp] theorem uint32Of_uint32Bytes (n : UInt32) : uint32Of (uint32Bytes n) = n := by
  unfold uint32Of uint32Bytes
  rw [Bytes.value_put_of_lt n.toNat_lt, UInt32.ofNat_toNat]

@[simp] theorem int32Of_int32Bytes (n : Int32) : int32Of (int32Bytes n) = n := by
  unfold int32Of
  show (uint32Of (uint32Bytes n.toUInt32)).toInt32 = n
  rw [uint32Of_uint32Bytes]
  rfl

@[simp] theorem length_outfitBytes (o : Outfit) : (outfitBytes o).length = 8 := rfl

@[simp] theorem outfitOf_outfitBytes (o : Outfit) : outfitOf (outfitBytes o) = o := by
  have h1 : (outfitBytes o).take 2 = Bytes.put 2 o.lookType.toNat :=
    List.take_left' (Bytes.length_put 2 _)
  have h2 : ((outfitBytes o).drop 2).take 2 = Bytes.put 2 o.lookTypeEx.toNat := by
    unfold outfitBytes
    rw [List.drop_left' (Bytes.length_put 2 _), List.take_left' (Bytes.length_put 2 _)]
  unfold outfitOf
  rw [h1, h2, ProtocolGame.value_put_u16, ProtocolGame.value_put_u16, UInt16.ofNat_toNat,
    UInt16.ofNat_toNat]
  rfl

@[simp] theorem length_intervalBytes (i : IntervalInfo) : (intervalBytes i).length = 12 := rfl

@[simp] theorem intervalOf_intervalBytes (i : IntervalInfo) : intervalOf (intervalBytes i) = i := by
  have h1 : (intervalBytes i).take 4 = int32Bytes i.timeLeft :=
    List.take_left' (length_int32Bytes _)
  have h2 : ((intervalBytes i).drop 4).take 4 = int32Bytes i.value := by
    unfold intervalBytes
    rw [List.drop_left' (length_int32Bytes _), List.take_left' (length_int32Bytes _)]
  have h3 : ((intervalBytes i).drop 8).take 4 = int32Bytes i.interval := by
    unfold intervalBytes
    rw [← List.append_assoc, List.drop_left' (by simp), List.take_of_length_le (by simp)]
  unfold intervalOf
  rw [h1, h2, h3, int32Of_int32Bytes, int32Of_int32Bytes, int32Of_int32Bytes]

theorem take_append_of_length {n : ℕ} {b : List UInt8} (hb : b.length = n) (s : List UInt8) :
    Bytes.take n (b ++ s) = some (b, s) := by
  subst hb
  exact Bytes.take_append b s

theorem read_append {n : ℕ} {b : List UInt8} (hb : b.length = n) (c : Condition) (s : List UInt8)
    (f : List UInt8 → Condition) : read n c (b ++ s) f = (true, f b, s) := by
  unfold read
  rw [take_append_of_length hb]

/-- A field that the condition reads. -/
theorem unserialize_field {a : ConditionAttr} {n : ℕ} {c c₁ : Condition} {f : List UInt8 → Condition}
    {b s : List UInt8} (ha : a ≠ .endMark) (hb : b.length = n)
    (h : ∀ s, unserializeProp (some a) c s = read n c₁ s f) :
    unserialize c (field a b ++ s) = unserialize (f b) s := by
  have hcode : a.code ≠ ConditionAttr.endMark.code := by
    intro heq
    have := congrArg ConditionAttr.ofCode heq
    rw [ConditionAttr.ofCode_code, ConditionAttr.ofCode_code] at this
    exact ha (Option.some.inj this)
  show unserialize c (a.code :: (b ++ s)) = _
  conv_lhs => unfold unserialize
  rw [if_neg hcode, ConditionAttr.ofCode_code, h, read_append hb]
  rfl

theorem unserialize_end (c : Condition) (s : List UInt8) :
    unserialize c (ConditionAttr.endMark.code :: s) = (true, c, s) := by
  unfold unserialize
  exact if_pos rfl

/-! ### One condition -/

section Data

variable (id : Int8) (conditionType : UInt32) (ticks : Int32) (isBuff : Bool) (subId : UInt32)
  (s : List UInt8)

theorem unserialize_regeneration (healthTicks healthGain manaTicks manaGain : UInt32) :
    unserialize ⟨id, conditionType, ticks, isBuff, subId, .regeneration 1000 0 1000 0⟩
        (serializeData (.regeneration healthTicks healthGain manaTicks manaGain) ++
          ConditionAttr.endMark.code :: s) =
      (true, ⟨id, conditionType, ticks, isBuff, subId,
        .regeneration healthTicks healthGain manaTicks manaGain⟩, s) := by
  unfold serializeData
  simp only [List.append_assoc]
  refine (unserialize_field (by decide) (length_uint32Bytes _) fun _ => rfl).trans ?_
  refine (unserialize_field (by decide) (length_uint32Bytes _) fun _ => rfl).trans ?_
  refine (unserialize_field (by decide) (length_uint32Bytes _) fun _ => rfl).trans ?_
  refine (unserialize_field (by decide) (length_uint32Bytes _) fun _ => rfl).trans ?_
  rw [unserialize_end]
  simp only [uint32Of_uint32Bytes]

theorem unserialize_soul (soulTicks soulGain : UInt32) :
    unserialize ⟨id, conditionType, ticks, isBuff, subId, .soul 0 0⟩
        (serializeData (.soul soulTicks soulGain) ++ ConditionAttr.endMark.code :: s) =
      (true, ⟨id, conditionType, ticks, isBuff, subId, .soul soulTicks soulGain⟩, s) := by
  unfold serializeData
  simp only [List.append_assoc]
  refine (unserialize_field (by decide) (length_uint32Bytes _) fun _ => rfl).trans ?_
  refine (unserialize_field (by decide) (length_uint32Bytes _) fun _ => rfl).trans ?_
  rw [unserialize_end]
  simp only [uint32Of_uint32Bytes]

theorem unserialize_speed (speedDelta : Int32) (mina minb maxa maxb : UInt32) :
    unserialize ⟨id, conditionType, ticks, isBuff, subId, .speed 0 0 0 0 0⟩
        (serializeData (.speed speedDelta mina minb maxa maxb) ++
          ConditionAttr.endMark.code :: s) =
      (true, ⟨id, conditionType, ticks, isBuff, subId,
        .speed speedDelta mina minb maxa maxb⟩, s) := by
  unfold serializeData
  simp only [List.append_assoc]
  refine (unserialize_field (by decide) (length_int32Bytes _) fun _ => rfl).trans ?_
  refine (unserialize_field (by decide) (length_uint32Bytes _) fun _ => rfl).trans ?_
  refine (unserialize_field (by decide) (length_uint32Bytes _) fun _ => rfl).trans ?_
  refine (unserialize_field (by decide) (length_uint32Bytes _) fun _ => rfl).trans ?_
  refine (unserialize_field (by decide) (length_uint32Bytes _) fun _ => rfl).trans ?_
  rw [unserialize_end]
  simp only [uint32Of_uint32Bytes, int32Of_int32Bytes]

theorem unserialize_outfit (outfit : Outfit) :
    unserialize ⟨id, conditionType, ticks, isBuff, subId, .outfit {}⟩
        (serializeData (.outfit outfit) ++ ConditionAttr.endMark.code :: s) =
      (true, ⟨id, conditionType, ticks, isBuff, subId, .outfit outfit⟩, s) := by
  refine (unserialize_field (by decide) (length_outfitBytes outfit) fun _ => rfl).trans ?_
  rw [unserialize_end, outfitOf_outfitBytes]

theorem unserialize_light (color level : UInt8) (internalLightTicks lightChangeInterval : UInt32) :
    unserialize ⟨id, conditionType, ticks, isBuff, subId, .light 0 0 0 0⟩
        (serializeData (.light color level internalLightTicks lightChangeInterval) ++
          ConditionAttr.endMark.code :: s) =
      (true, ⟨id, conditionType, ticks, isBuff, subId,
        .light color level internalLightTicks lightChangeInterval⟩, s) := by
  unfold serializeData
  simp only [List.append_assoc]
  refine (unserialize_field (by decide) (length_uint32Bytes _) fun _ => rfl).trans ?_
  refine (unserialize_field (by decide) (length_uint32Bytes _) fun _ => rfl).trans ?_
  refine (unserialize_field (by decide) (length_uint32Bytes _) fun _ => rfl).trans ?_
  refine (unserialize_field (by decide) (length_uint32Bytes _) fun _ => rfl).trans ?_
  rw [unserialize_end]
  simp only [uint32Of_uint32Bytes, UInt8.toUInt8_toUInt32]

/-- The values `l` written to an array from index `i` on. -/
def setFrom {n : ℕ} (f : Fin n → Int32) : ℕ → List Int32 → Fin n → Int32
  | _, [] => f
  | i, value :: l => setFrom (setAt f i value) (i + 1) l

theorem setFrom_apply {n : ℕ} (k : Fin n) : ∀ (l : List Int32) (f : Fin n → Int32) (i : ℕ),
    setFrom f i l k = if i ≤ k then (l[k - i]?).getD (f k) else f k
  | [], f, i => by simp [setFrom]
  | value :: l, f, i => by
    unfold setFrom
    rw [setFrom_apply k l]
    have hset : setAt f i value k = if i = k then value else f k := by
      unfold setAt
      by_cases hi : i < n
      · rw [dif_pos hi, Function.update_apply]
        congr 1
        rw [Fin.ext_iff, eq_iff_iff]
        exact eq_comm
      · rw [dif_neg hi, if_neg (by omega)]
    rcases Nat.lt_trichotomy i k with hlt | heq | hgt
    · obtain ⟨d, hd⟩ : ∃ d, k.1 - i = d + 1 := ⟨k - i - 1, by omega⟩
      rw [if_pos (by omega), if_pos (by omega), hset, if_neg (by omega), hd, List.getElem?_cons_succ,
        show k.1 - (i + 1) = d by omega]
    · rw [if_neg (by omega), if_pos (by omega), hset, if_pos heq, ← heq, Nat.sub_self]
      rfl
    · rw [if_neg (by omega), if_neg (by omega), hset, if_neg (by omega)]

theorem setFrom_ofFn {n : ℕ} (f g : Fin n → Int32) : setFrom f 0 (List.ofFn g) = g := by
  funext k
  rw [setFrom_apply, if_pos (Nat.zero_le _), Nat.sub_zero]
  simp

theorem unserialize_skills (stats : Fin 4 → Int32) (j : ℕ) :
    ∀ (l : List Int32) (skills : Fin 7 → Int32) (i : ℕ),
      unserialize ⟨id, conditionType, ticks, isBuff, subId, .attributes skills stats i j⟩
          (l.flatMap (fun n => field .skills (int32Bytes n)) ++ s) =
        unserialize ⟨id, conditionType, ticks, isBuff, subId,
          .attributes (setFrom skills i l) stats (i + l.length) j⟩ s
  | [], skills, i => rfl
  | n :: l, skills, i => by
    rw [List.flatMap_cons, List.append_assoc]
    refine (unserialize_field (by decide) (length_int32Bytes _) fun _ => rfl).trans ?_
    refine (unserialize_skills stats j l _ _).trans ?_
    rw [int32Of_int32Bytes, List.length_cons, Nat.add_assoc, Nat.add_comm 1]
    rfl

theorem unserialize_stats (skills : Fin 7 → Int32) (i : ℕ) :
    ∀ (l : List Int32) (stats : Fin 4 → Int32) (j : ℕ),
      unserialize ⟨id, conditionType, ticks, isBuff, subId, .attributes skills stats i j⟩
          (l.flatMap (fun n => field .stats (int32Bytes n)) ++ s) =
        unserialize ⟨id, conditionType, ticks, isBuff, subId,
          .attributes skills (setFrom stats j l) i (j + l.length)⟩ s
  | [], stats, j => rfl
  | n :: l, stats, j => by
    rw [List.flatMap_cons, List.append_assoc]
    refine (unserialize_field (by decide) (length_int32Bytes _) fun _ => rfl).trans ?_
    refine (unserialize_stats skills i l _ _).trans ?_
    rw [int32Of_int32Bytes, List.length_cons, Nat.add_assoc, Nat.add_comm 1]
    rfl

theorem unserialize_attributes (skills : Fin 7 → Int32) (stats : Fin 4 → Int32) (i j : ℕ) :
    unserialize ⟨id, conditionType, ticks, isBuff, subId,
        .attributes (fun _ => 0) (fun _ => 0) 0 0⟩
        (serializeData (.attributes skills stats i j) ++ ConditionAttr.endMark.code :: s) =
      (true, ⟨id, conditionType, ticks, isBuff, subId, .attributes skills stats 7 4⟩, s) := by
  unfold serializeData
  rw [List.append_assoc, unserialize_skills, unserialize_stats, unserialize_end, setFrom_ofFn,
    setFrom_ofFn, List.length_ofFn, List.length_ofFn]

/-- The ticks that a damage condition sums up. -/
def sumTicks (damageList : List IntervalInfo) (ticks : Int32) : Int32 :=
  damageList.foldl (fun ticks info => if ticks ≠ -1 then ticks + info.interval else ticks) ticks

theorem unserialize_intervals (periodDamage : Int32) (delayed : Bool) :
    ∀ (l done : List IntervalInfo) (ticks : Int32),
      unserialize ⟨id, conditionType, ticks, isBuff, subId, .damage done periodDamage delayed⟩
          (l.flatMap (fun info => field .intervalData (intervalBytes info)) ++ s) =
        unserialize ⟨id, conditionType, sumTicks l ticks, isBuff, subId,
          .damage (done ++ l) periodDamage delayed⟩ s
  | [], done, ticks => by
    rw [List.append_nil]
    rfl
  | info :: l, done, ticks => by
    rw [List.flatMap_cons, List.append_assoc]
    refine (unserialize_field (by decide) (length_intervalBytes info) fun _ => rfl).trans ?_
    refine (unserialize_intervals periodDamage delayed l _ _).trans ?_
    rw [intervalOf_intervalBytes, List.append_assoc]
    rfl

theorem unserialize_damage (damageList : List IntervalInfo) (periodDamage : Int32) (delayed : Bool) :
    unserialize ⟨id, conditionType, ticks, isBuff, subId, .damage [] 0 false⟩
        (serializeData (.damage damageList periodDamage delayed) ++
          ConditionAttr.endMark.code :: s) =
      (true, ⟨id, conditionType, sumTicks damageList ticks, isBuff, subId,
        .damage damageList periodDamage delayed⟩, s) := by
  unfold serializeData
  simp only [List.append_assoc]
  refine (unserialize_field (by decide) (List.length_singleton) fun _ => rfl).trans ?_
  refine (unserialize_field (by decide) (length_int32Bytes _) fun _ => rfl).trans ?_
  refine (unserialize_intervals _ _ _ _ _ _ _ damageList [] ticks).trans ?_
  rw [unserialize_end, int32Of_int32Bytes]
  cases delayed <;> rfl

end Data

/-! ### The whole blob -/

/-- The members as the constructor of the class sets them. -/
def initial : ConditionData → ConditionData
  | .generic => .generic
  | .invisible => .invisible
  | .attributes .. => .attributes (fun _ => 0) (fun _ => 0) 0 0
  | .regeneration .. => .regeneration 1000 0 1000 0
  | .soul .. => .soul 0 0
  | .damage .. => .damage [] 0 false
  | .speed .. => .speed 0 0 0 0 0
  | .outfit .. => .outfit {}
  | .light .. => .light 0 0 0 0

/-- The members without the counters of reading. -/
def forget : ConditionData → ConditionData
  | .attributes skills stats _ _ => .attributes skills stats 0 0
  | data => data

/-- The sum of the intervals of a damage condition. -/
def totalInterval (damageList : List IntervalInfo) : ℤ :=
  (damageList.map fun info => info.interval.toInt).sum

/-- The conditions of the game: of the class of their type, with intervals that
are not negative and sum up to an `int32_t`. -/
structure Reachable (c : Condition) : Prop where
  cls : createData c.conditionType = some (initial c.data)
  interval : ∀ damageList periodDamage delayed, c.data = .damage damageList periodDamage delayed →
    ∀ info ∈ damageList, 0 ≤ info.interval.toInt
  total : ∀ damageList periodDamage delayed, c.data = .damage damageList periodDamage delayed →
    totalInterval damageList < 2 ^ 31

/-- The ticks of a condition that is read back. -/
def restoredTicks (c : Condition) : ℤ :=
  match c.data with
  | .damage damageList _ _ => totalInterval damageList
  | _ => c.ticks.toInt

/-- A condition that was read back. -/
structure Restored (c c' : Condition) : Prop where
  conditionType : c'.conditionType = c.conditionType
  id : c'.id = c.id
  subId : c'.subId = c.subId
  isBuff : c'.isBuff = c.isBuff
  ticks : c'.ticks.toInt = c.restoredTicks
  data : forget c'.data = forget c.data

theorem sumTicks_toInt : ∀ (damageList : List IntervalInfo) (ticks : Int32),
    (∀ info ∈ damageList, 0 ≤ info.interval.toInt) → 0 ≤ ticks.toInt →
    ticks.toInt + totalInterval damageList < 2 ^ 31 →
      (sumTicks damageList ticks).toInt = ticks.toInt + totalInterval damageList
  | [], ticks, _, _, _ => (add_zero _).symm
  | info :: l, ticks, hl, hticks, htotal => by
    have hinfo := hl info List.mem_cons_self
    have hrest : ∀ i ∈ l, 0 ≤ i.interval.toInt := fun i hi => hl i (List.mem_cons_of_mem _ hi)
    have hsum : totalInterval (info :: l) = info.interval.toInt + totalInterval l := List.sum_cons
    have hnonneg : 0 ≤ totalInterval l := by
      apply List.sum_nonneg
      intro n hn
      obtain ⟨i, hi, rfl⟩ := List.mem_map.1 hn
      exact hrest i hi
    have hne : ticks ≠ -1 := by
      rintro rfl
      exact absurd hticks (by decide)
    have hadd : (ticks + info.interval).toInt = ticks.toInt + info.interval.toInt := by
      rw [Int32.toInt_add]
      apply Int.bmod_eq_of_le <;> omega
    have hnext := sumTicks_toInt l (ticks + info.interval) hrest (by omega) (by omega)
    show (sumTicks l (if ticks ≠ -1 then ticks + info.interval else ticks)).toInt = _
    rw [if_pos hne, hnext, hadd, hsum, add_assoc]

theorem expect_field {a : ConditionAttr} {n : ℕ} {b : List UInt8} (hb : b.length = n)
    (s : List UInt8) : expect a n (field a b ++ s) = some (b, s) := by
  show (if a.code = a.code then Bytes.take n (b ++ s) else none) = _
  rw [if_pos rfl, take_append_of_length hb]

/-- The header is read back, and the condition of its class is built. -/
theorem createCondition_baseSerialize (c : Condition) (s : List UInt8) :
    createCondition (c.baseSerialize ++ s) =
      (build c.id c.conditionType c.ticks c.isBuff c.subId).map fun c => (c, s) := by
  have hid : (int32Of (int32Bytes c.id.toInt32)).toInt8 = c.id := by
    rw [int32Of_int32Bytes]
    exact Int8.toInt8_toInt32 c.id
  have hbuff : decide (Bytes.value [if c.isBuff then 1 else 0] ≠ 0) = c.isBuff := by
    cases c.isBuff <;> rfl
  unfold createCondition baseSerialize
  simp only [List.append_assoc]
  rw [expect_field (length_uint32Bytes _), Option.bind_some, expect_field (length_int32Bytes _),
    Option.bind_some, expect_field (length_int32Bytes _), Option.bind_some,
    expect_field List.length_singleton, Option.bind_some, expect_field (length_uint32Bytes _),
    Option.bind_some]
  dsimp only
  rw [hid, hbuff, uint32Of_uint32Bytes, int32Of_int32Bytes, uint32Of_uint32Bytes]

/-- A condition of its class takes the fields that one of the same class wrote. -/
theorem unserialize_serializeData {c : Condition} (h : c.Reachable) (s : List UInt8) :
    ∃ c', (build c.id c.conditionType c.ticks c.isBuff c.subId).map
        (fun fresh => unserialize fresh (serializeData c.data ++ ConditionAttr.endMark.code :: s)) =
      some (true, c', s) ∧ Restored c c' := by
  have hbuild : build c.id c.conditionType c.ticks c.isBuff c.subId =
      some { c with data := initial c.data, ticks := match initial c.data with
        | .damage .. => 0
        | _ => c.ticks } := by
    unfold build
    rw [h.cls]
    rfl
  obtain ⟨id, conditionType, ticks, isBuff, subId, data⟩ := c
  rw [hbuild, Option.map_some]
  cases data with
  | generic =>
    refine ⟨_, congrArg some (unserialize_end _ s), rfl, rfl, rfl, rfl, rfl, rfl⟩
  | invisible => exact ⟨_, congrArg some (unserialize_end _ s), rfl, rfl, rfl, rfl, rfl, rfl⟩
  | attributes skills stats i j =>
    exact ⟨_, congrArg some (unserialize_attributes _ _ _ _ _ s skills stats i j), rfl, rfl, rfl,
      rfl, rfl, rfl⟩
  | regeneration =>
    exact ⟨_, congrArg some (unserialize_regeneration _ _ _ _ _ s _ _ _ _), rfl, rfl, rfl, rfl,
      rfl, rfl⟩
  | soul => exact ⟨_, congrArg some (unserialize_soul _ _ _ _ _ s _ _), rfl, rfl, rfl, rfl, rfl, rfl⟩
  | damage damageList periodDamage delayed =>
    refine ⟨_, congrArg some (unserialize_damage _ _ _ _ _ s damageList periodDamage delayed),
      rfl, rfl, rfl, rfl, ?_, rfl⟩
    have hsum := sumTicks_toInt damageList 0 (h.interval _ _ _ rfl) (le_refl _)
      (by have := h.total _ _ _ rfl; simpa using this)
    show (sumTicks damageList 0).toInt = totalInterval damageList
    rw [hsum]
    exact zero_add _
  | speed => exact ⟨_, congrArg some (unserialize_speed _ _ _ _ _ s _ _ _ _ _), rfl, rfl, rfl, rfl, rfl, rfl⟩
  | outfit => exact ⟨_, congrArg some (unserialize_outfit _ _ _ _ _ s _), rfl, rfl, rfl, rfl, rfl, rfl⟩
  | light => exact ⟨_, congrArg some (unserialize_light _ _ _ _ _ s _ _ _ _), rfl, rfl, rfl, rfl, rfl, rfl⟩

theorem loadConditions_some {s t : List UInt8} {c : Condition} (stored : List Condition)
    (h : createCondition s = some (c, t)) :
    loadConditions stored s =
      loadConditions (if (unserialize c t).1 then (unserialize c t).2.1 :: stored else stored)
        (unserialize c t).2.2 := by
  rw [loadConditions]
  split
  · next hc =>
    rw [h] at hc
    cases hc
    rfl
  · next hc =>
    rw [h] at hc
    cases hc

/-- The loop takes one condition after another. -/
theorem loadConditions_flatMap (cs : List Condition) (h : ∀ c ∈ cs, c.Reachable) :
    ∀ stored : List Condition, ∃ loaded,
      loadConditions stored (cs.flatMap fun c => c.serialize ++ [ConditionAttr.endMark.code]) =
        (loaded ++ stored, []) ∧ List.Forall₂ Restored cs.reverse loaded := by
  induction cs with
  | nil =>
    intro stored
    refine ⟨[], ?_, .nil⟩
    rw [List.flatMap_nil]
    unfold loadConditions
    rfl
  | cons c cs ih =>
    intro stored
    obtain ⟨c', hc', hrestored⟩ := unserialize_serializeData (h c List.mem_cons_self)
      (cs.flatMap fun c => c.serialize ++ [ConditionAttr.endMark.code])
    obtain ⟨fresh, hbuild, hunserialize⟩ := Option.map_eq_some_iff.1 hc'
    obtain ⟨loaded, hloaded, hall⟩ := ih (fun c hc => h c (List.mem_cons_of_mem _ hc))
      (c' :: stored)
    refine ⟨loaded ++ [c'], ?_, ?_⟩
    · have hcreate : createCondition ((c :: cs).flatMap fun c =>
          c.serialize ++ [ConditionAttr.endMark.code]) = some (fresh, serializeData c.data ++
            ConditionAttr.endMark.code ::
              cs.flatMap fun c => c.serialize ++ [ConditionAttr.endMark.code]) := by
        rw [List.flatMap_cons]
        unfold serialize
        rw [List.append_assoc, List.append_assoc, createCondition_baseSerialize, hbuild]
        rfl
      rw [loadConditions_some stored hcreate, hunserialize, if_pos rfl, hloaded]
      exact congrArg (·, []) (List.append_assoc loaded [c'] stored).symm
    · rw [List.reverse_cons]
      exact List.rel_append hall (.cons hrestored .nil)

/-- What `loadPlayer` reads from the conditions that `savePlayer` wrote: all of
them, in reverse. -/
theorem loadConditions_saveConditions (cs : List Condition)
    (hpersistent : ∀ c ∈ cs, c.isPersistent) (h : ∀ c ∈ cs, c.Reachable) :
    List.Forall₂ Restored cs.reverse (loadConditions [] (saveConditions cs)).1 ∧
      (loadConditions [] (saveConditions cs)).2 = [] := by
  have hsave : saveConditions cs =
      cs.flatMap fun c => c.serialize ++ [ConditionAttr.endMark.code] := by
    unfold saveConditions
    rw [List.filter_eq_self.2 hpersistent]
  obtain ⟨loaded, hloaded, hall⟩ := loadConditions_flatMap cs h []
  rw [hsave, hloaded]
  exact ⟨by simpa using hall, rfl⟩

/-- Two hits of poison and the effect of food. -/
def poisonAndFood : List Condition :=
  [{ id := -1, conditionType := ConditionType.poison.code, ticks := 4000, isBuff := false,
     subId := 0, data := .damage [⟨1500, -5, 2000⟩, ⟨2000, -4, 2000⟩] 0 true },
   { id := 0, conditionType := ConditionType.regeneration.code, ticks := 60000, isBuff := false,
     subId := 0, data := .regeneration 1000 1 1000 2 }]

theorem loadConditions_saveConditions_poisonAndFood :
    List.Forall₂ Restored poisonAndFood.reverse
        (loadConditions [] (saveConditions poisonAndFood)).1 ∧
      (loadConditions [] (saveConditions poisonAndFood)).2 = [] := by
  apply loadConditions_saveConditions poisonAndFood (by decide)
  intro c hc
  fin_cases hc
  · refine ⟨rfl, ?_, ?_⟩
    · rintro _ _ _ ⟨⟩ info hinfo
      fin_cases hinfo <;> decide
    · rintro _ _ _ ⟨⟩
      decide
  · exact ⟨rfl, nofun, nofun⟩

end Condition
end ForgottenServer
