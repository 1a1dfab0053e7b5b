/-
# An area combat for one target a tile

A healing rune is for one creature on a tile: the caster on his own tile when there is no UH
trap, the creature at the bottom else. `Combat::CombatFunc` skips the creatures of a tile
until that one with a flag, and the flag is set once for all tiles: it stays down on the
tiles that follow, and for the creatures behind the one the flag went down for. So the first
creature that the combat can be done to is affected there, whoever it is.

The events of scripts answer as they like, but a creature does not come or go while the
combat is on.

Key definitions: `Config`, `World`, `canDoCombatTile`, `canDoCombat`, `combatFunc`, `Designated`,
`SingleTarget`.
Key theorems: `combatTile_spec`, `combatTiles_false`, `singleTarget_iff`.
-/
import Mathlib.Tactic
import Mathlib.Data.UInt

namespace ForgottenServer
namespace CombatFunc

/-- `ReturnValue`, as far as it is read here; scripts may return any other. -/
inductive ReturnValue
  | noError | notEnoughRoom | firstGoDownStairs | firstGoUpStairs
  | actionNotPermittedInProtectionZone | actionNotPermittedInANoPvpZone
  | youMayNotAttackThisPlayer | youMayNotAttackThisCreature | other (value : ℕ)
  deriving DecidableEq, Repr

/-- `ZoneType_t` -/
inductive ZoneType
  | protection | noPvp | pvp | normal
  deriving DecidableEq, Repr

structure Player where
  level : UInt32
  vocationId : UInt16
  cannotBeAttacked : Bool := false
  cannotAttackPlayer : Bool := false
  cannotAttackMonster : Bool := false
  ignoreProtectionZone : Bool := false

inductive Kind
  | player (player : Player)
  | monster
  | npc

def Kind.getPlayer : Kind → Option Player
  | .player p => some p
  | _ => none

structure Creature (γ : Type*) where
  kind : Kind
  master : Option γ := none

structure Tile where
  z : UInt8
  blockProjectile : Bool := false
  floorChange : Bool := false
  teleport : Bool := false
  protectionZone : Bool := false
  noPvpZone : Bool := false
  pvpZone : Bool := false

/-- `Tile::getZone` -/
def Tile.getZone (tile : Tile) : ZoneType :=
  if tile.protectionZone then .protection else if tile.noPvpZone then .noPvp
  else if tile.pvpZone then .pvp else .normal

/-- The settings and the events of scripts. -/
structure Config (τ γ : Type*) where
  uhTrap : Bool
  worldTypeNoPvp : Bool
  protectionLevel : UInt32
  eventCreatureOnAreaCombat : Option γ → τ → Bool → ReturnValue
  eventCreatureOnTargetCombat : Option γ → γ → ReturnValue

/-- Tiles with creatures on them: each creature is on its tile, and there once. -/
structure World (τ γ : Type*) where
  tile : τ → Tile
  creature : γ → Creature γ
  creatures : τ → List γ
  getTile : γ → τ
  mem_creatures : ∀ c t, c ∈ creatures t ↔ getTile c = t
  nodup : ∀ t, (creatures t).Nodup

/-- `CombatParams`, as far as they are read here. -/
structure CombatParams where
  aggressive : Bool
  targetCasterOrTopMost : Bool

section Combat

variable {τ γ : Type*} [DecidableEq τ] [DecidableEq γ] (cfg : Config τ γ) (w : World τ γ)

/-! ### Whether a combat can be done -/

def World.getPlayer (c : γ) : Option Player := (w.creature c).kind.getPlayer

def World.isMonster (c : γ) : Bool := match (w.creature c).kind with
  | .monster => true
  | _ => false

/-- `getMaster()->getPlayer()`, of a creature that has a master -/
def World.getMasterPlayer (c : γ) : Option Player := (w.creature c).master.bind w.getPlayer

/-- `Creature::getZone` -/
def World.getZone (c : γ) : ZoneType := (w.tile (w.getTile c)).getZone

/-- `Tile::getBottomCreature` -/
def World.getBottomCreature (t : τ) : Option γ := (w.creatures t).getLast?

/-- `Combat::isInPvpZone` -/
def isInPvpZone (attacker target : γ) : Bool := w.getZone attacker = .pvp ∧ w.getZone target = .pvp

/-- `Combat::isProtected` -/
def isProtected (attacker target : Player) : Bool :=
  if target.level < cfg.protectionLevel ∨ attacker.level < cfg.protectionLevel then true
  else attacker.vocationId = 0 ∨ target.vocationId = 0

/-- `Combat::canDoCombat` of a tile -/
def canDoCombatTile (caster : Option γ) (t : τ) (aggressive : Bool) : ReturnValue :=
  let tile := w.tile t
  if tile.blockProjectile then .notEnoughRoom
  else if tile.floorChange then .notEnoughRoom
  else if tile.teleport then .notEnoughRoom
  else
    let pzZone : ReturnValue :=
      if aggressive ∧ tile.protectionZone then .actionNotPermittedInProtectionZone
      else cfg.eventCreatureOnAreaCombat caster t aggressive
    match caster with
    | none => pzZone
    | some c =>
      let casterZ := (w.tile (w.getTile c)).z
      if casterZ < tile.z then .firstGoDownStairs
      else if casterZ > tile.z then .firstGoUpStairs
      else if (w.getPlayer c).any (·.ignoreProtectionZone) then .noError
      else pzZone

/-- The checks of `Combat::canDoCombat` on a player as the target. -/
def checkPlayerTarget (attacker target : γ) (targetPlayer : Player) : Option ReturnValue :=
  let targetTile := w.tile (w.getTile target)
  if targetPlayer.cannotBeAttacked then some .youMayNotAttackThisPlayer
  else
    let byPlayer : Option ReturnValue := match w.getPlayer attacker with
      | none => none
      | some attackerPlayer =>
        if attackerPlayer.cannotAttackPlayer then some .youMayNotAttackThisPlayer
        else if isProtected cfg attackerPlayer targetPlayer then some .youMayNotAttackThisPlayer
        else if targetTile.noPvpZone then some .actionNotPermittedInANoPvpZone
        else if (w.tile (w.getTile attacker)).noPvpZone ∧ ¬ (targetTile.noPvpZone ∨ targetTile.protectionZone) then
          some .actionNotPermittedInANoPvpZone
        else none
    byPlayer <|> match w.getMasterPlayer attacker with
      | none => none
      | some masterAttackerPlayer =>
        if masterAttackerPlayer.cannotAttackPlayer then some .youMayNotAttackThisPlayer
        else if targetTile.noPvpZone then some .actionNotPermittedInANoPvpZone
        else if isProtected cfg masterAttackerPlayer targetPlayer then some .youMayNotAttackThisPlayer
        else none

/-- The checks of `Combat::canDoCombat` on a monster as the target. -/
def checkMonsterTarget (attacker target : γ) : Option ReturnValue :=
  match w.getPlayer attacker with
  | some attackerPlayer =>
    if attackerPlayer.cannotAttackMonster then some .youMayNotAttackThisCreature
    else if (w.getMasterPlayer target).isSome ∧ w.getZone target = .noPvp then some .actionNotPermittedInANoPvpZone
    else none
  | none =>
    if w.isMonster attacker ∧ (w.getMasterPlayer target).isNone ∧ (w.getMasterPlayer attacker).isNone then
      some .youMayNotAttackThisCreature
    else none

/-- The checks of `Combat::canDoCombat` in a world without fights between players. -/
def checkWorldType (attacker target : γ) : Option ReturnValue :=
  if cfg.worldTypeNoPvp ∧ ((w.getPlayer attacker).isSome ∨ (w.getMasterPlayer attacker).isSome) ∧
      ¬ isInPvpZone w attacker target then
    if (w.getPlayer target).isSome then some .youMayNotAttackThisPlayer
    else if (w.getMasterPlayer target).isSome then some .youMayNotAttackThisCreature
    else none
  else none

/-- `Combat::canDoCombat` of a creature -/
def canDoCombat (attacker : Option γ) (target : γ) : ReturnValue :=
  let refused : Option ReturnValue := match attacker with
    | none => none
    | some attacker =>
      (match w.getPlayer target with
        | some targetPlayer => checkPlayerTarget cfg w attacker target targetPlayer
        | none => if w.isMonster target then checkMonsterTarget w attacker target else none) <|>
      checkWorldType cfg w attacker target
  refused.getD (cfg.eventCreatureOnTargetCombat attacker target)

/-! ### The combat -/

variable (params : CombatParams) (caster : Option γ)

/-- The combat is done to a creature, once it is not skipped. -/
def affects (c : γ) : Bool :=
  ¬ params.aggressive ∨ (caster ≠ some c ∧ canDoCombat cfg w caster c = .noError)

/-- A creature takes the flag down: the caster on his own tile without a UH trap, else the one at
the bottom. -/
def designates (t : τ) (c : γ) : Bool :=
  if ¬ cfg.uhTrap ∧ caster.any (w.getTile · = t) then caster = some c
  else w.getBottomCreature t = some c

/-- The loop over the creatures of a tile: those that `func` is called for, and `bContinue`. -/
def combatTile (t : τ) : List γ → Bool → List γ × Bool
  | [], bContinue => ([], bContinue)
  | c :: cs, bContinue =>
    let bContinue := if params.targetCasterOrTopMost ∧ designates cfg w caster t c then false else bContinue
    if params.targetCasterOrTopMost ∧ bContinue then combatTile t cs bContinue
    else if affects cfg w params caster c then
      if params.targetCasterOrTopMost then ([c], bContinue)
      else (c :: (combatTile t cs bContinue).1, (combatTile t cs bContinue).2)
    else combatTile t cs bContinue

/-- The loop over the tiles: each tile that the combat is done on, with the creatures that `func`
is called for. -/
def combatTiles : List τ → Bool → List (τ × List γ)
  | [], _ => []
  | t :: ts, bContinue =>
    if canDoCombatTile cfg w caster t params.aggressive ≠ .noError then combatTiles ts bContinue
    else (t, (combatTile cfg w params caster t (w.creatures t) bContinue).1) ::
      combatTiles ts (combatTile cfg w params caster t (w.creatures t) bContinue).2

/-- `Combat::CombatFunc`, on the tiles that `getCombatArea` has returned -/
def combatFunc (tileList : List τ) : List (τ × List γ) := combatTiles cfg w params caster tileList true

/-- A tile that the combat is done on, with someone on it. -/
def live (t : τ) : Bool := canDoCombatTile cfg w caster t params.aggressive = .noError ∧ w.creatures t ≠ []

/-- The creature of a tile that the combat is for. -/
def designated (t : τ) : Option γ :=
  if cfg.uhTrap = false ∧ (∃ c, caster = some c ∧ w.getTile c = t) then caster else w.getBottomCreature t

/-- At most one creature is affected on a tile, and only the designated one. -/
def Single (v : τ × List γ) : Prop := v.2.length ≤ 1 ∧ ∀ c ∈ v.2, designated cfg w caster v.1 = some c

/-- At most the designated creature is affected on each tile, and it is the same whatever the
order of the tiles. -/
def SingleTarget (tileList : List τ) : Prop :=
  (∀ v ∈ combatFunc cfg w params caster tileList, Single cfg w caster v) ∧
  ∀ tileList', tileList'.Perm tileList →
    (combatFunc cfg w params caster tileList').Perm (combatFunc cfg w params caster tileList)

/-- No creature in front of the designated one can be affected. -/
def FrontSpared (t : τ) : Prop :=
  ∀ front d behind, w.creatures t = front ++ d :: behind → designated cfg w caster t = some d →
    ∀ c ∈ front, affects cfg w params caster c = false

/-- No creature behind the designated one can be affected, or the designated one is first. -/
def BehindSpared (t : τ) : Prop :=
  ∀ front d behind, w.creatures t = front ++ d :: behind → designated cfg w caster t = some d →
    affects cfg w params caster d = true ∨ ∀ c ∈ behind, affects cfg w params caster c = false

/-! ### The designated creature -/

section Designated

variable {cfg w caster} {t : τ}

theorem designates_iff {c : γ} : designates cfg w caster t c = true ↔ designated cfg w caster t = some c := by
  have hany : caster.any (w.getTile · = t) = true ↔ ∃ c, caster = some c ∧ w.getTile c = t := by
    cases caster <;> simp
  unfold designates designated
  by_cases h : cfg.uhTrap = false ∧ ∃ c, caster = some c ∧ w.getTile c = t
  · rw [if_pos h, if_pos ⟨by rw [h.1]; decide, hany.2 h.2⟩, decide_eq_true_iff]
  · rw [if_neg h, if_neg, decide_eq_true_iff]
    rintro ⟨h1, h2⟩
    exact h ⟨Bool.eq_false_iff.2 h1, hany.1 h2⟩

variable (cfg caster) in
omit [DecidableEq γ] in
/-- The designated creature of a tile is on it. -/
theorem exists_designated (h : w.creatures t ≠ []) :
    ∃ front d behind, w.creatures t = front ++ d :: behind ∧ designated cfg w caster t = some d := by
  obtain ⟨d, hd, hmem⟩ : ∃ d, designated cfg w caster t = some d ∧ d ∈ w.creatures t := by
    unfold designated
    split
    · rename_i hc
      obtain ⟨c, rfl, hct⟩ := hc.2
      exact ⟨c, rfl, (w.mem_creatures c t).2 hct⟩
    · exact ⟨_, List.getLast?_eq_some_getLast h, List.getLast_mem h⟩
  obtain ⟨front, behind, heq⟩ := List.append_of_mem hmem
  exact ⟨front, d, behind, heq, hd⟩

end Designated

/-! ### The first of a list -/

/-- The first element with a property can only be `d`. -/
theorem find?_eq_iff {α : Type*} {p : α → Bool} {d : α} {behind : List α} :
    ∀ {front : List α}, (front ++ d :: behind).Nodup →
      ((∀ c, (front ++ d :: behind).find? p = some c → c = d) ↔
        (∀ c ∈ front, p c = false) ∧ (p d = true ∨ ∀ c ∈ behind, p c = false))
  | [], hn => by
    rw [List.nil_append] at hn ⊢
    by_cases hp : p d = true
    · rw [List.find?_cons_of_pos hp]
      exact iff_of_true (fun c h => (Option.some.inj h).symm) ⟨by simp, .inl hp⟩
    · rw [List.find?_cons_of_neg hp]
      have hd : d ∉ behind := (List.nodup_cons.1 hn).1
      constructor
      · intro h
        refine ⟨by simp, .inr fun c hc => ?_⟩
        cases hf : behind.find? p with
        | none => exact Bool.eq_false_iff.2 (List.find?_eq_none.1 hf c hc)
        | some c' => exact absurd (h c' hf ▸ List.mem_of_find?_eq_some hf) hd
      · rintro ⟨-, h⟩ c hf
        have := h.resolve_left hp c (List.mem_of_find?_eq_some hf)
        exact absurd (List.find?_some hf) (Bool.eq_false_iff.1 this)
  | a :: front, hn => by
    rw [List.cons_append] at hn ⊢
    obtain ⟨ha, hn⟩ := List.nodup_cons.1 hn
    by_cases hp : p a = true
    · rw [List.find?_cons_of_pos hp]
      refine iff_of_false (fun h => ?_) fun h => ?_
      · obtain rfl := h a rfl
        exact ha (by simp)
      · exact absurd hp (Bool.eq_false_iff.1 (h.1 a List.mem_cons_self))
    · rw [List.find?_cons_of_neg hp, find?_eq_iff hn, List.forall_mem_cons, Bool.eq_false_iff.2 hp]
      simp

/-! ### One tile -/

section Tile

variable {cfg w params caster} {t : τ}

/-- With the flag down, the first creature that can be affected is. -/
theorem combatTile_false (hp : params.targetCasterOrTopMost = true) (cs : List γ) :
    combatTile cfg w params caster t cs false = ((cs.find? (affects cfg w params caster)).toList, false) := by
  induction cs with
  | nil => rfl
  | cons c cs ih =>
    rw [combatTile, hp]
    simp only [ite_self, Bool.false_eq_true, and_false, if_false, if_true]
    by_cases h : affects cfg w params caster c = true
    · rw [if_pos h, List.find?_cons_of_pos h]
      rfl
    · rw [if_neg h, ih, List.find?_cons_of_neg h]

/-- With the flag up, the creatures in front of the designated one are skipped first. -/
theorem combatTile_true (hp : params.targetCasterOrTopMost = true) (cs : List γ) :
    combatTile cfg w params caster t cs true =
      (((cs.dropWhile fun c => !designates cfg w caster t c).find? (affects cfg w params caster)).toList,
        (cs.dropWhile fun c => !designates cfg w caster t c).isEmpty) := by
  induction cs with
  | nil => rfl
  | cons c cs ih =>
    by_cases hc : designates cfg w caster t c = true
    · rw [List.dropWhile_cons_of_neg (by simp [hc])]
      calc combatTile cfg w params caster t (c :: cs) true
          = combatTile cfg w params caster t (c :: cs) false := by
            simp only [combatTile, hp, hc, and_self, if_true]
        _ = _ := combatTile_false hp _
    · rw [List.dropWhile_cons_of_pos (by simp [hc]), ← ih]
      simp only [combatTile, hp, hc, Bool.false_eq_true, and_false, if_false, and_self, if_true]

/-- From the designated creature on. -/
theorem dropWhile_eq {front behind : List γ} {d : γ} (heq : w.creatures t = front ++ d :: behind)
    (hd : designated cfg w caster t = some d) :
    (w.creatures t).dropWhile (fun c => !designates cfg w caster t c) = d :: behind := by
  have hn := w.nodup t
  rw [heq, List.nodup_append] at hn
  have hfront : ∀ c ∈ front, (!designates cfg w caster t c) = true := by
    intro c hc
    rw [Bool.not_eq_true', Bool.eq_false_iff]
    intro h
    have he : d = c := Option.some.inj (hd.symm.trans (designates_iff.1 h))
    exact hn.2.2 c hc d List.mem_cons_self he.symm
  rw [heq, List.dropWhile_append_of_pos hfront, List.dropWhile_cons_of_neg]
  rw [designates_iff.2 hd]
  decide

omit [DecidableEq γ] in
/-- The designated creature's place on the tile is one only. -/
theorem place_unique {front behind front' behind' : List γ} {d d' : γ} (heq : w.creatures t = front ++ d :: behind)
    (hd : designated cfg w caster t = some d) (heq' : w.creatures t = front' ++ d' :: behind')
    (hd' : designated cfg w caster t = some d') : front' = front ∧ d' = d ∧ behind' = behind := by
  obtain rfl : d' = d := Option.some.inj (hd'.symm.trans hd)
  have hn := w.nodup t
  rw [heq'] at hn
  obtain ⟨-, hcons, hdisj⟩ := List.nodup_append.1 hn
  have hfront : d' ∉ front' := fun h => hdisj d' h d' List.mem_cons_self rfl
  obtain ⟨h1, -, h2⟩ := (List.append_cons_inj_of_notMem hfront (List.nodup_cons.1 hcons).1).1 (heq'.symm.trans heq)
  exact ⟨h1, rfl, h2⟩

theorem frontSpared_iff {front behind : List γ} {d : γ} (heq : w.creatures t = front ++ d :: behind)
    (hd : designated cfg w caster t = some d) :
    FrontSpared cfg w params caster t ↔ ∀ c ∈ front, affects cfg w params caster c = false := by
  constructor
  · intro h
    exact h front d behind heq hd
  · intro h front' d' behind' heq' hd'
    obtain ⟨rfl, -, -⟩ := place_unique heq hd heq' hd'
    exact h

theorem behindSpared_iff {front behind : List γ} {d : γ} (heq : w.creatures t = front ++ d :: behind)
    (hd : designated cfg w caster t = some d) :
    BehindSpared cfg w params caster t ↔
      affects cfg w params caster d = true ∨ ∀ c ∈ behind, affects cfg w params caster c = false := by
  constructor
  · intro h
    exact h front d behind heq hd
  · intro h front' d' behind' heq' hd'
    obtain ⟨-, rfl, rfl⟩ := place_unique heq hd heq' hd'
    exact h

end Tile

/-! ### All tiles -/

/-- The tiles that the combat is done on. -/
def reached (t : τ) : Bool := canDoCombatTile cfg w caster t params.aggressive = .noError

/-- What is done on a tile with the flag down. -/
def visit (t : τ) : τ × List γ := (t, ((w.creatures t).find? (affects cfg w params caster)).toList)

/-- What is done on a tile with the flag up. -/
def firstVisit (t : τ) : τ × List γ :=
  (t, (((w.creatures t).dropWhile fun c => !designates cfg w caster t c).find? (affects cfg w params caster)).toList)

section Tiles

variable {cfg w params caster} {t : τ} {ts : List τ}

/-- The flag goes down on a tile with someone on it. -/
theorem isEmpty_dropWhile :
    ((w.creatures t).dropWhile fun c => !designates cfg w caster t c).isEmpty = (w.creatures t).isEmpty := by
  by_cases h : w.creatures t = []
  · rw [h]
    rfl
  · obtain ⟨front, d, behind, heq, hd⟩ := exists_designated cfg caster h
    rw [dropWhile_eq heq hd, heq]
    simp

theorem combatTiles_cons (hp : params.targetCasterOrTopMost = true) (bContinue : Bool) :
    combatTiles cfg w params caster (t :: ts) bContinue =
      if reached cfg w params caster t = true then
        (if bContinue = true then firstVisit cfg w params caster t else visit cfg w params caster t) ::
          combatTiles cfg w params caster ts (bContinue && (w.creatures t).isEmpty)
      else combatTiles cfg w params caster ts bContinue := by
  rw [combatTiles]
  by_cases h : canDoCombatTile cfg w caster t params.aggressive = .noError
  · have hr : reached cfg w params caster t = true := decide_eq_true h
    rw [if_neg (not_not.2 h), if_pos hr]
    cases bContinue with
    | true =>
      rw [combatTile_true hp, isEmpty_dropWhile, Bool.true_and, if_pos rfl]
      rfl
    | false =>
      rw [combatTile_false hp, Bool.false_and, if_neg Bool.false_ne_true]
      rfl
  · have hr : ¬ reached cfg w params caster t = true := fun hr => h (of_decide_eq_true hr)
    rw [if_pos h, if_neg hr]

theorem combatTiles_false (hp : params.targetCasterOrTopMost = true) (ts : List τ) :
    combatTiles cfg w params caster ts false =
      (ts.filter (reached cfg w params caster)).map (visit cfg w params caster) := by
  induction ts with
  | nil => rfl
  | cons t ts ih =>
    rw [combatTiles_cons hp, Bool.false_and, ih, List.filter_cons]
    split
    · rfl
    · rfl

omit [DecidableEq τ] [DecidableEq γ] in
theorem live_iff : live cfg w params caster t = true ↔ reached cfg w params caster t = true ∧ w.creatures t ≠ [] := by
  simp [live, reached]

/-- Where nobody is, nothing is done either way. -/
theorem firstVisit_of_empty (h : w.creatures t = []) :
    firstVisit cfg w params caster t = visit cfg w params caster t := by
  rw [firstVisit, visit, h]
  rfl

/-- With one tile at most with someone on it, the flag is up where it matters. -/
theorem combatTiles_true_of_le_one (hp : params.targetCasterOrTopMost = true) (ts : List τ)
    (hone : (ts.filter (live cfg w params caster)).length ≤ 1) :
    combatTiles cfg w params caster ts true =
      (ts.filter (reached cfg w params caster)).map (firstVisit cfg w params caster) := by
  induction ts with
  | nil => rfl
  | cons t ts ih =>
    rw [combatTiles_cons hp, List.filter_cons]
    by_cases hr : reached cfg w params caster t = true
    · rw [if_pos hr, if_pos hr, if_pos rfl, List.map_cons, Bool.true_and]
      by_cases hempty : w.creatures t = []
      · have hl : ¬ live cfg w params caster t = true := fun h => (live_iff.1 h).2 hempty
        rw [List.filter_cons_of_neg hl] at hone
        rw [hempty, List.isEmpty_nil, ih hone]
      · have hl : live cfg w params caster t = true := live_iff.2 ⟨hr, hempty⟩
        rw [List.filter_cons_of_pos hl, List.length_cons] at hone
        have hnone : ts.filter (live cfg w params caster) = [] := List.eq_nil_of_length_eq_zero (by omega)
        rw [List.isEmpty_eq_false_iff.2 hempty, combatTiles_false hp]
        congr 1
        apply List.map_congr_left
        intro t' ht'
        obtain ⟨hmem, hr'⟩ := List.mem_filter.1 ht'
        refine (firstVisit_of_empty ?_).symm
        by_contra hne
        exact List.filter_eq_nil_iff.1 hnone t' hmem (live_iff.2 ⟨hr', hne⟩)
    · have hl : ¬ live cfg w params caster t = true := fun h => hr (live_iff.1 h).1
      rw [List.filter_cons_of_neg hl] at hone
      rw [if_neg hr, if_neg hr, ih hone]

/-- Where the flag makes no difference, it makes none to the whole. -/
theorem combatTiles_true_of_eq (hp : params.targetCasterOrTopMost = true) (ts : List τ)
    (heq : ∀ t ∈ ts, live cfg w params caster t = true →
      firstVisit cfg w params caster t = visit cfg w params caster t) :
    combatTiles cfg w params caster ts true =
      (ts.filter (reached cfg w params caster)).map (visit cfg w params caster) := by
  induction ts with
  | nil => rfl
  | cons t ts ih =>
    obtain ⟨ht, hts⟩ := List.forall_mem_cons.1 heq
    rw [combatTiles_cons hp, List.filter_cons]
    by_cases hr : reached cfg w params caster t = true
    · rw [if_pos hr, if_pos hr, if_pos rfl, List.map_cons, Bool.true_and]
      by_cases hempty : w.creatures t = []
      · rw [hempty, List.isEmpty_nil, ih hts, firstVisit_of_empty hempty]
      · rw [List.isEmpty_eq_false_iff.2 hempty, combatTiles_false hp, ht (live_iff.2 ⟨hr, hempty⟩)]
    · rw [if_neg hr, if_neg hr, ih hts]

omit [DecidableEq γ] in
theorem single_toList_iff {d : γ} (hd : designated cfg w caster t = some d) (o : Option γ) :
    Single cfg w caster (t, o.toList) ↔ ∀ c, o = some c → c = d := by
  have hdc : ∀ c, designated cfg w caster t = some c ↔ c = d := by
    intro c
    rw [hd, Option.some.injEq]
    exact eq_comm
  cases o with
  | none => exact iff_of_true ⟨Nat.zero_le _, by simp⟩ (by simp)
  | some c => simp [Single, hdc]

theorem single_firstVisit_iff {front behind : List γ} {d : γ} (heq : w.creatures t = front ++ d :: behind)
    (hd : designated cfg w caster t = some d) :
    Single cfg w caster (firstVisit cfg w params caster t) ↔ BehindSpared cfg w params caster t := by
  have hn := w.nodup t
  rw [heq, List.nodup_append] at hn
  rw [behindSpared_iff heq hd, firstVisit, dropWhile_eq heq hd, single_toList_iff hd]
  exact (@find?_eq_iff _ _ _ _ [] hn.2.1).trans (and_iff_right fun c hc => absurd hc List.not_mem_nil)

theorem single_visit_iff {front behind : List γ} {d : γ} (heq : w.creatures t = front ++ d :: behind)
    (hd : designated cfg w caster t = some d) :
    Single cfg w caster (visit cfg w params caster t) ↔
      FrontSpared cfg w params caster t ∧ BehindSpared cfg w params caster t := by
  have hn := w.nodup t
  rw [heq] at hn
  rw [frontSpared_iff heq hd, behindSpared_iff heq hd, visit, single_toList_iff hd, heq]
  exact find?_eq_iff hn

theorem firstVisit_eq_visit (ht : w.creatures t ≠ []) (h : FrontSpared cfg w params caster t) :
    firstVisit cfg w params caster t = visit cfg w params caster t := by
  obtain ⟨front, d, behind, heq, hd⟩ := exists_designated cfg caster ht
  have hnone : front.find? (affects cfg w params caster) = none :=
    List.find?_eq_none.2 fun c hc => Bool.eq_false_iff.1 ((frontSpared_iff heq hd).1 h c hc)
  rw [firstVisit, visit, dropWhile_eq heq hd, heq, List.find?_append, hnone, Option.none_or]

/-- Nobody on a tile is nobody affected. -/
theorem single_visit_of_empty (h : w.creatures t = []) : Single cfg w caster (visit cfg w params caster t) := by
  rw [visit, h]
  exact ⟨Nat.zero_le _, fun c hc => absurd hc List.not_mem_nil⟩

end Tiles

/-- **One flag for all tiles.** The combat is for the designated creature of each tile, in any
order of the tiles, if and only if nobody behind it can be affected in its stead and, as soon
as there is another tile with someone on it, nobody in front of it can be affected. -/
theorem singleTarget_iff (hp : params.targetCasterOrTopMost = true) (tileList : List τ) :
    SingleTarget cfg w params caster tileList ↔
      ∀ t ∈ tileList, live cfg w params caster t = true → BehindSpared cfg w params caster t ∧
        (2 ≤ (tileList.filter (live cfg w params caster)).length → FrontSpared cfg w params caster t) := by
  constructor
  · rintro ⟨hsingle, hperm⟩ t ht hl
    obtain ⟨hr, hne⟩ := live_iff.1 hl
    obtain ⟨front, d, behind, heq, hd⟩ := exists_designated cfg caster hne
    obtain ⟨rest, hrest⟩ : ∃ rest, (t :: rest).Perm tileList := ⟨tileList.erase t, (List.perm_cons_erase ht).symm⟩
    constructor
    · -- with this tile first
      have hmem : firstVisit cfg w params caster t ∈ combatFunc cfg w params caster (t :: rest) := by
        rw [combatFunc, combatTiles_cons hp, if_pos hr, if_pos rfl]
        exact List.mem_cons_self
      exact (single_firstVisit_iff heq hd).1 (hsingle _ ((hperm _ hrest).mem_iff.1 hmem))
    · -- with another tile first
      intro htwo
      have hlen : 1 ≤ (rest.filter (live cfg w params caster)).length := by
        rw [← (hrest.filter _).length_eq, List.filter_cons_of_pos hl, List.length_cons] at htwo
        omega
      obtain ⟨t', ht'⟩ := List.exists_mem_of_length_pos hlen
      obtain ⟨ht', hl'⟩ := List.mem_filter.1 ht'
      obtain ⟨hr', hne'⟩ := live_iff.1 hl'
      have hrest' : (t' :: t :: rest.erase t').Perm tileList :=
        ((List.Perm.swap t t' _).trans ((List.perm_cons_erase ht').symm.cons t)).trans hrest
      have hmem : visit cfg w params caster t ∈ combatFunc cfg w params caster (t' :: t :: rest.erase t') := by
        rw [combatFunc, combatTiles_cons hp, if_pos hr', List.isEmpty_eq_false_iff.2 hne', Bool.and_false,
          combatTiles_false hp, List.filter_cons_of_pos hr]
        exact List.mem_cons_of_mem _ List.mem_cons_self
      exact ((single_visit_iff heq hd).1 (hsingle _ ((hperm _ hrest').mem_iff.1 hmem))).1
  · intro h
    by_cases htwo : 2 ≤ (tileList.filter (live cfg w params caster)).length
    · have hvisit : ∀ tileList', tileList'.Perm tileList → combatFunc cfg w params caster tileList' =
          (tileList'.filter (reached cfg w params caster)).map (visit cfg w params caster) := by
        intro tileList' hperm
        refine combatTiles_true_of_eq hp _ fun t ht hl => firstVisit_eq_visit (live_iff.1 hl).2 ?_
        exact (h t (hperm.mem_iff.1 ht) hl).2 htwo
      refine ⟨fun v hv => ?_, fun tileList' hperm => ?_⟩
      · rw [hvisit _ (List.Perm.refl _)] at hv
        obtain ⟨t, ht, rfl⟩ := List.mem_map.1 hv
        obtain ⟨ht, hr⟩ := List.mem_filter.1 ht
        by_cases hempty : w.creatures t = []
        · exact single_visit_of_empty hempty
        · obtain ⟨front, d, behind, heq, hd⟩ := exists_designated cfg caster hempty
          obtain ⟨hb, hf⟩ := h t ht (live_iff.2 ⟨hr, hempty⟩)
          exact (single_visit_iff heq hd).2 ⟨hf htwo, hb⟩
      · rw [hvisit _ hperm, hvisit _ (List.Perm.refl _)]
        exact (hperm.filter _).map _
    · have hvisit : ∀ tileList', tileList'.Perm tileList → combatFunc cfg w params caster tileList' =
          (tileList'.filter (reached cfg w params caster)).map (firstVisit cfg w params caster) := by
        intro tileList' hperm
        refine combatTiles_true_of_le_one hp _ ?_
        rw [(hperm.filter _).length_eq]
        omega
      refine ⟨fun v hv => ?_, fun tileList' hperm => ?_⟩
      · rw [hvisit _ (List.Perm.refl _)] at hv
        obtain ⟨t, ht, rfl⟩ := List.mem_map.1 hv
        obtain ⟨ht, hr⟩ := List.mem_filter.1 ht
        by_cases hempty : w.creatures t = []
        · rw [firstVisit_of_empty hempty]
          exact single_visit_of_empty hempty
        · obtain ⟨front, d, behind, heq, hd⟩ := exists_designated cfg caster hempty
          exact (single_firstVisit_iff heq hd).2 (h t ht (live_iff.2 ⟨hr, hempty⟩)).1
      · rw [hvisit _ hperm, hvisit _ (List.Perm.refl _)]
        exact (hperm.filter _).map _

end Combat

/-! ### Two tiles -/

/-- One monster on the first tile, two on the second. -/
def threeMonsters : World Bool (Option Bool) where
  tile _ := { z := 7 }
  creature _ := { kind := .monster }
  creatures t := if t then [some false, some true] else [none]
  getTile c := c.isSome
  mem_creatures := by decide
  nodup := by decide

def plainConfig : Config Bool (Option Bool) where
  uhTrap := true
  worldTypeNoPvp := false
  protectionLevel := 1
  eventCreatureOnAreaCombat _ _ _ := .noError
  eventCreatureOnTargetCombat _ _ := .noError

theorem singleTarget_iff_alone :
    SingleTarget plainConfig threeMonsters ⟨false, true⟩ none [true] ↔
      ∀ t ∈ [true], live plainConfig threeMonsters ⟨false, true⟩ none t = true →
        BehindSpared plainConfig threeMonsters ⟨false, true⟩ none t ∧
        (2 ≤ ([true].filter (live plainConfig threeMonsters ⟨false, true⟩ none)).length →
          FrontSpared plainConfig threeMonsters ⟨false, true⟩ none t) :=
  singleTarget_iff plainConfig threeMonsters ⟨false, true⟩ none rfl [true]

/-- On the second tile the first monster is affected, not the one at the bottom. -/
theorem not_singleTarget_two : ∃ (cfg : Config Bool (Option Bool)) (w : World Bool (Option Bool))
    (params : CombatParams) (caster : Option (Option Bool)) (tileList : List Bool),
    params.targetCasterOrTopMost = true ∧ tileList.Nodup ∧ ¬ SingleTarget cfg w params caster tileList := by
  refine ⟨plainConfig, threeMonsters, ⟨false, true⟩, none, [false, true], rfl, by decide, fun h => ?_⟩
  have hmem : ((true, [some false]) : Bool × List (Option Bool)) ∈
      combatFunc plainConfig threeMonsters ⟨false, true⟩ none [false, true] := by decide
  have hbottom : designated plainConfig threeMonsters none true = some (some true) := by decide
  have := (h.1 _ hmem).2 (some false) List.mem_cons_self
  rw [hbottom] at this
  exact absurd this (by decide)

end CombatFunc
end ForgottenServer
