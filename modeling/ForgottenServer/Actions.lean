/-
# Registering actions

`Actions::registerEvent` maps an id, or every id of a range, to an action, in
one of three maps. An id that is mapped keeps its action. The loop over a range
counts in 16 bits and goes on while the next id is at most the last one: at the
upper end of the ids the counter wraps around, and is never greater.

Key definitions: `Actions`, `registerRange`, `registerEvent`, `IsRange`, `Registers`.
Key theorems: `rangeLoop_spec`, `rangeLoop_diverges`, `registers_iff`.
-/
import Mathlib.Data.UInt
import Mathlib.Tactic

namespace ForgottenServer

/-! ### The model -/

/-- `ActionUseMap` -/
abbrev ActionUseMap (α : Type) := UInt16 → Option α

/-- The maps of `Actions`. -/
structure Actions (α : Type) where
  useItemMap : ActionUseMap α := fun _ => none
  uniqueItemMap : ActionUseMap α := fun _ => none
  actionItemMap : ActionUseMap α := fun _ => none

namespace Actions

/-- The attributes of a node that are read. -/
inductive Attribute
  | itemid | fromid | toid | uniqueid | fromuid | touid | actionid | fromaid | toaid
  deriving DecidableEq, Repr

/-- A node, with the values of its attributes as `pugi::cast` gives them. -/
abbrev Node := Attribute → Option UInt16

section Code

variable {α : Type}

/-- `std::map::emplace`: whether the id was free, and the map. -/
def emplace (map : ActionUseMap α) (id : UInt16) (action : α) : Bool × ActionUseMap α :=
  match map id with
  | none => (true, Function.update map id (some action))
  | some _ => (false, map)

/-- The loop over the ids after the first; the fuel is used up in no round that
leaves the loop. -/
def rangeLoop (action : α) (toId : UInt16) : ℕ → UInt16 → ActionUseMap α → Bool → Option (Bool × ActionUseMap α)
  | 0, _, _, _ => none
  | fuel + 1, iterId, map, success =>
    let iterId := iterId + 1
    if iterId ≤ toId then
      let result := emplace map iterId action
      if !result.1 then rangeLoop action toId fuel iterId result.2 success
      else rangeLoop action toId fuel iterId result.2 true
    else some (success, map)

/-- A range of ids, all but one attribute of it given. -/
def registerRange (fuel : ℕ) (map : ActionUseMap α) (action : α) (fromId : UInt16) (toId : Option UInt16) :
    Option (Bool × ActionUseMap α) :=
  match toId with
  | none => some (false, map)
  | some toId =>
    let result := emplace map fromId action
    rangeLoop action toId fuel fromId result.2 result.1

def setUseItemMap (s : Actions α) (r : Bool × ActionUseMap α) : Bool × Actions α := (r.1, { s with useItemMap := r.2 })

def setUniqueItemMap (s : Actions α) (r : Bool × ActionUseMap α) : Bool × Actions α :=
  (r.1, { s with uniqueItemMap := r.2 })

def setActionItemMap (s : Actions α) (r : Bool × ActionUseMap α) : Bool × Actions α :=
  (r.1, { s with actionItemMap := r.2 })

/-- `Actions::registerEvent`; there is no result while the loop goes on. -/
def registerEvent (fuel : ℕ) (s : Actions α) (action : α) (node : Node) : Option (Bool × Actions α) :=
  match node .itemid with
  | some id => some (setUseItemMap s (emplace s.useItemMap id action))
  | none =>
  match node .fromid with
  | some fromId => (registerRange fuel s.useItemMap action fromId (node .toid)).map (setUseItemMap s)
  | none =>
  match node .uniqueid with
  | some uid => some (setUniqueItemMap s (emplace s.uniqueItemMap uid action))
  | none =>
  match node .fromuid with
  | some fromUid => (registerRange fuel s.uniqueItemMap action fromUid (node .touid)).map (setUniqueItemMap s)
  | none =>
  match node .actionid with
  | some aid => some (setActionItemMap s (emplace s.actionItemMap aid action))
  | none =>
  match node .fromaid with
  | some fromAid => (registerRange fuel s.actionItemMap action fromAid (node .toaid)).map (setActionItemMap s)
  | none => some (false, s)

end Code

/-! ### The loop over a range -/

section Loop

variable {α : Type} {action : α} {fromId toId iterId : UInt16} {map map' : ActionUseMap α} {success : Bool} {fuel : ℕ}

/-- The ids of the range are mapped, those that were free to the action. -/
structure Maps (map map' : ActionUseMap α) (action : α) (fromId toId : UInt16) (result : Bool) : Prop where
  inside : ∀ id, fromId ≤ id → id ≤ toId → map' id = some ((map id).getD action)
  outside : ∀ id, ¬ (fromId ≤ id ∧ id ≤ toId) → map' id = map id
  result : result = true ↔ ∃ id, fromId ≤ id ∧ id ≤ toId ∧ map id = none

theorem emplace_snd (map : ActionUseMap α) (id x : UInt16) (action : α) :
    (emplace map id action).2 x = if x = id then some ((map id).getD action) else map x := by
  unfold emplace
  cases h : map id with
  | none =>
    dsimp only
    rw [Function.update_apply]
    rfl
  | some a =>
    dsimp only
    split
    · next hx => rw [hx, h, Option.getD_some]
    · rfl

theorem emplace_fst (map : ActionUseMap α) (id : UInt16) (action : α) :
    (emplace map id action).1 = true ↔ map id = none := by
  unfold emplace
  cases map id with
  | none => simp
  | some a => simp

/-- A round of the loop that does not leave it. -/
theorem rangeLoop_succ (hle : iterId + 1 ≤ toId) :
    rangeLoop action toId (fuel + 1) iterId map success =
      rangeLoop action toId fuel (iterId + 1) (emplace map (iterId + 1) action).2
        (success || (emplace map (iterId + 1) action).1) := by
  rw [rangeLoop]
  dsimp only
  rw [if_pos hle]
  cases (emplace map (iterId + 1) action).1 with
  | false => simp
  | true => simp

/-- Below the greatest id the counter comes to an end. -/
theorem rangeLoop_spec (hto : toId ≠ 65535) : ∀ {fuel : ℕ} {iterId : UInt16} {map : ActionUseMap α} {success : Bool},
    iterId ≤ toId → toId.toNat - iterId.toNat < fuel →
    ∃ map' success', rangeLoop action toId fuel iterId map success = some (success', map') ∧
      (∀ id, map' id = if iterId < id ∧ id ≤ toId then some ((map id).getD action) else map id) ∧
      (success' = true ↔ success = true ∨ ∃ id, iterId < id ∧ id ≤ toId ∧ map id = none)
  | 0, _, _, _, _, hfuel => absurd hfuel (Nat.not_lt_zero _)
  | fuel + 1, iterId, map, success, hle, hfuel => by
    have hlast : toId.toNat < 65535 := by
      have hlt := toId.toNat_lt
      have hne : toId.toNat ≠ 65535 := fun e => hto (UInt16.toNat_inj.1 e)
      omega
    have hiter : iterId.toNat ≤ toId.toNat := UInt16.le_iff_toNat_le.1 hle
    have hnext : (iterId + 1).toNat = iterId.toNat + 1 := by
      rw [UInt16.toNat_add]
      change (iterId.toNat + 1) % 65536 = _
      omega
    have hsplit (id : UInt16) : iterId < id ∧ id ≤ toId ↔
        id = iterId + 1 ∧ iterId + 1 ≤ toId ∨ iterId + 1 < id ∧ id ≤ toId := by
      rw [UInt16.lt_iff_toNat_lt, UInt16.le_iff_toNat_le, UInt16.lt_iff_toNat_lt, UInt16.le_iff_toNat_le,
        ← UInt16.toNat_inj, hnext]
      omega
    by_cases hround : iterId + 1 ≤ toId
    · have hfuel' : toId.toNat - (iterId + 1).toNat < fuel := by
        have := UInt16.le_iff_toNat_le.1 hround
        omega
      obtain ⟨map', success', hloop, hmap, hsuccess⟩ := @rangeLoop_spec hto fuel _
        (emplace map (iterId + 1) action).2 (success || (emplace map (iterId + 1) action).1) hround hfuel'
      refine ⟨map', success', (rangeLoop_succ hround).trans hloop, fun id => ?_, ?_⟩
      · rw [hmap, emplace_snd, if_congr (hsplit id) rfl rfl]
        by_cases hid : id = iterId + 1
        · subst hid
          simp [hround]
        · simp [hid]
      · rw [hsuccess, Bool.or_eq_true, emplace_fst, or_assoc]
        refine or_congr_right ⟨?_, ?_⟩
        · rintro (hfree | ⟨id, hlt, hid, hfree⟩)
          · exact ⟨iterId + 1, ((hsplit _).2 (.inl ⟨rfl, hround⟩)).1, hround, hfree⟩
          · have hne : id ≠ iterId + 1 := fun e => by
              rw [e] at hlt
              exact absurd hlt (UInt16.lt_irrefl _)
            rw [emplace_snd, if_neg hne] at hfree
            exact ⟨id, ((hsplit id).2 (.inr ⟨hlt, hid⟩)).1, hid, hfree⟩
        · rintro ⟨id, hlt, hid, hfree⟩
          rcases (hsplit id).1 ⟨hlt, hid⟩ with ⟨rfl, -⟩ | ⟨hlt', -⟩
          · exact .inl hfree
          · have hne : id ≠ iterId + 1 := fun e => by
              rw [e] at hlt'
              exact absurd hlt' (UInt16.lt_irrefl _)
            exact .inr ⟨id, hlt', hid, by rw [emplace_snd, if_neg hne, hfree]⟩
    · have hnone (id : UInt16) : ¬ (iterId < id ∧ id ≤ toId) := by
        rw [hsplit]
        rintro (⟨-, h⟩ | ⟨hlt, hid⟩)
        · exact hround h
        · rw [UInt16.lt_iff_toNat_lt] at hlt
          rw [UInt16.le_iff_toNat_le] at hid hround
          omega
      refine ⟨map, success, ?_, fun id => (if_neg (hnone id)).symm, ?_⟩
      · rw [rangeLoop]
        exact if_neg hround
      · refine (or_iff_left ?_).symm
        rintro ⟨id, hlt, hid, -⟩
        exact hnone id ⟨hlt, hid⟩

/-- The counter is never greater than the greatest id. -/
theorem rangeLoop_diverges : ∀ {fuel : ℕ} {iterId : UInt16} {map : ActionUseMap α} {success : Bool},
    rangeLoop action 65535 fuel iterId map success = none
  | 0, _, _, _ => rfl
  | fuel + 1, iterId, map, success => by
    have hround : iterId + 1 ≤ 65535 := by
      rw [UInt16.le_iff_toNat_le]
      exact Nat.le_of_lt_succ (iterId + 1).toNat_lt
    rw [rangeLoop_succ hround]
    exact rangeLoop_diverges

/-- A range is mapped as it should, if the loop ends. -/
theorem registerRange_maps (hto : toId ≠ 65535) (hle : fromId ≤ toId) (hfuel : toId.toNat - fromId.toNat < fuel) :
    ∃ r, registerRange fuel map action fromId (some toId) = some r ∧ Maps map r.2 action fromId toId r.1 := by
  obtain ⟨map', success', hloop, hmap, hsuccess⟩ := @rangeLoop_spec _ action _ hto _ _
    (emplace map fromId action).2 (emplace map fromId action).1 hle hfuel
  have hcases (id : UInt16) : fromId ≤ id ↔ id = fromId ∨ fromId < id := by
    rw [UInt16.le_iff_toNat_le, UInt16.lt_iff_toNat_lt, ← UInt16.toNat_inj]
    omega
  have hne {id : UInt16} (hlt : fromId < id) : id ≠ fromId := fun e => by
    rw [e] at hlt
    exact absurd hlt (UInt16.lt_irrefl _)
  refine ⟨_, hloop, fun id hfrom hid => ?_, fun id hout => ?_, ?_⟩
  · dsimp only
    rw [hmap, emplace_snd]
    rcases (hcases id).1 hfrom with rfl | hlt
    · simp
    · rw [if_pos ⟨hlt, hid⟩, if_neg (hne hlt)]
  · dsimp only
    rw [hmap, emplace_snd, if_neg fun h => hout ⟨(hcases id).2 (.inr h.1), h.2⟩, if_neg]
    rintro rfl
    exact hout ⟨(hcases id).2 (.inl rfl), hle⟩
  · dsimp only
    rw [hsuccess, emplace_fst]
    constructor
    · rintro (hfree | ⟨id, hlt, hid, hfree⟩)
      · exact ⟨fromId, (hcases fromId).2 (.inl rfl), hle, hfree⟩
      · rw [emplace_snd, if_neg (hne hlt)] at hfree
        exact ⟨id, (hcases id).2 (.inr hlt), hid, hfree⟩
    · rintro ⟨id, hfrom, hid, hfree⟩
      rcases (hcases id).1 hfrom with rfl | hlt
      · exact .inl hfree
      · exact .inr ⟨id, hlt, hid, by rw [emplace_snd, if_neg (hne hlt), hfree]⟩

end Loop

/-! ### The ranges of a node -/

/-- The kinds of ranges. -/
inductive Kind
  | item | unique | action
  deriving DecidableEq, Repr

namespace Kind

/-- The attribute of the first id. -/
def first : Kind → Attribute
  | item => .fromid
  | unique => .fromuid
  | action => .fromaid

/-- The attribute of the last id. -/
def last : Kind → Attribute
  | item => .toid
  | unique => .touid
  | action => .toaid

/-- The attributes that are asked for before the range. -/
def earlier : Kind → List Attribute
  | item => [.itemid]
  | unique => [.itemid, .fromid, .uniqueid]
  | action => [.itemid, .fromid, .uniqueid, .fromuid, .actionid]

/-- The map of the ids of the kind. -/
def map {α : Type} : Kind → Actions α → ActionUseMap α
  | item, s => s.useItemMap
  | unique, s => s.uniqueItemMap
  | action, s => s.actionItemMap

/-- The kind's map put in place. -/
def set {α : Type} : Kind → Actions α → Bool × ActionUseMap α → Bool × Actions α
  | item => setUseItemMap
  | unique => setUniqueItemMap
  | action => setActionItemMap

end Kind

/-- The node registers the ids of a range, and nothing else. -/
structure IsRange (node : Node) (kind : Kind) (fromId toId : UInt16) : Prop where
  earlier : ∀ a ∈ kind.earlier, node a = none
  first : node kind.first = some fromId
  last : node kind.last = some toId

/-- The range is registered, in the map of its kind only. -/
structure Registers {α : Type} (kind : Kind) (s s' : Actions α) (action : α) (fromId toId : UInt16) (result : Bool) :
    Prop where
  maps : Maps (kind.map s) (kind.map s') action fromId toId result
  other : ∀ other ≠ kind, other.map s' = other.map s

section Ranges

variable {α : Type} {node : Node} {kind : Kind} {fromId toId : UInt16}

theorem registerEvent_range (h : IsRange node kind fromId toId) (fuel : ℕ) (s : Actions α) (action : α) :
    registerEvent fuel s action node =
      (registerRange fuel (kind.map s) action fromId (some toId)).map (kind.set s) := by
  obtain ⟨hearlier, hfirst, hlast⟩ := h
  cases kind with
  | item =>
    simp only [Kind.earlier, List.forall_mem_singleton] at hearlier
    simp only [registerEvent, hearlier, show node .fromid = _ from hfirst, show node .toid = _ from hlast]
    rfl
  | unique =>
    simp only [Kind.earlier, List.forall_mem_cons] at hearlier
    obtain ⟨hitem, hfrom, hunique, -⟩ := hearlier
    simp only [registerEvent, hitem, hfrom, hunique, show node .fromuid = _ from hfirst,
      show node .touid = _ from hlast]
    rfl
  | action =>
    simp only [Kind.earlier, List.forall_mem_cons] at hearlier
    obtain ⟨hitem, hfrom, hunique, hfromUnique, haction, -⟩ := hearlier
    simp only [registerEvent, hitem, hfrom, hunique, hfromUnique, haction, show node .fromaid = _ from hfirst,
      show node .toaid = _ from hlast]
    rfl

@[simp] theorem Kind.set_fst (kind : Kind) (s : Actions α) (r : Bool × ActionUseMap α) : (kind.set s r).1 = r.1 := by
  cases kind <;> rfl

@[simp] theorem Kind.map_set (kind : Kind) (s : Actions α) (r : Bool × ActionUseMap α) :
    kind.map (kind.set s r).2 = r.2 := by
  cases kind <;> rfl

theorem Kind.map_set_of_ne {other : Kind} (h : other ≠ kind) (s : Actions α) (r : Bool × ActionUseMap α) :
    other.map (kind.set s r).2 = other.map s := by
  cases kind <;> cases other <;> first | rfl | exact absurd rfl h

/-- What a range leaves is determined. -/
theorem Maps.unique {map map₁ map₂ : ActionUseMap α} {action : α} {b₁ b₂ : Bool}
    (h₁ : Maps map map₁ action fromId toId b₁) (h₂ : Maps map map₂ action fromId toId b₂) : b₁ = b₂ ∧ map₁ = map₂ := by
  refine ⟨Bool.eq_iff_iff.2 (h₁.result.trans h₂.result.symm), funext fun id => ?_⟩
  by_cases hid : fromId ≤ id ∧ id ≤ toId
  · rw [h₁.inside id hid.1 hid.2, h₂.inside id hid.1 hid.2]
  · rw [h₁.outside id hid, h₂.outside id hid]

theorem Registers.unique {s : Actions α} {action : α} {r₁ r₂ : Bool × Actions α}
    (h₁ : Registers kind s r₁.2 action fromId toId r₁.1) (h₂ : Registers kind s r₂.2 action fromId toId r₂.1) :
    r₁ = r₂ := by
  obtain ⟨hresult, hmap⟩ := h₁.maps.unique h₂.maps
  have hall (other : Kind) : other.map r₁.2 = other.map r₂.2 := by
    by_cases hother : other = kind
    · rw [hother, hmap]
    · rw [h₁.other other hother, h₂.other other hother]
  have hactions : r₁.2 = r₂.2 := by
    obtain ⟨_, _, _, _⟩ := r₁
    obtain ⟨_, _, _, _⟩ := r₂
    exact Actions.mk.injEq .. ▸ ⟨hall .item, hall .unique, hall .action⟩
  exact Prod.ext hresult hactions

/-- A range is registered as it should, and at all, exactly when it ends below the greatest id. -/
theorem registers_iff (s : Actions α) (action : α) (hrange : IsRange node kind fromId toId) (hle : fromId ≤ toId) :
    (∃ n r, (∀ fuel, n ≤ fuel → registerEvent fuel s action node = some r) ∧
      Registers kind s r.2 action fromId toId r.1) ↔ toId ≠ 65535 := by
  constructor
  · rintro ⟨n, r, hrun, -⟩ rfl
    have hsome := hrun n le_rfl
    rw [registerEvent_range hrange] at hsome
    have hnone : registerRange n (kind.map s) action fromId (some 65535) = none := rangeLoop_diverges
    rw [hnone] at hsome
    cases hsome
  · intro hto
    -- the result does not depend on how much fuel is left
    have hrun (fuel : ℕ) (hfuel : toId.toNat - fromId.toNat < fuel) :
        ∃ r, registerEvent fuel s action node = some r ∧ Registers kind s r.2 action fromId toId r.1 := by
      obtain ⟨r, hr, hmaps⟩ := @registerRange_maps _ action _ _ (kind.map s) _ hto hle hfuel
      refine ⟨kind.set s r, by rw [registerEvent_range hrange, hr]; rfl, ?_, fun other hother => ?_⟩
      · rw [Kind.map_set, Kind.set_fst]
        exact hmaps
      · exact Kind.map_set_of_ne hother s r
    obtain ⟨r, hr, hregisters⟩ := hrun _ (Nat.lt_succ_self _)
    refine ⟨toId.toNat - fromId.toNat + 1, r, fun fuel hfuel => ?_, hregisters⟩
    obtain ⟨r', hr', hregisters'⟩ := hrun fuel hfuel
    rw [hr', hregisters'.unique hregisters]

/-- The node that registers the items from one id to another. -/
def rangeNode (fromId toId : UInt16) : Node
  | .fromid => some fromId
  | .toid => some toId
  | _ => none

theorem isRange_rangeNode (fromId toId : UInt16) : IsRange (rangeNode fromId toId) .item fromId toId :=
  ⟨by simp [Kind.earlier, rangeNode], rfl, rfl⟩

/-- Three ids, the second of which has an action. -/
theorem registers_three :
    ∃ n r, (∀ fuel, n ≤ fuel →
        registerEvent fuel { useItemMap := Function.update (fun _ => none) 101 (some 1) } 2 (rangeNode 100 102) =
          some r) ∧
      Registers .item { useItemMap := Function.update (fun _ => none) 101 (some 1) } r.2 2 100 102 r.1 :=
  (registers_iff _ 2 (isRange_rangeNode 100 102) (by decide)).2 (by decide)

/-- With the greatest id as the last one the registration does not end. -/
theorem registerEvent_diverges :
    IsRange (rangeNode 65534 65535) .item 65534 65535 ∧ (65534 : UInt16) ≤ 65535 ∧
      ∀ fuel, registerEvent fuel ({} : Actions ℕ) 1 (rangeNode 65534 65535) = none :=
  ⟨isRange_rangeNode _ _, by decide, fun _ => congrArg (Option.map _) rangeLoop_diverges⟩

end Ranges

end Actions
end ForgottenServer
