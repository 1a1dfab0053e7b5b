/-
# Beds and their sleepers

A player who lies down in a bed of a house leaves his guid in both halves of it, and
`Game::bedSleepersMap` has the half that he used. He is then kicked from the game; when
he comes back, the bed that the map has for him wakes him up, and both halves are free.
A house that changes hands wakes up its beds, and a restart reads the guids of the beds
from the store of the house tiles into the map.

The kick comes a moment later. Who lies down in a second bed before it leaves the map
without the first, which then stays occupied, also when he comes back (`overslept_stays`),
and in no other way is a bed forgotten (`registered_iff`).

Regeneration, descriptions and the time of the sleep are left out, and the kick is a
logout like others. Beds in houses are not moved.

Key definitions: `sleep`, `wakeUp`, `updateAppearance`, `restart`, `Coherent`, `Registered`,
`Oversleeps`.
Key theorems: `coherent_step`, `registered_iff`, `nobody_sleeps`, `overslept_stays`.
-/
import ForgottenServer.PathSearch
import ForgottenServer.Lib.Run

namespace ForgottenServer
namespace Beds

open PathSearch (Direction getNextPosition)
open Spectators (Position)

variable {β η : Type}

/-! ### The model -/

/-- The fields of `ItemType` for beds: whether the type is `ITEM_TYPE_BED`, and the
direction of the other half (`none` is `DIRECTION_NONE`). -/
structure ItemType where
  isBed : Bool
  bedPartnerDir : Option Direction
  transformToOnUse : UInt16
  transformToFree : UInt16

/-- The item types, the beds on the map with their houses, and the store of house items, which
has the beds in the order in which they are loaded. -/
structure World (β η : Type) where
  items : UInt16 → ItemType
  getPosition : β → Position
  getBedItem : Position → Option β
  getHouse : β → Option η
  bedsList : η → List β
  mem_bedsList : ∀ h b, b ∈ bedsList h ↔ getHouse b = some h
  tileStore : List β
  mem_tileStore : ∀ b, b ∈ tileStore ↔ getHouse b ≠ none

/-- The beds, and the players in the game by their guids. -/
structure State (β : Type) where
  id : β → UInt16
  sleeperGUID : β → ℕ
  bedSleepersMap : ℕ → Option β
  players : List ℕ

/-- `BedItem::getNextBedItem`: the other half of the bed. -/
def getNextBedItem (W : World β η) (s : State β) (b : β) : Option β :=
  W.getBedItem (match (W.items (s.id b)).bedPartnerDir with
    | some dir => getNextPosition dir (W.getPosition b)
    | none => W.getPosition b)

section Steps

variable [DecidableEq β]

/-- `BedItem::updateAppearance`, with a player or without. -/
def updateAppearance (W : World β η) (s : State β) (b : β) (player : Bool) : State β :=
  let it := W.items (s.id b)
  if it.isBed then
    if player ∧ it.transformToOnUse ≠ 0 then
      if (W.items it.transformToOnUse).isBed then
        { s with id := Function.update s.id b it.transformToOnUse }
      else s
    else if it.transformToFree ≠ 0 then
      if (W.items it.transformToFree).isBed then { s with id := Function.update s.id b it.transformToFree }
      else s
    else s
  else s

/-- `BedItem::internalSetSleeper`, and with 0 `internalRemoveSleeper`. -/
def internalSetSleeper (s : State β) (b : β) (guid : ℕ) : State β :=
  { s with sleeperGUID := Function.update s.sleeperGUID b guid }

/-- What is done to the other half, if there is one. -/
def forNext (nextBedItem : Option β) (f : State β → β → State β) (s : State β) : State β :=
  match nextBedItem with
  | some next => f s next
  | none => s

/-- `BedItem::canUse`; `access` is what the access levels say about the bed of another. -/
def canUse (W : World β η) (s : State β) (b : β) (premium access : Bool) : Bool :=
  (W.getHouse b).isSome && premium && (s.sleeperGUID b == 0 || access)

/-- `BedItem::sleep`. -/
def sleep (W : World β η) (s : State β) (b : β) (guid : ℕ) : State β :=
  if W.getHouse b = none ∨ s.sleeperGUID b ≠ 0 then s
  else
    let nextBedItem := getNextBedItem W s b
    let s := internalSetSleeper s b guid
    let s := forNext nextBedItem (fun s next => internalSetSleeper s next guid) s
    let s := { s with bedSleepersMap := Function.update s.bedSleepersMap guid (some b) }
    let s := updateAppearance W s b true
    forNext nextBedItem (fun s next => updateAppearance W s next true) s

/-- `BedItem::wakeUp`. -/
def wakeUp (W : World β η) (s : State β) (b : β) : State β :=
  if W.getHouse b = none then s
  else
    let s := { s with bedSleepersMap := Function.update s.bedSleepersMap (s.sleeperGUID b) none }
    let nextBedItem := getNextBedItem W s b
    let s := internalSetSleeper s b 0
    let s := forNext nextBedItem (fun s next => internalSetSleeper s next 0) s
    let s := updateAppearance W s b false
    forNext nextBedItem (fun s next => updateAppearance W s next false) s

/-- The player comes into the game: `Player::onCreatureAppear`. -/
def login (W : World β η) (s : State β) (guid : ℕ) : State β :=
  let s := { s with players := guid :: s.players }
  match s.bedSleepersMap guid with
  | some b => wakeUp W s b
  | none => s

/-- The part of `House::setOwner` that removes players from beds. -/
def wakeAll (W : World β η) (s : State β) (h : η) : State β :=
  (W.bedsList h).foldl (fun s b => if s.sleeperGUID b ≠ 0 then wakeUp W s b else s) s

/-- `BedItem::readAttr` for the guid that was saved; `named` is whether there is still a player of
that guid. -/
def readAttr (named : ℕ → Bool) (saved : β → ℕ) (s : State β) (b : β) : State β :=
  if saved b ≠ 0 ∧ named (saved b) then
    { s with
      bedSleepersMap := Function.update s.bedSleepersMap (saved b) (some b)
      sleeperGUID := Function.update s.sleeperGUID b (saved b) }
  else s

/-- The house items are saved, the server ends, and they are loaded. -/
def restart (W : World β η) (s : State β) (named : ℕ → Bool) : State β :=
  W.tileStore.foldl (readAttr named s.sleeperGUID)
    { id := s.id, sleeperGUID := fun _ => 0, bedSleepersMap := fun _ => none, players := [] }

/-- What may happen. -/
inductive Act (β η : Type)
  | login (guid : ℕ)
  | logout (guid : ℕ)
  | use (b : β) (guid : ℕ) (premium access : Bool)
  | setOwner (h : η)
  | restart (named : ℕ → Bool)

/-- One step of a run. The guid of a stored player is not 0. -/
def step (W : World β η) (s : State β) : Act β η → State β
  | .login guid => if guid = 0 ∨ guid ∈ s.players then s else login W s guid
  | .logout guid => { s with players := s.players.filter (· ≠ guid) }
  | .use b guid premium access =>
    if guid ∈ s.players ∧ canUse W s b premium access then sleep W s b guid else s
  | .setOwner h => wakeAll W s h
  | .restart named => restart W s named

end Steps

/-- No bed is occupied. -/
def init (id : β → UInt16) : State β := ⟨id, fun _ => 0, fun _ => none, []⟩

/-! ### What the steps do -/

/-- Bed types change only into bed types of the same direction. -/
def Steady (W : World β η) : Prop :=
  ∀ id, (W.items id).isBed = true →
    ((W.items id).transformToOnUse ≠ 0 → (W.items (W.items id).transformToOnUse).isBed = true →
      (W.items (W.items id).transformToOnUse).bedPartnerDir = (W.items id).bedPartnerDir) ∧
    ((W.items id).transformToFree ≠ 0 → (W.items (W.items id).transformToFree).isBed = true →
      (W.items (W.items id).transformToFree).bedPartnerDir = (W.items id).bedPartnerDir)

section Steps

variable {W : World β η} {s s' : State β} {b b' : β} {g : ℕ}

/-- The two halves of a bed. -/
def Half (W : World β η) (s : State β) (b b' : β) : Prop := b' = b ∨ getNextBedItem W s b = some b'

/-- Both halves of a bed get a sleeper, or lose him. -/
structure Sets (W : World β η) (s : State β) (b : β) (g : ℕ) (s' : State β) : Prop where
  halves : ∀ b', Half W s b b' → s'.sleeperGUID b' = g
  others : ∀ b', ¬ Half W s b b' → s'.sleeperGUID b' = s.sleeperGUID b'
  next : getNextBedItem W s' = getNextBedItem W s
  players : s'.players = s.players

/-- The halves of a bed belong together and are both in a house, or not; they have one sleeper; whoever the map
has a bed for sleeps in it; and no player has the guid 0. -/
structure Coherent (W : World β η) (s : State β) : Prop where
  paired : ∀ b b', getNextBedItem W s b = some b' → getNextBedItem W s b' = some b
  housed : ∀ b b', getNextBedItem W s b = some b' → (W.getHouse b = none ↔ W.getHouse b' = none)
  halves : ∀ b b', getNextBedItem W s b = some b' → s.sleeperGUID b' = s.sleeperGUID b
  inHouse : ∀ b, s.sleeperGUID b ≠ 0 → W.getHouse b ≠ none
  known : ∀ g b, s.bedSleepersMap g = some b → s.sleeperGUID b = g ∧ g ≠ 0
  players : 0 ∉ s.players

theorem Coherent.half_symm (hc : Coherent W s) (hb : Half W s b b') : Half W s b' b := by
  rcases hb with rfl | hb
  · exact .inl rfl
  · exact .inr (hc.paired b b' hb)

theorem Coherent.half_trans {b'' : β} (hc : Coherent W s) (hb : Half W s b b') (hb' : Half W s b' b'') :
    Half W s b b'' := by
  rcases hb with rfl | hb
  · exact hb'
  · rcases hb' with rfl | hb'
    · exact .inr hb
    · exact .inl (Option.some.inj (hb'.symm.trans (hc.paired b b' hb)))

theorem Coherent.sleeper_half (hc : Coherent W s) (hb : Half W s b b') : s.sleeperGUID b' = s.sleeperGUID b := by
  rcases hb with rfl | hb
  · rfl
  · exact hc.halves b b' hb

/-- A step that sets the sleeper of a bed keeps its state coherent. -/
theorem Coherent.sets (hc : Coherent W s) (hsets : Sets W s b g s') (hb : g ≠ 0 → W.getHouse b ≠ none)
    (hknown : ∀ g' b', s'.bedSleepersMap g' = some b' → s'.sleeperGUID b' = g' ∧ g' ≠ 0) : Coherent W s' where
  paired b₁ b₂ := by
    rw [hsets.next]
    exact hc.paired b₁ b₂
  housed b₁ b₂ := by
    rw [hsets.next]
    exact hc.housed b₁ b₂
  halves b₁ b₂ := by
    rw [hsets.next]
    intro hnext
    by_cases hhalf : Half W s b b₁
    · rw [hsets.halves b₁ hhalf, hsets.halves b₂ (hc.half_trans hhalf (.inr hnext))]
    · have hhalf' : ¬ Half W s b b₂ := fun h => hhalf (hc.half_trans h (hc.half_symm (.inr hnext)))
      rw [hsets.others b₁ hhalf, hsets.others b₂ hhalf']
      exact hc.halves b₁ b₂ hnext
  inHouse b₁ hne := by
    by_cases hhalf : Half W s b b₁
    · rw [hsets.halves b₁ hhalf] at hne
      rcases hhalf with rfl | hnext
      · exact hb hne
      · exact mt (hc.housed b b₁ hnext).2 (hb hne)
    · rw [hsets.others b₁ hhalf] at hne
      exact hc.inHouse b₁ hne
  known := hknown
  players := hsets.players ▸ hc.players

theorem getNextBedItem_congr (hid : s'.id = s.id) : getNextBedItem W s' = getNextBedItem W s := by
  unfold getNextBedItem
  rw [hid]

/-- Who comes into the game is no other player, and the bed that the map has for him wakes him up. -/
theorem Coherent.enter (hc : Coherent W s) (hg : g ≠ 0) : Coherent W { s with players := g :: s.players } :=
  ⟨hc.paired, hc.housed, hc.halves, hc.inHouse, hc.known, by simp [hc.players, Ne.symm hg]⟩

/-- The map has every occupied bed, by one of its halves. -/
def Registered (W : World β η) (s : State β) : Prop :=
  ∀ b, s.sleeperGUID b ≠ 0 → ∃ b', s.bedSleepersMap (s.sleeperGUID b) = some b' ∧ Half W s b' b

/-- A player sleeps in one bed. -/
theorem Registered.half (hr : Registered W s) (hc : Coherent W s) (hb : s.sleeperGUID b ≠ 0)
    (hb' : s.sleeperGUID b' = s.sleeperGUID b) : Half W s b b' := by
  obtain ⟨b₁, hmap₁, hhalf₁⟩ := hr b hb
  obtain ⟨b₂, hmap₂, hhalf₂⟩ := hr b' (hb' ▸ hb)
  rw [hb', hmap₁] at hmap₂
  rw [← Option.some.inj hmap₂] at hhalf₂
  exact hc.half_trans (hc.half_symm hhalf₁) hhalf₂

theorem half_congr (hnext : getNextBedItem W s' = getNextBedItem W s) : Half W s' b b' ↔ Half W s b b' := by
  unfold Half
  rw [hnext]

variable [DecidableEq β]

/-- A change of looks is no change of anything else, and the other half stays the other half. -/
theorem updateAppearance_spec (hW : Steady W) (s : State β) (b : β) (player : Bool) :
    (updateAppearance W s b player).sleeperGUID = s.sleeperGUID ∧
      (updateAppearance W s b player).bedSleepersMap = s.bedSleepersMap ∧
      (updateAppearance W s b player).players = s.players ∧
      getNextBedItem W (updateAppearance W s b player) = getNextBedItem W s := by
  have hid : ∀ id', (W.items id').bedPartnerDir = (W.items (s.id b)).bedPartnerDir →
      getNextBedItem W { s with id := Function.update s.id b id' } = getNextBedItem W s := by
    intro id' hdir
    funext b'
    unfold getNextBedItem
    dsimp only
    by_cases hb : b' = b
    · rw [hb, Function.update_self, hdir]
    · rw [Function.update_of_ne hb]
  unfold updateAppearance
  dsimp only
  split_ifs with hbed huse huseBed hfree hfreeBed
  · exact ⟨rfl, rfl, rfl, hid _ ((hW _ hbed).1 huse.2 huseBed)⟩
  · exact ⟨rfl, rfl, rfl, rfl⟩
  · exact ⟨rfl, rfl, rfl, hid _ ((hW _ hbed).2 hfree hfreeBed)⟩
  · exact ⟨rfl, rfl, rfl, rfl⟩
  · exact ⟨rfl, rfl, rfl, rfl⟩
  · exact ⟨rfl, rfl, rfl, rfl⟩

/-- What `sleep` and `wakeUp` have in common: the sleepers, then the map, then the looks. -/
theorem sets_spec (hW : Steady W) (s : State β) (b : β) (g : ℕ) (m : ℕ → Option β) (player : Bool) :
    let s₁ := forNext (getNextBedItem W s b) (fun s next => internalSetSleeper s next g) (internalSetSleeper s b g)
    let s' := forNext (getNextBedItem W s b) (fun s next => updateAppearance W s next player)
      (updateAppearance W { s₁ with bedSleepersMap := m } b player)
    Sets W s b g s' ∧ s'.bedSleepersMap = m := by
  intro s₁ s'
  have hlook : s'.sleeperGUID = s₁.sleeperGUID ∧ s'.bedSleepersMap = m ∧ s'.players = s₁.players ∧
      getNextBedItem W s' = getNextBedItem W { s₁ with bedSleepersMap := m } := by
    have hfirst := updateAppearance_spec hW { s₁ with bedSleepersMap := m } b player
    cases hnext : getNextBedItem W s b with
    | none =>
      simp only [s', hnext, forNext]
      exact hfirst
    | some next =>
      have hsecond := updateAppearance_spec hW (updateAppearance W { s₁ with bedSleepersMap := m } b player) next player
      simp only [s', hnext, forNext]
      exact ⟨hsecond.1.trans hfirst.1, hsecond.2.1.trans hfirst.2.1, hsecond.2.2.1.trans hfirst.2.2.1,
        hsecond.2.2.2.trans hfirst.2.2.2⟩
  obtain ⟨hsleeper, hmap, hplayers, hnext'⟩ := hlook
  refine ⟨?_, hmap⟩
  cases hnext : getNextBedItem W s b with
  | none =>
    have hs₁ : s₁ = internalSetSleeper s b g := by
      simp only [s₁, hnext, forNext]
    rw [hs₁] at hsleeper hplayers hnext'
    refine ⟨fun b' hb => ?_, fun b' hb => ?_, hnext', hplayers⟩
    · rw [hsleeper]
      rcases hb with rfl | hb
      · exact Function.update_self _ _ _
      · exact absurd (hnext.symm.trans hb) (Option.some_ne_none b').symm
    · rw [hsleeper]
      exact Function.update_of_ne (fun heq => hb (.inl heq)) _ _
  | some next =>
    have hs₁ : s₁ = internalSetSleeper (internalSetSleeper s b g) next g := by
      simp only [s₁, hnext, forNext]
    rw [hs₁] at hsleeper hplayers hnext'
    refine ⟨fun b' hb => ?_, fun b' hb => ?_, hnext', hplayers⟩
    · rw [hsleeper]
      by_cases hn : b' = next
      · rw [hn]
        exact Function.update_self _ _ _
      · rcases hb with rfl | hb
        · exact (Function.update_of_ne hn _ _).trans (Function.update_self _ _ _)
        · exact absurd (Option.some.inj (hb.symm.trans hnext)) hn
    · rw [hsleeper]
      have hb₁ : b' ≠ b := fun heq => hb (.inl heq)
      have hb₂ : b' ≠ next := fun heq => hb (.inr (heq ▸ hnext))
      exact (Function.update_of_ne hb₂ _ _).trans (Function.update_of_ne hb₁ _ _)

/-- **A player lies down**: both halves of the bed are his, and the map has the one that he used. -/
theorem sleep_spec (hW : Steady W) (hb : ¬ (W.getHouse b = none ∨ s.sleeperGUID b ≠ 0)) :
    Sets W s b g (sleep W s b g) ∧ (sleep W s b g).bedSleepersMap = Function.update s.bedSleepersMap g (some b) := by
  have hsets := sets_spec hW s b g (Function.update s.bedSleepersMap g (some b)) true
  have hmap : (forNext (getNextBedItem W s b) (fun s next => internalSetSleeper s next g)
      (internalSetSleeper s b g)).bedSleepersMap = s.bedSleepersMap := by
    cases getNextBedItem W s b with
    | none => rfl
    | some next => rfl
  unfold sleep
  rw [if_neg hb]
  dsimp only at hsets ⊢
  rw [hmap]
  exact hsets

/-- **A bed wakes its sleeper**: both halves are free, and the map has no bed for him. -/
theorem wakeUp_spec (hW : Steady W) (hb : W.getHouse b ≠ none) : Sets W s b 0 (wakeUp W s b) ∧
    (wakeUp W s b).bedSleepersMap = Function.update s.bedSleepersMap (s.sleeperGUID b) none := by
  have hsets := sets_spec hW s b 0 (Function.update s.bedSleepersMap (s.sleeperGUID b) none) false
  -- here the map is set before the sleepers
  have hnext : getNextBedItem W
      { s with bedSleepersMap := Function.update s.bedSleepersMap (s.sleeperGUID b) none } b =
        getNextBedItem W s b := rfl
  unfold wakeUp
  rw [if_neg hb]
  dsimp only at hsets ⊢
  rw [hnext]
  cases hnext : getNextBedItem W s b with
  | none =>
    rw [hnext] at hsets
    exact hsets
  | some next =>
    rw [hnext] at hsets
    exact hsets

/-- Only a free bed of a house takes a sleeper in. -/
theorem sleep_cases (hW : Steady W) (s : State β) (b : β) (g : ℕ) : sleep W s b g = s ∨
    W.getHouse b ≠ none ∧ s.sleeperGUID b = 0 ∧ Sets W s b g (sleep W s b g) ∧
      (sleep W s b g).bedSleepersMap = Function.update s.bedSleepersMap g (some b) := by
  by_cases hb : W.getHouse b = none ∨ s.sleeperGUID b ≠ 0
  · exact .inl (if_pos hb)
  · have hspec := sleep_spec (g := g) hW hb
    rw [not_or, not_not] at hb
    exact .inr ⟨hb.1, hb.2, hspec⟩

theorem wakeUp_cases (hW : Steady W) (s : State β) (b : β) : wakeUp W s b = s ∨
    Sets W s b 0 (wakeUp W s b) ∧
      (wakeUp W s b).bedSleepersMap = Function.update s.bedSleepersMap (s.sleeperGUID b) none := by
  by_cases hb : W.getHouse b = none
  · exact .inl (if_pos hb)
  · exact .inr (wakeUp_spec hW hb)

/-! ### Runs -/

theorem coherent_sleep (hW : Steady W) (hc : Coherent W s) (hg : g ≠ 0) : Coherent W (sleep W s b g) := by
  rcases sleep_cases hW s b g with heq | ⟨hb, hfree, hsets, hmap⟩
  · rw [heq]
    exact hc
  · refine hc.sets hsets (fun _ => hb) fun g' b' hknown => ?_
    rw [hmap] at hknown
    by_cases heq : g' = g
    · rw [heq, Function.update_self] at hknown
      rw [heq, ← Option.some.inj hknown]
      exact ⟨hsets.halves b (.inl rfl), hg⟩
    · rw [Function.update_of_ne heq] at hknown
      obtain ⟨hsleeper, hne⟩ := hc.known g' b' hknown
      -- the bed was free, so that it is another one
      have hhalf : ¬ Half W s b b' := by
        intro hhalf
        have hhalf' := hc.sleeper_half hhalf
        rw [hfree, hsleeper] at hhalf'
        exact hne hhalf'
      exact ⟨(hsets.others b' hhalf).trans hsleeper, hne⟩

theorem coherent_wakeUp (hW : Steady W) (hc : Coherent W s) : Coherent W (wakeUp W s b) := by
  rcases wakeUp_cases hW s b with heq | ⟨hsets, hmap⟩
  · rw [heq]
    exact hc
  · refine hc.sets hsets (fun hne => absurd rfl hne) fun g' b' hknown => ?_
    rw [hmap] at hknown
    by_cases heq : g' = s.sleeperGUID b
    · rw [heq, Function.update_self] at hknown
      exact absurd hknown.symm (Option.some_ne_none b')
    · rw [Function.update_of_ne heq] at hknown
      obtain ⟨hsleeper, hne⟩ := hc.known g' b' hknown
      have hhalf : ¬ Half W s b b' := fun hhalf => heq (hsleeper.symm.trans (hc.sleeper_half hhalf))
      exact ⟨(hsets.others b' hhalf).trans hsleeper, hne⟩

theorem coherent_wakeAll (hW : Steady W) (hc : Coherent W s) (h : η) : Coherent W (wakeAll W s h) := by
  refine List.foldlRecOn (W.bedsList h) _ hc fun s hc b _ => ?_
  split_ifs
  · exact coherent_wakeUp hW hc
  · exact hc

section Load

variable {named : ℕ → Bool} {saved : β → ℕ}

/-- The beds that are loaded have their sleepers again, if there are still players of these guids. -/
theorem foldl_readAttr_sleeperGUID (b : β) : ∀ (bs : List β) (s : State β),
    (bs.foldl (readAttr named saved) s).sleeperGUID b =
      if b ∈ bs ∧ saved b ≠ 0 ∧ named (saved b) = true then saved b else s.sleeperGUID b
  | [], s => by simp
  | b' :: bs, s => by
    rw [List.foldl_cons, foldl_readAttr_sleeperGUID b bs]
    by_cases hb : b = b'
    · rw [← hb]
      by_cases hsaved : saved b ≠ 0 ∧ named (saved b) = true
      · simp [readAttr, hsaved]
      · simp [readAttr, hsaved]
    · have hrest : (readAttr named saved s b').sleeperGUID b = s.sleeperGUID b := by
        unfold readAttr
        split_ifs
        · exact Function.update_of_ne hb _ _
        · rfl
      simp [hrest, hb]

/-- The map has those that were saved. -/
theorem foldl_readAttr_known (bs : List β) {s : State β}
    (hs : ∀ g b, s.bedSleepersMap g = some b → saved b = g ∧ s.sleeperGUID b = g ∧ g ≠ 0) :
    ∀ g b, (bs.foldl (readAttr named saved) s).bedSleepersMap g = some b →
      saved b = g ∧ (bs.foldl (readAttr named saved) s).sleeperGUID b = g ∧ g ≠ 0 := by
  refine List.foldlRecOn (motive := fun s : State β => ∀ g b, s.bedSleepersMap g = some b →
    saved b = g ∧ s.sleeperGUID b = g ∧ g ≠ 0) bs _ hs fun s hs b' _ g b hmap => ?_
  unfold readAttr at hmap ⊢
  split_ifs at hmap ⊢ with hsaved
  · dsimp only at hmap ⊢
    by_cases hg : g = saved b'
    · rw [hg, Function.update_self] at hmap
      rw [hg, ← Option.some.inj hmap, Function.update_self]
      exact ⟨rfl, rfl, hsaved.1⟩
    · rw [Function.update_of_ne hg] at hmap
      obtain ⟨hsav, hsleeper, hne⟩ := hs g b hmap
      have hb : b ≠ b' := fun heq => hg (heq ▸ hsav.symm)
      rw [Function.update_of_ne hb]
      exact ⟨hsav, hsleeper, hne⟩
  · exact hs g b hmap

/-- Each of them is in it, or another with the same sleeper. -/
theorem foldl_readAttr_isSome {b : β} (hsaved : saved b ≠ 0 ∧ named (saved b) = true) :
    ∀ (bs : List β) {s : State β}, b ∈ bs ∨ (s.bedSleepersMap (saved b)).isSome = true →
      ((bs.foldl (readAttr named saved) s).bedSleepersMap (saved b)).isSome = true
  | [], s, h => h.resolve_left List.not_mem_nil
  | b' :: bs, s, h => by
    rw [List.foldl_cons]
    refine foldl_readAttr_isSome hsaved bs ?_
    rw [List.mem_cons, or_assoc] at h
    rcases h with rfl | h | h
    · right
      rw [readAttr, if_pos hsaved]
      simp
    · exact .inl h
    · right
      unfold readAttr
      split_ifs
      · dsimp only
        by_cases hg : saved b = saved b'
        · simp [hg]
        · rwa [Function.update_of_ne hg]
      · exact h

theorem foldl_readAttr_rest (named : ℕ → Bool) (saved : β → ℕ) (bs : List β) (s : State β) :
    (bs.foldl (readAttr named saved) s).id = s.id ∧ (bs.foldl (readAttr named saved) s).players = s.players := by
  refine List.foldlRecOn (motive := fun s' : State β => s'.id = s.id ∧ s'.players = s.players) bs _ ⟨rfl, rfl⟩
    fun s' hs' b _ => ?_
  unfold readAttr
  split_ifs
  · exact hs'
  · exact hs'

end Load

/-- After a restart the players that there still are sleep where they slept. -/
theorem restart_sleeperGUID (hc : Coherent W s) (named : ℕ → Bool) (b : β) :
    (restart W s named).sleeperGUID b = if named (s.sleeperGUID b) = true then s.sleeperGUID b else 0 := by
  unfold restart
  rw [foldl_readAttr_sleeperGUID]
  by_cases hb : s.sleeperGUID b = 0
  · simp [hb]
  · simp [hb, (W.mem_tileStore b).2 (hc.inHouse b hb)]

theorem restart_known (named : ℕ → Bool) (hb : (restart W s named).bedSleepersMap g = some b) :
    s.sleeperGUID b = g ∧ (restart W s named).sleeperGUID b = g ∧ g ≠ 0 :=
  foldl_readAttr_known W.tileStore (fun _ _ h => absurd h (Option.some_ne_none _).symm) g b hb

theorem coherent_restart (hc : Coherent W s) (named : ℕ → Bool) : Coherent W (restart W s named) := by
  obtain ⟨hid, hplayers⟩ := foldl_readAttr_rest named s.sleeperGUID W.tileStore
    { id := s.id, sleeperGUID := fun _ => 0, bedSleepersMap := fun _ => none, players := [] }
  have hnext : getNextBedItem W (restart W s named) = getNextBedItem W s := getNextBedItem_congr hid
  refine ⟨?_, ?_, ?_, ?_, fun g b hb => (restart_known named hb).2, ?_⟩
  · rw [hnext]
    exact hc.paired
  · rw [hnext]
    exact hc.housed
  · rw [hnext]
    intro b b' hb
    rw [restart_sleeperGUID hc, restart_sleeperGUID hc, hc.halves b b' hb]
  · intro b hb
    rw [restart_sleeperGUID hc] at hb
    split_ifs at hb
    · exact hc.inHouse b hb
    · exact absurd rfl hb
  · unfold restart
    rw [hplayers]
    exact List.not_mem_nil

theorem coherent_step (hW : Steady W) (hc : Coherent W s) (a : Act β η) : Coherent W (step W s a) := by
  cases a with
  | login guid =>
    simp only [step]
    split_ifs with hg
    · exact hc
    · have henter := hc.enter (not_or.1 hg).1
      unfold login
      dsimp only
      split
      · exact coherent_wakeUp hW henter
      · exact henter
  | logout guid =>
    exact ⟨hc.paired, hc.housed, hc.halves, hc.inHouse, hc.known, fun h => hc.players (List.mem_of_mem_filter h)⟩
  | use b guid premium access =>
    simp only [step]
    split_ifs with huse
    · exact coherent_sleep hW hc fun hg => hc.players (hg ▸ huse.1)
    · exact hc
  | setOwner h => exact coherent_wakeAll hW hc h
  | restart named => exact coherent_restart hc named

/-! ### Beds that the map knows -/

theorem registered_wakeUp (hW : Steady W) (hc : Coherent W s) (hr : Registered W s) :
    Registered W (wakeUp W s b) := by
  rcases wakeUp_cases hW s b with heq | ⟨hsets, hmap⟩
  · rw [heq]
    exact hr
  · intro b₁ hb₁
    have hhalf : ¬ Half W s b b₁ := fun hhalf => hb₁ (hsets.halves b₁ hhalf)
    rw [hsets.others b₁ hhalf] at hb₁ ⊢
    obtain ⟨b₂, hmap₂, hhalf₂⟩ := hr b₁ hb₁
    refine ⟨b₂, ?_, (half_congr hsets.next).2 hhalf₂⟩
    -- another sleeper is woken up
    have hne : s.sleeperGUID b₁ ≠ s.sleeperGUID b := fun heq => hhalf (hr.half hc (heq ▸ hb₁) heq)
    rw [hmap, Function.update_of_ne hne]
    exact hmap₂

theorem registered_restart (hc : Coherent W s) (hr : Registered W s) (named : ℕ → Bool) :
    Registered W (restart W s named) := by
  have hnext : getNextBedItem W (restart W s named) = getNextBedItem W s :=
    getNextBedItem_congr (foldl_readAttr_rest _ _ _ _).1
  intro b hb
  rw [restart_sleeperGUID hc] at hb ⊢
  split_ifs at hb ⊢ with hnamed
  · have hsome : ((restart W s named).bedSleepersMap (s.sleeperGUID b)).isSome = true :=
      foldl_readAttr_isSome ⟨hb, hnamed⟩ W.tileStore (.inl ((W.mem_tileStore b).2 (hc.inHouse b hb)))
    obtain ⟨b', hb'⟩ := Option.isSome_iff_exists.1 hsome
    refine ⟨b', hb', (half_congr hnext).2 (hc.half_symm (hr.half hc hb (restart_known named hb').1))⟩
  · exact absurd rfl hb

/-- A player lies down who has already lain down. -/
def Oversleeps (W : World β η) (s : State β) (a : Act β η) : Prop :=
  ∃ b guid premium access, a = .use b guid premium access ∧ guid ∈ s.players ∧ W.getHouse b ≠ none ∧
    premium = true ∧ s.sleeperGUID b = 0 ∧ s.bedSleepersMap guid ≠ none

theorem registered_sleep_iff (hW : Steady W) (hc : Coherent W s) (hr : Registered W s)
    (hb : W.getHouse b ≠ none) (hfree : s.sleeperGUID b = 0) :
    Registered W (sleep W s b g) ↔ s.bedSleepersMap g = none := by
  obtain ⟨hsets, hmap⟩ := sleep_spec (g := g) hW (not_or.2 ⟨hb, not_not.2 hfree⟩)
  constructor
  · intro hr'
    by_contra hsome
    obtain ⟨b₀, hb₀⟩ := Option.ne_none_iff_exists'.1 hsome
    obtain ⟨hsleeper, hg⟩ := hc.known g b₀ hb₀
    have hhalf : ¬ Half W s b b₀ := fun hhalf => hg (hsleeper.symm.trans ((hc.sleeper_half hhalf).trans hfree))
    have hstill := (hsets.others b₀ hhalf).trans hsleeper
    obtain ⟨b₁, hb₁, hhalf₁⟩ := hr' b₀ (by rwa [hstill])
    rw [hstill, hmap, Function.update_self] at hb₁
    rw [← Option.some.inj hb₁] at hhalf₁
    exact hhalf ((half_congr hsets.next).1 hhalf₁)
  · intro hnone b₁ hb₁
    by_cases hhalf : Half W s b b₁
    · rw [hsets.halves b₁ hhalf, hmap, Function.update_self]
      exact ⟨b, rfl, (half_congr hsets.next).2 hhalf⟩
    · rw [hsets.others b₁ hhalf] at hb₁ ⊢
      obtain ⟨b₂, hb₂, hhalf₂⟩ := hr b₁ hb₁
      have hne : s.sleeperGUID b₁ ≠ g := fun heq => Option.some_ne_none b₂ (hb₂.symm.trans (heq ▸ hnone))
      rw [hmap, Function.update_of_ne hne]
      exact ⟨b₂, hb₂, (half_congr hsets.next).2 hhalf₂⟩

theorem registered_wakeAll (hW : Steady W) (hc : Coherent W s) (hr : Registered W s) (h : η) :
    Registered W (wakeAll W s h) := by
  have hboth : Coherent W (wakeAll W s h) ∧ Registered W (wakeAll W s h) := by
    refine List.foldlRecOn (motive := fun s : State β => Coherent W s ∧ Registered W s) (W.bedsList h) _ ⟨hc, hr⟩
      fun s hs b _ => ?_
    split_ifs
    · exact ⟨coherent_wakeUp hW hs.1, registered_wakeUp hW hs.1 hs.2⟩
    · exact hs
  exact hboth.2

theorem registered_login (hW : Steady W) (hc : Coherent W s) (hr : Registered W s) (hg : g ≠ 0) :
    Registered W (login W s g) := by
  have henter := hc.enter hg
  have hr' : Registered W { s with players := g :: s.players } := hr
  unfold login
  dsimp only
  split
  · exact registered_wakeUp hW henter hr'
  · exact hr'

/-- **What makes the map forget a bed.** From a state in which it has every occupied bed, a step leads to another
just if nobody lies down who has already lain down. -/
theorem registered_step_iff (hW : Steady W) (hc : Coherent W s) (hr : Registered W s) (a : Act β η) :
    Registered W (step W s a) ↔ ¬ Oversleeps W s a := by
  cases a with
  | login guid =>
    refine iff_of_true ?_ (by simp [Oversleeps])
    simp only [step]
    split_ifs with hg
    · exact hr
    · exact registered_login hW hc hr (not_or.1 hg).1
  | logout guid => exact iff_of_true hr (by simp [Oversleeps])
  | use b guid premium access =>
    have hover : Oversleeps W s (.use b guid premium access) ↔ guid ∈ s.players ∧ W.getHouse b ≠ none ∧
        premium = true ∧ s.sleeperGUID b = 0 ∧ s.bedSleepersMap guid ≠ none := by
      constructor
      · rintro ⟨_, _, _, _, heq, h⟩
        cases heq
        exact h
      · intro h
        exact ⟨b, guid, premium, access, rfl, h⟩
    rw [hover]
    simp only [step]
    split_ifs with huse
    · simp only [canUse, Bool.and_eq_true, Bool.or_eq_true, beq_iff_eq, Option.isSome_iff_ne_none] at huse
      obtain ⟨hplayer, ⟨hhouse, hpremium⟩, -⟩ := huse
      by_cases hfree : s.sleeperGUID b = 0
      · rw [registered_sleep_iff hW hc hr hhouse hfree]
        simp [hplayer, hhouse, hpremium, hfree]
      · rw [sleep, if_pos (.inr hfree)]
        exact iff_of_true hr fun h => hfree h.2.2.2.1
    · refine iff_of_true hr fun ⟨hplayer, hhouse, hpremium, hfree, _⟩ => huse ⟨hplayer, ?_⟩
      simp [canUse, Option.isSome_iff_ne_none, hhouse, hpremium, hfree]
  | setOwner h => exact iff_of_true (registered_wakeAll hW hc hr h) (by simp [Oversleeps])
  | restart named => exact iff_of_true (registered_restart hc hr named) (by simp [Oversleeps])

theorem coherent_run (hW : Steady W) (hc : Coherent W s) (as : List (Act β η)) : Coherent W (Run.run (step W) s as) :=
  Run.run_of_step (I := Coherent W) (fun _ a hc => coherent_step hW hc a) as hc

/-- **Every occupied bed is in the map** after every step of a run just if in no step of it a player lies down
who has already lain down. -/
theorem registered_iff (hW : Steady W) (as : List (Act β η)) (hc : Coherent W s) (hr : Registered W s) :
    Run.Along (step W) (fun s a => Registered W (step W s a)) s as ↔
      Run.Along (step W) (fun s a => ¬ Oversleeps W s a) s as := by
  have hkeep : ∀ (s : State β) (a : Act β η), Coherent W s ∧ Registered W s → Registered W (step W s a) →
      Coherent W (step W s a) ∧ Registered W (step W s a) := fun s a hs hr => ⟨coherent_step hW hs.1 a, hr⟩
  exact Run.along_congr hkeep (fun s a hs => registered_step_iff hW hs.1 hs.2 a) as ⟨hc, hr⟩

/-- Two beds in a house, their heads in the north; an occupied half looks different. -/
def inn : World (Bool × Bool) Unit where
  items id :=
    if id = 1 then ⟨true, some .south, 3, 0⟩
    else if id = 2 then ⟨true, some .north, 4, 0⟩
    else if id = 3 then ⟨true, some .south, 0, 1⟩
    else if id = 4 then ⟨true, some .north, 0, 2⟩
    else ⟨false, none, 0, 0⟩
  getPosition b := ⟨if b.1 then 5 else 0, if b.2 then 1 else 0, 7⟩
  getBedItem pos := if pos.y = 0 ∨ pos.y = 1 then some (pos.x = 5, pos.y = 1) else none
  getHouse _ := some ()
  bedsList _ := [(false, false), (false, true), (true, false), (true, true)]
  mem_bedsList := by simp
  tileStore := [(false, false), (false, true), (true, false), (true, true)]
  mem_tileStore := by simp

theorem inn_steady : Steady inn := by
  intro id
  by_cases h₁ : id = 1
  · rw [h₁]
    decide
  by_cases h₂ : id = 2
  · rw [h₂]
    decide
  by_cases h₃ : id = 3
  · rw [h₃]
    decide
  by_cases h₄ : id = 4
  · rw [h₄]
    decide
  simp [inn, h₁, h₂, h₃, h₄]

def vacant : State (Bool × Bool) := init fun b => if b.2 then 2 else 1

theorem vacant_coherent : Coherent inn vacant := by
  refine ⟨by decide, by decide, by decide, by decide, ?_, by decide⟩
  intro g b hb
  exact absurd hb (Option.some_ne_none b).symm

theorem vacant_registered : Registered inn vacant := fun _ hb => absurd rfl hb

/-- A player lies down in one bed and then in the other. -/
def tossing : List (Act (Bool × Bool) Unit) :=
  [.login 7, .use (false, false) 7 true true, .use (true, false) 7 true true]

theorem not_registered_tossing :
    ¬ Run.Along (step inn) (fun s a => Registered inn (step inn s a)) vacant tossing := by
  rw [registered_iff inn_steady tossing vacant_coherent vacant_registered]
  intro h
  exact h.2.2.1 ⟨_, _, _, _, rfl, by decide, by decide, rfl, by decide, by decide⟩

/-! ### Who has come back -/

/-- Who comes into the game sleeps in no bed. -/
theorem login_frees (hW : Steady W) (hc : Coherent W s) (hr : Registered W s) (hg : g ≠ 0) (b : β) :
    (login W s g).sleeperGUID b ≠ g := by
  intro hb
  have henter := hc.enter hg
  cases hmap : s.bedSleepersMap g with
  | none =>
    simp only [login, hmap] at hb
    obtain ⟨b', hb', -⟩ := hr b (hb ▸ hg)
    rw [hb, hmap] at hb'
    exact Option.some_ne_none b' hb'.symm
  | some b₀ =>
    simp only [login, hmap] at hb
    have hsleeper := (hc.known g b₀ hmap).1
    obtain ⟨hsets, -⟩ := wakeUp_spec hW (henter.inHouse b₀ (by rw [show _ = g from hsleeper]; exact hg))
    by_cases hhalf : Half W { s with players := g :: s.players } b₀ b
    · exact hg (hb.symm.trans (hsets.halves b hhalf))
    · rw [hsets.others b hhalf] at hb
      exact hhalf (Registered.half (s := { s with players := g :: s.players }) hr henter
        (by rw [show _ = g from hsleeper]; exact hg) (hb.trans hsleeper.symm))

/-- Waking up a bed gives nobody a bed. -/
theorem wakeUp_sleeperGUID (hW : Steady W) (b b' : β) :
    (wakeUp W s b).sleeperGUID b' = 0 ∨ (wakeUp W s b).sleeperGUID b' = s.sleeperGUID b' := by
  rcases wakeUp_cases hW s b with heq | ⟨hsets, -⟩
  · rw [heq]
    exact .inr rfl
  · by_cases hhalf : Half W s b b'
    · exact .inl (hsets.halves b' hhalf)
    · exact .inr (hsets.others b' hhalf)

/-- Only a player himself lies down. -/
theorem awake_step (hW : Steady W) (hc : Coherent W s) (hg : g ≠ 0) {a : Act β η}
    (ha : ∀ b premium access, a ≠ .use b g premium access) (hs : ∀ b, s.sleeperGUID b ≠ g) :
    ∀ b, (step W s a).sleeperGUID b ≠ g := by
  have hwake : ∀ {s : State β} (b : β), (∀ b, s.sleeperGUID b ≠ g) → ∀ b', (wakeUp W s b).sleeperGUID b' ≠ g := by
    intro s b hs b'
    rcases wakeUp_sleeperGUID (s := s) hW b b' with heq | heq
    · rw [heq]
      exact hg.symm
    · rw [heq]
      exact hs b'
  cases a with
  | login guid =>
    simp only [step]
    split_ifs
    · exact hs
    · unfold login
      dsimp only
      split
      · exact hwake _ hs
      · exact hs
  | logout guid => exact hs
  | use b guid premium access =>
    simp only [step]
    split_ifs
    · rcases sleep_cases hW s b guid with heq | ⟨-, -, hsets, -⟩
      · rw [heq]
        exact hs
      · have hne : guid ≠ g := fun heq => ha b premium access (heq ▸ rfl)
        intro b'
        by_cases hhalf : Half W s b b'
        · rw [hsets.halves b' hhalf]
          exact hne
        · rw [hsets.others b' hhalf]
          exact hs b'
    · exact hs
  | setOwner h =>
    refine List.foldlRecOn (motive := fun s : State β => ∀ b, s.sleeperGUID b ≠ g) (W.bedsList h) _ hs
      fun s hs b _ => ?_
    split_ifs
    · exact hwake b hs
    · exact hs
  | restart named =>
    intro b
    simp only [step]
    rw [restart_sleeperGUID hc]
    split_ifs
    · exact hs b
    · exact hg.symm

/-- **Who has come back sleeps nowhere**: when a player has come into the game after a run in which nobody lay down
twice, no bed is his until he lies down again, whatever else happens. -/
theorem nobody_sleeps (hW : Steady W) (as bs : List (Act β η)) (hc : Coherent W s) (hr : Registered W s)
    (has : Run.Along (step W) (fun s a => ¬ Oversleeps W s a) s as) (hg : g ≠ 0)
    (hout : g ∉ (Run.run (step W) s as).players) (hbs : ∀ b premium access, .use b g premium access ∉ bs) :
    ∀ b, (Run.run (step W) s (as ++ .login g :: bs)).sleeperGUID b ≠ g := by
  have hkeep : ∀ (s : State β) (a : Act β η), Coherent W s ∧ Registered W s → ¬ Oversleeps W s a →
      Coherent W (step W s a) ∧ Registered W (step W s a) := fun s a hs ha =>
    ⟨coherent_step hW hs.1 a, (registered_step_iff hW hs.1 hs.2 a).2 ha⟩
  obtain ⟨hc₁, hr₁⟩ := Run.run_inv hkeep as ⟨hc, hr⟩ has
  rw [Run.run_append]
  have hlogin : step W (Run.run (step W) s as) (.login g) = login W (Run.run (step W) s as) g :=
    if_neg (not_or.2 ⟨hg, hout⟩)
  show ∀ b, (Run.run (step W) (step W (Run.run (step W) s as) (.login g)) bs).sleeperGUID b ≠ g
  rw [hlogin]
  have hawake : ∀ (s : State β) (a : Act β η), (Coherent W s ∧ ∀ b, s.sleeperGUID b ≠ g) →
      (∀ b premium access, a ≠ .use b g premium access) →
      Coherent W (step W s a) ∧ ∀ b, (step W s a).sleeperGUID b ≠ g := fun s a hs ha =>
    ⟨coherent_step hW hs.1 a, awake_step hW hs.1 hg ha hs.2⟩
  refine (Run.run_of_mem hawake bs ⟨hlogin ▸ coherent_step hW hc₁ (.login g), login_frees hW hc₁ hr₁ hg⟩ ?_).2
  intro a ha b premium access heq
  exact hbs b premium access (heq ▸ ha)

theorem nobody_sleeps_inn : (Run.run (step inn) vacant
    ([.login 7, .use (false, false) 7 true true, .logout 7] ++ .login 7 :: [.logout 7])).sleeperGUID
      (false, false) ≠ 7 := by
  refine nobody_sleeps inn_steady _ _ vacant_coherent vacant_registered ?_ (by decide) (by decide) (by simp) _
  simp only [Run.Along]
  refine ⟨by simp [Oversleeps], ?_, by simp [Oversleeps], trivial⟩
  rintro ⟨_, _, _, _, heq, -, -, -, -, hmap⟩
  cases heq
  exact hmap (by decide)

/-! ### A bed that was forgotten -/

/-- The bed is occupied, and the map has neither of its halves. -/
structure Forgotten (W : World β η) (s : State β) (b : β) (g : ℕ) : Prop where
  sleeperGUID : s.sleeperGUID b = g
  ne_zero : g ≠ 0
  unknown : ∀ g' b', s.bedSleepersMap g' = some b' → ¬ Half W s b b'

/-- What may free a forgotten bed: its house changes hands, or the server is restarted. -/
def Act.Spares (W : World β η) (s : State β) (b : β) : Act β η → Prop
  | .setOwner h => ∀ b', Half W s b b' → W.getHouse b' ≠ some h
  | .restart _ => False
  | _ => True

theorem next_wakeUp (hW : Steady W) (s : State β) (b : β) :
    getNextBedItem W (wakeUp W s b) = getNextBedItem W s := by
  rcases wakeUp_cases hW s b with heq | ⟨hsets, -⟩
  · rw [heq]
  · exact hsets.next

/-- The halves of the beds stay the same. -/
theorem next_step (hW : Steady W) (s : State β) (a : Act β η) :
    getNextBedItem W (step W s a) = getNextBedItem W s := by
  cases a with
  | login guid =>
    simp only [step, login]
    split_ifs
    · rfl
    · split
      · exact next_wakeUp hW _ _
      · rfl
  | logout guid => rfl
  | use b guid premium access =>
    simp only [step]
    split_ifs
    · rcases sleep_cases hW s b guid with heq | ⟨-, -, hsets, -⟩
      · rw [heq]
      · exact hsets.next
    · rfl
  | setOwner h =>
    refine List.foldlRecOn (motive := fun s' : State β => getNextBedItem W s' = getNextBedItem W s) (W.bedsList h) _
      rfl fun s' hs' b _ => ?_
    split_ifs
    · exact (next_wakeUp hW s' b).trans hs'
    · exact hs'
  | restart named => exact getNextBedItem_congr (foldl_readAttr_rest _ _ _ _).1

theorem next_run (hW : Steady W) (s : State β) (as : List (Act β η)) :
    getNextBedItem W (Run.run (step W) s as) = getNextBedItem W s :=
  Run.run_of_step (I := fun s' => getNextBedItem W s' = getNextBedItem W s)
    (fun s' a hs' => (next_step hW s' a).trans hs') as rfl

theorem forgotten_wakeUp (hW : Steady W) (hc : Coherent W s) (hs : Forgotten W s b g) (hb : ¬ Half W s b b') :
    Forgotten W (wakeUp W s b') b g := by
  rcases wakeUp_cases hW s b' with heq | ⟨hsets, hmap⟩
  · rw [heq]
    exact hs
  · refine ⟨?_, hs.ne_zero, fun g' b₁ hb₁ => ?_⟩
    · rw [hsets.others b fun h => hb (hc.half_symm h)]
      exact hs.sleeperGUID
    · rw [half_congr hsets.next]
      rw [hmap] at hb₁
      by_cases hg : g' = s.sleeperGUID b'
      · rw [hg, Function.update_self] at hb₁
        exact absurd hb₁.symm (Option.some_ne_none b₁)
      · rw [Function.update_of_ne hg] at hb₁
        exact hs.unknown g' b₁ hb₁

/-- Nobody lies down in a bed that is occupied, and another bed is not in the way. -/
theorem forgotten_sleep (hW : Steady W) (hc : Coherent W s) {g' : ℕ} (hs : Forgotten W s b g) :
    Forgotten W (sleep W s b' g') b g := by
  rcases sleep_cases hW s b' g' with heq | ⟨-, hfree, hsets, hmap⟩
  · rw [heq]
    exact hs
  · have hhalf : ¬ Half W s b b' := fun hhalf =>
      hs.ne_zero (hs.sleeperGUID.symm.trans ((hc.sleeper_half hhalf).symm.trans hfree))
    refine ⟨?_, hs.ne_zero, fun g₁ b₁ hb₁ => ?_⟩
    · rw [hsets.others b fun h => hhalf (hc.half_symm h)]
      exact hs.sleeperGUID
    · rw [half_congr hsets.next]
      rw [hmap] at hb₁
      by_cases hg : g₁ = g'
      · rw [hg, Function.update_self] at hb₁
        rwa [← Option.some.inj hb₁]
      · rw [Function.update_of_ne hg] at hb₁
        exact hs.unknown g₁ b₁ hb₁

theorem forgotten_step (hW : Steady W) (hc : Coherent W s) (hs : Forgotten W s b g) {a : Act β η}
    (ha : a.Spares W s b) : Forgotten W (step W s a) b g := by
  cases a with
  | login guid =>
    simp only [step]
    split_ifs with hguid
    · exact hs
    · have henter := hc.enter (not_or.1 hguid).1
      have hs' : Forgotten W { s with players := guid :: s.players } b g := ⟨hs.sleeperGUID, hs.ne_zero, hs.unknown⟩
      unfold login
      dsimp only
      split
      · next b' hb' => exact forgotten_wakeUp hW henter hs' (hs.unknown guid b' hb')
      · exact hs'
  | logout guid => exact ⟨hs.sleeperGUID, hs.ne_zero, hs.unknown⟩
  | use b' guid premium access =>
    simp only [step]
    split_ifs
    · exact forgotten_sleep hW hc hs
    · exact hs
  | setOwner h =>
    have hall := List.foldlRecOn (motive := fun s' : State β => Coherent W s' ∧ Forgotten W s' b g ∧
      getNextBedItem W s' = getNextBedItem W s) (W.bedsList h)
      (fun s b => if s.sleeperGUID b ≠ 0 then wakeUp W s b else s) ⟨hc, hs, rfl⟩ fun s' hs' b' hb' => by
        obtain ⟨hc', hs', hnext'⟩ := hs'
        split_ifs
        · have hhalf : ¬ Half W s' b b' := by
            rw [half_congr hnext']
            exact fun hhalf => ha b' hhalf ((W.mem_bedsList h b').1 hb')
          exact ⟨coherent_wakeUp hW hc', forgotten_wakeUp hW hc' hs' hhalf, (next_wakeUp hW s' b').trans hnext'⟩
        · exact ⟨hc', hs', hnext'⟩
    exact hall.2.1
  | restart named => exact absurd ha not_false

/-- Who lies down again leaves his bed forgotten. -/
theorem forgotten_of_oversleeps (hW : Steady W) (hc : Coherent W s) {premium access : Bool}
    (hover : Oversleeps W s (.use b' g premium access)) (hb : s.bedSleepersMap g = some b) :
    Forgotten W (step W s (.use b' g premium access)) b g := by
  obtain ⟨_, _, _, _, heq, hplayer, hhouse, hpremium, hfree, -⟩ := hover
  cases heq
  have huse : canUse W s b' premium access = true := by
    simp [canUse, Option.isSome_iff_ne_none, hhouse, hpremium, hfree]
  have hstep : step W s (.use b' g premium access) = sleep W s b' g := if_pos ⟨hplayer, huse⟩
  obtain ⟨hsets, hmap⟩ := sleep_spec (g := g) hW (not_or.2 ⟨hhouse, not_not.2 hfree⟩)
  obtain ⟨hsleeper, hg⟩ := hc.known g b hb
  have hhalf : ¬ Half W s b' b := fun hhalf => hg (hsleeper.symm.trans ((hc.sleeper_half hhalf).trans hfree))
  rw [hstep]
  refine ⟨(hsets.others b hhalf).trans hsleeper, hg, fun g' b₁ hb₁ => ?_⟩
  rw [half_congr hsets.next]
  rw [hmap] at hb₁
  by_cases heq : g' = g
  · rw [heq, Function.update_self] at hb₁
    rw [← Option.some.inj hb₁]
    exact fun h => hhalf (hc.half_symm h)
  · rw [Function.update_of_ne heq] at hb₁
    exact fun h => heq ((hc.known g' b₁ hb₁).1.symm.trans ((hc.sleeper_half h).trans hsleeper))

/-- **A bed in which somebody lay down before he lay down in another stays occupied**, and by him, until its
house changes hands or the server is restarted. -/
theorem overslept_stays (hW : Steady W) (as bs : List (Act β η)) {premium access : Bool} (hc : Coherent W s)
    (hover : Oversleeps W (Run.run (step W) s as) (.use b' g premium access))
    (hb : (Run.run (step W) s as).bedSleepersMap g = some b) (hbs : ∀ a ∈ bs, a.Spares W s b) :
    (Run.run (step W) s (as ++ .use b' g premium access :: bs)).sleeperGUID b = g := by
  have hc₁ := coherent_run hW hc as
  have hkeep : ∀ (s' : State β) (a : Act β η),
      (Coherent W s' ∧ Forgotten W s' b g ∧ getNextBedItem W s' = getNextBedItem W s) → a.Spares W s b →
      Coherent W (step W s' a) ∧ Forgotten W (step W s' a) b g ∧
        getNextBedItem W (step W s' a) = getNextBedItem W s := by
    intro s' a ⟨hc', hs', hnext⟩ ha
    have ha' : a.Spares W s' b := by
      cases a with
      | setOwner h => exact fun b' hhalf => ha b' ((half_congr hnext).1 hhalf)
      | restart named => exact ha
      | login guid => trivial
      | logout guid => trivial
      | use b' guid premium access => trivial
    exact ⟨coherent_step hW hc' a, forgotten_step hW hc' hs' ha', (next_step hW s' a).trans hnext⟩
  have hstart : Forgotten W (step W (Run.run (step W) s as) (.use b' g premium access)) b g :=
    forgotten_of_oversleeps hW hc₁ hover hb
  rw [Run.run_append]
  exact (Run.run_of_mem hkeep bs ⟨coherent_step hW hc₁ _, hstart,
    (next_step hW _ _).trans (next_run hW s as)⟩ hbs).2.1.sleeperGUID

theorem overslept_stays_inn : (Run.run (step inn) vacant
    ([.login 7, .use (false, false) 7 true true] ++ .use (true, false) 7 true true ::
      [.logout 7, .login 7, .logout 7])).sleeperGUID (false, false) = 7 := by
  refine overslept_stays inn_steady [.login 7, .use (false, false) 7 true true] _ vacant_coherent ?_ (by decide) ?_
  · exact ⟨_, _, _, _, rfl, by decide, by decide, rfl, by decide, by decide⟩
  · simp [Act.Spares]

end Steps

end Beds
end ForgottenServer
