/-
# No item is lost in a move

A move between containers and inventories conserves the items that lie in the
two cylinders at any depth: the counts of every class of equal items add up to
the same, and what is no stack is there once. An index of 254 puts an item into
the container that holds the destination, which is then one of the cylinders.

Key definition: `State.movedIn`.
Key theorems: `moveChecked_conserves`, `exchange_conserves`,
`conserves_of_internalMoveItem`.
-/
import ForgottenServer.Transfer

namespace ForgottenServer
namespace Inventory

open Ancestry Relation State

section Moves

variable {cfg : Config} {s s' s₁ : State} {x y q item f : Ref} {p : CreatureId} {c fromCylinder toCylinder : Cylinder}
  {cs : List Cylinder} {index : ℤ} {K : Item → Prop} {toItem tradeItem : Option Ref} {actor : Option CreatureId}
  {items : UInt16 → ItemType}

/-! ### A cylinder that is reached -/

theorem State.Reaches.inside_cons (h : s.Reaches cs c) : s.Inside (c :: cs) x ↔ s.Inside cs x :=
  Placement.Reaches.inside_cons h

theorem amount_cons (h : s.Reaches cs c) : s.amount K (c :: cs) = s.amount K cs := by
  have hheld : s.held (c :: cs) = s.held cs := by
    ext x
    unfold held
    rw [Placement.mem_held, Placement.mem_held]
    exact and_congr_right fun _ => h.inside_cons
  unfold amount
  rw [hheld]

theorem Conserves.of_cons (h : Conserves items s s' (c :: cs)) (hreach : s.Reaches cs c) (hreach' : s'.Reaches cs c) :
    Conserves items s s' cs where
  tidy := h.tidy
  inside x hx hin := hreach'.inside_cons.1 (h.inside x hx (hreach.inside_cons.2 hin))
  amount K hK := by
    rw [← amount_cons hreach, ← amount_cons hreach']
    exact h.amount K hK

/-- A container that does not lie in the item is reached wherever the item goes. -/
theorem State.Reaches.persists (h : s.Reaches cs c) (hout : ∀ q, c = .container q → ¬ s.Above item q)
    (hstays : ∀ y, y ≠ item → ∀ d, s.parent y = some d → s'.parent y = some d) : s'.Reaches cs c := by
  rcases h with hc | ⟨q, rfl, hq⟩
  · exact .inl hc
  · exact .inr ⟨q, rfl, hq.persists (hout q rfl) hstays⟩

/-! ### A move that is checked -/

theorem moveChecked_conserves {count : ℕ} (hs : s.Tidy cfg.items)
    (hsmall : ∀ r, (s.type cfg r).stackable = true → (s.item r).count ≤ 100)
    (hsolid : ∀ id, (cfg.items id).stackable = true →
      ((cfg.items id).isFluidContainer || (cfg.items id).isSplash) = false)
    (hfrom : Carries fromCylinder) (hitem : item ∈ s.contents fromCylinder) (hcsfrom : fromCylinder ∈ cs)
    (hc : Carries c) (hreach : s.Reaches cs c) (hout : ∀ q, c = .container q → ¬ s.Above item q)
    (hne : toItem ≠ some item)
    (hlands : Cleared cfg s fromCylinder c index item count {} tradeItem →
      Lands cfg s item (moveCount cfg s item count (queryMaxCount cfg s index item count {} c).2) c index toItem) :
    ∃ ret s', moveChecked cfg s fromCylinder c index item count toItem {} tradeItem = some (ret, s') ∧
      Conserves cfg.items s s' cs := by
  by_cases hcleared : Cleared cfg s fromCylinder c index item count {} tradeItem
  · have hm := (queryRemove_eq_noError.1 hcleared.removed).2.1.2
    obtain ⟨s', hs', hstays, hconserves⟩ := transfer_conserves hs hsmall hsolid hfrom hitem
      (List.mem_cons_of_mem c hcsfrom) hc List.mem_cons_self hm (hlands hcleared) hne
    rw [moveChecked_of_cleared hcleared]
    dsimp only
    rw [hs']
    exact ⟨_, s', rfl, hconserves.of_cons hreach (hreach.persists hout hstays)⟩
  · obtain ⟨ret, -, hret⟩ := moveChecked_of_not_cleared toItem hcleared
    exact ⟨ret, s, hret, .refl hs⟩

/-! ### An exchange -/

/-- A container gives a player an item, and takes what was in the slot. -/
theorem exchange_conserves (hs : s.Wf cfg.items)
    (hfull : (s.things f).itemlist.length ≤ (s.things f).maxSize.toNat)
    (hitem : s.parent item = some (.container f)) (hslot : s.getInventoryItem p index = some x)
    (hx : s.asCylinder x = none) (hcsf : .container f ∈ cs) (hcsp : .player p ∈ cs) :
    ∃ s₁, exchange cfg s (.container f) (.player p) x = some s₁ ∧ Conserves cfg.items s s₁ cs ∧ s₁.item = s.item ∧
      s₁.parent item = s.parent item ∧ s₁.getInventoryItem p index = none := by
  obtain ⟨s₁, hs₁, hbare, hfreed⟩ := exchange_container_player hs hitem hslot hx
  obtain ⟨-, hmem, hinv⟩ := getInventoryItem_eq_some hslot
  have hthere : x ∈ s.contents (.player p) := mem_contents_player.2 ⟨_, hmem, hinv⟩
  have hparentx := (hs.mem_contents _ _).1 hthere
  have hne : item ≠ x := by
    rintro rfl
    exact nomatch hitem.symm.trans hparentx
  have hl : Leaves s (emptied s p index.toNat x) x (.player p) := by
    have hplayer : Carries (.player p) := trivial
    have hremove : Leaves s (removeThing cfg s x (s.item x).count (.player p)) x (.player p) :=
      removeThing_leaves hplayer hthere (.inr rfl)
    rwa [(removeThing_slot hs hslot).2] at hremove
  -- the container has the item, so that it takes any
  have hroom : 0 < (s.things f).maxSize.toNat := by
    have hin : item ∈ (s.things f).itemlist := (hs.mem_contents (.container f) item).2 hitem
    exact (List.length_pos_of_mem hin).trans_le hfull
  have hsize : ((emptied s p index.toNat x).things f).maxSize = (s.things f).maxSize := maxSize_setThing rfl
  have hcomes : Comes (emptied s p index.toNat x) s₁ x (.container f) := by
    refine Comes.of_bare ?_ hbare
    unfold pushed
    rw [hsize, if_pos hroom]
    refine attach_comes ?_ fun p e => nomatch e
    unfold Accepts
    dsimp only
    rw [hsize]
    omega
  have hitems : s₁.item = s.item := hcomes.item.trans hl.item
  have hnone : (emptied s p index.toNat x).parent x = none := by
    rw [hl.parent, Function.update_self]
  have hlt : x < (emptied s p index.toNat x).next := by
    rw [hl.next]
    exact hs.fresh x fun e => nomatch hparentx.symm.trans e
  have hbag : ∀ q, Cylinder.container f = .container q →
      (cfg.items ((emptied s p index.toNat x).item q).id).stackable = false ∧ q < (emptied s p index.toNat x).next := by
    rintro q ⟨⟩
    obtain ⟨hcont, hq⟩ := hs.container f item hitem
    rw [hl.item, hl.next]
    exact ⟨hs.not_stackable hcont, hq⟩
  refine ⟨s₁, hs₁, ⟨(hs.tidy.leaves hl).comes hnone hlt hbag hcomes, fun y _ hin => ?_, fun K _ => ?_⟩, hitems, ?_,
    hfreed.getInventoryItem⟩
  · exact (inside_moved hparentx hcsp hcsf hl hcomes).2 hin
  · exact amount_moved hparentx hcsp hcsf hl hcomes
  · rw [hcomes.parent, Function.update_of_ne hne, hl.parent, Function.update_of_ne hne]

/-! ### The move -/

/-- The cylinders that a move between two can change: an index of 254 leads up
to the container that holds the destination. -/
def State.movedIn (s : State) (fromCylinder toCylinder : Cylinder) (index : ℤ) : List Cylinder :=
  fromCylinder :: toCylinder ::
    if index = 254 then
      match toCylinder with
      | .container q =>
        match s.parent q with
        | some (.container parentContainer) => [.container parentContainer]
        | _ => []
      | _ => []
    else []

theorem mem_movedIn {q' : Ref} (h254 : index = 254) (hq : toCylinder = .container q)
    (hq' : s.parent q = some (.container q')) : .container q' ∈ s.movedIn fromCylinder toCylinder index := by
  subst hq
  unfold State.movedIn
  rw [if_pos h254]
  dsimp only
  rw [hq']
  exact List.mem_cons_of_mem _ (List.mem_cons_of_mem _ List.mem_cons_self)

theorem conserves_of_internalMoveItem (count : UInt32) (actor : Option CreatureId) (tradeItem : Option Ref)
    {d : Destination} (hs : s.Wf cfg.items)
    (hfull : ∀ q, (s.things q).itemlist.length ≤ (s.things q).maxSize.toNat)
    (hsmall : ∀ r, (s.type cfg r).stackable = true → (s.item r).count ≤ 100)
    (hsolid : ∀ id, (cfg.items id).stackable = true →
      ((cfg.items id).isFluidContainer || (cfg.items id).isSplash) = false)
    (hfrom : Carries fromCylinder) (hto : Carries toCylinder) (hbag : ∀ q, toCylinder = .container q → s.IsBag q)
    (hitem : item ∈ s.contents fromCylinder)
    (hd : d = findDestination cfg s item mapMaxLayers ⟨toCylinder, index, none, {}⟩) (hdevice : ¬ d.IsDevice)
    (hcs : s.movedIn fromCylinder toCylinder index ⊆ cs) :
    ∃ ret s', internalMoveItem cfg s fromCylinder toCylinder index item count {} actor tradeItem = some (ret, s') ∧
      Conserves cfg.items s s' cs := by
  have hcsfrom : fromCylinder ∈ cs := hcs List.mem_cons_self
  have hcsto : toCylinder ∈ cs := hcs (List.mem_cons_of_mem _ List.mem_cons_self)
  have haims : Aims s cs d := (aims_findDestination hs hfull hto hbag hcsto
    (fun q q' h254 hq hq' => hcs (mem_movedIn h254 hq hq')) hd).resolve_left hdevice
  have hflags : d.flags = {} := by
    cases haims <;> rfl
  have hstay (ret : ReturnValue) : ∃ ret' s', some (ret, s) = some (ret', s') ∧ Conserves cfg.items s s' cs :=
    ⟨ret, s, rfl, .refl hs.tidy⟩
  by_cases hself : d.destItem = some item
  · unfold internalMoveItem
    dsimp only
    rw [← hd, if_pos hself]
    exact hstay _
  -- the move as it is asked
  have hmove (hadd : queryAdd cfg s d.index item count.toNat {} actor d.cylinder = .noError ∨
      queryAdd cfg s d.index item count.toNat {} actor d.cylinder = .needExchange) :
      ∃ ret s', moveChecked cfg s fromCylinder d.cylinder d.index item count.toNat d.destItem {} tradeItem =
        some (ret, s') ∧ Conserves cfg.items s s' cs := by
    refine moveChecked_conserves hs.tidy hsmall hsolid hfrom hitem hcsfrom ?_ ?_ (fun q hq => ?_) hself
      (lands_of_cleared hs haims hadd)
    · cases haims <;> trivial
    · cases haims with
      | container reaches => exact reaches
      | player hp => exact .inl hp
    · rw [hq] at hadd
      obtain ⟨-, hne, hheld⟩ := Container.of_queryAdd (hadd.resolve_right Container.queryAdd_ne_needExchange)
      exact hs.not_above_of_isHeldIn hne hheld
  unfold internalMoveItem
  dsimp only
  rw [← hd, if_neg hself, hflags]
  cases hadd : queryAdd cfg s d.index item count.toNat {} actor d.cylinder
  case noError => exact hmove (.inl hadd)
  case needExchange =>
    obtain ⟨p, index', hp, rfl⟩ : ∃ p index', .player p ∈ cs ∧
        d = ⟨.player p, index', s.getInventoryItem p index', {}⟩ := by
      cases haims with
      | container => exact absurd hadd Container.queryAdd_ne_needExchange
      | player hp => exact ⟨_, _, hp, rfl⟩
    have hindex := Player.index_of_queryAdd (.inr hadd)
    obtain ⟨x, hslot, -⟩ := Player.occupied_iff.1 (Player.queryAdd_eq_needExchange hadd).2.2.2
    dsimp only at hslot hself hadd hmove hindex ⊢
    rw [hslot] at hself hmove ⊢
    dsimp only
    split
    · exact hstay _
    next htaken =>
    split
    · exact hstay _
    next hroom =>
    split
    · next hremoved =>
      have hx : s.asCylinder x = none := (slot_of_needExchange hd rfl hslot hadd).2.2
      have hexchanges : Exchanges cfg s fromCylinder ⟨.player p, index', s.getInventoryItem p index', {}⟩ item
          count.toNat actor x :=
        ⟨hadd, hslot, fun e => hself (e ▸ rfl), not_not.1 htaken, hroom, hremoved⟩
      obtain ⟨f, rfl⟩ : ∃ f, fromCylinder = .container f := by
        cases fromCylinder with
        | container f => exact ⟨f, rfl⟩
        | player p' => exact absurd rfl (not_player_of_exchanges hitem hexchanges rfl hslot p')
        | tile t => exact hfrom.elim
        | device y => exact hfrom.elim
      have hparent := (hs.mem_contents _ item).1 hitem
      obtain ⟨s₁, hs₁, hconserves, hitems, hparent₁, hfree⟩ :=
        exchange_conserves hs (hfull f) hparent hslot hx hcsfrom hp
      rw [hs₁, Option.bind_some]
      split
      · exact ⟨_, s₁, rfl, hconserves⟩
      · have hplayer : Carries (.player p) := trivial
        have hchecked : ∃ ret s', moveChecked cfg s₁ (.container f) (.player p) index' item count.toNat none {}
            tradeItem = some (ret, s') ∧ Conserves cfg.items s₁ s' cs := by
          refine moveChecked_conserves hconserves.tidy ?_ hsolid hfrom
            ((hconserves.tidy.mem_contents _ item).2 (hparent₁.trans hparent)) hcsfrom hplayer (.inl hp)
            (fun q e => (nomatch e)) (fun e => (nomatch e)) fun _ => ?_
          · unfold State.type
            rw [hitems]
            exact hsmall
          · refine .room ⟨hindex, ?_, fun q e => (nomatch e)⟩ fun y e => (nomatch e)
            rintro p' ⟨⟩
            unfold getInventoryItem at hfree
            rwa [if_pos hindex] at hfree
        obtain ⟨ret, s', hs', hconserves'⟩ := hchecked
        exact ⟨ret, s', hs', hconserves.trans hconserves' hitems⟩
    · exact hmove (.inr hadd)
  all_goals exact hstay _

/-- An item that lies in one place lies there once. -/
theorem State.Tidy.once (hs : s.Tidy items) (hx : s.Inside cs x) :
    ∃ c, (s.contents c).count x = 1 ∧ ∀ c', x ∈ s.contents c' → c' = c := by
  obtain ⟨c, hc, -⟩ := Placement.inside_iff_reaches.1 hx
  refine ⟨c, List.count_eq_one_of_mem (hs.nodup c) ((hs.mem_contents c x).2 hc), fun c' hc' => ?_⟩
  exact Option.some.inj (((hs.mem_contents c' x).1 hc').symm.trans hc)

/-- **No item is lost in a move** to a container or a player: the counts of each
class of items add up to the same, and an item that is no stack lies once in
what the two cylinders hold. -/
theorem internalMoveItem_conserves (hs : s.Wf cfg.items)
    (hfull : ∀ q, (s.things q).itemlist.length ≤ (s.things q).maxSize.toNat)
    (hsmall : ∀ r, (s.type cfg r).stackable = true → (s.item r).count ≤ 100)
    (hsolid : ∀ id, (cfg.items id).stackable = true →
      ((cfg.items id).isFluidContainer || (cfg.items id).isSplash) = false)
    (hfrom : Carries fromCylinder) (hto : Carries toCylinder) (hbag : ∀ q, toCylinder = .container q → s.IsBag q)
    (hitem : item ∈ s.contents fromCylinder)
    (hdevice : ¬ (findDestination cfg s item mapMaxLayers ⟨toCylinder, index, none, {}⟩).IsDevice)
    (count : UInt32) (actor : Option CreatureId) (tradeItem : Option Ref) :
    ∃ ret s', internalMoveItem cfg s fromCylinder toCylinder index item count {} actor tradeItem = some (ret, s') ∧
      s'.Tidy cfg.items ∧
      (∀ K, Kind cfg.items s K → s'.amount K (s.movedIn fromCylinder toCylinder index) =
        s.amount K (s.movedIn fromCylinder toCylinder index)) ∧
      ∀ x, (s.type cfg x).stackable = false → s.Inside (s.movedIn fromCylinder toCylinder index) x →
        s'.Inside (s.movedIn fromCylinder toCylinder index) x ∧
          ∃ c, (s'.contents c).count x = 1 ∧ ∀ c', x ∈ s'.contents c' → c' = c := by
  obtain ⟨ret, s', hs', hconserves⟩ := conserves_of_internalMoveItem count actor tradeItem hs hfull hsmall hsolid
    hfrom hto hbag hitem rfl hdevice (List.Subset.refl _)
  refine ⟨ret, s', hs', hconserves.tidy, hconserves.amount, fun x hx hin => ?_⟩
  have hin' := hconserves.inside x hx hin
  exact ⟨hin', hconserves.tidy.once hin'⟩

end Moves

/-! ### A bag in a backpack -/

section Sacks

/-- Containers, a trash holder, a ring and two kinds of stacks; the group of the
second kind is left open. -/
def sackTypes (group : ItemGroup) : UInt16 → ItemType
  | 1 => { id := 1, pickupable := true, moveable := true, group := .container }
  | 2 => { id := 2, type := .trashHolder }
  | 3 => { id := 3, pickupable := true, moveable := true }
  | 4 => { id := 4, pickupable := true, moveable := true, stackable := true }
  | 5 => { id := 5, pickupable := true, moveable := true, stackable := true, group }
  | _ => {}

def sackConfig (group : ItemGroup) : Config := { items := sackTypes group }

def sackItem (cls : ItemClass) (id : UInt16) (count : ℕ) : Item := ⟨cls, id, count, none, (0, 0, 0), 0, 0, 0⟩

/-- A backpack holds a bag, a trash holder and two stacks, the bag a ring and
two stacks that are equal to those. One pair has an owner of its corpse. -/
def sacks : State where
  things
    | 0 => { item := sackItem .container 1 1, maxSize := 8, itemlist := [1, 2, 5, 7] }
    | 1 =>
      { item := sackItem .container 1 1, parent := some (.container 0), maxSize := 8, itemlist := [3, 4, 6] }
    | 2 => { item := sackItem .trashHolder 2 1, parent := some (.container 0) }
    | 3 => { item := sackItem .item 3 1, parent := some (.container 1) }
    | 4 => { item := (sackItem .item 4 5).setIntAttr .corpseOwner 1, parent := some (.container 1) }
    | 5 => { item := (sackItem .item 4 3).setIntAttr .corpseOwner 1, parent := some (.container 0) }
    | 6 => { item := sackItem .item 5 5, parent := some (.container 1) }
    | 7 => { item := sackItem .item 5 3, parent := some (.container 0) }
    | _ => { item := sackItem .item 0 1 }
  players _ := { tile := ⟨100, 100, 7⟩ }
  next := 8

theorem sacks_wf (group : ItemGroup) : sacks.Wf (sackTypes group) := by
  apply Wf.of_placed (fun r => if r = 0 then 0 else if r = 1 ∨ r = 2 ∨ r = 5 ∨ r = 7 then 1 else 2)
    [.container 0, .container 1]
  · intro c hc
    simp only [List.mem_cons, List.not_mem_nil, or_false, not_or] at hc
    cases c with
    | container q =>
      match q, hc with
      | 0, hc => exact absurd rfl hc.1
      | 1, hc => exact absurd rfl hc.2
      | 2, _ | 3, _ | 4, _ | 5, _ | 6, _ | 7, _ | _ + 8, _ => rfl
    | player p => rfl
    | tile t => rfl
    | device r => rfl
  · decide
  · exact fun t => ⟨[], [], rfl, by decide, fun g hg => (nomatch hg), fun l hl => (nomatch hl), by decide⟩
  · cases group <;> decide +kernel
  · intro r hr
    match r, hr with
    | 0, hr | 1, hr | 2, hr | 3, hr | 4, hr | 5, hr | 6, hr | 7, hr => exact absurd hr (by decide)
    | n + 8, _ => exact ⟨rfl, rfl⟩

/-- No stack is a fluid container or a splash, in the first group. -/
theorem sackTypes_solid (id : UInt16) (_ : (sackTypes .none id).stackable = true) :
    ((sackTypes .none id).isFluidContainer || (sackTypes .none id).isSplash) = false := by
  unfold sackTypes
  split <;> rfl

/-- A stack that is moved into the bag goes to no device. -/
theorem sacks_toBag :
    ¬ (findDestination (sackConfig .none) sacks 7 mapMaxLayers ⟨.container 1, 2, none, {}⟩).IsDevice := by
  have hcyl : (findDestination (sackConfig .none) sacks 7 mapMaxLayers ⟨.container 1, 2, none, {}⟩).cylinder =
      .container 1 := by decide +kernel
  rintro ⟨x, hx⟩
  exact nomatch hcyl.symm.trans hx

theorem sacks_full (q : Ref) : (sacks.things q).itemlist.length ≤ (sacks.things q).maxSize.toNat := by
  match q with
  | 0 | 1 | 2 | 3 | 4 | 5 | 6 | 7 => decide
  | _ + 8 => exact Nat.zero_le _

theorem sacks_small (r : Ref) : (sacks.item r).count ≤ 100 := by
  match r with
  | 0 | 1 | 2 | 3 | 4 | 5 | 6 | 7 => decide
  | _ + 8 => exact (by decide : 1 ≤ 100)

/-- All that lies anywhere lies in the backpack and the bag. -/
def InSacks (s : State) : Prop :=
  ∀ r < s.next, s.parent r = none ∨ s.parent r = some (.container 0) ∨ s.parent r = some (.container 1)

instance (s : State) : Decidable (InSacks s) := inferInstanceAs (Decidable (∀ r < s.next, _))

/-- The count of the class among all that lies anywhere. -/
def sumOf (s : State) (K : Item → Bool) : ℕ :=
  ∑ r ∈ Finset.range s.next, if s.parent r ≠ none ∧ K (s.item r) = true then (s.item r).count else 0

theorem amount_eq_sumOf {s : State} (h : InSacks s) (K : Item → Bool) :
    s.amount (fun it => K it = true) [.container 0, .container 1] = sumOf s K := by
  unfold amount held Placement.held sumOf
  rw [Finset.sum_filter]
  refine Finset.sum_congr rfl fun r hr => ?_
  have hin : Placement.Inside s.parent .container [.container 0, .container 1] r ↔ s.parent r ≠ none := by
    refine ⟨fun h => h.place_ne_none, fun hne => ?_⟩
    rcases h r (Finset.mem_range.1 hr) with he | he | he
    · exact absurd he hne
    · exact .here he List.mem_cons_self
    · exact .here he (List.mem_cons_of_mem _ List.mem_cons_self)
  unfold State.countOf
  by_cases hparent : s.parent r ≠ none
  · by_cases hK : K (s.item r) = true
    · rw [if_pos (hin.2 hparent), if_pos hK, if_pos ⟨hparent, hK⟩]
    · rw [if_pos (hin.2 hparent), if_neg hK, if_neg fun h => hK h.2]
  · rw [if_neg fun h => hparent (hin.1 h), if_neg fun h => hparent h.1]

/-- The counts of all classes of equal items are kept, and the items that are no
stacks, in two cylinders. -/
def Conserved (items : UInt16 → ItemType) (s s' : State) (cs : List Cylinder) : Prop :=
  (∀ K : Item → Prop, (∀ a b : Item, a.equals b = true → (K a ↔ K b)) → s'.amount K cs = s.amount K cs) ∧
    ∀ x, (items (s.item x).id).stackable = false → s.Inside cs x → s'.Inside cs x

theorem exists_of_any {α : Type*} (o : Option (ReturnValue × α)) (good : α → Bool)
    (h : o.any (fun x => x.1 = .noError && good x.2) = true) : ∃ a, o = some (.noError, a) ∧ good a = true := by
  obtain ⟨⟨ret, a⟩, ha, hgood⟩ := (Option.any_eq_true _ _).1 h
  rw [Bool.and_eq_true, decide_eq_true_eq] at hgood
  exact ⟨a, hgood.1 ▸ ha, hgood.2⟩

/-- A class of equal items that has another sum in the backpack and the bag. -/
theorem not_conserved_of_sumOf {items : UInt16 → ItemType} {s' : State} (like : Item) (hplaces : InSacks s')
    (hsum : sumOf s' (fun it => it.equals like) ≠ sumOf sacks (fun it => it.equals like)) :
    ¬ Conserved items sacks s' [.container 0, .container 1] := by
  intro h
  have hequals : ∀ a b : Item, a.equals b = true → (a.equals like = true ↔ b.equals like = true) := by
    intro a b hab
    simp only [Item.equals_iff] at hab ⊢
    rw [hab.1, hab.2]
  have hamount := h.1 _ hequals
  rw [amount_eq_sumOf hplaces, amount_eq_sumOf (by decide)] at hamount
  exact hsum hamount

/-- An index of 254 takes the ring out of the bag, a trash holder destroys it; a
stack that another is put on loses the owner of its corpse, and a stack of a
fluid gets no more. -/
theorem not_conserved_sacks :
    (∀ group, sacks.Wf (sackTypes group)) ∧ (∀ q, (sacks.things q).itemlist.length ≤ (sacks.things q).maxSize.toNat) ∧
    (∀ r, (sacks.item r).count ≤ 100) ∧
    (∃ s', internalMoveItem (sackConfig .none) sacks (.container 1) (.container 1) 254 3 1 {} none none =
      some (.noError, s') ∧ ¬ Conserved (sackTypes .none) sacks s' [.container 1, .container 1]) ∧
    (∃ s', internalMoveItem (sackConfig .none) sacks (.container 1) (.container 0) 1 3 1 {} none none =
      some (.noError, s') ∧ ¬ Conserved (sackTypes .none) sacks s' [.container 1, .container 0]) ∧
    (∃ s', internalMoveItem (sackConfig .none) sacks (.container 0) (.container 1) 1 5 3 {} none none =
      some (.noError, s') ∧ ¬ Conserved (sackTypes .none) sacks s' [.container 0, .container 1]) ∧
    ∃ s', internalMoveItem (sackConfig .fluid) sacks (.container 0) (.container 1) 2 7 3 {} none none =
      some (.noError, s') ∧ ¬ Conserved (sackTypes .fluid) sacks s' [.container 0, .container 1] := by
  have hring (cs : List Cylinder) (hcs : .container 1 ∈ cs) : sacks.Inside cs 3 := .here rfl hcs
  refine ⟨sacks_wf, sacks_full, sacks_small, ?_, ?_, ?_, ?_⟩
  · obtain ⟨s', hs', hgood⟩ := exists_of_any
      (internalMoveItem (sackConfig .none) sacks (.container 1) (.container 1) 254 3 1 {} none none)
      (fun s' => s'.parent 3 = some (.container 0) && s'.parent 0 = none) (by decide +kernel)
    rw [Bool.and_eq_true, decide_eq_true_eq, decide_eq_true_eq] at hgood
    refine ⟨s', hs', fun h => ?_⟩
    have hin := h.2 3 rfl (hring _ List.mem_cons_self)
    obtain hmem | ⟨q, hq, hin⟩ := hin.parent_reaches hgood.1
    · exact absurd hmem (by decide)
    · obtain rfl := Cylinder.container.inj hq
      exact hin.place_ne_none hgood.2
  · obtain ⟨s', hs', hgood⟩ := exists_of_any
      (internalMoveItem (sackConfig .none) sacks (.container 1) (.container 0) 1 3 1 {} none none)
      (fun s' => s'.parent 3 = none) (by decide +kernel)
    refine ⟨s', hs', fun h => ?_⟩
    exact (h.2 3 rfl (hring _ List.mem_cons_self)).place_ne_none (of_decide_eq_true hgood)
  · obtain ⟨s', hs', hgood⟩ := exists_of_any
      (internalMoveItem (sackConfig .none) sacks (.container 0) (.container 1) 1 5 3 {} none none)
      (fun s' => InSacks s' && sumOf s' (fun it => it.equals (sacks.item 4)) = 0) (by decide +kernel)
    rw [Bool.and_eq_true, decide_eq_true_eq, decide_eq_true_eq] at hgood
    refine ⟨s', hs', not_conserved_of_sumOf (sacks.item 4) hgood.1 ?_⟩
    rw [hgood.2]
    decide +kernel
  · obtain ⟨s', hs', hgood⟩ := exists_of_any
      (internalMoveItem (sackConfig .fluid) sacks (.container 0) (.container 1) 2 7 3 {} none none)
      (fun s' => InSacks s' && sumOf s' (fun it => it.equals (sacks.item 6)) = 0) (by decide +kernel)
    rw [Bool.and_eq_true, decide_eq_true_eq, decide_eq_true_eq] at hgood
    refine ⟨s', hs', not_conserved_of_sumOf (sacks.item 6) hgood.1 ?_⟩
    rw [hgood.2]
    decide +kernel

theorem internalMoveItem_conserves_sacks :
    ∃ ret s', internalMoveItem (sackConfig .none) sacks (.container 0) (.container 1) 2 7 3 {} none none =
        some (ret, s') ∧ s'.Tidy (sackTypes .none) ∧
      (∀ K, Kind (sackTypes .none) sacks K → s'.amount K (sacks.movedIn (.container 0) (.container 1) 2) =
        sacks.amount K (sacks.movedIn (.container 0) (.container 1) 2)) ∧
      ∀ x, (sacks.type (sackConfig .none) x).stackable = false →
        sacks.Inside (sacks.movedIn (.container 0) (.container 1) 2) x →
        s'.Inside (sacks.movedIn (.container 0) (.container 1) 2) x ∧
          ∃ c, (s'.contents c).count x = 1 ∧ ∀ c', x ∈ s'.contents c' → c' = c := by
  have hcarries (q : Ref) : Carries (.container q) := trivial
  have hbag : ∀ q, Cylinder.container 1 = .container q → sacks.IsBag q := by
    rintro q ⟨⟩
    exact ⟨by decide, by decide⟩
  exact internalMoveItem_conserves (sacks_wf .none) sacks_full (fun r _ => sacks_small r) sackTypes_solid (hcarries 0)
    (hcarries 1) hbag (by decide) sacks_toBag 3 none none

end Sacks

end Inventory
end ForgottenServer
