/-
# Paying with coins

`Player::getMoney` and `Game::removeMoney` look through the slots and the
containers of a player for coins. A payment takes the stacks from those of the
least worth on. Of the first that is worth more than what is left to pay, so many
coins are taken as are needed, after the change has been added.

The change goes where it finds a place, even on the stack that is paid with.

Key definitions: `Player.getMoney`, `addMoney`, `removeMoney`, `wealth`,
`PaysExactly`.
Key theorem: `removeMoney_paysExactly`.
-/
import ForgottenServer.AddHolding
import ForgottenServer.Coins
import ForgottenServer.RemoveItemOfType

namespace ForgottenServer
namespace Inventory

open Ancestry Nesting BreadthFirst Relation State Money
open Spectators (Position)

/-! ### The code -/

section Code

variable (cfg : Config) (canRemove : Ref → Bool)

/-- The loop over the containers, for those in a queue: what is no container in
them. The first argument bounds the number of containers. -/
def lookInto (s : State) : ℕ → List Ref → List Ref
  | 0, _ => []
  | _, [] => []
  | n + 1, container :: containers =>
    (s.things container).itemlist.filter (fun x => !s.isContainer x) ++
      lookInto s n (containers ++ (s.things container).itemlist.filter s.isContainer)

/-- The items that `getMoney` and `removeMoney` look at. -/
def lookThrough (s : State) (p : CreatureId) : List Ref :=
  let items := slots.filterMap (s.players p).inventory
  items.filter (fun x => !s.isContainer x) ++ lookInto s (s.next + 1) (items.filter s.isContainer)

/-- `Player::getMoney` -/
def Player.getMoney (s : State) (p : CreatureId) : UInt64 :=
  ((lookThrough s p).map fun item => .ofNat (getWorth (s.item item))).sum

/-- The items that are worth something, with what they are worth. -/
def worths (s : State) (p : CreatureId) : List (ℕ × Ref) :=
  ((lookThrough s p).map fun item => (getWorth (s.item item), item)).filter fun entry => entry.1 ≠ 0

/-- `moneyMap`: the same, by what they are worth. -/
def moneyMap (s : State) (p : CreatureId) : List (ℕ × Ref) := (worths s p).mergeSort fun a b => a.1 ≤ b.1

/-- The loop over `moneyMap`, up to the stack of which a part is taken: the
stack, how many of it, and the change. -/
def takeStacks (s : State) (money : UInt64) : List (ℕ × Ref) → State × Option (Ref × ℕ × UInt64)
  | [] => (s, none)
  | (first, item) :: moneyMap =>
    if first < money.toNat then
      takeStacks (internalRemoveItem cfg canRemove s item (-1)).2 (money - .ofNat first) moneyMap
    else if money.toNat < first then
      let worth := first / (s.item item).count
      let removeCount := uint 4 (money.toNat / worth + 1 : ℕ)
      (s, some (item, removeCount, .ofNat (uint 4 (worth * removeCount : ℕ)) - money))
    else ((internalRemoveItem cfg canRemove s item (-1)).2, none)

/-- A coin is created and added to the player, or to the tile if he refuses it. -/
def addCoin (p : CreatureId) (flags : Flags) (s : State) (coin : Item) : Option State :=
  let remaindItem := s.next
  let s := s.create coin 0
  (internalAddItem cfg s (.player p) remaindItem indexWhereever flags).bind fun (ret, _, s) =>
    if ret ≠ .noError then
      (internalAddItem cfg s (.tile (s.players p).tile) remaindItem indexWhereever { noLimit := true }).map
        fun (_, _, s) => s
    else some s

/-- `Game::addMoney` -/
def addMoney (p : CreatureId) (flags : Flags) (s : State) (money : UInt64) : Option State :=
  (addedCoins cfg.items money).foldlM (addCoin cfg p flags) s

/-- `Game::removeMoney` -/
def removeMoney (s : State) (p : CreatureId) (money : UInt64) (flags : Flags) : Option (Bool × State) :=
  if money = 0 then some (true, s)
  else if ((worths s p).map fun entry => UInt64.ofNat entry.1).sum < money then some (false, s)
  else
    match takeStacks cfg canRemove s money (moneyMap s p) with
    | (s, none) => some (true, s)
    | (s, some (item, removeCount, change)) =>
      (addMoney cfg p flags s change).map fun s => (true, (internalRemoveItem cfg canRemove s item removeCount).2)

end Code

/-! ### What is asked of a payment -/

section Spec

variable (cfg : Config) (canRemove : Ref → Bool)

/-- What the coins with the player and on his tile are worth. -/
def wealth (s : State) (p : CreatureId) : ℕ :=
  let items := (s.contents (.tile (s.players p).tile)).filter fun x => !s.isContainer x
  ((lookThrough s p ++ items).map fun item => getWorth (s.item item)).sum

/-- A new coin finds a place with the player, or on the tile if he refuses it. -/
def FindsPlace (p : CreatureId) (flags : Flags) (s : State) (coin : Item) : Prop :=
  let s₁ := s.create coin 0
  (∃ s', Places cfg (.player p) s₁ s.next indexWhereever flags s') ∨
    (∃ ret rem s', internalAddItem cfg s₁ (.player p) s.next indexWhereever flags = some (ret, rem, s') ∧
        ret ≠ .noError) ∧
      ∃ s', Places cfg (.tile (s.players p).tile) s₁ s.next indexWhereever { noLimit := true } s'

/-- So do some coins, one after the other. -/
def AllFindPlaces (p : CreatureId) (flags : Flags) : State → List Item → Prop
  | _, [] => True
  | s, coin :: coins =>
    FindsPlace cfg p flags s coin ∧ ∀ s', addCoin cfg p flags s coin = some s' → AllFindPlaces p flags s' coins

/-- Every change coin of a payment finds a place. -/
def ChangeFindsPlaces (s : State) (p : CreatureId) (money : UInt64) (flags : Flags) : Prop :=
  ∀ s' item removeCount change,
    takeStacks cfg canRemove s money (moneyMap s p) = (s', some (item, removeCount, change)) →
      AllFindPlaces cfg p flags s' (addedCoins cfg.items change)

/-- The payment succeeds just when there is enough money; then the wealth falls by
the amount, and else nothing happens. -/
structure PaysExactly (s : State) (p : CreatureId) (money : UInt64) (result : Bool × State) : Prop where
  enough : result.1 = true ↔ money ≤ Player.getMoney s p
  paid : result.1 = true → wealth result.2 p + money.toNat = wealth s p
  unchanged : result.1 = false → result.2 = s

end Spec

/-! ### What is looked at -/

section Looked

variable {s : State} {p : CreatureId} {t : Position}

/-- The loop over the containers is a walk that leaves them out. -/
theorem lookInto_eq_walk (s : State) : ∀ (n : ℕ) (queue : List Ref),
    lookInto s n queue = (walk (fun q => (s.things q).itemlist) s.isContainer n queue).filter fun x => !s.isContainer x
  | 0, _ => rfl
  | _ + 1, [] => rfl
  | n + 1, q :: queue => by
    unfold lookInto walk
    rw [List.filter_append, lookInto_eq_walk s n]

theorem Owned.carried_subset_range (h : Owned s p) : s.carried p ⊆ Finset.range s.next := fun _ hx =>
  Finset.mem_range.2 (h.lt_of_mem hx)

/-- The loops come to everything that is carried and no container, once. -/
theorem coe_lookThrough (h : Owned s p) :
    (lookThrough s p : Multiset Ref) = ((s.carried p).filter fun x => s.isContainer x = false).val := by
  let one (x : Ref) : Multiset Ref := if s.isContainer x = false then {x} else 0
  let items := s.contents (.player p)
  have hone : ∑ x ∈ s.carried p, one x = ((s.carried p).filter fun x => s.isContainer x = false).val := by
    rw [← Finset.sum_filter, Finset.sum_multiset_singleton]
  have hfilter (l : List Ref) : (l.filter (fun x => !s.isContainer x) : Multiset Ref) = (l.map one).sum := by
    rw [← coe_filter_eq_sum]
    refine congrArg _ (List.filter_congr fun x _ => ?_)
    cases s.isContainer x <;> rfl
  have hclosed (x : Ref) (hx : s.isContainer x = false) : (s.things x).itemlist = [] :=
    h.forest.itemlist_of_not_container hx
  have hrounds : ((items.filter s.isContainer).map (rounds (Finset.range s.next) s.holder)).sum ≤ s.next + 1 := by
    have hle : ((items.filter s.isContainer).map (rounds (Finset.range s.next) s.holder)).sum ≤
        (items.map (rounds (Finset.range s.next) s.holder)).sum :=
      (List.filter_sublist.map _).sum_le_sum fun _ _ => Nat.zero_le _
    have hcard : (items.map (rounds (Finset.range s.next) s.holder)).sum = (s.carried p).card := by
      rw [Finset.card_eq_sum_ones, h.sum_carried]
      refine congrArg List.sum (List.map_congr_left fun r _ => ?_)
      unfold rounds
      rw [h.forest.sum_iterator, Finset.card_eq_sum_ones]
    have hrange := Finset.card_le_card h.carried_subset_range
    rw [Finset.card_range] at hrange
    omega
  have hwalk : (lookInto s (s.next + 1) (items.filter s.isContainer) : Multiset Ref) =
      (items.map fun q => ∑ x ∈ inside (Finset.range s.next) s.holder q, one x).sum := by
    have hzero (x : Ref) (hx : s.isContainer x = false) :
        ∑ y ∈ inside (Finset.range s.next) s.holder x, one y = 0 :=
      h.forest.sum_inside_of_not_container hx one
    have hsum := sum_walk h.forest.nested h.forest.mem_iff_holder h.forest.nodup hclosed one hrounds
    rw [lookInto_eq_walk, ← sum_filter_opens hzero, ← hsum]
    exact hfilter _
  rw [← hone, h.sum_carried one]
  have hlook : lookThrough s p = items.filter (fun x => !s.isContainer x) ++
      lookInto s (s.next + 1) (items.filter s.isContainer) := rfl
  rw [hlook, ← Multiset.coe_add, hfilter, hwalk, ← List.sum_map_add]
  exact congrArg List.sum (List.map_congr_left fun r _ => by rw [h.forest.sum_iterator])

/-! ### What is worth something -/

/-- What an item is worth that is no container. -/
def worthOutside (it : Item) : ℕ := if it.cls = .container ∨ it.cls = .depotLocker then 0 else getWorth it

theorem worthOutside_item (x : Ref) :
    worthOutside (s.item x) = if s.isContainer x = false then getWorth (s.item x) else 0 := by
  unfold worthOutside isContainer
  by_cases hx : (s.item x).cls = .container ∨ (s.item x).cls = .depotLocker
  · simp [hx]
  · simp [hx]

theorem sum_coe {α M : Type*} [AddCommMonoid M] (f : α → M) (l : List α) :
    (l.map f).sum = ((l : Multiset α).map f).sum := by
  rw [Multiset.map_coe, Multiset.sum_coe]

theorem sum_lookThrough (h : Owned s p) :
    ((lookThrough s p).map fun x => getWorth (s.item x)).sum = ∑ x ∈ s.carried p, worthOutside (s.item x) := by
  rw [sum_coe, coe_lookThrough h]
  refine (Finset.sum_filter _ _).trans (Finset.sum_congr rfl fun x _ => ?_)
  rw [worthOutside_item]

theorem Holding.nodup_tile (h : Holding s p t) : (s.contents (.tile t)).Nodup := by
  obtain ⟨D, T, hshape⟩ := h.shape
  have hnodup : (T ++ D).Nodup := List.nodup_append_comm.1 hshape.nodup
  unfold contents
  dsimp only
  rw [hshape.downItems_eq, hshape.topItems_eq]
  cases hg : (s.mapTile t).tile.ground with
  | none => exact hnodup
  | some g =>
    refine List.nodup_cons.2 ⟨fun hmem => hshape.ground g hg ?_, hnodup⟩
    have hmem : g ∈ T ++ D := hmem
    rw [List.mem_append] at hmem ⊢
    exact hmem.symm

theorem sum_worthOutside : ∀ l : List Ref,
    ((l.filter fun x => !s.isContainer x).map fun x => getWorth (s.item x)).sum =
      (l.map fun x => worthOutside (s.item x)).sum
  | [] => rfl
  | x :: l => by
    rw [List.map_cons, List.sum_cons, worthOutside_item, ← sum_worthOutside l]
    cases hx : s.isContainer x with
    | true => rw [List.filter_cons_of_neg (by simp [hx]), if_neg (by simp), Nat.zero_add]
    | false => rw [List.filter_cons_of_pos (by simp [hx]), if_pos rfl, List.map_cons, List.sum_cons]

/-- The wealth is the worth of all that is the player's. -/
theorem wealth_eq (h : Holding s p (s.players p).tile) :
    wealth s p = s.total worthOutside p (s.players p).tile := by
  let tile := s.contents (.tile (s.players p).tile)
  have htile : ((tile.filter fun x => !s.isContainer x).map fun x => getWorth (s.item x)).sum =
      ∑ x ∈ tile.toFinset, worthOutside (s.item x) := by
    rw [List.sum_toFinset _ h.nodup_tile]
    exact sum_worthOutside tile
  have hdisjoint : Disjoint (s.carried p) tile.toFinset := by
    rw [Finset.disjoint_left]
    intro x hx hx'
    have hparent := h.parent x (List.mem_toFinset.1 hx')
    rcases h.owned.parent_of_mem hx with ⟨he, -⟩ | ⟨q, he, -⟩
    · exact nomatch hparent.symm.trans he
    · exact nomatch hparent.symm.trans he
  unfold wealth State.total State.holdings
  dsimp only
  rw [List.map_append, List.sum_append, sum_lookThrough h.owned, Finset.sum_union hdisjoint]
  exact congrArg _ htile

/-- Items without worth do not matter for the sum. -/
theorem sum_worths : ((worths s p).map fun entry => UInt64.ofNat entry.1).sum = Player.getMoney s p := by
  unfold worths Player.getMoney
  induction lookThrough s p with
  | nil => rfl
  | cons x l ih =>
    rw [List.map_cons, List.map_cons, List.sum_cons, ← ih]
    by_cases hx : getWorth (s.item x) = 0
    · rw [List.filter_cons_of_neg (by simp [hx]), hx]
      exact (UInt64.zero_add _).symm
    · rw [List.filter_cons_of_pos (by simp [hx]), List.map_cons, List.sum_cons]

/-- The sum in 64 bits is no more than it is. -/
theorem toNat_sum_worths_le : ∀ l : List (ℕ × Ref),
    (l.map fun entry => UInt64.ofNat entry.1).sum.toNat ≤ (l.map Prod.fst).sum
  | [] => le_rfl
  | entry :: l => by
    have ih := toNat_sum_worths_le l
    rw [List.map_cons, List.map_cons, List.sum_cons, List.sum_cons, UInt64.toNat_add, UInt64.toNat_ofNat']
    have hentry := Nat.mod_le entry.1 (2 ^ 64)
    have hsum := Nat.mod_le (entry.1 % 2 ^ 64 + (l.map fun entry => UInt64.ofNat entry.1).sum.toNat) (2 ^ 64)
    omega

end Looked

/-! ### Coins as stacks -/

section Coins

variable {items : UInt16 → ItemType} {it like : Item} {id : UInt16} {n : ℕ}

/-- The id of a coin. -/
def IsMoney (id : UInt16) : Prop := id = itemGoldCoin ∨ id = itemPlatinumCoin ∨ id = itemCrystalCoin

instance decidableIsMoney (id : UInt16) : Decidable (IsMoney id) := inferInstanceAs (Decidable (_ ∨ _))

theorem isCoin_of_isMoney (h : CoinTypes items) (hid : IsMoney id) : IsCoin items id := by
  rcases hid with rfl | rfl | rfl
  · exact h.gold
  · exact h.platinum
  · exact h.crystal

/-- Every coin of a stack is worth the same. -/
theorem worthOf_eq (id : UInt16) (n : ℕ) : worthOf id n = worthOf id 1 * n := by
  unfold worthOf
  split_ifs <;> omega

theorem worthOf_pos (hid : IsMoney id) : 0 < worthOf id 1 ∧ worthOf id 1 ≤ 10000 := by
  rcases hid with rfl | rfl | rfl <;> decide

/-- What is worth something is a stack of coins. -/
theorem isMoney_of_getWorth (h : getWorth it ≠ 0) : IsMoney it.id ∧ it.count ≠ 0 := by
  constructor
  · by_contra hid
    obtain ⟨hgold, hplatinum, hcrystal⟩ :
        it.id ≠ itemGoldCoin ∧ it.id ≠ itemPlatinumCoin ∧ it.id ≠ itemCrystalCoin := by
      simpa only [IsMoney, not_or] using hid
    unfold getWorth worthOf at h
    rw [if_neg hgold, if_neg hplatinum, if_neg hcrystal] at h
    exact h rfl
  · intro hcount
    unfold getWorth at h
    rw [worthOf_eq, hcount] at h
    exact h (Nat.mul_zero _)

theorem worthOutside_of_leaf (h : it.isContainer = false) : worthOutside it = worthOf it.id 1 * it.count := by
  unfold Item.isContainer at h
  rw [Bool.or_eq_false_iff] at h
  unfold worthOutside
  rw [if_neg (not_or.2 ⟨of_decide_eq_false h.1, of_decide_eq_false h.2⟩)]
  exact worthOf_eq ..

/-- A stack of coins with another count, in place. -/
theorem updated_coin (h : IsCoin items it.id) (hn : n < 256) :
    (updated items it it.id n).id = it.id ∧ (updated items it it.id n).count = n := by
  have hid : ((it.setID items it.id).id) = it.id := TileItems.State.setID_id it it.id
  unfold updated Item.setSubType
  rw [hid, if_neg (Bool.eq_false_iff.1 h.noFluid), if_pos h.stackable]
  refine ⟨hid, ?_⟩
  unfold Item.setItemCount
  dsimp only
  omega

/-- The worth counts coins. -/
theorem counts_worth (hc : CoinTypes items) (hlike : IsMoney like.id) (hleaf : like.isContainer = false) :
    Counts items worthOutside like (worthOf like.id 1) where
  piece n hn := by
    have hcount : (like.setItemCount n).count = n := Nat.mod_eq_of_lt (by omega)
    have hpiece : (like.setItemCount n).isContainer = false := hleaf
    rw [worthOutside_of_leaf hpiece, hcount]
    rfl
  merged it n hequals hleaf hn := by
    have hid : it.id = like.id := (Item.equals_iff.1 hequals).1
    obtain ⟨hid', hcount⟩ := updated_coin (n := it.count + n) (isCoin_of_isMoney hc (hid ▸ hlike)) (by omega)
    refine ⟨?_, hid', hcount⟩
    have hleaf' : (updated items it it.id (it.count + n)).isContainer = false := by
      unfold Item.isContainer
      rw [updated_cls]
      exact hleaf
    rw [worthOutside_of_leaf hleaf', worthOutside_of_leaf hleaf, hid', hcount, ← hid, Nat.mul_add]

end Coins

/-! ### Change -/

section Change

variable {cfg : Config} {s s' : State} {p : CreatureId} {t : Position} {flags : Flags} {coin : Item} {money : UInt64}

/-- A new coin: an ordinary item, in a stack of at most 100. -/
structure NewCoin (coin : Item) : Prop where
  id : IsMoney coin.id
  leaf : coin.isContainer = false
  count : coin.count ≤ 100

/-- Below the worth that crystal coins can have in 32 bits nothing is cut off. -/
theorem createsExactly_of_lt (hc : CoinTypes cfg.items) (h : money.toNat / 10000 * 10000 < 2 ^ 32) :
    CreatesExactly cfg.items money := by
  have hk : money.toNat / 10000 * 10000 / 2 ^ 32 = 0 := Nat.div_eq_of_lt h
  refine (createsExactly_iff_leftFits hc rfl).2 ⟨by omega, ?_⟩
  rw [hk]
  exact leftFits_zero (Nat.mod_lt _ (by decide))

theorem isMoney_of_mem_coinsOf : ∀ coin ∈ coinsOf money, IsMoney coin.1 := by
  intro coin h
  unfold coinsOf at h
  dsimp only at h
  rcases List.mem_append.1 h with h | h
  · obtain ⟨count, -, rfl⟩ := List.mem_map.1 h
    exact .inr (.inr rfl)
  rcases List.mem_append.1 h with h | h
  · obtain rfl := List.mem_singleton.1 (List.mem_ite_nil_right.1 h).2
    exact .inr (.inl rfl)
  · obtain rfl := List.mem_singleton.1 (List.mem_ite_nil_right.1 h).2
    exact .inl rfl

theorem newCoin_of_mem (hc : CoinTypes cfg.items) (hexact : CreatesExactly cfg.items money) :
    ∀ coin ∈ addedCoins cfg.items money, NewCoin coin := by
  intro coin hcoin
  have hcount := (hexact.count coin hcoin).2
  obtain ⟨⟨id, n⟩, hmem, hcreate⟩ := List.mem_filterMap.1 hcoin
  have hid : IsMoney id := isMoney_of_mem_coinsOf _ hmem
  have htype := isCoin_of_isMoney hc hid
  rw [Item.createItem_eq htype.buildable] at hcreate
  have hbuilt := Option.some.inj hcreate
  refine ⟨?_, ?_, hcount⟩
  · rw [← hbuilt, Item.built_id]
    exact hid
  · rw [← hbuilt]
    unfold Item.isContainer
    rw [Item.built_cls, htype.plain]
    decide

theorem getWorth_eq_mul (it : Item) : getWorth it = worthOf it.id 1 * it.count := worthOf_eq ..

/-- A new coin lies nowhere. -/
theorem loose_create (hplain : ∀ id, IsMoney id → Plain cfg.items id) (h : NewCoin coin) (s : State) :
    Loose cfg (s.create coin 0) s.next ∧ (s.create coin 0).item s.next = coin := by
  have hitem : (s.create coin 0).item s.next = coin := by rw [item_create, Function.update_self]
  refine ⟨⟨parent_create_self s coin 0, ?_, Nat.lt_succ_self _, ?_, ?_⟩, hitem⟩
  · rw [isContainer_eq, hitem]
    exact h.leaf
  · rw [hitem]
    exact hplain _ h.id
  · rw [hitem]
    exact h.count

/-- A coin that finds a place makes the player richer by its worth. -/
theorem FindsPlace.enriched (hfinds : FindsPlace cfg p flags s coin) (hc : CoinTypes cfg.items)
    (hplain : ∀ id, IsMoney id → Plain cfg.items id) (hcoin : NewCoin coin) (h : Holding s p t)
    (hsmall : Small IsMoney s p t) (hstands : (s.players p).tile = t) :
    ∃ s', addCoin cfg p flags s coin = some s' ∧ Enriched IsMoney worthOutside s s' p t (getWorth coin) := by
  obtain ⟨hloose, hitem⟩ := loose_create hplain hcoin s
  have hcreated : Enriched IsMoney worthOutside s (s.create coin 0) p t 0 := h.enriched_create hsmall coin 0
  have hall {c : Cylinder} {flags : Flags} {s' : State} (hc' : c = .player p ∨ c = .tile t)
      (hplaces : Places cfg c (s.create coin 0) s.next indexWhereever flags s') :
      Enriched IsMoney worthOutside s s' p t (getWorth coin) := by
    have hcounts := counts_worth hc hcoin.id hcoin.leaf
    have hid : IsMoney ((s.create coin 0).item s.next).id := by
      rw [hitem]
      exact hcoin.id
    rw [← hitem] at hcounts
    have hrest := hplaces.enriched hc' rfl hcreated.holding hcreated.small hloose hid hcounts
    rw [hitem, ← getWorth_eq_mul] at hrest
    have hsum := hcreated.trans hrest
    rwa [Nat.zero_add] at hsum
  unfold addCoin
  dsimp only
  rcases hfinds with ⟨s', hplaces⟩ | ⟨⟨ret, rem, s₁, hrefused, hret⟩, s', hplaces⟩
  · refine ⟨s', ?_, hall (.inl rfl) hplaces⟩
    rw [internalAddItem_of_places hplaces, Option.bind_some]
    exact if_neg (not_not_intro rfl)
  · refine ⟨s', ?_, hall (.inr (congrArg _ hstands)) hplaces⟩
    have hsame : s₁ = s.create coin 0 := by
      cases adds_of_internalAddItem hrefused <;> first | rfl | exact absurd rfl hret
    subst hsame
    have hadded := internalAddItem_of_places hplaces
    have htile : ((s.create coin 0).players p).tile = (s.players p).tile := rfl
    rw [hrefused, Option.bind_some, if_pos hret, htile, hadded]
    rfl

/-- So do the coins that are created for an amount. -/
theorem enriched_addMoney (hc : CoinTypes cfg.items) (hplain : ∀ id, IsMoney id → Plain cfg.items id) :
    ∀ {coins : List Item} {s : State}, (∀ coin ∈ coins, NewCoin coin) → Holding s p t → Small IsMoney s p t →
      (s.players p).tile = t → AllFindPlaces cfg p flags s coins →
        ∃ s', coins.foldlM (addCoin cfg p flags) s = some s' ∧
          Enriched IsMoney worthOutside s s' p t (coins.map getWorth).sum
  | [], s, _, h, hsmall, _, _ =>
    ⟨s, rfl, ⟨h, Finset.Subset.refl _, Finset.Subset.refl _, fun _ _ => ⟨rfl, rfl, le_rfl⟩, hsmall, rfl, rfl⟩⟩
  | coin :: coins, s, hcoins, h, hsmall, hstands, hfinds => by
    obtain ⟨s₁, hs₁, hone⟩ := hfinds.1.enriched hc hplain (hcoins coin List.mem_cons_self) h hsmall hstands
    obtain ⟨s', hs', hrest⟩ := enriched_addMoney hc hplain (fun x hx => hcoins x (List.mem_cons_of_mem _ hx))
      hone.holding hone.small (hone.stands.trans hstands) (hfinds.2 s₁ hs₁)
    refine ⟨s', ?_, ?_⟩
    · rw [List.foldlM_cons, hs₁]
      exact hs'
    · rw [List.map_cons, List.sum_cons]
      exact hone.trans hrest

end Change

/-! ### What is paid -/

section Paid

variable {cfg : Config} {canRemove : Ref → Bool} {s s₁ s' : State} {p : CreatureId} {t : Position} {r x : Ref}
  {c : Cylinder} {count : ℤ} {a b n : ℕ}

/-- The player is poorer by an amount. -/
structure Poorer (s s' : State) (p : CreatureId) (t : Position) (a : ℕ) : Prop where
  holding : Holding s' p t
  small : Small IsMoney s' p t
  total : s'.total worthOutside p t + a = s.total worthOutside p t
  stands : (s'.players p).tile = (s.players p).tile

theorem Poorer.trans (h : Poorer s s₁ p t a) (h' : Poorer s₁ s' p t b) : Poorer s s' p t (a + b) where
  holding := h'.holding
  small := h'.small
  total := by rw [← h.total, ← h'.total, Nat.add_assoc, Nat.add_comm a]
  stands := h'.stands.trans h.stands

/-- A stack of coins that is carried and can be taken away, with what it is worth. -/
structure Payable (canRemove : Ref → Bool) (s : State) (p : CreatureId) (entry : ℕ × Ref) : Prop where
  carried : entry.2 ∈ s.carried p
  leaf : s.isContainer entry.2 = false
  worth : entry.1 = getWorth (s.item entry.2)
  pos : entry.1 ≠ 0
  canRemove : canRemove entry.2 = true

/-- The whole of a stack is taken. -/
theorem Holding.removed_whole (h : Holding s p t) (hr : r ∈ s.carried p) (hleaf : s.isContainer r = false)
    (hc : s.parent r = some c) (hbare : s'.bare = (s.detach r c).bare) :
    Holding s' p t ∧ s'.carried p = (s.carried p).erase r ∧ s'.holdings p t = (s.holdings p t).erase r ∧
      s'.item = s.item ∧ (s'.players p).tile = (s.players p).tile := by
  obtain ⟨howned, -, -⟩ := h.owned.detach hr hc
  have hspares : Spares (fun x => x ≠ r) s (s.detach r c) := Spares.detach h.owned hr hc (by simp)
  have hcarried := h.owned.carried_detach hr hc hleaf
  have hne {x : Ref} (hx : x ∈ s.contents (.tile t)) : x ≠ r := by
    rintro rfl
    have hparent := h.parent x hx
    rcases h.owned.parent_of_mem hr with ⟨he, -⟩ | ⟨q, he, -⟩
    · exact nomatch hparent.symm.trans he
    · exact nomatch hparent.symm.trans he
  have htile : (s.detach r c).mapTile t = s.mapTile t ∧ ((s.detach r c).players p).tile = (s.players p).tile := by
    unfold State.detach
    split
    · exact ⟨rfl, rfl⟩
    · split
      · exact ⟨rfl, tile_setSlot p _⟩
      · exact ⟨rfl, rfl⟩
    · exact ⟨rfl, rfl⟩
  have hcontents := contents_tile_congr htile.1
  have hdetached : Holding (s.detach r c) p t := by
    refine ⟨howned, ?_, fun x hx => ?_, fun x hx => ?_⟩
    · rw [htile.1]
      exact h.shape
    · rw [hcontents] at hx
      rw [hspares.parent x (by simpa using hne hx)]
      exact h.parent x hx
    · rw [hcontents] at hx
      rw [next_detach]
      exact h.lt x hx
  have hout : r ∉ (s.contents (.tile t)).toFinset := fun hmem => hne (List.mem_toFinset.1 hmem) rfl
  refine ⟨hdetached.of_bare hbare, (Holding.carried_of_bare hbare).trans hcarried, ?_,
    (congr_bare (f := State.item) item_bare hbare).trans (s.item_detach r c), (stands_of_bare hbare).trans htile.2⟩
  rw [Holding.holdings_of_bare hbare]
  unfold State.holdings
  rw [hcarried, hcontents, Finset.erase_union_distrib, Finset.erase_eq_of_notMem hout]

variable (cfg) in
/-- A payment of a whole stack. -/
theorem Holding.poorer_whole (h : Holding s p t) (hsmall : Small IsMoney s p t) {entry : ℕ × Ref}
    (hr : Payable canRemove s p entry)
    (hn : (if count = -1 then (s.item entry.2).count else uint 4 count) = (s.item entry.2).count) :
    let s' := (internalRemoveItem cfg canRemove s entry.2 count).2
    Poorer s s' p t entry.1 ∧ ∀ entry', entry'.2 ≠ entry.2 → Payable canRemove s p entry' →
      Payable canRemove s' p entry' := by
  intro s'
  obtain ⟨c, hc⟩ := h.owned.exists_parent hr.carried
  have hcount := (isMoney_of_getWorth (hr.worth ▸ hr.pos)).2
  have hbare : s'.bare = (s.detach entry.2 c).bare :=
    bare_internalRemoveItem_whole h.owned hr.carried hc hr.canRemove hn hcount
  obtain ⟨hholding, hcarried, hholdings, hitem, hstands⟩ := h.removed_whole hr.carried hr.leaf hc hbare
  have hmem : entry.2 ∈ s.holdings p t := mem_holdings.2 (.inl hr.carried)
  have hworth : worthOutside (s.item entry.2) = entry.1 := by
    rw [worthOutside_item, if_pos hr.leaf, hr.worth]
  refine ⟨⟨hholding, fun x hx => ?_, ?_, hstands⟩, fun entry' hne hr' => ⟨?_, ?_, ?_, hr'.pos, hr'.canRemove⟩⟩
  · rw [hholdings] at hx
    rw [hitem]
    exact hsmall x (Finset.mem_of_mem_erase hx)
  · unfold State.total
    rw [hholdings, hitem, ← hworth, Finset.sum_erase_add _ _ hmem]
  · rw [hcarried]
    exact Finset.mem_erase.2 ⟨hne, hr'.carried⟩
  · rw [isContainer_congr hitem]
    exact hr'.leaf
  · rw [hitem]
    exact hr'.worth

variable (cfg) in
/-- A payment of some coins of a stack. -/
theorem Holding.poorer_part (hc : CoinTypes cfg.items) (h : Holding s p t) (hsmall : Small IsMoney s p t)
    {entry : ℕ × Ref} (hr : Payable canRemove s p entry) (hpos : 1 ≤ n) (hle : n ≤ (s.item entry.2).count) :
    Poorer s (internalRemoveItem cfg canRemove s entry.2 n).2 p t (worthOf (s.item entry.2).id 1 * n) := by
  have hmoney := isMoney_of_getWorth (hr.worth ▸ hr.pos)
  have hmem : entry.2 ∈ s.holdings p t := mem_holdings.2 (.inl hr.carried)
  obtain ⟨hcount, hleaf⟩ := hsmall entry.2 hmem hmoney.1
  by_cases hn : n = (s.item entry.2).count
  · have hwhole : (if (n : ℤ) = -1 then (s.item entry.2).count else uint 4 n) = (s.item entry.2).count := by
      rw [if_neg (by omega), ← hn]
      unfold uint
      omega
    have hpaid := (h.poorer_whole cfg hsmall hr hwhole).1
    rwa [hr.worth, getWorth_eq_mul, ← hn] at hpaid
  · have hlt : n < (s.item entry.2).count := lt_of_le_of_ne hle hn
    have hbare := bare_internalRemoveItem_part cfg h.owned hr.carried hr.canRemove
      (isCoin_of_isMoney hc hmoney.1).stackable (by omega) (by omega) hlt
    generalize hit : (s.item entry.2).setItemCount ((s.item entry.2).count - n) = it at hbare
    have hcount' : it.count = (s.item entry.2).count - n := by
      rw [← hit]
      exact Nat.mod_eq_of_lt (by omega)
    have hid : it.id = (s.item entry.2).id := hit ▸ rfl
    have hcls : it.cls = (s.item entry.2).cls := hit ▸ rfl
    have hleaf' : it.isContainer = false := hit ▸ hleaf
    have hchanged : Changed s _ p t entry.2 it :=
      Changed.of_bare (h.changed_of_things hcls rfl rfl rfl rfl) hbare
    refine ⟨hchanged.holding, hchanged.small hmem hsmall hid hcls (by omega), ?_, hchanged.stands⟩
    have htotal := hchanged.total hmem worthOutside
    rw [worthOutside_of_leaf hleaf, worthOutside_of_leaf hleaf', hid, hcount'] at htotal
    have hmul : worthOf (s.item entry.2).id 1 * (s.item entry.2).count =
        worthOf (s.item entry.2).id 1 * ((s.item entry.2).count - n) + worthOf (s.item entry.2).id 1 * n := by
      rw [← Nat.mul_add, Nat.sub_add_cancel hle]
    omega

/-- A stack of which a part pays the rest, with the change. -/
structure PaidInPart (canRemove : Ref → Bool) (s : State) (p : CreatureId) (item : Ref) (n : ℕ) (change : UInt64)
    (rest : ℕ) : Prop where
  payable : ∃ first, Payable canRemove s p (first, item)
  pos : 1 ≤ n
  le : n ≤ (s.item item).count
  given : change.toNat + rest = worthOf (s.item item).id 1 * n
  small : change.toNat ≤ 10000

theorem uint_four {n : ℕ} (h : n < 2 ^ 32) : uint 4 n = n := by
  unfold uint
  omega

/-- The coins that pay the rest, and the change for one of them. -/
theorem paidInPart {first : ℕ} {item : Ref} {money : UInt64} (hr : Payable canRemove s p (first, item))
    (hcount : (s.item item).count ≤ 100) (hlt : money.toNat < first) :
    let worth := first / (s.item item).count
    let removeCount := uint 4 (money.toNat / worth + 1 : ℕ)
    PaidInPart canRemove s p item removeCount (.ofNat (uint 4 (worth * removeCount : ℕ)) - money) money.toNat := by
  intro worth removeCount
  obtain ⟨hmoney, hne⟩ := isMoney_of_getWorth (hr.worth ▸ hr.pos)
  obtain ⟨hpos, hunit⟩ := worthOf_pos hmoney
  have hfirst : first = worthOf (s.item item).id 1 * (s.item item).count := hr.worth.trans (getWorth_eq_mul _)
  generalize hu : worthOf (s.item item).id 1 = u at hpos hunit hfirst
  generalize hk : (s.item item).count = k at hcount hne hfirst
  have hworth : worth = u := by
    unfold worth
    rw [hk, hfirst, Nat.mul_div_cancel _ (Nat.pos_of_ne_zero hne)]
  -- so many coins are the fewest that are enough
  have hdiv : money.toNat / u < k := by
    rw [Nat.div_lt_iff_lt_mul hpos, Nat.mul_comm, ← hfirst]
    exact hlt
  have hremove : removeCount = money.toNat / u + 1 := by
    unfold removeCount
    rw [hworth]
    exact uint_four (by omega)
  clear_value worth removeCount
  have hdivmod := Nat.div_add_mod money.toNat u
  have hmod := Nat.mod_lt money.toNat hpos
  have hproduct : u * removeCount = u * (money.toNat / u) + u := by rw [hremove, Nat.mul_add, Nat.mul_one]
  have hle : u * removeCount ≤ first := by
    rw [hfirst]
    exact Nat.mul_le_mul_left u (hremove ▸ hdiv)
  have hbound : first ≤ 10000 * 100 := by
    rw [hfirst]
    exact Nat.mul_le_mul hunit hcount
  have hwhole : (UInt64.ofNat (uint 4 (worth * removeCount : ℕ))).toNat = u * removeCount := by
    rw [hworth, uint_four (by omega)]
    exact UInt64.toNat_ofNat_of_lt' (by unfold UInt64.size; omega)
  have hchange : (UInt64.ofNat (uint 4 (worth * removeCount : ℕ)) - money).toNat = u * removeCount - money.toNat := by
    rw [UInt64.toNat_sub_of_le _ _ (UInt64.le_iff_toNat_le.2 (by omega)), hwhole]
  refine ⟨⟨first, hr⟩, ?_, ?_, ?_, ?_⟩
  · rw [hremove]
    exact Nat.le_add_left 1 _
  · rw [hk, hremove]
    exact hdiv
  · rw [hu]
    omega
  · omega

variable (cfg) in
/-- The loop pays with whole stacks, to the end or up to one of which a part is enough. -/
theorem takeStacks_poorer : ∀ {l : List (ℕ × Ref)} {s : State} {money : UInt64}, Holding s p t → Small IsMoney s p t →
    (∀ entry ∈ l, Payable canRemove s p entry) → (l.map Prod.snd).Nodup → money.toNat ≤ (l.map Prod.fst).sum →
      money ≠ 0 → ∃ rest paid, rest + paid = money.toNat ∧ Poorer s (takeStacks cfg canRemove s money l).1 p t paid ∧
        ((takeStacks cfg canRemove s money l).2 = none ∧ rest = 0 ∨
          ∃ item n change, (takeStacks cfg canRemove s money l).2 = some (item, n, change) ∧
            PaidInPart canRemove (takeStacks cfg canRemove s money l).1 p item n change rest)
  | [], _, money, _, _, _, _, hle, hne => by
    refine absurd ?_ hne
    rw [← UInt64.toNat_inj]
    exact Nat.le_zero.1 hle
  | (first, item) :: l, s, money, h, hsmall, hl, hnodup, hle, hne => by
    have hr := hl (first, item) List.mem_cons_self
    obtain ⟨hnot, hnodup⟩ := List.nodup_cons.1 hnodup
    have hmem : item ∈ s.holdings p t := mem_holdings.2 (.inl hr.carried)
    have hcount := (hsmall item hmem (isMoney_of_getWorth (hr.worth ▸ hr.pos)).1).1
    obtain ⟨hpaid, hkept⟩ := h.poorer_whole cfg hsmall hr (if_pos rfl)
    unfold takeStacks
    by_cases hlt : first < money.toNat
    · rw [if_pos hlt]
      have hfirst : (UInt64.ofNat first).toNat = first := UInt64.toNat_ofNat_of_lt' (hlt.trans money.toNat_lt)
      have hsub : (money - .ofNat first).toNat = money.toNat - first := by
        rw [UInt64.toNat_sub_of_le _ _ (UInt64.le_iff_toNat_le.2 (by omega)), hfirst]
      have hne' : money - .ofNat first ≠ 0 := by
        intro he
        rw [he] at hsub
        exact absurd hsub.symm (by simp; omega)
      rw [List.map_cons, List.sum_cons] at hle
      obtain ⟨rest, paid, hsum, hrest, hend⟩ := takeStacks_poorer hpaid.holding hpaid.small (fun entry hentry =>
        hkept entry (fun he => hnot (he ▸ List.mem_map_of_mem hentry)) (hl entry (List.mem_cons_of_mem _ hentry)))
        hnodup (by omega) hne'
      exact ⟨rest, first + paid, by omega, hpaid.trans hrest, hend⟩
    · rw [if_neg hlt]
      by_cases hgt : money.toNat < first
      · rw [if_pos hgt]
        exact ⟨money.toNat, 0, by omega, ⟨h, hsmall, rfl, rfl⟩, .inr ⟨_, _, _, rfl, paidInPart hr hcount hgt⟩⟩
      · rw [if_neg hgt]
        have hpaid' : Poorer s (internalRemoveItem cfg canRemove s item (-1)).2 p t money.toNat := by
          obtain rfl : first = money.toNat := by omega
          exact hpaid
        exact ⟨0, money.toNat, by omega, hpaid', .inl ⟨rfl, rfl⟩⟩

end Paid

/-! ### Payment is exact -/

section Exact

variable {cfg : Config} {canRemove : Ref → Bool} {s s₁ s' : State} {p : CreatureId} {t : Position} {item : Ref}
  {money change : UInt64} {flags : Flags} {rest n : ℕ}

theorem mem_lookThrough (h : Owned s p) {x : Ref} :
    x ∈ lookThrough s p ↔ x ∈ s.carried p ∧ s.isContainer x = false := by
  rw [← Multiset.mem_coe, coe_lookThrough h, Finset.mem_val, Finset.mem_filter]

/-- The stacks that a payment goes through. -/
theorem payable_of_mem (h : Owned s p) (hremove : ∀ x ∈ lookThrough s p, IsMoney (s.item x).id → canRemove x = true) :
    (∀ entry ∈ moneyMap s p, Payable canRemove s p entry) ∧ ((moneyMap s p).map Prod.snd).Nodup := by
  have hperm : (moneyMap s p).Perm (worths s p) := List.mergeSort_perm ..
  have hentry {entry : ℕ × Ref} (hentry : entry ∈ worths s p) :
      entry.2 ∈ lookThrough s p ∧ entry.1 = getWorth (s.item entry.2) ∧ entry.1 ≠ 0 := by
    obtain ⟨hmem, hpos⟩ := List.mem_filter.1 hentry
    obtain ⟨x, hx, rfl⟩ := List.mem_map.1 hmem
    exact ⟨hx, rfl, by simpa using hpos⟩
  constructor
  · intro entry hmem
    obtain ⟨hlook, hworth, hpos⟩ := hentry (hperm.mem_iff.1 hmem)
    obtain ⟨hcarried, hleaf⟩ := (mem_lookThrough h).1 hlook
    exact ⟨hcarried, hleaf, hworth, hpos, hremove _ hlook (isMoney_of_getWorth (hworth ▸ hpos)).1⟩
  · have hnodup : (lookThrough s p).Nodup := by
      rw [← Multiset.coe_nodup, coe_lookThrough h]
      exact Finset.nodup _
    have hsub : ((worths s p).map Prod.snd).Sublist (lookThrough s p) := by
      have hmap : ((lookThrough s p).map fun item => (getWorth (s.item item), item)).map Prod.snd =
          lookThrough s p := by
        rw [List.map_map]
        exact List.map_id _
      exact hmap ▸ List.filter_sublist.map Prod.snd
    exact ((hperm.map Prod.snd).nodup_iff).2 (hnodup.sublist hsub)

/-- The last stack, once the change has been added. -/
theorem PaidInPart.payable_after {a : ℕ} (h : PaidInPart canRemove s p item n change rest)
    (hadded : Enriched IsMoney worthOutside s s' p t a) :
    Payable canRemove s' p (getWorth (s'.item item), item) ∧ n ≤ (s'.item item).count ∧
      (s'.item item).id = (s.item item).id := by
  obtain ⟨first, hr⟩ := h.payable
  have hmoney := (isMoney_of_getWorth (hr.worth ▸ hr.pos)).1
  obtain ⟨hid, hcls, hle⟩ := hadded.kept item (mem_holdings.2 (.inl hr.carried))
  have hn : n ≤ (s'.item item).count := h.le.trans hle
  refine ⟨⟨hadded.carried hr.carried, ?_, rfl, ?_, hr.canRemove⟩, hn, hid⟩
  · have hleaf : s.isContainer item = false := hr.leaf
    unfold isContainer at hleaf ⊢
    rw [hcls]
    exact hleaf
  · have hunit := (worthOf_pos (hid ▸ hmoney : IsMoney (s'.item item).id)).1
    have hpos := h.pos
    rw [getWorth_eq_mul]
    exact (Nat.mul_pos hunit (by omega)).ne'

/-- `removeMoney` pays exactly, if the change coins find their places. -/
theorem removeMoney_paysExactly (h : s.Wf cfg.items) (hc : CoinTypes cfg.items)
    (hplain : ∀ id, IsMoney id → Plain cfg.items id)
    (hcount : ∀ x ∈ lookThrough s p ++ s.contents (.tile (s.players p).tile), IsMoney (s.item x).id →
      (s.item x).count ≤ 100)
    (hremove : ∀ x ∈ lookThrough s p, IsMoney (s.item x).id → canRemove x = true)
    (hchange : ChangeFindsPlaces cfg canRemove s p money flags) :
    ∃ result, removeMoney cfg canRemove s p money flags = some result ∧ PaysExactly s p money result := by
  have hs : Holding s p (s.players p).tile := h.holding p _
  have hsmall : Small IsMoney s p (s.players p).tile := by
    intro x hx hid
    have hcyl := h.plain x (isCoin_of_isMoney hc hid).stackable
    have hleaf : s.isContainer x = false := by
      by_contra hcont
      unfold asCylinder at hcyl
      rw [if_pos (by simpa using hcont)] at hcyl
      exact nomatch hcyl
    refine ⟨hcount x ?_ hid, s.isContainer_eq x ▸ hleaf⟩
    rcases mem_holdings.1 hx with hx | hx
    · exact List.mem_append_left _ ((mem_lookThrough hs.owned).2 ⟨hx, hleaf⟩)
    · exact List.mem_append_right _ hx
  have hwealth {s' : State} {a : ℕ} (hpoorer : Poorer s s' p (s.players p).tile a) : wealth s' p + a = wealth s p := by
    have hs' : Holding s' p (s'.players p).tile := hpoorer.stands ▸ hpoorer.holding
    rw [wealth_eq hs, wealth_eq hs', hpoorer.stands]
    exact hpoorer.total
  unfold removeMoney
  by_cases hzero : money = 0
  · rw [if_pos hzero]
    refine ⟨_, rfl, iff_of_true rfl (hzero ▸ UInt64.zero_le), fun _ => ?_, fun e => nomatch e⟩
    rw [hzero]
    rfl
  rw [if_neg hzero, sum_worths]
  by_cases hless : Player.getMoney s p < money
  · rw [if_pos hless]
    exact ⟨_, rfl, iff_of_false Bool.false_ne_true (UInt64.not_le.2 hless), fun e => (nomatch e), fun _ => rfl⟩
  rw [if_neg hless]
  have henough : money ≤ Player.getMoney s p := UInt64.not_lt.1 hless
  obtain ⟨hpayable, hnodup⟩ := payable_of_mem hs.owned hremove
  have hle : money.toNat ≤ ((moneyMap s p).map Prod.fst).sum := by
    have hperm : (moneyMap s p).Perm (worths s p) := List.mergeSort_perm ..
    rw [(hperm.map Prod.fst).sum_eq]
    rw [← sum_worths] at henough
    exact (UInt64.le_iff_toNat_le.1 henough).trans (toNat_sum_worths_le _)
  obtain ⟨rest, paid, hsum, hpoorer, hend⟩ :=
    takeStacks_poorer cfg hs hsmall hpayable hnodup hle hzero
  generalize htake : takeStacks cfg canRemove s money (moneyMap s p) = taken at hpoorer hend
  obtain ⟨s₁, left⟩ := taken
  dsimp only at hpoorer hend
  rcases hend with ⟨hnone, hrest⟩ | ⟨item, n, change, hsome, hpart⟩
  · obtain rfl : left = none := hnone
    refine ⟨_, rfl, iff_of_true rfl henough, fun _ => ?_, fun e => nomatch e⟩
    have hpaid := hwealth hpoorer
    dsimp only
    omega
  · obtain rfl : left = some (item, n, change) := hsome
    have hsmallChange := hpart.small
    have hexact : CreatesExactly cfg.items change := createsExactly_of_lt hc (by omega)
    obtain ⟨s₂, hs₂, hadded⟩ := enriched_addMoney hc hplain (newCoin_of_mem hc hexact) hpoorer.holding hpoorer.small
      hpoorer.stands (hchange s₁ item n change htake)
    obtain ⟨hitem, hn, hid⟩ := hpart.payable_after hadded
    have hlast := hadded.holding.poorer_part cfg hc hadded.small hitem hpart.pos hn
    dsimp only
    unfold addMoney
    rw [hs₂]
    refine ⟨_, rfl, iff_of_true rfl henough, fun _ => ?_, fun e => nomatch e⟩
    have hgiven := hpart.given
    have htotal := hadded.total
    rw [hexact.worth] at htotal
    have hall : Poorer s (internalRemoveItem cfg canRemove s₂ item n).2 p (s.players p).tile money.toNat := by
      refine ⟨hlast.holding, hlast.small, ?_, hlast.stands.trans (hadded.stands.trans hpoorer.stands)⟩
      have hbefore := hpoorer.total
      have hafter := hlast.total
      rw [hid] at hafter
      dsimp only at hafter
      omega
    exact hwealth hall

/-- Bags and coins. -/
def purseTypes (id : UInt16) : ItemType :=
  { id, group := if id = 1 then .container else .none, stackable := id ≠ 1, pickupable := true, moveable := true }

def purseConfig : Config := { items := purseTypes, classicEquipmentSlots := false }

/-- A player has a bag with three platinum coins. -/
def purse : State where
  things
    | 0 => { item := ⟨.container, 1, 1, none, (0, 0, 0), 0, 0, 0⟩, parent := some (.player 0), maxSize := 8,
             itemlist := [1] }
    | 1 => { item := ⟨.item, 2152, 3, none, (0, 0, 0), 0, 0, 0⟩, parent := some (.container 0) }
    | _ => { item := ⟨.item, 0, 1, none, (0, 0, 0), 0, 0, 0⟩ }
  players
    | 0 => { inventory := fun i => if i = 3 then some 0 else none, tile := ⟨0, 0, 7⟩, hasInfiniteCapacity := true }
    | _ => { tile := ⟨0, 0, 7⟩ }
  next := 2

theorem purse_wf : purse.Wf purseTypes := by
  apply Wf.of_placed (fun r => if r = 0 then 0 else 1) [.player 0, .container 0]
  · intro c hc
    simp only [List.mem_cons, List.not_mem_nil, or_false, not_or] at hc
    cases c with
    | container q =>
      match q, hc.2 with
      | 0, hq => exact absurd rfl hq
      | 1, _ | _ + 2, _ => rfl
    | player p =>
      match p, hc.1 with
      | 0, hp => exact absurd rfl hp
      | _ + 1, _ => rfl
    | tile t => rfl
    | device r => rfl
  · decide
  · exact fun t => ⟨[], [], rfl, by decide, fun g hg => (nomatch hg), fun l hl => (nomatch hl), by decide⟩
  · decide
  · intro r hr
    match r, hr with
    | 0, hr | 1, hr => exact absurd hr (by decide)
    | n + 2, _ => exact ⟨rfl, rfl⟩

theorem coinTypes_purse : CoinTypes purseTypes := by
  have h {id : UInt16} (h1 : id ≠ 1) (h0 : id ≠ 0) (hid : ¬ Item.Rewritten id) : IsCoin purseTypes id :=
    ⟨⟨⟨by simp [purseTypes, h1], h0⟩, fun _ => hid⟩, by simp [purseTypes, h1, Item.classOf, ItemType.isDepot,
      ItemType.isContainer, ItemType.isTeleport, ItemType.isMagicField, ItemType.isDoor, ItemType.isTrashHolder,
      ItemType.isMailbox, ItemType.isBed], by simp [purseTypes, h1],
      by simp [purseTypes, h1, ItemType.isFluidContainer, ItemType.isSplash]⟩
  exact ⟨h (by decide) (by decide) (by decide), h (by decide) (by decide) (by decide),
    h (by decide) (by decide) (by decide)⟩

theorem moneyMap_purse : moneyMap purse 0 = [(300, 1)] := by
  have hworths : worths purse 0 = [(300, 1)] := rfl
  unfold moneyMap
  rw [hworths]
  exact List.mergeSort_singleton _

/-- Two hundred are paid: a platinum coin is given back, and three are taken. -/
theorem takeStacks_purse :
    takeStacks purseConfig (fun _ => true) purse 200 [(300, 1)] = (purse, some (1, 3, 100)) := rfl

theorem addedCoins_hundred : addedCoins purseTypes 100 = [⟨.item, 2152, 1, none, (0, 0, 0), 0, 0, 0⟩] := by
  unfold addedCoins coinsOf crystalStacks
  rfl

/-- The coin that is given back goes on the stack that it is taken from. -/
theorem findsPlace_purse :
    FindsPlace purseConfig 0 {} purse ⟨.item, 2152, 1, none, (0, 0, 0), 0, 0, 0⟩ := by
  refine .inl ⟨_, .merged (d := ⟨.container 0, 0, some 1, {}⟩) (x := 1) (m := 1) (n := 1) ⟨⟨rfl, ?_, ?_⟩, ?_⟩
    ?_ ?_ ?_ le_rfl trivial⟩
  · decide
  · decide
  · exact fun t e => nomatch e
  · decide
  · decide
  · decide

theorem removeMoney_paysExactly_purse : ∃ result,
    removeMoney purseConfig (fun _ => true) purse 0 200 {} = some result ∧ PaysExactly purse 0 200 result := by
  refine removeMoney_paysExactly purse_wf coinTypes_purse ?_ ?_ (fun _ _ _ => rfl) ?_
  · rintro id (rfl | rfl | rfl) <;> exact ⟨by decide, by decide, by decide⟩
  · decide
  · intro s' item n change htake
    rw [moneyMap_purse, takeStacks_purse] at htake
    cases htake
    have hcoins : addedCoins purseConfig.items 100 = _ := addedCoins_hundred
    rw [hcoins]
    exact ⟨findsPlace_purse, fun _ _ => trivial⟩

end Exact

end Inventory
end ForgottenServer
