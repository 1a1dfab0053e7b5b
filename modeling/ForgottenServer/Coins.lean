/-
# The coins of an amount

`Game::addMoney` splits an amount into stacks of crystal, platinum and gold
coins and creates them one after the other. The number of crystal coins has 32
bits, and so has what they are worth; the other two counts have 16 bits, and the
count of an item has 8. Up to 4294969999 gold nothing is cut off. Above that the product
loses multiples of 2^32, and the coins come out right only where that makes up whole
stacks of platinum coins and a few gold coins remain.

Key definitions: `getWorth`, `coinsOf`, `addedCoins`, `CreatesExactly`, `LeftFits`.
Key theorems: `createsExactly_iff_leftFits`, `leftFits_iff`, `createsExactly_iff`.
-/
import ForgottenServer.Item

namespace ForgottenServer
namespace Money

open Item (createItem classOf Buildable createItem_eq built built_id construct setDefaultDuration_count)

def itemGoldCoin : UInt16 := 2148
def itemPlatinumCoin : UInt16 := 2152
def itemCrystalCoin : UInt16 := 2160

/-- `Item::getWorth`, of an item by its id and count. -/
def worthOf (id : UInt16) (count : ℕ) : ℕ :=
  if id = itemGoldCoin then count
  else if id = itemPlatinumCoin then count * 100
  else if id = itemCrystalCoin then count * 10000
  else 0

def getWorth (it : Item) : ℕ := worthOf it.id it.count

/-- The counts of the stacks in the loop over the crystal coins. -/
def crystalStacks (crystalCoins : ℕ) : List ℕ :=
  if crystalCoins = 0 then []
  else min 100 crystalCoins :: crystalStacks (crystalCoins - min 100 crystalCoins)
termination_by crystalCoins
decreasing_by omega

/-- The types and counts that `addMoney` calls `Item::CreateItem` with. -/
def coinsOf (money : UInt64) : List (UInt16 × ℕ) :=
  let crystalCoins := (money / 10000).toUInt32
  let money := money - (crystalCoins * 10000).toUInt64
  let platinumCoins := (money / 100).toUInt16
  let platinum := if platinumCoins ≠ 0 then [(itemPlatinumCoin, platinumCoins.toNat)] else []
  let money := if platinumCoins ≠ 0 then money - platinumCoins.toUInt64 * 100 else money
  let gold := if money ≠ 0 then [(itemGoldCoin, money.toUInt16.toNat)] else []
  (crystalStacks crystalCoins.toNat).map (fun count => (itemCrystalCoin, count)) ++ (platinum ++ gold)

section Types

variable (items : UInt16 → ItemType)

/-- The coins that are created for an amount. -/
def addedCoins (money : UInt64) : List Item :=
  (coinsOf money).filterMap fun coin => createItem items coin.1 coin.2

/-- A type of ordinary items in stacks. -/
structure IsCoin (id : UInt16) : Prop where
  buildable : Buildable items id
  plain : classOf (items id) = .item
  stackable : (items id).stackable = true
  noFluid : ((items id).isFluidContainer || (items id).isSplash) = false

/-- The three types of coins are such. -/
structure CoinTypes : Prop where
  gold : IsCoin items itemGoldCoin
  platinum : IsCoin items itemPlatinumCoin
  crystal : IsCoin items itemCrystalCoin

/-- The coins are worth the amount, in stacks of 1 to 100. -/
structure CreatesExactly (money : UInt64) : Prop where
  worth : ((addedCoins items money).map getWorth).sum = money.toNat
  count : ∀ coin ∈ addedCoins items money, 1 ≤ coin.count ∧ coin.count ≤ 100

end Types

/-- The count of a stack that is created with a count of 16 bits. -/
def stackCount (n : ℕ) : ℕ := if n = 0 then 1 else n % 256

/-- The platinum and gold coins for the rest of an amount, when `k * 2 ^ 32` is
left over besides, have counts in range and are worth the rest. -/
def LeftFits (rest k : ℕ) : Prop :=
  let left := rest + k * 2 ^ 32
  let platinumCoins := left / 100 % 2 ^ 16
  let money := left - 100 * platinumCoins
  let platinum := stackCount platinumCoins
  let gold := stackCount (money % 2 ^ 16)
  ((platinumCoins ≠ 0 → 1 ≤ platinum ∧ platinum ≤ 100) ∧ (money ≠ 0 → 1 ≤ gold ∧ gold ≤ 100)) ∧
    100 * (if platinumCoins = 0 then 0 else platinum) + (if money = 0 then 0 else gold) = rest

instance decidableLeftFits (rest k : ℕ) : Decidable (LeftFits rest k) := inferInstanceAs (Decidable (_ ∧ _))

/-! ### The stacks that are created -/

section Created

variable {items : UInt16 → ItemType} {id : UInt16}

theorem createItem_coin (h : IsCoin items id) (n : ℕ) :
    ∃ coin, createItem items id n = some coin ∧ coin.id = id ∧ coin.count = stackCount n := by
  refine ⟨_, createItem_eq h.buildable n, built_id items, ?_⟩
  have hne : (if (items id).stackable && decide (n = 0) then 1 else n) ≠ 0 := by
    rw [h.stackable]
    split
    · decide
    · next hn => simpa using hn
  unfold built construct stackCount
  rw [if_pos h.plain, setDefaultDuration_count, if_neg (Bool.eq_false_iff.1 h.noFluid), if_pos h.stackable,
    if_pos hne, h.stackable]
  by_cases hn : n = 0
  · simp [hn, Item.setItemCount]
  · simp [hn, Item.setItemCount]

theorem crystalStacks_count : ∀ n, ∀ count ∈ crystalStacks n, 1 ≤ count ∧ count ≤ 100 := by
  intro n
  induction n using crystalStacks.induct with
  | case1 =>
    unfold crystalStacks
    exact fun count h => nomatch h
  | case2 n hn ih =>
    unfold crystalStacks
    rw [if_neg hn]
    intro count h
    rcases List.mem_cons.1 h with rfl | h
    · omega
    · exact ih count h

theorem sum_crystalStacks : ∀ n, (crystalStacks n).sum = n := by
  intro n
  induction n using crystalStacks.induct with
  | case1 =>
    unfold crystalStacks
    rfl
  | case2 n hn ih =>
    unfold crystalStacks
    rw [if_neg hn, List.sum_cons, ih]
    omega

/-- Every call of `Item::CreateItem` gives a coin with the count that is left of its. -/
theorem createdCoins_eq : ∀ {l : List (UInt16 × ℕ)}, (∀ coin ∈ l, IsCoin items coin.1) →
    (l.filterMap fun coin => createItem items coin.1 coin.2).map (fun it => (it.id, it.count)) =
      l.map fun coin => (coin.1, stackCount coin.2)
  | [], _ => rfl
  | coin :: l, h => by
    obtain ⟨it, hit, hid, hcount⟩ := createItem_coin (h coin List.mem_cons_self) coin.2
    have ih := createdCoins_eq fun coin hcoin => h coin (List.mem_cons_of_mem _ hcoin)
    rw [List.filterMap_cons, hit, List.map_cons, List.map_cons, ih, hid, hcount]

theorem isCoin_of_mem_coinsOf (hc : CoinTypes items) {money : UInt64} :
    ∀ coin ∈ coinsOf money, IsCoin items coin.1 := by
  intro coin h
  unfold coinsOf at h
  dsimp only at h
  rcases List.mem_append.1 h with h | h
  · obtain ⟨count, -, rfl⟩ := List.mem_map.1 h
    exact hc.crystal
  rcases List.mem_append.1 h with h | h
  · obtain rfl := List.mem_singleton.1 (List.mem_ite_nil_right.1 h).2
    exact hc.platinum
  · obtain rfl := List.mem_singleton.1 (List.mem_ite_nil_right.1 h).2
    exact hc.gold

/-- The coins that are created, by their ids and counts. -/
theorem addedCoins_eq (hc : CoinTypes items) (money : UInt64) :
    (addedCoins items money).map (fun it => (it.id, it.count)) =
      (coinsOf money).map fun coin => (coin.1, stackCount coin.2) :=
  createdCoins_eq (isCoin_of_mem_coinsOf hc)

theorem createsExactly_iff_coinsOf (hc : CoinTypes items) (money : UInt64) :
    CreatesExactly items money ↔
      ((coinsOf money).map fun coin => worthOf coin.1 (stackCount coin.2)).sum = money.toNat ∧
        ∀ coin ∈ coinsOf money, 1 ≤ stackCount coin.2 ∧ stackCount coin.2 ≤ 100 := by
  have he := addedCoins_eq hc money
  have hsum : (addedCoins items money).map getWorth =
      (coinsOf money).map fun coin => worthOf coin.1 (stackCount coin.2) := by
    have h := congrArg (List.map fun x : UInt16 × ℕ => worthOf x.1 x.2) he
    rwa [List.map_map, List.map_map] at h
  have hmem (P : ℕ → Prop) : (∀ coin ∈ addedCoins items money, P coin.count) ↔
      ∀ coin ∈ coinsOf money, P (stackCount coin.2) := by
    have h := congrArg (List.map Prod.snd) he
    rw [List.map_map, List.map_map] at h
    have hall : (∀ n ∈ (addedCoins items money).map Item.count, P n) ↔
        ∀ n ∈ (coinsOf money).map fun coin => stackCount coin.2, P n := by
      rw [show (addedCoins items money).map Item.count = _ from h]
      rfl
    rwa [List.forall_mem_map, List.forall_mem_map] at hall
  constructor
  · rintro ⟨hworth, hcount⟩
    exact ⟨hsum ▸ hworth, (hmem fun n => 1 ≤ n ∧ n ≤ 100).1 hcount⟩
  · rintro ⟨hworth, hcount⟩
    exact ⟨hsum ▸ hworth, (hmem fun n => 1 ≤ n ∧ n ≤ 100).2 hcount⟩

end Created

/-! ### What is cut off -/

section Numbers

variable {items : UInt16 → ItemType}

/-- The coins by numbers without bounds. -/
theorem coinsOf_eq (money : UInt64) {q left platinumCoins rest : ℕ} (hq : q = money.toNat / 10000)
    (hleft : left = money.toNat - q % 2 ^ 32 * 10000 % 2 ^ 32) (hplatinum : platinumCoins = left / 100 % 2 ^ 16)
    (hrest : rest = left - 100 * platinumCoins) :
    coinsOf money =
      (crystalStacks (q % 2 ^ 32)).map (fun count => (itemCrystalCoin, count)) ++
        ((if platinumCoins ≠ 0 then [(itemPlatinumCoin, platinumCoins)] else []) ++
          if rest ≠ 0 then [(itemGoldCoin, rest % 2 ^ 16)] else []) := by
  have hcrystal : (money / 10000).toUInt32.toNat = q % 2 ^ 32 := by
    rw [UInt64.toNat_toUInt32, UInt64.toNat_div, hq]
    rfl
  have hproduct : ((money / 10000).toUInt32 * 10000).toUInt64.toNat = q % 2 ^ 32 * 10000 % 2 ^ 32 := by
    rw [UInt32.toNat_toUInt64, UInt32.toNat_mul, hcrystal]
    rfl
  have hle : q % 2 ^ 32 * 10000 % 2 ^ 32 ≤ money.toNat := by
    have hmod := Nat.mod_le (q % 2 ^ 32 * 10000) (2 ^ 32)
    have hmod' := Nat.mod_le q (2 ^ 32)
    have hdiv := Nat.div_mul_le_self money.toNat 10000
    omega
  have hsub : (money - ((money / 10000).toUInt32 * 10000).toUInt64).toNat = left := by
    rw [UInt64.toNat_sub_of_le _ _ (UInt64.le_iff_toNat_le.2 (hproduct ▸ hle)), hproduct, hleft]
  unfold coinsOf
  dsimp only
  rw [hcrystal]
  generalize money - ((money / 10000).toUInt32 * 10000).toUInt64 = money at hsub ⊢
  have hcoins : (money / 100).toUInt16.toNat = platinumCoins := by
    rw [UInt64.toNat_toUInt16, UInt64.toNat_div, hsub, hplatinum]
    rfl
  generalize (money / 100).toUInt16 = coins at hcoins ⊢
  have hne : coins ≠ 0 ↔ platinumCoins ≠ 0 := by
    rw [← hcoins, Ne, Ne, ← UInt16.toNat_inj]
    rfl
  have hle : platinumCoins * 100 ≤ left := by
    have hmod := Nat.mod_le (left / 100) (2 ^ 16)
    omega
  have hproduct : (coins.toUInt64 * 100).toNat = platinumCoins * 100 := by
    have hsize := coins.toNat_lt
    have h100 : (100 : UInt64).toNat = 100 := rfl
    rw [UInt64.toNat_mul, UInt16.toNat_toUInt64, hcoins, h100]
    exact Nat.mod_eq_of_lt (by omega)
  have hmoney : (if coins ≠ 0 then money - coins.toUInt64 * 100 else money).toNat = rest := by
    rw [hrest]
    split
    · rw [UInt64.toNat_sub_of_le _ _ (UInt64.le_iff_toNat_le.2 (by rwa [hproduct, hsub])), hproduct, hsub,
        Nat.mul_comm]
    · next h =>
      have hzero : platinumCoins = 0 := not_not.1 (hne.not.1 h)
      rw [hsub, hzero, Nat.mul_zero, Nat.sub_zero]
  generalize (if coins ≠ 0 then money - coins.toUInt64 * 100 else money) = money at hmoney ⊢
  have hmoney' : money ≠ 0 ↔ rest ≠ 0 := by
    rw [← hmoney, Ne, Ne, ← UInt64.toNat_inj]
    rfl
  rw [hcoins, UInt64.toNat_toUInt16, hmoney]
  simp only [hne, hmoney']

theorem stackCount_of_lt {n : ℕ} (h0 : n ≠ 0) (h : n < 256) : stackCount n = n := by
  unfold stackCount
  rw [if_neg h0, Nat.mod_eq_of_lt h]

/-- A loop over crystal coins leaves their worth. -/
theorem worth_crystalStacks (n : ℕ) :
    (((crystalStacks n).map fun count => (itemCrystalCoin, count)).map
      fun coin => worthOf coin.1 (stackCount coin.2)).sum = n * 10000 := by
  have hworth : ∀ count ∈ crystalStacks n, worthOf itemCrystalCoin (stackCount count) = count * 10000 := by
    intro count h
    obtain ⟨h1, h100⟩ := crystalStacks_count n count h
    rw [stackCount_of_lt (by omega) (by omega)]
    rfl
  have hmap : (crystalStacks n).map (fun count => worthOf itemCrystalCoin (stackCount count)) =
      (crystalStacks n).map fun count => count * 10000 := List.map_congr_left hworth
  rw [List.map_map]
  exact (congrArg List.sum hmap).trans (by rw [List.sum_map_mul_right, List.map_id', sum_crystalStacks])

/-- The rest below a crystal coin is split into counts that fit. -/
theorem leftFits_zero {rest : ℕ} (h : rest < 10000) : LeftFits rest 0 := by
  have hp : rest / 100 % 2 ^ 16 = rest / 100 := Nat.mod_eq_of_lt (by omega)
  have hg : (rest - 100 * (rest / 100)) % 2 ^ 16 = rest - 100 * (rest / 100) := Nat.mod_eq_of_lt (by omega)
  unfold LeftFits
  rw [Nat.zero_mul, Nat.add_zero]
  dsimp only
  rw [hp, hg]
  refine ⟨⟨fun h0 => ?_, fun h0 => ?_⟩, ?_⟩
  · rw [stackCount_of_lt h0 (by omega)]
    omega
  · rw [stackCount_of_lt h0 (by omega)]
    omega
  · split <;> split
    · omega
    · next h0 hg0 =>
      rw [stackCount_of_lt hg0 (by omega)]
      omega
    · next h0 hg0 =>
      rw [stackCount_of_lt h0 (by omega)]
      omega
    · next h0 hg0 =>
      rw [stackCount_of_lt h0 (by omega), stackCount_of_lt hg0 (by omega)]
      omega

/-- A multiple of 2^32 is left over besides the rest. The platinum coins take a multiple of
2^16 too few from it, so that the gold coins are those of what is left, to the hundred. -/
theorem left_split {rest k left platinumCoins money : ℕ} (hleft : left = rest + k * 2 ^ 32)
    (hplatinum : platinumCoins = left / 100 % 2 ^ 16) (hmoney : money = left - 100 * platinumCoins) :
    money % 2 ^ 16 = left % 100 ∧ left % 100 = (rest + 96 * k) % 100 ∧ (money = 0 → left < 6553600) := by
  omega

/-- The counts of the coins come to the rest only where the lost multiples make up
whole hundreds, and there are gold coins to hold what is left of them. -/
theorem leftFits_iff {rest k : ℕ} (h : rest < 10000) :
    LeftFits rest k ↔ k = 0 ∨ k % 25 = 0 ∧ rest % 100 ≠ 0 := by
  constructor
  · unfold LeftFits
    dsimp only
    generalize hleft : rest + k * 2 ^ 32 = left
    generalize hplatinum : left / 100 % 2 ^ 16 = platinumCoins
    generalize hmoney : left - 100 * platinumCoins = money
    obtain ⟨hgold, hhundred, hzero⟩ := left_split hleft.symm hplatinum.symm hmoney.symm
    generalize (if platinumCoins = 0 then 0 else stackCount platinumCoins) = platinum
    rw [hgold]
    rintro ⟨-, hworth⟩
    by_cases h0 : money = 0
    · have hlt := hzero h0
      left
      omega
    rw [if_neg h0] at hworth
    by_cases hg : left % 100 = 0
    · -- a stack of one coin is created for none
      rw [hg] at hworth
      have hone : stackCount 0 = 1 := rfl
      omega
    · rw [stackCount_of_lt hg (by omega)] at hworth
      right
      omega
  · rintro (rfl | ⟨hk, hrest⟩)
    · exact leftFits_zero h
    · obtain ⟨j, rfl⟩ := Nat.dvd_of_mod_eq_zero hk
      unfold LeftFits
      dsimp only
      have hplatinum : (rest + 25 * j * 2 ^ 32) / 100 % 2 ^ 16 = rest / 100 := by omega
      have hgold : (rest + 25 * j * 2 ^ 32 - 100 * (rest / 100)) % 2 ^ 16 = rest % 100 := by omega
      have hmoney : rest + 25 * j * 2 ^ 32 - 100 * (rest / 100) ≠ 0 := by omega
      rw [hplatinum, hgold, if_neg hmoney, stackCount_of_lt hrest (by omega)]
      by_cases h0 : rest / 100 = 0
      · rw [if_pos h0]
        omega
      · rw [if_neg h0, stackCount_of_lt h0 (by omega)]
        omega

/-- What is left over when the coins of an amount with so many crystal coins are
created is what the product has lost. -/
theorem createsExactly_iff_leftFits (hc : CoinTypes items) {money : UInt64} {q : ℕ}
    (hq : q = money.toNat / 10000) :
    CreatesExactly items money ↔ q < 2 ^ 32 ∧ LeftFits (money.toNat % 10000) (q * 10000 / 2 ^ 32) := by
  rw [createsExactly_iff_coinsOf hc, coinsOf_eq money hq rfl rfl rfl]
  generalize hleft : money.toNat - q % 2 ^ 32 * 10000 % 2 ^ 32 = left
  generalize hplatinum : left / 100 % 2 ^ 16 = platinumCoins
  generalize hrest : left - 100 * platinumCoins = rest
  have hsum : ((((crystalStacks (q % 2 ^ 32)).map fun count => (itemCrystalCoin, count)) ++
      ((if platinumCoins ≠ 0 then [(itemPlatinumCoin, platinumCoins)] else []) ++
        if rest ≠ 0 then [(itemGoldCoin, rest % 2 ^ 16)] else [])).map
          fun coin : UInt16 × ℕ => worthOf coin.1 (stackCount coin.2)).sum =
      q % 2 ^ 32 * 10000 + (100 * (if platinumCoins = 0 then 0 else stackCount platinumCoins) +
        if rest = 0 then 0 else stackCount (rest % 2 ^ 16)) := by
    rw [List.map_append, List.map_append, List.sum_append, List.sum_append, worth_crystalStacks]
    congr 2
    · by_cases h0 : platinumCoins = 0
      · rw [if_neg (not_not_intro h0), if_pos h0]
        rfl
      · rw [if_pos h0, if_neg h0, Nat.mul_comm]
        rfl
    · by_cases h0 : rest = 0
      · rw [if_neg (not_not_intro h0), if_pos h0]
        rfl
      · rw [if_pos h0, if_neg h0]
        rfl
  have hcount : (∀ coin ∈ ((crystalStacks (q % 2 ^ 32)).map fun count => (itemCrystalCoin, count)) ++
      ((if platinumCoins ≠ 0 then [(itemPlatinumCoin, platinumCoins)] else []) ++
        if rest ≠ 0 then [(itemGoldCoin, rest % 2 ^ 16)] else []),
          1 ≤ stackCount coin.2 ∧ stackCount coin.2 ≤ 100) ↔
      (platinumCoins ≠ 0 → 1 ≤ stackCount platinumCoins ∧ stackCount platinumCoins ≤ 100) ∧
        (rest ≠ 0 → 1 ≤ stackCount (rest % 2 ^ 16) ∧ stackCount (rest % 2 ^ 16) ≤ 100) := by
    constructor
    · intro h
      exact ⟨fun h0 => h (itemPlatinumCoin, platinumCoins) (by simp [h0]),
        fun h0 => h (itemGoldCoin, rest % 2 ^ 16) (by simp [h0])⟩
    · rintro ⟨hplatinum, hgold⟩ coin h
      rcases List.mem_append.1 h with h | h
      · obtain ⟨count, hmem, rfl⟩ := List.mem_map.1 h
        have hle := crystalStacks_count _ count hmem
        rw [stackCount_of_lt (by omega) (by omega)]
        exact hle
      rcases List.mem_append.1 h with h | h
      · obtain ⟨h0, h⟩ := List.mem_ite_nil_right.1 h
        obtain rfl := List.mem_singleton.1 h
        exact hplatinum h0
      · obtain ⟨h0, h⟩ := List.mem_ite_nil_right.1 h
        obtain rfl := List.mem_singleton.1 h
        exact hgold h0
  rw [hsum, hcount]
  by_cases hlt : q < 2 ^ 32
  · have hk : left = money.toNat % 10000 + q * 10000 / 2 ^ 32 * 2 ^ 32 := by
      rw [Nat.mod_eq_of_lt hlt] at hleft
      omega
    have hmoney : money.toNat = q * 10000 + money.toNat % 10000 := by omega
    unfold LeftFits
    dsimp only
    rw [← hk, hplatinum, hrest, Nat.mod_eq_of_lt hlt]
    constructor
    · rintro ⟨hworth, hcounts⟩
      exact ⟨hlt, hcounts, by omega⟩
    · rintro ⟨-, hcounts, hworth⟩
      exact ⟨by omega, hcounts⟩
  · -- the crystal coins that are cut off are worth more than the rest can be
    refine iff_of_false ?_ fun h => hlt h.1
    rintro ⟨hworth, hplatinum, hgold⟩
    have hplatinum : (if platinumCoins = 0 then 0 else stackCount platinumCoins) ≤ 100 := by
      split
      · exact Nat.zero_le _
      · next h0 => exact (hplatinum h0).2
    have hgold : (if rest = 0 then 0 else stackCount (rest % 2 ^ 16)) ≤ 100 := by
      split
      · exact Nat.zero_le _
      · next h0 => exact (hgold h0).2
    omega

/-- The coins are worth the amount when the crystal coins' worth has 32 bits. Above
that they are where the number of crystal coins has 32 bits, the product of it and 10000 loses
a multiple of 25 times 2^32, and the amount is no multiple of 100. -/
theorem createsExactly_iff (hc : CoinTypes items) (money : UInt64) :
    CreatesExactly items money ↔
      money.toNat / 10000 * 10000 < 2 ^ 32 ∨
        money.toNat / 10000 < 2 ^ 32 ∧ money.toNat / 10000 * 10000 / 2 ^ 32 % 25 = 0 ∧
          money.toNat % 100 ≠ 0 := by
  have hrest : money.toNat % 10000 < 10000 := Nat.mod_lt _ (by decide)
  have hhundred : money.toNat % 10000 % 100 = money.toNat % 100 := by omega
  rw [createsExactly_iff_leftFits hc rfl, leftFits_iff hrest, hhundred]
  omega

end Numbers

/-! ### The coins of the game -/

/-- Types with coins in stacks. -/
def coinItems (id : UInt16) : ItemType := { id, stackable := true, pickupable := true, moveable := true }

theorem coinTypes : CoinTypes coinItems := by
  have h {id : UInt16} (h0 : id ≠ 0) (hid : ¬ Item.Rewritten id) : IsCoin coinItems id :=
    ⟨⟨⟨by simp [coinItems], h0⟩, fun _ => hid⟩, by simp [coinItems, classOf, ItemType.isDepot, ItemType.isContainer,
      ItemType.isTeleport, ItemType.isMagicField, ItemType.isDoor, ItemType.isTrashHolder, ItemType.isMailbox,
      ItemType.isBed], rfl, by simp [coinItems, ItemType.isFluidContainer, ItemType.isSplash]⟩
  exact ⟨h (by decide) (by decide), h (by decide) (by decide), h (by decide) (by decide)⟩

theorem createsExactly_fortune : CreatesExactly coinItems 4294969999 :=
  (createsExactly_iff coinTypes 4294969999).2 (.inl (by decide))

/-- One gold coin more. -/
theorem fortune_not_exact : ¬ CreatesExactly coinItems 4294970000 := by
  intro h
  obtain ⟨-, hfits⟩ := (createsExactly_iff_leftFits coinTypes (q := 429497) (by decide)).1 h
  revert hfits
  decide

end Money
end ForgottenServer
