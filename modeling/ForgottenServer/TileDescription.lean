/-
# What a client is told of a tile

`ProtocolGame::GetTileDescription` writes the ground, the top items, the
creatures the player can see, last comer first, and the down items, ten things
at most. The client numbers them as they come; the server computes the same
numbers with `Tile::getStackposOfItem`, `Tile::getStackposOfCreature` and
`Tile::getClientIndexOfCreature`, each with its own way to stop at ten.

Key definitions: `GetTileDescription`, `shown`, `described`, `getStackposOfItem`,
`getStackposOfCreature`, `getClientIndexOfCreature`.
Key theorems: `GetTileDescription_eq`, `stackpos_agrees`.
-/
import Mathlib.Tactic
import ForgottenServer.TileStack

namespace ForgottenServer
namespace TileStack

variable {ι κ σ : Type*}

/-! ### The description -/

/-- How an item and a creature are written to a state: the message, with what
the protocol keeps of the creatures the client knows. -/
structure Writer (ι κ σ : Type*) where
  addItem : ι → σ → σ
  AddCreature : κ → σ → σ

def Writer.add (w : Writer ι κ σ) (s : σ) : Thing ι κ → σ
  | .item i => w.addItem i s
  | .creature c => w.AddCreature c s

/-- A loop of `ProtocolGame::GetTileDescription` over the things that are not
skipped. It ends with the count, or with none where the function returns. -/
def addLoop {α : Type*} (add : α → σ → σ) (skip : α → Bool) :
    List α → ℕ → σ → σ × Option ℕ
  | [], count, s => (s, some count)
  | a :: l, count, s =>
    if skip a then addLoop add skip l count s
    else if count + 1 = 10 then (add a s, none)
    else addLoop add skip l (count + 1) (add a s)

/-- `ProtocolGame::GetTileDescription` -/
def GetTileDescription (w : Writer ι κ σ) (canSeeCreature : κ → Bool) (tile : Tile ι κ) (s : σ) : σ :=
  match tile.ground with
  | some ground => top 1 (w.addItem ground s)
  | none => top 0 s
where
  top (count : ℕ) (s : σ) : σ :=
    match tile.items with
    | some items =>
      match addLoop w.addItem (fun _ => false) items.topItems count s with
      | (s, some count) => creatures count s
      | (s, none) => s
    | none => creatures count s
  creatures (count : ℕ) (s : σ) : σ :=
    match tile.creatures with
    | some creatures =>
      match addLoop w.AddCreature (fun c => !canSeeCreature c) creatures.reverse count s with
      | (s, some count) => down count s
      | (s, none) => s
    | none => down count s
  down (count : ℕ) (s : σ) : σ :=
    match tile.items with
    | some items => (addLoop w.addItem (fun _ => false) items.downItems count s).1
    | none => s

/-- The things that are written, one after another. -/
def listWriter : Writer ι κ (List (Thing ι κ)) where
  addItem i l := l ++ [.item i]
  AddCreature c l := l ++ [.creature c]

namespace Tile

variable (tile : Tile ι κ) (canSeeCreature : κ → Bool)

/-- The things that the description of the tile is made of. -/
def described : List (Thing ι κ) := GetTileDescription listWriter canSeeCreature tile []

/-- The things of the tile in the order of the client. -/
def shown : List (Thing ι κ) :=
  tile.ground.toList.map .item ++ (tile.topItems.map .item ++
    (((tile.creatures.getD []).reverse.filter canSeeCreature).map .creature ++
      tile.downItems.map .item))

/-! ### The indices -/

section Index

variable [DecidableEq ι] [DecidableEq κ]

/-- The count before the creatures. -/
def countBefore : ℤ :=
  (if tile.ground.isSome then 1 else 0) +
    match tile.items with
    | some items => (items.getTopItemCount : ℤ)
    | none => 0

/-- `Tile::getClientIndexOfCreature` -/
def getClientIndexOfCreature (creature : κ) : ℤ :=
  match tile.creatures with
  | some creatures => loop creatures.reverse tile.countBefore
  | none => -1
where
  loop : List κ → ℤ → ℤ
    | [], _ => -1
    | c :: l, n => if c = creature then n else loop l (if canSeeCreature c then n + 1 else n)

/-- `Tile::getStackposOfCreature` -/
def getStackposOfCreature (creature : κ) : ℤ :=
  if tile.items.isSome ∧ 10 ≤ tile.countBefore then -1
  else
    match tile.creatures with
    | some creatures => loop creatures.reverse tile.countBefore
    | none => -1
where
  loop : List κ → ℤ → ℤ
    | [], _ => -1
    | c :: l, n =>
      if c = creature then n
      else if canSeeCreature c then (if 10 ≤ n + 1 then -1 else loop l (n + 1))
      else loop l n

/-- `Tile::getStackposOfItem` -/
def getStackposOfItem (isAlwaysOnTop : ι → Bool) (item : ι) : ℤ :=
  returned (atGround >>= atTop >>= atCreatures >>= atDown >>= fun _ => .ok (-1))
where
  atGround : Except ℤ ℤ :=
    match tile.ground with
    | some ground => if ground = item then .error 0 else .ok 1
    | none => .ok 0
  atTop (n : ℤ) : Except ℤ ℤ :=
    match tile.items with
    | some items =>
      if isAlwaysOnTop item then topLoop items.topItems n
      else if 10 ≤ n + items.getTopItemCount then .error (-1)
      else .ok (n + items.getTopItemCount)
    | none => .ok n
  topLoop : List ι → ℤ → Except ℤ ℤ
    | [], n => .ok n
    | i :: l, n =>
      if i = item then .error n else if n + 1 = 10 then .error (-1) else topLoop l (n + 1)
  atCreatures (n : ℤ) : Except ℤ ℤ :=
    match tile.creatures with
    | some creatures => creatureLoop creatures n
    | none => .ok n
  creatureLoop : List κ → ℤ → Except ℤ ℤ
    | [], n => .ok n
    | c :: l, n =>
      if canSeeCreature c then (if 10 ≤ n + 1 then .error (-1) else creatureLoop l (n + 1))
      else creatureLoop l n
  atDown (n : ℤ) : Except ℤ ℤ :=
    match tile.items with
    | some items => if !isAlwaysOnTop item then downLoop items.downItems n else .ok n
    | none => .ok n
  downLoop : List ι → ℤ → Except ℤ ℤ
    | [], n => .ok n
    | i :: l, n =>
      if i = item then .error n else if 10 ≤ n + 1 then .error (-1) else downLoop l (n + 1)

end Index

end Tile

/-! ### The description is the first ten things shown -/

theorem addLoop_eq {α : Type*} (add : α → σ → σ) (skip : α → Bool) :
    ∀ (l : List α) (count : ℕ) (s : σ), count < 10 →
      addLoop add skip l count s =
        (((l.filter fun a => !skip a).take (10 - count)).foldl (fun s a => add a s) s,
          if count + (l.filter fun a => !skip a).length < 10 then
            some (count + (l.filter fun a => !skip a).length) else none)
  | [], count, s, h => by simp [addLoop, h]
  | a :: l, count, s, h => by
    unfold addLoop
    cases hs : skip a with
    | true =>
      rw [if_pos rfl, addLoop_eq add skip l count s h, List.filter_cons_of_neg (by simp [hs])]
    | false =>
      rw [List.filter_cons_of_pos (by simp [hs])]
      by_cases h10 : count + 1 = 10
      · have h1 : 10 - count = 1 := by omega
        rw [if_neg (by simp), if_pos h10, h1, List.length_cons, if_neg (by omega)]
        rfl
      · have h1 : 10 - count = (10 - (count + 1)) + 1 := by omega
        rw [if_neg (by simp), if_neg h10, addLoop_eq add skip l (count + 1) _ (by omega), h1,
          List.take_succ_cons, List.foldl_cons, List.length_cons]
        simp only [Nat.add_assoc, Nat.add_comm 1]

section Describe

variable (w : Writer ι κ σ) {tile : Tile ι κ} {canSeeCreature : κ → Bool}

theorem foldl_item (l : List ι) (s : σ) :
    l.foldl (fun s i => w.addItem i s) s = (l.map Thing.item).foldl w.add s := by
  rw [List.foldl_map]
  rfl

theorem foldl_creature (l : List κ) (s : σ) :
    l.foldl (fun s c => w.AddCreature c s) s = (l.map Thing.creature).foldl w.add s := by
  rw [List.foldl_map]
  rfl

theorem describe_down {count : ℕ} (h : count < 10) (s : σ) :
    GetTileDescription.down w tile count s =
      ((tile.downItems.map .item).take (10 - count)).foldl w.add s := by
  unfold GetTileDescription.down Tile.downItems
  cases hi : tile.items with
  | none => simp
  | some v => simp [addLoop_eq _ _ _ _ _ h, foldl_item, List.map_take]

theorem describe_creatures {count : ℕ} (h : count < 10) (s : σ) :
    GetTileDescription.creatures w canSeeCreature tile count s =
      ((((tile.creatures.getD []).reverse.filter canSeeCreature).map Thing.creature ++
        tile.downItems.map Thing.item).take (10 - count)).foldl w.add s := by
  have hfilter : (fun c => !(!canSeeCreature c)) = canSeeCreature := by
    funext c
    exact Bool.not_not _
  unfold GetTileDescription.creatures
  cases hc : tile.creatures with
  | none => simpa using describe_down w h s
  | some l =>
    simp only [addLoop_eq _ _ _ _ _ h, Option.getD_some, hfilter]
    rw [List.take_append, List.foldl_append, List.length_map, foldl_creature, List.map_take]
    split_ifs with hlt
    · dsimp only
      rw [describe_down w hlt, Nat.sub_sub]
    · have h0 : 10 - count - (l.reverse.filter canSeeCreature).length = 0 := by omega
      rw [h0, List.take_zero]
      rfl

theorem describe_top {count : ℕ} (h : count < 10) (s : σ) :
    GetTileDescription.top w canSeeCreature tile count s =
      ((tile.topItems.map Thing.item ++
        (((tile.creatures.getD []).reverse.filter canSeeCreature).map Thing.creature ++
          tile.downItems.map Thing.item)).take (10 - count)).foldl w.add s := by
  unfold GetTileDescription.top
  cases hi : tile.items with
  | none =>
    have htop : tile.topItems = [] := by simp [Tile.topItems, hi]
    rw [htop]
    exact describe_creatures w h s
  | some v =>
    have htop : tile.topItems = v.topItems := by simp [Tile.topItems, hi]
    simp only [addLoop_eq _ _ _ _ _ h, Bool.not_false, List.filter_true, htop]
    rw [List.take_append, List.foldl_append, List.length_map, foldl_item, List.map_take]
    split_ifs with hlt
    · dsimp only
      rw [describe_creatures w hlt, Nat.sub_sub]
    · have h0 : 10 - count - v.topItems.length = 0 := by omega
      rw [h0, List.take_zero]
      rfl

/-- The description of a tile is made of the first ten things shown. -/
theorem GetTileDescription_eq (s : σ) : GetTileDescription w canSeeCreature tile s =
    ((tile.shown canSeeCreature).take 10).foldl w.add s := by
  unfold GetTileDescription Tile.shown
  cases hg : tile.ground with
  | none => exact describe_top w (Nat.zero_lt_succ 9) s
  | some g => exact describe_top w (Nat.one_lt_succ_succ 8) (w.addItem g s)

theorem foldl_listWriter : ∀ l l' : List (Thing ι κ), l.foldl listWriter.add l' = l' ++ l
  | [], l' => by simp
  | .item i :: l, l' => by
    rw [List.foldl_cons, foldl_listWriter l]
    exact List.append_assoc l' [.item i] l
  | .creature c :: l, l' => by
    rw [List.foldl_cons, foldl_listWriter l]
    exact List.append_assoc l' [.creature c] l

theorem described_eq : tile.described canSeeCreature = (tile.shown canSeeCreature).take 10 := by
  unfold Tile.described
  rw [GetTileDescription_eq, foldl_listWriter, List.nil_append]

/-- Writing a tile is writing what describes it. -/
theorem GetTileDescription_described (s : σ) : GetTileDescription w canSeeCreature tile s =
    (tile.described canSeeCreature).foldl w.add s := by
  rw [GetTileDescription_eq, described_eq]

end Describe

namespace Tile

variable [DecidableEq ι] [DecidableEq κ] {tile : Tile ι κ} {isAlwaysOnTop : ι → Bool}
  {canSeeCreature : κ → Bool}

omit [DecidableEq ι] [DecidableEq κ] in
theorem shown_nodup (h : tile.Ok isAlwaysOnTop) : (tile.shown canSeeCreature).Nodup := by
  have hsub : (tile.shown canSeeCreature).Sublist
      (tile.ground.toList.map Thing.item ++ (tile.topItems.map Thing.item ++
        ((tile.creatures.getD []).reverse.map Thing.creature ++ tile.downItems.map Thing.item))) := by
    unfold shown
    apply List.Sublist.append_left
    apply List.Sublist.append_left
    apply List.Sublist.append_right
    exact List.filter_sublist.map _
  apply List.Nodup.sublist hsub
  have hperm : (tile.ground.toList.map Thing.item ++ (tile.topItems.map Thing.item ++
        ((tile.creatures.getD []).reverse.map Thing.creature ++
          tile.downItems.map Thing.item))).Perm tile.things := by
    unfold things
    apply List.Perm.append_left
    apply List.Perm.append_left
    apply List.Perm.append_right
    exact (List.reverse_perm _).map _
  exact hperm.nodup_iff.2 (things_nodup h)

/-! ### Counting to ten -/

/-- A count from one, taken from zero and cut at ten. -/
def cut : Except ℤ ℤ → Except ℤ ℤ
  | .ok n => if n < 10 then .ok n else .error (-1)
  | .error n => if n - 1 < 10 then .error (n - 1) else .error (-1)

theorem cut_ok {n : ℤ} (h : n < 10) : cut (.ok n) = .ok n := if_pos h

theorem cut_error {n : ℤ} (h : n < 10) : cut (.error (n + 1)) = .error n := by
  show (if n + 1 - 1 < 10 then Except.error (n + 1 - 1) else .error (-1)) = Except.error n
  rw [add_sub_cancel_right, if_pos h]

/-- What is returned before the cut stays returned. -/
theorem cut_error_bind (n : ℤ) (f : ℤ → Except ℤ ℤ) : cut (.error n) >>= f = cut (.error n) := by
  by_cases h : n - 1 < 10
  · rw [show cut (.error n) = .error (n - 1) from if_pos h]
    rfl
  · rw [show cut (.error n) = .error (-1) from if_neg h]
    rfl

theorem countTo_ge {α : Type*} [DecidableEq α] (a : α) : ∀ (l : List α) (n : ℤ),
    (∃ m, countTo a l n = .ok m ∧ n ≤ m) ∨ ∃ m, countTo a l n = .error m ∧ n + 1 ≤ m
  | [], n => .inl ⟨n, rfl, le_refl n⟩
  | b :: l, n => by
    unfold countTo
    split
    · exact .inr ⟨n + 1, rfl, le_refl _⟩
    · rcases countTo_ge a l (n + 1) with ⟨m, hm, hle⟩ | ⟨m, hm, hle⟩
      · exact .inl ⟨m, hm, by omega⟩
      · exact .inr ⟨m, hm, by omega⟩

theorem cut_of_ge {α : Type*} [DecidableEq α] (a : α) (l : List α) {n : ℤ} (h : 10 ≤ n) :
    cut (countTo a l n) = .error (-1) := by
  rcases countTo_ge a l n with ⟨m, hm, hle⟩ | ⟨m, hm, hle⟩
  · rw [hm]
    exact if_neg (by omega)
  · rw [hm]
    exact if_neg (by omega)

/-- The cut can be made after each part of the list. -/
theorem cut_append {α : Type*} [DecidableEq α] (a : α) (l l' : List α) (n : ℤ) :
    cut (countTo a (l ++ l') n) = cut (countTo a l n) >>= fun m => cut (countTo a l' m) := by
  rw [countTo_append]
  cases hl : countTo a l n with
  | error m => exact (cut_error_bind m _).symm
  | ok m =>
    show cut (countTo a l' m) = cut (.ok m) >>= _
    by_cases hm : m < 10
    · rw [cut_ok hm]
      rfl
    · rw [show cut (.ok m) = .error (-1) from if_neg hm]
      exact cut_of_ge a l' (by omega)

/-- After a cut the count is below ten. -/
theorem returned_cut_bind {x : Except ℤ ℤ} {f g : ℤ → Except ℤ ℤ}
    (h : ∀ n < 10, returned (f n) = returned (g n)) :
    returned (cut x >>= f) = returned (cut x >>= g) := by
  cases x with
  | error n => rw [cut_error_bind, cut_error_bind]
  | ok n =>
    by_cases hn : n < 10
    · rw [cut_ok hn]
      exact h n hn
    · rw [show cut (.ok n) = .error (-1) from if_neg hn]
      rfl

theorem topLoop_eq (item : ι) : ∀ (l : List ι) {n : ℤ}, n < 10 →
    getStackposOfItem.topLoop item l n = cut (countTo item l n)
  | [], n, h => (if_pos h).symm
  | i :: l, n, h => by
    unfold getStackposOfItem.topLoop countTo
    by_cases hi : i = item
    · rw [if_pos hi, if_pos hi, cut_error h]
    · rw [if_neg hi, if_neg hi]
      by_cases hn : n + 1 = 10
      · rw [if_pos hn, cut_of_ge item l (by omega)]
      · rw [if_neg hn]
        exact topLoop_eq item l (by omega)

theorem downLoop_eq (item : ι) : ∀ (l : List ι) {n : ℤ}, n < 10 →
    getStackposOfItem.downLoop item l n = cut (countTo item l n)
  | [], n, h => (if_pos h).symm
  | i :: l, n, h => by
    unfold getStackposOfItem.downLoop countTo
    by_cases hi : i = item
    · rw [if_pos hi, if_pos hi, cut_error h]
    · rw [if_neg hi, if_neg hi]
      by_cases hn : 10 ≤ n + 1
      · rw [if_pos hn, cut_of_ge item l hn]
      · rw [if_neg hn]
        exact downLoop_eq item l (by omega)

omit [DecidableEq κ] in
theorem creatureLoop_eq : ∀ (l : List κ) {n : ℤ}, n < 10 →
    getStackposOfItem.creatureLoop canSeeCreature l n =
      cut (.ok (n + (l.filter canSeeCreature).length))
  | [], n, h => by
    unfold getStackposOfItem.creatureLoop cut
    simp [h]
  | c :: l, n, h => by
    unfold getStackposOfItem.creatureLoop
    cases hc : canSeeCreature c with
    | false =>
      rw [if_neg (by simp), List.filter_cons_of_neg (by simp [hc])]
      exact creatureLoop_eq l h
    | true =>
      rw [if_pos rfl, List.filter_cons_of_pos hc, List.length_cons]
      by_cases hn : 10 ≤ n + 1
      · rw [if_pos hn]
        exact (if_neg (by omega)).symm
      · rw [if_neg hn, creatureLoop_eq l (by omega)]
        congr 2
        push_cast
        ring

/-! ### The index of an item -/

section Item

variable (item : ι)

theorem stackpos_atGround : getStackposOfItem.atGround tile item =
    cut (countTo (Thing.item item : Thing ι κ) (tile.ground.toList.map .item) 0) := by
  unfold getStackposOfItem.atGround
  cases hg : tile.ground with
  | none => rfl
  | some g =>
    rw [Option.toList_some, countTo_map item_injective]
    show (if g = item then Except.error 0 else .ok 1) =
      cut (if g = item then .error (0 + 1) else .ok (0 + 1))
    split
    · exact (cut_error (by norm_num)).symm
    · exact (cut_ok (by norm_num)).symm

theorem stackpos_atTop (h : tile.Ok isAlwaysOnTop) {n : ℤ} (hn : n < 10) :
    getStackposOfItem.atTop tile isAlwaysOnTop item n =
      cut (countTo (Thing.item item : Thing ι κ) (tile.topItems.map .item) n) := by
  have htop := h.top
  rw [countTo_map item_injective]
  unfold getStackposOfItem.atTop topItems
  cases hv : tile.items with
  | none => exact (if_pos hn).symm
  | some v =>
    rw [Option.map_some, Option.getD_some]
    dsimp only
    split
    · exact topLoop_eq item _ hn
    · next hi =>
      rw [countTo_of_not_mem n fun hmem => hi (htop v hv item hmem), length_topItems]
      split
      · next hge => exact (if_neg (by omega)).symm
      · next hlt => exact (cut_ok (by omega)).symm

theorem stackpos_atCreatures {n : ℤ} (hn : n < 10) :
    getStackposOfItem.atCreatures tile canSeeCreature n =
      cut (countTo (Thing.item item : Thing ι κ)
        (((tile.creatures.getD []).reverse.filter canSeeCreature).map .creature) n) := by
  rw [countTo_of_not_mem n (by simp), List.length_map, List.filter_reverse, List.length_reverse]
  unfold getStackposOfItem.atCreatures
  cases tile.creatures with
  | none =>
    show Except.ok n = cut (.ok (n + 0))
    rw [add_zero, cut_ok hn]
  | some l => exact creatureLoop_eq l hn

theorem stackpos_atDown (h : tile.Ok isAlwaysOnTop) {n : ℤ} (hn : n < 10) :
    returned (getStackposOfItem.atDown tile isAlwaysOnTop item n >>= fun _ => .ok (-1)) =
      returned (cut (countTo (Thing.item item : Thing ι κ) (tile.downItems.map .item) n) >>=
        fun _ => .ok (-1)) := by
  have hdown := h.down
  rw [countTo_map item_injective]
  unfold getStackposOfItem.atDown downItems
  cases hv : tile.items with
  | none =>
    show _ = returned (cut (.ok n) >>= _)
    rw [cut_ok hn]
  | some v =>
    rw [Option.map_some, Option.getD_some]
    dsimp only
    split
    · rw [downLoop_eq item _ hn]
    · next hi =>
      have hmem : item ∉ v.downItems := fun hmem => hi (by simp [hdown v hv item hmem])
      rw [countTo_of_not_mem n hmem]
      by_cases hlt : n + v.downItems.length < 10
      · rw [cut_ok hlt]
        rfl
      · rw [show cut (.ok (n + v.downItems.length)) = .error (-1) from if_neg hlt]
        rfl

/-- `Tile::getStackposOfItem` counts through the things shown, to ten. -/
theorem getStackposOfItem_eq (h : tile.Ok isAlwaysOnTop) :
    tile.getStackposOfItem canSeeCreature isAlwaysOnTop item =
      returned (cut (countTo (.item item) (tile.shown canSeeCreature) 0) >>= fun _ => .ok (-1)) := by
  unfold getStackposOfItem shown
  rw [cut_append, bind_assoc, bind_assoc, bind_assoc, bind_assoc, stackpos_atGround]
  refine returned_cut_bind fun n hn => ?_
  rw [stackpos_atTop item h hn, cut_append, bind_assoc]
  refine returned_cut_bind fun n hn => ?_
  rw [stackpos_atCreatures item hn, cut_append, bind_assoc]
  refine returned_cut_bind fun n hn => ?_
  exact stackpos_atDown item h hn

end Item

/-! ### The index of a creature -/

section Creature

variable (creature : κ)

omit [DecidableEq ι]

/-- An index below ten, -1 for the others. -/
def belowTen (n : ℤ) : ℤ := if n < 10 then n else -1

theorem belowTen_of_lt {n : ℤ} (h : n < 10) : belowTen n = n := if_pos h

theorem belowTen_of_ge {n : ℤ} (h : n = -1 ∨ 10 ≤ n) : belowTen n = -1 := by
  unfold belowTen
  split_ifs <;> omega

theorem clientLoop_ge : ∀ (l : List κ) (n : ℤ),
    getClientIndexOfCreature.loop canSeeCreature creature l n = -1 ∨
      n ≤ getClientIndexOfCreature.loop canSeeCreature creature l n
  | [], _ => .inl rfl
  | c :: l, n => by
    unfold getClientIndexOfCreature.loop
    split
    · exact .inr (le_refl n)
    · rcases clientLoop_ge l (if canSeeCreature c then n + 1 else n) with h | h
      · exact .inl h
      · right
        split at h
        · next hc => rw [if_pos hc]; omega
        · next hc => rw [if_neg hc]; exact h

/-- The loop with the cut at ten. -/
theorem stackposLoop_eq : ∀ (l : List κ) {n : ℤ}, n < 10 →
    getStackposOfCreature.loop canSeeCreature creature l n =
      belowTen (getClientIndexOfCreature.loop canSeeCreature creature l n)
  | [], _, _ => rfl
  | c :: l, n, h => by
    unfold getStackposOfCreature.loop getClientIndexOfCreature.loop
    by_cases hc : c = creature
    · rw [if_pos hc, if_pos hc, belowTen_of_lt h]
    · rw [if_neg hc, if_neg hc]
      by_cases hs : canSeeCreature c
      · rw [if_pos hs, if_pos hs]
        by_cases hn : 10 ≤ n + 1
        · rw [if_pos hn, belowTen_of_ge]
          exact (clientLoop_ge creature l (n + 1)).imp_right hn.trans
        · rw [if_neg hn]
          exact stackposLoop_eq l (by omega)
      · rw [if_neg hs, if_neg hs]
        exact stackposLoop_eq l h

theorem getStackposOfCreature_eq : tile.getStackposOfCreature canSeeCreature creature =
    belowTen (tile.getClientIndexOfCreature canSeeCreature creature) := by
  have hitems : tile.items.isSome = false → tile.countBefore < 10 := by
    intro hi
    unfold countBefore
    cases h : tile.items with
    | some v => simp [h] at hi
    | none =>
      dsimp only
      split <;> omega
  unfold getStackposOfCreature getClientIndexOfCreature
  cases hc : tile.creatures with
  | none => simp [belowTen]
  | some l =>
    dsimp only
    by_cases h : tile.countBefore < 10
    · rw [if_neg fun hn => by omega, stackposLoop_eq creature _ h]
    · have hsome : tile.items.isSome = true := by
        by_contra hi
        exact h (hitems (by simpa using hi))
      rw [if_pos ⟨hsome, by omega⟩, belowTen_of_ge]
      exact (clientLoop_ge creature l.reverse _).imp_right (by omega : 10 ≤ tile.countBefore).trans

theorem clientLoop_of_getElem (hsee : canSeeCreature creature) : ∀ {l : List κ} {j : ℕ} (n : ℤ),
    l.Nodup → (l.filter canSeeCreature)[j]? = some creature →
      getClientIndexOfCreature.loop canSeeCreature creature l n = n + j
  | [], _, _, _, h => by simp at h
  | c :: l, j, n, hn, h => by
    have hcl := List.nodup_cons.1 hn
    unfold getClientIndexOfCreature.loop
    by_cases hc : c = creature
    · subst hc
      rw [if_pos rfl]
      rw [List.filter_cons_of_pos hsee] at h
      cases j with
      | zero => simp
      | succ j =>
        rw [List.getElem?_cons_succ] at h
        exact absurd (List.mem_of_mem_filter (List.mem_of_getElem? h)) hcl.1
    · rw [if_neg hc]
      by_cases hs : canSeeCreature c
      · rw [if_pos hs]
        rw [List.filter_cons_of_pos hs] at h
        cases j with
        | zero => exact absurd (by simpa using h) hc
        | succ j =>
          rw [List.getElem?_cons_succ] at h
          rw [clientLoop_of_getElem hsee (n + 1) hcl.2 h]
          push_cast
          ring
      · rw [if_neg hs]
        rw [List.filter_cons_of_neg (by simpa using hs)] at h
        exact clientLoop_of_getElem hsee n hcl.2 h

theorem clientLoop_of_not_mem : ∀ {l : List κ} (n : ℤ), creature ∉ l →
    getClientIndexOfCreature.loop canSeeCreature creature l n = -1
  | [], _, _ => rfl
  | c :: l, n, h => by
    unfold getClientIndexOfCreature.loop
    have hc : c ≠ creature := fun hc => h (hc ▸ List.mem_cons_self)
    rw [if_neg hc]
    exact clientLoop_of_not_mem _ fun hl => h (List.mem_cons_of_mem c hl)

omit [DecidableEq κ] in
theorem countBefore_eq : tile.countBefore =
    ((tile.ground.toList.map Thing.item ++ tile.topItems.map Thing.item : List (Thing ι κ)).length) := by
  unfold countBefore topItems
  cases tile.ground <;> cases tile.items <;> simp [length_topItems, add_comm]

/-- The client index of a creature on the tile is its place among the things shown. -/
theorem getClientIndexOfCreature_of_has (h : tile.Ok isAlwaysOnTop)
    (hsee : canSeeCreature creature) (hhas : tile.Has (.creature creature)) :
    ∃ k : ℕ, (tile.shown canSeeCreature)[k]? = some (.creature creature) ∧
      tile.getClientIndexOfCreature canSeeCreature creature = k := by
  obtain ⟨l, hl, hmem⟩ := hhas
  have hfilter : creature ∈ l.reverse.filter canSeeCreature :=
    List.mem_filter.2 ⟨List.mem_reverse.2 hmem, hsee⟩
  obtain ⟨j, hj⟩ := List.getElem?_of_mem hfilter
  have hjlt := (List.getElem?_eq_some_iff.1 hj).1
  refine ⟨(tile.ground.toList.map Thing.item ++ tile.topItems.map Thing.item :
    List (Thing ι κ)).length + j, ?_, ?_⟩
  · unfold shown
    rw [← List.append_assoc, List.getElem?_append_right (Nat.le_add_right _ _),
      Nat.add_sub_cancel_left, hl, Option.getD_some,
      List.getElem?_append_left (by rw [List.length_map]; exact hjlt), List.getElem?_map, hj]
    rfl
  · unfold getClientIndexOfCreature
    rw [hl]
    dsimp only
    rw [clientLoop_of_getElem creature hsee _ (List.nodup_reverse.2 (h.creatures l hl)) hj,
      countBefore_eq]
    push_cast
    rfl

theorem getClientIndexOfCreature_of_not_has (hhas : ¬ tile.Has (.creature creature)) :
    tile.getClientIndexOfCreature canSeeCreature creature = -1 := by
  unfold getClientIndexOfCreature
  cases hl : tile.creatures with
  | none => rfl
  | some l =>
    refine clientLoop_of_not_mem creature _ fun hmem => hhas ⟨l, hl, List.mem_reverse.1 hmem⟩

end Creature

/-! ### The two sides agree -/

/-- A stack position and the list of what was sent agree on a thing. -/
def Agrees (stackpos : ℤ) (sent : List (Thing ι κ)) (t : Thing ι κ) : Prop :=
  (∀ i : ℕ, stackpos = i ↔ sent[i]? = some t) ∧ (stackpos = -1 ↔ t ∉ sent)

omit [DecidableEq ι] [DecidableEq κ] in
theorem agrees_of_index {l : List (Thing ι κ)} (hl : l.Nodup) {t : Thing ι κ} {k : ℕ}
    (hk : l[k]? = some t) : Agrees (belowTen k) (l.take 10) t := by
  have hiff : ∀ i : ℕ, l[i]? = some t ↔ i = k := by
    intro i
    constructor
    · intro hi
      exact (List.getElem?_inj (List.getElem?_eq_some_iff.1 hi).1 hl).1 (hi.trans hk.symm)
    · rintro rfl
      exact hk
  have htake : ∀ i : ℕ, (l.take 10)[i]? = some t ↔ i = k ∧ k < 10 := by
    intro i
    rw [List.getElem?_take]
    split_ifs with hi
    · rw [hiff]
      omega
    · constructor
      · intro h
        exact nomatch h
      · omega
  by_cases hlt : k < 10
  · rw [belowTen_of_lt (by exact_mod_cast hlt)]
    constructor
    · intro i
      rw [htake]
      omega
    · refine iff_of_false (by omega) fun hmem => hmem ?_
      exact List.mem_of_getElem? ((htake k).2 ⟨rfl, hlt⟩)
  · rw [belowTen_of_ge (.inr (by exact_mod_cast Nat.le_of_not_lt hlt))]
    constructor
    · intro i
      rw [htake]
      constructor
      · intro h
        omega
      · rintro ⟨-, h⟩
        exact absurd h hlt
    · refine iff_of_true rfl fun hmem => ?_
      obtain ⟨i, hi⟩ := List.getElem?_of_mem hmem
      exact hlt ((htake i).1 hi).2

omit [DecidableEq ι] [DecidableEq κ] in
theorem agrees_of_not_mem {l : List (Thing ι κ)} {t : Thing ι κ} (h : t ∉ l) :
    Agrees (-1) (l.take 10) t := by
  have ht : t ∉ l.take 10 := fun hm => h (List.mem_of_mem_take hm)
  refine ⟨fun i => ?_, iff_of_true rfl ht⟩
  constructor
  · intro hi
    omega
  · intro hi
    exact absurd (List.mem_of_getElem? hi) ht

/-- **The stack positions agree with what the client was sent.** The stack
position of an item, and of a creature the player can see, is its place in the
description of the tile, -1 if it is not described; the client index of a
creature on the tile is that place, or at least ten. -/
theorem stackpos_agrees (h : tile.Ok isAlwaysOnTop) (canSeeCreature : κ → Bool) :
    (∀ item, Agrees (tile.getStackposOfItem canSeeCreature isAlwaysOnTop item)
      (tile.described canSeeCreature) (.item item)) ∧
    (∀ creature, canSeeCreature creature →
      Agrees (tile.getStackposOfCreature canSeeCreature creature)
        (tile.described canSeeCreature) (.creature creature)) ∧
    (∀ creature, canSeeCreature creature → tile.Has (.creature creature) →
      (∀ i : ℕ, (tile.described canSeeCreature)[i]? = some (.creature creature) →
        tile.getClientIndexOfCreature canSeeCreature creature = i) ∧
      (.creature creature ∉ tile.described canSeeCreature →
        10 ≤ tile.getClientIndexOfCreature canSeeCreature creature)) := by
  have hnodup : (tile.shown canSeeCreature).Nodup := shown_nodup h
  rw [described_eq]
  refine ⟨?_, ?_, ?_⟩
  · intro item
    rw [getStackposOfItem_eq item h]
    by_cases hmem : Thing.item item ∈ tile.shown canSeeCreature
    · obtain ⟨k, hk⟩ := List.getElem?_of_mem hmem
      rw [countTo_of_getElem _ hnodup hk, cut_error_bind]
      have hcut : returned (cut (.error (0 + 1 + k))) = belowTen k := by
        rw [show (0 + 1 + k : ℤ) = k + 1 by ring]
        by_cases hlt : (k : ℤ) < 10
        · rw [cut_error hlt, belowTen_of_lt hlt]
          rfl
        · rw [show cut (.error ((k : ℤ) + 1)) = .error (-1) from if_neg (by omega),
            belowTen_of_ge (.inr (by omega))]
          rfl
      rw [hcut]
      exact agrees_of_index hnodup hk
    · rw [countTo_of_not_mem _ hmem]
      have hcut : ∀ n, returned (cut (.ok n) >>= fun _ => .ok (-1)) = -1 := by
        intro n
        by_cases hlt : n < 10
        · rw [cut_ok hlt]
          rfl
        · rw [show cut (.ok n) = .error (-1) from if_neg hlt]
          rfl
      rw [hcut]
      exact agrees_of_not_mem hmem
  · intro creature hsee
    rw [getStackposOfCreature_eq]
    by_cases hhas : tile.Has (.creature creature)
    · obtain ⟨k, hk, hindex⟩ := getClientIndexOfCreature_of_has creature h hsee hhas
      rw [hindex]
      exact agrees_of_index hnodup hk
    · rw [getClientIndexOfCreature_of_not_has creature hhas, belowTen_of_ge (.inl rfl)]
      refine agrees_of_not_mem fun hmem => hhas ?_
      have hc : creature ∈ tile.creatures.getD [] := by
        have := hmem
        simp only [shown, List.mem_append, List.mem_map, reduceCtorEq, and_false, exists_false,
          List.mem_filter, List.mem_reverse, Thing.creature.injEq, exists_eq_right, false_or,
          or_false] at this
        exact this.1
      cases hl : tile.creatures with
      | none => simp [hl] at hc
      | some l => exact ⟨l, hl, by simpa [hl] using hc⟩
  · intro creature hsee hhas
    obtain ⟨k, hk, hindex⟩ := getClientIndexOfCreature_of_has creature h hsee hhas
    obtain ⟨h1, h2⟩ := agrees_of_index hnodup hk
    rw [hindex]
    unfold belowTen at h1 h2
    constructor
    · intro i hi
      have := (h1 i).2 hi
      split_ifs at this
      omega
    · intro hi
      have := h2.2 hi
      split_ifs at this
      omega

theorem stackpos_agrees_crowded :
    Agrees (crowded.getStackposOfItem (fun _ => true) crowdedOnTop 4)
        (crowded.described fun _ => true) (.item 4) ∧
      Agrees (crowded.getStackposOfCreature (fun _ => true) 7)
        (crowded.described fun _ => true) (.creature 7) :=
  ⟨(stackpos_agrees crowded_ok fun _ => true).1 4,
    (stackpos_agrees crowded_ok fun _ => true).2.1 7 rfl⟩

end Tile
end TileStack
end ForgottenServer
