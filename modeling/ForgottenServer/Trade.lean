/-
# The trade protocol

`Game::internalStartTrade`, `Game::playerAcceptTrade` and
`Game::internalCloseTrade`, with the trade state of every player and the
shared map `tradeItems`. Where the items go is `TradeTransfer`'s; here a
transfer leaves both players without a trade whether its moves succeed or
not, and while the moves run the trades of other players may be closed
(`Player::checkTradeState` reacts to items that leave their place).

In every state reachable from no trades the partner relation is symmetric, a
player is without a trade exactly if he is in `TRADE_NONE`, nobody is left in
`TRADE_TRANSFER` and `tradeItems` maps exactly the offered items to the
players who offer them (`reachable_tradeInv`).
-/
import ForgottenServer.Lib.Run
import Mathlib.Logic.Function.Basic
import Mathlib.Data.Set.Basic
import Mathlib.Data.Set.Insert
import Mathlib.Order.BooleanAlgebra.Set

set_option linter.unusedSectionVars false

namespace ForgottenServer
namespace Trade

open Run

variable {P I : Type*} [DecidableEq P] [DecidableEq I]

/-! ### The state -/

/-- `tradestate_t` -/
inductive TradeState
  | tradeNone
  | tradeInitiated
  | tradeAccept
  | tradeAcknowledge
  | tradeTransfer
  deriving DecidableEq, Repr

/-- What a `Player` holds for trading. -/
structure Player (P I : Type*) where
  tradePartner : Option P
  tradeState : TradeState
  tradeItem : Option I

/-- A player without a trade, as the constructor of `Player` leaves him. -/
def Player.idle : Player P I := ⟨none, .tradeNone, none⟩

/-- The players and `Game::tradeItems`, which maps an offered item to the
player who offers it. -/
structure Game (P I : Type*) where
  player : P → Player P I
  tradeItems : I → Option P

/-- No trades. -/
def Game.init : Game P I := ⟨fun _ => .idle, fun _ => none⟩

def Game.set (g : Game P I) (p : P) (x : Player P I) : Game P I :=
  { g with player := Function.update g.player p x }

/-- `Player::setTradeState` -/
def Game.setTradeState (g : Game P I) (p : P) (st : TradeState) : Game P I :=
  g.set p { g.player p with tradeState := st }

/-- The `find` and `erase` on `tradeItems`; a null item is never a key. -/
def Game.eraseTradeItem (g : Game P I) : Option I → Game P I
  | none => g
  | some i => { g with tradeItems := Function.update g.tradeItems i none }

@[simp] theorem Game.set_player (g : Game P I) (p r : P) (x : Player P I) :
    (g.set p x).player r = if r = p then x else g.player r := by
  simp [Game.set, Function.update_apply]

@[simp] theorem Game.set_tradeItems (g : Game P I) (p : P) (x : Player P I) :
    (g.set p x).tradeItems = g.tradeItems := rfl

@[simp] theorem Game.setTradeState_player (g : Game P I) (p r : P) (st : TradeState) :
    (g.setTradeState p st).player r =
      if r = p then { g.player r with tradeState := st } else g.player r := by
  by_cases h : r = p <;> simp [Game.setTradeState, h]

@[simp] theorem Game.setTradeState_tradeItems (g : Game P I) (p : P) (st : TradeState) :
    (g.setTradeState p st).tradeItems = g.tradeItems := rfl

@[simp] theorem Game.eraseTradeItem_player (g : Game P I) (i : Option I) :
    (g.eraseTradeItem i).player = g.player := by
  cases i <;> rfl

@[simp] theorem Game.eraseTradeItem_tradeItems (g : Game P I) (i : Option I) (j : I) :
    (g.eraseTradeItem i).tradeItems j = if i = some j then none else g.tradeItems j := by
  cases i with
  | none => simp [Game.eraseTradeItem]
  | some i => simp [Game.eraseTradeItem, Function.update_apply, eq_comm]

/-! ### The handlers -/

/-- `Game::internalStartTrade`: whether the trade was started, and the game
after it. -/
def internalStartTrade (g : Game P I) (player tradePartner : P) (tradeItem : I) :
    Bool × Game P I :=
  let pl := g.player player
  let pa := g.player tradePartner
  if pl.tradeState ≠ .tradeNone ∧
      ¬ (pl.tradeState = .tradeAcknowledge ∧ pl.tradePartner = some tradePartner) then
    (false, g)
  else if pa.tradeState ≠ .tradeNone ∧ pa.tradePartner ≠ some player then
    (false, g)
  else
    let g1 := g.set player ⟨some tradePartner, .tradeInitiated, some tradeItem⟩
    let g2 := { g1 with tradeItems := Function.update g1.tradeItems tradeItem (some player) }
    if pa.tradeState = .tradeNone then
      (true, g2.set tradePartner
        { pa with tradeState := .tradeAcknowledge, tradePartner := some player })
    else (true, g2)

/-- `Game::internalCloseTrade` -/
def internalCloseTrade (g : Game P I) (player : P) : Game P I :=
  let pl := g.player player
  match pl.tradePartner with
  | none =>
    if pl.tradeState = .tradeTransfer then g
    else (g.eraseTradeItem pl.tradeItem).set player .idle
  | some tradePartner =>
    let pa := g.player tradePartner
    if pa.tradeState = .tradeTransfer ∨ pl.tradeState = .tradeTransfer then g
    else
      let g1 := (g.eraseTradeItem pl.tradeItem).set player .idle
      (g1.eraseTradeItem (g1.player tradePartner).tradeItem).set tradePartner .idle

/-- The transfer begins: both players are in `TRADE_TRANSFER` and their items
are no longer in `tradeItems`. -/
def Game.beginTransfer (g : Game P I) (player tradePartner : P) : Game P I :=
  let tradeItem1 := (g.player player).tradeItem
  let tradeItem2 := (g.player tradePartner).tradeItem
  let g1 := (g.setTradeState player .tradeTransfer).setTradeState tradePartner .tradeTransfer
  (g1.eraseTradeItem tradeItem1).eraseTradeItem tradeItem2

/-- `Game::playerAcceptTrade`. `canThrow` is what `canThrowObjectTo` answers
for the two positions, `approved` what `eventPlayerOnTradeAccept` does, and
`closed` lists the players for whom the moves of the transfer call
`internalCloseTrade`. -/
def playerAcceptTrade (g : Game P I) (player : P) (canThrow approved : Bool) (closed : List P) :
    Game P I :=
  let pl := g.player player
  if ¬ (pl.tradeState = .tradeAcknowledge ∨ pl.tradeState = .tradeInitiated) then g
  else match pl.tradePartner with
  | none => g
  | some tradePartner =>
    if !canThrow then g
    else
      let g1 := g.setTradeState player .tradeAccept
      if (g1.player tradePartner).tradeState = .tradeAccept then
        if !approved then internalCloseTrade g1 player
        else
          -- the two `internalMoveItem`, or none where a check before them fails
          let g2 := run internalCloseTrade (g1.beginTransfer player tradePartner) closed
          (g2.set player .idle).set tradePartner .idle
      else g1

/-! ### Runs -/

/-- The calls of the trade handlers. -/
inductive Action (P I : Type*)
  | startTrade (player tradePartner : P) (tradeItem : I)
  | acceptTrade (player : P) (canThrow approved : Bool) (closed : List P)
  | closeTrade (player : P)

def step (g : Game P I) : Action P I → Game P I
  | .startTrade p q i => (internalStartTrade g p q i).2
  | .acceptTrade p c a cl => playerAcceptTrade g p c a cl
  | .closeTrade p => internalCloseTrade g p

/-- What `playerRequestTrade` has checked when it calls `internalStartTrade`:
the players differ and the item is not on offer yet. -/
def Legal (g : Game P I) : Action P I → Prop
  | .startTrade p q i => p ≠ q ∧ g.tradeItems i = none
  | _ => True

/-! ### The invariant -/

/-- The trade state with the transfer of the players in `T` under way: these
are in `TRADE_TRANSFER` and their items are out of `tradeItems` already. -/
structure InvOn (T : Set P) (g : Game P I) : Prop where
  symm : ∀ {p q}, (g.player p).tradePartner = some q → (g.player q).tradePartner = some p
  irrefl : ∀ p, (g.player p).tradePartner ≠ some p
  none_iff : ∀ p, (g.player p).tradeState = .tradeNone ↔ (g.player p).tradePartner = none
  transfer_iff : ∀ p, (g.player p).tradeState = .tradeTransfer ↔ p ∈ T
  closed : ∀ {p q}, p ∈ T → (g.player p).tradePartner = some q → q ∈ T
  item_none : ∀ {p}, (g.player p).tradePartner = none → (g.player p).tradeItem = none
  acknowledge : ∀ {p}, (g.player p).tradeState = .tradeAcknowledge → (g.player p).tradeItem = none
  items : ∀ i p, g.tradeItems i = some p ↔ (g.player p).tradeItem = some i ∧ p ∉ T

/-- The invariant between two calls. -/
abbrev Inv (g : Game P I) : Prop := InvOn ∅ g

theorem inv_init : Inv (Game.init : Game P I) where
  symm h := by simp [Game.init, Player.idle] at h
  irrefl p := by simp [Game.init, Player.idle]
  none_iff p := by simp [Game.init, Player.idle]
  transfer_iff p := by simp [Game.init, Player.idle]
  closed h := h.elim
  item_none _ := rfl
  acknowledge _ := rfl
  items i p := by simp [Game.init, Player.idle]

section Steps

variable {g : Game P I} {T : Set P}

/-- An item is on offer in one trade only. -/
theorem InvOn.item_inj (h : InvOn T g) {p q : P} {i : I} (hp : p ∉ T) (hq : q ∉ T)
    (h1 : (g.player p).tradeItem = some i) (h2 : (g.player q).tradeItem = some i) : p = q := by
  have e1 := (h.items i p).mpr ⟨h1, hp⟩
  have e2 := (h.items i q).mpr ⟨h2, hq⟩
  exact Option.some.inj (e1.symm.trans e2)

theorem InvOn.idle_of_none (h : InvOn T g) {p : P} (hp : (g.player p).tradePartner = none) :
    g.player p = .idle := by
  have hs := (h.none_iff p).mpr hp
  have hi := h.item_none hp
  cases hx : g.player p with
  | mk a b c => simp_all [Player.idle]

/-- Two partners become idle and their items leave `tradeItems`; nothing else
changes. -/
theorem InvOn.idle_pair (h : InvOn T g) {p q : P} (hpq : (g.player p).tradePartner = some q)
    {g' : Game P I} (hpl : ∀ r, g'.player r = if r = p ∨ r = q then .idle else g.player r)
    (hti : ∀ i r, g'.tradeItems i = some r ↔ g.tradeItems i = some r ∧ r ≠ p ∧ r ≠ q) :
    InvOn (T \ {p, q}) g' := by
  have hqp := h.symm hpq
  have hidle : ∀ {r}, r = p ∨ r = q → g'.player r = .idle := fun hr => by rw [hpl, if_pos hr]
  have hkeep : ∀ {r}, ¬ (r = p ∨ r = q) → g'.player r = g.player r := fun hr => by
    rw [hpl, if_neg hr]
  -- the partner of a third player is a third player
  have hout : ∀ {r t}, ¬ (r = p ∨ r = q) → (g.player r).tradePartner = some t →
      ¬ (t = p ∨ t = q) := by
    rintro r t hr hrt (rfl | rfl)
    · exact hr (Or.inr (Option.some.inj ((h.symm hrt).symm.trans hpq)))
    · exact hr (Or.inl (Option.some.inj ((h.symm hrt).symm.trans hqp)))
  constructor
  · intro r t hrt
    by_cases hr : r = p ∨ r = q
    · rw [hidle hr] at hrt; cases hrt
    · rw [hkeep hr] at hrt
      rw [hkeep (hout hr hrt)]; exact h.symm hrt
  · intro r
    by_cases hr : r = p ∨ r = q
    · rw [hidle hr]; simp [Player.idle]
    · rw [hkeep hr]; exact h.irrefl r
  · intro r
    by_cases hr : r = p ∨ r = q
    · rw [hidle hr]; simp [Player.idle]
    · rw [hkeep hr]; exact h.none_iff r
  · intro r
    by_cases hr : r = p ∨ r = q
    · rw [hidle hr]; simp [Player.idle, hr]
    · rw [hkeep hr, h.transfer_iff]; simp [hr]
  · intro r t hr hrt
    have hrn : ¬ (r = p ∨ r = q) := by simpa using hr.2
    rw [hkeep hrn] at hrt
    exact ⟨h.closed hr.1 hrt, by simpa using hout hrn hrt⟩
  · intro r hr
    by_cases hrn : r = p ∨ r = q
    · rw [hidle hrn]; rfl
    · rw [hkeep hrn] at hr ⊢; exact h.item_none hr
  · intro r hr
    by_cases hrn : r = p ∨ r = q
    · rw [hidle hrn]; rfl
    · rw [hkeep hrn] at hr ⊢; exact h.acknowledge hr
  · intro i r
    rw [hti, h.items]
    by_cases hrn : r = p ∨ r = q
    · rw [hidle hrn]; rcases hrn with rfl | rfl <;> simp [Player.idle]
    · rw [hkeep hrn]
      push Not at hrn
      simp [hrn]

/-- `Game::internalCloseTrade`, whoever's transfer is under way. -/
theorem InvOn.closeTrade (h : InvOn T g) (p : P) : InvOn T (internalCloseTrade g p) := by
  cases hp : (g.player p).tradePartner with
  | none =>
    have hi := h.idle_of_none hp
    have hg : g.set p .idle = g := by rw [← hi]; simp [Game.set]
    have : internalCloseTrade g p = g.set p .idle := by
      simp [internalCloseTrade, hi, Player.idle, Game.eraseTradeItem]
    rw [this, hg]; exact h
  | some q =>
    by_cases ht : (g.player q).tradeState = .tradeTransfer ∨ (g.player p).tradeState = .tradeTransfer
    · have : internalCloseTrade g p = g := by simp [internalCloseTrade, hp, ht]
      rw [this]; exact h
    · have hne : q ≠ p := fun e => h.irrefl p (e ▸ hp)
      have hpT : p ∉ T := fun hm => ht (Or.inr ((h.transfer_iff p).mpr hm))
      have hqT : q ∉ T := fun hm => ht (Or.inl ((h.transfer_iff q).mpr hm))
      have hT : T \ {p, q} = T := by
        ext r
        simp only [Set.mem_sdiff, Set.mem_insert_iff, Set.mem_singleton_iff, and_iff_left_iff_imp]
        rintro hr (rfl | rfl) <;> contradiction
      rw [← hT]
      refine h.idle_pair hp (fun r => ?_) (fun i r => ?_)
      · simp only [internalCloseTrade, hp, ht, ↓reduceIte, Game.set_player,
          Game.eraseTradeItem_player]
        by_cases hq : r = q <;> by_cases hpr : r = p <;> simp [hq, hpr]
      · simp only [internalCloseTrade, hp, ht, ↓reduceIte, Game.set_player, hne,
          Game.set_tradeItems, Game.eraseTradeItem_player, Game.eraseTradeItem_tradeItems]
        constructor
        · intro hi
          split at hi
          · cases hi
          · rename_i hq
            split at hi
            · cases hi
            · rename_i hp'
              have hit := (h.items i r).mp hi
              exact ⟨hi, fun e => hp' (e ▸ hit.1), fun e => hq (e ▸ hit.1)⟩
        · rintro ⟨hi, hrp, hrq⟩
          have hit := (h.items i r).mp hi
          rw [if_neg fun e => hrq (h.item_inj hit.2 hqT hit.1 e),
            if_neg fun e => hrp (h.item_inj hit.2 hpT hit.1 e)]
          exact hi

/-- Closing a trade leaves the players of a transfer alone. -/
theorem InvOn.closeTrade_of_mem (h : InvOn T g) (p : P) {r : P} (hr : r ∈ T) :
    (internalCloseTrade g p).player r = g.player r := by
  have hrt := (h.transfer_iff r).mpr hr
  cases hp : (g.player p).tradePartner with
  | none =>
    have hi := h.idle_of_none hp
    have hne : r ≠ p := fun e => by rw [e, hi] at hrt; cases hrt
    simp [internalCloseTrade, hi, Player.idle, hne]
  | some q =>
    by_cases ht : (g.player q).tradeState = .tradeTransfer ∨ (g.player p).tradeState = .tradeTransfer
    · simp [internalCloseTrade, hp, ht]
    · have hnp : r ≠ p := fun e => ht (Or.inr (e ▸ hrt))
      have hnq : r ≠ q := fun e => ht (Or.inl (e ▸ hrt))
      simp [internalCloseTrade, hp, ht, hnp, hnq]

/-- The trades closed during a transfer. -/
theorem InvOn.run_closeTrade : ∀ (cl : List P) {g : Game P I}, InvOn T g →
    InvOn T (run internalCloseTrade g cl) ∧
      ∀ r ∈ T, (run internalCloseTrade g cl).player r = g.player r
  | [], _, h => ⟨h, fun _ _ => rfl⟩
  | p :: cl, g, h => by
    obtain ⟨h1, h2⟩ := InvOn.run_closeTrade cl (h.closeTrade p)
    exact ⟨h1, fun r hr => (h2 r hr).trans (h.closeTrade_of_mem p hr)⟩

/-- What `internalStartTrade` can do: refuse, open a trade between two idle
players, or answer the partner's offer. -/
theorem startTrade_cases (h : Inv g) (p q : P) (i : I) :
    internalStartTrade g p q i = (false, g) ∨
    (g.player p = .idle ∧ g.player q = .idle ∧ internalStartTrade g p q i = (true,
      { player := Function.update (Function.update g.player p ⟨some q, .tradeInitiated, some i⟩) q
          ⟨some p, .tradeAcknowledge, none⟩,
        tradeItems := Function.update g.tradeItems i (some p) })) ∨
    ((g.player p).tradeState = .tradeAcknowledge ∧ (g.player p).tradePartner = some q ∧
      internalStartTrade g p q i = (true,
        { player := Function.update g.player p ⟨some q, .tradeInitiated, some i⟩,
          tradeItems := Function.update g.tradeItems i (some p) })) := by
  by_cases h1 : (g.player p).tradeState ≠ .tradeNone ∧
      ¬ ((g.player p).tradeState = .tradeAcknowledge ∧ (g.player p).tradePartner = some q)
  · left; simp only [internalStartTrade, if_pos h1]
  by_cases h2 : (g.player q).tradeState ≠ .tradeNone ∧ (g.player q).tradePartner ≠ some p
  · left; simp only [internalStartTrade, if_neg h1, if_pos h2]
  right
  by_cases hp : (g.player p).tradeState = .tradeNone
  · left
    have hpn := (h.none_iff p).mp hp
    have hq : (g.player q).tradeState = .tradeNone := by
      by_contra hq
      have hqp : (g.player q).tradePartner = some p := by
        by_contra hqp; exact h2 ⟨hq, hqp⟩
      rw [h.symm hqp] at hpn; cases hpn
    have hqi := h.idle_of_none ((h.none_iff q).mp hq)
    refine ⟨h.idle_of_none hpn, hqi, ?_⟩
    simp only [internalStartTrade, if_neg h1, if_neg h2, if_pos hq]
    simp only [hqi, Player.idle, Game.set]
  · right
    have hpa : (g.player p).tradeState = .tradeAcknowledge ∧ (g.player p).tradePartner = some q := by
      by_contra hc; exact h1 ⟨hp, hc⟩
    have hq : (g.player q).tradeState ≠ .tradeNone := fun hq => by
      have := (h.none_iff q).mp hq
      rw [h.symm hpa.2] at this; cases this
    refine ⟨hpa.1, hpa.2, ?_⟩
    simp only [internalStartTrade, if_neg h1, if_neg h2, if_neg hq, Game.set]

/-- A player changes his offer or his state within a trade. -/
theorem Inv.set_offer (h : Inv g) {p q : P} (hp : (g.player p).tradePartner = some q)
    {st : TradeState} (h0 : st ≠ .tradeNone) (ht : st ≠ .tradeTransfer) {it : Option I}
    (ha : st = .tradeAcknowledge → it = none) {ti : I → Option P}
    (hti : ∀ i r, ti i = some r ↔ if r = p then it = some i else g.tradeItems i = some r) :
    Inv ⟨Function.update g.player p ⟨some q, st, it⟩, ti⟩ := by
  have hpart : ∀ r, (Function.update g.player p ⟨some q, st, it⟩ r).tradePartner =
      (g.player r).tradePartner := fun r => by
    by_cases hr : r = p
    · subst hr; simp [hp]
    · simp [hr]
  constructor
  · intro r t hrt
    rw [hpart] at hrt ⊢; exact h.symm hrt
  · intro r
    rw [hpart]; exact h.irrefl r
  · intro r
    rw [hpart]
    by_cases hr : r = p
    · subst hr; simp [h0, hp]
    · simpa [hr] using h.none_iff r
  · intro r
    by_cases hr : r = p
    · subst hr; simp [ht]
    · simpa [hr] using h.transfer_iff r
  · intro r t hr; exact hr.elim
  · intro r hr
    rw [hpart] at hr
    by_cases hrp : r = p
    · subst hrp; rw [hp] at hr; cases hr
    · simpa [hrp] using h.item_none hr
  · intro r hr
    by_cases hrp : r = p
    · subst hrp; simpa using ha (by simpa using hr)
    · simp only [ne_eq, hrp, not_false_eq_true, Function.update_of_ne] at hr ⊢
      exact h.acknowledge hr
  · intro i r
    rw [hti]
    by_cases hrp : r = p
    · subst hrp; simp
    · simpa [hrp] using h.items i r

/-- Two idle players become partners. -/
theorem Inv.link (h : Inv g) {p q : P} (hpq : p ≠ q) (hp : g.player p = .idle)
    (hq : g.player q = .idle) :
    Inv ⟨Function.update (Function.update g.player p ⟨some q, .tradeAcknowledge, none⟩) q
      ⟨some p, .tradeAcknowledge, none⟩, g.tradeItems⟩ := by
  set f := Function.update (Function.update g.player p ⟨some q, .tradeAcknowledge, none⟩) q
    ⟨some p, .tradeAcknowledge, none⟩ with hf
  have hfp : f p = ⟨some q, .tradeAcknowledge, none⟩ := by simp [hf, hpq]
  have hfq : f q = ⟨some p, .tradeAcknowledge, none⟩ := by simp [hf]
  have hfr : ∀ {r}, ¬ (r = p ∨ r = q) → f r = g.player r := fun hr => by
    push Not at hr; simp [hf, hr]
  -- nobody else has one of the two as his partner
  have hout : ∀ {r t}, (g.player r).tradePartner = some t → ¬ (t = p ∨ t = q) := by
    rintro r t hr (rfl | rfl)
    · have := h.symm hr; rw [hp] at this; cases this
    · have := h.symm hr; rw [hq] at this; cases this
  constructor
  · intro r t hrt
    by_cases hr : r = p ∨ r = q
    · rcases hr with rfl | rfl
      · simp only [hfp, Option.some.injEq] at hrt; subst hrt; simp [hfq]
      · simp only [hfq, Option.some.injEq] at hrt; subst hrt; simp [hfp]
    · simp only [hfr hr] at hrt
      simp only [hfr (hout hrt)]; exact h.symm hrt
  · intro r
    by_cases hr : r = p ∨ r = q
    · rcases hr with rfl | rfl
      · simpa [hfp] using hpq.symm
      · simpa [hfq] using hpq
    · simpa [hfr hr] using h.irrefl r
  · intro r
    by_cases hr : r = p ∨ r = q
    · rcases hr with rfl | rfl
      · simp [hfp]
      · simp [hfq]
    · simpa [hfr hr] using h.none_iff r
  · intro r
    by_cases hr : r = p ∨ r = q
    · rcases hr with rfl | rfl
      · simp [hfp]
      · simp [hfq]
    · simpa [hfr hr] using h.transfer_iff r
  · intro r t hr; exact hr.elim
  · intro r hrn
    by_cases hr : r = p ∨ r = q
    · rcases hr with rfl | rfl
      · simp [hfp]
      · simp [hfq]
    · simp only [hfr hr] at hrn ⊢; exact h.item_none hrn
  · intro r hra
    by_cases hr : r = p ∨ r = q
    · rcases hr with rfl | rfl
      · simp [hfp]
      · simp [hfq]
    · simp only [hfr hr] at hra ⊢; exact h.acknowledge hra
  · intro i r
    have hir := h.items i r
    by_cases hr : r = p ∨ r = q
    · rcases hr with rfl | rfl
      · rw [hp] at hir; simpa [hfp, Player.idle] using hir
      · rw [hq] at hir; simpa [hfq, Player.idle] using hir
    · simpa [hfr hr] using hir

/-- `Game::internalStartTrade` -/
theorem inv_startTrade (h : Inv g) {p q : P} {i : I} (hpq : p ≠ q) (hi : g.tradeItems i = none) :
    Inv (internalStartTrade g p q i).2 := by
  -- an offer of `i` by a player without one
  have hoffer : ∀ {g' : Game P I}, Inv g' → g'.tradeItems = g.tradeItems →
      (g'.player p).tradePartner = some q → (g'.player p).tradeItem = none →
      Inv ⟨Function.update g'.player p ⟨some q, .tradeInitiated, some i⟩,
        Function.update g'.tradeItems i (some p)⟩ := by
    intro g' h' hg' hp hn
    refine h'.set_offer hp (by simp) (by simp) (by simp) fun j r => ?_
    have hjr := h'.items j r
    by_cases hj : j = i
    · subst hj
      by_cases hr : r = p
      · simp [hr]
      · simp [hr, Ne.symm hr, hg', hi]
    · by_cases hr : r = p
      · subst hr; rw [hn] at hjr; simpa [hj, Ne.symm hj] using hjr
      · simp [hj, hr]
  rcases startTrade_cases h p q i with e | ⟨hp, hq, e⟩ | ⟨hpa, hpp, e⟩
  · rw [e]; exact h
  · rw [e]
    have := hoffer (h.link hpq hp hq) rfl (by simp [hpq]) (by simp [hpq])
    rwa [Function.update_comm hpq, Function.update_idem, Function.update_comm hpq.symm] at this
  · rw [e]
    exact hoffer h rfl hpp (h.acknowledge hpa)

/-- The partners enter the transfer. -/
theorem Inv.begin_transfer (h : Inv g) {p q : P} (hpq : (g.player p).tradePartner = some q) :
    InvOn {p, q} (g.beginTransfer p q) := by
  have hqp := h.symm hpq
  have hne : q ≠ p := fun e => h.irrefl p (e ▸ hpq)
  set g' := g.beginTransfer p q with hg'
  have hpl : ∀ r, g'.player r = if r = p ∨ r = q then
      { g.player r with tradeState := .tradeTransfer } else g.player r := by
    intro r
    simp only [hg', Game.beginTransfer, Game.eraseTradeItem_player, Game.setTradeState_player]
    by_cases h1 : r = q <;> by_cases h2 : r = p <;> simp [h1, h2, hne]
  have hpart : ∀ r, (g'.player r).tradePartner = (g.player r).tradePartner := fun r => by
    rw [hpl]; split <;> rfl
  have hitem : ∀ r, (g'.player r).tradeItem = (g.player r).tradeItem := fun r => by
    rw [hpl]; split <;> rfl
  have hst : ∀ {r}, r = p ∨ r = q → (g'.player r).tradeState = .tradeTransfer := fun hr => by
    rw [hpl, if_pos hr]
  have hkeep : ∀ {r}, ¬ (r = p ∨ r = q) → g'.player r = g.player r := fun hr => by
    rw [hpl, if_neg hr]
  constructor
  · intro r t hrt
    rw [hpart] at hrt ⊢; exact h.symm hrt
  · intro r
    rw [hpart]; exact h.irrefl r
  · intro r
    rw [hpart]
    by_cases hr : r = p ∨ r = q
    · rw [hst hr]; rcases hr with rfl | rfl <;> simp [hpq, hqp]
    · rw [hkeep hr]; exact h.none_iff r
  · intro r
    by_cases hr : r = p ∨ r = q
    · rw [hst hr]; simpa using hr
    · rw [hkeep hr, h.transfer_iff]; simpa using hr
  · intro r t hr hrt
    rw [hpart] at hrt
    rcases hr with rfl | hr
    · exact Or.inr (Option.some.inj (hrt.symm.trans hpq))
    · rw [Set.mem_singleton_iff.mp hr] at hrt
      exact Or.inl (Option.some.inj (hrt.symm.trans hqp))
  · intro r hr
    rw [hpart] at hr; rw [hitem]; exact h.item_none hr
  · intro r hr
    rw [hitem]
    by_cases hrn : r = p ∨ r = q
    · rw [hst hrn] at hr; cases hr
    · rw [hkeep hrn] at hr; exact h.acknowledge hr
  · intro i r
    rw [hitem]
    simp only [hg', Game.beginTransfer, Game.eraseTradeItem_tradeItems,
      Game.setTradeState_tradeItems, Set.mem_insert_iff, Set.mem_singleton_iff, not_or]
    have hir := h.items i r
    by_cases h2 : (g.player q).tradeItem = some i
    · rw [if_pos h2]
      refine ⟨nofun, fun ⟨he, _, hr⟩ => ?_⟩
      exact absurd (h.item_inj (Set.notMem_empty _) (Set.notMem_empty _) he h2) hr
    · rw [if_neg h2]
      by_cases h1 : (g.player p).tradeItem = some i
      · rw [if_pos h1]
        refine ⟨nofun, fun ⟨he, hr, _⟩ => ?_⟩
        exact absurd (h.item_inj (Set.notMem_empty _) (Set.notMem_empty _) he h1) hr
      · rw [if_neg h1, hir]
        refine ⟨fun ⟨he, _⟩ => ⟨he, ?_, ?_⟩, fun ⟨he, _⟩ => ⟨he, Set.notMem_empty _⟩⟩
        · rintro rfl; exact h1 he
        · rintro rfl; exact h2 he

/-- What `playerAcceptTrade` can do: nothing, note the acceptance, close a
vetoed trade, or make the transfer and end the trade. -/
theorem acceptTrade_cases (g : Game P I) (p : P) (c a : Bool) (cl : List P) :
    playerAcceptTrade g p c a cl = g ∨
    ∃ q, (g.player p).tradePartner = some q ∧
      ((g.player p).tradeState = .tradeAcknowledge ∨ (g.player p).tradeState = .tradeInitiated) ∧
      let g1 := g.setTradeState p .tradeAccept
      ((g1.player q).tradeState ≠ .tradeAccept ∧ playerAcceptTrade g p c a cl = g1) ∨
      ((g1.player q).tradeState = .tradeAccept ∧ playerAcceptTrade g p c a cl = internalCloseTrade g1 p) ∨
      ((g1.player q).tradeState = .tradeAccept ∧ playerAcceptTrade g p c a cl =
        ((run internalCloseTrade (g1.beginTransfer p q) cl).set p .idle).set q .idle) := by
  unfold playerAcceptTrade
  by_cases hs : (g.player p).tradeState = .tradeAcknowledge ∨ (g.player p).tradeState = .tradeInitiated
  · cases hp : (g.player p).tradePartner with
    | none => left; simp [hp]
    | some q =>
      cases c with
      | false => left; simp [hp]
      | true =>
        right
        refine ⟨q, rfl, hs, ?_⟩
        simp only [hs, not_true_eq_false, ↓reduceIte, Bool.not_true, Bool.false_eq_true, hp]
        split
        · rename_i hq
          cases a with
          | false => right; left; exact ⟨hq, rfl⟩
          | true => right; right; exact ⟨hq, rfl⟩
        · rename_i hq
          left; exact ⟨hq, rfl⟩
  · left; simp [hs]

/-- `Game::playerAcceptTrade` -/
theorem inv_acceptTrade (h : Inv g) (p : P) (c a : Bool) (cl : List P) :
    Inv (playerAcceptTrade g p c a cl) := by
  rcases acceptTrade_cases g p c a cl with e | ⟨q, hpq, -, hc⟩
  · rw [e]; exact h
  have h1 : Inv (g.setTradeState p .tradeAccept) := by
    have hti : ∀ i r, g.tradeItems i = some r ↔
        if r = p then (g.player p).tradeItem = some i else g.tradeItems i = some r := fun i r => by
      by_cases hr : r = p
      · subst hr; simpa using h.items i r
      · simp [hr]
    have := h.set_offer hpq (by simp : TradeState.tradeAccept ≠ .tradeNone) (by simp) (by simp) hti
    simpa [Game.setTradeState, Game.set, hpq] using this
  rcases hc with ⟨-, e⟩ | ⟨-, e⟩ | ⟨-, e⟩
  · rw [e]; exact h1
  · rw [e]; exact h1.closeTrade p
  · rw [e]
    set g1 := g.setTradeState p .tradeAccept with hg1
    have hpq1 : (g1.player p).tradePartner = some q := by simp [hg1, hpq]
    obtain ⟨h2, h3⟩ := InvOn.run_closeTrade cl (h1.begin_transfer hpq1)
    have hpq3 : ((g1.beginTransfer p q).player p).tradePartner = some q := by
      have hq : p ≠ q := fun hq => h1.irrefl p (by rw [hpq1, hq])
      simp [Game.beginTransfer, hpq1, hq]
    set g4 := run internalCloseTrade (g1.beginTransfer p q) cl with hg4
    have hpq4 : (g4.player p).tradePartner = some q := by rw [h3 p (by simp), hpq3]
    have hpl : ∀ r, ((g4.set p .idle).set q .idle).player r =
        if r = p ∨ r = q then .idle else g4.player r := fun r => by
      by_cases h5 : r = q <;> by_cases h6 : r = p <;> simp [h5, h6]
    have := h2.idle_pair hpq4 hpl fun i r => by
      simp only [Game.set_tradeItems]
      have := h2.items i r
      simp only [Set.mem_insert_iff, Set.mem_singleton_iff, not_or] at this
      tauto
    rwa [sdiff_self, Set.bot_eq_empty] at this

theorem inv_step (h : Inv g) : ∀ a : Action P I, Legal g a → Inv (step g a)
  | .startTrade _ _ _, ha => inv_startTrade h ha.1 ha.2
  | .acceptTrade p c a cl, _ => inv_acceptTrade h p c a cl
  | .closeTrade p, _ => h.closeTrade p

end Steps

/-- A game that some legal sequence of calls reaches from no trades. -/
def Reachable (g : Game P I) : Prop :=
  ∃ as : List (Action P I), Along step Legal Game.init as ∧ run step Game.init as = g

theorem reachable_inv {g : Game P I} (h : Reachable g) : Inv g := by
  obtain ⟨as, hl, rfl⟩ := h
  exact run_inv (P := Legal) (fun _ a hg ha => inv_step hg a ha) as inv_init hl

/-- **The trade state is symmetric.** In every reachable state the partner
relation is symmetric, exactly the players in `TRADE_NONE` have no partner,
nobody is in `TRADE_TRANSFER`, only a player with a partner offers an item,
and `tradeItems` maps exactly the offered items to the players who offer
them, so no item is on offer twice. -/
theorem trade_symmetric (g : Game P I) (h : Reachable g) :
    (∀ p q, (g.player p).tradePartner = some q ↔ (g.player q).tradePartner = some p) ∧
    (∀ p, (g.player p).tradeState = .tradeNone ↔ (g.player p).tradePartner = none) ∧
    (∀ p, (g.player p).tradeState ≠ .tradeTransfer) ∧
    (∀ p, (g.player p).tradeItem ≠ none → (g.player p).tradePartner ≠ none) ∧
    (∀ i p, g.tradeItems i = some p ↔ (g.player p).tradeItem = some i) ∧
    (∀ i p q, (g.player p).tradeItem = some i → (g.player q).tradeItem = some i → p = q) := by
  have hI := reachable_inv h
  refine ⟨fun p q => ⟨hI.symm, hI.symm⟩, hI.none_iff, fun p hp => ?_, fun p hi hp => ?_,
    fun i p => ?_, fun i p q => hI.item_inj (Set.notMem_empty _) (Set.notMem_empty _)⟩
  · exact (hI.transfer_iff p).mp hp
  · exact hi (hI.item_none hp)
  · simpa using hI.items i p

/-- Two trades under way: 0 and 1 have offered and 0 has accepted, 2 has
offered to 3. -/
theorem trade_symmetric_run :
    let as : List (Action ℕ ℕ) := [.startTrade 0 1 10, .startTrade 1 0 20,
      .acceptTrade 0 true true [], .startTrade 2 3 30]
    let g : Game ℕ ℕ := run step Game.init as
    (g.player 0).tradeState = .tradeAccept ∧ (g.player 3).tradeState = .tradeAcknowledge ∧
      ∀ p q, (g.player p).tradePartner = some q ↔ (g.player q).tradePartner = some p := by
  intro as g
  have hl : Along step Legal Game.init as :=
    ⟨⟨by decide, rfl⟩, ⟨by decide, rfl⟩, trivial, ⟨by decide, rfl⟩, trivial⟩
  exact ⟨rfl, rfl, (trade_symmetric g ⟨as, hl, rfl⟩).1⟩

end Trade
end ForgottenServer
