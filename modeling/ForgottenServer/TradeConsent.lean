/-
# Acceptance and offers in a trade

Whether the acceptance that completes a trade was given with both items on
offer. `TRADE_ACCEPT` is a state that the partner's later `internalStartTrade`
leaves as it is, and `playerAcceptTrade` takes an acceptance from a player in
`TRADE_INITIATED` whose partner is still in `TRADE_ACKNOWLEDGE`: so a player
can be held to an acceptance he gave before he was offered anything
(`consent_fails`). In the runs where nobody accepts while he or his partner
is in `TRADE_ACKNOWLEDGE` every transfer is one that both have accepted with
both items on offer (`informed_of_no_early_accept`).

The law is about the order of steps, so it is stated on runs with their past
(`Run.Hist`); the invariant keeps, for every player in `TRADE_ACCEPT`, the
step in which he accepted and that the two offers are still those of that
step.
-/
import ForgottenServer.Trade

set_option linter.unusedSectionVars false

namespace ForgottenServer
namespace Trade

open Run

variable {P I : Type*} [DecidableEq P] [DecidableEq I]

/-! ### Acceptances and transfers -/

/-- The action is an accepting step of `p`: it sets `TRADE_ACCEPT`. -/
def Accepts (g : Game P I) (p : P) : Action P I → Prop
  | .acceptTrade r c _ _ => r = p ∧ c = true ∧ (g.player p).tradePartner ≠ none ∧
      ((g.player p).tradeState = .tradeAcknowledge ∨ (g.player p).tradeState = .tradeInitiated)
  | _ => False

/-- The action makes the transfer between `p`, who accepts, and `q`. -/
def Transfers (g : Game P I) (p q : P) : Action P I → Prop
  | .acceptTrade r c a cl => Accepts g p (.acceptTrade r c a cl) ∧ a = true ∧
      (g.player p).tradePartner = some q ∧ (g.player q).tradeState = .tradeAccept
  | _ => False

/-- The past of a run, newest step first. -/
abbrev Past (P I : Type*) := List (Game P I × Action P I)

/-- `p` accepted in a step of the past, has been in `TRADE_ACCEPT` since, and
the items he and `q` offer now were both on offer in that step already. -/
def Consented (h : Past P I) (g : Game P I) (p q : P) : Prop :=
  ∃ h1 e h2, h = h1 ++ e :: h2 ∧ Accepts e.1 p e.2 ∧
    (∀ x ∈ h1, (x.1.player p).tradeState = .tradeAccept) ∧
    (∀ r, r = p ∨ r = q → (e.1.player r).tradeItem ≠ none ∧
      (e.1.player r).tradeItem = (g.player r).tradeItem)

/-- Both parties of every transfer have accepted with both items on offer:
the one who accepts now, and his partner in an earlier step. -/
def Informed (h : Past P I) (g : Game P I) (a : Action P I) : Prop :=
  ∀ p q, Transfers g p q a →
    (g.player p).tradeItem ≠ none ∧ (g.player q).tradeItem ≠ none ∧ Consented h g q p

/-! ### What a step does to one player -/

/-- He stays as he is, loses his trade, accepts, or enters a trade or offers
in it. -/
inductive Change (g : Game P I) (a : Action P I) (p : P) (x : Player P I) : Prop
  | same (h : x = g.player p)
  | idle (h : x = .idle)
  | accept (h : Accepts g p a) (hx : x = { g.player p with tradeState := .tradeAccept })
  | offer (h : (g.player p).tradeItem = none) (ha : x.tradeState ≠ .tradeAccept)
      (hi : x.tradeState = .tradeInitiated → x.tradeItem ≠ none)

theorem closeTrade_player (g : Game P I) (p r : P) :
    (internalCloseTrade g p).player r = g.player r ∨ (internalCloseTrade g p).player r = .idle := by
  cases hp : (g.player p).tradePartner with
  | none =>
    simp only [internalCloseTrade, hp]
    split_ifs
    · exact Or.inl rfl
    · by_cases h : r = p <;> simp [h]
  | some q =>
    simp only [internalCloseTrade, hp]
    split_ifs
    · exact Or.inl rfl
    · by_cases h : r = q <;> by_cases h' : r = p <;> simp [h, h']

theorem run_closeTrade_player : ∀ (cl : List P) (g : Game P I) (r : P),
    (run internalCloseTrade g cl).player r = g.player r ∨
      (run internalCloseTrade g cl).player r = .idle
  | [], _, _ => Or.inl rfl
  | p :: cl, g, r => by
    rcases run_closeTrade_player cl (internalCloseTrade g p) r with h | h
    · rcases closeTrade_player g p r with h' | h'
      · exact Or.inl (h.trans h')
      · exact Or.inr (h.trans h')
    · exact Or.inr h

theorem startTrade_change {g : Game P I} (hg : Inv g) (r t : P) (i : I) (p : P) :
    Change g (.startTrade r t i) p ((internalStartTrade g r t i).2.player p) := by
  rcases startTrade_cases hg r t i with e | ⟨hr, ht, e⟩ | ⟨hra, hrp, e⟩
  · rw [e]; exact .same rfl
  · rw [e]
    by_cases h1 : p = t
    · subst h1
      exact .offer (by rw [ht]; rfl) (by simp) (by simp)
    · by_cases h2 : p = r
      · subst h2
        exact .offer (by rw [hr]; rfl) (by simp [h1]) (by simp [h1])
      · exact .same (by simp [h1, h2])
  · rw [e]
    by_cases h2 : p = r
    · subst h2
      exact .offer (hg.acknowledge hra) (by simp) (by simp)
    · exact .same (by simp [h2])

theorem acceptTrade_change {g : Game P I} (r : P) (c a : Bool) (cl : List P) (p : P) :
    Change g (.acceptTrade r c a cl) p ((playerAcceptTrade g r c a cl).player p) := by
  cases c with
  | false =>
    have : playerAcceptTrade g r false a cl = g := by
      unfold playerAcceptTrade
      dsimp only
      split
      · rfl
      · split <;> rfl
    rw [this]; exact .same rfl
  | true =>
    rcases acceptTrade_cases g r true a cl with e | ⟨q, hq, hs, hc⟩
    · rw [e]; exact .same rfl
    -- he who accepts, or anybody else, before the trade is closed or ended
    have h1 : Change g (.acceptTrade r true a cl) p ((g.setTradeState r .tradeAccept).player p) := by
      by_cases hp : p = r
      · subst hp
        exact .accept ⟨rfl, rfl, by simp [hq], hs⟩ (by simp)
      · exact .same (by simp [hp])
    rcases hc with ⟨-, e⟩ | ⟨-, e⟩ | ⟨-, e⟩
    · rw [e]; exact h1
    · rw [e]
      rcases closeTrade_player (g.setTradeState r .tradeAccept) r p with h | h
      · rw [h]; exact h1
      · exact .idle h
    · rw [e]
      by_cases hp : p = q ∨ p = r
      · exact .idle (by rcases hp with rfl | rfl <;> simp)
      · push Not at hp
        simp only [Game.set_player, hp.1, hp.2, ↓reduceIte]
        rcases run_closeTrade_player cl ((g.setTradeState r .tradeAccept).beginTransfer r q) p
          with h | h
        · exact .same (by rw [h]; simp [Game.beginTransfer, hp.1, hp.2])
        · exact .idle h

theorem step_change {g : Game P I} (hg : Inv g) (a : Action P I) (p : P) :
    Change g a p ((step g a).player p) := by
  cases a with
  | startTrade r t i => exact startTrade_change hg r t i p
  | acceptTrade r c a cl => exact acceptTrade_change r c a cl p
  | closeTrade r =>
    rcases closeTrade_player g r p with h | h
    · exact .same h
    · exact .idle h

/-! ### The runs without early acceptances -/

/-- Nobody accepts while he or his partner is in `TRADE_ACKNOWLEDGE`, the
state of a player who has been asked for a trade and has not offered yet. -/
def NoEarlyAccept (g : Game P I) : Action P I → Prop
  | .acceptTrade p _ _ _ => (g.player p).tradeState ≠ .tradeAcknowledge ∧
      ∀ q, (g.player p).tradePartner = some q → (g.player q).tradeState ≠ .tradeAcknowledge
  | _ => True

/-- The invariant of these runs. -/
structure ConsentInv (h : Past P I) (g : Game P I) : Prop where
  inv : Inv g
  initiated : ∀ p, (g.player p).tradeState = .tradeInitiated → (g.player p).tradeItem ≠ none
  consent : ∀ p q, (g.player p).tradeState = .tradeAccept → (g.player p).tradePartner = some q →
    Consented h g p q

theorem ConsentInv.item_of_accept {h : Past P I} {g : Game P I} (hI : ConsentInv h g) {p q : P}
    (hp : (g.player p).tradeState = .tradeAccept) (hpq : (g.player p).tradePartner = some q) :
    (g.player p).tradeItem ≠ none ∧ (g.player q).tradeItem ≠ none := by
  obtain ⟨_, _, _, _, _, _, hi⟩ := hI.consent p q hp hpq
  exact ⟨fun hn => (hi p (Or.inl rfl)).1 ((hi p (Or.inl rfl)).2.trans hn),
    fun hn => (hi q (Or.inr rfl)).1 ((hi q (Or.inr rfl)).2.trans hn)⟩

/-- A player with a partner who is not in `TRADE_ACKNOWLEDGE` has an item on
offer. -/
theorem ConsentInv.item {h : Past P I} {g : Game P I} (hI : ConsentInv h g) {p q : P}
    (hp : (g.player p).tradeState ≠ .tradeAcknowledge) (hpq : (g.player p).tradePartner = some q) :
    (g.player p).tradeItem ≠ none := by
  cases hs : (g.player p).tradeState with
  | tradeNone => rw [(hI.inv.none_iff p).mp hs] at hpq; cases hpq
  | tradeInitiated => exact hI.initiated p hs
  | tradeAccept => exact (hI.item_of_accept hs hpq).1
  | tradeAcknowledge => exact absurd hs hp
  | tradeTransfer => exact ((hI.inv.transfer_iff p).mp hs).elim

/-- An item on offer stays on offer as long as its player has a partner. -/
theorem item_stays {g : Game P I} (hg : Inv g) {a : Action P I} {p q : P}
    (hi : (g.player p).tradeItem ≠ none) (hpq : ((step g a).player p).tradePartner = some q) :
    (g.player p).tradeItem = ((step g a).player p).tradeItem := by
  cases step_change hg a p with
  | same h => rw [h]
  | idle h => rw [h] at hpq; cases hpq
  | accept _ h => rw [h]
  | offer h => exact absurd h hi

theorem consentInv_step {h : Past P I} {g : Game P I} {a : Action P I} (hI : ConsentInv h g)
    (hl : Legal g a) (ha : NoEarlyAccept g a) : ConsentInv ((g, a) :: h) (step g a) where
  inv := inv_step hI.inv a hl
  initiated p hp := by
    cases step_change hI.inv a p with
    | same h => rw [h] at hp ⊢; exact hI.initiated p hp
    | idle h => rw [h] at hp; cases hp
    | accept _ h => rw [h] at hp; cases hp
    | offer _ _ hi => exact hi hp
  consent p q hp hpq := by
    have hI' := inv_step hI.inv a hl
    have hqp := hI'.symm hpq
    cases step_change hI.inv a p with
    | same hs =>
      rw [hs] at hp hpq
      obtain ⟨h1, e, h2, rfl, he, hst, hi⟩ := hI.consent p q hp hpq
      obtain ⟨-, hq⟩ := hI.item_of_accept hp hpq
      refine ⟨(g, a) :: h1, e, h2, rfl, he, ?_, ?_⟩
      · intro x hx
        rcases List.mem_cons.mp hx with rfl | hx
        · exact hp
        · exact hst x hx
      · rintro r (rfl | rfl)
        · rw [hs]; exact hi r (Or.inl rfl)
        · exact ⟨(hi r (Or.inr rfl)).1, (hi r (Or.inr rfl)).2.trans (item_stays hI.inv hq hqp)⟩
    | idle hs => rw [hs] at hp; cases hp
    | accept hacc hs =>
      have hpq' : (g.player p).tradePartner = some q := by rw [hs] at hpq; exact hpq
      have hn : (g.player p).tradeState ≠ .tradeAcknowledge ∧
          (g.player q).tradeState ≠ .tradeAcknowledge := by
        cases a with
        | acceptTrade r c ap cl =>
          obtain ⟨rfl, -⟩ := hacc
          exact ⟨ha.1, ha.2 q hpq'⟩
        | startTrade => exact hacc.elim
        | closeTrade => exact hacc.elim
      have h1 := hI.item hn.1 hpq'
      have h2 := hI.item hn.2 (hI.inv.symm hpq')
      refine ⟨[], (g, a), h, rfl, hacc, nofun, ?_⟩
      rintro r (rfl | rfl)
      · exact ⟨h1, item_stays hI.inv h1 hpq⟩
      · exact ⟨h2, item_stays hI.inv h2 hqp⟩
    | offer _ hna => exact absurd hp hna

theorem consentInv_init : ConsentInv [] (Game.init : Game P I) where
  inv := inv_init
  initiated p hp := by cases hp
  consent p q hp := by cases hp

/-! ### The theorems -/

/-- **Consent in the runs without early acceptances.** If no step of the run
is an acceptance by a player who is in `TRADE_ACKNOWLEDGE` or whose partner
is, both parties of every transfer have accepted with both items on offer. -/
theorem informed_of_no_early_accept {h : Past P I} {g : Game P I} (a : Action P I)
    (hr : Hist step (fun g a => Legal g a ∧ NoEarlyAccept g a) Game.init h g) :
    Informed h g a := by
  have hI : ConsentInv h g :=
    hr.inv consentInv_init fun _ _ _ hI ha => consentInv_step hI ha.1 ha.2
  intro p q ht
  cases a with
  | acceptTrade r c ap cl =>
    obtain ⟨-, -, hpq, hq⟩ := ht
    have hqp := hI.inv.symm hpq
    obtain ⟨h1, h2⟩ := hI.item_of_accept hq hqp
    exact ⟨h2, h1, hI.consent q p hq hqp⟩
  | startTrade => exact ht.elim
  | closeTrade => exact ht.elim

/-- Both offer, then both accept: the run ahead of the second acceptance. -/
theorem informed_of_no_early_accept_run :
    let as : List (Action ℕ ℕ) := [.startTrade 0 1 10, .startTrade 1 0 20,
      .acceptTrade 0 true true []]
    let g : Game ℕ ℕ := run step Game.init as
    Transfers g 1 0 (.acceptTrade 1 true true []) ∧
      ∃ h, Informed h g (.acceptTrade 1 true true []) := by
  intro as g
  have hr : Hist step (fun g a => Legal g a ∧ NoEarlyAccept g a) Game.init
      [(run step Game.init (as.take 2), .acceptTrade 0 true true []),
        (run step Game.init (as.take 1), .startTrade 1 0 20), (Game.init, .startTrade 0 1 10)] g := by
    refine .step _ (.step _ (.step _ .nil ?_) ?_) ?_
    · exact ⟨⟨by decide, rfl⟩, trivial⟩
    · exact ⟨⟨by decide, rfl⟩, trivial⟩
    · refine ⟨trivial, by decide, fun q hq => ?_⟩
      obtain rfl : 1 = q := Option.some.inj hq
      decide
  exact ⟨⟨⟨rfl, rfl, by decide, by decide⟩, rfl, rfl, rfl⟩, _, informed_of_no_early_accept _ hr⟩

/-- **An acceptance given before the counter-offer completes the trade.** The
player 0 offers an item and accepts while 1 has offered nothing; when 1 then
offers and accepts, the transfer is made. -/
theorem consent_fails : ¬ ∀ (h : Past ℕ ℕ) (g : Game ℕ ℕ) (a : Action ℕ ℕ),
    Hist step Legal Game.init h g → Legal g a → Informed h g a := by
  intro hall
  let as : List (Action ℕ ℕ) := [.startTrade 0 1 10, .acceptTrade 0 true true [], .startTrade 1 0 20]
  have hr : Hist step Legal Game.init
      [(run step Game.init (as.take 2), .startTrade 1 0 20),
        (run step Game.init (as.take 1), .acceptTrade 0 true true []),
        (Game.init, .startTrade 0 1 10)] (run step Game.init as) := by
    refine .step _ (.step _ (.step _ .nil ?_) ?_) ?_
    · exact ⟨by decide, rfl⟩
    · trivial
    · exact ⟨by decide, rfl⟩
  obtain ⟨-, -, h1, e, h2, hh, he, -, hi⟩ := hall _ _ (.acceptTrade 1 true true []) hr trivial 1 0
    ⟨⟨rfl, rfl, by decide, by decide⟩, rfl, rfl, rfl⟩
  -- the only acceptance of 0 is the second step, and 1 has no item there
  have hmem : e ∈ h1 ++ e :: h2 := by simp
  rw [← hh] at hmem
  simp only [List.mem_cons, List.not_mem_nil, or_false] at hmem
  rcases hmem with rfl | rfl | rfl
  · exact he
  · exact (hi 1 (Or.inr rfl)).1 rfl
  · exact he

end Trade
end ForgottenServer
