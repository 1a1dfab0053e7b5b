/-
# Holders that hold each other

What holds an item may be held itself, and nothing holds itself at any depth
(`Nested`). The things that hold an item are then fewer than all things, which
bounds every way up (`Nested.depth_le`), and putting something in, where it does
not come to hold itself, or taking it out keeps this.

Each holder keeps a total of what it holds at any depth (`Totals`). When the
things in one holder change, the difference is to be added to that holder and to
all that hold it, and to no others (`Totals.spread`).

Key definitions: `Nested`, `Nested.depth`, `inside`, `below`, `Totals`.
Key theorems: `Nested.update_some`, `Totals.spread`, `Totals.total_eq`.
-/
import ForgottenServer.Lib.Ancestry
import Mathlib.Algebra.BigOperators.Group.Finset.Basic
import Mathlib.Algebra.BigOperators.Group.List.Basic
import Mathlib.Data.Finset.Card
import Mathlib.Tactic.Common

namespace ForgottenServer
namespace Nesting

open Ancestry Relation

variable {α : Type*} {holder holder' : α → Option α} {S : Finset α} {q r x y z : α}

/-- What holds something and what is held is among `S`, and nothing holds itself. -/
structure Nested (S : Finset α) (holder : α → Option α) : Prop where
  mem : ∀ {q r}, holder r = some q → q ∈ S ∧ r ∈ S
  acyclic : ∀ r, ¬ TransGen (Parent holder) r r

/-- There is one holder. -/
theorem rightUnique_parent (holder : α → Option α) : Relator.RightUnique (Parent holder) :=
  fun _ _ _ h h' => Option.some.inj (h.symm.trans h')

/-- What holds the same thing holds one another. -/
theorem holds_total (hx : ReflTransGen (Parent holder) r x) (hy : ReflTransGen (Parent holder) r y) :
    ReflTransGen (Parent holder) x y ∨ ReflTransGen (Parent holder) y x :=
  ReflTransGen.total_of_right_unique (rightUnique_parent holder) hx hy

namespace Nested

section Depth

open scoped Classical in
/-- How many things hold this one. -/
noncomputable def depth (_ : Nested S holder) (r : α) : ℕ :=
  (S.filter fun q => TransGen (Parent holder) r q).card

theorem depth_lt (h : Nested S holder) (hr : holder r = some q) : h.depth q < h.depth r := by
  classical
  unfold depth
  refine Finset.card_lt_card ((Finset.ssubset_iff_of_subset fun x hx => ?_).2 ⟨q, ?_, ?_⟩)
  · rw [Finset.mem_filter] at hx ⊢
    exact ⟨hx.1, .head hr hx.2⟩
  · rw [Finset.mem_filter]
    exact ⟨(h.mem hr).1, .single hr⟩
  · rw [Finset.mem_filter]
    exact fun hq => h.acyclic q hq.2

theorem depth_le (h : Nested S holder) (r : α) : h.depth r ≤ S.card := by
  classical
  exact Finset.card_filter_le _ _

end Depth

/-- Two things that hold the same one and lie in the same are the same. -/
theorem eq_of_holder (h : Nested S holder) (hx : ReflTransGen (Parent holder) r x)
    (hy : ReflTransGen (Parent holder) r y) (hxz : holder x = some z) (hyz : holder y = some z) : x = y := by
  have hno {a b : α} (ha : holder a = some z) (hb : holder b = some z)
      (hab : ReflTransGen (Parent holder) a b) : a = b := by
    rcases ReflTransGen.cases_head hab with rfl | ⟨c, hac, hcb⟩
    · rfl
    · obtain rfl := Option.some.inj (ha.symm.trans hac)
      exact absurd (TransGen.tail' hcb hb) (h.acyclic z)
  rcases holds_total hx hy with hxy | hyx
  · exact hno hxz hyz hxy
  · exact (hno hyz hxz hyx).symm

theorem mono (h : Nested S holder) (hsub : ∀ q r, holder' r = some q → holder r = some q) :
    Nested S holder' where
  mem hr := h.mem (hsub _ _ hr)
  acyclic r hr := h.acyclic r (hr.lift id fun r q => hsub q r)

/-- A thing that is held by nothing is put into another that it does not hold. -/
theorem update_some [DecidableEq α] (h : Nested S holder) (hq : q ∈ S) (hr : r ∈ S)
    (hnot : ¬ ReflTransGen (Parent holder) q r) : Nested S (Function.update holder r (some q)) where
  mem {q' r'} hr' := by
    by_cases he : r' = r
    · subst he
      rw [Function.update_self] at hr'
      exact Option.some.inj hr' ▸ ⟨hq, hr⟩
    · rw [Function.update_of_ne he] at hr'
      exact h.mem hr'
  acyclic x hx := by
    have hparent {a c : α} (hne : a ≠ r) (hac : Parent (Function.update holder r (some q)) a c) :
        Parent holder a c := (Function.update_of_ne hne ..).symm.trans hac
    have hthing {c : α} (hrc : Parent (Function.update holder r (some q)) r c) : q = c := by
      unfold Parent at hrc
      rw [Function.update_self] at hrc
      exact Option.some.inj hrc
    -- a way up that does not come by the thing is an old one
    have hold {a b : α} (hab : ReflTransGen (Parent (Function.update holder r (some q))) a b) :
        ReflTransGen (Parent holder) a b ∨ ReflTransGen (Parent holder) a r := by
      induction hab using ReflTransGen.head_induction_on with
      | refl => exact .inl .refl
      | @head a c hac _ ih =>
        by_cases he : a = r
        · exact .inr (he ▸ .refl)
        · exact ih.imp (.head (hparent he hac)) (.head (hparent he hac))
    have hcycle {a b : α} (hab : TransGen (Parent (Function.update holder r (some q))) a b) :
        TransGen (Parent holder) a b ∨ ReflTransGen (Parent holder) a r ∧
          ReflTransGen (Parent (Function.update holder r (some q))) q b := by
      induction hab using TransGen.head_induction_on with
      | @single a hab =>
        by_cases he : a = r
        · subst he
          exact .inr ⟨.refl, hthing hab ▸ .refl⟩
        · exact .inl (.single (hparent he hab))
      | @head a c hac hcb ih =>
        by_cases he : a = r
        · subst he
          exact .inr ⟨.refl, hthing hac ▸ hcb.to_reflTransGen⟩
        · exact ih.imp (.head (hparent he hac)) fun h => ⟨.head (hparent he hac) h.1, h.2⟩
    rcases hcycle hx with hx | ⟨hxr, hqx⟩
    · exact h.acyclic x hx
    rcases hold hqx with hqx | hqr
    · exact hnot (hqx.trans hxr)
    · exact hnot hqr

end Nested

/-! ### What lies inside -/

section Inside

variable {items : α → List α}

open scoped Classical in
/-- What a thing holds at any depth. -/
noncomputable def inside (S : Finset α) (holder : α → Option α) (q : α) : Finset α :=
  S.filter fun r => TransGen (Parent holder) r q

theorem mem_inside (h : Nested S holder) : r ∈ inside S holder q ↔ TransGen (Parent holder) r q := by
  classical
  unfold inside
  rw [Finset.mem_filter]
  refine ⟨And.right, fun hr => ⟨?_, hr⟩⟩
  obtain ⟨y, hy, -⟩ := TransGen.head'_iff.1 hr
  exact (h.mem hy).2

open scoped Classical in
/-- Some things, and what they hold at any depth. -/
noncomputable def below (S : Finset α) (holder : α → Option α) (l : List α) : Finset α :=
  l.toFinset.biUnion fun r => insert r (inside S holder r)

theorem mem_below (h : Nested S holder) {l : List α} :
    x ∈ below S holder l ↔ ∃ r ∈ l, ReflTransGen (Parent holder) x r := by
  classical
  unfold below
  simp only [Finset.mem_biUnion, List.mem_toFinset, Finset.mem_insert, mem_inside h]
  refine exists_congr fun r => and_congr_right fun _ => ?_
  rw [reflTransGen_iff_eq_or_transGen]
  exact or_congr_left eq_comm

/-- Where nothing lies in two of the things, a sum over all goes over the things
and what lies inside them. -/
theorem sum_below {M : Type*} [AddCommMonoid M] (h : Nested S holder) (f : α → M) {l : List α} (hnodup : l.Nodup)
    (happart : ∀ r ∈ l, ∀ r' ∈ l, ∀ x, ReflTransGen (Parent holder) x r → ReflTransGen (Parent holder) x r' → r = r') :
    ∑ x ∈ below S holder l, f x = (l.map fun r => f r + ∑ x ∈ inside S holder r, f x).sum := by
  classical
  have hout (r : α) : r ∉ inside S holder r := fun hr => h.acyclic r ((mem_inside h).1 hr)
  have hup {x r : α} (hx : x ∈ insert r (inside S holder r)) : ReflTransGen (Parent holder) x r := by
    rcases Finset.mem_insert.1 hx with rfl | hx
    · exact .refl
    · exact ((mem_inside h).1 hx).to_reflTransGen
  have hdisjoint : ∀ r ∈ l.toFinset, ∀ r' ∈ l.toFinset, r ≠ r' →
      Disjoint (insert r (inside S holder r)) (insert r' (inside S holder r')) := by
    intro r hr r' hr' hne
    rw [Finset.disjoint_left]
    intro x hx hx'
    exact hne (happart r (List.mem_toFinset.1 hr) r' (List.mem_toFinset.1 hr') x (hup hx) (hup hx'))
  unfold below
  rw [Finset.sum_biUnion hdisjoint, List.sum_toFinset _ hnodup]
  exact congrArg List.sum (List.map_congr_left fun r _ => Finset.sum_insert (hout r))

/-- A sum over all that lies inside goes over the things that are held and what
lies inside them. -/
theorem sum_inside {M : Type*} [AddCommMonoid M] (h : Nested S holder) (f : α → M)
    (hmem : ∀ q r, r ∈ items q ↔ holder r = some q) (hnodup : ∀ q, (items q).Nodup) (q : α) :
    ∑ r ∈ inside S holder q, f r = ((items q).map fun r => f r + ∑ x ∈ inside S holder r, f x).sum := by
  have hbelow : inside S holder q = below S holder (items q) := by
    ext x
    rw [mem_inside h, mem_below h, TransGen.tail'_iff]
    exact exists_congr fun r => by rw [hmem, and_comm]; rfl
  rw [hbelow]
  refine sum_below h f (hnodup q) fun r hr r' hr' x hx hx' => ?_
  exact h.eq_of_holder hx hx' ((hmem q r).1 hr) ((hmem q r').1 hr')

end Inside

/-! ### Totals -/

section Totals

variable {G : Type*} [AddCommMonoid G] {items items' : α → List α} {own own' total : α → G} {d : G}

/-- Every total is the sum of what is held, each thing with its own total. -/
def Totals (items : α → List α) (own total : α → G) : Prop :=
  ∀ q, total q = ((items q).map fun r => own r + total r).sum

open scoped Classical in
/-- A difference is added to the total of a thing and of all that hold it. -/
noncomputable def spread (holder : α → Option α) (q : α) (d : G) (total : α → G) (y : α) : G :=
  total y + if ReflTransGen (Parent holder) q y then d else 0

theorem spread_of_holds (h : ReflTransGen (Parent holder) q y) : spread holder q d total y = total y + d := by
  classical
  unfold spread
  rw [if_pos h]

theorem spread_of_not_holds (h : ¬ ReflTransGen (Parent holder) q y) : spread holder q d total y = total y := by
  classical
  unfold spread
  rw [if_neg h, add_zero]

theorem sum_map_spread_of_not_holds {l : List α} (own : α → G)
    (h : ∀ x ∈ l, ¬ ReflTransGen (Parent holder) q x) :
    (l.map fun x => own x + spread holder q d total x).sum = (l.map fun x => own x + total x).sum := by
  refine congrArg List.sum (List.map_congr_left fun x hx => ?_)
  rw [spread_of_not_holds (h x hx)]

/-- In a list with one holder of `q` the sum grows by the difference. -/
theorem sum_map_spread_of_holds {l : List α} (own : α → G) (hnodup : l.Nodup) (hz : z ∈ l)
    (hiff : ∀ x ∈ l, ReflTransGen (Parent holder) q x ↔ x = z) :
    (l.map fun x => own x + spread holder q d total x).sum = (l.map fun x => own x + total x).sum + d := by
  classical
  have hsum : (l.map fun x => own x + spread holder q d total x).sum =
      (l.map fun x => own x + total x).sum + (l.map fun x => if x = z then d else 0).sum := by
    rw [← List.sum_map_add]
    refine congrArg List.sum (List.map_congr_left fun x hx => ?_)
    unfold spread
    rw [if_congr (hiff x hx) rfl rfl, add_assoc]
  have hsingle : (l.map fun x => if x = z then d else 0).sum = d := by
    rw [List.sum_map_eq_nsmul_single z _ fun x hx _ => if_neg hx, if_pos rfl, List.count_eq_one_of_mem hnodup hz,
      one_nsmul]
  rw [hsum, hsingle]

/-- When the things in `q` change by `d`, the totals are right again after the
difference is spread. -/
theorem Totals.spread (h : Totals items own total) (hn : Nested S holder)
    (hmem : ∀ y, y ≠ q → ∀ r, r ∈ items y ↔ holder r = some y) (hnodup : ∀ y, (items y).Nodup)
    (hitems : ∀ y, y ≠ q → items' y = items y) (hown : ∀ y, y ≠ q → ∀ x ∈ items y, own' x = own x)
    (hout : ∀ x ∈ items' q, ¬ ReflTransGen (Parent holder) q x)
    (hsum : ((items' q).map fun r => own' r + total r).sum = ((items q).map fun r => own r + total r).sum + d) :
    Totals items' own' (Nesting.spread holder q d total) := by
  intro y
  by_cases hy : y = q
  · subst hy
    rw [spread_of_holds .refl, sum_map_spread_of_not_holds own' hout, hsum, ← h y]
  have hsame : ((items' y).map fun r => own' r + Nesting.spread holder q d total r).sum =
      ((items y).map fun r => own r + Nesting.spread holder q d total r).sum := by
    rw [hitems y hy]
    exact congrArg List.sum (List.map_congr_left fun x hx => by rw [hown y hy x hx])
  rw [hsame]
  by_cases hqy : ReflTransGen (Parent holder) q y
  · -- one of the things in `y` holds `q`, or is it
    obtain ⟨z, hqz, hzy⟩ : ∃ z, ReflTransGen (Parent holder) q z ∧ holder z = some y := by
      rcases ReflTransGen.cases_tail hqy with he | ⟨z, hqz, hzy⟩
      · exact absurd he hy
      · exact ⟨z, hqz, hzy⟩
    have hiff : ∀ x ∈ items y, ReflTransGen (Parent holder) q x ↔ x = z := by
      intro x hx
      refine ⟨fun hqx => hn.eq_of_holder hqx hqz ((hmem y hy x).1 hx) hzy, ?_⟩
      rintro rfl
      exact hqz
    rw [spread_of_holds hqy, sum_map_spread_of_holds own (hnodup y) ((hmem y hy z).2 hzy) hiff, ← h y]
  · have hnot : ∀ x ∈ items y, ¬ ReflTransGen (Parent holder) q x :=
      fun x hx hqx => hqy (hqx.tail ((hmem y hy x).1 hx))
    rw [spread_of_not_holds hqy, sum_map_spread_of_not_holds own hnot, ← h y]

/-- A total is the sum of all that lies inside. -/
theorem Totals.total_eq (h : Totals items own total) (hn : Nested S holder)
    (hmem : ∀ q r, r ∈ items q ↔ holder r = some q) (hnodup : ∀ q, (items q).Nodup) (q : α) :
    total q = ∑ r ∈ inside S holder q, own r := by
  induction hk : S.card - hn.depth q using Nat.strong_induction_on generalizing q with
  | _ k ih =>
    rw [h q, sum_inside hn own hmem hnodup q]
    refine congrArg List.sum (List.map_congr_left fun r hr => ?_)
    have hlt := hn.depth_lt ((hmem q r).1 hr)
    have hle := hn.depth_le r
    rw [ih (S.card - hn.depth r) (by omega) r rfl]

end Totals

end Nesting
end ForgottenServer
