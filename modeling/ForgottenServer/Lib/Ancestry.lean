/-
# Parents that get cheaper

`up` gives a node its parent, if it has one. When every node but the root has a
parent that costs less (`Cheaper`), no way up comes back to where it began and
every one ends at the root (`Cheaper.acyclic`, `Cheaper.leads`), and what the
root has and children inherit holds of every node (`Cheaper.induction`).

Key definitions: `Parent`, `Cheaper`.
Key theorems: `Cheaper.induction`, `Cheaper.acyclic`, `Cheaper.leads`.
-/
import Mathlib.Logic.Relation
import Mathlib.Order.WellFounded
import Mathlib.Tactic.Common

namespace ForgottenServer
namespace Ancestry

variable {ι β : Type*} {up : ι → Option ι} {nodes : ι → Prop} {root x y : ι}

/-- `y` is the parent of `x`. -/
def Parent (up : ι → Option ι) (x y : ι) : Prop := up x = some y

/-- Every node but the root has a parent among the nodes that costs less. -/
structure Cheaper [LT β] (up : ι → Option ι) (nodes : ι → Prop) (root : ι) (cost : ι → β) : Prop where
  root_mem : nodes root
  root_none : up root = none
  parent : ∀ x, nodes x → x ≠ root → ∃ y, up x = some y ∧ nodes y ∧ cost y < cost x

section

variable [Preorder β] {cost : ι → β}

theorem Cheaper.step (h : Cheaper up nodes root cost) (hx : nodes x) (hp : Parent up x y) :
    nodes y ∧ cost y < cost x := by
  have hne : x ≠ root := by
    rintro rfl
    exact nomatch h.root_none.symm.trans hp
  obtain ⟨y', hy', hm, hlt⟩ := h.parent x hx hne
  obtain rfl := Option.some.inj (hy'.symm.trans hp)
  exact ⟨hm, hlt⟩

theorem Cheaper.trans (h : Cheaper up nodes root cost) (hx : nodes x)
    (hp : Relation.TransGen (Parent up) x y) : nodes y ∧ cost y < cost x := by
  induction hp with
  | single hp => exact h.step hx hp
  | tail _ hp ih =>
    obtain ⟨hm, hlt⟩ := h.step ih.1 hp
    exact ⟨hm, hlt.trans ih.2⟩

/-- No way up comes back. -/
theorem Cheaper.acyclic (h : Cheaper up nodes root cost) (hx : nodes x) :
    ¬ Relation.TransGen (Parent up) x x :=
  fun hp => lt_irrefl _ (h.trans hx hp).2

/-- What the root has and children inherit. -/
theorem Cheaper.induction [WellFoundedLT β] (h : Cheaper up nodes root cost) {P : ι → Prop} (hroot : P root)
    (hstep : ∀ x y, nodes x → x ≠ root → up x = some y → nodes y → P y → P x) (hx : nodes x) : P x := by
  have hind : ∀ b x, cost x = b → nodes x → P x := by
    intro b
    induction b using WellFoundedLT.induction with
    | ind b ih =>
      intro x hb hx
      by_cases hr : x = root
      · exact hr ▸ hroot
      · obtain ⟨y, hy, hm, hlt⟩ := h.parent x hx hr
        exact hstep x y hx hr hy hm (ih (cost y) (hb ▸ hlt) y rfl hm)
  exact hind (cost x) x rfl hx

/-- Every way up ends at the root. -/
theorem Cheaper.leads [WellFoundedLT β] (h : Cheaper up nodes root cost) (hx : nodes x) :
    Relation.ReflTransGen (Parent up) x root := by
  apply h.induction (P := fun x => Relation.ReflTransGen (Parent up) x root) .refl _ hx
  intro x y _ _ hy _ ih
  exact .head hy ih

end

end Ancestry
end ForgottenServer
