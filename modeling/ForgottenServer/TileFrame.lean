/-
# What an item put on a tile leaves alone

An item that is put on a tile may take away the ground, a splash or the fields
that were there. Of the items elsewhere it changes nothing, and of those on the
tile at most the counts.

Key definition: `Recounted`.
Key theorems: `removeThing_recounted`, `addThing_recounted`.
-/
import ForgottenServer.TileFlags

namespace ForgottenServer
namespace TileItems
namespace State

variable {ι κ : Type*} [DecidableEq ι] [DecidableEq κ] {items : UInt16 → ItemType}
  {s s₁ s' : State ι κ} {D D' T L L' : List ι} {i : ι}

/-- Some of the items of the list have another count. -/
def Recounted (s s' : State ι κ) (L : List ι) : Prop :=
  ∀ j, s'.item j = s.item j ∨ j ∈ L ∧ ∃ n, s'.item j = (s.item j).setItemCount n

omit [DecidableEq ι] [DecidableEq κ]

theorem Recounted.of_item_eq (h : s'.item = s.item) : Recounted s s' L := fun j => .inl (congrFun h j)

theorem Recounted.trans (h : Recounted s s₁ L) (h' : Recounted s₁ s' L') (hsub : L' ⊆ L) :
    Recounted s s' L := by
  intro j
  rcases h' j with he' | ⟨hj, n, he'⟩
  · rw [he']
    exact h j
  · refine .inr ⟨hsub hj, n, ?_⟩
    rcases h j with he | ⟨-, m, he⟩
    · rw [he', he]
    · rw [he', he]
      rfl

theorem Recounted.id (h : Recounted s s' L) (j : ι) : (s'.item j).id = (s.item j).id := by
  rcases h j with he | ⟨-, n, he⟩
  · rw [he]
  · rw [he]
    rfl

theorem Recounted.item (h : Recounted s s' L) {j : ι} (hj : j ∉ L) : s'.item j = s.item j :=
  (h j).resolve_right fun hr => hj hr.1

/-- An item with its count is as it was. -/
theorem Recounted.item_of_count (h : Recounted s s' L) {j : ι} (hj : (s'.item j).count = (s.item j).count) :
    s'.item j = s.item j := by
  rcases h j with he | ⟨-, n, he⟩
  · exact he
  · rw [he] at hj ⊢
    unfold Item.setItemCount at hj ⊢
    rw [show n % 256 = (s.item j).count from hj]

variable [DecidableEq ι] [DecidableEq κ]

theorem removeThing_recounted (h : Shape s.tile D T) (i : ι) (count : UInt32) :
    Recounted s (s.removeThing items (.item i) count) D := by
  rcases removeThing_cases items h i count with
    ⟨-, he⟩ | ⟨-, he⟩ | ⟨-, -, he⟩ | ⟨hi, -, -, he⟩ | ⟨-, -, -, he⟩
  · rw [he]
    exact .of_item_eq rfl
  · rw [he]
    exact .of_item_eq rfl
  · rw [he]
    exact .of_item_eq rfl
  · rw [he]
    intro j
    by_cases hj : j = i
    · subst hj
      exact .inr ⟨hi, _, s.setItem_item_self j _⟩
    · exact .inl (s.setItem_item_of_ne hj _)
  · rw [he]
    exact .of_item_eq rfl

theorem removeSplash_recounted (h : Shape s.tile D T) : Recounted s (s.removeSplash items) D := by
  unfold removeSplash
  split
  · exact .of_item_eq rfl
  · next old _ => exact removeThing_recounted h old 1

theorem removeFields_recounted {fuel : ℕ} {replaced : Bool} (h : Shape s.tile D T)
    (hs' : removeFields items fuel s = some (s', replaced)) : Recounted s s' D := by
  have hP := removeFields_induct (P := fun s' => Recounted s s' D ∧ ∃ D', Shape s'.tile D' T ∧ D'.Sublist D) ?_ fuel
    ⟨.of_item_eq rfl, D, h, .refl D⟩ hs'
  · exact hP.1.1
  · rintro s₁ oldField ⟨hr, D', hshape, hsub⟩ hfind -
    have hr' : Recounted s₁ (s₁.removeThing items (.item oldField) 1) D' :=
      removeThing_recounted hshape oldField 1
    refine ⟨hr.trans hr' hsub.subset, ?_⟩
    rcases removeThing_cases items hshape oldField 1 with
      ⟨-, he⟩ | ⟨-, he⟩ | ⟨hT, -, -⟩ | ⟨-, -, -, he⟩ | ⟨-, -, -, he⟩
    · exact ⟨D', by rw [he]; exact hshape, hsub⟩
    · exact ⟨D', by rw [he]; exact hshape.withGround fun _ hn => (nomatch hn), hsub⟩
    · -- the field is found among the down items
      rw [hshape.downItems_eq] at hfind
      obtain ⟨-, -, hdisj⟩ := List.nodup_append'.1 hshape.nodup
      exact absurd hT (hdisj (mem_of_find? hfind).1)
    · exact ⟨D', by rw [he]; exact hshape, hsub⟩
    · exact ⟨D'.erase oldField, by rw [he]; exact hshape.sublist List.erase_sublist (.refl T),
        List.erase_sublist.trans hsub⟩

/-- Of the other items at most the counts change, and only on the tile. -/
theorem addThing_recounted (h : Shape s.tile D T) (hs' : s.addThing items (.item i) = some s') :
    Recounted s s' D := by
  unfold addThing at hs'
  dsimp only at hs'
  split at hs'
  · exact Option.some.inj hs' ▸ .of_item_eq rfl
  split at hs'
  · rw [← Option.some.inj hs']
    refine .of_item_eq ?_
    unfold addGround
    cases (s.setParent i true).tile.ground <;> rfl
  split at hs'
  · rw [← Option.some.inj hs']
    split
    · exact removeSplash_recounted (s := s.setParent i true) h
    · exact .of_item_eq rfl
  split at hs'
  · obtain ⟨⟨s₁, replaced⟩, hs₁, rfl⟩ := Option.map_eq_some_iff.1 hs'
    have hr := removeFields_recounted (s := s.setParent i true) h hs₁
    dsimp only
    split
    · exact hr
    · exact hr
  · exact Option.some.inj hs' ▸ .of_item_eq rfl

end State
end TileItems
end ForgottenServer
