/-
# Who carries an item

The way up from a cylinder goes from parent to parent (`State.Within`). The
player at its end is the top parent of what lies below, is told of every change
there, and has his capacity asked for it. A change of weight reaches the
containers on the way up and no others, so a player who does not carry the item
that is moved has the same inventory weight before and after.

Key definitions: `State.Within`, `State.Wf`, `hasCapacityWithout`.
Key theorems: `getTopParent_eq_player`, `players_postNotification`,
`getWeight_updateItemWeight`, `hasCapacity_congr`.
-/
import ForgottenServer.InventoryPlaces

namespace ForgottenServer
namespace Inventory

open Spectators (Position)

namespace State

/-- One step on the way up. -/
def Up (s : State) (c d : Cylinder) : Prop := s.getParent c = some d

/-- The way up from `c` comes to `d`. -/
def Within (s : State) (c d : Cylinder) : Prop := Relation.ReflTransGen s.Up c d

/-- The items lie where their parents say, each in one place, and no container
lies in itself. A stack holds nothing. -/
structure Wf (items : UInt16 → ItemType) (s : State) : Prop where
  mem_contents : ∀ c r, r ∈ s.contents c ↔ s.parent r = some c
  nodup : ∀ c, (s.contents c).Nodup
  tile : ∀ t, ∃ D T, TileItems.State.Shape (s.mapTile t).tile D T
  container : ∀ q r, s.parent r = some (.container q) → s.isContainer q = true ∧ q < s.next
  depth : ∃ depth : Ref → ℕ, ∀ q r, s.parent r = some (.container q) → depth q < depth r ∧ depth r ≤ s.next
  fresh : ∀ r, s.parent r ≠ none → r < s.next
  count : ∀ r, (s.item r).count < 256
  plain : ∀ r, (items (s.item r).id).stackable = true → s.asCylinder r = none

variable {items : UInt16 → ItemType} {s s' : State} {q r x y : Ref} {p : CreatureId} {c d : Cylinder}
  {n : ℕ}

/-- The conditions on one item of a state, with a depth for each. -/
def placed (items : UInt16 → ItemType) (s : State) (depth : Ref → ℕ) (r : Ref) : Bool :=
  (s.parent r).all (fun c => decide (r ∈ s.contents c) &&
      match c with
      | .container q => s.isContainer q && decide (q < s.next) && decide (depth q < depth r)
      | _ => true) &&
    decide (depth r ≤ s.next) && decide ((s.item r).count < 256) &&
    (!(items (s.item r).id).stackable || decide (s.asCylinder r = none))

/-- A state with finitely many items is checked item by item. -/
theorem Wf.of_placed (depth : Ref → ℕ) (cs : List Cylinder) (hcs : ∀ c, c ∉ cs → s.contents c = [])
    (hcontents : ∀ c ∈ cs, (s.contents c).Nodup ∧ ∀ r ∈ s.contents c, s.parent r = some c)
    (htile : ∀ t, ∃ D T, TileItems.State.Shape (s.mapTile t).tile D T)
    (hplaced : ∀ r < s.next, placed items s depth r = true)
    (hfresh : ∀ r, s.next ≤ r → s.parent r = none ∧ placed items s depth r = true) : s.Wf items := by
  have hall (r : Ref) : placed items s depth r = true := by
    rcases lt_or_ge r s.next with hr | hr
    · exact hplaced r hr
    · exact (hfresh r hr).2
  simp only [placed, Bool.and_eq_true, Bool.or_eq_true, decide_eq_true_eq, Bool.not_eq_true'] at hall
  have hparent {r : Ref} {c : Cylinder} (hr : s.parent r = some c) := (hall r).1.1.1
  have hin {r : Ref} {c : Cylinder} (hr : s.parent r = some c) : r ∈ s.contents c := by
    have hp := hparent hr
    rw [hr, Option.all_some, Bool.and_eq_true, decide_eq_true_eq] at hp
    exact hp.1
  have hup {q r : Ref} (hr : s.parent r = some (.container q)) :
      (s.isContainer q = true ∧ q < s.next) ∧ depth q < depth r := by
    have hp := hparent hr
    rw [hr, Option.all_some, Bool.and_eq_true] at hp
    simpa only [Bool.and_eq_true, decide_eq_true_eq] using hp.2
  have hout {c : Cylinder} (hc : c ∉ cs) {r : Ref} (hr : r ∈ s.contents c) : False := by
    rw [hcs c hc] at hr
    exact nomatch hr
  refine ⟨fun c r => ⟨fun hr => ?_, hin⟩, fun c => ?_, htile, fun q r hr => (hup hr).1,
    ⟨depth, fun q r hr => ⟨(hup hr).2, (hall r).1.1.2⟩⟩, fun r hr => ?_, fun r => (hall r).1.2, fun r hs => ?_⟩
  · by_cases hc : c ∈ cs
    · exact (hcontents c hc).2 r hr
    · exact (hout hc hr).elim
  · by_cases hc : c ∈ cs
    · exact (hcontents c hc).1
    · rw [hcs c hc]
      exact List.nodup_nil
  · by_contra hge
    exact hr (hfresh r (not_lt.1 hge)).1
  · exact (hall r).2.resolve_left fun h => Bool.false_ne_true (h.symm.trans hs)

theorem Wf.parent_ne_device (h : s.Wf items) : s.parent r ≠ some (.device x) :=
  fun he => nomatch (h.mem_contents _ _).2 he

/-- What is above a container is no device, and a container of less depth. -/
theorem Wf.within_container (h : s.Wf items) {depth : Ref → ℕ}
    (hdepth : ∀ q r, s.parent r = some (.container q) → depth q < depth r ∧ depth r ≤ s.next)
    (hw : s.Within (.container q) c) :
    (∀ x, c ≠ .device x) ∧ ∀ x, c = .container x → depth x ≤ depth q := by
  induction hw with
  | refl =>
    refine ⟨fun x hx => (nomatch hx), ?_⟩
    rintro x ⟨⟩
    exact le_rfl
  | @tail b c _ hbc ih =>
    unfold Up at hbc
    cases b with
    | container y =>
      constructor
      · rintro x rfl
        exact h.parent_ne_device hbc
      · rintro x rfl
        exact (hdepth x y hbc).1.le.trans (ih.2 y rfl)
    | player p =>
      obtain rfl := Option.some.inj hbc
      exact ⟨fun x hx => (nomatch hx), fun x hx => (nomatch hx)⟩
    | tile t => exact nomatch hbc
    | device y => exact absurd rfl (ih.1 y)

/-- An item is not above the container it lies in. -/
theorem Wf.not_within_self (h : s.Wf items) (hr : s.parent r = some (.container q)) :
    ¬ s.Within (.container q) (.container r) := by
  obtain ⟨depth, hdepth⟩ := h.depth
  intro hw
  have hle := (h.within_container hdepth hw).2 r rfl
  exact (hdepth q r hr).1.not_ge hle

/-! ### Top parents -/

theorem topParentUp_within : ∀ {n : ℕ} {prevaux : Option Cylinder} {aux : Cylinder},
    s.topParentUp n prevaux aux = d → prevaux = some d ∨ s.Within aux d
  | 0, none, _, h => .inr (h ▸ .refl)
  | 0, some _, _, h => .inl (congrArg some h)
  | n + 1, prevaux, aux, h => by
    unfold topParentUp at h
    cases hup : s.getParent aux with
    | none =>
      rw [hup] at h
      cases prevaux with
      | none => exact .inr (h ▸ .refl)
      | some c => exact .inl (congrArg some h)
    | some up =>
      rw [hup] at h
      refine .inr ?_
      rcases topParentUp_within h with he | hw
      · exact Option.some.inj he ▸ .refl
      · exact .head hup hw

theorem Wf.topParentUp_player (h : s.Wf items) {depth : Ref → ℕ}
    (hdepth : ∀ q r, s.parent r = some (.container q) → depth q < depth r ∧ depth r ≤ s.next)
    {aux : Cylinder} (hw : s.Within aux (.player p)) :
    ∀ {n : ℕ} {prevaux : Option Cylinder}, (∀ x, aux ≠ .device x) →
      (∀ q, aux = .container q → depth q + 1 ≤ n) →
      s.topParentUp (n + 1) prevaux aux = .player p := by
  induction hw using Relation.ReflTransGen.head_induction_on with
  | refl =>
    intro n prevaux _ _
    unfold topParentUp
    cases n with
    | zero => rfl
    | succ n => rfl
  | @head aux up hup hw ih =>
    intro n prevaux hdev hn
    unfold Up at hup
    unfold topParentUp
    rw [hup]
    cases aux with
    | container q =>
      have hq := hn q rfl
      obtain ⟨n, rfl⟩ : ∃ m, n = m + 1 := ⟨n - 1, by omega⟩
      apply ih
      · rintro x rfl
        exact h.parent_ne_device hup
      · rintro q' rfl
        have := (hdepth q' q hup).1
        omega
    | player p' =>
      -- above a player there is only his tile
      obtain rfl := Option.some.inj hup
      rcases Relation.ReflTransGen.cases_head hw with he | ⟨c, hc, -⟩
      · exact nomatch he
      · exact nomatch hc
    | tile t => exact nomatch hup
    | device x => exact absurd rfl (hdev x)

@[simp] theorem topParentUp_bare (s : State) : ∀ (n : ℕ) (prevaux : Option Cylinder) (aux : Cylinder),
    s.bare.topParentUp n prevaux aux = s.topParentUp n prevaux aux
  | 0, _, _ => rfl
  | n + 1, prevaux, aux => by
    have hup : s.bare.getParent aux = s.getParent aux := by
      cases aux <;> rfl
    unfold topParentUp
    rw [hup]
    cases s.getParent aux with
    | none => rfl
    | some up => exact topParentUp_bare s n _ _

@[simp] theorem getTopParent_bare (s : State) (r : Ref) : s.bare.getTopParent r = s.getTopParent r := by
  have hcyl : s.bare.asCylinder r = s.asCylinder r := rfl
  unfold getTopParent
  simp only [hcyl, parent_bare, next_bare, topParentUp_bare]

theorem getTopParent_player_within (h : s.getTopParent r = some (.player p)) :
    ∃ c, s.parent r = some c ∧ s.Within c (.player p) := by
  have hcyl : s.asCylinder r ≠ some (.player p) := by
    intro he
    rcases asCylinder_cases he with ⟨he, -⟩ | he <;> exact nomatch he
  unfold getTopParent at h
  dsimp only at h
  cases hc : s.parent r with
  | none =>
    rw [hc] at h
    exact absurd h hcyl
  | some c =>
    rw [hc] at h
    refine ⟨c, rfl, ?_⟩
    rcases topParentUp_within (Option.some.inj h) with he | hw
    · exact absurd he hcyl
    · exact hw

/-- The player at the end of the way up is the top parent. -/
theorem Wf.getTopParent_eq_player (h : s.Wf items) :
    s.getTopParent r = some (.player p) ↔ ∃ c, s.parent r = some c ∧ s.Within c (.player p) := by
  refine ⟨getTopParent_player_within, ?_⟩
  rintro ⟨c, hc, hw⟩
  obtain ⟨depth, hdepth⟩ := h.depth
  unfold getTopParent
  dsimp only
  rw [hc]
  refine congrArg some (h.topParentUp_player hdepth hw ?_ ?_)
  · rintro x rfl
    exact h.parent_ne_device hc
  · rintro q rfl
    have := hdepth q r hc
    omega

/-! ### Weights -/

/-- The weights on the way up change, and no others. -/
theorem totalWeight_updateItemWeightUp {diff : UInt32} : ∀ {n : ℕ} {s : State} {q : Ref},
    ¬ s.Within (.container q) (.container y) →
    ((updateItemWeightUp n q diff s).things y).totalWeight = (s.things y).totalWeight
  | 0, _, _, _ => rfl
  | n + 1, s, q, h => by
    have hne : y ≠ q := by
      rintro rfl
      exact h .refl
    have hkeep : ((s.setThing q { s.things q with totalWeight := (s.things q).totalWeight + diff }).things
        y).totalWeight = (s.things y).totalWeight := by
      rw [things_setThing, if_neg hne]
    unfold updateItemWeightUp
    dsimp only
    have hbare : (s.setThing q
        { s.things q with totalWeight := (s.things q).totalWeight + diff }).bare = s.bare :=
      (s.bare_setThing q _).trans (s.bare.setThing_things q)
    have hup : (s.setThing q
        { s.things q with totalWeight := (s.things q).totalWeight + diff }).Up = s.Up :=
      congr_bare (f := State.Up) (fun _ => rfl) hbare
    have hparent : (s.setThing q
        { s.things q with totalWeight := (s.things q).totalWeight + diff }).parent = s.parent :=
      congr_bare (f := State.parent) (fun _ => rfl) hbare
    rw [hparent]
    split
    · next parentContainer hq =>
      rw [totalWeight_updateItemWeightUp ?_]
      · exact hkeep
      · unfold Within
        rw [hup]
        exact fun hw => h (.head hq hw)
    · exact hkeep

theorem getWeight_congr (hitem : s'.item y = s.item y)
    (hweight : s.isContainer y = true → (s'.things y).totalWeight = (s.things y).totalWeight) :
    s'.getWeight items y = s.getWeight items y := by
  unfold getWeight isContainer
  rw [hitem]
  split
  · next hc =>
    have hy : s.isContainer y = true := hc
    rw [hweight hy]
  · rfl

theorem getWeight_updateItemWeight {diff : UInt32} (h : ¬ s.Within (.container q) (.container y)) :
    (s.updateItemWeight q diff).getWeight items y = s.getWeight items y := by
  apply getWeight_congr
  · exact congr_bare (f := fun s => s.item y) (fun _ => rfl) (s.bare_updateItemWeight q diff)
  · exact fun _ => totalWeight_updateItemWeightUp h

/-- Two inventories weigh the same in the slots where the same items weigh the
same. -/
theorem weightOf_congr {l : List ℕ} (hinv : ∀ i ∈ l, (s'.players p).inventory i = (s.players p).inventory i)
    (hweight : ∀ i ∈ l, ∀ y, (s.players p).inventory i = some y →
      s'.getWeight items y = s.getWeight items y) :
    s'.weightOf items p l = s.weightOf items p l := by
  unfold weightOf
  rw [List.filterMap_congr hinv]
  congr 1
  apply List.map_congr_left
  intro y hy
  obtain ⟨i, hi, hiy⟩ := List.mem_filterMap.1 hy
  exact hweight i hi y hiy

theorem filterMap_erase {α β : Type*} [DecidableEq α] {f : α → Option β} {a : α} (h : f a = none) :
    ∀ l : List α, (l.erase a).filterMap f = l.filterMap f
  | [] => rfl
  | b :: l => by
    by_cases hb : b = a
    · subst hb
      rw [List.erase_cons_head, List.filterMap_cons_none h]
    · rw [List.erase_cons_tail (by simpa using hb), List.filterMap_cons, List.filterMap_cons,
        filterMap_erase h l]

theorem weightOf_erase {i : ℕ} (h : (s.players p).inventory i = none) :
    s.weightOf items p (slots.erase i) = s.weightOf items p slots := by
  unfold weightOf
  rw [filterMap_erase h]

theorem players_updateInventoryWeight {p' : CreatureId} (h : p ≠ p') :
    (s.updateInventoryWeight items p').players p = s.players p := by
  unfold updateInventoryWeight setPlayer
  split
  · rfl
  · exact Function.update_of_ne h ..

/-- A container that is the top parent of another is above it. -/
theorem getTopParent_container_within {top : Ref} (h : s.getTopParent q = some (.container top))
    (hne : top ≠ q) : s.Within (.container q) (.container top) := by
  have hcyl : s.asCylinder q ≠ some (.container top) := by
    intro he
    rcases asCylinder_cases he with ⟨he, -⟩ | he
    · exact hne (Cylinder.container.inj he)
    · exact nomatch he
  unfold getTopParent at h
  dsimp only at h
  cases hc : s.parent q with
  | none =>
    rw [hc] at h
    exact absurd h hcyl
  | some c =>
    rw [hc] at h
    rcases topParentUp_within (Option.some.inj h) with he | hw
    · exact absurd he hcyl
    · exact .head hc hw

end State

/-- Of a change in a container only the player who carries it is told. -/
theorem players_postNotification {items : UInt16 → ItemType} {s : State} {p : CreatureId} :
    ∀ {n : ℕ} {link : Link} {c : Cylinder}, ¬ s.Within c (.player p) →
      (postNotification items s n link c).players p = s.players p
  | 0, _, _, _ => by
    unfold postNotification
    rfl
  | n + 1, link, .player p', h => by
    have hne : p ≠ p' := by
      rintro rfl
      exact h .refl
    unfold postNotification
    split
    · exact State.players_updateInventoryWeight hne
    · rfl
  | n + 1, _, .tile _, _ => rfl
  | n + 1, _, .device r, h => by
    unfold postNotification
    split
    · next c hc => exact players_postNotification fun hw => h (.head hc hw)
    · rfl
  | n + 1, _, .container q, h => by
    unfold postNotification
    split
    · split
      · next c hc => exact players_postNotification fun hw => h (.head hc hw)
      · rfl
    · split
      · next p' htop =>
        have hne : p ≠ p' := by
          rintro rfl
          obtain ⟨c, hc, hw⟩ := State.getTopParent_player_within htop
          exact h (.head hc hw)
        exact State.players_updateInventoryWeight hne
      · next top htop =>
        split
        · rfl
        · next hne =>
          exact players_postNotification fun hw =>
            h ((State.getTopParent_container_within htop hne).trans hw)
      · rfl

theorem things_updateInventoryWeight (items : UInt16 → ItemType) (s : State) (p : CreatureId) :
    (s.updateInventoryWeight items p).things = s.things := by
  unfold State.updateInventoryWeight
  split <;> rfl

theorem things_postNotification {items : UInt16 → ItemType} {s : State} :
    ∀ {n : ℕ} {link : Link} {c : Cylinder}, (postNotification items s n link c).things = s.things
  | 0, _, _ => by
    unfold postNotification
    rfl
  | n + 1, link, .player p => by
    unfold postNotification
    split
    · exact things_updateInventoryWeight items s p
    · rfl
  | n + 1, _, .tile _ => rfl
  | n + 1, _, .device r => by
    unfold postNotification
    split
    · exact things_postNotification
    · rfl
  | n + 1, _, .container q => by
    unfold postNotification
    split
    · split
      · exact things_postNotification
      · rfl
    · split
      · exact things_updateInventoryWeight items s _
      · split
        · rfl
        · exact things_postNotification
      · rfl

/-! ### An item that is no cylinder changes its place -/

section Moved

open State

variable {s s' : State} {r x y : Ref} {p : CreatureId} {c d : Cylinder}

/-- Nothing lies in the item. -/
theorem State.Wf.getParent_ne {items : UInt16 → ItemType} (h : s.Wf items) (hx : s.asCylinder x = none)
    (hc : s.getParent c = some d) (hne : ∀ y, c ≠ .device y) : d ≠ .container x ∧ ∀ y, d ≠ .device y := by
  cases c with
  | container q =>
    refine ⟨?_, fun y e => h.parent_ne_device (e ▸ hc)⟩
    rintro rfl
    have hcont := (h.container x q hc).1
    unfold asCylinder at hx
    rw [if_pos hcont] at hx
    exact nomatch hx
  | player p =>
    obtain rfl := Option.some.inj hc
    exact ⟨fun e => (nomatch e), fun y e => (nomatch e)⟩
  | tile t => exact nomatch hc
  | device y => exact absurd rfl (hne y)

theorem State.getParent_congr (hparent : ∀ y, y ≠ x → s'.parent y = s.parent y)
    (htile : ∀ p, (s'.players p).tile = (s.players p).tile) (hc : c ≠ .container x)
    (hdev : ∀ y, c ≠ .device y) : s'.getParent c = s.getParent c := by
  cases c with
  | container q => exact hparent q fun e => hc (e ▸ rfl)
  | player p => exact congrArg (fun t => some (Cylinder.tile t)) (htile p)
  | tile t => rfl
  | device y => exact absurd rfl (hdev y)

/-- What is above another cylinder stays so. -/
theorem State.Wf.within_congr {items : UInt16 → ItemType} (h : s.Wf items) (hx : s.asCylinder x = none)
    (hparent : ∀ y, y ≠ x → s'.parent y = s.parent y)
    (htile : ∀ p, (s'.players p).tile = (s.players p).tile) (hw : s'.Within c d) :
    c ≠ .container x → (∀ y, c ≠ .device y) → s.Within c d := by
  induction hw using Relation.ReflTransGen.head_induction_on with
  | refl => exact fun _ _ => .refl
  | @head c b hcb _ ih =>
    intro hc hdev
    have hcb : s.getParent c = some b := (getParent_congr hparent htile hc hdev).symm.trans hcb
    obtain ⟨hb, hbdev⟩ := h.getParent_ne hx hcb hdev
    exact .head hcb (ih hb hbdev)

theorem State.Wf.topParentUp_congr {items : UInt16 → ItemType} (h : s.Wf items)
    (hx : s.asCylinder x = none) (hparent : ∀ y, y ≠ x → s'.parent y = s.parent y)
    (htile : ∀ p, (s'.players p).tile = (s.players p).tile) :
    ∀ {n : ℕ} {prevaux : Option Cylinder} {aux : Cylinder}, aux ≠ .container x → (∀ y, aux ≠ .device y) →
      s'.topParentUp n prevaux aux = s.topParentUp n prevaux aux
  | 0, _, _, _, _ => rfl
  | n + 1, prevaux, aux, ha, hdev => by
    unfold topParentUp
    rw [getParent_congr hparent htile ha hdev]
    cases hup : s.getParent aux with
    | none => rfl
    | some up =>
      obtain ⟨hb, hbdev⟩ := h.getParent_ne hx hup hdev
      exact h.topParentUp_congr hx hparent htile hb hbdev

/-- The other items keep their top parent. -/
theorem State.Wf.getTopParent_congr {items : UInt16 → ItemType} (h : s.Wf items)
    (hx : s.asCylinder x = none) (hparent : ∀ y, y ≠ x → s'.parent y = s.parent y)
    (htile : ∀ p, (s'.players p).tile = (s.players p).tile) (hnext : s'.next = s.next)
    (hcyl : s'.asCylinder r = s.asCylinder r) (hr : r ≠ x) :
    s'.getTopParent r = s.getTopParent r := by
  unfold getTopParent
  dsimp only
  rw [hcyl, hparent r hr, hnext]
  cases hc : s.parent r with
  | none => rfl
  | some c =>
    dsimp only
    congr 1
    apply h.topParentUp_congr hx hparent htile
    · rintro rfl
      have hcont := (h.container x r hc).1
      unfold asCylinder at hx
      rw [if_pos hcont] at hx
      exact nomatch hx
    · rintro y rfl
      exact h.parent_ne_device hc

end Moved

/-! ### The capacity of a player -/

section Capacity

variable {cfg : Config} {s s' : State} {r : Ref} {p : CreatureId} {count slot : ℕ}

/-- A player has room for an item by what he weighs and who carries it. -/
theorem Player.hasCapacity_congr (hpickup : (s'.players p).cannotPickupItem = (s.players p).cannotPickupItem)
    (hinfinite : (s'.players p).hasInfiniteCapacity = (s.players p).hasInfiniteCapacity)
    (htop : s'.getTopParent r = some (.player p) ↔ s.getTopParent r = some (.player p))
    (hitem : s'.item r = s.item r)
    (hweight : (s.players p).hasInfiniteCapacity = false → s.getTopParent r ≠ some (.player p) →
      s'.getWeight cfg.items r = s.getWeight cfg.items r ∧
        (s'.players p).getFreeCapacity = (s.players p).getFreeCapacity) :
    Player.hasCapacity cfg s' p r count = Player.hasCapacity cfg s p r count := by
  unfold Player.hasCapacity
  rw [hpickup, hinfinite]
  split
  · rfl
  by_cases hcarried : (s.players p).hasInfiniteCapacity = true ∨ s.getTopParent r = some (.player p)
  · have h1 : ((s.players p).hasInfiniteCapacity || decide (s.getTopParent r = some (.player p))) = true := by
      simpa using hcarried
    have h2 : ((s.players p).hasInfiniteCapacity || decide (s'.getTopParent r = some (.player p))) = true := by
      rw [Bool.or_eq_true, decide_eq_true_eq, htop]
      exact hcarried
    rw [if_pos h1, if_pos h2]
  · obtain ⟨hfin, hnot⟩ := not_or.1 hcarried
    obtain ⟨hw, hfree⟩ := hweight (by simpa using hfin) hnot
    have h1 : ¬ ((s.players p).hasInfiniteCapacity || decide (s.getTopParent r = some (.player p))) = true := by
      simpa using hcarried
    have h2 : ¬ ((s.players p).hasInfiniteCapacity || decide (s'.getTopParent r = some (.player p))) = true := by
      rw [Bool.or_eq_true, decide_eq_true_eq, htop]
      exact hcarried
    have hcont : s'.isContainer r = s.isContainer r := by
      unfold State.isContainer
      rw [hitem]
    have htype : s'.type cfg r = s.type cfg r := by
      unfold State.type
      rw [hitem]
    rw [if_neg h1, if_neg h2, hw, hfree, hcont, hitem, htype]

/-- The capacity for an item when what is in the slot is taken off. -/
def Player.hasCapacityWithout (cfg : Config) (s : State) (p : CreatureId) (slot : ℕ) (r : Ref)
    (count : ℕ) : Bool :=
  Player.hasCapacity cfg
    (s.setPlayer p
      { s.players p with inventoryWeight := s.weightOf cfg.items p (slots.erase slot) }) p r count

/-- It is the capacity after a change by which the player carries no more than
that. -/
theorem Player.hasCapacity_eq_hasCapacityWithout
    (hpickup : (s'.players p).cannotPickupItem = (s.players p).cannotPickupItem)
    (hinfinite : (s'.players p).hasInfiniteCapacity = (s.players p).hasInfiniteCapacity)
    (hcapacity : (s'.players p).capacity = (s.players p).capacity)
    (htop : s'.getTopParent r = some (.player p) ↔ s.getTopParent r = some (.player p))
    (hitem : s'.item r = s.item r)
    (hweight : (s.players p).hasInfiniteCapacity = false → s.getTopParent r ≠ some (.player p) →
      s'.getWeight cfg.items r = s.getWeight cfg.items r ∧
        (s'.players p).inventoryWeight = s.weightOf cfg.items p (slots.erase slot)) :
    Player.hasCapacity cfg s' p r count = Player.hasCapacityWithout cfg s p slot r count := by
  let w := s.setPlayer p
    { s.players p with inventoryWeight := s.weightOf cfg.items p (slots.erase slot) }
  have hwp : w.players p =
      { s.players p with inventoryWeight := s.weightOf cfg.items p (slots.erase slot) } :=
    Function.update_self ..
  have hbare : w.bare = s.bare := (s.bare_setPlayer p _).trans (s.bare.setPlayer_players p)
  have htopw : w.getTopParent r = s.getTopParent r :=
    State.congr_bare (f := fun s => s.getTopParent r) (fun s => s.getTopParent_bare r) hbare
  refine Player.hasCapacity_congr (s := w) ?_ ?_ ?_ hitem ?_
  · rw [hwp]
    exact hpickup
  · rw [hwp]
    exact hinfinite
  · rw [htop, htopw]
  · intro hfin hcarried
    rw [hwp] at hfin
    rw [htopw] at hcarried
    obtain ⟨hw, hinv⟩ := hweight hfin hcarried
    refine ⟨hw, ?_⟩
    unfold getFreeCapacity
    rw [hwp, hpickup, hinfinite, hcapacity, hinv]

end Capacity

end Inventory
end ForgottenServer
