/-
# Adding an item

`Game::internalAddItem` asks where an item goes, whether it may go there and
whether there is room for all of it in the cylinder that it was given for. Then
it puts the item on the stack that is there, and the rest in as a new item by
calling itself; or it puts the item in as it is.

Key definitions: `internalAddItem`, `Adds`.
Key theorem: `adds_of_internalAddItem`.
-/
import ForgottenServer.MoveItem
import ForgottenServer.ContainerChanges

namespace ForgottenServer
namespace Inventory

open State

section Code

variable (cfg : Config)

/-- The item that the added one is put on. -/
def mergesWith (s : State) (item : Ref) (toItem : Option Ref) : Option Ref :=
  if (s.type cfg item).stackable && !(s.type cfg item).isRune && s.equals item toItem then toItem else none

/-- The part of the count that there is room for, asked for in the original
cylinder. -/
def takenCount (s : State) (toCylinder : Cylinder) (item : Ref) (flags : Flags) : ℕ :=
  min (s.item item).count (queryMaxCount cfg s indexWhereever item (s.item item).count flags toCylinder).2

/-- The part of that which goes on the stack. -/
def mergedCount (s : State) (x : Ref) (m : ℕ) : ℕ := min (uint 4 (100 - (s.item x).count)) m

/-- It is put on the stack. -/
def merge (s : State) (d : Destination) (x : Ref) (n : ℕ) : State :=
  updateThing cfg s x (s.item x).id ((s.item x).count + n) d.cylinder

/-- The item is added as it is. -/
def place (s : State) (d : Destination) (item : Ref) : Option State :=
  (addThing cfg s d.index item d.cylinder).map fun s => notifyAdded cfg s (some item) d.cylinder

theorem count_clone_lt {s : State} {item : Ref} {n itemCount : ℕ} (hle : n ≤ itemCount) (hne : itemCount ≠ n) :
    ((s.clone item n).item s.next).count < itemCount := by
  rw [item_clone, if_pos rfl]
  have hmod : ((s.item item).setItemCount n).count = n % 256 := rfl
  rw [hmod]
  exact (Nat.mod_le n 256).trans_lt (lt_of_le_of_ne hle hne.symm)

/-- `Game::internalAddItem`; it returns the value, the remainder and the state. -/
def internalAddItem (s : State) (toCylinder : Cylinder) (item : Ref) (index : ℤ) (flags : Flags) :
    Option (ReturnValue × ℕ × State) :=
  let itemCount := (s.item item).count
  let d := queryDestination cfg s index item none flags toCylinder
  let ret := queryAdd cfg s d.index item itemCount d.flags none d.cylinder
  if ret ≠ .noError then some (ret, 0, s)
  else
    let ret := (queryMaxCount cfg s indexWhereever item itemCount d.flags toCylinder).1
    if ret ≠ .noError then some (ret, 0, s)
    else
      match mergesWith cfg s item d.destItem with
      | none => (place cfg s d item).map fun s => (.noError, 0, s)
      | some x =>
        let m := takenCount cfg s toCylinder item d.flags
        let n := mergedCount s x m
        let s := merge cfg s d x n
        if 0 < m - n then
          if _h : itemCount ≠ m - n then
            (internalAddItem (s.clone item (m - n)) toCylinder s.next indexWhereever d.flags).map fun (ret, _, s) =>
              (.noError, if ret ≠ .noError then m - n else 0, s)
          else (place cfg s d item).map fun s => (.noError, 0, s)
        else some (.noError, 0, notifyAdded cfg s (some x) d.cylinder)
termination_by (s.item item).count
decreasing_by
  exact count_clone_lt ((Nat.sub_le _ _).trans (Nat.min_le_left _ _)) _h

/-- The item is taken at the destination `d`. -/
structure Takes (s : State) (toCylinder : Cylinder) (item : Ref) (index : ℤ) (flags : Flags) (d : Destination) :
    Prop where
  destination : queryDestination cfg s index item none flags toCylinder = d
  asked : queryAdd cfg s d.index item (s.item item).count d.flags none d.cylinder = .noError
  room : (queryMaxCount cfg s indexWhereever item (s.item item).count d.flags toCylinder).1 = .noError

/-- The course of `internalAddItem`. -/
inductive Adds (toCylinder : Cylinder) : State → Ref → ℤ → Flags → ReturnValue → ℕ → State → Prop
  | refused {s item index flags ret} (h : ret ≠ .noError) : Adds toCylinder s item index flags ret 0 s
  | placed {s item index flags d s'} (h : Takes cfg s toCylinder item index flags d)
      (hmerges : mergesWith cfg s item d.destItem = none) (hplace : place cfg s d item = some s') :
      Adds toCylinder s item index flags .noError 0 s'
  | merged {s item index flags d x m n} (h : Takes cfg s toCylinder item index flags d)
      (hmerges : mergesWith cfg s item d.destItem = some x) (hm : m = takenCount cfg s toCylinder item d.flags)
      (hn : n = mergedCount s x m) (hle : m ≤ n) :
      Adds toCylinder s item index flags .noError 0 (notifyAdded cfg (merge cfg s d x n) (some x) d.cylinder)
  | beside {s item index flags d x m n s'} (h : Takes cfg s toCylinder item index flags d)
      (hmerges : mergesWith cfg s item d.destItem = some x) (hm : m = takenCount cfg s toCylinder item d.flags)
      (hn : n = mergedCount s x m) (hlt : n < m) (hcount : (s.item item).count = m - n)
      (hplace : place cfg (merge cfg s d x n) d item = some s') :
      Adds toCylinder s item index flags .noError 0 s'
  | again {s item index flags d x m n ret rem s'} (h : Takes cfg s toCylinder item index flags d)
      (hmerges : mergesWith cfg s item d.destItem = some x) (hm : m = takenCount cfg s toCylinder item d.flags)
      (hn : n = mergedCount s x m) (hlt : n < m) (hcount : (s.item item).count ≠ m - n)
      (hrest : Adds toCylinder ((merge cfg s d x n).clone item (m - n)) (merge cfg s d x n).next indexWhereever
        d.flags ret rem s') :
      Adds toCylinder s item index flags .noError (if ret ≠ .noError then m - n else 0) s'

end Code

theorem adds_of_internalAddItem {cfg : Config} {toCylinder : Cylinder} {s s' : State} {item : Ref} {index : ℤ}
    {flags : Flags} {ret : ReturnValue} {rem : ℕ}
    (h : internalAddItem cfg s toCylinder item index flags = some (ret, rem, s')) :
    Adds cfg toCylinder s item index flags ret rem s' := by
  generalize hk : (s.item item).count = k
  induction k using Nat.strong_induction_on generalizing s item index flags ret rem with
  | _ k ih =>
    unfold internalAddItem at h
    dsimp only at h
    generalize hd : queryDestination cfg s index item none flags toCylinder = d at h
    by_cases hasked : queryAdd cfg s d.index item (s.item item).count d.flags none d.cylinder = .noError
    swap
    · rw [if_pos hasked] at h
      cases Option.some.inj h
      exact .refused hasked
    rw [if_neg (not_not_intro hasked)] at h
    by_cases hroom : (queryMaxCount cfg s indexWhereever item (s.item item).count d.flags toCylinder).1 = .noError
    swap
    · rw [if_pos hroom] at h
      cases Option.some.inj h
      exact .refused hroom
    rw [if_neg (not_not_intro hroom)] at h
    have htakes : Takes cfg s toCylinder item index flags d := ⟨hd, hasked, hroom⟩
    cases hmerges : mergesWith cfg s item d.destItem with
    | none =>
      rw [hmerges] at h
      obtain ⟨s₁, hs₁, he⟩ := Option.map_eq_some_iff.1 h
      cases he
      exact .placed htakes hmerges hs₁
    | some x =>
      rw [hmerges] at h
      dsimp only at h
      generalize hm : takenCount cfg s toCylinder item d.flags = m at h
      generalize hn : mergedCount s x m = n at h
      by_cases hlt : 0 < m - n
      · rw [if_pos hlt] at h
        by_cases hcount : (s.item item).count ≠ m - n
        · rw [dif_pos hcount] at h
          obtain ⟨⟨ret₁, rem₁, s₁⟩, hs₁, he⟩ := Option.map_eq_some_iff.1 h
          cases he
          have hle : m - n ≤ (s.item item).count :=
            (Nat.sub_le _ _).trans (hm ▸ Nat.min_le_left _ _)
          have hless : (((merge cfg s d x n).clone item (m - n)).item (merge cfg s d x n).next).count < k :=
            hk ▸ count_clone_lt hle hcount
          exact .again htakes hmerges hm.symm hn.symm (Nat.lt_of_sub_pos hlt) hcount (ih _ hless hs₁ rfl)
        · rw [dif_neg hcount] at h
          obtain ⟨s₁, hs₁, he⟩ := Option.map_eq_some_iff.1 h
          cases he
          exact .beside htakes hmerges hm.symm hn.symm (Nat.lt_of_sub_pos hlt) (not_not.1 hcount) hs₁
      · rw [if_neg hlt] at h
        cases Option.some.inj h
        exact .merged htakes hmerges hm.symm hn.symm (Nat.le_of_sub_eq_zero (Nat.eq_zero_of_not_pos hlt))

end Inventory
end ForgottenServer
