/-
# Equality of items with a history

`Item::equals` compares the attribute lists of two items, and before them
whether there are lists. A list is made by the first call that sets an
attribute, and stays when the last attribute is removed: an item with an empty
list shows the same as an item without one, and is not equal to it.

Key definitions: `Change`, `history`, `SameVisible`, `EmptyListApart`.
Key theorems: `sameVisible_iff_existing`, `history_isSome`, `equals_history_iff`.
-/
import ForgottenServer.Item

namespace ForgottenServer
namespace Item

/-! ### Histories -/

/-- A call that sets or removes an attribute. -/
inductive Change
  | setInt (t : ItemAttr) (n : ℤ)
  | setStr (t : ItemAttr) (s : Bytes)
  | remove (t : ItemAttr)

def change (it : Item) : Change → Item
  | .setInt t n => it.setIntAttr t n
  | .setStr t s => it.setStrAttr t s
  | .remove t => it.removeAttribute t

/-- An item after its construction and some calls. -/
def history (items : UInt16 → ItemType) (cls : ItemClass) (type : UInt16) (count : ℕ) (changes : List Change) : Item :=
  changes.foldl change (construct items cls type count)

/-- What the readers of an item show is the same. -/
structure SameVisible (a b : Item) : Prop where
  id : a.id = b.id
  has : ∀ t, a.hasAttribute t = b.hasAttribute t
  int : ∀ t, a.getIntAttr t = b.getIntAttr t
  str : ∀ t, a.getStrAttr t = b.getStrAttr t

/-- Two items without attributes of one type, one of which has an attribute list. -/
structure EmptyListApart (a b : Item) : Prop where
  id : a.id = b.id
  left : ∀ t, a.hasAttribute t = false
  right : ∀ t, b.hasAttribute t = false
  apart : a.attributes.isSome ≠ b.attributes.isSome

/-! ### The values are 32-bit -/

/-- The integers that an item holds are 32-bit ones. -/
def Ranged (it : Item) : Prop := ∀ t n, it.existing t = some (.integer n) → int32 n = n

section Values

variable {a b it : Item} {t : ItemAttr}

theorem int32_int32 (n : ℤ) : int32 (int32 n) = int32 n := by
  unfold int32
  split_ifs <;> omega

theorem existing_setIntAttr_of_not (h : t.isInt = false) (n : ℤ) (u : ItemAttr) :
    (it.setIntAttr t n).existing u = it.existing u := by
  unfold setIntAttr ItemAttributes.setIntAttr
  rw [dif_neg (by simp [h])]
  exact existing_getAttributes it u

theorem existing_setStrAttr_of_not {s : Bytes} (h : ¬ (t.isStr ∧ s ≠ [])) (u : ItemAttr) :
    (it.setStrAttr t s).existing u = it.existing u := by
  unfold setStrAttr ItemAttributes.setStrAttr
  rw [dif_neg h]
  exact existing_getAttributes it u

/-- Every call leaves 32-bit integers. -/
theorem Ranged.change (h : Ranged it) (c : Change) : Ranged (it.change c) := by
  intro u n hu
  cases c with
  | setInt t m =>
    cases ht : t.isInt with
    | false => exact h u n ((existing_setIntAttr_of_not ht m u).symm.trans hu)
    | true =>
      rw [Item.change, existing_setIntAttr it m ht] at hu
      split at hu
      · obtain rfl : int32 m = n := by simpa using hu
        exact int32_int32 m
      · exact h u n hu
  | setStr t s =>
    by_cases hs : t.isStr ∧ s ≠ []
    · rw [Item.change, existing_setStrAttr it hs.1 hs.2] at hu
      split at hu
      · simp at hu
      · exact h u n hu
    · exact h u n ((existing_setStrAttr_of_not hs u).symm.trans hu)
  | remove t =>
    rw [Item.change, existing_removeAttribute] at hu
    split at hu
    · simp at hu
    · exact h u n hu

theorem Ranged.setIntAttr (h : Ranged it) (t : ItemAttr) (n : ℤ) : Ranged (it.setIntAttr t n) :=
  h.change (.setInt t n)

theorem Ranged.setDefaultDuration {items : UInt16 → ItemType} (h : Ranged it) :
    Ranged (it.setDefaultDuration items) := by
  unfold Item.setDefaultDuration
  split
  · exact h.setIntAttr _ _
  · exact h

theorem ranged_construct (items : UInt16 → ItemType) (cls : ItemClass) (type : UInt16) (count : ℕ) :
    Ranged (construct items cls type count) := by
  have hbare (n : ℕ) : Ranged { cls, id := type, count := n, attributes := none } := fun t m h => by
    simp [existing] at h
  unfold construct
  refine Ranged.setDefaultDuration ?_
  split_ifs
  · exact (hbare 1).setIntAttr _ _
  · exact hbare _
  · exact hbare _
  · exact hbare 1
  · exact (hbare 1).setIntAttr _ _
  · exact (hbare 1).setIntAttr _ _
  · exact hbare 1

theorem Ranged.foldl : ∀ (changes : List Change) {it : Item}, Ranged it → Ranged (changes.foldl Item.change it)
  | [], _, h => h
  | c :: changes, _, h => Ranged.foldl changes (h.change c)

theorem ranged_history (items : UInt16 → ItemType) (cls : ItemClass) (type : UInt16) (count : ℕ)
    (changes : List Change) : Ranged (history items cls type count changes) :=
  Ranged.foldl changes (ranged_construct items cls type count)

end Values

/-! ### What is visible -/

section Visible

variable {a b : Item} {t : ItemAttr}

/-- The readers show the attribute of a type, and no more. -/
theorem existing_eq_of_readers (ha : Ranged a) (hb : Ranged b) (hhas : a.hasAttribute t = b.hasAttribute t)
    (hint : a.getIntAttr t = b.getIntAttr t) (hstr : a.getStrAttr t = b.getStrAttr t) :
    a.existing t = b.existing t := by
  rw [hasAttribute_eq, hasAttribute_eq] at hhas
  by_cases hnone : a.existing t = none
  · have hnone' : b.existing t = none := by
      rw [hnone] at hhas
      exact Option.not_isSome_iff_eq_none.1 (by simp [← hhas])
    rw [hnone, hnone']
  have hsome : b.existing t ≠ none := fun h => by
    rw [h] at hhas
    exact hnone (Option.not_isSome_iff_eq_none.1 (by simp [hhas]))
  cases hs : t.isStr with
  | true =>
    obtain ⟨s, hs₁⟩ := existing_str hs hnone
    obtain ⟨s', hs₂⟩ := existing_str hs hsome
    rw [getStrAttr_of_existing hs₁ hs, getStrAttr_of_existing hs₂ hs] at hstr
    rw [hs₁, hs₂, hstr]
  | false =>
    have hi : t.isInt := by simp [ItemAttr.isInt, hs]
    obtain ⟨n, hn₁⟩ := existing_int hi hnone
    obtain ⟨n', hn₂⟩ := existing_int hi hsome
    rw [getIntAttr_of_existing hn₁ hi, getIntAttr_of_existing hn₂ hi, ha t n hn₁, hb t n' hn₂] at hint
    rw [hn₁, hn₂, hint]

theorem getIntAttr_of_not (h : t.isInt = false) : a.getIntAttr t = 0 := by
  unfold getIntAttr ItemAttributes.getIntAttr
  cases a.attributes with
  | none => rfl
  | some x => simp [h, int32]

theorem getStrAttr_of_not (h : t.isStr = false) : a.getStrAttr t = [] := by
  unfold getStrAttr ItemAttributes.getStrAttr
  cases a.attributes with
  | none => rfl
  | some x => simp [h]

theorem readers_of_existing_eq (h : a.existing t = b.existing t) :
    a.hasAttribute t = b.hasAttribute t ∧ a.getIntAttr t = b.getIntAttr t ∧ a.getStrAttr t = b.getStrAttr t := by
  refine ⟨by rw [hasAttribute_eq, hasAttribute_eq, h], ?_, ?_⟩
  · cases hint : t.isInt with
    | true => exact getIntAttr_congr hint h
    | false => rw [getIntAttr_of_not hint, getIntAttr_of_not hint]
  · cases hstr : t.isStr with
    | true => exact getStrAttr_congr hstr h
    | false => rw [getStrAttr_of_not hstr, getStrAttr_of_not hstr]

theorem sameVisible_iff_existing (ha : Ranged a) (hb : Ranged b) :
    SameVisible a b ↔ a.id = b.id ∧ a.existing = b.existing := by
  constructor
  · rintro ⟨hid, hhas, hint, hstr⟩
    exact ⟨hid, funext fun t => existing_eq_of_readers ha hb (hhas t) (hint t) (hstr t)⟩
  · rintro ⟨hid, h⟩
    have hread (t : ItemAttr) := readers_of_existing_eq (t := t) (congrFun h t)
    exact ⟨hid, fun t => (hread t).1, fun t => (hread t).2.1, fun t => (hread t).2.2⟩

theorem equals_equivalence : Equivalence fun a b : Item => a.equals b = true where
  refl _ := equals_iff.2 ⟨rfl, rfl⟩
  symm h := equals_iff.2 ⟨(equals_iff.1 h).1.symm, (equals_iff.1 h).2.symm⟩
  trans h₁ h₂ := equals_iff.2
    ⟨(equals_iff.1 h₁).1.trans (equals_iff.1 h₂).1, (equals_iff.1 h₁).2.trans (equals_iff.1 h₂).2⟩

/-- Equality compares what is visible, and whether there is a list. -/
theorem equals_iff_existing :
    a.equals b = true ↔ a.id = b.id ∧ a.existing = b.existing ∧ a.attributes.isSome = b.attributes.isSome := by
  rw [equals_iff]
  refine and_congr_right fun _ => ?_
  have hfun (x : Item) : x.existing = fun t => x.attributes.bind fun y => y.existing t := rfl
  rw [hfun, hfun]
  cases ha : a.attributes with
  | none =>
    cases b.attributes with
    | none => simp
    | some y => simp
  | some x =>
    cases b.attributes with
    | none => simp
    | some y => simp

theorem existing_eq_none_iff (a : Item) : (∀ t, a.hasAttribute t = false) ↔ ∀ t, a.existing t = none := by
  refine forall_congr' fun t => ?_
  rw [hasAttribute_eq]
  simp

/-- Without a list there is no attribute. -/
theorem existing_of_isSome_false (h : a.attributes.isSome = false) (t : ItemAttr) : a.existing t = none := by
  have hnone : a.attributes = none := Option.not_isSome_iff_eq_none.1 (by simp [h])
  rw [existing, hnone, Option.bind_none]

/-- Two items that show the same, one of them with a list, have no attributes. -/
theorem hasAttribute_of_apart (h : a.existing = b.existing) (hapart : a.attributes.isSome ≠ b.attributes.isSome) :
    (∀ t, a.hasAttribute t = false) ∧ ∀ t, b.hasAttribute t = false := by
  rw [existing_eq_none_iff, existing_eq_none_iff, ← h, and_self]
  cases hb : b.attributes.isSome with
  | false =>
    rw [h]
    exact existing_of_isSome_false hb
  | true => exact existing_of_isSome_false (by rw [hb] at hapart; simpa using hapart)

theorem equals_iff_sameVisible (ha : Ranged a) (hb : Ranged b) :
    (a.equals b = true ↔ SameVisible a b) ↔ ¬ EmptyListApart a b := by
  rw [equals_iff_existing, sameVisible_iff_existing ha hb]
  constructor
  · rintro h ⟨hid, hleft, hright, hapart⟩
    have hexisting : a.existing = b.existing := funext fun t => by
      rw [(existing_eq_none_iff a).1 hleft, (existing_eq_none_iff b).1 hright]
    exact hapart (h.2 ⟨hid, hexisting⟩).2.2
  · refine fun h => ⟨fun ⟨hid, hexisting, _⟩ => ⟨hid, hexisting⟩, fun ⟨hid, hexisting⟩ => ⟨hid, hexisting, ?_⟩⟩
    by_contra hapart
    obtain ⟨hleft, hright⟩ := hasAttribute_of_apart hexisting hapart
    exact h ⟨hid, hleft, hright, hapart⟩

end Visible

/-! ### Two histories -/

section Histories

variable (items : UInt16 → ItemType)

/-- The calls that make a list: those that set, also where they set nothing. -/
def Change.Sets : Change → Prop
  | .remove _ => False
  | _ => True

theorem isSome_change (it : Item) (c : Change) :
    (it.change c).attributes.isSome = true ↔ it.attributes.isSome = true ∨ c.Sets := by
  cases c with
  | setInt t n => simp [change, setIntAttr, Change.Sets]
  | setStr t s => simp [change, setStrAttr, Change.Sets]
  | remove t => simp [change, removeAttribute, Change.Sets]

/-- There is a list when the construction made one, or a call that sets. -/
theorem history_isSome (cls : ItemClass) (type : UInt16) (count : ℕ) (changes : List Change) :
    (history items cls type count changes).attributes.isSome = true ↔
      (construct items cls type count).attributes.isSome = true ∨ ∃ c ∈ changes, c.Sets := by
  unfold history
  generalize construct items cls type count = it
  induction changes generalizing it with
  | nil => simp
  | cons c changes ih =>
    rw [List.foldl_cons, ih, isSome_change, or_assoc]
    simp

/-- Equality is an equivalence, and is that of what is visible, except between
an item with an empty list and one without a list. -/
theorem equals_history_iff (cls cls' : ItemClass) (type type' : UInt16) (count count' : ℕ)
    (changes changes' : List Change) :
    Equivalence (fun a b : Item => a.equals b = true) ∧
      (((history items cls type count changes).equals (history items cls' type' count' changes') = true ↔
          SameVisible (history items cls type count changes) (history items cls' type' count' changes')) ↔
        ¬ EmptyListApart (history items cls type count changes) (history items cls' type' count' changes')) :=
  ⟨equals_equivalence, equals_iff_sameVisible (ranged_history _ _ _ _ _) (ranged_history _ _ _ _ _)⟩

/-- An action id that is set and removed again: nothing of it is visible, and
the item is not equal to a new one. -/
theorem not_equals_of_removed :
    SameVisible (history (fun _ => {}) .item 2148 1 [.setInt .actionId 100, .remove .actionId])
        (history (fun _ => {}) .item 2148 1 []) ∧
      (history (fun _ => {}) .item 2148 1 [.setInt .actionId 100, .remove .actionId]).equals
        (history (fun _ => {}) .item 2148 1 []) = false := by
  refine ⟨⟨rfl, fun t => ?_, fun t => ?_, fun t => ?_⟩, rfl⟩
  · cases t <;> rfl
  · cases t <;> rfl
  · cases t <;> rfl

end Histories
end Item
end ForgottenServer
