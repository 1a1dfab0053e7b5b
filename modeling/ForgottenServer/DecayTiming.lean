/-
# When an item decays

An item that is given to `startDecay` waits for its bucket to come up, and then for whole
cycles of a second. A bucket comes up every fourth `checkDecay`, but an item's bucket is
found by seconds and not by ticks: with less than a second left an item decays at the very
next tick, up to 875 ms too early, and the last part of a second after whole ones is cut off
or, from 875 ms on, taken for one tick.

`ticksLeft` counts the calls of `checkDecay` until the one that decays an item; the duration
and the bucket of the item determine it, and each call takes one off, whatever happens to the
other items. So the time of the decay is known.

Key definitions: `Undisturbed`, `Tracked`, `ticksLeft`, `OnTime`.
Key theorems: `transformItem_frame`, `decay_frame`, `turn_tracked`, `checkDecay_tracked`,
`decays_at`, `onTime_iff`.
-/
import ForgottenServer.DecayQueue

namespace ForgottenServer
namespace Decay

variable {items : UInt16 → ItemType}

/-! ### Other items -/

/-- Nothing but the item `q` and new ones are touched. -/
def Frame (q : Ref) (s s' : State) : Prop := ∀ r, r ≠ q → r < s.next → s'.things r = s.things r

theorem Frame.refl (q : Ref) (s : State) : Frame q s s := fun _ _ _ => rfl

theorem setThing_frame (s : State) (q : Ref) (t : Thing) : Frame q s (s.setThing q t) :=
  fun _ hr _ => s.things_setThing_of_ne t hr

theorem detach_frame {s s' : State} {q : Ref} (h : Frame q s s') : Frame q s ((s'.detach q).releaseItem q) :=
  fun r hr hlt => (s'.things_setThing_of_ne _ hr).trans (h r hr hlt)

theorem internalRemoveItem_frame (s : State) (q : Ref) : Frame q s (internalRemoveItem s q) := by
  unfold internalRemoveItem
  split
  · exact .refl q s
  · split
    · exact .refl q s
    · split
      · exact .refl q s
      · exact detach_frame (.refl q s)

theorem replaceThing_frame (s : State) (q : Ref) (p : Parent) (newItem : Option Item) :
    Frame q s (replaceThing s q p newItem).1 := by
  cases newItem with
  | none => exact .refl q s
  | some it =>
    refine detach_frame fun r hr hlt => ?_
    exact State.things_setThing_of_ne _ _ (Nat.ne_of_lt hlt)

theorem transformOnTop_frame (s : State) (q : Ref) (p : Parent) (newId : UInt16) (newCount : ℤ) :
    Frame q s (transformOnTop items s q p newId newCount).1 := by
  unfold transformOnTop
  dsimp only
  split
  · exact setThing_frame s q _
  · exact detach_frame (setThing_frame s q _)

theorem transformUsedUp_frame (s : State) (q : Ref) (p : Parent) (newId : UInt16) {again : State × Option Ref}
    (hagain : Frame q s again.1) : Frame q s (transformUsedUp items s q p newId again).1 := by
  unfold transformUsedUp
  dsimp only
  split_ifs
  · exact internalRemoveItem_frame s q
  · exact internalRemoveItem_frame s q
  · exact replaceThing_frame s q p _
  · exact hagain
  · exact internalRemoveItem_frame s q
  · exact replaceThing_frame s q p _
  · exact hagain

theorem transformSame_frame (items : UInt16 → ItemType) (s : State) (q : Ref) (newId : UInt16) (newCount : ℤ) :
    Frame q s (transformSame items s q newId newCount) := by
  obtain ⟨it, hit, -⟩ := transformSame_eq items s q newId newCount
  rw [hit]
  exact setThing_frame s q _

theorem transformItemWith_frame (s : State) (q : Ref) (newId : UInt16) (newCount : ℤ)
    {again : State × Option Ref} (hagain : Frame q s again.1) :
    Frame q s (transformItemWith items s q newId newCount again).1 := by
  unfold transformItemWith
  dsimp only
  split
  · exact .refl q s
  split
  · exact .refl q s
  split
  · exact .refl q s
  split
  · exact .refl q s
  split
  · exact .refl q s
  split
  · exact transformOnTop_frame s q _ newId newCount
  split
  · split
    · exact transformUsedUp_frame s q _ newId hagain
    · exact transformSame_frame items s q newId newCount
  · exact replaceThing_frame s q _ _

theorem transformItem_frame (items : UInt16 → ItemType) (s : State) (q : Ref) (newId : UInt16) (newCount : ℤ) :
    Frame q s (transformItem items s q newId newCount).1 :=
  transformItemWith_frame s q newId newCount (transformItemWith_frame s q newId (-1) (.refl q s))

/-! ### The item that is followed -/

/-- What the decay of an item depends on, but for its place in the world. -/
def mayDecay (items : UInt16 → ItemType) (it : Item) : Bool :=
  !((items it.id).decayTo < 0 || (items it.id).decayTime = 0) && !it.hasAttribute .uniqueId

theorem canDecay_iff {s : State} {r : Ref} :
    canDecay items s r = true ↔ s.isRemoved r = false ∧ mayDecay items (s.item r) = true := by
  unfold canDecay mayDecay
  rw [Bool.and_assoc, Bool.and_eq_true, Bool.not_eq_true']

/-- The item is as it was but for its parent, and waits where it did. -/
structure Spared (r : Ref) (s s' : State) : Prop where
  item : s'.item r = s.item r
  decayItems : ∀ b, (s'.decayItems b).count r = (s.decayItems b).count r
  toDecayItems : s'.toDecayItems.count r = s.toDecayItems.count r
  lastBucket : s'.lastBucket = s.lastBucket
  next : s.next ≤ s'.next

theorem Spared.refl (r : Ref) (s : State) : Spared r s s := ⟨rfl, fun _ => rfl, rfl, rfl, le_refl _⟩

theorem Spared.trans {r : Ref} {s s' s'' : State} (h : Spared r s s') (h' : Spared r s' s'') : Spared r s s'' :=
  ⟨h'.item.trans h.item, fun b => (h'.decayItems b).trans (h.decayItems b), h'.toDecayItems.trans h.toDecayItems,
    h'.lastBucket.trans h.lastBucket, h.next.trans h'.next⟩

/-- A step that leaves the queues alone, and the item. -/
theorem Leaves.spared {r : Ref} {s s' : State} (h : Leaves s s') (hitem : s'.item r = s.item r) : Spared r s s' :=
  ⟨hitem, fun b => by rw [h.decayItems], by rw [h.toDecayItems], h.lastBucket, h.next⟩

theorem Frame.spared {r q : Ref} {s s' : State} (h : Frame q s s') (hs : Leaves s s') (hne : r ≠ q)
    (hlt : r < s.next) : Spared r s s' :=
  hs.spared (congrArg Thing.item (h r hne hlt))

/-- A decay spares all items but the one that decays; the induction is on the depth of the calls. -/
theorem decay_spared (items : UInt16 → ItemType) (r : Ref) : ∀ depth : ℕ,
    (∀ s item s', startDecay items depth s item = some s' → item ≠ some r → r < s.next → Spared r s s') ∧
    (∀ s q s', internalDecayItem items depth s q = some s' → r ≠ q → r < s.next → Spared r s s') := by
  intro depth
  induction depth with
  | zero => exact ⟨nofun, nofun⟩
  | succ depth ih =>
    constructor
    · intro s item s' h hitem hlt
      cases item with
      | none =>
        obtain rfl := Option.some.inj h
        exact .refl r s
      | some n =>
        have hne : n ≠ r := fun he => hitem (congrArg some he)
        rw [startDecay] at h
        split_ifs at h
        · obtain rfl := Option.some.inj h
          exact .refl r s
        · obtain rfl := Option.some.inj h
          exact .refl r s
        · obtain rfl := Option.some.inj h
          exact ⟨congrArg Thing.item (s.things_setThing_of_ne _ hne.symm), fun _ => rfl,
            List.count_cons_of_ne hne, rfl, le_refl _⟩
        · exact ih.2 s n s' h hne.symm hlt
    · intro s q s' h hne hlt
      rw [internalDecayItem] at h
      dsimp only at h
      split_ifs at h
      · have ht := transformItem_transformed items s q (.ofNat (uint 2 (items (s.item q).id).decayTo)) (-1)
        have hitem : (transformItem items s q (.ofNat (uint 2 (items (s.item q).id).decayTo)) (-1)).2 ≠ some r := by
          intro hn
          rcases ht.result r hn with rfl | ⟨hnew, -⟩
          · exact hne rfl
          · exact absurd hlt (not_lt.2 hnew)
        exact ((transformItem_frame items s q _ _).spared ht.toLeaves hne hlt).trans
          (ih.1 _ _ _ h hitem (hlt.trans_le ht.next))
      · obtain rfl := Option.some.inj h
        exact (internalRemoveItem_frame s q).spared (internalRemoveItem_leaves s q) hne hlt

theorem push_spared {r q : Ref} {s s' : State} (h : Spared r s s') (hne : r ≠ q) (bucket : Bucket) :
    Spared r s (s'.push bucket q) where
  item := h.item
  decayItems b := by
    by_cases hb : b = bucket
    · subst hb
      rw [State.decayItems_push_self, List.count_append, List.count_singleton, if_neg (by simpa using hne.symm),
        add_zero, h.decayItems]
    · rw [State.decayItems_push_of_ne _ _ hb, h.decayItems]
  toDecayItems := h.toDecayItems
  lastBucket := h.lastBucket
  next := h.next

theorem setItem_spared {r q : Ref} (s : State) (hne : r ≠ q) (it : Item) : Spared r s (s.setItem q it) :=
  ⟨congrArg Thing.item (s.things_setThing_of_ne _ hne), fun _ => rfl, rfl, rfl, le_refl _⟩

theorem Spared.releaseItem {r : Ref} {s s' : State} (h : Spared r s s') (q : Ref) : Spared r s (s'.releaseItem q) :=
  ⟨h.item, h.decayItems, h.toDecayItems, h.lastBucket, h.next⟩

/-- The turn of another item. -/
theorem turn_spared {depth : ℕ} {bucket : Bucket} {r q : Ref} {s : State} {out : State × Outcome}
    (h : turn items depth bucket s q = some out) (hne : r ≠ q) (hlt : r < s.next) : Spared r s out.1 := by
  have hset : ∀ it, Spared r s (s.setItem q it) := fun it => setItem_spared s hne it
  have hdecay : ∀ it s', internalDecayItem items depth (s.setItem q it) q = some s' → Spared r s (s'.releaseItem q) :=
    fun it s' h => ((hset it).trans ((decay_spared items r depth).2 _ _ _ h hne hlt)).releaseItem q
  unfold turn at h
  dsimp only at h
  split_ifs at h
  · obtain rfl := Option.some.inj h
    exact (hset _).releaseItem q
  · obtain ⟨s', hs', rfl⟩ := Option.map_eq_some_iff.1 h
    exact hdecay _ s' hs'
  · obtain ⟨s', hs', rfl⟩ := Option.map_eq_some_iff.1 h
    exact hdecay _ s' hs'
  · obtain rfl := Option.some.inj h
    exact push_spared (hset _) hne _
  · obtain rfl := Option.some.inj h
    exact push_spared (hset _) hne _

/-- The turns of other items. -/
theorem turns_spared {depth : ℕ} {bucket : Bucket} {r : Ref} : ∀ {rest : List Ref} {s s' : State}
    {outcomes : List (Ref × Outcome)}, turns items depth bucket s rest = some (s', outcomes) → r ∉ rest →
    r < s.next → Spared r s s' ∧ ∀ o, (r, o) ∉ outcomes
  | [], s, s', outcomes, h, _, _ => by
    obtain ⟨rfl, rfl⟩ := Prod.mk.inj (Option.some.inj h)
    exact ⟨.refl r s, fun o => List.not_mem_nil⟩
  | q :: rest, s, s', outcomes, h, hr, hlt => by
    obtain ⟨hne, hr⟩ := not_or.1 (List.mem_cons.not.1 hr)
    rw [turns] at h
    obtain ⟨⟨s₁, outcome⟩, hturn, h⟩ := Option.bind_eq_some_iff.1 h
    obtain ⟨⟨s₂, outcomes'⟩, hturns, heq⟩ := Option.map_eq_some_iff.1 h
    obtain ⟨rfl, rfl⟩ := Prod.mk.inj heq
    have h₁ := turn_spared hturn hne hlt
    obtain ⟨h₂, hout⟩ := turns_spared hturns hr (hlt.trans_le h₁.next)
    refine ⟨h₁.trans h₂, fun o hmem => ?_⟩
    rcases List.mem_cons.1 hmem with he | hmem
    · exact hne (congrArg Prod.fst he)
    · exact hout o hmem

/-! ### `cleanup` -/

theorem count_decayItems_push (s : State) (bucket b : Bucket) (q r : Ref) :
    ((s.push bucket q).decayItems b).count r = (s.decayItems b).count r + if b = bucket then [q].count r else 0 := by
  by_cases hb : b = bucket
  · subst hb
    rw [State.decayItems_push_self, List.count_append, if_pos rfl]
  · rw [State.decayItems_push_of_ne _ _ hb, if_neg hb, add_zero]

theorem count_foldl_enqueue (r : Ref) (b : Bucket) : ∀ (l : List Ref) (s : State),
    ((l.foldl enqueue s).decayItems b).count r =
      (s.decayItems b).count r + if b = bucketOf s r then l.count r else 0
  | [], s => by simp
  | q :: l, s => by
    have hbucket : bucketOf (enqueue s q) r = bucketOf s r := by
      rw [enqueue_eq]
      rfl
    rw [List.foldl_cons, count_foldl_enqueue r b l, hbucket, enqueue_eq, count_decayItems_push]
    by_cases hq : q = r
    · subst hq
      by_cases hb : b = bucketOf s q
      · rw [if_pos hb, if_pos hb, if_pos hb, List.count_singleton_self, List.count_cons_self]
        omega
      · rw [if_neg hb, if_neg hb, if_neg hb]
    · rw [List.count_cons_of_ne hq, List.count_cons_of_ne hq, List.count_nil, ite_self, add_zero]

/-- What `cleanup` does with an item. -/
theorem cleanup_item (s : State) (r : Ref) :
    (cleanup s).item r = s.item r ∧ (cleanup s).lastBucket = s.lastBucket ∧ (cleanup s).next = s.next ∧
      (cleanup s).toDecayItems = [] ∧ ∀ b, ((cleanup s).decayItems b).count r =
        (s.decayItems b).count r + if b = bucketOf s r then s.toDecayItems.count r else 0 := by
  obtain ⟨hnext, hlast, -⟩ := cleanup_facts s
  have hitem := (item_decrement s.things s.toReleaseItems r).1
  obtain ⟨hthings, -⟩ := foldl_enqueue s.toDecayItems
    { s with things := s.toReleaseItems.foldl decrementReferenceCounter s.things, toReleaseItems := [] }
  refine ⟨?_, hlast, hnext, rfl, fun b => ?_⟩
  · unfold State.item cleanup
    dsimp only
    rw [hthings]
    exact hitem
  · refine (count_foldl_enqueue r b s.toDecayItems _).trans ?_
    have hbucket : bucketOf { s with
        things := s.toReleaseItems.foldl decrementReferenceCounter s.things, toReleaseItems := [] } r =
        bucketOf s r := by
      unfold bucketOf State.item
      dsimp only
      rw [hitem]
    rw [hbucket]

theorem cleanup_spared {r : Ref} {s : State} (h : s.toDecayItems.count r = 0) : Spared r s (cleanup s) := by
  obtain ⟨hitem, hlast, hnext, hto, hcount⟩ := cleanup_item s r
  refine ⟨hitem, fun b => ?_, ?_, hlast, hnext.ge⟩
  · rw [hcount, h, ite_self, add_zero]
  · rw [hto, h]
    rfl

/-! ### The turn of the item -/

theorem getDuration_decreaseDuration (it : Item) (time : ℤ) :
    ((it.decreaseDuration time).getDuration : ℤ) = ((it.getDuration : ℤ) - time) % 2 ^ 32 := by
  have hnew : (it.decreaseDuration time).existing .duration =
      some (.integer (it.getAttributes.getIntAttr .duration + -time)) := by
    rw [Item.existing_decreaseDuration, if_pos rfl]
  have hold : it.getIntAttr .duration = int32 (it.getAttributes.getIntAttr .duration) := by
    unfold Item.getIntAttr Item.getAttributes
    cases it.attributes with
    | none => rfl
    | some a => rfl
  have hmod : ∀ n : ℤ, (uint 4 (int32 n) : ℤ) = n % 2 ^ 32 := by
    intro n
    unfold uint int32
    split <;> omega
  unfold Item.getDuration
  rw [Item.getIntAttr_of_existing hnew rfl, hold, hmod, hmod]
  omega

theorem leftTime_eq (it : Item) : leftTime it =
    if it.getDuration < 2 ^ 31 then (it.getDuration : ℤ) - min 1000 (it.getDuration : ℤ) else 0 := by
  have hd : it.getDuration < 2 ^ 32 := by
    unfold Item.getDuration uint
    omega
  have hcycle : decayCycle = 1000 := rfl
  unfold leftTime int32
  rw [hcycle]
  split_ifs <;> omega

/-- The calls of `checkDecay` after the next one of the item's bucket, until the one that decays it. -/
def laterTicks (d : ℕ) : ℕ :=
  if d < 1000 ∨ 2 ^ 31 ≤ d then 0 else 4 * (d / 1000 - 1) + if 875 ≤ d % 1000 then 1 else 0

/-- A turn: the item decays, or it waits in this bucket or in the next one with less time. -/
theorem turn_self {depth : ℕ} {bucket : Bucket} {r : Ref} {s s' : State} {outcome : Outcome}
    (h : turn items depth bucket s r = some (s', outcome)) (hcan : canDecay items s r = true) :
    (laterTicks (s.item r).getDuration = 0 ∧ outcome = .decayed) ∨
      ∃ (it : Item) (i : ℕ), (i = 1 ∨ i = 4) ∧ outcome = .kept ∧
        s' = (s.setItem r it).push (bucket + Fin.ofNat decayBuckets i) r ∧ (∃ time, it = (s.item r).decreaseDuration time) ∧
        i + laterTicks it.getDuration = laterTicks (s.item r).getDuration := by
  have hleft := leftTime_eq (s.item r)
  have hcycle : decayCycle = 1000 := rfl
  have hinterval : decayInterval = 250 := rfl
  have hdur : ∀ time : ℤ, 0 ≤ time → time ≤ (s.item r).getDuration →
      (((s.item r).decreaseDuration time).getDuration : ℤ) = (s.item r).getDuration - time := by
    intro time h0 hle
    have hlt : (s.item r).getDuration < 2 ^ 32 := by
      unfold Item.getDuration uint
      omega
    rw [getDuration_decreaseDuration]
    omega
  have hint : (s.item r).getDuration < 2 ^ 31 → int32 (s.item r).getDuration = (s.item r).getDuration :=
    fun h => Item.int32_of_range ⟨by omega, by omega⟩
  unfold turn at h
  rw [if_neg (by simpa using hcan)] at h
  dsimp only at h
  by_cases hzero : leftTime (s.item r) ≤ 0
  · rw [if_pos hzero] at h
    obtain ⟨s₁, -, heq⟩ := Option.map_eq_some_iff.1 h
    refine .inl ⟨?_, (Prod.mk.inj heq).2.symm⟩
    unfold laterTicks
    split_ifs at hleft ⊢ <;> omega
  rw [if_neg hzero] at h
  have hsmall : (s.item r).getDuration < 2 ^ 31 := by
    by_contra hge
    rw [if_neg hge] at hleft
    omega
  rw [if_pos hsmall] at hleft
  rw [hint hsmall, hcycle] at h
  have hmin : min 1000 ((s.item r).getDuration : ℤ) = 1000 := by omega
  rw [hmin] at hleft h
  have hnew := hdur 1000 (by omega) (by omega)
  by_cases hlast : leftTime (s.item r) < 1000
  · rw [if_pos hlast] at h
    by_cases hnear : leftTime (s.item r) < 875
    · have hquot : ((leftTime (s.item r) + decayInterval / 2) / 1000).toNat = 0 := by omega
      rw [hquot, Nat.add_zero, if_pos (Fin.ofNat_val_eq_self bucket)] at h
      obtain ⟨s₁, -, heq⟩ := Option.map_eq_some_iff.1 h
      refine .inl ⟨?_, (Prod.mk.inj heq).2.symm⟩
      unfold laterTicks
      split_ifs <;> omega
    · have hquot : ((leftTime (s.item r) + decayInterval / 2) / 1000).toNat = 1 := by omega
      have hbucket : ∀ b : Bucket, Fin.ofNat decayBuckets (b + 1) = b + Fin.ofNat decayBuckets 1 ∧
          b + Fin.ofNat decayBuckets 1 ≠ b := by decide
      rw [hquot, (hbucket bucket).1, if_neg (hbucket bucket).2] at h
      obtain ⟨rfl, rfl⟩ := Prod.mk.inj (Option.some.inj h)
      refine .inr ⟨_, 1, .inl rfl, rfl, rfl, ⟨1000, rfl⟩, ?_⟩
      unfold laterTicks
      split_ifs <;> omega
  · rw [if_neg hlast] at h
    have hbucket : ∀ b : Bucket, b + Fin.ofNat decayBuckets 4 = b := by decide
    obtain ⟨rfl, rfl⟩ := Prod.mk.inj (Option.some.inj h)
    refine .inr ⟨_, 4, .inr rfl, rfl, by rw [hbucket], ⟨1000, rfl⟩, ?_⟩
    unfold laterTicks
    split_ifs <;> omega

/-! ### A call of `checkDecay` -/

/-- A waiting item: its bucket is the one of the `i`th call of `checkDecay` from now. -/
structure Tracked (items : UInt16 → ItemType) (s : State) (r : Ref) (i d : ℕ) : Prop where
  lt : r < s.next
  decaying : (s.item r).isDecaying = true
  duration : (s.item r).getDuration = d
  mayDecay : mayDecay items (s.item r) = true
  toDecayItems : s.toDecayItems.count r = 0
  pos : 1 ≤ i ∧ i ≤ 4
  waits : ∀ b, (s.decayItems b).count r = if b = s.lastBucket + Fin.ofNat decayBuckets i then 1 else 0

theorem Tracked.spared {s s' : State} {r : Ref} {i d : ℕ} (h : Tracked items s r i d) (hs : Spared r s s') :
    Tracked items s' r i d where
  lt := h.lt.trans_le hs.next
  decaying := hs.item ▸ h.decaying
  duration := hs.item ▸ h.duration
  mayDecay := hs.item ▸ h.mayDecay
  toDecayItems := hs.toDecayItems.trans h.toDecayItems
  pos := h.pos
  waits b := by rw [hs.decayItems, hs.lastBucket, h.waits]

/-- The item is in the world when its turn comes. -/
def Present (items : UInt16 → ItemType) (depth : ℕ) (bucket : Bucket) (r : Ref) : State → List Ref → Prop
  | _, [] => True
  | s, q :: rest =>
    if q = r then s.isRemoved r = false
    else ∀ out ∈ turn items depth bucket s q, Present items depth bucket r out.1 rest

instance Present.decidable {depth : ℕ} {bucket : Bucket} {r : Ref} :
    ∀ (s : State) (rest : List Ref), Decidable (Present items depth bucket r s rest)
  | _, [] => inferInstanceAs (Decidable True)
  | _, q :: rest =>
    have (s : State) : Decidable (Present items depth bucket r s rest) := decidable s rest
    inferInstanceAs (Decidable (if q = r then _ else _))

/-- The turns up to the one of the item, its own, and those after it. -/
theorem turns_split {depth : ℕ} {bucket : Bucket} {r : Ref} {behind : List Ref} : ∀ {front : List Ref}
    {s s' : State} {outcomes : List (Ref × Outcome)},
    turns items depth bucket s (front ++ r :: behind) = some (s', outcomes) → r ∉ front → r ∉ behind →
    r < s.next → Present items depth bucket r s (front ++ r :: behind) →
    ∃ s₁ s₂ outcome, Spared r s s₁ ∧ s₁.isRemoved r = false ∧
      turn items depth bucket s₁ r = some (s₂, outcome) ∧ (r < s₂.next → Spared r s₂ s') ∧
      (r < s₂.next → ∀ o, (r, o) ∈ outcomes ↔ o = outcome) ∧ (r, outcome) ∈ outcomes
  | [], s, s', outcomes, h, _, hbehind, hlt, hpresent => by
    rw [List.nil_append, turns] at h
    obtain ⟨⟨s₂, outcome⟩, hturn, h⟩ := Option.bind_eq_some_iff.1 h
    obtain ⟨⟨s₃, outcomes'⟩, hturns, heq⟩ := Option.map_eq_some_iff.1 h
    obtain ⟨rfl, rfl⟩ := Prod.mk.inj heq
    rw [List.nil_append, Present, if_pos rfl] at hpresent
    refine ⟨s, s₂, outcome, .refl r s, hpresent, hturn, fun hlt₂ => (turns_spared hturns hbehind hlt₂).1,
      fun hlt₂ o => ?_, List.mem_cons_self⟩
    have hnone := (turns_spared hturns hbehind hlt₂).2 o
    rw [List.mem_cons, or_iff_left hnone, Prod.mk.injEq, and_iff_right rfl]
  | q :: front, s, s', outcomes, h, hfront, hbehind, hlt, hpresent => by
    obtain ⟨hne, hfront⟩ := not_or.1 (List.mem_cons.not.1 hfront)
    rw [List.cons_append, turns] at h
    obtain ⟨⟨s₀, outcome₀⟩, hturn, h⟩ := Option.bind_eq_some_iff.1 h
    obtain ⟨⟨s₃, outcomes'⟩, hturns, heq⟩ := Option.map_eq_some_iff.1 h
    obtain ⟨rfl, rfl⟩ := Prod.mk.inj heq
    rw [List.cons_append, Present, if_neg fun he => hne he.symm] at hpresent
    have h₀ := turn_spared hturn hne hlt
    obtain ⟨s₁, s₂, outcome, h₁, hremoved, hown, h₂, hiff, hmem⟩ :=
      turns_split hturns hfront hbehind (hlt.trans_le h₀.next) (hpresent _ hturn)
    refine ⟨s₁, s₂, outcome, h₀.trans h₁, hremoved, hown, h₂, fun hlt₂ o => ?_, List.mem_cons_of_mem _ hmem⟩
    rw [List.mem_cons, ← hiff hlt₂]
    exact or_iff_right fun he => hne (congrArg Prod.fst he)

theorem mayDecay_decreaseDuration (it : Item) (time : ℤ) :
    mayDecay items (it.decreaseDuration time) = mayDecay items it := by
  have hunique : (it.decreaseDuration time).hasAttribute .uniqueId = it.hasAttribute .uniqueId := by
    rw [Item.hasAttribute_eq, Item.hasAttribute_eq, Item.existing_decreaseDuration, if_neg (by decide)]
  unfold mayDecay
  rw [hunique]
  rfl

/-- The loop has passed by the item's bucket, or put the item back. -/
theorem Tracked.next_bucket {s s' : State} {r : Ref} {i d : ℕ} (hlt : r < s'.next)
    (hdecaying : (s'.item r).isDecaying = true) (hduration : (s'.item r).getDuration = d)
    (hmay : Decay.mayDecay items (s'.item r) = true) (hto : s'.toDecayItems.count r = 0) (hpos : 1 ≤ i ∧ i ≤ 4)
    (hwaits : ∀ b, (s'.decayItems b).count r = if b = s.lastBucket + 1 + Fin.ofNat decayBuckets i then 1 else 0) :
    Tracked items (cleanup { s' with lastBucket := s.lastBucket + 1 }) r i d := by
  have ht : Tracked items { s' with lastBucket := s.lastBucket + 1 } r i d :=
    ⟨hlt, hdecaying, hduration, hmay, hto, hpos, hwaits⟩
  exact ht.spared (cleanup_spared hto)

/-- A call of `checkDecay`: the item's time comes nearer by one call, or it decays. -/
theorem checkDecay_tracked {depth : ℕ} {s s' : State} {outcomes : List (Ref × Outcome)} {r : Ref} {i d : ℕ}
    (h : Tracked items s r i d) (hcheck : checkDecay items depth s = some (s', outcomes))
    (hpresent : Present items depth (s.lastBucket + 1) r (atBucket s) (s.decayItems (s.lastBucket + 1))) :
    (i + laterTicks d = 1 ∧ (r, Outcome.decayed) ∈ outcomes) ∨
      ((r, Outcome.decayed) ∉ outcomes ∧
        ∃ i' d', Tracked items s' r i' d' ∧ i' + laterTicks d' + 1 = i + laterTicks d) := by
  obtain ⟨⟨s₃, outcomes'⟩, hturns, heq⟩ := Option.map_eq_some_iff.1 hcheck
  obtain ⟨rfl, rfl⟩ := Prod.mk.inj heq
  change turns items depth (s.lastBucket + 1) (atBucket s) (s.decayItems (s.lastBucket + 1)) = _ at hturns
  have hself : ((atBucket s).decayItems (s.lastBucket + 1)).count r = 0 := by
    show (Function.update s.decayItems _ _ _).count r = 0
    rw [Function.update_self, List.count_nil]
  have hother : ∀ b, b ≠ s.lastBucket + 1 → ((atBucket s).decayItems b).count r = (s.decayItems b).count r := by
    intro b hb
    show (Function.update s.decayItems _ _ b).count r = _
    rw [Function.update_of_ne hb]
  obtain ⟨hpos, hle⟩ := h.pos
  by_cases hone : i = 1
  · -- its turn has come
    subst hone
    have hbucket : s.lastBucket + Fin.ofNat decayBuckets 1 = s.lastBucket + 1 := rfl
    have hcount : (s.decayItems (s.lastBucket + 1)).count r = 1 := by rw [h.waits, hbucket, if_pos rfl]
    obtain ⟨front, behind, hlist, hfront⟩ :=
      List.eq_append_cons_of_mem (List.count_pos_iff.1 (hcount.symm ▸ Nat.one_pos))
    rw [hlist] at hturns hpresent hcount
    have hbehind : r ∉ behind := by
      rw [List.count_append, List.count_cons_self] at hcount
      exact List.count_eq_zero.1 (by omega)
    obtain ⟨s₁, s₂, outcome, h₁, hremoved, hown, h₂, hiff, hmem⟩ :=
      turns_split hturns hfront hbehind h.lt hpresent
    have hitem : s₁.item r = s.item r := h₁.item
    have hcan : canDecay items s₁ r = true := canDecay_iff.2 ⟨hremoved, hitem ▸ h.mayDecay⟩
    rcases turn_self hown hcan with ⟨hticks, rfl⟩ | ⟨it, i, hi, rfl, rfl, ⟨time, hit⟩, hticks⟩
    · rw [hitem, h.duration] at hticks
      exact .inl ⟨by omega, hmem⟩
    · have hlt : r < s₁.next := h.lt.trans_le h₁.next
      have hs := h₂ hlt
      have hown' : (s₁.setItem r it).item r = it := s₁.item_setItem_self r it
      have hnew : s₃.item r = it := hs.item.trans hown'
      rw [hitem, h.duration] at hticks
      refine .inr ⟨fun hd => ?_, i, it.getDuration, Tracked.next_bucket (hlt.trans_le hs.next) ?_ ?_ ?_ ?_ ?_ ?_, ?_⟩
      · exact nomatch (hiff hlt _).1 hd
      · rw [hnew, hit, Item.isDecaying_decreaseDuration, hitem]
        exact h.decaying
      · rw [hnew]
      · rw [hnew, hit, mayDecay_decreaseDuration, hitem]
        exact h.mayDecay
      · exact hs.toDecayItems.trans (h₁.toDecayItems.trans h.toDecayItems)
      · omega
      · intro b
        have hpush := count_decayItems_push (s₁.setItem r it) (s.lastBucket + 1 + Fin.ofNat decayBuckets i) b r r
        rw [List.count_singleton_self] at hpush
        have hzero : (s₁.decayItems b).count r = 0 := by
          rw [h₁.decayItems]
          by_cases hb : b = s.lastBucket + 1
          · rw [hb, hself]
          · rw [hother b hb, h.waits, hbucket, if_neg hb]
        calc (s₃.decayItems b).count r
            = (s₁.decayItems b).count r + if b = s.lastBucket + 1 + Fin.ofNat decayBuckets i then 1 else 0 :=
              (hs.decayItems b).trans hpush
          _ = _ := by rw [hzero, zero_add]
      · omega
  · -- another bucket's turn
    have hnext : s.lastBucket + Fin.ofNat decayBuckets i = s.lastBucket + 1 + Fin.ofNat decayBuckets (i - 1) ∧
        s.lastBucket + Fin.ofNat decayBuckets i ≠ s.lastBucket + 1 := by
      have hall : ∀ b : Bucket, ∀ i ∈ [2, 3, 4], b + Fin.ofNat decayBuckets i =
          b + 1 + Fin.ofNat decayBuckets (i - 1) ∧ b + Fin.ofNat decayBuckets i ≠ b + 1 := by decide
      refine hall s.lastBucket i ?_
      simp only [List.mem_cons, List.not_mem_nil, or_false]
      omega
    have hnot : r ∉ s.decayItems (s.lastBucket + 1) := by
      rw [← List.count_eq_zero, h.waits, if_neg fun he => hnext.2 he.symm]
    obtain ⟨hs, hout⟩ := turns_spared hturns hnot h.lt
    refine .inr ⟨hout _, i - 1, d, Tracked.next_bucket (h.lt.trans_le hs.next) ?_ ?_ ?_ ?_ ?_ ?_, ?_⟩
    · rw [hs.item]
      exact h.decaying
    · rw [hs.item]
      exact h.duration
    · rw [hs.item]
      exact h.mayDecay
    · exact hs.toDecayItems.trans h.toDecayItems
    · omega
    · intro b
      rw [hs.decayItems, ← hnext.1]
      by_cases hb : b = s.lastBucket + 1
      · rw [hb, hself, if_neg fun he => hnext.2 he.symm]
      · rw [hother b hb, h.waits]
    · omega

/-! ### From the start -/

/-- An item that has been given to `startDecay` and waits for `cleanup`. -/
structure Begun (items : UInt16 → ItemType) (s : State) (r : Ref) (d : ℕ) : Prop where
  lt : r < s.next
  decaying : (s.item r).isDecaying = true
  duration : (s.item r).getDuration = d
  mayDecay : Decay.mayDecay items (s.item r) = true
  toDecayItems : s.toDecayItems.count r = 1
  decayItems : ∀ b, (s.decayItems b).count r = 0

theorem Begun.spared {s s' : State} {r : Ref} {d : ℕ} (h : Begun items s r d) (hs : Spared r s s') :
    Begun items s' r d where
  lt := h.lt.trans_le hs.next
  decaying := hs.item ▸ h.decaying
  duration := hs.item ▸ h.duration
  mayDecay := hs.item ▸ h.mayDecay
  toDecayItems := hs.toDecayItems.trans h.toDecayItems
  decayItems b := (hs.decayItems b).trans (h.decayItems b)

/-- An item that can decay, has time left and does not wait yet. -/
structure Fresh (items : UInt16 → ItemType) (s : State) (r : Ref) : Prop where
  lt : r < s.next
  canDecay : Decay.canDecay items s r = true
  decaying : (s.item r).isDecaying = false
  duration : 0 < (s.item r).getDuration
  queued : r ∉ s.queued

theorem startDecay_begun {s : State} {r : Ref} (h : Fresh items s r) (depth : ℕ) :
    ∃ s', startDecay items (depth + 1) s (some r) = some s' ∧ Begun items s' r (s.item r).getDuration := by
  have hcount : s.toDecayItems.count r = 0 ∧ ∀ b, (s.decayItems b).count r = 0 := by
    have hq := List.count_eq_zero.2 h.queued
    rw [State.count_queued] at hq
    refine ⟨by omega, fun b => ?_⟩
    have hle : (s.decayItems b).count r ≤ ∑ b, (s.decayItems b).count r :=
      Finset.single_le_sum (f := fun b => (s.decayItems b).count r) (fun b _ => Nat.zero_le _) (Finset.mem_univ b)
    omega
  have hother : ∀ t : ItemAttr, t ≠ .decayState →
      ((s.item r).setDecaying 1).existing t = (s.item r).existing t := by
    intro t ht
    unfold Item.setDecaying
    rw [Item.existing_setIntAttr _ _ rfl, if_neg ht]
  have hitem : ∀ t : Thing, ({ s.setThing r t with toDecayItems := r :: s.toDecayItems } : State).item r = t.item :=
    fun t => congrArg Thing.item (s.things_setThing_self r t)
  rw [startDecay, if_neg (by simpa using h.canDecay), if_neg (by simpa using h.decaying), if_pos h.duration]
  refine ⟨_, rfl, h.lt, ?_, ?_, ?_, ?_, hcount.2⟩
  · rw [hitem]
    exact (Item.isDecaying_setDecaying _ (by decide)).trans (by decide)
  · rw [hitem]
    show uint 4 (((s.item r).setDecaying 1).getIntAttr .duration) = uint 4 ((s.item r).getIntAttr .duration)
    rw [Item.getIntAttr_congr rfl (hother .duration (by decide))]
  · rw [hitem]
    have hunique : ((s.item r).setDecaying 1).hasAttribute .uniqueId = (s.item r).hasAttribute .uniqueId := by
      rw [Item.hasAttribute_eq, hother .uniqueId (by decide), ← Item.hasAttribute_eq]
    show Decay.mayDecay items ((s.item r).setDecaying 1) = true
    unfold mayDecay
    rw [hunique]
    exact (canDecay_iff.1 h.canDecay).2
  · show (r :: s.toDecayItems).count r = 1
    rw [List.count_cons_self, hcount.1]

/-- The number of the call of `checkDecay` that decays an item with so much time left. -/
def ticks (d : ℕ) : ℕ := (if d < 1000 then 1 else 4) + laterTicks d

/-- `cleanup` gives the item its bucket. -/
theorem Begun.cleanup {s : State} {r : Ref} {d : ℕ} (h : Begun items s r d) :
    ∃ i, Tracked items (Decay.cleanup s) r i d ∧ i + laterTicks d = ticks d := by
  obtain ⟨hitem, hlast, hnext, hto, hcount⟩ := cleanup_item s r
  have hcycle : decayCycle = 1000 := rfl
  have hbucket : bucketOf s r = s.lastBucket + Fin.ofNat decayBuckets (if d < 1000 then 1 else 4) := by
    unfold bucketOf
    rw [h.duration]
    by_cases hd : d < 1000
    · have hdiv : d / 1000 = 0 := Nat.div_eq_of_lt hd
      have hall : ∀ b : Bucket, Fin.ofNat decayBuckets (b + 1 + 0) = b + Fin.ofNat decayBuckets 1 := by decide
      rw [if_neg (by omega), if_pos hd, hdiv, hall]
    · have hall : ∀ b : Bucket, b = b + Fin.ofNat decayBuckets 4 := by decide
      rw [if_pos (by omega), if_neg hd, ← hall]
  refine ⟨if d < 1000 then 1 else 4, ⟨?_, ?_, ?_, ?_, ?_, ?_, fun b => ?_⟩, rfl⟩
  · rw [hnext]
    exact h.lt
  · rw [hitem]
    exact h.decaying
  · rw [hitem]
    exact h.duration
  · rw [hitem]
    exact h.mayDecay
  · rw [hto]
    rfl
  · split <;> omega
  · rw [hcount, h.decayItems, h.toDecayItems, zero_add, hbucket, hlast]

/-! ### Runs -/

/-- The item has not decayed in any of the calls of `checkDecay`. -/
def Undecayed (r : Ref) (passes : List (List (Ref × Outcome))) : Prop :=
  ∀ pass ∈ passes, (r, Outcome.decayed) ∉ pass

instance Undecayed.decidable (r : Ref) (passes : List (List (Ref × Outcome))) : Decidable (Undecayed r passes) :=
  inferInstanceAs (Decidable (∀ pass ∈ _, _))

/-- Until it decays, a step neither transforms the item nor removes it; `cleanup` has run before
each `checkDecay`, which returns. -/
def Undisturbed (items : UInt16 → ItemType) (r : Ref) (w : Watched) (a : Action) : Prop :=
  Undecayed r w.passes → match a with
    | .transformItem q _ _ | .removeItem q => q ≠ r
    | .checkDecay depth => w.state.toDecayItems = [] ∧ (checkDecay items depth w.state).isSome ∧
        Present items depth (w.state.lastBucket + 1) r (atBucket w.state)
          (w.state.decayItems (w.state.lastBucket + 1))
    | _ => True

instance Undisturbed.decidable (r : Ref) (w : Watched) (a : Action) : Decidable (Undisturbed items r w a) := by
  unfold Undisturbed
  cases a <;> infer_instance

/-- The item decays first in the call of `checkDecay` before which there were `n` others. -/
def DecaysAt (r : Ref) (passes : List (List (Ref × Outcome))) (n : ℕ) : Prop :=
  ∃ later pass before, passes = later ++ pass :: before ∧ (r, Outcome.decayed) ∈ pass ∧ Undecayed r before ∧
    before.length = n

/-- The invariant: the item waits and the calls left are those of its duration, or it has decayed in
the last of them. -/
def Counted (items : UInt16 → ItemType) (r : Ref) (d : ℕ) (w : Watched) : Prop :=
  (Undecayed r w.passes ∧ ((w.passes = [] ∧ Begun items w.state r d) ∨
    ∃ i d', Tracked items w.state r i d' ∧ w.passes.length + (i + laterTicks d') = ticks d)) ∨
  DecaysAt r w.passes (ticks d - 1)

variable (items) in
theorem step_passes (w : Watched) (a : Action) :
    (w.step items a).passes = w.passes ∨ ∃ outcomes, (w.step items a).passes = outcomes :: w.passes := by
  cases a with
  | checkDecay depth =>
    unfold Watched.step
    dsimp only
    split
    · exact .inr ⟨_, rfl⟩
    · exact .inl rfl
  | startDecay depth r =>
    unfold Watched.step
    dsimp only
    split <;> exact .inl rfl
  | transformItem r newId newCount =>
    unfold Watched.step
    dsimp only
    split <;> exact .inl rfl
  | appear thing => exact .inl rfl
  | move r parent => exact .inl rfl
  | removeItem r => exact .inl rfl
  | cleanup => exact .inl rfl

theorem DecaysAt.step {r : Ref} {w : Watched} {n : ℕ} (h : DecaysAt r w.passes n) (a : Action) :
    DecaysAt r (w.step items a).passes n := by
  obtain ⟨later, pass, before, hpasses, hrest⟩ := h
  rcases step_passes items w a with heq | ⟨outcomes, heq⟩
  · exact ⟨later, pass, before, heq.trans hpasses, hrest⟩
  · exact ⟨outcomes :: later, pass, before, by rw [heq, hpasses]; rfl, hrest⟩

/-- A step other than `checkDecay` and `cleanup` spares the item while it waits. -/
theorem step_spared {r : Ref} {w : Watched} {a : Action} (hlt : r < w.state.next)
    (hdecaying : (w.state.item r).isDecaying = true)
    (ha : match a with
      | .transformItem q _ _ | .removeItem q => q ≠ r
      | .checkDecay _ | .cleanup => False
      | _ => True) :
    Spared r w.state (w.step items a).state ∧ (w.step items a).passes = w.passes := by
  cases a with
  | checkDecay depth => exact ha.elim
  | cleanup => exact ha.elim
  | appear thing =>
    refine ⟨(appear_leaves w.state thing).spared ?_, rfl⟩
    show (appear w.state thing).item r = _
    unfold appear
    split
    · rfl
    · exact congrArg Thing.item (State.things_setThing_of_ne _ _ (Nat.ne_of_lt hlt))
  | move q parent =>
    refine ⟨(move_leaves w.state q parent).spared ?_, rfl⟩
    show (move w.state q parent).item r = _
    unfold move
    split
    · rfl
    · by_cases hq : r = q
      · subst hq
        unfold State.item
        rw [State.things_setThing_self]
      · exact congrArg Thing.item (w.state.things_setThing_of_ne _ hq)
  | removeItem q =>
    exact ⟨(internalRemoveItem_frame w.state q).spared (internalRemoveItem_leaves w.state q) (Ne.symm ha) hlt, rfl⟩
  | transformItem q newId newCount =>
    unfold Watched.step
    dsimp only
    split
    · exact ⟨(transformItem_frame items w.state q newId newCount).spared
        (transformItem_transformed items w.state q newId newCount).toLeaves (Ne.symm ha) hlt, rfl⟩
    · exact ⟨.refl r _, rfl⟩
  | startDecay depth q =>
    unfold Watched.step
    dsimp only
    split
    swap
    · exact ⟨.refl r _, rfl⟩
    refine ⟨?_, rfl⟩
    dsimp only
    cases hstart : startDecay items depth w.state (some q) with
    | none => exact .refl r _
    | some s' =>
      by_cases hq : q = r
      · -- it is in state `DECAYING_TRUE`, so that nothing happens
        subst hq
        obtain _ | depth := depth
        · exact nomatch hstart
        rw [startDecay, if_pos hdecaying, ite_self] at hstart
        obtain rfl := Option.some.inj hstart
        exact .refl q _
      · exact (decay_spared items r depth).1 _ _ _ hstart (fun he => hq (Option.some.inj he)) hlt

/-- A step counts the calls of `checkDecay` that are left. -/
theorem Counted.step {r : Ref} {d : ℕ} {w : Watched} (h : Counted items r d w) {a : Action}
    (ha : Undisturbed items r w a) : Counted items r d (w.step items a) := by
  rcases h with ⟨hun, h⟩ | h
  swap
  · exact .inr (h.step a)
  have ha := ha hun
  -- a step that spares the item
  have hspared : Spared r w.state (w.step items a).state ∧ (w.step items a).passes = w.passes →
      Counted items r d (w.step items a) := by
    rintro ⟨hs, hpasses⟩
    refine .inl ⟨hpasses ▸ hun, ?_⟩
    rw [hpasses]
    rcases h with ⟨hnil, hb⟩ | ⟨i, d', ht, hsum⟩
    · exact .inl ⟨hnil, hb.spared hs⟩
    · exact .inr ⟨i, d', ht.spared hs, hsum⟩
  have hlt : r < w.state.next := by
    rcases h with ⟨-, hb⟩ | ⟨i, d', ht, -⟩
    · exact hb.lt
    · exact ht.lt
  have hdecaying : (w.state.item r).isDecaying = true := by
    rcases h with ⟨-, hb⟩ | ⟨i, d', ht, -⟩
    · exact hb.decaying
    · exact ht.decaying
  cases a with
  | appear thing => exact hspared (step_spared hlt hdecaying trivial)
  | move q parent => exact hspared (step_spared hlt hdecaying trivial)
  | startDecay depth q => exact hspared (step_spared hlt hdecaying trivial)
  | transformItem q newId newCount => exact hspared (step_spared hlt hdecaying ha)
  | removeItem q => exact hspared (step_spared hlt hdecaying ha)
  | cleanup =>
    rcases h with ⟨hnil, hb⟩ | ⟨i, d', ht, hsum⟩
    · obtain ⟨i, ht, hi⟩ := hb.cleanup
      refine .inl ⟨hun, .inr ⟨i, d, ht, ?_⟩⟩
      show w.passes.length + _ = _
      rw [hnil, List.length_nil, zero_add, hi]
    · exact .inl ⟨hun, .inr ⟨i, d', ht.spared (cleanup_spared ht.toDecayItems), hsum⟩⟩
  | checkDecay depth =>
    obtain ⟨hto, hsome, hpresent⟩ := ha
    obtain ⟨⟨s', outcomes⟩, hcheck⟩ := Option.isSome_iff_exists.1 hsome
    have hstep : w.step items (.checkDecay depth) = { state := s', passes := outcomes :: w.passes } := by
      unfold Watched.step
      dsimp only
      rw [hcheck]
    rw [hstep]
    rcases h with ⟨-, hb⟩ | ⟨i, d', ht, hsum⟩
    · have := hb.toDecayItems
      rw [hto] at this
      exact nomatch this
    · rcases checkDecay_tracked ht hcheck hpresent with ⟨hone, hmem⟩ | ⟨hnot, i', d'', ht', hsum'⟩
      · exact .inr ⟨[], outcomes, w.passes, rfl, hmem, hun, by omega⟩
      · refine .inl ⟨List.forall_mem_cons.2 ⟨hnot, hun⟩, .inr ⟨i', d'', ht', ?_⟩⟩
        rw [List.length_cons]
        omega

/-- The call of `checkDecay` that decays an item: its number is known from the duration. -/
theorem decays_at {s : State} {r : Ref} (h : Fresh items s r) (depth : ℕ) (as : List Action)
    (has : Run.Along (Watched.step items) (Undisturbed items r)
      (Watched.step items { state := s } (.startDecay (depth + 1) r)) as) :
    let w := Run.run (Watched.step items) (Watched.step items { state := s } (.startDecay (depth + 1) r)) as
    DecaysAt r w.passes (ticks (s.item r).getDuration - 1) ∨
      (Undecayed r w.passes ∧ w.passes.length < ticks (s.item r).getDuration) := by
  obtain ⟨s', hs', hb⟩ := startDecay_begun h depth
  have hstart : Watched.step items { state := s } (.startDecay (depth + 1) r) = { state := s' } := by
    unfold Watched.step
    dsimp only
    rw [if_pos h.lt, hs']
    rfl
  rw [hstart] at has ⊢
  intro w
  have hinit : Counted items r (s.item r).getDuration { state := s' } := .inl ⟨nofun, .inl ⟨rfl, hb⟩⟩
  have hend : Counted items r (s.item r).getDuration w :=
    Run.run_inv (I := Counted items r (s.item r).getDuration) (fun _ _ h ha => h.step ha) as hinit has
  rcases hend with ⟨hun, ⟨hnil, -⟩ | ⟨i, d', ht, hsum⟩⟩ | hat
  · refine .inr ⟨hun, ?_⟩
    rw [hnil, List.length_nil, ticks]
    split <;> omega
  · have := ht.pos
    exact .inr ⟨hun, by omega⟩
  · exact .inl hat

/-! ### On time -/

/-- Ticks every 250 ms, the first one `p` ms after the start: the item decays first at most 250 ms
before or after its duration has passed. -/
def OnTime (r : Ref) (p d : ℕ) (passes : List (List (Ref × Outcome))) : Prop :=
  ∃ n, DecaysAt r passes n ∧ d ≤ p + 250 * n + 250 ∧ p + 250 * n ≤ d + 250

theorem decaysAt_unique {r : Ref} {passes : List (List (Ref × Outcome))} {n n' : ℕ} (h : DecaysAt r passes n)
    (h' : DecaysAt r passes n') : n = n' := by
  obtain ⟨later, pass, before, rfl, hmem, hun, rfl⟩ := h
  obtain ⟨later', pass', before', heq, hmem', hun', rfl⟩ := h'
  induction later generalizing later' with
  | nil =>
    cases later' with
    | nil => rw [(List.cons.inj heq).2]
    | cons x later' =>
      refine absurd hmem' (hun pass' ?_)
      rw [(List.cons.inj heq).2]
      simp
  | cons x later ih =>
    cases later' with
    | nil =>
      refine absurd hmem (hun' pass ?_)
      rw [← (List.cons.inj heq).2]
      simp
    | cons x' later' => exact ih later' (List.cons.inj heq).2

/-- **Decay goes by whole seconds.** In every run in which the item is left alone and whose ticks go
on beyond the time it is due, it decays on time if and only if it has less than a second to go and is
due by the first tick, or what it has beyond whole seconds is over by then. -/
theorem onTime_iff {s : State} {r : Ref} (h : Fresh items s r) (depth : ℕ) (as : List Action) {p : ℕ} (hp : p ≤ 250)
    (has : Run.Along (Watched.step items) (Undisturbed items r)
      (Watched.step items { state := s } (.startDecay (depth + 1) r)) as)
    (hlong : (s.item r).getDuration + 250 < p + 250 * (Run.run (Watched.step items)
      (Watched.step items { state := s } (.startDecay (depth + 1) r)) as).passes.length) :
    OnTime r p (s.item r).getDuration (Run.run (Watched.step items)
      (Watched.step items { state := s } (.startDecay (depth + 1) r)) as).passes ↔
      if (s.item r).getDuration < 1000 then (s.item r).getDuration ≤ p + 250
      else (s.item r).getDuration < 2 ^ 31 ∧ (s.item r).getDuration % 1000 ≤ p := by
  have hpos := h.duration
  generalize hd : (s.item r).getDuration = d at *
  rcases decays_at h depth as has with hat | ⟨hun, hlt⟩
  · rw [hd] at hat
    have hiff : OnTime r p d (Run.run (Watched.step items)
        (Watched.step items { state := s } (.startDecay (depth + 1) r)) as).passes ↔
        d ≤ p + 250 * (ticks d - 1) + 250 ∧ p + 250 * (ticks d - 1) ≤ d + 250 := by
      constructor
      · rintro ⟨n, hn, hwindow⟩
        rwa [decaysAt_unique hn hat] at hwindow
      · intro hwindow
        exact ⟨_, hat, hwindow⟩
    rw [hiff]
    unfold ticks laterTicks
    split_ifs <;> omega
  · rw [hd] at hlt
    exfalso
    unfold ticks laterTicks at hlt
    split_ifs at hlt <;> omega

theorem clock_fresh : Fresh clockTypes (clock 1874) 0 :=
  ⟨by decide, by decide +kernel, by decide +kernel, by decide +kernel, by decide⟩

/-- A clock that ticks for six seconds. -/
theorem onTime_iff_clock :
    OnTime 0 100 ((clock 1874).item 0).getDuration (Run.run (Watched.step clockTypes)
      (Watched.step clockTypes { state := clock 1874 } (.startDecay 2 0))
      (.cleanup :: List.replicate 26 (.checkDecay 3))).passes ↔
      if ((clock 1874).item 0).getDuration < 1000 then ((clock 1874).item 0).getDuration ≤ 100 + 250
      else ((clock 1874).item 0).getDuration < 2 ^ 31 ∧ ((clock 1874).item 0).getDuration % 1000 ≤ 100 :=
  onTime_iff clock_fresh 1 (.cleanup :: List.replicate 26 (.checkDecay 3)) (by decide) (by decide +kernel)
    (by decide +kernel)

/-- A clock with 900 ms to go. -/
def wornClock : State where
  things _ :=
    { item := (Item.construct clockTypes .item 1874 0).setIntAttr .duration 900
      parent := some { cylinder := .world false } }
  next := 1

/-- It decays at the first tick. -/
theorem not_onTime_wornClock :
    ¬ ∀ (items : UInt16 → ItemType) (s : State) (r : Ref) (depth : ℕ) (as : List Action) (p : ℕ),
      Fresh items s r → p ≤ 250 →
      Run.Along (Watched.step items) (Undisturbed items r)
        (Watched.step items { state := s } (.startDecay (depth + 1) r)) as →
      (s.item r).getDuration + 250 < p + 250 * (Run.run (Watched.step items)
        (Watched.step items { state := s } (.startDecay (depth + 1) r)) as).passes.length →
      OnTime r p (s.item r).getDuration (Run.run (Watched.step items)
        (Watched.step items { state := s } (.startDecay (depth + 1) r)) as).passes := by
  intro h
  have hfresh : Fresh clockTypes wornClock 0 :=
    ⟨by decide, by decide +kernel, by decide +kernel, by decide +kernel, by decide⟩
  obtain ⟨n, hn, hlow, -⟩ := h clockTypes wornClock 0 1 (.cleanup :: List.replicate 5 (.checkDecay 3)) 100 hfresh
    (by decide) (by decide +kernel) (by decide +kernel)
  have hpasses : (Run.run (Watched.step clockTypes)
      (Watched.step clockTypes { state := wornClock } (.startDecay 2 0))
      (.cleanup :: List.replicate 5 (.checkDecay 3))).passes =
      [[(0, .kept)], [], [], []] ++ [(0, .decayed)] :: [] := by decide +kernel
  have hfirst : DecaysAt 0 _ 0 := ⟨_, _, [], hpasses, List.mem_cons_self, nofun, rfl⟩
  rw [decaysAt_unique hn hfirst, show (wornClock.item 0).getDuration = 900 by decide +kernel] at hlow
  exact absurd hlow (by decide)

end Decay
end ForgottenServer
