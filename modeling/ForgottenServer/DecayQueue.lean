/-
# The queues of decaying items over a run

An item in state `DECAYING_TRUE` that is still in the world should wait in the
queues exactly once. Two things go wrong. `setID` sets the state back while the
item waits, so that `startDecay` puts it in a second time; and a decay that does
not set the state back leaves an item that says it waits and does not. Besides,
an item with 875 to 999 ms left moves on to the very next bucket. `Allowed` says
that no step does any of this; then the queues stay in order over the whole run.

Key definitions: `Leaves`, `Started`, `Taken`, `Allowed`, `Waiting`, `Orderly`.
Key theorems: `decay_started`, `turn_waiting`, `startDecay_again`, `orderly_of_allowed`.
-/
import ForgottenServer.Decay

namespace ForgottenServer
namespace Decay

/-! ### What one call can do -/

/-- The queues are as before, and no item begins to decay. -/
structure Leaves (s s' : State) : Prop where
  decayItems : s'.decayItems = s.decayItems
  toDecayItems : s'.toDecayItems = s.toDecayItems
  lastBucket : s'.lastBucket = s.lastBucket
  next : s.next ≤ s'.next
  decays : ∀ q, s'.Decays q → s.Decays q

theorem Leaves.refl (s : State) : Leaves s s := ⟨rfl, rfl, rfl, le_refl _, fun _ h => h⟩

/-- A call that gives back an item: the old one or a new one. -/
structure Transformed (s : State) (r : Ref) (out : State × Option Ref) : Prop
    extends Leaves s out.1 where
  result : ∀ n, out.2 = some n → n = r ∨ (s.next ≤ n ∧ n < out.1.next)

theorem Transformed.none {s s' : State} {r : Ref} (h : Leaves s s') :
    Transformed s r (s', Option.none) := ⟨h, nofun⟩

theorem Transformed.same {s s' : State} {r : Ref} (h : Leaves s s') :
    Transformed s r (s', some r) := ⟨h, fun _ hn => .inl (Option.some.inj hn).symm⟩

theorem setItem_leaves {s : State} {r : Ref} {it : Item}
    (hit : it.isDecaying → (s.item r).isDecaying) : Leaves s (s.setItem r it) :=
  ⟨rfl, rfl, rfl, le_refl _, fun _ => s.decays_setItem hit⟩

theorem detach_leaves {s s' : State} (r : Ref) (h : Leaves s s') :
    Leaves s ((s'.detach r).releaseItem r) :=
  ⟨h.decayItems, h.toDecayItems, h.lastBucket, h.next,
    fun q hq => h.decays q (s'.decays_detach hq).2⟩

theorem internalRemoveItem_leaves (s : State) (r : Ref) : Leaves s (internalRemoveItem s r) := by
  unfold internalRemoveItem
  split
  · exact .refl s
  · split
    · exact .refl s
    · split
      · exact .refl s
      · exact detach_leaves r (.refl s)

variable {items : UInt16 → ItemType}

theorem replaceThing_transformed (s : State) (r : Ref) (p : Parent) {newItem : Option Item}
    (hnew : ∀ it, newItem = some it → it.isDecaying = false) :
    Transformed s r (replaceThing s r p newItem) := by
  cases newItem with
  | none => exact .none (.refl s)
  | some it =>
    refine ⟨detach_leaves r ⟨rfl, rfl, rfl, Nat.le_succ _, fun q hq => ?_⟩, fun n hn => ?_⟩
    · rw [State.decays_setThing] at hq
      split at hq
      · rw [hnew it rfl] at hq
        exact absurd hq.1 (by decide)
      · exact hq
    · obtain rfl := Option.some.inj hn
      exact .inr ⟨le_refl _, Nat.lt_succ_self _⟩

theorem setID_leaves (items : UInt16 → ItemType) (s : State) (r : Ref) (newid : UInt16) {it : Item}
    (hit : it.isDecaying = ((s.item r).setID items newid).isDecaying) :
    Leaves s (s.setItem r it) := by
  apply setItem_leaves
  intro h
  rw [hit, Item.isDecaying_setID, Bool.and_eq_true] at h
  exact h.1

theorem transformOnTop_transformed (s : State) (r : Ref) (p : Parent) (newId : UInt16)
    (newCount : ℤ) : Transformed s r (transformOnTop items s r p newId newCount) := by
  have hset : Leaves s (s.setItem r
      (if newCount ≠ -1 then ((s.item r).setID items newId).setSubType items (uint 2 newCount)
        else (s.item r).setID items newId)) := by
    apply setID_leaves items s r newId
    split
    · exact Item.isDecaying_setSubType items _ _
    · rfl
  unfold transformOnTop
  dsimp only
  split
  · exact .same hset
  · exact .none (detach_leaves r hset)

theorem transformUsedUp_transformed (s : State) (r : Ref) (p : Parent) (newId : UInt16)
    {again : State × Option Ref} (hagain : Transformed s r again) :
    Transformed s r (transformUsedUp items s r p newId again) := by
  have hremove : Transformed s r (internalRemoveItem s r, none) :=
    .none (internalRemoveItem_leaves s r)
  unfold transformUsedUp
  dsimp only
  split_ifs
  · exact hremove
  · exact hremove
  · exact replaceThing_transformed s r p fun it => Item.isDecaying_createItem
  · exact hagain
  · exact hremove
  · exact replaceThing_transformed s r p fun it => Item.isDecaying_createItem
  · exact hagain

/-- An item that stays the same object gets its decay state from `setID`. -/
theorem transformSame_eq (items : UInt16 → ItemType) (s : State) (r : Ref) (newId : UInt16) (newCount : ℤ) :
    ∃ it, transformSame items s r newId newCount = s.setItem r it ∧
      it.isDecaying = ((s.item r).setID items
        (if (items (s.item r).id).id ≠ (items newId).id then newId else (s.item r).id)).isDecaying := by
  unfold transformSame updateThing
  dsimp only
  split
  · rw [s.item_setItem_self, s.setItem_setItem]
    refine ⟨_, rfl, ?_⟩
    rw [Item.isDecaying_setSubType, Item.isDecaying_setID_setDefaultSubtype]
  · exact ⟨_, rfl, Item.isDecaying_setSubType items _ _⟩

theorem transformItemWith_transformed (s : State) (r : Ref) (newId : UInt16) (newCount : ℤ)
    {again : State × Option Ref} (hagain : Transformed s r again) :
    Transformed s r (transformItemWith items s r newId newCount again) := by
  have hself : Transformed s r (s, some r) := .same (.refl s)
  unfold transformItemWith
  dsimp only
  split
  · exact hself
  split
  · exact .none (.refl s)
  split
  · exact hself
  split
  · exact hself
  split
  · exact hself
  split
  · exact transformOnTop_transformed s r _ newId newCount
  split
  · split
    · exact transformUsedUp_transformed s r _ newId hagain
    · obtain ⟨it, hit, hdecay⟩ := transformSame_eq items s r newId newCount
      rw [hit]
      exact .same (setID_leaves items s r _ hdecay)
  · exact replaceThing_transformed s r _ fun it => Item.isDecaying_createItem

theorem transformItem_transformed (items : UInt16 → ItemType) (s : State) (r : Ref)
    (newId : UInt16) (newCount : ℤ) : Transformed s r (transformItem items s r newId newCount) :=
  transformItemWith_transformed s r newId newCount
    (transformItemWith_transformed s r newId (-1) (.none (.refl s)))

/-- What `startDecay` and `internalDecayItem` can do: one item at most goes into
`toDecayItems`, the given one or a new one. -/
structure Started (s s' : State) (item : Option Ref) (new : Option Ref) : Prop where
  decayItems : s'.decayItems = s.decayItems
  toDecayItems : s'.toDecayItems = new.toList ++ s.toDecayItems
  lastBucket : s'.lastBucket = s.lastBucket
  next : s.next ≤ s'.next
  new_lt : ∀ n, new = some n → n < s'.next
  new_eq : ∀ n, new = some n → item = some n ∨ s.next ≤ n
  decays : ∀ q, s'.Decays q → s.Decays q ∨ new = some q

theorem Leaves.started {s s' : State} (h : Leaves s s') (item : Option Ref) :
    Started s s' item none :=
  ⟨h.decayItems, h.toDecayItems, h.lastBucket, h.next, nofun, nofun, fun q hq => .inl (h.decays q hq)⟩

/-- A transformation and then a start. -/
theorem Transformed.started {s s' : State} {r : Ref} {out : State × Option Ref}
    {new : Option Ref} (h : Transformed s r out) (hs : Started out.1 s' out.2 new) :
    Started s s' (some r) new where
  decayItems := hs.decayItems.trans h.decayItems
  toDecayItems := by rw [hs.toDecayItems, h.toDecayItems]
  lastBucket := hs.lastBucket.trans h.lastBucket
  next := h.next.trans hs.next
  new_lt := hs.new_lt
  new_eq := fun n hn => by
    rcases hs.new_eq n hn with hres | hnext
    · rcases h.result n hres with rfl | ⟨hnew, -⟩
      · exact .inl rfl
      · exact .inr hnew
    · exact .inr (h.next.trans hnext)
  decays := fun q hq => (hs.decays q hq).imp_left (h.decays q)

/-- A call that returned; the induction is on the depth of the calls. -/
theorem decay_started (items : UInt16 → ItemType) : ∀ depth : ℕ,
    (∀ s item s', startDecay items depth s item = some s' → (∀ r, item = some r → r < s.next) →
      ∃ new, Started s s' item new) ∧
    (∀ s r s', internalDecayItem items depth s r = some s' → r < s.next →
      ∃ new, Started s s' (some r) new) := by
  intro depth
  induction depth with
  | zero => exact ⟨nofun, nofun⟩
  | succ depth ih =>
    constructor
    · intro s item s' h hlt
      cases item with
      | none =>
        obtain rfl := Option.some.inj h
        exact ⟨none, (Leaves.refl s).started none⟩
      | some r =>
        rw [startDecay] at h
        split_ifs at h
        · obtain rfl := Option.some.inj h
          exact ⟨none, (Leaves.refl s).started _⟩
        · obtain rfl := Option.some.inj h
          exact ⟨none, (Leaves.refl s).started _⟩
        · obtain rfl := Option.some.inj h
          refine ⟨some r, rfl, rfl, rfl, le_refl _, ?_, ?_, ?_⟩
          · rintro n ⟨⟩
            exact hlt r rfl
          · exact fun n hn => .inl hn
          · intro q hq
            by_cases hqr : q = r
            · exact .inr (congrArg some hqr.symm)
            · have hq' := (s.decays_setThing (r := r)).1 hq
              rw [if_neg hqr] at hq'
              exact .inl hq'
        · exact ih.2 s r s' h (hlt r rfl)
    · intro s r s' h hlt
      rw [internalDecayItem] at h
      dsimp only at h
      split_ifs at h
      · have ht := transformItem_transformed items s r
          (.ofNat (uint 2 (items (s.item r).id).decayTo)) (-1)
        obtain ⟨new, hnew⟩ := ih.1 _ _ _ h fun n hn => by
          rcases ht.result n hn with rfl | ⟨-, hn⟩
          · exact hlt.trans_le ht.next
          · exact hn
        exact ⟨new, ht.started hnew⟩
      · obtain rfl := Option.some.inj h
        exact ⟨none, (internalRemoveItem_leaves s r).started _⟩

/-! ### The decays that take the item out of its state -/

/-- `setID` sets the decay state of an item with a duration back. -/
def TakesState (type newType : ItemType) : Prop :=
  (newType.decayTime * 1000 = 0 ∧ ¬ newType.stopTime ∧ newType.decayTo < 0) ∨
    (0 < newType.decayTime * 1000 ∧ ¬ type.stopTime)

instance (type newType : ItemType) : Decidable (TakesState type newType) :=
  inferInstanceAs (Decidable (_ ∨ _))

/-- `transformItem` replaces an item of this parent, or sets its decay state back. -/
def Changes (items : UInt16 → ItemType) (t : Thing) (p : Parent) (newId : UInt16) : Prop :=
  let type := items t.item.id
  let newType := items newId
  (t.item.id ≠ newId ∧ p.hasThing ∧ t.canTransform ∧ newType.id ≠ 0) ∧
    if type.alwaysOnTop ≠ newType.alwaysOnTop then ¬ p.keeps ∨ TakesState type newType
    else if type.type = newType.type then
      TakesState type (items (if type.id ≠ newType.id then newId else t.item.id))
    else newType.group ≠ .deprecated

instance (t : Thing) (p : Parent) (newId : UInt16) : Decidable (Changes items t p newId) := by
  unfold Changes
  infer_instance

/-- The decay of an item in the world removes it, replaces it or sets its decay
state back. -/
def Taken (items : UInt16 → ItemType) (t : Thing) : Prop :=
  ∀ p ∈ t.parent,
    if (items t.item.id).decayTo = 0 then p.hasThing ∧ t.item.count ≠ 0 ∧ t.canRemove
    else Changes items t p (.ofNat (uint 2 (items t.item.id).decayTo))

instance (t : Thing) : Decidable (Taken items t) := by
  unfold Taken
  infer_instance

theorem setBack_of_takesState {it : Item} {newid : UInt16}
    (h : TakesState (items it.id) (items newid)) : it.SetBack items newid :=
  h.imp_right fun h => ⟨h.1, .inl h.2⟩

/-- An item whose state is set back does not decay. -/
theorem not_decays_setItem {s : State} {r : Ref} {it : Item} {newid : UInt16}
    (hit : it.isDecaying = ((s.item r).setID items newid).isDecaying)
    (h : TakesState (items (s.item r).id) (items newid)) : ¬ (s.setItem r it).Decays r := by
  intro hd
  unfold State.setItem at hd
  rw [State.decays_setThing, if_pos rfl, hit, Item.isDecaying_setID,
    decide_eq_true (setBack_of_takesState h), Bool.not_true, Bool.and_false] at hd
  exact absurd hd.1 (by decide)

theorem not_decays_replaceThing {s : State} {r : Ref} {p : Parent} {newId : UInt16} {count : ℕ}
    (hgroup : (items newId).group ≠ .deprecated) (hid : (items newId).id ≠ 0) :
    ¬ (replaceThing s r p (Item.createItem items newId count)).1.Decays r := by
  obtain ⟨it, hit, -⟩ := Item.createItem_known items ⟨hgroup, hid⟩ count
  rw [hit]
  exact fun hd => (State.decays_detach _ hd).1 rfl

theorem not_decays_internalRemoveItem {s : State} {r : Ref} {p : Parent}
    (hp : (s.things r).parent = some p)
    (h : p.hasThing ∧ (s.item r).count ≠ 0 ∧ (s.things r).canRemove) :
    ¬ (internalRemoveItem s r).Decays r := by
  obtain ⟨hthing, hcount, hremove⟩ := h
  unfold internalRemoveItem
  simp only [hp, hthing, hremove, Bool.not_true, Bool.false_or, Bool.false_eq_true, if_false]
  rw [if_neg (by simpa using hcount)]
  exact fun hd => (State.decays_detach _ hd).1 rfl

theorem not_decays_transformItem {s : State} {r : Ref} {p : Parent} {newId : UInt16}
    (hp : (s.things r).parent = some p) (h : Changes items (s.things r) p newId) :
    ¬ (transformItem items s r newId (-1)).1.Decays r := by
  obtain ⟨⟨hid, hthing, htransform, hnew⟩, hrest⟩ := h
  change (s.item r).id ≠ newId at hid
  change if (items (s.item r).id).alwaysOnTop ≠ (items newId).alwaysOnTop then
      ¬ p.keeps ∨ TakesState (items (s.item r).id) (items newId)
    else if (items (s.item r).id).type = (items newId).type then
      TakesState (items (s.item r).id)
        (items (if (items (s.item r).id).id ≠ (items newId).id then newId else (s.item r).id))
    else (items newId).group ≠ .deprecated at hrest
  unfold transformItem transformItemWith
  dsimp only
  rw [if_neg fun hc => hid hc.1]
  simp only [hp, hthing, htransform, Bool.not_true, Bool.false_eq_true, if_false]
  rw [if_neg hnew]
  by_cases htop : (items (s.item r).id).alwaysOnTop ≠ (items newId).alwaysOnTop
  · rw [if_pos htop] at hrest
    rw [if_pos htop]
    unfold transformOnTop
    dsimp only
    split
    · next hkeeps =>
      exact not_decays_setItem rfl (hrest.resolve_left fun hn => hn hkeeps)
    · exact fun hd => (State.decays_detach _ hd).1 rfl
  · rw [if_neg htop] at hrest
    rw [if_neg htop]
    by_cases htype : (items (s.item r).id).type = (items newId).type
    · rw [if_pos htype] at hrest
      rw [if_pos htype, if_neg fun hc => absurd hc.1 (by decide)]
      obtain ⟨it, hit, hdecay⟩ := transformSame_eq items s r newId (-1)
      rw [hit]
      exact not_decays_setItem hdecay hrest
    · rw [if_neg htype] at hrest
      rw [if_neg htype]
      exact not_decays_replaceThing hrest hnew

/-- After a decay that takes it, the item waits again or does not decay. -/
theorem internalDecayItem_taken {depth : ℕ} {s s' : State} {r : Ref}
    (h : internalDecayItem items depth s r = some s') (hr : r < s.next)
    (htaken : s.Decays r → Taken items (s.things r)) :
    ∃ new, Started s s' (some r) new ∧ (s'.Decays r → new = some r) := by
  obtain _ | depth := depth
  · cases h
  rw [internalDecayItem] at h
  dsimp only at h
  by_cases hto : (items (s.item r).id).decayTo ≠ 0
  · rw [if_pos hto] at h
    have ht := transformItem_transformed items s r
      (.ofNat (uint 2 (items (s.item r).id).decayTo)) (-1)
    obtain ⟨new, hnew⟩ := (decay_started items depth).1 _ _ _ h fun n hn => by
      rcases ht.result n hn with rfl | ⟨-, hn⟩
      · exact hr.trans_le ht.next
      · exact hn
    refine ⟨new, ht.started hnew, fun hd => (hnew.decays r hd).resolve_left fun hout => ?_⟩
    have hs := ht.decays r hout
    obtain ⟨p, hp⟩ := Option.ne_none_iff_exists'.1 hs.2
    have hchanges := htaken hs p hp
    rw [if_neg (show ¬ (items (s.things r).item.id).decayTo = 0 from hto)] at hchanges
    exact not_decays_transformItem hp hchanges hout
  · rw [if_neg hto] at h
    obtain rfl := Option.some.inj h
    refine ⟨none, (internalRemoveItem_leaves s r).started _, fun hd => ?_⟩
    have hs := (internalRemoveItem_leaves s r).decays r hd
    obtain ⟨p, hp⟩ := Option.ne_none_iff_exists'.1 hs.2
    have hremove := htaken hs p hp
    rw [if_pos (show (items (s.things r).item.id).decayTo = 0 from not_not.1 hto)] at hremove
    exact absurd hd (not_decays_internalRemoveItem hp hremove)

/-! ### The steps of a run that keep the queues in order -/

instance (s : State) (r : Ref) : Decidable (s.Decays r) := inferInstanceAs (Decidable (_ ∧ _))


/-- The items whose duration a `checkDecay` decreased. -/
def decreasedIn (pass : List (Ref × Outcome)) : List Ref :=
  (pass.filter fun p => p.2 ≠ .dropped).map Prod.fst

/-- The items that a `checkDecay` released. -/
def releasedIn (pass : List (Ref × Outcome)) : List Ref :=
  (pass.filter fun p => p.2 ≠ .kept).map Prod.fst

/-- An item that has less than a second left decays in this turn, and its decay
takes it out of its state. -/
def TurnOk (items : UInt16 → ItemType) (s : State) (r : Ref) : Prop :=
  canDecay items s r → leftTime (s.item r) < decayCycle →
    leftTime (s.item r) + decayInterval / 2 < decayCycle ∧
      (s.Decays r → Taken items (s.things r))

instance (s : State) (r : Ref) : Decidable (TurnOk items s r) :=
  inferInstanceAs (Decidable (_ → _ → _ ∧ _))

/-- Every turn of the loop is such a turn. -/
def TurnsOk (items : UInt16 → ItemType) (depth : ℕ) (bucket : Bucket) : State → List Ref → Prop
  | _, [] => True
  | s, r :: rest =>
    TurnOk items s r ∧ ∀ out ∈ turn items depth bucket s r, TurnsOk items depth bucket out.1 rest

instance TurnsOk.decidable {depth : ℕ} {bucket : Bucket} :
    ∀ (s : State) (rest : List Ref), Decidable (TurnsOk items depth bucket s rest)
  | _, [] => inferInstanceAs (Decidable True)
  | s, r :: rest =>
    have (s : State) : Decidable (TurnsOk items depth bucket s rest) := decidable s rest
    inferInstanceAs (Decidable (_ ∧ ∀ out ∈ turn items depth bucket s r, _))

/-- No item goes into the next bucket that the last three passes decreased. -/
def Rested (s : State) (passes : List (List (Ref × Outcome))) : Prop :=
  ∀ r ∈ s.toDecayItems, ((s.item r).getDuration : ℤ) < decayCycle →
    ∀ pass ∈ passes.take 3, r ∉ decreasedIn pass

instance (s : State) (passes : List (List (Ref × Outcome))) : Decidable (Rested s passes) :=
  inferInstanceAs (Decidable (∀ r ∈ _, _ → ∀ pass ∈ _, _))

/-- The state in which the loop of `checkDecay` begins. -/
def atBucket (s : State) : State :=
  { s with decayItems := Function.update s.decayItems (s.lastBucket + 1) [] }

/-- The steps that do not reach one of the defects: no item is started that can
decay and waits already, but not in state `DECAYING_TRUE`. -/
def Allowed (items : UInt16 → ItemType) (w : Watched) : Action → Prop
  | .startDecay _ r =>
    r ∈ w.state.queued → canDecay items w.state r → (w.state.item r).isDecaying
  | .checkDecay depth =>
    let bucket := w.state.lastBucket + 1
    let waiting := w.state.decayItems bucket
    TurnsOk items depth bucket (atBucket w.state) waiting ∧
      ∀ out ∈ turns items depth bucket (atBucket w.state) waiting,
        Rested out.1 (out.2 :: w.passes)
  | .cleanup => Rested w.state w.passes
  | _ => True

instance (w : Watched) : ∀ a, Decidable (Allowed items w a)
  | .startDecay _ _ => inferInstanceAs (Decidable (_ → _ → _))
  | .checkDecay depth =>
    inferInstanceAs (Decidable (_ ∧ ∀ out ∈ turns items depth _ _ _, _))
  | .cleanup => inferInstanceAs (Decidable (Rested _ _))
  | .appear _ | .move _ _ | .transformItem _ _ _ | .removeItem _ =>
    inferInstanceAs (Decidable True)

/-- The items are in order: each waits once at most, and the decaying items of
the world wait; no pass releases an item twice, and no four passes in a row
decrease an item twice. -/
structure Orderly (w : Watched) : Prop where
  once : ∀ r, w.state.isRemoved r = false → (w.state.item r).isDecaying →
    w.state.queued.count r = 1
  nodup : w.state.queued.Nodup
  decreased : ∀ k, (((w.passes.drop k).take 4).flatMap decreasedIn).Nodup
  released : ∀ pass ∈ w.passes, (releasedIn pass).Nodup

/-- A world in which nothing decays yet. -/
structure Initial (s : State) : Prop where
  decayItems : ∀ b, s.decayItems b = []
  toDecayItems : s.toDecayItems = []
  isDecaying : ∀ r, (s.item r).isDecaying = false

/-! ### The invariant -/

/-- The invariant of the queues, in the middle of the loop: `rest` waits too. -/
structure Waiting (s : State) (rest : List Ref) : Prop where
  once : ∀ q, s.queued.count q + rest.count q ≤ 1
  mem : ∀ q, s.Decays q → q ∈ s.queued ∨ q ∈ rest
  lt : ∀ q, q ∈ s.queued ∨ q ∈ rest → q < s.next

theorem Waiting.head {s : State} {r : Ref} {rest : List Ref} (h : Waiting s (r :: rest)) :
    r ∉ s.queued ∧ r ∉ rest ∧ r < s.next := by
  have hr := h.once r
  rw [List.count_cons_self] at hr
  refine ⟨?_, ?_, h.lt r (.inr List.mem_cons_self)⟩
  · rw [← List.count_eq_zero]
    omega
  · rw [← List.count_eq_zero]
    omega

theorem Started.count {s s' : State} {item new : Option Ref} (h : Started s s' item new) (q : Ref) :
    s'.queued.count q = new.toList.count q + s.queued.count q := by
  rw [State.count_queued, State.count_queued, h.toDecayItems, h.decayItems, List.count_append,
    add_assoc]

/-- One item is put into the queues that was not in them. -/
theorem Started.waiting {s s' : State} {item new : Option Ref} {rest : List Ref}
    (h : Started s s' item new) (once : ∀ q, s.queued.count q + rest.count q ≤ 1)
    (lt : ∀ q, q ∈ s.queued ∨ q ∈ rest → q < s.next)
    (free : ∀ n, new = some n → item = some n → n ∉ s.queued ∧ n ∉ rest)
    (mem : ∀ q, s'.Decays q → new = some q ∨ q ∈ s.queued ∨ q ∈ rest) : Waiting s' rest := by
  have hnew : ∀ n, new = some n → n ∉ s.queued ∧ n ∉ rest := by
    intro n hn
    rcases h.new_eq n hn with hitem | hnext
    · exact free n hn hitem
    · exact ⟨fun hq => absurd (lt n (.inl hq)) (not_lt.2 hnext),
        fun hq => absurd (lt n (.inr hq)) (not_lt.2 hnext)⟩
  have hmem : ∀ q, q ∈ s'.queued ↔ new = some q ∨ q ∈ s.queued := by
    intro q
    rw [← List.count_pos_iff, h.count, Nat.add_pos_iff_pos_or_pos, List.count_pos_iff,
      List.count_pos_iff, Option.mem_toList]
  refine ⟨fun q => ?_, fun q hq => ?_, fun q hq => ?_⟩
  · rw [h.count]
    by_cases hq : new = some q
    · obtain ⟨h1, h2⟩ := hnew q hq
      rw [List.count_eq_zero_of_not_mem h1, List.count_eq_zero_of_not_mem h2, hq]
      exact List.count_le_length
    · rw [List.count_eq_zero_of_not_mem (fun hm => hq (Option.mem_toList.1 hm)), zero_add]
      exact once q
  · rw [hmem, or_assoc]
    exact mem q hq
  · rw [hmem, or_assoc] at hq
    rcases hq with hq | hq
    · exact h.new_lt q hq
    · exact (lt q hq).trans_le h.next

/-! ### The loop of `checkDecay` -/

/-- An item leaves the list and does not decay any more. -/
theorem Waiting.drop {s s' : State} {r : Ref} {rest : List Ref} (h : Waiting s (r :: rest))
    (hqueued : s'.queued = s.queued) (hnext : s'.next = s.next)
    (hdecays : ∀ q, s'.Decays q → q ≠ r ∧ s.Decays q) : Waiting s' rest where
  once := fun q => by
    rw [hqueued]
    exact (Nat.add_le_add_left List.count_le_count_cons _).trans (h.once q)
  mem := fun q hq => by
    obtain ⟨hne, hq⟩ := hdecays q hq
    rw [hqueued]
    exact (h.mem q hq).imp_right fun hm => (List.mem_cons.1 hm).resolve_left hne
  lt := fun q hq => by
    rw [hnext]
    rw [hqueued] at hq
    exact h.lt q (hq.imp_right (List.mem_cons_of_mem _))

/-- An item goes from the list back into the bucket. -/
theorem Waiting.keep {s : State} {r : Ref} {rest : List Ref} (h : Waiting s (r :: rest))
    {it : Item} (hit : it.isDecaying → (s.item r).isDecaying) (bucket : Bucket) :
    Waiting ((s.setItem r it).push bucket r) rest := by
  have hcount : ∀ q, ((s.setItem r it).push bucket r).queued.count q + rest.count q =
      s.queued.count q + (r :: rest).count q := by
    intro q
    rw [State.count_push, State.queued_setItem, add_assoc, ← List.count_append]
    rfl
  have hmem : ∀ q, (q ∈ ((s.setItem r it).push bucket r).queued ∨ q ∈ rest) ↔
      (q ∈ s.queued ∨ q ∈ r :: rest) := by
    intro q
    rw [← List.count_pos_iff, ← List.count_pos_iff (l := rest), ← Nat.add_pos_iff_pos_or_pos,
      hcount, Nat.add_pos_iff_pos_or_pos, List.count_pos_iff, List.count_pos_iff]
  refine ⟨fun q => (hcount q).trans_le (h.once q), fun q hq => ?_, fun q hq => ?_⟩
  · exact (hmem q).2 (h.mem q (s.decays_setItem hit hq))
  · exact h.lt q ((hmem q).1 hq)

/-- An item whose decay takes it out of its state. -/
theorem Waiting.decay {depth : ℕ} {s s' : State} {r : Ref} {rest : List Ref}
    (h : Waiting s (r :: rest)) {it : Item} (hit : it.isDecaying → (s.item r).isDecaying)
    (hdecay : internalDecayItem items depth (s.setItem r it) r = some s')
    (htaken : s.Decays r → Taken items ((s.setItem r it).things r)) :
    Waiting (s'.releaseItem r) rest ∧ s'.lastBucket = s.lastBucket ∧
      s'.decayItems = s.decayItems := by
  obtain ⟨hq, hrest, hlt⟩ := h.head
  obtain ⟨new, hnew, hself⟩ := internalDecayItem_taken hdecay hlt fun hd =>
    htaken (s.decays_setItem hit hd)
  refine ⟨?_, hnew.lastBucket, hnew.decayItems⟩
  have hw : Waiting s' rest := by
    apply hnew.waiting
    · intro q
      exact (Nat.add_le_add_left List.count_le_count_cons _).trans (h.once q)
    · exact fun q hm => h.lt q (hm.imp_right (List.mem_cons_of_mem _))
    · rintro n - ⟨⟩
      exact ⟨hq, hrest⟩
    · intro q hd
      by_cases hqr : q = r
      · subst hqr
        exact .inl (hself hd)
      · rcases hnew.decays q hd with hd | hn
        · exact .inr ((h.mem q (s.decays_setItem hit hd)).imp_right fun hm =>
            (List.mem_cons.1 hm).resolve_left hqr)
        · exact .inl hn
  exact ⟨hw.once, hw.mem, hw.lt⟩

theorem turn_waiting {depth : ℕ} {bucket : Bucket} {s s' : State} {r : Ref} {outcome : Outcome}
    {rest : List Ref} (h : turn items depth bucket s r = some (s', outcome))
    (hw : Waiting s (r :: rest)) (hok : TurnOk items s r) :
    Waiting s' rest ∧ s'.lastBucket = s.lastBucket ∧
      ∀ b, b ≠ bucket → s'.decayItems b = s.decayItems b := by
  have hit : ((s.item r).decreaseDuration
      (min decayCycle (int32 (s.item r).getDuration))).isDecaying → (s.item r).isDecaying := by
    rw [Item.isDecaying_decreaseDuration]
    exact id
  unfold turn at h
  dsimp only at h
  by_cases hcan : canDecay items s r
  · rw [if_neg (by simpa using hcan)] at h
    have hdecays : ∀ s₁, leftTime (s.item r) < decayCycle → internalDecayItem items depth
        (s.setItem r ((s.item r).decreaseDuration
          (min decayCycle (int32 (s.item r).getDuration)))) r = some s₁ →
        (s₁.releaseItem r, Outcome.decayed) = (s', outcome) → Waiting s' rest ∧
          s'.lastBucket = s.lastBucket ∧ ∀ b, b ≠ bucket → s'.decayItems b = s.decayItems b := by
      rintro s₁ hleft hdecay ⟨⟩
      have htaken : s.Decays r → Taken items ((s.setItem r ((s.item r).decreaseDuration
          (min decayCycle (int32 (s.item r).getDuration)))).things r) := by
        intro hd
        unfold State.setItem
        rw [State.things_setThing_self]
        exact (hok hcan hleft).2 hd
      obtain ⟨hw', hlast, hitems⟩ := hw.decay hit hdecay htaken
      exact ⟨hw', hlast, fun b _ => congrFun hitems b⟩
    split at h
    · next hleft =>
      obtain ⟨s₁, hdecay, heq⟩ := Option.map_eq_some_iff.1 h
      exact hdecays s₁ (hleft.trans_lt (by decide)) hdecay heq
    split at h
    · next hpos hleft =>
      have hbucket : Fin.ofNat decayBuckets (bucket +
          ((leftTime (s.item r) + decayInterval / 2) / 1000).toNat) = bucket := by
        have h1000 : (leftTime (s.item r) + decayInterval / 2) / 1000 = 0 :=
          Int.ediv_eq_zero_of_lt (by unfold decayInterval; omega) (hok hcan hleft).1
        rw [h1000]
        exact Fin.ofNat_val_eq_self bucket
      rw [if_pos hbucket] at h
      obtain ⟨s₁, hdecay, heq⟩ := Option.map_eq_some_iff.1 h
      exact hdecays s₁ hleft hdecay heq
    · obtain ⟨rfl, rfl⟩ := Prod.mk.inj (Option.some.inj h)
      exact ⟨hw.keep hit bucket, rfl, fun b hb => Function.update_of_ne hb ..⟩
  · rw [if_pos (by simpa using hcan)] at h
    obtain ⟨rfl, rfl⟩ := Prod.mk.inj (Option.some.inj h)
    refine ⟨hw.drop rfl rfl fun q hq => ?_, rfl, fun b _ => rfl⟩
    change ((s.setThing r _).Decays q) at hq
    rw [State.decays_setThing] at hq
    split at hq
    · rw [Item.isDecaying_setDecaying _ (by decide)] at hq
      exact absurd hq.1 (by decide)
    · next hne => exact ⟨hne, hq⟩

theorem turns_waiting {depth : ℕ} {bucket : Bucket} : ∀ {rest : List Ref} {s s' : State}
    {outcomes : List (Ref × Outcome)}, turns items depth bucket s rest = some (s', outcomes) →
    Waiting s rest → TurnsOk items depth bucket s rest →
      Waiting s' [] ∧ s'.lastBucket = s.lastBucket ∧
        (∀ b, b ≠ bucket → s'.decayItems b = s.decayItems b) ∧ outcomes.map Prod.fst = rest
  | [], s, s', outcomes, h, hw, _ => by
    obtain ⟨rfl, rfl⟩ := Prod.mk.inj (Option.some.inj h)
    exact ⟨hw, rfl, fun _ _ => rfl, rfl⟩
  | r :: rest, s, s', outcomes, h, hw, hok => by
    rw [turns] at h
    obtain ⟨⟨s₁, outcome⟩, hturn, h⟩ := Option.bind_eq_some_iff.1 h
    obtain ⟨⟨s₂, outcomes'⟩, hturns, heq⟩ := Option.map_eq_some_iff.1 h
    obtain ⟨rfl, rfl⟩ := Prod.mk.inj heq
    obtain ⟨hw₁, hlast₁, hitems₁⟩ := turn_waiting hturn hw hok.1
    obtain ⟨hw₂, hlast₂, hitems₂, hfst⟩ := turns_waiting hturns hw₁ (hok.2 _ hturn)
    refine ⟨hw₂, hlast₂.trans hlast₁, fun b hb => (hitems₂ b hb).trans (hitems₁ b hb), ?_⟩
    rw [List.map_cons, hfst]

/-! ### `cleanup` -/

theorem item_decrement (things : Ref → Thing) (l : List Ref) (r : Ref) :
    (l.foldl decrementReferenceCounter things r).item = (things r).item ∧
      (l.foldl decrementReferenceCounter things r).parent = (things r).parent := by
  induction l generalizing things with
  | nil => exact ⟨rfl, rfl⟩
  | cons q l ih =>
    obtain ⟨h1, h2⟩ := ih (decrementReferenceCounter things q)
    rw [List.foldl_cons, h1, h2]
    unfold decrementReferenceCounter
    by_cases hr : r = q
    · subst hr
      rw [Function.update_self]
      exact ⟨rfl, rfl⟩
    · rw [Function.update_of_ne hr]
      exact ⟨rfl, rfl⟩

/-- The bucket of an item of `toDecayItems`. -/
def bucketOf (s : State) (r : Ref) : Bucket :=
  if decayCycle ≤ (s.item r).getDuration then s.lastBucket
  else Fin.ofNat decayBuckets (s.lastBucket + 1 + (s.item r).getDuration / 1000)

theorem enqueue_eq (s : State) (r : Ref) : enqueue s r = s.push (bucketOf s r) r := by
  unfold enqueue bucketOf
  dsimp only
  split <;> rfl

/-- The items of a list go into their buckets. -/
theorem foldl_enqueue (l : List Ref) (s : State) :
    (l.foldl enqueue s).things = s.things ∧ (l.foldl enqueue s).next = s.next ∧
      (l.foldl enqueue s).lastBucket = s.lastBucket ∧
      (l.foldl enqueue s).toDecayItems = s.toDecayItems ∧
      (∀ q, (l.foldl enqueue s).queued.count q = s.queued.count q + l.count q) ∧
      ∀ b q, q ∈ (l.foldl enqueue s).decayItems b →
        q ∈ s.decayItems b ∨ (q ∈ l ∧ b = bucketOf s q) := by
  induction l generalizing s with
  | nil => exact ⟨rfl, rfl, rfl, rfl, fun q => rfl, fun b q hq => .inl hq⟩
  | cons r l ih =>
    obtain ⟨hthings, hnext, hlast, hto, hcount, hmem⟩ := ih (enqueue s r)
    rw [List.foldl_cons]
    rw [enqueue_eq] at hthings hnext hlast hto hcount hmem ⊢
    refine ⟨hthings, hnext, hlast, hto, fun q => ?_, fun b q hq => ?_⟩
    · rw [hcount, State.count_push, add_assoc, ← List.count_append]
      rfl
    · rcases hmem b q hq with hb | ⟨hl, hb⟩
      · by_cases hbr : b = bucketOf s r
        · subst hbr
          rw [State.decayItems_push_self, List.mem_append, List.mem_singleton] at hb
          rcases hb with hb | rfl
          · exact .inl hb
          · exact .inr ⟨List.mem_cons_self, rfl⟩
        · rw [s.decayItems_push_of_ne r hbr] at hb
          exact .inl hb
      · exact .inr ⟨List.mem_cons_of_mem _ hl, hb⟩

/-- Every waiting item waits still, for its bucket. -/
theorem cleanup_facts (s : State) :
    (cleanup s).next = s.next ∧ (cleanup s).lastBucket = s.lastBucket ∧
      (∀ q, (cleanup s).queued.count q = s.queued.count q) ∧
      (∀ q, (cleanup s).Decays q → s.Decays q) ∧
      ∀ b q, q ∈ (cleanup s).decayItems b →
        q ∈ s.decayItems b ∨ (q ∈ s.toDecayItems ∧ b = bucketOf s q) := by
  have hitem := item_decrement s.things s.toReleaseItems
  obtain ⟨hthings, hnext, hlast, hto, hcount, hmem⟩ := foldl_enqueue s.toDecayItems
    { s with
      things := s.toReleaseItems.foldl decrementReferenceCounter s.things
      toReleaseItems := [] }
  refine ⟨hnext, hlast, fun q => ?_, fun q hq => ?_, fun b q hq => ?_⟩
  · have hq := hcount q
    rw [State.count_queued, hto] at hq
    rw [State.count_queued]
    show 0 + _ = _
    rw [zero_add]
    exact Nat.add_left_cancel (hq.trans (add_comm _ _))
  · unfold State.Decays State.item cleanup at hq
    dsimp only at hq
    rw [hthings] at hq
    obtain ⟨h1, h2⟩ := hitem q
    rw [h1, h2] at hq
    exact hq
  · refine (hmem b q hq).imp_right fun h => ⟨h.1, h.2.trans ?_⟩
    unfold bucketOf State.item
    dsimp only
    rw [(hitem q).1]

/-! ### The invariant of a run -/

/-- What the last passes decreased does not wait for one of the next: together
they are less than a cycle apart. -/
def Spaced (s : State) (passes : List (List (Ref × Outcome))) : Prop :=
  ∀ (j : ℕ) (i : Bucket), i ≠ 0 → j + i.val < 4 → ∀ pass, passes[j]? = some pass →
    ∀ r ∈ decreasedIn pass, r ∉ s.decayItems (s.lastBucket + i)

structure Inv (w : Watched) : Prop where
  waiting : Waiting w.state []
  spaced : Spaced w.state w.passes
  decreased : ∀ k, (((w.passes.drop k).take 4).flatMap decreasedIn).Nodup
  released : ∀ pass ∈ w.passes, (releasedIn pass).Nodup

theorem Inv.cleanup {w : Watched} (h : Inv w) (hrested : Rested w.state w.passes) :
    Inv { w with state := Decay.cleanup w.state } := by
  obtain ⟨hnext, hlast, hcount, hdecays, hmem⟩ := cleanup_facts w.state
  have hqueued : ∀ q, q ∈ (Decay.cleanup w.state).queued ↔ q ∈ w.state.queued := by
    intro q
    rw [← List.count_pos_iff, hcount, List.count_pos_iff]
  refine ⟨⟨fun q => ?_, fun q hq => ?_, fun q hq => ?_⟩, ?_, h.decreased, h.released⟩
  · exact (congrArg (· + _) (hcount q)).trans_le (h.waiting.once q)
  · exact (h.waiting.mem q (hdecays q hq)).imp_left (hqueued q).2
  · exact (h.waiting.lt q (hq.imp_left (hqueued q).1)).trans_eq hnext.symm
  · intro j i hi hji pass hpass r hr hm
    rw [hlast] at hm
    rcases hmem _ r hm with hold | ⟨hto, hbucket⟩
    · exact h.spaced j i hi hji pass hpass r hr hold
    unfold bucketOf at hbucket
    split at hbucket
    · exact hi (add_eq_left.1 hbucket)
    · next hdur =>
      -- such an item goes into the next bucket
      have hdur' : ((w.state.item r).getDuration : ℤ) < decayCycle := not_le.1 hdur
      have hzero : (w.state.item r).getDuration / 1000 = 0 := by
        apply Nat.div_eq_of_lt
        have : decayCycle = 1000 := rfl
        omega
      rw [hzero, show ∀ b : Bucket, Fin.ofNat decayBuckets (b + 1 + 0) = b + 1 by decide] at hbucket
      obtain rfl := add_left_cancel hbucket
      refine hrested r hto hdur' pass ?_ hr
      apply List.mem_iff_getElem?.2
      refine ⟨j, ?_⟩
      rw [List.getElem?_take_of_lt (Nat.lt_of_succ_lt_succ hji), hpass]

theorem count_atBucket (s : State) (q : Ref) :
    (atBucket s).queued.count q + (s.decayItems (s.lastBucket + 1)).count q =
      s.queued.count q := by
  have hsum : (∑ b, ((atBucket s).decayItems b).count q) +
      (s.decayItems (s.lastBucket + 1)).count q = ∑ b, (s.decayItems b).count q := by
    rw [← Finset.add_sum_erase _ _ (Finset.mem_univ (s.lastBucket + 1)),
      ← Finset.add_sum_erase (a := s.lastBucket + 1) _ (fun b => (s.decayItems b).count q)
        (Finset.mem_univ _), add_comm]
    have hself : (atBucket s).decayItems (s.lastBucket + 1) = [] := Function.update_self ..
    rw [hself, List.count_nil, zero_add]
    refine congrArg _ (Finset.sum_congr rfl fun b hb => ?_)
    have hne : (atBucket s).decayItems b = s.decayItems b :=
      Function.update_of_ne (Finset.ne_of_mem_erase hb) ..
    rw [hne]
  rw [State.count_queued, State.count_queued, add_assoc, hsum]
  rfl

/-- The bucket is taken out for the loop. -/
theorem Inv.atBucket {w : Watched} (h : Inv w) :
    Waiting (atBucket w.state) (w.state.decayItems (w.state.lastBucket + 1)) := by
  have hmem : ∀ q, (q ∈ (Decay.atBucket w.state).queued ∨
      q ∈ w.state.decayItems (w.state.lastBucket + 1)) ↔ q ∈ w.state.queued := by
    intro q
    rw [← List.count_pos_iff, ← List.count_pos_iff (l := w.state.decayItems _),
      ← Nat.add_pos_iff_pos_or_pos, count_atBucket, List.count_pos_iff]
  refine ⟨fun q => ?_, fun q hq => ?_, fun q hq => ?_⟩
  · rw [count_atBucket]
    exact h.waiting.once q
  · exact (hmem q).2 ((h.waiting.mem q hq).resolve_right List.not_mem_nil)
  · exact h.waiting.lt q (.inl ((hmem q).1 hq))

theorem decreasedIn_sublist (pass : List (Ref × Outcome)) :
    (decreasedIn pass).Sublist (pass.map Prod.fst) := List.filter_sublist.map _

theorem releasedIn_sublist (pass : List (Ref × Outcome)) :
    (releasedIn pass).Sublist (pass.map Prod.fst) := List.filter_sublist.map _

/-- A pass over one bucket keeps the invariant. -/
theorem Inv.pass {w : Watched} (h : Inv w) {depth : ℕ} {s' : State}
    {outcomes : List (Ref × Outcome)}
    (hturns : turns items depth (w.state.lastBucket + 1) (Decay.atBucket w.state)
      (w.state.decayItems (w.state.lastBucket + 1)) = some (s', outcomes))
    (hok : TurnsOk items depth (w.state.lastBucket + 1) (Decay.atBucket w.state)
      (w.state.decayItems (w.state.lastBucket + 1))) :
    Inv { state := { s' with lastBucket := w.state.lastBucket + 1 }
          passes := outcomes :: w.passes } := by
  obtain ⟨hw, -, hitems, hfst⟩ := turns_waiting hturns h.atBucket hok
  have hdec : ∀ r, r ∈ decreasedIn outcomes → r ∈ w.state.decayItems (w.state.lastBucket + 1) :=
    fun r hr => hfst ▸ (decreasedIn_sublist outcomes).subset hr
  have hnodup : (w.state.decayItems (w.state.lastBucket + 1)).Nodup := by
    rw [List.nodup_iff_count_le_one]
    exact fun q => (Nat.le_add_left _ _).trans (h.atBucket.once q)
  refine ⟨⟨hw.once, hw.mem, hw.lt⟩, ?_, ?_, ?_⟩
  · intro j i hi hji pass hpass r hr hm
    have hne : w.state.lastBucket + 1 + i ≠ w.state.lastBucket + 1 := fun e =>
      hi (add_eq_left.1 e)
    have hold : s'.decayItems (w.state.lastBucket + 1 + i) =
        w.state.decayItems (w.state.lastBucket + 1 + i) :=
      (hitems _ hne).trans (Function.update_of_ne hne ..)
    cases j with
    | zero =>
      -- an item of this bucket is in no other
      obtain rfl := Option.some.inj hpass
      have hone := h.atBucket.once r
      have h1 : 0 < (w.state.decayItems (w.state.lastBucket + 1)).count r :=
        List.count_pos_iff.2 (hdec r hr)
      have h2 : 0 < (Decay.atBucket w.state).queued.count r := by
        apply List.count_pos_iff.2
        apply List.mem_append_right
        exact List.mem_flatMap.2 ⟨_, List.mem_finRange _, (hitems _ hne) ▸ hm⟩
      omega
    | succ j =>
      have hnext : ∀ i : Bucket, i.val ≤ 2 → 1 + i ≠ 0 ∧ (1 + i).val = i.val + 1 := by decide
      obtain ⟨hi', hval⟩ := hnext i (by omega)
      refine h.spaced j (1 + i) hi' (by omega) pass hpass r hr ?_
      rw [← add_assoc, ← hold]
      exact hm
  · intro k
    cases k with
    | succ k => exact h.decreased k
    | zero =>
      show (decreasedIn outcomes ++ (w.passes.take 3).flatMap decreasedIn).Nodup
      refine List.nodup_append.2 ⟨?_, ?_, ?_⟩
      · exact (hfst ▸ decreasedIn_sublist outcomes).nodup hnodup
      · have hsub : (w.passes.take 3).Sublist (w.passes.take 4) := List.take_sublist_take_left (by decide)
        exact (hsub.flatMap decreasedIn).nodup (h.decreased 0)
      · rintro r hr q hq rfl
        obtain ⟨pass, hpass, hq⟩ := List.mem_flatMap.1 hq
        obtain ⟨j, hj⟩ := List.mem_iff_getElem?.1 hpass
        rw [List.getElem?_take] at hj
        split at hj
        · next hlt =>
          exact h.spaced j 1 (by decide) (Nat.succ_lt_succ hlt) pass hj r hq (hdec r hr)
        · cases hj
  · intro pass hpass
    rcases List.mem_cons.1 hpass with rfl | hpass
    · exact (hfst ▸ releasedIn_sublist pass).nodup hnodup
    · exact h.released pass hpass

theorem Inv.checkDecay {w : Watched} (h : Inv w) {depth : ℕ} {s' : State}
    {outcomes : List (Ref × Outcome)}
    (hcheck : Decay.checkDecay items depth w.state = some (s', outcomes))
    (hallowed : Allowed items w (.checkDecay depth)) :
    Inv { state := s', passes := outcomes :: w.passes } := by
  obtain ⟨⟨s₁, outcomes'⟩, hturns, heq⟩ := Option.map_eq_some_iff.1 hcheck
  obtain ⟨rfl, rfl⟩ := Prod.mk.inj heq
  exact (h.pass hturns hallowed.1).cleanup (hallowed.2 _ hturns)

/-- A step that leaves the queues alone. -/
theorem Inv.leaves {w : Watched} (h : Inv w) {s' : State} (hs : Leaves w.state s') :
    Inv { w with state := s' } := by
  have hqueued : s'.queued = w.state.queued := by
    unfold State.queued
    rw [hs.toDecayItems, hs.decayItems]
  refine ⟨⟨fun q => ?_, fun q hq => ?_, fun q hq => ?_⟩, ?_, h.decreased, h.released⟩
  · exact hqueued ▸ h.waiting.once q
  · exact hqueued ▸ h.waiting.mem q (hs.decays q hq)
  · exact (h.waiting.lt q (hqueued ▸ hq)).trans_le hs.next
  · intro j i hi hji pass hpass r hr
    rw [hs.decayItems, hs.lastBucket]
    exact h.spaced j i hi hji pass hpass r hr

theorem Inv.startDecay {w : Watched} (h : Inv w) {depth : ℕ} {r : Ref} {s' : State}
    (hstart : Decay.startDecay items depth w.state (some r) = some s') (hr : r < w.state.next)
    (hallowed : Allowed items w (.startDecay depth r)) : Inv { w with state := s' } := by
  by_cases hq : r ∈ w.state.queued
  · -- the item waits already, so that nothing happens
    have hs : s' = w.state := by
      obtain _ | depth := depth
      · cases hstart
      rw [Decay.startDecay] at hstart
      by_cases hcan : canDecay items w.state r
      · rw [if_neg (by simpa using hcan), if_pos (hallowed hq hcan)] at hstart
        exact (Option.some.inj hstart).symm
      · rw [if_pos (by simpa using hcan)] at hstart
        exact (Option.some.inj hstart).symm
    exact hs ▸ h
  · obtain ⟨new, hnew⟩ := (decay_started items depth).1 _ _ _ hstart fun n hn =>
      Option.some.inj hn ▸ hr
    refine ⟨?_, ?_, h.decreased, h.released⟩
    · apply hnew.waiting h.waiting.once h.waiting.lt
      · rintro n - ⟨⟩
        exact ⟨hq, List.not_mem_nil⟩
      · intro q hd
        exact (hnew.decays q hd).elim (fun hd => .inr (h.waiting.mem q hd)) .inl
    · intro j i hi hji pass hpass q hqd
      rw [hnew.decayItems, hnew.lastBucket]
      exact h.spaced j i hi hji pass hpass q hqd

/-- The defect: an item that waits and is not in state `DECAYING_TRUE` is put
into the queues once more. -/
theorem startDecay_again {depth : ℕ} {s : State} {r : Ref} (hcan : canDecay items s r)
    (hstate : (s.item r).isDecaying = false) (hduration : 0 < (s.item r).getDuration)
    (hq : r ∈ s.queued) :
    ∃ s', startDecay items (depth + 1) s (some r) = some s' ∧ 2 ≤ s'.queued.count r := by
  rw [startDecay, if_neg (by simpa using hcan), if_neg (by simpa using hstate), if_pos hduration]
  refine ⟨_, rfl, ?_⟩
  rw [State.count_queued]
  have hone : 0 < s.queued.count r := List.count_pos_iff.2 hq
  rw [State.count_queued] at hone
  show 2 ≤ (r :: s.toDecayItems).count r + ∑ b, (s.decayItems b).count r
  rw [List.count_cons_self]
  omega

/-! ### Runs -/

theorem appear_leaves (s : State) (thing : Thing) : Leaves s (appear s thing) := by
  unfold appear
  split
  · exact .refl s
  · next hnot =>
    refine ⟨rfl, rfl, rfl, Nat.le_succ _, fun q hq => ?_⟩
    change (s.setThing s.next thing).Decays q at hq
    rw [State.decays_setThing] at hq
    split at hq
    · exact absurd hq.1 hnot
    · exact hq

theorem move_leaves (s : State) (r : Ref) (parent : Parent) : Leaves s (move s r parent) := by
  unfold move
  split
  · exact .refl s
  · next hparent =>
    refine ⟨rfl, rfl, rfl, le_refl _, fun q hq => ?_⟩
    rw [State.decays_setThing] at hq
    split at hq
    · next hqr => exact hqr ▸ ⟨hq.1, hparent⟩
    · exact hq

theorem Inv.step {w : Watched} {a : Action} (h : Inv w) (hallowed : Allowed items w a) :
    Inv (w.step items a) := by
  cases a with
  | appear thing => exact h.leaves (appear_leaves _ _)
  | move r parent => exact h.leaves (move_leaves _ _ _)
  | removeItem r => exact h.leaves (internalRemoveItem_leaves _ _)
  | cleanup => exact h.cleanup hallowed
  | transformItem r newId newCount =>
    unfold Watched.step
    dsimp only
    split
    · exact h.leaves (transformItem_transformed items _ _ _ _).toLeaves
    · exact h
  | startDecay depth r =>
    unfold Watched.step
    dsimp only
    split
    · next hr =>
      cases hstart : Decay.startDecay items depth w.state (some r) with
      | none => exact h
      | some s' => exact h.startDecay hstart hr hallowed
    · exact h
  | checkDecay depth =>
    unfold Watched.step
    dsimp only
    split
    · next s' outcomes hcheck => exact h.checkDecay hcheck hallowed
    · exact h

theorem Initial.inv {s : State} (h : Initial s) : Inv { state := s } := by
  have hqueued : ∀ q, s.queued.count q = 0 := by
    intro q
    rw [State.count_queued, h.toDecayItems]
    exact (zero_add _).trans (Finset.sum_eq_zero fun b _ => by rw [h.decayItems]; rfl)
  refine ⟨⟨fun q => ?_, fun q hq => ?_, fun q hq => ?_⟩, ?_, fun k => ?_, nofun⟩
  · rw [hqueued]
    exact Nat.zero_le _
  · exact absurd ((h.isDecaying q).symm.trans hq.1) Bool.false_ne_true
  · have hmem := hq.resolve_right List.not_mem_nil
    exact absurd (hqueued q) (List.count_pos_iff.2 hmem).ne'
  · intro j i _ _ pass hpass
    cases hpass
  · rw [List.drop_nil, List.take_nil]
    exact List.nodup_nil

/-- An item of the world has a parent. -/
theorem parent_of_isRemoved {s : State} {r : Ref} (h : s.isRemoved r = false) :
    (s.things r).parent ≠ none := by
  intro hp
  unfold State.isRemoved at h
  cases hnext : s.next with
  | zero =>
    rw [hnext] at h
    cases h
  | succ n =>
    rw [hnext, State.isRemovedUp, hp] at h
    cases h

theorem Inv.orderly {w : Watched} (h : Inv w) : Orderly w := by
  refine ⟨fun r hremoved hdecaying => ?_, ?_, h.decreased, h.released⟩
  · have hmem := (h.waiting.mem r ⟨hdecaying, parent_of_isRemoved hremoved⟩).resolve_right
      List.not_mem_nil
    exact le_antisymm (h.waiting.once r) (List.count_pos_iff.2 hmem)
  · rw [List.nodup_iff_count_le_one]
    exact h.waiting.once

/-- In every run whose steps are all allowed, the queues are in order. -/
theorem orderly_of_allowed {init : State} (hinit : Initial init) (as : List Action)
    (hallowed : Run.Along (Watched.step items) (Allowed items) { state := init } as) :
    Orderly (Run.run (Watched.step items) { state := init } as) :=
  (Run.run_inv (fun _ _ h hP => Inv.step h hP) as hinit.inv hallowed).orderly

/-- The two cuckoo clocks of the item list, which decay into each other. -/
def clockTypes : UInt16 → ItemType
  | 1873 => { id := 1873, decayTo := 1874, decayTime := 54 }
  | 1874 => { id := 1874, decayTo := 1873, decayTime := 6 }
  | _ => {}

/-- A clock on a wall. -/
def clock (id : UInt16) : State where
  things _ :=
    { item := Item.construct clockTypes .item id 0, parent := some { cylinder := .world false } }
  next := 1

theorem clock_initial (id : UInt16) : Initial (clock id) :=
  ⟨fun _ => rfl, rfl, fun _ =>
    Item.isDecaying_of_none (Item.existing_construct clockTypes (by decide) (by decide) (by simp))⟩

/-- A clock that is left alone for six seconds. -/
theorem orderly_of_allowed_clock :
    Orderly (Run.run (Watched.step clockTypes) { state := clock 1874 }
      ([.startDecay 3 0, .cleanup] ++ List.replicate 24 (.checkDecay 3))) :=
  orderly_of_allowed (clock_initial 1874) _ (by decide +kernel)

/-- A player who uses a running clock puts it into the queues a second time. -/
theorem clock_waits_twice :
    ¬ ∀ (items : UInt16 → ItemType) (init : State), Initial init → ∀ as : List Action,
      Orderly (Run.run (Watched.step items) { state := init } as) := by
  intro h
  have hnodup := (h clockTypes (clock 1873) (clock_initial 1873)
    [.startDecay 3 0, .transformItem 0 1874 (-1), .startDecay 3 0]).nodup
  exact absurd hnodup (by decide +kernel)

end Decay
end ForgottenServer
