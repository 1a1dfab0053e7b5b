/-
# Where a move leads

A move that may lead anywhere in some cylinders ends in one of them or in a
container that lies in them: at an index that the container has, with a stack
that lies there, or at a slot of a player, with what is in the slot. An index of
254 leads up to the container that holds the destination.

Key definitions: `State.Reaches`, `Aims`, `Leads`.
Key theorems: `Wf.not_above_of_isHeldIn`, `aims_findDestination`,
`lands_of_cleared`.
-/
import ForgottenServer.AddHolding
import ForgottenServer.HeldItems

namespace ForgottenServer
namespace Inventory

open Ancestry Relation State

namespace State

/-- One of the cylinders, or a container that lies in them. -/
def Reaches (s : State) (cs : List Cylinder) (c : Cylinder) : Prop :=
  Placement.Reaches s.parent .container cs c

/-- The item lies in the container, or in one that does. -/
def Above (s : State) (q r : Ref) : Prop := ReflTransGen (fun x y => s.parent x = some (.container y)) r q

variable {items : UInt16 → ItemType} {s : State} {q r x : Ref} {p : CreatureId} {c : Cylinder} {cs : List Cylinder}

theorem Inside.parent_reaches (h : s.Inside cs r) (hr : s.parent r = some c) : s.Reaches cs c := by
  obtain ⟨d, hd, hreaches⟩ := Placement.inside_iff_reaches.1 h
  obtain rfl := Option.some.inj (hr.symm.trans hd)
  exact hreaches

theorem Reaches.inside (h : s.Reaches cs c) (hr : s.parent r = some c) : s.Inside cs r :=
  Placement.inside_iff_reaches.2 ⟨c, hr, h⟩

/-- What a player carries lies in the player. -/
theorem Wf.inside_of_carried (h : s.Wf items) (hp : .player p ∈ cs) (hx : x ∈ s.carried p) : s.Inside cs x := by
  obtain ⟨r, hr, hup⟩ := (h.owned p).mem_carried.1 hx
  clear hx
  induction hup using ReflTransGen.head_induction_on with
  | refl => exact .here ((h.owned p).parent r hr) hp
  | head hxy _ ih => exact .deep (holder_eq_some.1 hxy) ih

/-- The loop over the parents finds what is above. -/
theorem isHeldInUp_of_above {depth : Ref → ℕ}
    (hdepth : ∀ q r, s.parent r = some (.container q) → depth q < depth r ∧ depth r ≤ s.next)
    (hr : s.asCylinder r = some (.container r)) (h : s.Above r q) :
    ∀ {n : ℕ}, depth q < n → s.isHeldInUp r n (some (.container q)) = true := by
  unfold Above at h
  induction h using ReflTransGen.head_induction_on with
  | refl =>
    intro n hn
    obtain ⟨n, rfl⟩ : ∃ m, n = m + 1 := ⟨n - 1, by omega⟩
    unfold isHeldInUp
    rw [hr, decide_eq_true rfl, Bool.true_or]
  | @head q y hq _ ih =>
    intro n hn
    obtain ⟨n, rfl⟩ : ∃ m, n = m + 1 := ⟨n - 1, by omega⟩
    have hlt := (hdepth y q hq).1
    have hup : s.getParent (.container q) = some (.container y) := hq
    unfold isHeldInUp
    rw [hup, ih (by omega), Bool.or_true]

/-- A container that is not held in an item is not below it. -/
theorem Wf.not_above_of_isHeldIn (h : s.Wf items) (hne : r ≠ q) (hheld : s.isHeldIn q r = false) :
    ¬ s.Above r q := by
  intro habove
  obtain ⟨depth, hdepth⟩ := h.depth
  have hr : s.asCylinder r = some (.container r) := by
    rcases ReflTransGen.cases_tail habove with he | ⟨y, -, hy⟩
    · exact absurd he hne
    · unfold asCylinder
      rw [if_pos (h.container r y hy).1]
  rcases ReflTransGen.cases_head habove with he | ⟨y, hq, hup⟩
  · exact hne he.symm
  · have hlt := hdepth y q hq
    have hfound := isHeldInUp_of_above hdepth hr hup (n := s.next + 2) (by omega)
    unfold isHeldIn at hheld
    rw [hq] at hheld
    exact Bool.false_ne_true (hheld.symm.trans hfound)

end State

/-! ### Destinations in some cylinders -/

/-- The container is an object of the state. -/
def State.IsBag (s : State) (q : Ref) : Prop := s.isContainer q = true ∧ q < s.next

/-- A container that may be asked where an item goes. -/
structure Leads (s : State) (cs : List Cylinder) (q : Ref) (index : ℤ) (toItem : Option Ref) : Prop where
  reaches : s.Reaches cs (.container q)
  bag : s.IsBag q
  item : ∀ x, toItem = some x → x ∈ s.contents (.container q)
  climbs : index = 254 → ∀ q', s.parent q = some (.container q') → s.Reaches cs (.container q')

/-- Where a move can end: in a container, at an index that it has and with a
stack that lies there, or at a slot, with what is in it. -/
inductive Aims (s : State) (cs : List Cylinder) : Destination → Prop
  | container {q : Ref} {index : ℤ} {toItem : Option Ref} (reaches : s.Reaches cs (.container q)) (bag : s.IsBag q)
      (item : ∀ x, toItem = some x → x ∈ s.contents (.container q))
      (fits : (s.things q).unlocked = true → index < (s.things q).maxSize.toNat) :
      Aims s cs ⟨.container q, index, toItem, {}⟩
  | player {p : CreatureId} {index : ℤ} (hp : .player p ∈ cs) :
      Aims s cs ⟨.player p, index, s.getInventoryItem p index, {}⟩

theorem Aims.of_slot {s : State} {cs : List Cylinder} {p : CreatureId} {index : ℤ} {toItem : Option Ref}
    (hp : .player p ∈ cs) (hslot : s.getInventoryItem p index = toItem) : Aims s cs ⟨.player p, index, toItem, {}⟩ :=
  hslot ▸ .player hp

/-- A teleport, a trash holder or a mailbox. -/
def Destination.IsDevice (d : Destination) : Prop := ∃ x, d.cylinder = .device x

section Destinations

variable {cfg : Config} {s : State} {q r x item : Ref} {p : CreatureId} {c : Cylinder} {cs : List Cylinder}
  {index : ℤ} {toItem : Option Ref} {d : Destination}

theorem Leads.of_inside (h : s.Inside cs q) (hbag : s.IsBag q)
    (hitem : ∀ x, toItem = some x → x ∈ s.contents (.container q)) : Leads s cs q index toItem where
  reaches := .inr ⟨q, rfl, h⟩
  bag := hbag
  item := hitem
  climbs _ _ hq := h.parent_reaches hq

theorem mem_of_findStack : ∀ {l : List Ref} {n k : ℕ}, findStack s r l n = some (k, x) → x ∈ l ∧ k < n + l.length
  | [], _, _, h => nomatch h
  | y :: l, n, k, h => by
    unfold findStack at h
    split at h
    · obtain ⟨rfl, rfl⟩ := Prod.mk.inj (Option.some.inj h)
      rw [List.length_cons]
      exact ⟨List.mem_cons_self, by omega⟩
    · obtain ⟨hx, hk⟩ := mem_of_findStack h
      rw [List.length_cons]
      exact ⟨List.mem_cons_of_mem y hx, by omega⟩

theorem mem_of_getItemByIndex (h : s.getItemByIndex q index = some x) : x ∈ s.contents (.container q) := by
  unfold getItemByIndex at h
  split at h
  · exact nomatch h
  · exact List.mem_of_getElem? h

/-- An item that is entered. -/
theorem aims_of_asCylinder (hs : s.Wf cfg.items) (hx : s.Inside cs x) (hc : s.asCylinder x = some c) :
    (∃ y, c = .device y) ∨
      c = .container x ∧ Leads s cs x indexWhereever none ∧ Aims s cs ⟨c, indexWhereever, none, {}⟩ := by
  rcases asCylinder_cases hc with ⟨rfl, hcont⟩ | rfl
  · have hlead : Leads s cs x indexWhereever none :=
      .of_inside hx ⟨hcont, hs.fresh x hx.place_ne_none⟩ fun _ e => nomatch e
    refine .inr ⟨rfl, hlead, .container hlead.reaches hlead.bag hlead.item fun _ => ?_⟩
    unfold indexWhereever
    omega
  · exact .inl ⟨x, rfl⟩

/-- What a container answers can be asked again, where it leads on. -/
theorem Container.aims_of_queryDestination (hs : s.Wf cfg.items)
    (hfull : ∀ q, (s.things q).itemlist.length ≤ (s.things q).maxSize.toNat) (h : Leads s cs q index toItem)
    (hd : d = Container.queryDestination cfg s q index r toItem {}) :
    d.IsDevice ∨ Aims s cs d ∧ (d.cylinder ≠ .container q →
      ∃ q', d.cylinder = .container q' ∧ Leads s cs q' d.index d.destItem) := by
  have hstay {d : Destination} (haims : Aims s cs d) (hcyl : d.cylinder = .container q) :
      d.IsDevice ∨ Aims s cs d ∧ (d.cylinder ≠ .container q →
        ∃ q', d.cylinder = .container q' ∧ Leads s cs q' d.index d.destItem) :=
    .inr ⟨haims, fun hne => absurd hcyl hne⟩
  have hfront : indexWhereever < (s.things q).maxSize.toNat := by
    unfold indexWhereever
    omega
  subst hd
  unfold Container.queryDestination
  dsimp only
  split
  · next hlocked =>
    refine hstay (.container h.reaches h.bag (fun _ e => nomatch e) fun hopen => ?_) rfl
    rw [hopen] at hlocked
    exact nomatch hlocked
  split
  · next h254 =>
    split
    · next q' hq' =>
      have hlead : Leads s cs q' indexWhereever none :=
        ⟨h.climbs h254 q' hq', hs.container q' q hq', fun _ e => (nomatch e), fun e => (nomatch e)⟩
      refine .inr ⟨.container hlead.reaches hlead.bag hlead.item fun _ => ?_, fun _ => ⟨q', rfl, hlead⟩⟩
      unfold indexWhereever
      omega
    · exact hstay (.container h.reaches h.bag (fun _ e => nomatch e) fun _ => hfront) rfl
  split
  · next n x hstack =>
    split at hstack
    · obtain ⟨hx, hn⟩ := mem_of_findStack hstack
      have hlen := hfull q
      refine hstay (.container h.reaches h.bag ?_ fun _ => by omega) rfl
      rintro y ⟨⟩
      exact hx
    · exact nomatch hstack
  · by_cases hgrey : index = 255 ∨ ((s.things q).maxSize.toNat : ℤ) ≤ index
    · rw [if_pos hgrey, if_pos hgrey, if_neg (not_not_intro rfl)]
      exact hstay (.container h.reaches h.bag (fun _ e => nomatch e) fun _ => hfront) rfl
    rw [if_neg hgrey, if_neg hgrey]
    split
    · have hitem : ∀ x, (s.getItemByIndex q index).or toItem = some x → x ∈ s.contents (.container q) := by
        intro x hx
        rcases Option.or_eq_some_iff.1 hx with hx | ⟨-, hx⟩
        · exact mem_of_getItemByIndex hx
        · exact h.item x hx
      rcases enter_cases s (.container q) index ((s.getItemByIndex q index).or toItem) {} with
        ⟨he, -⟩ | ⟨x, c, hx, hc, he⟩
      · rw [he]
        exact hstay (.container h.reaches h.bag hitem fun _ => by omega) rfl
      · rw [he]
        have hinside := h.reaches.inside ((hs.mem_contents _ x).1 (hitem x hx))
        rcases aims_of_asCylinder hs hinside hc with hdev | ⟨rfl, hlead, haims⟩
        · exact .inl hdev
        · exact .inr ⟨haims, fun _ => ⟨x, rfl, hlead⟩⟩
    · exact hstay (.container h.reaches h.bag h.item fun _ => by omega) rfl

theorem findDestination_isDevice : ∀ {n : ℕ} {d : Destination}, d.IsDevice → (findDestination cfg s item n d).IsDevice
  | 0, _, h => h
  | n + 1, d, h => by
    obtain ⟨x, hx⟩ := h
    have hsub : (queryDestination cfg s d.index item d.destItem d.flags d.cylinder).cylinder = .device x := by
      rw [hx]
      rfl
    unfold findDestination
    dsimp only
    split
    · exact ⟨x, hsub⟩
    · exact findDestination_isDevice ⟨x, hsub⟩

theorem aims_findDestination_container (hs : s.Wf cfg.items)
    (hfull : ∀ q, (s.things q).itemlist.length ≤ (s.things q).maxSize.toNat) : ∀ {n : ℕ} {q : Ref} {index : ℤ}
    {toItem : Option Ref} {d : Destination}, Leads s cs q index toItem →
    d = findDestination cfg s item (n + 1) ⟨.container q, index, toItem, {}⟩ → d.IsDevice ∨ Aims s cs d := by
  intro n
  induction n with
  | zero =>
    rintro q index toItem d h rfl
    unfold findDestination
    dsimp only
    rcases Container.aims_of_queryDestination hs hfull h rfl with ⟨x, hx⟩ | ⟨haims, -⟩
    · left
      split
      · exact ⟨x, hx⟩
      · exact ⟨x, hx⟩
    · right
      split
      · exact haims
      · unfold findDestination queryDestination
        dsimp only
        generalize Container.queryDestination cfg s q index item toItem {} = d at haims
        cases haims with
        | container reaches bag item fits => exact .container reaches bag item fits
        | player hp => exact .player hp
  | succ n ih =>
    rintro q index toItem d h rfl
    unfold findDestination
    dsimp only
    rcases Container.aims_of_queryDestination hs hfull h rfl with ⟨x, hx⟩ | ⟨haims, hlead⟩
    · left
      split
      · exact ⟨x, hx⟩
      · exact findDestination_isDevice ⟨x, hx⟩
    · split
      · exact .inr haims
      · next hne =>
        obtain ⟨q', hq', hlead⟩ := hlead hne
        refine ih hlead ?_
        unfold queryDestination
        dsimp only
        rw [hq']

/-- Where a player finds a place for an item. -/
theorem Spot.aims (hs : s.Wf cfg.items) (hp : .player p ∈ cs) (h : Spot cfg s p r d)
    (hflags : d.cylinder = .player p → d.flags = {}) :
    d.cylinder = .player p ∧ Aims s cs d ∨ ∃ q, d.cylinder = .container q ∧ Leads s cs q d.index d.destItem := by
  cases h with
  | @stack i x flags hx hslot =>
    obtain rfl : flags = {} := hflags rfl
    exact .inl ⟨rfl, .of_slot hp hslot⟩
  | @slot i flags hi hfree =>
    obtain rfl : flags = {} := hflags rfl
    have hslot : s.getInventoryItem p i = none := by
      unfold getInventoryItem
      split
      · exact hfree
      · rfl
    exact .inl ⟨rfl, .of_slot hp hslot⟩
  | @stackIn q x n flags hq hcont hx hstack =>
    have hinside := hs.inside_of_carried hp hq
    refine .inr ⟨q, rfl, .of_inside hinside ⟨hcont, hs.fresh q hinside.place_ne_none⟩ ?_⟩
    rintro y ⟨⟩
    exact hx
  | @within q index flags hq hcont =>
    have hinside := hs.inside_of_carried hp hq
    exact .inr ⟨q, rfl, .of_inside hinside ⟨hcont, hs.fresh q hinside.place_ne_none⟩ fun _ e => nomatch e⟩
  | @nowhere flags =>
    obtain rfl : flags = {} := hflags rfl
    exact .inl ⟨rfl, .player hp⟩

theorem Player.aims_of_queryDestination (hs : s.Wf cfg.items) (hp : .player p ∈ cs)
    (hd : d = Player.queryDestination cfg s p index r none {}) :
    d.IsDevice ∨ d.cylinder = .player p ∧ Aims s cs d ∨
      ∃ q, d.cylinder = .container q ∧ Leads s cs q d.index d.destItem := by
  have howned := hs.owned p
  by_cases hindex : index = 0 ∨ index = indexWhereever
  · have hflags : d.cylinder = .player p → d.flags = {} := by
      intro hcyl
      have hcases := Player.queryDestination_cases cfg s r p index {} none
      dsimp only at hcases
      rw [← hd, hcyl] at hcases
      exact hcases.elim False.elim fun h => h.2.1
    have hnil : Open s p [] := fun _ hq => nomatch hq
    have hslots := spot_of_findSlot cfg r {} howned (List.Subset.refl slots) hnil
    unfold Player.queryDestination at hd
    dsimp only at hd
    rw [if_pos hindex] at hd
    split at hd
    · next d' he =>
      rw [he] at hslots
      subst hd
      exact .inr (Spot.aims hs hp hslots hflags)
    · next containers he =>
      rw [he] at hslots
      cases hd' : findContainer cfg s p r {} (s.next + 1) containers with
      | none =>
        rw [hd', Option.getD_none] at hd
        subst hd
        have hslot : s.getInventoryItem p index = none := by
          unfold getInventoryItem
          rw [if_neg]
          unfold indexWhereever at hindex
          omega
        exact .inr (.inl ⟨rfl, .of_slot hp hslot⟩)
      | some d' =>
        rw [hd', Option.getD_some] at hd
        subst hd
        exact .inr (Spot.aims hs hp (spot_of_findContainer howned hslots hd') hflags)
  · unfold Player.queryDestination at hd
    dsimp only at hd
    rw [if_neg hindex] at hd
    cases hslot : s.getInventoryItem p index with
    | none =>
      rw [hslot] at hd
      dsimp only at hd
      subst hd
      exact .inr (.inl ⟨rfl, .of_slot hp hslot⟩)
    | some x =>
      rw [hslot] at hd
      dsimp only at hd
      rcases enter_cases s (.player p) index (some x) {} with ⟨he, -⟩ | ⟨y, c, hy, hc, he⟩
      · rw [he] at hd
        subst hd
        exact .inr (.inl ⟨rfl, .of_slot hp hslot⟩)
      · rw [he] at hd
        subst hd
        obtain rfl := Option.some.inj hy
        obtain ⟨-, hmem, hinv⟩ := getInventoryItem_eq_some hslot
        have hinside : s.Inside cs x :=
          .here ((hs.mem_contents _ x).1 (mem_contents_player.2 ⟨_, hmem, hinv⟩)) hp
        rcases aims_of_asCylinder hs hinside hc with hdev | ⟨rfl, hlead, -⟩
        · exact .inl hdev
        · exact .inr (.inr ⟨x, rfl, hlead⟩)

/-- **Where a move leads.** -/
theorem aims_findDestination {toCylinder : Cylinder} (hs : s.Wf cfg.items)
    (hfull : ∀ q, (s.things q).itemlist.length ≤ (s.things q).maxSize.toNat) (hc : Carries toCylinder)
    (hbag : ∀ q, toCylinder = .container q → s.IsBag q) (hto : toCylinder ∈ cs)
    (hup : ∀ q q', index = 254 → toCylinder = .container q → s.parent q = some (.container q') → .container q' ∈ cs)
    (hd : d = findDestination cfg s item mapMaxLayers ⟨toCylinder, index, none, {}⟩) :
    d.IsDevice ∨ Aims s cs d := by
  have hlayers : mapMaxLayers = 14 + 1 + 1 := rfl
  rw [hlayers] at hd
  cases toCylinder with
  | container q =>
    have hlead : Leads s cs q index none :=
      ⟨.inl hto, hbag q rfl, by simp, fun h254 q' hq' => .inl (hup q q' h254 rfl hq')⟩
    exact aims_findDestination_container hs hfull hlead hd
  | player p =>
    unfold findDestination queryDestination at hd
    dsimp only at hd
    obtain ⟨d', hd'⟩ : ∃ d', d' = Player.queryDestination cfg s p index item none {} := ⟨_, rfl⟩
    rw [← hd'] at hd
    rcases Player.aims_of_queryDestination hs hto hd' with ⟨x, hx⟩ | ⟨hcyl, haims⟩ | ⟨q, hcyl, hlead⟩
    · left
      subst hd
      split
      · exact ⟨x, hx⟩
      · exact findDestination_isDevice ⟨x, hx⟩
    · right
      rw [if_pos hcyl] at hd
      exact hd ▸ haims
    · rw [if_neg (by simp [hcyl]), hcyl] at hd
      exact aims_findDestination_container hs hfull hlead hd
  | tile t => exact hc.elim
  | device x => exact hc.elim

end Destinations

/-! ### What is put there -/

/-- The cylinder puts an item at the index, where nothing is in the way. -/
structure Room (cfg : Config) (s : State) (c : Cylinder) (index : ℤ) : Prop where
  accepts : s.Accepts index c
  free : ∀ p, c = .player p → (s.players p).inventory index.toNat = none
  bag : ∀ q, c = .container q → (s.type cfg q).stackable = false ∧ q < s.next

/-- The place takes the count of the item: as a new item, a part of which may go
to a stack there, or all of it on a stack. -/
inductive Lands (cfg : Config) (s : State) (item : Ref) (m : ℕ) (c : Cylinder) (index : ℤ) : Option Ref → Prop
  | room {toItem : Option Ref} (h : Room cfg s c index) (there : ∀ x, toItem = some x → x ∈ s.contents c) :
      Lands cfg s item m c index toItem
  | stack {x : Ref} (there : x ∈ s.contents c) (stackable : (s.type cfg item).stackable = true)
      (notRune : (s.type cfg item).isRune = false) (equals : (s.item item).equals (s.item x) = true)
      (room : m ≤ 100 - (s.item x).count) : Lands cfg s item m c index (some x)

section Answers

variable {cfg : Config} {s : State} {q r x item : Ref} {p : CreatureId} {c fromCylinder : Cylinder}
  {cs : List Cylinder} {index : ℤ} {toItem tradeItem : Option Ref} {d : Destination} {count : ℕ}
  {actor : Option CreatureId}

/-- A container that takes an item is open, and not the item, nor in it. -/
theorem Container.of_queryAdd (h : Container.queryAdd cfg s q index r count {} = .noError) :
    (s.things q).unlocked = true ∧ r ≠ q ∧ s.isHeldIn q r = false := by
  unfold Container.queryAdd at h
  dsimp only at h
  split at h
  · exact nomatch h
  rw [if_neg Bool.false_ne_true] at h
  split at h
  · exact nomatch h
  next hopen =>
  split at h
  · exact nomatch h
  split at h
  · exact nomatch h
  next hne =>
  split at h
  · exact nomatch h
  next hheld =>
  exact ⟨by simpa using hopen, hne, by simpa using hheld⟩

/-- An index at which a player takes an item, or asks for an exchange, is a slot. -/
theorem Player.index_of_queryAdd (h : Player.queryAdd cfg s p index r count {} = .noError ∨
    Player.queryAdd cfg s p index r count {} = .needExchange) : 1 ≤ index ∧ index ≤ 10 := by
  rcases h with h | h
  · unfold Player.queryAdd at h
    dsimp only at h
    rw [if_neg Bool.false_ne_true] at h
    split at h
    · exact nomatch h
    split at h
    · split at h
      · exact nomatch h
      split at h
      · exact nomatch h
      · exact Player.querySlot_eq_noError h
    · exact Player.querySlot_eq_noError h
  · obtain ⟨y, hy, -⟩ := Player.occupied_iff.1 (Player.queryAdd_eq_needExchange h).2.2.2
    exact (getInventoryItem_eq_some hy).1

/-- What is left of a count that there is no room for is not taken away. -/
theorem Cleared.room_ne_zero (h : Cleared cfg s fromCylinder c index item count {} tradeItem) :
    (queryMaxCount cfg s index item count {} c).2 ≠ 0 := by
  intro hzero
  have hremoved := queryRemove_eq_noError.1 h.removed
  have hcount : moveCount cfg s item count 0 = 0 := by
    unfold moveCount
    split
    · split <;> exact Nat.min_zero _
    · rfl
  rw [hzero, hcount] at hremoved
  exact hremoved.2.1.1 rfl

/-- **The answers agree.** A count that is moved lands. -/
theorem lands_of_cleared (hs : s.Wf cfg.items) (haims : Aims s cs d)
    (hadd : queryAdd cfg s d.index item count {} actor d.cylinder = .noError ∨
      queryAdd cfg s d.index item count {} actor d.cylinder = .needExchange)
    (h : Cleared cfg s fromCylinder d.cylinder d.index item count {} tradeItem) :
    Lands cfg s item (moveCount cfg s item count (queryMaxCount cfg s d.index item count {} d.cylinder).2)
      d.cylinder d.index d.destItem := by
  cases haims with
  | @container q index toItem reaches bag there fits =>
    have hok : Container.queryAdd cfg s q index item count {} = .noError :=
      hadd.resolve_right Container.queryAdd_ne_needExchange
    refine .room ⟨fits (Container.of_queryAdd hok).1, fun p e => (nomatch e), ?_⟩ there
    rintro q' ⟨⟩
    exact ⟨hs.not_stackable bag.1, bag.2⟩
  | @player p index hp =>
    have hindex := Player.index_of_queryAdd hadd
    dsimp only at hindex
    have hroom := h.room_ne_zero
    dsimp only at hroom ⊢
    have hmax : (queryMaxCount cfg s index item count {} (.player p)).2 =
        (Player.queryMaxCount cfg s p index item count {}).2 := rfl
    have hwhere : index ≠ indexWhereever := by
      unfold indexWhereever
      omega
    rw [hmax] at hroom ⊢
    unfold Player.queryMaxCount at hroom ⊢
    dsimp only at hroom ⊢
    rw [if_neg hwhere] at hroom ⊢
    cases hslot : s.getInventoryItem p index with
    | none =>
      unfold getInventoryItem at hslot
      rw [if_pos hindex] at hslot
      refine .room ⟨hindex, ?_, fun q e => (nomatch e)⟩ fun x e => (nomatch e)
      rintro p' ⟨⟩
      exact hslot
    | some x =>
      obtain ⟨-, hmem, hinv⟩ := getInventoryItem_eq_some hslot
      rw [hslot] at hroom
      dsimp only at hroom ⊢
      split at hroom
      · next hstack =>
        rw [if_pos hstack]
        simp only [Bool.and_eq_true, Bool.not_eq_true', decide_eq_true_eq] at hstack
        obtain ⟨⟨⟨hrune, hstackable⟩, hequals⟩, hlt⟩ := hstack
        have htype : s.type cfg x = s.type cfg item := by
          unfold State.type
          rw [(Item.equals_iff.1 hequals).1]
        rw [htype] at hrune hstackable
        refine .stack (mem_contents_player.2 ⟨_, hmem, hinv⟩) hstackable hrune hequals ?_
        unfold moveCount
        rw [if_pos hstackable, hrune, if_neg Bool.false_ne_true]
        exact Nat.min_le_right ..
      · exact absurd rfl hroom

end Answers

end Inventory
end ForgottenServer
