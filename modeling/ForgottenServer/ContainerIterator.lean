/-
# The iterator of a container

`ContainerIterator` is a queue of containers that are not empty, the first of
which is being read, and a position in its items. An item that is a container
and not empty is put at the end of the queue when it is passed. At the end of
the items the next container of the queue is read from its beginning.

The items come in the order of the breadth-first walk. A loop over the iterator
ends, and does what the same loop over the list of these items does.

Key definitions: `ContainerIterator`, `advance`, `loop`, `foldUntil`.
Key theorems: `loop_walk`, `loop_iterator`, `iterator_visits`.
-/
import ForgottenServer.Carried

namespace ForgottenServer
namespace Inventory

open Ancestry Nesting BreadthFirst Relation State

/-! ### The model -/

/-- `ContainerIterator`: the position is one in the items of a container. -/
structure ContainerIterator where
  overs : List Ref
  cur : Ref × ℕ

namespace ContainerIterator

section Code

variable (s : State)

/-- `Container::iterator` -/
def iterator (q : Ref) : ContainerIterator :=
  if !(s.things q).itemlist.isEmpty then ⟨[q], (q, 0)⟩ else ⟨[], (q, 0)⟩

def hasNext (it : ContainerIterator) : Bool := !it.overs.isEmpty

/-- `ContainerIterator::operator*`, where the position is one of an item. -/
def deref (it : ContainerIterator) : Option Ref := (s.things it.cur.1).itemlist[it.cur.2]?

/-- An item that is a container and not empty. -/
def opens (i : Ref) : Bool := s.isContainer i && !(s.things i).itemlist.isEmpty

def advance (it : ContainerIterator) : ContainerIterator :=
  let overs :=
    match it.deref s with
    | some i => if opens s i then it.overs ++ [i] else it.overs
    | none => it.overs
  let cur := (it.cur.1, it.cur.2 + 1)
  match overs with
  | [] => ⟨[], cur⟩
  | front :: rest =>
    if cur = (front, (s.things front).itemlist.length) then
      match rest with
      | [] => ⟨[], cur⟩
      | next :: _ => ⟨rest, (next, 0)⟩
    else ⟨overs, cur⟩

/-- A loop over an iterator: `body` gives what is kept after an item, and
whether the loop goes on. The fuel is used up in no loop that ends. -/
def loop {β : Type} (body : β → Ref → β × Bool) : ℕ → ContainerIterator → β → Option β
  | 0, _, _ => none
  | fuel + 1, it, b =>
    if it.hasNext then
      (it.deref s).bind fun i =>
        let r := body b i
        if r.2 then loop body fuel (it.advance s) r.1 else some r.1
    else some b

/-- The items in the order in which they come. -/
def visit (fuel : ℕ) (q : Ref) : Option (List Ref) :=
  loop s (fun l i => (l ++ [i], true)) fuel (iterator s q) []

/-- `Container::getItemHoldingCount` -/
def getItemHoldingCount (fuel : ℕ) (q : Ref) : Option UInt32 :=
  loop s (fun counter _ => (counter + 1, true)) fuel (iterator s q) 0

/-- `Container::isHoldingItem` -/
def isHoldingItem (fuel : ℕ) (q item : Ref) : Option Bool :=
  loop s (fun b i => if i = item then (true, false) else (b, true)) fuel (iterator s q) false

end Code

/-! ### A loop over a list -/

section Lists

variable {β : Type} {body : β → Ref → β × Bool} {b : β} {l : List Ref}

/-- The loop over the items of a list. -/
def foldUntil (body : β → Ref → β × Bool) : β → List Ref → β
  | b, [] => b
  | b, i :: l => if (body b i).2 then foldUntil body (body b i).1 l else (body b i).1

theorem foldUntil_visit (l l' : List Ref) : foldUntil (fun l i => (l ++ [i], true)) l' l = l' ++ l := by
  induction l generalizing l' with
  | nil => exact (List.append_nil l').symm
  | cons i l ih =>
    rw [foldUntil, if_pos rfl, ih, List.append_assoc]
    rfl

theorem foldUntil_count (l : List Ref) (counter : UInt32) :
    foldUntil (fun (counter : UInt32) _ => (counter + 1, true)) counter l = counter + .ofNat l.length := by
  induction l generalizing counter with
  | nil => exact (UInt32.add_zero counter).symm
  | cons i l ih =>
    rw [foldUntil, if_pos rfl, ih, List.length_cons, UInt32.ofNat_add, UInt32.add_assoc, UInt32.add_comm 1]
    rfl

theorem foldUntil_holding (l : List Ref) (item : Ref) :
    foldUntil (fun b i => if i = item then (true, false) else (b, true)) false l = decide (item ∈ l) := by
  induction l with
  | nil => rfl
  | cons i l ih =>
    by_cases hi : i = item
    · subst hi
      simp [foldUntil]
    · simp [foldUntil, hi, ih, Ne.symm hi]

end Lists

/-! ### The walk -/

section Walk

variable {s : State} {β : Type} {body : β → Ref → β × Bool} {b : β} {q x : Ref} {queue pre l tail : List Ref}

/-- The iterator is about to read the first of some containers. -/
structure At (it : ContainerIterator) (queue : List Ref) : Prop where
  overs : it.overs = queue
  cur : ∀ q ∈ queue.head?, it.cur = (q, 0)

theorem loop_nil {it : ContainerIterator} (h : it.overs = []) (fuel : ℕ) : loop s body (fuel + 1) it b = some b := by
  rw [loop, if_neg (by simp [hasNext, h])]

/-- A step of the loop inside the items of a container. -/
theorem advance_eq (hitems : (s.things q).itemlist = pre ++ x :: l) :
    (l ≠ [] → advance s ⟨q :: queue, (q, pre.length)⟩ =
      ⟨q :: (queue ++ [x].filter (opens s)), (q, pre.length + 1)⟩) ∧
    (l = [] → At (advance s ⟨q :: queue, (q, pre.length)⟩) (queue ++ [x].filter (opens s))) := by
  have hderef : deref s ⟨q :: queue, (q, pre.length)⟩ = some x := by simp [deref, hitems]
  have hovers : (match deref s ⟨q :: queue, (q, pre.length)⟩ with
      | some i => if opens s i then (q :: queue) ++ [i] else q :: queue
      | none => q :: queue) = q :: (queue ++ [x].filter (opens s)) := by
    rw [hderef]
    cases hx : opens s x with
    | true => simp [hx]
    | false => simp [hx]
  have hend : (q, pre.length + 1) = (q, (s.things q).itemlist.length) ↔ l = [] := by
    rw [hitems, Prod.mk.injEq, eq_self_iff_true, true_and, List.length_append, List.length_cons,
      ← List.length_eq_zero_iff]
    omega
  unfold advance
  dsimp only
  rw [hovers]
  constructor
  · intro hl
    dsimp only
    rw [if_neg (mt hend.1 hl)]
  · intro hl
    dsimp only
    rw [if_pos (hend.2 hl)]
    cases queue ++ [x].filter (opens s) with
    | nil => exact ⟨rfl, by simp⟩
    | cons r rest => exact ⟨rfl, by simp⟩

/-- The items of the container that is read, and then those of the queue. -/
theorem loop_items
    (hrest : ∀ it b fuel, At it (queue ++ (s.things q).itemlist.filter (opens s)) → tail.length < fuel →
      loop s body fuel it b = some (foldUntil body b tail)) :
    ∀ {l pre : List Ref} {b : β} {fuel : ℕ}, (s.things q).itemlist = pre ++ l → l ≠ [] → (l ++ tail).length < fuel →
      loop s body fuel ⟨q :: (queue ++ pre.filter (opens s)), (q, pre.length)⟩ b = some (foldUntil body b (l ++ tail))
  | [], _, _, _, _, hl, _ => absurd rfl hl
  | _ :: _, _, _, 0, _, _, hfuel => absurd hfuel (Nat.not_lt_zero _)
  | x :: l, pre, b, fuel + 1, hitems, _, hfuel => by
    obtain ⟨hmore, hlast⟩ := @advance_eq s q x (queue ++ pre.filter (opens s)) pre l hitems
    rw [List.append_assoc, ← List.filter_append] at hmore hlast
    have hderef : deref s ⟨q :: (queue ++ pre.filter (opens s)), (q, pre.length)⟩ = some x := by
      simp [deref, hitems]
    have hfuel' : (l ++ tail).length < fuel := by simpa using hfuel
    have hnext : hasNext ⟨q :: (queue ++ pre.filter (opens s)), (q, pre.length)⟩ = true := rfl
    rw [loop, if_pos hnext, hderef, Option.bind_some, List.cons_append, foldUntil]
    dsimp only
    split
    · have happend : (s.things q).itemlist = (pre ++ [x]) ++ l := by rw [hitems, List.append_assoc]; rfl
      by_cases hl : l = []
      · subst hl
        rw [List.append_nil] at happend
        refine hrest _ _ _ ?_ hfuel'
        rw [happend]
        exact hlast rfl
      · rw [hmore hl]
        have hlen : pre.length + 1 = (pre ++ [x]).length := by simp
        rw [hlen]
        exact loop_items hrest happend hl hfuel'
    · rfl

theorem isEmpty_of_opens (h : opens s x = true) : (s.things x).itemlist ≠ [] := by
  unfold opens at h
  intro hnil
  simp [hnil] at h

/-- A loop over the iterator is one over the walk. -/
theorem loop_walk (h : s.Forest) : ∀ {n : ℕ} {queue : List Ref} {it : ContainerIterator} {b : β} {fuel : ℕ},
    At it queue → (∀ q ∈ queue, (s.things q).itemlist ≠ []) →
    (queue.map (rounds (Finset.range s.next) s.holder)).sum ≤ n →
    (walk (fun q => (s.things q).itemlist) (opens s) n queue).length < fuel →
    loop s body fuel it b = some (foldUntil body b (walk (fun q => (s.things q).itemlist) (opens s) n queue))
  | _, _, _, _, 0, _, _, _, hfuel => absurd hfuel (Nat.not_lt_zero _)
  | 0, [], _, _, fuel + 1, hat, _, _, _ => loop_nil hat.overs fuel
  | 0, q :: queue, _, _, _, _, _, hn, _ => by
    rw [List.map_cons, List.sum_cons] at hn
    unfold rounds at hn
    omega
  | _ + 1, [], _, _, fuel + 1, hat, _, _, _ => loop_nil hat.overs fuel
  | n + 1, q :: queue, ⟨overs, cur⟩, b, fuel, hat, hne, hn, hfuel => by
    obtain rfl : overs = q :: queue := hat.overs
    obtain rfl : cur = (q, 0) := hat.cur q rfl
    rw [walk] at hfuel ⊢
    have hitems := @loop_items s β body q queue (walk _ _ n _)
      (fun it b fuel hat' hfuel' => loop_walk h hat' ?_ (rounds_next h.nested h.mem_iff_holder h.nodup hn) hfuel')
      _ [] b fuel rfl (hne q List.mem_cons_self) hfuel
    · rw [List.filter_nil, List.append_nil] at hitems
      exact hitems
    · intro r hr
      rcases List.mem_append.1 hr with hr | hr
      · exact hne r (List.mem_cons_of_mem q hr)
      · exact isEmpty_of_opens (List.mem_filter.1 hr).2

/-- A loop over the iterator of a container is one over its walk. -/
theorem loop_iterator (h : s.Forest) {fuel : ℕ} (hfuel : (s.iterator q).length < fuel) :
    loop s body fuel (iterator s q) b = some (foldUntil body b (s.iterator q)) := by
  unfold State.iterator at hfuel ⊢
  rw [iterate_eq_walk] at hfuel ⊢
  by_cases hq : (s.things q).itemlist = []
  · -- an empty container does not get into the queue, and lists nothing
    have hwalk : walk (fun q => (s.things q).itemlist) (opens s) (s.next + 1) [q] = [] := by
      rw [walk, hq, List.nil_append, List.nil_append, List.filter_nil]
      cases s.next <;> rfl
    obtain ⟨fuel, rfl⟩ := Nat.exists_eq_add_of_lt (Nat.zero_lt_of_lt hfuel)
    have hovers : (iterator s q).overs = [] := by simp [iterator, hq]
    rw [Nat.zero_add, loop_nil hovers]
    exact congrArg (fun l => some (foldUntil body b l)) hwalk.symm
  · have hat : At (iterator s q) [q] := by
      unfold iterator
      rw [if_pos (by simp [hq])]
      exact ⟨rfl, by simp⟩
    refine loop_walk h hat (fun r hr => List.mem_singleton.1 hr ▸ hq) ?_ hfuel
    have hcard := card_inside_lt s q
    rw [List.map_singleton, List.sum_singleton]
    unfold rounds
    omega

/-- Something lies in a container, directly or in another that lies in it. -/
def Inside (s : State) : Ref → Ref → Prop := TransGen fun x q => x ∈ (s.things q).itemlist

theorem inside_iff (h : s.Forest) : Inside s x q ↔ TransGen (Parent s.holder) x q := by
  have hrel : (fun x q => x ∈ (s.things q).itemlist) = Parent s.holder :=
    funext fun x => funext fun q => propext (h.mem_iff_holder q x)
  rw [Inside, hrel]

/-- The iterator comes to all that lies inside a container, to each item once
and to every container before what lies in it, and every loop over it ends. -/
theorem iterator_visits (h : s.Forest) (q : Ref) :
    (s.iterator q).Nodup ∧ (∀ x, x ∈ s.iterator q ↔ Inside s x q) ∧
    (∀ a x b c, s.iterator q = a ++ x :: b → Inside s x c → c ∈ s.iterator q → c ∈ a) ∧
    ∀ fuel, (s.iterator q).length < fuel →
      visit s fuel q = some (s.iterator q) ∧
      getItemHoldingCount s fuel q = some (.ofNat (s.iterator q).length) ∧
      (∀ item, isHoldingItem s fuel q item = some (decide (item ∈ s.iterator q))) ∧
      ∀ (β : Type) (body : β → Ref → β × Bool) (b : β),
        loop s body fuel (iterator s q) b = some (foldUntil body b (s.iterator q)) := by
  have hmem (x : Ref) : x ∈ s.iterator q ↔ Inside s x q := by
    rw [← Multiset.mem_coe, h.iterator_coe, Finset.mem_val, inside_iff h]
    exact mem_inside h.nested
  refine ⟨?_, hmem, fun a x b c hl hx hc => ?_, fun fuel hfuel => ⟨?_, ?_, fun item => ?_, fun β body b => ?_⟩⟩
  · rw [← Multiset.coe_nodup, h.iterator_coe]
    exact Finset.nodup _
  · unfold State.iterator at hl
    rw [iterate_eq_walk] at hl
    exact walk_before h.nested h.mem_iff_holder hl ((inside_iff h).1 hx) ((inside_iff h).1 ((hmem c).1 hc))
  · exact (loop_iterator h hfuel).trans (congrArg some (foldUntil_visit _ _))
  · refine (loop_iterator h hfuel).trans (congrArg some ?_)
    rw [foldUntil_count, UInt32.zero_add]
  · exact (loop_iterator h hfuel).trans (congrArg some (foldUntil_holding _ item))
  · exact loop_iterator h hfuel

/-! ### A bag in a backpack -/

def packTypes (id : UInt16) : ItemType := { id, group := if id = 1 then .container else .none }

/-- The items of the backpack 0 are a bag and an apple, those of the bag two apples. -/
def pack : State where
  things
    | 0 => { item := ⟨.container, 1, 1, none, (0, 0, 0), 0, 0, 0⟩, itemlist := [1, 2], maxSize := 20 }
    | 1 => { item := ⟨.container, 1, 1, none, (0, 0, 0), 0, 0, 0⟩, itemlist := [3, 4], maxSize := 8,
             parent := some (.container 0) }
    | 2 => { item := ⟨.item, 2, 1, none, (0, 0, 0), 0, 0, 0⟩, parent := some (.container 0) }
    | 3 => { item := ⟨.item, 2, 1, none, (0, 0, 0), 0, 0, 0⟩, parent := some (.container 1) }
    | 4 => { item := ⟨.item, 2, 1, none, (0, 0, 0), 0, 0, 0⟩, parent := some (.container 1) }
    | _ => { item := ⟨.item, 0, 1, none, (0, 0, 0), 0, 0, 0⟩ }
  players _ := { tile := ⟨0, 0, 7⟩ }
  next := 5

theorem pack_wf : pack.Wf packTypes := by
  apply Wf.of_placed (fun r => if r = 0 then 0 else if r ≤ 2 then 1 else 2) [.container 0, .container 1]
  · intro c hc
    simp only [List.mem_cons, List.not_mem_nil, or_false, not_or] at hc
    cases c with
    | container q =>
      match q, hc with
      | 0, hq => exact absurd rfl hq.1
      | 1, hq => exact absurd rfl hq.2
      | 2, _ | 3, _ | 4, _ | _ + 5, _ => rfl
    | player p => rfl
    | tile t => rfl
    | device r => rfl
  · decide
  · exact fun t => ⟨[], [], rfl, by decide, fun g hg => (nomatch hg), fun l hl => (nomatch hl), by decide⟩
  · decide
  · intro r hr
    match r, hr with
    | 0, hr | 1, hr | 2, hr | 3, hr | 4, hr => exact absurd hr (by decide)
    | n + 5, _ => exact ⟨rfl, rfl⟩

example : visit pack 5 0 = some [1, 2, 3, 4] := by decide

theorem iterator_visits_pack :
    (pack.iterator 0).Nodup ∧ (∀ x, x ∈ pack.iterator 0 ↔ Inside pack x 0) ∧
    (∀ a x b c, pack.iterator 0 = a ++ x :: b → Inside pack x c → c ∈ pack.iterator 0 → c ∈ a) ∧
    ∀ fuel, (pack.iterator 0).length < fuel →
      visit pack fuel 0 = some (pack.iterator 0) ∧
      getItemHoldingCount pack fuel 0 = some (.ofNat (pack.iterator 0).length) ∧
      (∀ item, isHoldingItem pack fuel 0 item = some (decide (item ∈ pack.iterator 0))) ∧
      ∀ (β : Type) (body : β → Ref → β × Bool) (b : β),
        loop pack body fuel (iterator pack 0) b = some (foldUntil body b (pack.iterator 0)) :=
  iterator_visits pack_wf.forest 0

end Walk
end ContainerIterator
end Inventory
end ForgottenServer
