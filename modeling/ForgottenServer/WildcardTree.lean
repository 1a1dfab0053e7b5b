/-
# Names by their beginnings

The wildcard tree holds the names of the players, one node for each beginning.
A breakpoint is the end of a name. Inserting and removing change one name
(`has_insert`, `has_remove`), and removing prunes what leads to no name, so
every node but the root has a name at or below it (`NoDead`). That is what
`findOne` relies on when it decides by the number of children (`complete_spec`).

Key definitions: `WildcardTreeNode`, `insert`, `remove`, `findOne`, `NoDead`.
Key theorems: `has_insert`, `has_remove`, `complete_spec`, `findOne_run`.
-/
import Mathlib.Tactic

namespace ForgottenServer
namespace WildcardTree

inductive ReturnValue
  | noError | playerWithThisNameIsNotOnline | nameIsTooAmbigious
  deriving DecidableEq, Repr

inductive WildcardTreeNode
  | node (breakpoint : Bool) (children : UInt8 → Option WildcardTreeNode)

namespace WildcardTreeNode

def new (breakpoint : Bool) : WildcardTreeNode := node breakpoint fun _ => none

def breakpoint : WildcardTreeNode → Bool
  | node breakpoint _ => breakpoint

def getChild : WildcardTreeNode → UInt8 → Option WildcardTreeNode
  | node _ children => children

def setBreakpoint (t : WildcardTreeNode) (breakpoint : Bool) : WildcardTreeNode := node breakpoint t.getChild

def setChild (t : WildcardTreeNode) (ch : UInt8) (child : Option WildcardTreeNode) : WildcardTreeNode :=
  node t.breakpoint (Function.update t.getChild ch child)

/-- The characters that have a child, in order. -/
def keys (t : WildcardTreeNode) : List UInt8 :=
  ((List.range 256).map UInt8.ofNat).filter fun ch => (t.getChild ch).isSome

/-- The child that is found or made. -/
def addChild (t : WildcardTreeNode) (ch : UInt8) (breakpoint : Bool) : WildcardTreeNode :=
  match t.getChild ch with
  | some child => if breakpoint && !child.breakpoint then child.setBreakpoint true else child
  | none => .new breakpoint

/-- The name is not empty. -/
def insert : WildcardTreeNode → List UInt8 → WildcardTreeNode
  | t, [] => t
  | t, [ch] => t.setChild ch (some (t.addChild ch true))
  | t, ch :: str => t.setChild ch (some ((t.addChild ch false).insert str))

/-- The way down and the way back, which takes away nodes that are used up. It
stops at the first that is not: those above have a child. There is no result
where the way down ends. -/
def removeFrom : WildcardTreeNode → List UInt8 → Option WildcardTreeNode
  | t, [] => some (t.setBreakpoint false)
  | t, ch :: str =>
    match t.getChild ch with
    | none => none
    | some child =>
      match child.removeFrom str with
      | none => none
      | some child =>
        if !child.keys.isEmpty || child.breakpoint then some (t.setChild ch (some child))
        else some (t.setChild ch none)

def remove (t : WildcardTreeNode) (str : List UInt8) : WildcardTreeNode := (t.removeFrom str).getD t

/-- The node that a string leads to. -/
def follow : WildcardTreeNode → List UInt8 → Option WildcardTreeNode
  | t, [] => some t
  | t, ch :: str =>
    match t.getChild ch with
    | none => none
    | some child => child.follow str

mutual

/-- The second loop of `findOne`. -/
def complete : WildcardTreeNode → List UInt8 → ReturnValue × List UInt8
  | node breakpoint children, result =>
    match (node breakpoint children).keys with
    | [] => (.noError, result)
    | [ch] =>
      if breakpoint then (.nameIsTooAmbigious, result)
      else completeChild (children ch) (result ++ [ch])
    | _ => (.nameIsTooAmbigious, result)

def completeChild : Option WildcardTreeNode → List UInt8 → ReturnValue × List UInt8
  | some child, result => child.complete result
  | none, result => (.noError, result)

end

def findOne (t : WildcardTreeNode) (query result : List UInt8) : ReturnValue × List UInt8 :=
  match t.follow query with
  | none => (.playerWithThisNameIsNotOnline, result)
  | some cur => cur.complete query

/-! ### The names in a tree -/

/-- A string leads to a breakpoint. -/
def has (t : WildcardTreeNode) (str : List UInt8) : Bool :=
  match t.follow str with
  | none => false
  | some cur => cur.breakpoint

variable {t child : WildcardTreeNode} {ch c : UInt8} {s str : List UInt8}

@[simp] theorem getChild_setChild (o : Option WildcardTreeNode) :
    (t.setChild ch o).getChild = Function.update t.getChild ch o := rfl

@[simp] theorem breakpoint_setChild (o : Option WildcardTreeNode) :
    (t.setChild ch o).breakpoint = t.breakpoint := rfl

@[simp] theorem getChild_setBreakpoint (b : Bool) : (t.setBreakpoint b).getChild = t.getChild := rfl

@[simp] theorem breakpoint_setBreakpoint (b : Bool) : (t.setBreakpoint b).breakpoint = b := rfl

@[simp] theorem getChild_new (b : Bool) : (new b).getChild ch = none := rfl

@[simp] theorem has_nil : t.has [] = t.breakpoint := rfl

theorem has_cons_of_none (h : t.getChild ch = none) : t.has (ch :: s) = false := by
  unfold has
  rw [follow, h]

theorem has_cons_of_some (h : t.getChild ch = some child) : t.has (ch :: s) = child.has s := by
  unfold has
  rw [follow, h]

theorem mem_keys : ch ∈ t.keys ↔ (t.getChild ch).isSome = true := by
  have hall : ch ∈ (List.range 256).map UInt8.ofNat :=
    List.mem_map.2 ⟨ch.toNat, List.mem_range.2 ch.toNat_lt, UInt8.ofNat_toNat⟩
  unfold keys
  rw [List.mem_filter]
  exact and_iff_right hall

theorem keys_nodup (t : WildcardTreeNode) : t.keys.Nodup := by
  apply List.Nodup.filter
  refine List.Nodup.map_on ?_ List.nodup_range
  intro i hi j hj h
  rw [← UInt8.toNat_inj, UInt8.toNat_ofNat_of_lt' (List.mem_range.1 hi),
    UInt8.toNat_ofNat_of_lt' (List.mem_range.1 hj)] at h
  exact h

/-- One child is exchanged. -/
theorem has_setChild_cons (o : Option WildcardTreeNode) (c : UInt8) :
    (t.setChild ch o).has (c :: s) =
      if c = ch then (match o with | some child => child.has s | none => false) else t.has (c :: s) := by
  by_cases hc : c = ch
  · subst hc
    rw [if_pos rfl]
    cases o with
    | none => exact has_cons_of_none (Function.update_self ..)
    | some child => exact has_cons_of_some (Function.update_self ..)
  · rw [if_neg hc]
    unfold has
    rw [follow, follow, getChild_setChild, Function.update_of_ne hc]

/-- The child that `addChild` gives has the names below the old one, and the
empty one if it is marked. -/
theorem has_addChild (b : Bool) :
    (t.addChild ch b).has s = true ↔ (b = true ∧ s = []) ∨ t.has (ch :: s) = true := by
  unfold addChild
  cases hc : t.getChild ch with
  | none =>
    rw [has_cons_of_none hc]
    cases s with
    | nil => simp [new, breakpoint]
    | cons c s =>
      rw [has_cons_of_none (getChild_new b)]
      simp
  | some child =>
    rw [has_cons_of_some hc]
    dsimp only
    split_ifs with hb
    · cases s with
      | nil => simp_all
      | cons c s => simp [has, follow]
    · cases s with
      | nil => cases b <;> simp_all
      | cons c s => simp

/-- **Inserting adds the name.** -/
theorem has_insert (hne : str ≠ []) (s : List UInt8) :
    (t.insert str).has s = true ↔ s = str ∨ t.has s = true := by
  induction str generalizing t s with
  | nil => exact absurd rfl hne
  | cons ch str ih =>
    -- the child that the rest goes into
    have hchild : ∀ child, (∀ s', child.has s' = true ↔ s' = str ∨ t.has (ch :: s') = true) →
        ((t.setChild ch (some child)).has s = true ↔ s = ch :: str ∨ t.has s = true) := by
      intro child h
      cases s with
      | nil => simp
      | cons c s =>
        rw [has_setChild_cons]
        split_ifs with hc
        · rw [hc, h s, List.cons.injEq, and_iff_right rfl]
        · rw [List.cons.injEq, or_iff_right fun h => hc h.1]
    cases str with
    | nil =>
      rw [insert]
      exact hchild _ fun s' => (has_addChild true).trans (by rw [and_iff_right rfl])
    | cons ch' str =>
      rw [insert]
      · refine hchild _ fun s' => ?_
        rw [ih (List.cons_ne_nil _ _), has_addChild]
        exact or_congr_right (or_iff_right fun h => nomatch h.1)
      · exact List.cons_ne_nil ch' str

theorem has_of_used_up (hk : t.keys = []) (hb : t.breakpoint = false) : t.has s = false := by
  cases s with
  | nil => exact hb
  | cons ch s =>
    have hch : t.getChild ch = none := by
      rw [← Option.not_isSome_iff_eq_none, ← mem_keys, hk]
      exact List.not_mem_nil
    exact has_cons_of_none hch

/-- What is put in the place of a child on the way back. -/
def pruned (child : WildcardTreeNode) : Option WildcardTreeNode :=
  if child.keys = [] ∧ child.breakpoint = false then none else some child

theorem has_setChild_pruned (c : UInt8) :
    (t.setChild ch child.pruned).has (c :: s) = if c = ch then child.has s else t.has (c :: s) := by
  rw [has_setChild_cons]
  refine if_congr Iff.rfl ?_ rfl
  unfold pruned
  by_cases hu : child.keys = [] ∧ child.breakpoint = false
  · rw [if_pos hu, has_of_used_up hu.1 hu.2]
  · rw [if_neg hu]

theorem removeFrom_cons (hc : t.getChild ch = some child) :
    t.removeFrom (ch :: str) = (child.removeFrom str).map fun child => t.setChild ch child.pruned := by
  rw [removeFrom, hc]
  dsimp only
  cases child.removeFrom str with
  | none => rfl
  | some child =>
    unfold pruned
    rw [Option.map_some]
    dsimp only
    by_cases hk : child.keys = [] <;> cases hb : child.breakpoint <;> simp [hk]

/-- The way back changes one name, and there is none where the way down ends. -/
theorem removeFrom_spec (t : WildcardTreeNode) (str : List UInt8) :
    match t.removeFrom str with
    | none => t.has str = false
    | some t' => ∀ s, t'.has s = true ↔ s ≠ str ∧ t.has s = true := by
  induction str generalizing t with
  | nil =>
    rw [removeFrom]
    intro s
    cases s with
    | nil => simp
    | cons c s => simp [has, follow]
  | cons ch str ih =>
    cases hc : t.getChild ch with
    | none =>
      rw [removeFrom, hc]
      exact has_cons_of_none hc
    | some child =>
      have hchild := ih child
      rw [removeFrom_cons hc]
      cases hr : child.removeFrom str with
      | none =>
        rw [hr] at hchild
        exact (has_cons_of_some hc).trans hchild
      | some child' =>
        rw [hr] at hchild
        rw [Option.map_some]
        intro s
        cases s with
        | nil => simp
        | cons c s =>
          rw [has_setChild_pruned]
          split_ifs with hcc
          · rw [hchild s, hcc, has_cons_of_some hc, ne_eq, ne_eq, List.cons.injEq, and_iff_right rfl]
          · exact (and_iff_right fun h => hcc (List.cons.inj h).1).symm

/-- **Removing takes away the name.** -/
theorem has_remove (t : WildcardTreeNode) (str s : List UInt8) :
    (t.remove str).has s = true ↔ s ≠ str ∧ t.has s = true := by
  have h := removeFrom_spec t str
  unfold remove
  cases hr : t.removeFrom str with
  | some t' =>
    rw [hr] at h
    exact h s
  | none =>
    rw [hr] at h
    refine ⟨fun hs => ⟨?_, hs⟩, And.right⟩
    rintro rfl
    exact Bool.false_ne_true (h.symm.trans hs)

/-! ### No dead branches -/

/-- There is a name at or below the node. -/
def Alive (t : WildcardTreeNode) : Prop := ∃ s, t.has s = true

/-- Every node below has a name at or below it. -/
def NoDead (t : WildcardTreeNode) : Prop :=
  ∀ path cur, path ≠ [] → t.follow path = some cur → cur.Alive

theorem noDead_iff : t.NoDead ↔ ∀ ch child, t.getChild ch = some child → child.Alive ∧ child.NoDead := by
  constructor
  · intro h ch child hc
    refine ⟨h [ch] child (List.cons_ne_nil ch []) ?_, fun path cur _ hf => ?_⟩
    · rw [follow, hc]
      rfl
    · refine h (ch :: path) cur (List.cons_ne_nil ch path) ?_
      rw [follow, hc]
      exact hf
  · intro h path cur hne hf
    cases path with
    | nil => exact absurd rfl hne
    | cons ch path =>
      rw [follow] at hf
      cases hc : t.getChild ch with
      | none =>
        rw [hc] at hf
        nomatch hf
      | some child =>
        rw [hc] at hf
        obtain ⟨ha, hd⟩ := h ch child hc
        cases path with
        | nil => exact Option.some.inj hf ▸ ha
        | cons c path => exact hd (c :: path) cur (List.cons_ne_nil c path) hf

theorem Alive.of_child (hc : t.getChild ch = some child) (h : child.Alive) : t.Alive := by
  obtain ⟨s, hs⟩ := h
  exact ⟨ch :: s, (has_cons_of_some hc).trans hs⟩

/-- A child is exchanged for one with a name and without dead branches. -/
theorem NoDead.setChild (h : t.NoDead) {o : Option WildcardTreeNode}
    (ho : ∀ child ∈ o, child.Alive ∧ child.NoDead) : (t.setChild ch o).NoDead := by
  rw [noDead_iff] at h ⊢
  intro c child hc
  rw [getChild_setChild] at hc
  by_cases hcc : c = ch
  · subst hcc
    rw [Function.update_self] at hc
    exact ho child hc
  · rw [Function.update_of_ne hcc] at hc
    exact h c child hc

theorem noDead_new (b : Bool) : (new b).NoDead := noDead_iff.2 nofun

theorem NoDead.setBreakpoint (h : t.NoDead) (b : Bool) : (t.setBreakpoint b).NoDead :=
  noDead_iff.2 fun ch child hc => noDead_iff.1 h ch child hc

theorem NoDead.addChild (h : t.NoDead) (ch : UInt8) (b : Bool) : (t.addChild ch b).NoDead := by
  unfold WildcardTreeNode.addChild
  cases hc : t.getChild ch with
  | none => exact noDead_new b
  | some child =>
    have hd := (noDead_iff.1 h ch child hc).2
    dsimp only
    split
    · exact hd.setBreakpoint true
    · exact hd

theorem NoDead.insert (h : t.NoDead) (str : List UInt8) : (t.insert str).NoDead := by
  induction str generalizing t with
  | nil => exact h
  | cons ch str ih =>
    cases str with
    | nil =>
      refine h.setChild fun child hc => ?_
      obtain rfl := Option.some.inj hc
      exact ⟨⟨[], (has_addChild true).2 (.inl ⟨rfl, rfl⟩)⟩, h.addChild ch true⟩
    | cons ch' str =>
      refine h.setChild fun child hc => ?_
      obtain rfl := Option.some.inj hc
      exact ⟨⟨ch' :: str, (has_insert (List.cons_ne_nil ch' str) _).2 (.inl rfl)⟩, ih (h.addChild ch false)⟩

/-- What is not used up has a name. -/
theorem NoDead.pruned (h : child.NoDead) : ∀ c ∈ child.pruned, c.Alive ∧ c.NoDead := by
  intro c hc
  unfold WildcardTreeNode.pruned at hc
  split at hc
  · nomatch hc
  · next hu =>
    obtain rfl := Option.some.inj hc
    refine ⟨?_, h⟩
    by_cases hb : child.breakpoint = true
    · exact ⟨[], hb⟩
    · obtain ⟨ch, hch⟩ := List.exists_mem_of_ne_nil _ fun hk => hu ⟨hk, Bool.eq_false_of_not_eq_true hb⟩
      obtain ⟨below, hbelow⟩ := Option.isSome_iff_exists.1 (mem_keys.1 hch)
      exact .of_child hbelow (noDead_iff.1 h ch below hbelow).1

theorem NoDead.removeFrom (h : t.NoDead) (str : List UInt8) : ∀ t' ∈ t.removeFrom str, t'.NoDead := by
  induction str generalizing t with
  | nil => exact fun t' ht => Option.some.inj ht ▸ h.setBreakpoint false
  | cons ch str ih =>
    intro t' ht
    cases hc : t.getChild ch with
    | none =>
      rw [WildcardTreeNode.removeFrom, hc] at ht
      nomatch ht
    | some child =>
      rw [removeFrom_cons hc] at ht
      obtain ⟨child', hr, rfl⟩ := Option.map_eq_some_iff.1 ht
      exact h.setChild (ih (noDead_iff.1 h ch child hc).2 child' hr).pruned

theorem NoDead.remove (h : t.NoDead) (str : List UInt8) : (t.remove str).NoDead := by
  unfold WildcardTreeNode.remove
  cases hr : t.removeFrom str with
  | none => exact h
  | some t' => exact h.removeFrom str t' hr

/-! ### Finding -/

/-- A result for the names below a node: the only one, or there are two. -/
def Decides (t : WildcardTreeNode) (before : List UInt8) (r : ReturnValue × List UInt8) : Prop :=
  (∃ s, r = (.noError, before ++ s) ∧ t.has s = true ∧ ∀ s', t.has s' = true → s' = s) ∨
    (r.1 = .nameIsTooAmbigious ∧ ∃ s s', s ≠ s' ∧ t.has s = true ∧ t.has s' = true)

/-- Without children, the only name ends here. -/
theorem decides_of_keys_nil (hk : t.keys = []) (ha : t.Alive) (before : List UInt8) :
    t.Decides before (.noError, before) := by
  have hnil : ∀ s, t.has s = true → s = [] := by
    intro s hs
    cases s with
    | nil => rfl
    | cons ch s =>
      cases hc : t.getChild ch with
      | none => exact absurd ((has_cons_of_none hc).symm.trans hs) Bool.false_ne_true
      | some child =>
        have hmem : ch ∈ t.keys := mem_keys.2 (hc ▸ rfl)
        rw [hk] at hmem
        nomatch hmem
  obtain ⟨s, hs⟩ := ha
  refine .inl ⟨[], ?_, hnil s hs ▸ hs, hnil⟩
  rw [List.append_nil]

/-- With one child and no name that ends here, the child decides. -/
theorem decides_of_child (hk : t.keys = [ch]) (hb : t.breakpoint = false) (hc : t.getChild ch = some child)
    {before : List UInt8} {r : ReturnValue × List UInt8} (h : child.Decides (before ++ [ch]) r) :
    t.Decides before r := by
  obtain ⟨s, rfl, hs, huniq⟩ | ⟨hr, s, s', hne, hs, hs'⟩ := h
  · refine .inl ⟨ch :: s, by rw [List.append_assoc]; rfl, (has_cons_of_some hc).trans hs, ?_⟩
    intro s' hs'
    cases s' with
    | nil => exact absurd (hb.symm.trans hs') Bool.false_ne_true
    | cons c s' =>
      have hcc : c = ch := by
        cases hc' : t.getChild c with
        | none => exact absurd ((has_cons_of_none hc').symm.trans hs') Bool.false_ne_true
        | some child' =>
          have hmem : c ∈ t.keys := mem_keys.2 (hc' ▸ rfl)
          rw [hk] at hmem
          exact List.mem_singleton.1 hmem
      subst hcc
      rw [huniq s' ((has_cons_of_some hc).symm.trans hs')]
  · exact .inr ⟨hr, ch :: s, ch :: s', fun h => hne (List.cons.inj h).2,
      (has_cons_of_some hc).trans hs, (has_cons_of_some hc).trans hs'⟩

/-- A name through a child. -/
theorem NoDead.has_of_mem_keys (h : t.NoDead) (hk : ch ∈ t.keys) : ∃ s, t.has (ch :: s) = true := by
  obtain ⟨child, hc⟩ := Option.isSome_iff_exists.1 (mem_keys.1 hk)
  obtain ⟨s, hs⟩ := (noDead_iff.1 h ch child hc).1
  exact ⟨s, (has_cons_of_some hc).trans hs⟩

mutual

/-- **The number of children decides**, because no branch is dead. -/
theorem complete_spec : ∀ (t : WildcardTreeNode) (before : List UInt8), t.NoDead → t.Alive →
    t.Decides before (t.complete before)
  | node b children, before, hd, ha => by
    rw [complete]
    cases hk : (node b children).keys with
    | nil => exact decides_of_keys_nil hk ha before
    | cons ch rest =>
      have hch : ch ∈ (node b children).keys := hk ▸ List.mem_cons_self
      obtain ⟨s, hs⟩ := hd.has_of_mem_keys hch
      cases rest with
      | nil =>
        dsimp only
        split_ifs with hb
        · exact .inr ⟨rfl, [], ch :: s, nofun, hb, hs⟩
        · obtain ⟨child, hc⟩ := Option.isSome_iff_exists.1 (mem_keys.1 hch)
          obtain ⟨halive, hdead⟩ := noDead_iff.1 hd ch child hc
          exact decides_of_child hk (Bool.eq_false_of_not_eq_true hb) hc
            (completeChild_spec (children ch) _ child hc hdead halive)
      | cons ch' rest =>
        have hch' : ch' ∈ (node b children).keys := hk ▸ List.mem_cons_of_mem ch List.mem_cons_self
        obtain ⟨s', hs'⟩ := hd.has_of_mem_keys hch'
        have hne : ch ≠ ch' := by
          have hnd := hk ▸ keys_nodup (node b children)
          exact List.ne_of_not_mem_cons (List.nodup_cons.1 hnd).1
        exact .inr ⟨rfl, ch :: s, ch' :: s', fun h => hne (List.cons.inj h).1, hs, hs'⟩

theorem completeChild_spec : ∀ (o : Option WildcardTreeNode) (before : List UInt8) (child : WildcardTreeNode),
    o = some child → child.NoDead → child.Alive → child.Decides before (completeChild o before)
  | some child, before, child', hc, hd, ha => by
    obtain rfl := Option.some.inj hc
    rw [completeChild]
    exact complete_spec child before hd ha

end

theorem follow_append {path : List UInt8} {cur : WildcardTreeNode} (h : t.follow path = some cur)
    (s : List UInt8) : t.follow (path ++ s) = cur.follow s := by
  induction path generalizing t with
  | nil => rw [Option.some.inj h, List.nil_append]
  | cons ch path ih =>
    rw [List.cons_append]
    rw [follow] at h ⊢
    cases hc : t.getChild ch with
    | none =>
      rw [hc] at h
      nomatch h
    | some child =>
      rw [hc] at h
      exact ih h

theorem has_append {path : List UInt8} {cur : WildcardTreeNode} (h : t.follow path = some cur)
    (s : List UInt8) : t.has (path ++ s) = cur.has s := by
  unfold has
  rw [follow_append h]

theorem NoDead.follow (hd : t.NoDead) {path : List UInt8} {cur : WildcardTreeNode}
    (h : t.follow path = some cur) : cur.NoDead := by
  intro path' cur' hne hf
  refine hd (path ++ path') cur' (fun he => hne (List.append_eq_nil_iff.1 he).2) ?_
  rw [follow_append h, hf]

theorem has_append_of_none {path : List UInt8} (h : t.follow path = none) (s : List UInt8) :
    t.has (path ++ s) = false := by
  induction path generalizing t with
  | nil => nomatch h
  | cons ch path ih =>
    rw [follow] at h
    cases hc : t.getChild ch with
    | none => exact has_cons_of_none hc
    | some child =>
      rw [hc] at h
      exact (has_cons_of_some hc).trans (ih h)

end WildcardTreeNode

open WildcardTreeNode

/-! ### Runs -/

inductive Op
  | insert (str : List UInt8)
  | remove (str : List UInt8)

def Op.name : Op → List UInt8
  | insert str => str
  | remove str => str

def step (t : WildcardTreeNode) : Op → WildcardTreeNode
  | .insert str => t.insert str
  | .remove str => t.remove str

/-- What a call does to the set of names. -/
def record (S : Finset (List UInt8)) : Op → Finset (List UInt8)
  | .insert str => Insert.insert str S
  | .remove str => S.erase str

/-- The tree holds the names of the set, and no dead branches. -/
structure Holds (t : WildcardTreeNode) (S : Finset (List UInt8)) : Prop where
  names : ∀ s, t.has s = true ↔ s ∈ S
  noDead : t.NoDead

theorem holds_new : Holds (.new false) ∅ where
  names s := by
    cases s with
    | nil => simp [new, breakpoint]
    | cons ch s =>
      rw [has_cons_of_none (getChild_new false)]
      simp
  noDead := noDead_new false

/-- A call keeps the names and leaves no dead branches. -/
theorem Holds.step {t : WildcardTreeNode} {S : Finset (List UInt8)} (h : Holds t S) {op : Op}
    (hop : op.name ≠ []) : Holds (step t op) (record S op) := by
  cases op with
  | insert str =>
    refine ⟨fun s => ?_, h.noDead.insert str⟩
    exact (has_insert hop s).trans ((or_congr_right (h.names s)).trans Finset.mem_insert.symm)
  | remove str =>
    refine ⟨fun s => ?_, h.noDead.remove str⟩
    exact (has_remove t str s).trans ((and_congr_right' (h.names s)).trans Finset.mem_erase.symm)

theorem Holds.run (ops : List Op) : ∀ {t : WildcardTreeNode} {S : Finset (List UInt8)}, Holds t S →
    (∀ op ∈ ops, op.name ≠ []) → Holds (ops.foldl WildcardTree.step t) (ops.foldl record S) := by
  induction ops with
  | nil => exact fun h _ => h
  | cons op ops ih =>
    intro t S h hops
    obtain ⟨hop, hops⟩ := List.forall_mem_cons.1 hops
    exact ih (h.step hop) hops

/-! ### What a query stands for -/

def NoMatch (S : Finset (List UInt8)) (query : List UInt8) : Prop := ∀ s ∈ S, ¬ query <+: s

def OneMatch (S : Finset (List UInt8)) (query r : List UInt8) : Prop := ∀ s, (s ∈ S ∧ query <+: s) ↔ s = r

def TwoMatches (S : Finset (List UInt8)) (query : List UInt8) : Prop :=
  ∃ s ∈ S, ∃ s' ∈ S, s ≠ s' ∧ query <+: s ∧ query <+: s'

section

variable {S : Finset (List UInt8)} {query r r' : List UInt8}

theorem NoMatch.not_one (h : NoMatch S query) : ¬ OneMatch S query r := fun h1 =>
  h r ((h1 r).2 rfl).1 ((h1 r).2 rfl).2

theorem NoMatch.not_two (h : NoMatch S query) : ¬ TwoMatches S query := fun ⟨s, hs, _, _, _, hq, _⟩ =>
  h s hs hq

theorem OneMatch.not_two (h : OneMatch S query r) : ¬ TwoMatches S query :=
  fun ⟨s, hs, s', hs', hne, hq, hq'⟩ => hne (((h s).1 ⟨hs, hq⟩).trans ((h s').1 ⟨hs', hq'⟩).symm)

theorem OneMatch.unique (h : OneMatch S query r) (h' : OneMatch S query r') : r = r' :=
  (h' r).1 ((h r).2 rfl)

/-- What `findOne` returns is true of the names. -/
theorem findOne_spec {t : WildcardTreeNode} (h : Holds t S) (hq : S ≠ ∅ ∨ query ≠ []) (result : List UInt8) :
    (t.findOne query result = (.playerWithThisNameIsNotOnline, result) ∧ NoMatch S query) ∨
      (∃ r, t.findOne query result = (.noError, r) ∧ OneMatch S query r) ∨
      ((t.findOne query result).1 = .nameIsTooAmbigious ∧ TwoMatches S query) := by
  unfold findOne
  cases hf : t.follow query with
  | none =>
    refine .inl ⟨rfl, fun s hs hpre => ?_⟩
    obtain ⟨s, rfl⟩ := hpre
    exact absurd ((has_append_of_none hf s).symm.trans ((h.names _).2 hs)) Bool.false_ne_true
  | some cur =>
    have hcur : ∀ s, cur.has s = true ↔ query ++ s ∈ S := by
      intro s
      rw [← has_append hf s]
      exact h.names (query ++ s)
    have halive : cur.Alive := by
      by_cases hnil : query = []
      · obtain ⟨s, hs⟩ := Finset.nonempty_iff_ne_empty.2 (hq.resolve_right (not_not.2 hnil))
        refine ⟨s, (hcur s).2 ?_⟩
        rwa [hnil, List.nil_append]
      · exact h.noDead query cur hnil hf
    obtain ⟨s, hr, hs, huniq⟩ | ⟨hr, s, s', hne, hs, hs'⟩ :=
      complete_spec cur query (h.noDead.follow hf) halive
    · refine .inr (.inl ⟨query ++ s, hr, fun s' => ⟨?_, ?_⟩⟩)
      · rintro ⟨hs', s', rfl⟩
        rw [huniq s' ((hcur s').2 hs')]
      · rintro rfl
        exact ⟨(hcur s).1 hs, s, rfl⟩
    · exact .inr (.inr ⟨hr, query ++ s, (hcur s).1 hs, query ++ s', (hcur s').1 hs',
        fun he => hne (List.append_cancel_left he), ⟨s, rfl⟩, ⟨s', rfl⟩⟩)

end

/-- **The tree stands for the set of the names.** After any calls `findOne` tells
whether no name, one or more begin with the query, and every node but the root
has a name at or below it. -/
theorem findOne_run (ops : List Op) (hops : ∀ op ∈ ops, op.name ≠ []) :
    (∀ query result, ops.foldl record ∅ ≠ ∅ ∨ query ≠ [] →
      (((ops.foldl step (.new false)).findOne query result).1 = .playerWithThisNameIsNotOnline ↔
          NoMatch (ops.foldl record ∅) query) ∧
        (∀ r, (ops.foldl step (.new false)).findOne query result = (.noError, r) ↔
          OneMatch (ops.foldl record ∅) query r) ∧
        (((ops.foldl step (.new false)).findOne query result).1 = .nameIsTooAmbigious ↔
          TwoMatches (ops.foldl record ∅) query)) ∧
    (ops.foldl step (.new false)).NoDead := by
  have hrun := holds_new.run ops hops
  refine ⟨fun query result hq => ?_, hrun.noDead⟩
  obtain ⟨hv, h⟩ | ⟨r, hv, h⟩ | ⟨hv, h⟩ := findOne_spec hrun hq result
  · rw [hv]
    refine ⟨iff_of_true rfl h, fun r => iff_of_false ?_ h.not_one, iff_of_false ?_ h.not_two⟩
    · exact nofun
    · exact nofun
  · rw [hv]
    refine ⟨iff_of_false nofun fun h0 => h0.not_one h, fun r' => ?_, iff_of_false nofun h.not_two⟩
    constructor
    · intro he
      exact (Prod.mk.inj he).2 ▸ h
    · intro h'
      rw [h.unique h']
  · rw [hv]
    refine ⟨iff_of_false nofun fun h0 => h0.not_two h, fun r => iff_of_false ?_ fun h1 => h1.not_two h,
      iff_of_true rfl h⟩
    intro he
    rw [he] at hv
    nomatch hv

/-- A name and a longer one, and the shorter one taken away again. -/
theorem findOne_longer :
    (([.insert [0x61, 0x62], .insert [0x61, 0x62, 0x63], .remove [0x61, 0x62]].foldl step (.new false)).findOne
      [0x61] []) = (.noError, [0x61, 0x62, 0x63]) := by
  have hrun := findOne_run [.insert [0x61, 0x62], .insert [0x61, 0x62, 0x63], .remove [0x61, 0x62]]
    (by decide)
  refine ((hrun.1 [0x61] [] (.inr (List.cons_ne_nil _ _))).2.1 _).2 fun s => ?_
  have hnames : [Op.insert [0x61, 0x62], .insert [0x61, 0x62, 0x63], .remove [0x61, 0x62]].foldl record ∅ =
      {[0x61, 0x62, 0x63]} := by decide
  rw [hnames, Finset.mem_singleton]
  refine ⟨And.left, fun h => ⟨h, ?_⟩⟩
  rw [h]
  exact ⟨[0x62, 0x63], rfl⟩

end WildcardTree
end ForgottenServer
