/-
# The checks of the creatures

`Game::checkCreatures` goes through one of ten lists in each call, list after list.
A creature is in one list at most. It is checked once in ten calls: two of its turns
are ten calls apart at least (`turns_apart`), and as long as it is to be checked it
has its turn in every tenth call (`turn_comes`). Who has been removed is in no list
ten calls later, and is deleted unless others still refer to it (`removed_is_freed`).

Key definitions: `Appends`, `Recent`, `Attended`, `Fading`.
Key theorems: `appends_act`, `turns_apart`, `turn_comes`, `removed_is_freed`.
-/
import ForgottenServer.CreatureMemory

namespace ForgottenServer
namespace Creatures

variable {s s' s'' : State} {c m o x : ℕ} {work : List ℕ}

/-! ### What happens to the lists -/

/-- The lists of the checks get longer at most, and not by who has been removed. -/
structure Appends (s s' : State) : Prop where
  next : s.next ≤ s'.next
  isInternalRemoved : ∀ c < s.next, s.isInternalRemoved c = true → s'.isInternalRemoved c = true
  turn : s'.turn = s.turn
  cursor : s'.cursor = s.cursor
  visited : s'.visited = s.visited
  checks : ∀ i, s.checkCreatureLists i <+: s'.checkCreatureLists i
  unremoved : ∀ c < s.next, s.isInternalRemoved c = true → ∀ i, c ∈ s'.checkCreatureLists i →
    c ∈ s.checkCreatureLists i

theorem Keeps.appends (h : Keeps s s') : Appends s s' where
  next := h.next.ge
  isInternalRemoved c _ hc := by rwa [h.isInternalRemoved]
  turn := h.turn
  cursor := h.cursor
  visited := h.visited
  checks := h.checks
  unremoved c _ hc := h.unremoved c hc

theorem Appends.trans (h : Appends s s') (h' : Appends s' s'') : Appends s s'' where
  next := h.next.trans h'.next
  isInternalRemoved c hc hr := h'.isInternalRemoved c (hc.trans_le h.next) (h.isInternalRemoved c hc hr)
  turn := h'.turn.trans h.turn
  cursor := h'.cursor.trans h.cursor
  visited := h'.visited.trans h.visited
  checks i := (h.checks i).trans (h'.checks i)
  unremoved c hc hr i hmem := h.unremoved c hc hr i
    (h'.unremoved c (hc.trans_le h.next) (h.isInternalRemoved c hc hr) i hmem)

theorem create_appends (s : State) (kind : Kind) (health : ℤ) : Appends s (create s kind health) where
  next := Nat.le_succ _
  isInternalRemoved c hc hr := by simpa [create, hc.ne] using hr
  turn := rfl
  cursor := rfl
  visited := rfl
  checks _ := List.prefix_rfl
  unremoved _ _ _ _ hmem := hmem

theorem internalPlaceCreature_appends (s : State) (c : ℕ) : Appends s (internalPlaceCreature s c) := by
  unfold internalPlaceCreature
  split
  · exact (Keeps.refl s).appends
  · exact ⟨le_rfl, fun _ _ hr => hr, rfl, rfl, rfl, fun _ => List.prefix_rfl, fun _ _ _ _ hmem => hmem⟩

theorem placeCreature_appends (hc : s.hasParent c = false → s.isInternalRemoved c = false) (i : Fin 10) :
    Appends s (placeCreature s c i) := by
  unfold placeCreature
  split_ifs with hparent
  · exact (Keeps.refl s).appends
  · refine (internalPlaceCreature_appends s c).trans (addCreatureCheck_keeps _ ?_ i).appends
    have hr := hc (by simpa using hparent)
    unfold internalPlaceCreature
    split <;> exact hr

theorem addSummon_keeps (s : State) (m c : ℕ) : Keeps s (addSummon s m c) :=
  .of_same subset_rfl rfl rfl rfl rfl rfl rfl rfl rfl rfl

theorem changeHealth_keeps (s : State) (c : ℕ) (n : ℤ) (i : Fin 10) : Keeps s (changeHealth s c n i) := by
  simp only [changeHealth]
  split
  · exact (setIdle_keeps s c false i).trans (.of_same subset_rfl rfl rfl rfl rfl rfl rfl rfl rfl rfl)
  · exact .of_same subset_rfl rfl rfl rfl rfl rfl rfl rfl rfl rfl

theorem destroySummons_keeps (s : State) (c : ℕ) (draw : ℕ → Fin 10) : Keeps s (destroySummons s c draw) := by
  have hfold : ∀ (l : List ℕ) (s : State),
      Keeps s (l.foldl (fun s x => changeHealth s x (-s.health x) (draw x)) s) := by
    intro l
    induction l with
    | nil => exact .refl
    | cons x l ih => exact fun s => (changeHealth_keeps s x _ _).trans (ih _)
  simp only [destroySummons]
  refine (hfold (s.summons c) s).trans ?_
  apply Keeps.release
  exact .of_same subset_rfl rfl rfl rfl rfl rfl rfl rfl rfl rfl

theorem removeOne_appends (s : State) (c : ℕ) : Appends s (removeOne s c) := by
  have hmarked : Appends (onRemoveCreature s c) { onRemoveCreature s c with
      listed := (onRemoveCreature s c).listed.erase c
      isInternalRemoved := Function.update (onRemoveCreature s c).isInternalRemoved c true } := by
    refine ⟨le_rfl, fun x _ hr => ?_, rfl, rfl, rfl, fun _ => List.prefix_rfl, fun _ _ _ _ hmem => hmem⟩
    simp only [Function.update_apply]
    split_ifs
    · rfl
    · exact hr
  exact (((onRemoveCreature_keeps s c).appends.trans hmarked).trans (ReleaseCreature_keeps _ c).appends).trans
    (removeCreatureCheck_keeps _ c).appends

theorem removeCreature_appends (s : State) (l : List ℕ) : Appends s (removeCreature s l) := by
  fun_induction removeCreature s l with
  | case1 s => exact (Keeps.refl s).appends
  | case2 s c rest hc _ ih => exact (removeOne_appends s c).trans ih
  | case3 s c rest hc ih => exact ih

theorem summon_appends (s : State) (m : ℕ) (health : ℤ) (room : Bool) (i : Fin 10) :
    Appends s (summon s m health room i) := by
  have hadd : Appends s (addSummon (create s .monster health) m s.next) :=
    (create_appends s .monster health).trans (addSummon_keeps _ m _).appends
  simp only [summon]
  split
  · refine hadd.trans (placeCreature_appends (fun _ => ?_) i)
    simp [addSummon, increment, create]
  · exact hadd.trans (removeSummon_keeps _ m _).appends

theorem convinceCreature_keeps (s : State) (m c : ℕ) (draw : ℕ → Fin 10) :
    Keeps s (convinceCreature s m c draw) := by
  unfold convinceCreature
  split
  · exact (addSummon_keeps s m c).trans (destroySummons_keeps _ c draw)
  · split
    · exact .refl s
    · exact ((removeSummon_keeps s _ c).trans (addSummon_keeps _ m c)).trans (destroySummons_keeps _ c draw)

/-- The calls that work on the lists of the checks. -/
def Act.checks : Act → Bool
  | .checkCreatures | .checkNext | .checkEnd => true
  | _ => false

/-- All other calls put creatures to the ends of the lists, if anything. -/
theorem appends_act (h : Sound s []) {a : Act} (ha : possible s a) (hcheck : a.checks = false) :
    Appends s (act s a) := by
  have hsame : ∀ {t : State}, Keeps s t → Appends s t := Keeps.appends
  cases a with
  | create kind health => exact create_appends s kind health
  | discard c =>
    apply hsame
    apply Keeps.release
    exact .of_same (Finset.erase_subset c s.memory) rfl rfl rfl rfl rfl rfl rfl rfl rfl
  | internalPlaceCreature c => exact internalPlaceCreature_appends s c
  | placeCreature c i =>
    refine placeCreature_appends (fun hparent => ?_) i
    by_contra hr
    have hplaced := (h.removed c ha (by simpa using hr)).1
    simp [hparent] at hplaced
  | removeCreature c => exact removeCreature_appends s [c]
  | setIdle c idle i => exact hsame (setIdle_keeps s c idle i)
  | changeHealth c n i => exact hsame (changeHealth_keeps s c n i)
  | addTarget o c pushFront =>
    apply hsame
    simp only [act, addTarget]
    split
    · exact .refl s
    · exact .of_same subset_rfl rfl rfl rfl rfl rfl rfl rfl rfl rfl
  | removeTarget o c => exact hsame (dropTargets_keeps s o _)
  | addFriend o c =>
    apply hsame
    simp only [act, addFriend]
    split
    · exact .refl s
    · exact .of_same subset_rfl rfl rfl rfl rfl rfl rfl rfl rfl rfl
  | removeFriend o c => exact hsame (dropFriends_keeps s o _)
  | updateTargetList o unseen => exact hsame ((dropFriends_keeps s o _).trans (dropTargets_keeps _ o _))
  | onFollowCreatureComplete o c hasFollowPath =>
    apply hsame
    simp only [act, onFollowCreatureComplete]
    split_ifs
    · exact .of_same subset_rfl rfl rfl rfl rfl rfl rfl rfl rfl rfl
    · exact .of_same subset_rfl rfl rfl rfl rfl rfl rfl rfl rfl rfl
    · apply Keeps.release
      exact .of_same subset_rfl rfl rfl rfl rfl rfl rfl rfl rfl rfl
    · exact .refl s
  | summon m health room i => exact summon_appends s m health room i
  | convinceCreature m c draw => exact hsame (convinceCreature_keeps s m c draw)
  | luaCreatureSetMaster c =>
    apply hsame
    simp only [act, luaCreatureSetMaster]
    split
    · exact .refl s
    · next m _ => exact (removeSummon_keeps s m c).trans (.of_same subset_rfl rfl rfl rfl rfl rfl rfl rfl rfl rfl)
  | death c draw =>
    exact hsame (((destroySummons_keeps s c draw).trans (dropTargets_keeps _ c _)).trans (dropFriends_keeps _ c _))
  | leaveMaster c =>
    apply hsame
    simp only [act, leaveMaster]
    split
    · exact .refl s
    · exact removeSummon_keeps s _ c
  | hold c => exact hsame (.of_same subset_rfl rfl rfl rfl rfl rfl rfl rfl rfl rfl)
  | letGo c =>
    apply hsame
    apply Keeps.release
    exact .of_same subset_rfl rfl rfl rfl rfl rfl rfl rfl rfl rfl
  | letGoLater c => exact hsame (.of_same subset_rfl rfl rfl rfl rfl rfl rfl rfl rfl rfl)
  | cleanup =>
    apply hsame
    apply Keeps.release
    exact .of_same subset_rfl rfl rfl rfl rfl rfl rfl rfl rfl rfl
  | checkCreatures => simp [Act.checks] at hcheck
  | checkNext => simp [Act.checks] at hcheck
  | checkEnd => simp [Act.checks] at hcheck

/-! ### One turn in ten calls -/

/-- The list of a call. -/
theorem index_eq_iff {t t' : ℕ} : Fin.ofNat 10 t = Fin.ofNat 10 t' ↔ t % 10 = t' % 10 := by
  simp [Fin.ext_iff, Fin.ofNat]

theorem Sound.count_checks (h : Sound s work) (i : Fin 10) (c : ℕ) : (s.checkCreatureLists i).count c ≤ 1 := by
  have hle := Finset.single_le_sum (f := fun i => (s.checkCreatureLists i).count c)
    (fun _ _ => Nat.zero_le _) (Finset.mem_univ i)
  have hone := h.checked c
  split_ifs at hone <;> omega

/-- A creature is in one of the lists at most. -/
theorem Sound.check_unique (h : Sound s work) {i j : Fin 10} (hi : c ∈ s.checkCreatureLists i)
    (hj : c ∈ s.checkCreatureLists j) : i = j := by
  by_contra hne
  have hle := Finset.sum_le_sum_of_subset (f := fun i => (s.checkCreatureLists i).count c)
    (Finset.subset_univ {i, j})
  rw [Finset.sum_pair hne] at hle
  have hone := h.checked c
  have hpi := List.count_pos_iff.2 hi
  have hpj := List.count_pos_iff.2 hj
  split_ifs at hone <;> omega

/-- What one turn of the loop does. -/
theorem checkNext_cases (s : State) : checkNext s = s ∨
    ∃ k, s.cursor = some k ∧ ∃ hk : k < (s.checkCreatureLists s.index).length,
      (s.creatureCheck (s.checkCreatureLists s.index)[k] = true ∧
        checkNext s = { s with
          visited := ((s.checkCreatureLists s.index)[k], s.turn) :: s.visited, cursor := some (k + 1) }) ∨
      (s.creatureCheck (s.checkCreatureLists s.index)[k] = false ∧
        checkNext s = ReleaseCreature { s with
          inCheckCreaturesVector := Function.update s.inCheckCreaturesVector (s.checkCreatureLists s.index)[k] false
          checkCreatureLists := Function.update s.checkCreatureLists s.index
            ((s.checkCreatureLists s.index).eraseIdx k) } (s.checkCreatureLists s.index)[k]) := by
  unfold checkNext
  cases hcursor : s.cursor with
  | none => exact .inl rfl
  | some k =>
    by_cases hk : k < (s.checkCreatureLists s.index).length
    · right
      refine ⟨k, rfl, hk, ?_⟩
      simp only [List.getElem?_eq_getElem hk]
      split_ifs with hcheck
      · exact .inl ⟨hcheck, rfl⟩
      · exact .inr ⟨by simpa using hcheck, rfl⟩
    · left
      simp only [List.getElem?_eq_none (Nat.le_of_not_lt hk)]

theorem take_eraseIdx {l : List ℕ} {k : ℕ} (hk : k < l.length) : (l.eraseIdx k).take k = l.take k := by
  rw [List.eraseIdx_eq_take_drop_succ, List.take_append_of_le_length (by simp; omega), List.take_take, min_self]

theorem cleanup_visited (s : State) : (cleanup s).visited = s.visited := (release_keeps _ _).visited

theorem cleanup_checks (s : State) : (cleanup s).checkCreatureLists = s.checkCreatureLists :=
  release_checkCreatureLists _ _

/-- Whose turn it was in the last ten calls still stands in the list of that call;
in the call under way it stands before the cursor. -/
structure Recent (s : State) : Prop where
  past : ∀ e ∈ s.visited, e.2 ≤ s.turn
  waiting : ∀ e ∈ s.visited, e.2 < s.turn → s.turn < e.2 + 10 → e.1 ∈ s.checkCreatureLists (Fin.ofNat 10 e.2)
  now : ∀ e ∈ s.visited, e.2 = s.turn → ∃ k, s.cursor = some k ∧ e.1 ∈ (s.checkCreatureLists s.index).take k
  apart : s.visited.Pairwise fun later earlier => later.1 = earlier.1 → earlier.2 + 10 ≤ later.2

theorem Recent.appends (h : Recent s) (ha : Appends s s') : Recent s' where
  past e he := by
    rw [ha.visited] at he
    rw [ha.turn]
    exact h.past e he
  waiting e he hlt hrecent := by
    rw [ha.visited] at he
    rw [ha.turn] at hlt hrecent
    exact (ha.checks _).subset (h.waiting e he hlt hrecent)
  now e he hnow := by
    rw [ha.visited] at he
    rw [ha.turn] at hnow
    obtain ⟨k, hk, hmem⟩ := h.now e he hnow
    refine ⟨k, by rwa [ha.cursor], ?_⟩
    rw [State.index, ha.turn]
    exact ((ha.checks _).take k).subset hmem
  apart := by
    rw [ha.visited]
    exact h.apart

/-- Whoever has its turn has not had it in this call, nor in the nine calls before. -/
theorem Recent.long_ago (hs : Sound s work) (h : Recent s) {k : ℕ} (hcursor : s.cursor = some k)
    (hk : k < (s.checkCreatureLists s.index).length) {e : ℕ × ℕ} (he : e ∈ s.visited)
    (hc : e.1 = (s.checkCreatureLists s.index)[k]) : e.2 + 10 ≤ s.turn := by
  by_contra hrecent
  have hmem : e.1 ∈ s.checkCreatureLists s.index := by
    rw [hc]
    exact List.getElem_mem hk
  rcases (h.past e he).lt_or_eq with hlt | hnow
  · have hindex := hs.check_unique (h.waiting e he hlt (by omega)) hmem
    have hmod := index_eq_iff.1 hindex
    omega
  · obtain ⟨k', hk', htake⟩ := h.now e he hnow
    rw [hcursor, Option.some_inj] at hk'
    subst hk'
    -- the creature would stand at the cursor and before it
    have hdrop : e.1 ∈ (s.checkCreatureLists s.index).drop k := by
      rw [List.drop_eq_getElem_cons hk, hc]
      exact List.mem_cons_self
    have hcount := hs.count_checks s.index e.1
    rw [← List.take_append_drop k (s.checkCreatureLists s.index), List.count_append] at hcount
    have hpt := List.count_pos_iff.2 htake
    have hpd := List.count_pos_iff.2 hdrop
    omega

theorem recent_step (hs : Sound s []) (h : Recent s) (a : Act) : Recent (step s a) := by
  unfold step
  split
  swap
  · exact h
  next ha =>
  by_cases hcheck : a.checks = false
  · exact h.appends (appends_act hs ha hcheck)
  cases a with
  | checkCreatures =>
    refine ⟨h.past, h.waiting, fun e he hnow => ?_, h.apart⟩
    obtain ⟨k, hk, -⟩ := h.now e he hnow
    have hnone : s.cursor = none := ha
    simp [hnone] at hk
  | checkNext =>
    rcases checkNext_cases s with hsame | ⟨k, hcursor, hk, ⟨-, hvisit⟩ | ⟨-, herase⟩⟩
    · rwa [act, hsame]
    · rw [act, hvisit]
      refine ⟨fun e he => ?_, fun e he hlt hrecent => ?_, fun e he hnow => ?_, ?_⟩
      · rcases List.mem_cons.1 he with rfl | he
        · exact le_rfl
        · exact h.past e he
      · rcases List.mem_cons.1 he with rfl | he
        · exact absurd hlt (lt_irrefl _)
        · exact h.waiting e he hlt hrecent
      · refine ⟨k + 1, rfl, ?_⟩
        have hmem : e.1 ∈ (s.checkCreatureLists s.index).take (k + 1) := by
          rw [List.take_succ_eq_append_getElem hk, List.mem_append]
          rcases List.mem_cons.1 he with rfl | he
          · exact .inr (List.mem_singleton_self _)
          · obtain ⟨k', hk', htake⟩ := h.now e he hnow
            rw [hcursor, Option.some_inj] at hk'
            exact .inl (by rwa [hk'])
        exact hmem
      · refine List.pairwise_cons.2 ⟨fun e he hc => ?_, h.apart⟩
        exact h.long_ago hs hcursor hk he hc.symm
    · rw [act, herase]
      refine ⟨h.past, fun e he hlt hrecent => ?_, fun e he hnow => ?_, h.apart⟩
      · simp only [ReleaseCreature] at he hlt hrecent ⊢
        have hne : Fin.ofNat 10 e.2 ≠ s.index := by
          intro hindex
          have hmod := index_eq_iff.1 hindex
          omega
        rw [Function.update_of_ne hne]
        exact h.waiting e he hlt hrecent
      · obtain ⟨k', hk', htake⟩ := h.now e he hnow
        rw [hcursor, Option.some_inj] at hk'
        subst hk'
        refine ⟨k, hcursor, ?_⟩
        change e.1 ∈ (Function.update s.checkCreatureLists s.index
          ((s.checkCreatureLists s.index).eraseIdx k) s.index).take k
        rwa [Function.update_self, take_eraseIdx hk]
  | checkEnd =>
    have hcursor : s.cursor = some (s.checkCreatureLists s.index).length := ha
    have hpast : ∀ e ∈ (act s .checkEnd).visited, e ∈ s.visited := by
      intro e he
      simpa only [act, cleanup_visited] using he
    refine ⟨fun e he => ?_, fun e he hlt hrecent => ?_, fun e he hnow => ?_, ?_⟩
    · exact (h.past e (hpast e he)).trans (Nat.le_succ _)
    · simp only [act, cleanup_checks] at hlt hrecent ⊢
      rcases (h.past e (hpast e he)).lt_or_eq with hbefore | hnow
      · exact h.waiting e (hpast e he) hbefore (by omega)
      · obtain ⟨k, hk, htake⟩ := h.now e (hpast e he) hnow
        rw [hnow]
        exact List.mem_of_mem_take htake
    · have hle := h.past e (hpast e he)
      simp only [act] at hnow
      omega
    · simpa only [act, cleanup_visited] using h.apart
  | _ => simp [Act.checks] at hcheck

theorem recent_run (as : List Act) : Recent (Run.run step init as) := by
  have hboth : Sound (Run.run step init as) [] ∧ Recent (Run.run step init as) := by
    refine Run.run_of_step (I := fun s => Sound s [] ∧ Recent s)
      (fun s a h => ⟨sound_step h.1 a, recent_step h.1 h.2 a⟩) as ⟨sound_init, ?_⟩
    exact ⟨fun _ he => by simp [init] at he, fun _ he => by simp [init] at he, fun _ he => by simp [init] at he,
      List.Pairwise.nil⟩
  exact hboth.2

/-- **No creature has two turns in ten calls.** The turns of a creature are ten calls
of `checkCreatures` apart at least, whatever is removed and placed in between. -/
theorem turns_apart (as : List Act) : (Run.run step init as).visited.Pairwise
    fun later earlier => later.1 = earlier.1 → earlier.2 + 10 ≤ later.2 :=
  (recent_run as).apart

/-- The creature stands in its list, and it has had its turn in every call for that
list since the call `first`, unless the cursor is still before it. -/
structure Attended (s : State) (first : ℕ) (i : Fin 10) (c : ℕ) : Prop where
  listed : c ∈ s.checkCreatureLists i
  started : first ≤ s.turn
  past : ∀ t, first ≤ t → t < s.turn → Fin.ofNat 10 t = i → (c, t) ∈ s.visited
  now : s.index = i → ∀ k, s.cursor = some k → c ∈ (s.checkCreatureLists i).take k → (c, s.turn) ∈ s.visited

theorem Attended.appends {first : ℕ} {i : Fin 10} (h : Attended s first i c) (ha : Appends s s')
    (hcursor : ∀ k, s.cursor = some k → k ≤ (s.checkCreatureLists s.index).length) : Attended s' first i c where
  listed := (ha.checks i).subset h.listed
  started := by
    rw [ha.turn]
    exact h.started
  past t hfirst hlt ht := by
    rw [ha.turn] at hlt
    rw [ha.visited]
    exact h.past t hfirst hlt ht
  now hi k hk hmem := by
    rw [State.index, ha.turn] at hi
    rw [ha.cursor] at hk
    rw [ha.visited, ha.turn]
    refine h.now hi k hk ?_
    have hle := hcursor k hk
    obtain ⟨r, hr⟩ := ha.checks i
    rw [← hr, List.take_append_of_le_length (by rwa [← hi])] at hmem
    exact hmem

/-- The cursor does not leave its list. -/
def State.CursorIn (s : State) : Prop := ∀ k, s.cursor = some k → k ≤ (s.checkCreatureLists s.index).length

theorem cursorIn_step (hs : Sound s []) (h : s.CursorIn) (a : Act) : (step s a).CursorIn := by
  unfold step
  split
  swap
  · exact h
  next ha =>
  by_cases hcheck : a.checks = false
  · have happends := appends_act hs ha hcheck
    intro k hk
    rw [happends.cursor] at hk
    rw [State.index, happends.turn]
    exact (h k hk).trans (happends.checks _).length_le
  cases a with
  | checkCreatures =>
    intro k hk
    rw [act, Option.some_inj] at hk
    rw [← hk]
    exact Nat.zero_le _
  | checkNext =>
    rcases checkNext_cases s with hsame | ⟨k, hcursor, hk, ⟨-, hvisit⟩ | ⟨-, herase⟩⟩
    · rwa [act, hsame]
    · rw [act, hvisit]
      intro k' hk'
      rw [Option.some_inj] at hk'
      rw [← hk']
      exact hk
    · rw [act, herase]
      intro k' hk'
      have hkk : k = k' := Option.some_inj.1 (hcursor.symm.trans hk')
      change k' ≤ (Function.update s.checkCreatureLists s.index
        ((s.checkCreatureLists s.index).eraseIdx k) s.index).length
      rw [Function.update_self, List.length_eraseIdx_of_lt hk]
      omega
  | checkEnd => exact fun k hk => absurd hk.symm (Option.some_ne_none k)
  | _ => simp [Act.checks] at hcheck

theorem attended_step {first : ℕ} {i : Fin 10} (hs : Sound s []) (hin : s.CursorIn) (h : Attended s first i c)
    {a : Act} (hcheck : s.creatureCheck c = true) : Attended (step s a) first i c := by
  unfold step
  split
  swap
  · exact h
  next ha =>
  by_cases hact : a.checks = false
  · exact h.appends (appends_act hs ha hact) hin
  cases a with
  | checkCreatures =>
    refine ⟨h.listed, h.started, h.past, fun hi k hk hmem => ?_⟩
    rw [act, Option.some_inj] at hk
    rw [← hk] at hmem
    simp at hmem
  | checkNext =>
    rcases checkNext_cases s with hsame | ⟨k, hcursor, hk, ⟨-, hvisit⟩ | ⟨huncheck, herase⟩⟩
    · rwa [act, hsame]
    · rw [act, hvisit]
      refine ⟨h.listed, h.started, fun t hfirst hlt ht => ?_, fun hi k' hk' hmem => ?_⟩
      · exact List.mem_cons_of_mem _ (h.past t hfirst hlt ht)
      · have hi' : s.index = i := hi
        rw [Option.some_inj] at hk'
        rw [← hk', ← hi', List.take_succ_eq_append_getElem hk, List.mem_append, List.mem_singleton] at hmem
        rcases hmem with hmem | hmem
        · exact List.mem_cons_of_mem _ (h.now hi' k hcursor (by rwa [← hi']))
        · rw [hmem]
          exact List.mem_cons_self
    · -- the one that is taken off is another
      have hne : c ≠ (s.checkCreatureLists s.index)[k] := by
        rintro rfl
        rw [hcheck] at huncheck
        simp at huncheck
      rw [act, herase]
      refine ⟨?_, h.started, h.past, fun hi k' hk' hmem => ?_⟩
      · change c ∈ Function.update s.checkCreatureLists s.index ((s.checkCreatureLists s.index).eraseIdx k) i
        rw [Function.update_apply]
        split_ifs with hi
        · have hmem := h.listed
          rw [hi, ← (List.getElem_cons_eraseIdx_perm hk).mem_iff] at hmem
          exact (List.mem_cons.1 hmem).resolve_left hne
        · exact h.listed
      · have hi' : s.index = i := hi
        have hkk : k = k' := Option.some_inj.1 (hcursor.symm.trans hk')
        change c ∈ (Function.update s.checkCreatureLists s.index
          ((s.checkCreatureLists s.index).eraseIdx k) i).take k' at hmem
        rw [← hi', Function.update_self, ← hkk, take_eraseIdx hk] at hmem
        exact h.now hi' k hcursor (by rwa [← hi'])
  | checkEnd =>
    have hcursor : s.cursor = some (s.checkCreatureLists s.index).length := ha
    refine ⟨?_, h.started.trans (Nat.le_succ _), fun t hfirst hlt ht => ?_,
      fun _ k hk => absurd hk.symm (Option.some_ne_none k)⟩
    · simpa only [act, cleanup_checks] using h.listed
    · simp only [act, cleanup_visited] at hlt ⊢
      rcases (Nat.lt_succ_iff.1 hlt).lt_or_eq with hbefore | rfl
      · exact h.past t hfirst hbefore ht
      · refine h.now ht _ hcursor ?_
        have hi : s.index = i := ht
        rw [hi, List.take_length]
        exact h.listed
  | _ => simp [Act.checks] at hact

/-- **The turn of a creature comes in every tenth call.** A creature that stands in
list `i` between two calls and stays to be checked has its turn in each of the
following calls for that list that come to their end. -/
theorem turn_comes (as bs : List Act) {c : ℕ} {i : Fin 10}
    (hidle : (Run.run step init as).cursor = none) (hc : c ∈ (Run.run step init as).checkCreatureLists i)
    (hcheck : Run.Along step (fun s _ => s.creatureCheck c = true) (Run.run step init as) bs)
    {t : ℕ} (hfirst : (Run.run step init as).turn ≤ t) (hlast : t < (Run.run step init (as ++ bs)).turn)
    (ht : Fin.ofNat 10 t = i) : (c, t) ∈ (Run.run step init (as ++ bs)).visited := by
  rw [Run.run_append] at hlast ⊢
  have hstart : Attended (Run.run step init as) (Run.run step init as).turn i c := by
    refine ⟨hc, le_rfl, fun t hfirst hlt => absurd hfirst (Nat.not_le_of_lt hlt), fun _ k hk => ?_⟩
    rw [hidle] at hk
    exact nomatch hk
  have hin : (Run.run step init as).CursorIn := by
    intro k hk
    rw [hidle] at hk
    exact nomatch hk
  have hall := Run.run_inv
    (I := fun s => (Sound s [] ∧ s.CursorIn) ∧ Attended s (Run.run step init as).turn i c)
    (fun s a h ha => ⟨⟨sound_step h.1.1 a, cursorIn_step h.1.1 h.1.2 a⟩, attended_step h.1.1 h.1.2 h.2 ha⟩)
    bs ⟨⟨sound_run as, hin⟩, hstart⟩ hcheck
  exact hall.2.past t hfirst hlast ht

theorem turn_comes_rat :
    (0, 0) ∈ (Run.run step init (rat ++ [.checkCreatures, .checkNext, .checkEnd])).visited := by
  refine turn_comes rat [.checkCreatures, .checkNext, .checkEnd] (i := 0) (by decide) (by decide) (by decide)
    (by decide) ?_ (by decide)
  simp [rat, Run.run, step, possible, act, create, init, placeCreature, internalPlaceCreature, increment,
    addCreatureCheck, checkNext, State.index]

/-! ### Who has been removed -/

/-- The creature has been removed, and it stands in no list that has been gone
through since the call `first`. -/
structure Fading (s : State) (first : ℕ) (c : ℕ) : Prop where
  removed : s.isInternalRemoved c = true
  below : c < s.next
  started : first ≤ s.turn
  past : ∀ t, first ≤ t → t < s.turn → c ∉ s.checkCreatureLists (Fin.ofNat 10 t)
  now : ∀ k, s.cursor = some k → c ∉ (s.checkCreatureLists s.index).take k

theorem Fading.appends {first : ℕ} (h : Fading s first c) (ha : Appends s s') (hin : s.CursorIn) :
    Fading s' first c where
  removed := ha.isInternalRemoved c h.below h.removed
  below := h.below.trans_le ha.next
  started := by
    rw [ha.turn]
    exact h.started
  past t hfirst hlt hmem := by
    rw [ha.turn] at hlt
    exact h.past t hfirst hlt (ha.unremoved c h.below h.removed _ hmem)
  now k hk hmem := by
    rw [ha.cursor] at hk
    rw [State.index, ha.turn] at hmem
    refine h.now k hk ?_
    obtain ⟨r, hr⟩ := ha.checks s.index
    change c ∈ (s'.checkCreatureLists s.index).take k at hmem
    rwa [← hr, List.take_append_of_le_length (hin k hk)] at hmem

theorem fading_step {first : ℕ} (hs : Sound s []) (hin : s.CursorIn) (h : Fading s first c) (a : Act) :
    Fading (step s a) first c := by
  unfold step
  split
  swap
  · exact h
  next ha =>
  by_cases hact : a.checks = false
  · exact h.appends (appends_act hs ha hact) hin
  cases a with
  | checkCreatures =>
    refine ⟨h.removed, h.below, h.started, h.past, fun k hk hmem => ?_⟩
    rw [act, Option.some_inj] at hk
    rw [← hk] at hmem
    simp at hmem
  | checkNext =>
    rcases checkNext_cases s with hsame | ⟨k, hcursor, hk, ⟨hcheck, hvisit⟩ | ⟨-, herase⟩⟩
    · rwa [act, hsame]
    · -- who has been removed does not have its turn
      have hne : c ≠ (s.checkCreatureLists s.index)[k] := by
        intro hc
        have hmem : c ∈ s.memory := by
          apply hs.counted.live
          rw [← hs.used_iff]
          refine .inr (.inl ⟨s.index, ?_⟩)
          rw [hc]
          exact List.getElem_mem hk
        have hunchecked := (hs.removed c hmem h.removed).2
        rw [hc, hcheck] at hunchecked
        simp at hunchecked
      rw [act, hvisit]
      refine ⟨h.removed, h.below, h.started, h.past, fun k' hk' hmem => ?_⟩
      change c ∈ (s.checkCreatureLists s.index).take k' at hmem
      rw [Option.some_inj] at hk'
      rw [← hk', List.take_succ_eq_append_getElem hk, List.mem_append, List.mem_singleton] at hmem
      exact hmem.elim (h.now k hcursor) hne
    · rw [act, herase]
      refine ⟨h.removed, h.below, h.started, fun t hfirst hlt hmem => ?_, fun k' hk' hmem => ?_⟩
      · change c ∈ Function.update s.checkCreatureLists s.index ((s.checkCreatureLists s.index).eraseIdx k)
          (Fin.ofNat 10 t) at hmem
        rw [Function.update_apply] at hmem
        split_ifs at hmem with hindex
        · refine h.past t hfirst hlt ?_
          rw [hindex]
          exact List.mem_of_mem_eraseIdx hmem
        · exact h.past t hfirst hlt hmem
      · have hkk : k = k' := Option.some_inj.1 (hcursor.symm.trans hk')
        change c ∈ (Function.update s.checkCreatureLists s.index
          ((s.checkCreatureLists s.index).eraseIdx k) s.index).take k' at hmem
        rw [Function.update_self, ← hkk, take_eraseIdx hk] at hmem
        exact h.now k hcursor hmem
  | checkEnd =>
    have hcursor : s.cursor = some (s.checkCreatureLists s.index).length := ha
    have hkept : Keeps s (cleanup s) := by
      apply Keeps.release
      exact .of_same subset_rfl rfl rfl rfl rfl rfl rfl rfl rfl rfl
    refine ⟨?_, ?_, h.started.trans (Nat.le_succ _), fun t hfirst hlt => ?_,
      fun k hk => absurd hk.symm (Option.some_ne_none k)⟩
    · simp only [act, hkept.isInternalRemoved]
      exact h.removed
    · simp only [act, hkept.next]
      exact h.below
    · simp only [act, cleanup_checks] at hlt ⊢
      rcases (Nat.lt_succ_iff.1 hlt).lt_or_eq with hbefore | rfl
      · exact h.past t hfirst hbefore
      · have hnow := h.now _ hcursor
        rwa [List.take_length] at hnow
  | _ => simp [Act.checks] at hact

/-- **Who has been removed is deleted within ten calls.** Ten calls of
`checkCreatures` after a creature was removed it is in memory only if a release of it
is pending, somebody outside holds it, a script took it from its master, or another
creature still keeps it. -/
theorem removed_is_freed (as bs : List Act) {c : ℕ} (hidle : (Run.run step init as).cursor = none)
    (hc : c ∈ (Run.run step init as).memory) (hr : (Run.run step init as).isInternalRemoved c = true)
    (hlate : (Run.run step init as).turn + 10 ≤ (Run.run step init (as ++ bs)).turn) :
    let s := Run.run step init (as ++ bs)
    c ∈ s.memory ↔ c ∈ s.toReleaseCreatures ∨ c ∈ s.held ∨ c ∈ s.lost ∨ ∃ o ∈ s.memory, c ∈ s.refs o := by
  intro s
  have hstart : Fading (Run.run step init as) (Run.run step init as).turn c := by
    refine ⟨hr, (sound_run as).below c hc, le_rfl, fun t hfirst hlt => absurd hfirst (Nat.not_le_of_lt hlt), ?_⟩
    intro k hk
    rw [hidle] at hk
    exact nomatch hk
  have hin : (Run.run step init as).CursorIn := by
    intro k hk
    rw [hidle] at hk
    exact nomatch hk
  have hall := Run.run_of_step
    (I := fun s => (Sound s [] ∧ s.CursorIn) ∧ Fading s (Run.run step init as).turn c)
    (fun s a h => ⟨⟨sound_step h.1.1 a, cursorIn_step h.1.1 h.1.2 a⟩, fading_step h.1.1 h.1.2 h.2 a⟩)
    bs ⟨⟨sound_run as, hin⟩, hstart⟩
  rw [← Run.run_append] at hall
  obtain ⟨⟨hs, -⟩, hfading⟩ := hall
  have hunchecked : ∀ i, c ∉ s.checkCreatureLists i := by
    intro i
    let first := (Run.run step init as).turn
    let t := first + (i.val + 10 - first % 10) % 10
    have ht : Fin.ofNat 10 t = i := by
      have hi := i.isLt
      simp only [Fin.ext_iff, Fin.ofNat, t]
      omega
    have hlt : t < s.turn := by
      have hmod := Nat.mod_lt (i.val + 10 - first % 10) (by decide : 0 < 10)
      have hlast : first + 10 ≤ s.turn := hlate
      simp only [t]
      omega
    have hpast := hfading.past t (Nat.le_add_right _ _) hlt
    rwa [ht] at hpast
  have hunlisted : c ∉ s.listed := by
    intro hmem
    have hpresent := (hs.mem_listed.1 hmem).2.2
    have hgone := hfading.removed
    simp_all
  constructor
  · intro hmem
    have hused : s.used c := (in_memory_iff_used (as ++ bs) (hs.removed c hmem hfading.removed).1).1 hmem
    rcases hused with hu | ⟨i, hu⟩ | hu
    · exact absurd hu hunlisted
    · exact absurd hu (hunchecked i)
    · exact hu
  · intro hused
    exact hs.counted.live c (hs.used_iff.1 (.inr (.inr hused)))

/-- Calls of `checkCreatures` that find an empty list. -/
def emptyCalls (n : ℕ) : List Act := (List.replicate n [Act.checkCreatures, .checkEnd]).flatten

theorem turn_emptyCalls (n : ℕ) (hidle : s.cursor = none) (hempty : ∀ i, s.checkCreatureLists i = []) :
    (Run.run step s (emptyCalls n)).turn = s.turn + n := by
  induction n generalizing s with
  | zero => rfl
  | succ n ih =>
    have hcalls : emptyCalls (n + 1) = .checkCreatures :: .checkEnd :: emptyCalls n := by
      simp [emptyCalls, List.replicate_succ]
    rw [hcalls]
    simp only [Run.run]
    rw [ih]
    · simp [step, possible, act, hidle, hempty, State.index]
      omega
    · simp [step, possible, act, hidle, hempty, State.index]
    · simp [step, possible, act, hidle, hempty, State.index, cleanup_checks]

/-- An npc is placed and removed. -/
def passerby : List Act := [.create .npc 20, .internalPlaceCreature 0, .removeCreature 0]

theorem run_passerby : Run.run step init passerby = { init with
    next := 1
    memory := {0}
    kind := Function.update init.kind 0 .npc
    health := Function.update init.health 0 20
    healthMax := Function.update init.healthMax 0 20
    referenceCounter := Function.update init.referenceCounter 0 1
    hasParent := Function.update init.hasParent 0 true
    isInternalRemoved := Function.update init.isInternalRemoved 0 true
    toReleaseCreatures := [0] } := by
  simp [passerby, Run.run, step, possible, act, create, init, internalPlaceCreature, increment, removeCreature,
    removeOne, onRemoveCreature, leavePresentMaster, removeCreatureCheck, ReleaseCreature]

theorem removed_is_freed_passerby : let s := Run.run step init (passerby ++ emptyCalls 10)
    0 ∈ s.memory ↔ 0 ∈ s.toReleaseCreatures ∨ 0 ∈ s.held ∨ 0 ∈ s.lost ∨ ∃ o ∈ s.memory, 0 ∈ s.refs o := by
  refine removed_is_freed passerby (emptyCalls 10) ?_ ?_ ?_ ?_
  · rw [run_passerby]
    rfl
  · rw [run_passerby]
    decide
  · rw [run_passerby]
    rfl
  · rw [Run.run_append, run_passerby, turn_emptyCalls 10 rfl fun _ => rfl]

end Creatures
end ForgottenServer
