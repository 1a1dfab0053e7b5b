/-
# Reading the conditions of a player from any bytes

`PropStream` reads behind a check of what is left, which is a difference of
two pointers. With the offset of its pointer, every read and every write to
an array of a condition shows where it happens. The bytes read lie in the blob
whatever it holds, and the loops end. The arrays of `ConditionAttributes` are
written where a counter says, which only the attributes of the record bound: a
write stays inside just when no record has too many (`Fits`).

Key definitions: `Cursor`, `read`, `width`, `unserialize`, `loadConditions`,
`records`, `Safe`, `Fits`.
Key theorems: `unserializeProp_eq`, `unserialize_spec`, `loadConditions_spec`,
`safe_iff`.
-/
import Mathlib.Tactic
import ForgottenServer.Condition

namespace ForgottenServer
namespace ConditionBlob

open Condition (uint32Of int32Of)

/-! ### The stream with its offsets -/

/-- Where the pointer stands, what has been read, each as offset and length, and
the indices that have been written in `skills` and `stats`. -/
structure Cursor where
  p : ℕ
  reads : List (ℕ × ℕ)
  skills : List ℕ
  stats : List ℕ

/-- `PropStream::size`. Past the end, the difference of the pointers is a large
`size_t`. -/
def size (blob : List UInt8) (r : Cursor) : ℕ :=
  if r.p ≤ blob.length then blob.length - r.p else 2 ^ 64 - (r.p - blob.length)

/-- `propStream.read<T>` for a type of `n` bytes. -/
def read (blob : List UInt8) (n : ℕ) (r : Cursor) : Option (List UInt8) × Cursor :=
  if size blob r < n then (none, r)
  else (some ((blob.drop r.p).take n), { r with p := r.p + n, reads := (r.p, n) :: r.reads })

/-- The bytes that `unserializeProp` of a class reads for an attribute, if it
knows the attribute. -/
def width : ConditionData → ConditionAttr → Option ℕ
  | .attributes .., .skills | .attributes .., .stats => some 4
  | .regeneration .., .healthTicks | .regeneration .., .healthGain
  | .regeneration .., .manaTicks | .regeneration .., .manaGain => some 4
  | .soul .., .soulGain | .soul .., .soulTicks => some 4
  | .damage .., .delayed => some 1
  | .damage .., .periodDamage | .damage .., .owner => some 4
  | .damage .., .intervalData => some 12
  | .speed .., .speedDelta | .speed .., .formulaMinA | .speed .., .formulaMinB
  | .speed .., .formulaMaxA | .speed .., .formulaMaxB => some 4
  | .outfit .., .outfit => some 8
  | .light .., .lightColor | .light .., .lightLevel | .light .., .lightTicks
  | .light .., .lightInterval => some 4
  | _, .type | _, .id | _, .ticks | _, .subId => some 4
  | _, .isBuff => some 1
  | _, .endMark => some 0
  | _, _ => none

/-- The entry of an array that an attribute writes. -/
def write (d : ConditionData) (attr : ConditionAttr) (r : Cursor) : Cursor :=
  match d, attr with
  | .attributes _ _ currentSkill _, .skills => { r with skills := currentSkill :: r.skills }
  | .attributes _ _ _ currentStat, .stats => { r with stats := currentStat :: r.stats }
  | _, _ => r

/-- `unserializeProp`, of the class of the condition, which is given the bytes
that were read for it. -/
def unserializeProp (blob : List UInt8) (attr : Option ConditionAttr) (c : Condition) (r : Cursor) :
    Bool × Condition × Cursor :=
  match attr with
  | none => (false, c, r)
  | some a =>
    match width c.data a with
    | none => (false, c, r)
    | some n =>
      match read blob n r with
      | (none, r) => (false, (c.unserializeProp attr []).2.1, r)
      | (some b, r) => (true, (c.unserializeProp attr b).2.1, write c.data a r)

/-- The loop of `Condition::unserialize`. -/
def unserialize (blob : List UInt8) : ℕ → Condition → Cursor → Option (Bool × Condition × Cursor)
  | 0, _, _ => none
  | fuel + 1, c, r =>
    match read blob 1 r with
    | (none, r) => some (true, c, r)
    | (some b, r) =>
      if b = [ConditionAttr.endMark.code] then some (true, c, r)
      else
        let (ok, c, r) := unserializeProp blob (b.head?.bind ConditionAttr.ofCode) c r
        if ok then unserialize blob fuel c r else some (false, c, r)

/-- What is read with what was read before, unless that failed. -/
def andThen {α β : Type} (x : Option α × Cursor) (f : α → Cursor → Option β × Cursor) : Option β × Cursor :=
  match x with
  | (none, r) => (none, r)
  | (some a, r) => f a r

/-- A field of the header. -/
def expect (blob : List UInt8) (a : ConditionAttr) (n : ℕ) (r : Cursor) : Option (List UInt8) × Cursor :=
  andThen (read blob 1 r) fun b r => if b = [a.code] then read blob n r else (none, r)

/-- `Condition::createCondition` from a stream. -/
def createCondition (blob : List UInt8) (r : Cursor) : Option Condition × Cursor :=
  andThen (expect blob .type 4 r) fun type r =>
  andThen (expect blob .id 4 r) fun id r =>
  andThen (expect blob .ticks 4 r) fun ticks r =>
  andThen (expect blob .isBuff 1 r) fun buff r =>
  andThen (expect blob .subId 4 r) fun subId r =>
    (Condition.build (int32Of id).toInt8 (uint32Of type) (int32Of ticks) (Bytes.value buff ≠ 0)
      (uint32Of subId), r)

/-- The loop of `IOLoginData::loadPlayer`. -/
def loadConditions (blob : List UInt8) : ℕ → List Condition → Cursor → Option (List Condition × Cursor)
  | 0, _, _ => none
  | fuel + 1, stored, r =>
    match createCondition blob r with
    | (none, r) => some (stored, r)
    | (some c, r) => do
      let (ok, c, r) ← unserialize blob fuel c r
      loadConditions blob fuel (if ok then c :: stored else stored) r

/-! ### What should hold -/

/-- `SKILL_LAST` -/
def skillLast : ℕ := 6

/-- `STAT_LAST` -/
def statLast : ℕ := 3

/-- What has been read lies in the blob. -/
def Inside (blob : List UInt8) (r : Cursor) : Prop := ∀ x ∈ r.reads, x.1 + x.2 ≤ blob.length

/-- What has been written lies in the arrays. -/
def InRange (r : Cursor) : Prop := (∀ i ∈ r.skills, i ≤ skillLast) ∧ ∀ j ∈ r.stats, j ≤ statLast

/-- The loading ends, with all its reads and writes inside. -/
def Safe (blob : List UInt8) : Prop :=
  ∃ stored r, (∀ fuel, blob.length < fuel → loadConditions blob fuel [] ⟨0, [], [], []⟩ = some (stored, r)) ∧
    Inside blob r ∧ InRange r

/-- The attributes of a record, up to the end mark, to one that is unknown or cut
off, or to the end of the bytes, and what is left. -/
def fields (w : ConditionAttr → Option ℕ) : List UInt8 → List ConditionAttr × List UInt8
  | [] => ([], [])
  | code :: s =>
    if code = ConditionAttr.endMark.code then ([], s)
    else
      match ConditionAttr.ofCode code with
      | none => ([], s)
      | some a =>
        match w a with
        | none => ([], s)
        | some n =>
          if s.length < n then ([], s) else (a :: (fields w (s.drop n)).1, (fields w (s.drop n)).2)
termination_by s => s.length
decreasing_by all_goals simp only [List.length_drop, List.length_cons]; omega

theorem fields_length (w : ConditionAttr → Option ℕ) (s : List UInt8) : (fields w s).2.length ≤ s.length := by
  induction s using fields.induct w with
  | case1 =>
    unfold fields
    exact le_rfl
  | case2 s =>
    unfold fields
    rw [if_pos rfl]
    exact Nat.le_succ _
  | case3 code s h hc =>
    unfold fields
    rw [if_neg h, hc]
    exact Nat.le_succ _
  | case4 code s h a hc hw =>
    unfold fields
    simp only [if_neg h, hc, hw]
    exact Nat.le_succ _
  | case5 code s h a hc n hw hn =>
    unfold fields
    simp only [if_neg h, hc, hw, if_pos hn]
    exact Nat.le_succ _
  | case6 code s h a hc n hw hn ih =>
    unfold fields
    simp only [if_neg h, hc, hw, if_neg hn]
    rw [List.length_drop] at ih
    rw [List.length_cons]
    omega

/-- The records of a blob: what the constructor of the class sets, and the
attributes that follow the header. -/
def records (s : List UInt8) : List (ConditionData × List ConditionAttr) :=
  match _h : Condition.createCondition s with
  | none => []
  | some (c, t) => (c.data, (fields (width c.data) t).1) :: records (fields (width c.data) t).2
termination_by s.length
decreasing_by
  have hlen := Condition.createCondition_length _h
  have hfields := fields_length (width c.data) t
  dsimp only at hlen
  omega

/-- No record of a `ConditionAttributes` has more attributes than its arrays have
entries. -/
def Fits (blob : List UInt8) : Prop :=
  ∀ d l, (d, l) ∈ records blob → ∀ skills stats i j, d = .attributes skills stats i j →
    l.count .skills ≤ skillLast + 1 ∧ l.count .stats ≤ statLast + 1

/-! ### Reading, by what is left -/

section

variable {blob s t : List UInt8} {r r' r'' : Cursor} {n : ℕ}

/-- The pointer stands where `s` is left of the blob. -/
structure At (blob : List UInt8) (r : Cursor) (s : List UInt8) : Prop where
  le : r.p ≤ blob.length
  drop : blob.drop r.p = s

/-- Nothing is read outside or written on the way. -/
structure Moves (blob : List UInt8) (r r' : Cursor) : Prop where
  inside : Inside blob r → Inside blob r'
  skills : r'.skills = r.skills
  stats : r'.stats = r.stats

theorem Moves.refl (blob : List UInt8) (r : Cursor) : Moves blob r r := ⟨id, rfl, rfl⟩

theorem Moves.trans (h : Moves blob r r') (h' : Moves blob r' r'') : Moves blob r r'' :=
  ⟨fun hi => h'.inside (h.inside hi), h'.skills.trans h.skills, h'.stats.trans h.stats⟩

/-- A reading does on the blob what it does on the bytes that are left. -/
def Follows {α : Type} (blob : List UInt8) (r : Cursor) (x : Option α × Cursor) (o : Option (α × List UInt8)) :
    Prop :=
  match o with
  | none => ∃ r', x = (none, r') ∧ Moves blob r r'
  | some (a, t) => ∃ r', x = (some a, r') ∧ At blob r' t ∧ Moves blob r r'

theorem Follows.andThen {α β : Type} {x : Option α × Cursor} {o : Option (α × List UInt8)}
    {f : α → Cursor → Option β × Cursor} {g : α × List UInt8 → Option (β × List UInt8)}
    (h : Follows blob r x o) (hf : ∀ a t r', At blob r' t → Follows blob r' (f a r') (g (a, t))) :
    Follows blob r (andThen x f) (o.bind g) := by
  cases o with
  | none =>
    obtain ⟨r', rfl, hm⟩ := h
    exact ⟨r', rfl, hm⟩
  | some p =>
    obtain ⟨r', rfl, hat, hm⟩ := h
    have hnext := hf p.1 p.2 r' hat
    show Follows blob r (f p.1 r') (g (p.1, p.2))
    unfold Follows at hnext ⊢
    cases hg : g (p.1, p.2) with
    | none =>
      rw [hg] at hnext
      obtain ⟨r'', he, hm'⟩ := hnext
      exact ⟨r'', he, hm.trans hm'⟩
    | some q =>
      rw [hg] at hnext
      obtain ⟨r'', he, hat', hm'⟩ := hnext
      exact ⟨r'', he, hat', hm.trans hm'⟩

theorem At.size_eq (h : At blob r s) : size blob r = s.length := by
  unfold size
  rw [if_pos h.le, ← h.drop, List.length_drop]

theorem read_short (h : At blob r s) (hn : s.length < n) : read blob n r = (none, r) := by
  unfold read
  rw [h.size_eq, if_pos hn]

/-- **What a read does**: it takes the bytes off, or finds too few of them. -/
theorem read_spec (h : At blob r s) (n : ℕ) : Follows blob r (read blob n r) (Bytes.take n s) := by
  unfold Bytes.take
  by_cases hn : n ≤ s.length
  · have hlen : s.length = blob.length - r.p := by
      rw [← h.drop, List.length_drop]
    have hle := h.le
    unfold read
    rw [h.size_eq, if_pos hn, if_neg (by omega), h.drop]
    refine ⟨{ r with p := r.p + n, reads := (r.p, n) :: r.reads }, rfl, ⟨?_, ?_⟩, ⟨fun hi x hx => ?_, rfl, rfl⟩⟩
    · dsimp only
      omega
    · rw [← h.drop, List.drop_drop]
    · obtain rfl | hx := List.mem_cons.1 hx
      · dsimp only
        omega
      · exact hi x hx
  · rw [if_neg hn, read_short h (by omega)]
    exact ⟨r, rfl, .refl blob r⟩

theorem expect_spec (h : At blob r s) (a : ConditionAttr) (n : ℕ) :
    Follows blob r (expect blob a n r) (Condition.expect a n s) := by
  have hbind : Condition.expect a n s =
      (Bytes.take 1 s).bind fun p => if p.1 = [a.code] then Bytes.take n p.2 else none := by
    cases s with
    | nil => rfl
    | cons code s =>
      unfold Condition.expect
      by_cases hc : code = a.code
      · simp [Bytes.take, hc]
      · simp [Bytes.take, hc]
  rw [hbind]
  refine (read_spec h 1).andThen fun b t r' hat => ?_
  dsimp only
  by_cases hb : b = [a.code]
  · rw [if_pos hb, if_pos hb]
    exact read_spec hat n
  · rw [if_neg hb, if_neg hb]
    exact ⟨r', rfl, .refl blob r'⟩

/-- **The header is read as from the bytes that are left.** -/
theorem createCondition_spec (h : At blob r s) :
    Follows blob r (createCondition blob r) (Condition.createCondition s) := by
  unfold createCondition Condition.createCondition
  refine (expect_spec h .type 4).andThen fun type t₁ r₁ h₁ => ?_
  refine (expect_spec h₁ .id 4).andThen fun id t₂ r₂ h₂ => ?_
  refine (expect_spec h₂ .ticks 4).andThen fun ticks t₃ r₃ h₃ => ?_
  refine (expect_spec h₃ .isBuff 1).andThen fun buff t₄ r₄ h₄ => ?_
  refine (expect_spec h₄ .subId 4).andThen fun subId t₅ r₅ h₅ => ?_
  dsimp only
  cases Condition.build (int32Of id).toInt8 (uint32Of type) (int32Of ticks) (Bytes.value buff ≠ 0)
    (uint32Of subId) with
  | none => exact ⟨r₅, rfl, .refl blob r₅⟩
  | some c => exact ⟨r₅, rfl, h₅, .refl blob r₅⟩

/-! ### The attributes -/

/-- A reading function that reads `n` bytes, in terms of those bytes. -/
theorem read_eq (hn : 0 < n) (c : Condition) (s : List UInt8) (f : List UInt8 → Condition) :
    Condition.read n c s f =
      match Bytes.take n s with
      | none => (false, (Condition.read n c [] f).2.1, s)
      | some (b, t) => (true, (Condition.read n c b f).2.1, t) := by
  have hnil : Bytes.take n [] = none := if_neg (by rw [List.length_nil]; omega)
  unfold Condition.read
  rw [hnil]
  cases ht : Bytes.take n s with
  | none => rfl
  | some p =>
    unfold Bytes.take at ht
    split at ht
    · next hle =>
      obtain rfl := Option.some.inj ht
      have hlen : n ≤ (s.take n).length := by
        rw [List.length_take]
        omega
      have htwice : Bytes.take n (s.take n) = some (s.take n, (s.take n).drop n) := by
        unfold Bytes.take
        rw [if_pos hlen, List.take_take, min_self]
      dsimp only
      rw [htwice]
    · nomatch ht

/-- **`width` tells what `unserializeProp` reads.** -/
theorem unserializeProp_eq (a : ConditionAttr) (c : Condition) (s : List UInt8) :
    c.unserializeProp (some a) s =
      match width c.data a with
      | none => (false, c, s)
      | some n =>
        match Bytes.take n s with
        | none => (false, (c.unserializeProp (some a) []).2.1, s)
        | some (b, t) => (true, (c.unserializeProp (some a) b).2.1, t) := by
  obtain ⟨id, conditionType, ticks, isBuff, subId, data⟩ := c
  cases data <;> cases a <;> first | rfl | exact read_eq (by decide) _ s _

theorem data_read (n : ℕ) (c : Condition) (s : List UInt8) (f : List UInt8 → Condition) {P : ConditionData → Prop}
    (hc : P c.data) (hf : ∀ b, P (f b).data) : P (Condition.read n c s f).2.1.data := by
  unfold Condition.read
  cases Bytes.take n s with
  | none => exact hc
  | some p => exact hf p.1

theorem width_initial (d : ConditionData) (a : ConditionAttr) : width (Condition.initial d) a = width d a := by
  cases d <;> cases a <;> rfl

/-- A class stays what it is. -/
theorem initial_unserializeProp (a : ConditionAttr) (c : Condition) (s : List UInt8) :
    Condition.initial (c.unserializeProp (some a) s).2.1.data = Condition.initial c.data := by
  obtain ⟨id, conditionType, ticks, isBuff, subId, data⟩ := c
  cases data <;> cases a <;>
    first
    | rfl
    | exact data_read _ _ s _ (P := fun d => Condition.initial d = Condition.initial _) rfl fun _ => rfl

theorem width_unserializeProp (a : ConditionAttr) (c : Condition) (s : List UInt8) :
    width (c.unserializeProp (some a) s).2.1.data = width c.data := by
  funext x
  rw [← width_initial, initial_unserializeProp, width_initial]

/-- Only the attributes of the arrays move their counters. -/
theorem counters_unserializeProp (a : ConditionAttr) (c : Condition) (s : List UInt8) {skills : Fin 7 → Int32}
    {stats : Fin 4 → Int32} {i j : ℕ} (hd : c.data = .attributes skills stats i j) :
    ∃ skills' stats', (c.unserializeProp (some a) s).2.1.data = .attributes skills' stats'
      (i + if a = .skills then 1 else 0) (j + if a = .stats then 1 else 0) := by
  obtain ⟨id, conditionType, ticks, isBuff, subId, data⟩ := c
  dsimp only at hd
  subst hd
  cases a <;>
    first
    | exact ⟨_, _, rfl⟩
    | exact data_read _ _ s _ (P := fun d => ∃ skills' stats', d = .attributes skills' stats' _ _) ⟨_, _, rfl⟩
        fun _ => ⟨_, _, rfl⟩

/-- The arrays have room for the attributes to come. -/
def Room (d : ConditionData) (l : List ConditionAttr) : Prop :=
  ∀ skills stats i j, d = .attributes skills stats i j →
    (l.count .skills ≠ 0 → i + l.count .skills ≤ skillLast + 1) ∧
      (l.count .stats ≠ 0 → j + l.count .stats ≤ statLast + 1)

theorem room_nil (d : ConditionData) : Room d [] := fun _ _ _ _ _ => ⟨fun h => absurd rfl h, fun h => absurd rfl h⟩

theorem room_attributes (skills : Fin 7 → Int32) (stats : Fin 4 → Int32) (i j : ℕ) (l : List ConditionAttr) :
    Room (.attributes skills stats i j) l ↔ (l.count .skills ≠ 0 → i + l.count .skills ≤ skillLast + 1) ∧
      (l.count .stats ≠ 0 → j + l.count .stats ≤ statLast + 1) := by
  refine ⟨fun h => h skills stats i j rfl, fun h => ?_⟩
  rintro _ _ _ _ ⟨⟩
  exact h

theorem inRange_skills (r : Cursor) (i : ℕ) :
    InRange { r with skills := i :: r.skills } ↔ i ≤ skillLast ∧ InRange r := by
  unfold InRange
  rw [List.forall_mem_cons, and_assoc]

theorem inRange_stats (r : Cursor) (j : ℕ) :
    InRange { r with stats := j :: r.stats } ↔ j ≤ statLast ∧ InRange r := by
  unfold InRange
  rw [List.forall_mem_cons, and_left_comm]

/-- **One attribute**: what it writes is in range when there is room for it. -/
theorem room_cons (a : ConditionAttr) (c : Condition) (b : List UInt8) (l : List ConditionAttr) (r : Cursor) :
    InRange (write c.data a r) ∧ Room (c.unserializeProp (some a) b).2.1.data l ↔
      InRange r ∧ Room c.data (a :: l) := by
  by_cases hd : ∃ skills stats i j, c.data = .attributes skills stats i j
  · obtain ⟨skills, stats, i, j, hd⟩ := hd
    obtain ⟨skills', stats', hd'⟩ := counters_unserializeProp a c b hd
    rw [hd', hd, room_attributes, room_attributes]
    by_cases hs : a = .skills
    · subst hs
      have hcount : (ConditionAttr.skills :: l).count .stats = l.count .stats := List.count_cons_of_ne (by decide)
      rw [hcount, List.count_cons_self, if_pos rfl, if_neg (by decide)]
      refine (and_congr_left' (inRange_skills r i)).trans ?_
      unfold skillLast
      constructor
      · rintro ⟨⟨hi, hr⟩, h1, h2⟩
        exact ⟨hr, fun _ => by omega, h2⟩
      · rintro ⟨hr, h1, h2⟩
        exact ⟨⟨by omega, hr⟩, fun _ => by omega, h2⟩
    by_cases hs' : a = .stats
    · subst hs'
      have hcount : (ConditionAttr.stats :: l).count .skills = l.count .skills := List.count_cons_of_ne (by decide)
      rw [hcount, List.count_cons_self, if_pos rfl, if_neg (by decide)]
      refine (and_congr_left' (inRange_stats r j)).trans ?_
      unfold statLast
      constructor
      · rintro ⟨⟨hj, hr⟩, h1, h2⟩
        exact ⟨hr, h1, fun _ => by omega⟩
      · rintro ⟨hr, h1, h2⟩
        exact ⟨⟨by omega, hr⟩, h1, fun _ => by omega⟩
    · have hwrite : write (.attributes skills stats i j) a r = r := by
        unfold write
        split
        · exact absurd rfl hs
        · exact absurd rfl hs'
        · rfl
      rw [hwrite, List.count_cons_of_ne hs, List.count_cons_of_ne hs', if_neg hs, if_neg hs']
      rfl
  · have hroom : ∀ d l, Condition.initial d = Condition.initial c.data → Room d l := by
      rintro d l he skills stats i j rfl
      cases hc : c.data with
      | attributes => exact absurd ⟨_, _, _, _, hc⟩ hd
      | _ =>
        rw [hc] at he
        nomatch he
    have hwrite : write c.data a r = r := by
      cases hc : c.data with
      | attributes => exact absurd ⟨_, _, _, _, hc⟩ hd
      | _ => rfl
    rw [hwrite]
    exact and_congr_right' (iff_of_true (hroom _ l (initial_unserializeProp a c b)) (hroom _ _ rfl))

/-! ### The loops -/

theorem Moves.inRange (h : Moves blob r r') : InRange r' ↔ InRange r := by
  unfold InRange
  rw [h.skills, h.stats]

theorem At.write (h : At blob r s) (d : ConditionData) (a : ConditionAttr) : At blob (write d a r) s := by
  unfold ConditionBlob.write
  split
  · exact ⟨h.le, h.drop⟩
  · exact ⟨h.le, h.drop⟩
  · exact h

theorem inside_write (d : ConditionData) (a : ConditionAttr) : Inside blob (write d a r) ↔ Inside blob r := by
  unfold ConditionBlob.write
  split
  · rfl
  · rfl
  · rfl

theorem unserializeProp_none (c : Condition) (s : List UInt8) : c.unserializeProp none s = (false, c, s) := by
  obtain ⟨id, conditionType, ticks, isBuff, subId, data⟩ := c
  cases data <;> rfl

/-- Where a loop has come to: its pointer, and what it has read and written. -/
structure Reaches (blob : List UInt8) (r r' : Cursor) (t : List UInt8) (Writes : Prop) : Prop where
  rest : At blob r' t
  inside : Inside blob r → Inside blob r'
  inRange : InRange r' ↔ InRange r ∧ Writes

/-- A turn of the loop that comes to an attribute. -/
theorem unserialize_attr {code : UInt8} (h : read blob 1 r = (some [code], r'))
    (hc : code ≠ ConditionAttr.endMark.code) (c : Condition) (fuel : ℕ) :
    unserialize blob (fuel + 1) c r =
      if (unserializeProp blob (ConditionAttr.ofCode code) c r').1 then
        unserialize blob fuel (unserializeProp blob (ConditionAttr.ofCode code) c r').2.1
          (unserializeProp blob (ConditionAttr.ofCode code) c r').2.2
      else some (false, (unserializeProp blob (ConditionAttr.ofCode code) c r').2.1,
        (unserializeProp blob (ConditionAttr.ofCode code) c r').2.2) := by
  have hne : [code] ≠ [ConditionAttr.endMark.code] := fun he => hc (List.cons.inj he).1
  rw [unserialize, h]
  dsimp only
  rw [if_neg hne]
  rfl

/-- **The loop of a condition ends**, does what it does on the bytes that are
left, and writes inside when there is room. -/
theorem unserialize_spec {c : Condition} (h : At blob r s) :
    ∃ ok c' r', (∀ fuel, s.length < fuel → unserialize blob fuel c r = some (ok, c', r')) ∧
      c.unserialize s = (ok, c', (fields (width c.data) s).2) ∧
      Reaches blob r r' (fields (width c.data) s).2 (Room c.data (fields (width c.data) s).1) := by
  induction hn : s.length using Nat.strong_induction_on generalizing c s r with
  | _ n ih =>
    subst hn
    cases s with
    | nil =>
      rw [fields]
      refine ⟨true, c, r, fun fuel hf => ?_, ?_, ⟨h, id, (and_iff_left (room_nil _)).symm⟩⟩
      · obtain ⟨k, rfl⟩ := Nat.exists_eq_succ_of_ne_zero (by omega : fuel ≠ 0)
        rw [unserialize, read_short h Nat.one_pos]
      · rw [Condition.unserialize]
    | cons code s =>
      obtain ⟨r₁, he₁, hat₁, hm₁⟩ : ∃ r', read blob 1 r = (some [code], r') ∧ At blob r' s ∧ Moves blob r r' :=
        read_spec h 1
      rw [Condition.unserialize, fields]
      by_cases hend : code = ConditionAttr.endMark.code
      · rw [if_pos hend, if_pos hend]
        refine ⟨true, c, r₁, fun fuel hf => ?_, rfl,
          ⟨hat₁, hm₁.inside, hm₁.inRange.trans (and_iff_left (room_nil _)).symm⟩⟩
        obtain ⟨k, rfl⟩ := Nat.exists_eq_succ_of_ne_zero (by omega : fuel ≠ 0)
        rw [unserialize, he₁, hend]
        rfl
      rw [if_neg hend, if_neg hend]
      -- the loop stops at the attribute
      have hstop : ∀ c' r', At blob r' s → (Inside blob r → Inside blob r') → (InRange r' ↔ InRange r) →
          unserializeProp blob (ConditionAttr.ofCode code) c r₁ = (false, c', r') →
          (∀ fuel, s.length + 1 < fuel → unserialize blob fuel c r = some (false, c', r')) ∧
            Reaches blob r r' s (Room c.data []) := by
        intro c' r' hat hi hr hp
        refine ⟨fun fuel hf => ?_, ⟨hat, hi, hr.trans (and_iff_left (room_nil _)).symm⟩⟩
        obtain ⟨k, rfl⟩ := Nat.exists_eq_succ_of_ne_zero (by omega : fuel ≠ 0)
        rw [unserialize_attr he₁ hend, hp]
        rfl
      cases hof : ConditionAttr.ofCode code with
      | none =>
        rw [hof] at hstop
        obtain ⟨h1, h2⟩ := hstop c r₁ hat₁ hm₁.inside hm₁.inRange rfl
        refine ⟨false, c, r₁, h1, ?_, h2⟩
        rw [unserializeProp_none]
        rfl
      | some a =>
        rw [hof] at hstop
        have hprop := unserializeProp_eq a c s
        unfold unserializeProp at hstop
        dsimp only at hstop ⊢
        cases hw : width c.data a with
        | none =>
          rw [hw] at hstop
          rw [hw] at hprop
          rw [hprop]
          obtain ⟨h1, h2⟩ := hstop c r₁ hat₁ hm₁.inside hm₁.inRange rfl
          exact ⟨false, c, r₁, h1, rfl, h2⟩
        | some n =>
          rw [hw] at hstop hprop
          dsimp only at hstop hprop ⊢
          by_cases hlen : s.length < n
          · rw [read_short hat₁ hlen] at hstop
            obtain ⟨h1, h2⟩ := hstop _ r₁ hat₁ hm₁.inside hm₁.inRange rfl
            have htake : Bytes.take n s = none := if_neg (by omega)
            rw [htake] at hprop
            rw [hprop, if_pos hlen]
            exact ⟨false, _, r₁, h1, rfl, h2⟩
          · have htake : Bytes.take n s = some (s.take n, s.drop n) := if_pos (by omega)
            have hread := read_spec hat₁ n
            rw [htake] at hread hprop
            rw [hprop, if_neg hlen]
            obtain ⟨r₂, he₂, hat₂, hm₂⟩ := hread
            dsimp only
            have hdrop : (s.drop n).length < (code :: s).length := by
              rw [List.length_drop, List.length_cons]
              omega
            obtain ⟨ok, c', r', h1, h2, h3⟩ := ih _ hdrop
              (c := (c.unserializeProp (some a) (s.take n)).2.1) (hat₂.write c.data a) rfl
            rw [width_unserializeProp] at h2 h3
            refine ⟨ok, c', r', fun fuel hf => ?_, h2, ⟨h3.rest, fun hi => h3.inside ?_, ?_⟩⟩
            · obtain ⟨k, rfl⟩ := Nat.exists_eq_succ_of_ne_zero (by omega : fuel ≠ 0)
              rw [unserialize_attr he₁ hend, hof]
              have hp : unserializeProp blob (some a) c r₁ =
                  (true, (c.unserializeProp (some a) (s.take n)).2.1, write c.data a r₂) := by
                unfold unserializeProp
                simp only [hw, he₂]
              rw [hp]
              rw [List.length_cons] at hf
              exact h1 k (by rw [List.length_drop]; omega)
            · exact (inside_write c.data a).2 (hm₂.inside (hm₁.inside hi))
            · refine h3.inRange.trans ((room_cons a c (s.take n) _ r₂).trans ?_)
              rw [hm₂.inRange, hm₁.inRange]

theorem records_some {c : Condition} (h : Condition.createCondition s = some (c, t)) :
    records s = (c.data, (fields (width c.data) t).1) :: records (fields (width c.data) t).2 := by
  rw [records]
  split
  · next hc =>
    rw [h] at hc
    nomatch hc
  · next hc =>
    rw [h] at hc
    obtain ⟨rfl, rfl⟩ := Prod.mk.inj (Option.some.inj hc)
    rfl

theorem records_none (h : Condition.createCondition s = none) : records s = [] := by
  rw [records]
  split
  · rfl
  · next hc =>
    rw [h] at hc
    nomatch hc

theorem loadConditions_none (stored : List Condition) (h : Condition.createCondition s = none) :
    Condition.loadConditions stored s = (stored, s) := by
  rw [Condition.loadConditions]
  split
  · next hc =>
    rw [h] at hc
    nomatch hc
  · rfl

/-- **The loop over the conditions ends**, with the conditions that are read from
the bytes that are left, and writes inside when every record has room. -/
theorem loadConditions_spec (stored : List Condition) (h : At blob r s) :
    ∃ r', (∀ fuel, s.length < fuel → loadConditions blob fuel stored r =
        some ((Condition.loadConditions stored s).1, r')) ∧
      (Inside blob r → Inside blob r') ∧
      (InRange r' ↔ InRange r ∧ ∀ record ∈ records s, Room record.1 record.2) := by
  induction hn : s.length using Nat.strong_induction_on generalizing stored s r with
  | _ n ih =>
    subst hn
    have hcreate := createCondition_spec h
    cases hc : Condition.createCondition s with
    | none =>
      rw [hc] at hcreate
      obtain ⟨r', he, hm⟩ := hcreate
      rw [records_none hc, loadConditions_none stored hc]
      refine ⟨r', fun fuel hf => ?_, hm.inside, hm.inRange.trans (and_iff_left nofun).symm⟩
      obtain ⟨k, rfl⟩ := Nat.exists_eq_succ_of_ne_zero (by omega : fuel ≠ 0)
      rw [loadConditions, he]
    | some p =>
      obtain ⟨c, t⟩ := p
      rw [hc] at hcreate
      obtain ⟨r₁, he₁, hat₁, hm₁⟩ := hcreate
      have hlen : t.length < s.length := Condition.createCondition_length hc
      have hfields := fields_length (width c.data) t
      obtain ⟨ok, c', r₂, h1, h2, h3⟩ := unserialize_spec (c := c) hat₁
      obtain ⟨r', h4, h5, h6⟩ := ih (fields (width c.data) t).2.length (by omega)
        (if ok then c' :: stored else stored) h3.rest rfl
      rw [records_some hc, Condition.loadConditions_some stored hc, h2]
      refine ⟨r', fun fuel hf => ?_, fun hi => h5 (h3.inside (hm₁.inside hi)), h6.trans ?_⟩
      · obtain ⟨k, rfl⟩ := Nat.exists_eq_succ_of_ne_zero (by omega : fuel ≠ 0)
        rw [loadConditions, he₁]
        dsimp only
        rw [h1 k (by omega)]
        exact h4 k (by omega)
      · rw [h3.inRange, hm₁.inRange, List.forall_mem_cons, and_assoc]

/-- The counters start at 0. -/
theorem createCondition_counters {c : Condition} (h : Condition.createCondition s = some (c, t))
    {skills : Fin 7 → Int32} {stats : Fin 4 → Int32} {i j : ℕ} (hd : c.data = .attributes skills stats i j) :
    i = 0 ∧ j = 0 := by
  unfold Condition.createCondition at h
  obtain ⟨type, -, h⟩ := Option.bind_eq_some_iff.1 h
  obtain ⟨id, -, h⟩ := Option.bind_eq_some_iff.1 h
  obtain ⟨ticks, -, h⟩ := Option.bind_eq_some_iff.1 h
  obtain ⟨buff, -, h⟩ := Option.bind_eq_some_iff.1 h
  obtain ⟨subId, -, h⟩ := Option.bind_eq_some_iff.1 h
  obtain ⟨c', hb, he⟩ := Option.map_eq_some_iff.1 h
  obtain ⟨rfl, -⟩ := Prod.mk.inj he
  obtain ⟨data, hdata, rfl⟩ := Option.map_eq_some_iff.1 hb
  dsimp only at hd
  subst hd
  unfold Condition.createData at hdata
  split at hdata <;> cases hdata
  exact ⟨rfl, rfl⟩

theorem records_counters {d : ConditionData} {l : List ConditionAttr} {skills : Fin 7 → Int32}
    {stats : Fin 4 → Int32} {i j : ℕ} (hd : d = .attributes skills stats i j) (h : (d, l) ∈ records s) :
    i = 0 ∧ j = 0 := by
  induction hn : s.length using Nat.strong_induction_on generalizing s with
  | _ n ih =>
    subst hn
    cases hc : Condition.createCondition s with
    | none =>
      rw [records_none hc] at h
      nomatch h
    | some p =>
      obtain ⟨c, t⟩ := p
      rw [records_some hc] at h
      obtain he | h := List.mem_cons.1 h
      · exact createCondition_counters hc ((Prod.mk.inj he).1.symm.trans hd)
      · have hlen : t.length < s.length := Condition.createCondition_length hc
        have hfields := fields_length (width c.data) t
        exact ih _ (by omega) h rfl

theorem fits_iff : Fits blob ↔ ∀ record ∈ records blob, Room record.1 record.2 := by
  constructor
  · rintro h ⟨d, l⟩ hmem skills stats i j hd
    obtain ⟨hs, hs'⟩ := h d l hmem skills stats i j hd
    obtain ⟨rfl, rfl⟩ := records_counters hd hmem
    exact ⟨fun _ => (Nat.zero_add _).trans_le hs, fun _ => (Nat.zero_add _).trans_le hs'⟩
  · intro h d l hmem skills stats i j hd
    have hroom : Room d l := h (d, l) hmem
    obtain ⟨hs, hs'⟩ := hroom skills stats i j hd
    refine ⟨?_, ?_⟩
    · by_contra hlt
      have hle := hs (by omega)
      omega
    · by_contra hlt
      have hle := hs' (by omega)
      omega

end

/-- **The loading of a blob ends with all its reads and writes inside just when
no record has more attributes than the arrays have entries.** -/
theorem safe_iff (blob : List UInt8) : Safe blob ↔ Fits blob := by
  have hat : At blob ⟨0, [], [], []⟩ blob := ⟨Nat.zero_le _, rfl⟩
  obtain ⟨r', h1, h2, h3⟩ := loadConditions_spec [] hat
  have hstart : InRange ⟨0, [], [], []⟩ := ⟨nofun, nofun⟩
  rw [fits_iff]
  constructor
  · rintro ⟨stored, r, hl, -, hr⟩
    have he := (h1 _ (Nat.lt_succ_self _)).symm.trans (hl _ (Nat.lt_succ_self _))
    obtain ⟨-, rfl⟩ := Prod.mk.inj (Option.some.inj he)
    exact (h3.1 hr).2
  · intro h
    exact ⟨_, r', h1, h2 nofun, h3.2 ⟨hstart, h⟩⟩

/-- A condition with eight skills. -/
def eightSkills : List UInt8 :=
  [1, 0, 0, 4, 0, 2, 0, 0, 0, 0, 3, 0, 0, 0, 0, 26, 0, 27, 0, 0, 0, 0] ++
    (List.replicate 8 [22, 10, 0, 0, 0]).flatten ++ [254]

/-- The eighth is written past the end of the array. -/
theorem eightSkills_unsafe : ¬ Safe eightSkills := by
  rintro ⟨stored, r, hl, -, hr, -⟩
  have hwritten : (loadConditions eightSkills 100 [] ⟨0, [], [], []⟩).map (·.2.skills) =
      some [7, 6, 5, 4, 3, 2, 1, 0] := by rfl
  rw [hl 100 (by decide)] at hwritten
  have hskills : r.skills = [7, 6, 5, 4, 3, 2, 1, 0] := Option.some.inj hwritten
  exact absurd (hr 7 (hskills ▸ List.mem_cons_self)) (by decide)

end ConditionBlob
end ForgottenServer
