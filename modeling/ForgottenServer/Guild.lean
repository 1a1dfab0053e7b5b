/-
# Guilds

A guild lists its members that are online, and a player has a pointer to his
guild. Both are changed by `setGuild`, by the login and by the logout. Guilds
live on a heap: `removeMember` deletes a guild that loses its last member, and
a method that is called on a deleted guild has no result.

`setGuild` returns early when the new guild has no rank of level 1. The pointer
is cleared by then and the old guild still lists the player, so the two sides
agree in every state just when no call takes that way out of a guild
(`roster_iff`).

Key definitions: `State`, `setGuild`, `login`, `logout`, `Roster`, `Ranked`.
Key theorems: `removeMember_spec`, `setGuild_spec`, `step_roster_iff`, `roster_iff`.
-/
import Mathlib.Tactic
import ForgottenServer.Lib.Run

namespace ForgottenServer
namespace Guilds

structure GuildRank where
  id : UInt32
  level : UInt8
  deriving DecidableEq

/-- `Player*` is a `ι`. -/
structure Guild (ι : Type) where
  id : ℕ
  ranks : List GuildRank
  membersOnline : List ι

/-- The heap of guilds with the next address, the guilds that the game knows by
their ids, and for each player `guild`, `guildLevel` and whether he is online. -/
structure State (ι : Type) where
  heap : ℕ → Option (Guild ι)
  nextGuild : ℕ
  guilds : ℕ → Option ℕ
  guild : ι → Option ℕ
  guildLevel : ι → UInt8
  online : ι → Bool

variable {ι : Type} [DecidableEq ι]

omit [DecidableEq ι] in
def Guild.getRankById (G : Guild ι) (rankId : UInt32) : Option GuildRank := G.ranks.find? (·.id = rankId)

omit [DecidableEq ι] in
def Guild.getRankByLevel (G : Guild ι) (level : UInt8) : Option GuildRank := G.ranks.find? (·.level = level)

/-- `Guild::addMember` -/
def addMember (s : State ι) (g : ℕ) (player : ι) : Option (State ι) := do
  let G ← s.heap g
  let G := { G with membersOnline := G.membersOnline ++ [player] }
  return { s with heap := Function.update s.heap g (some G) }

/-- `Guild::removeMember` -/
def removeMember (s : State ι) (g : ℕ) (player : ι) : Option (State ι) := do
  let G ← s.heap g
  let G := { G with membersOnline := G.membersOnline.filter (· ≠ player) }
  if G.membersOnline = [] then
    return { s with heap := Function.update s.heap g none, guilds := Function.update s.guilds G.id none }
  else
    return { s with heap := Function.update s.heap g (some G) }

/-- The pointer of a player and his level in the guild. -/
def State.point (s : State ι) (player : ι) (guild : Option ℕ) (level : UInt8) : State ι :=
  { s with
    guild := Function.update s.guild player guild
    guildLevel := Function.update s.guildLevel player level }

def removeFrom (s : State ι) (guild : Option ℕ) (player : ι) : Option (State ι) :=
  match guild with
  | none => some s
  | some g => removeMember s g player

/-- `Player::setGuild` -/
def setGuild (s : State ι) (player : ι) (guild : Option ℕ) : Option (State ι) :=
  if guild = s.guild player then some s
  else
    let oldGuild := s.guild player
    let s := s.point player none 0
    match guild with
    | none => removeFrom s oldGuild player
    | some g => do
      let G ← s.heap g
      match G.getRankByLevel 1 with
      | none => return s
      | some _ =>
        let s ← addMember (s.point player (some g) 1) g player
        removeFrom s oldGuild player

/-- The row of a player in `guild_membership`, and the ranks of the guild when
the database has it. -/
structure Membership where
  guildId : ℕ
  rankId : UInt32
  ranks : Option (List GuildRank)

omit [DecidableEq ι] in
/-- The guild of a row: the one that the game knows, or a new one. -/
def findGuild (s : State ι) (row : Membership) : State ι × Option ℕ :=
  match s.guilds row.guildId with
  | some g => (s, some g)
  | none =>
    match row.ranks with
    | none => (s, none)
    | some ranks =>
      ({ s with
        heap := Function.update s.heap s.nextGuild (some ⟨row.guildId, ranks, []⟩)
        nextGuild := s.nextGuild + 1
        guilds := Function.update s.guilds row.guildId (some s.nextGuild) }, some s.nextGuild)

/-- What `IOLoginData::loadPlayer` and `Player::onCreatureAppear` do about the
guild of a new player. -/
def login (s : State ι) (player : ι) (row : Option Membership) : Option (State ι) :=
  let s := { s with online := Function.update s.online player true }.point player none 0
  match row with
  | none => some s
  | some row =>
    match findGuild s row with
    | (s, none) => some s
    | (s, some g) => do
      let G ← s.heap g
      let level := match G.getRankById row.rankId with
        | some rank => rank.level
        | none => 1
      addMember (s.point player (some g) level) g player

/-- What `Player::onRemoveCreature` does about the guild. -/
def logout (s : State ι) (player : ι) : Option (State ι) :=
  (removeFrom s (s.guild player) player).map fun s =>
    { s with online := Function.update s.online player false }

inductive Action (ι : Type)
  | setGuild (player : ι) (guild : Option ℕ)
  | login (player : ι) (row : Option Membership)
  | logout (player : ι)

/-- A script has guilds that are alive and players that are online. -/
def step (s : State ι) : Action ι → Option (State ι)
  | .setGuild player guild =>
    if s.online player ∧ ∀ g ∈ guild, (s.heap g).isSome then setGuild s player guild else some s
  | .login player row => if s.online player then some s else login s player row
  | .logout player => if s.online player then logout s player else some s

omit [DecidableEq ι] in
def initial : State ι := ⟨fun _ => none, 0, fun _ => none, fun _ => none, fun _ => 0, fun _ => false⟩

/-! ### What should hold -/

/-- The two sides agree: a guild lists the online players that point to it,
each once, and no online player points to a deleted guild. -/
structure Roster (s : State ι) : Prop where
  count_eq : ∀ g G, s.heap g = some G → ∀ q,
    G.membersOnline.count q = if s.online q = true ∧ s.guild q = some g then 1 else 0
  live : ∀ q g, s.online q = true → s.guild q = some g → (s.heap g).isSome = true

/-- The game knows the guilds on the heap by their ids. -/
structure Known (s : State ι) : Prop where
  guilds_iff : ∀ id g, s.guilds id = some g ↔ ∃ G, s.heap g = some G ∧ G.id = id
  fresh : ∀ g, s.nextGuild ≤ g → s.heap g = none

/-- A player who has a guild is not moved to one without a rank of level 1. -/
def Ranked (s : State ι) : Action ι → Prop
  | .setGuild player (some g) => s.online player = true → s.guild player ≠ none →
    s.guild player ≠ some g → ∀ G, s.heap g = some G → G.getRankByLevel 1 ≠ none
  | _ => True

/-! ### How often a guild lists a player -/

section

variable {s s' : State ι} {g x : ℕ} {G : Guild ι} {p q : ι}

def listed (s : State ι) (q : ι) (g : ℕ) : ℕ :=
  match s.heap g with
  | none => 0
  | some G => G.membersOnline.count q

theorem listed_of_some (hG : s.heap g = some G) (q : ι) : listed s q g = G.membersOnline.count q := by
  unfold listed
  rw [hG]

theorem isSome_of_listed (h : listed s q g ≠ 0) : (s.heap g).isSome = true := by
  unfold listed at h
  cases hG : s.heap g with
  | some G => rfl
  | none =>
    rw [hG] at h
    exact absurd rfl h

theorem listed_congr (h : s'.heap x = s.heap x) (q : ι) : listed s' q x = listed s q x := by
  unfold listed
  rw [h]

/-- A guild that is not there lists nobody, so one equation says all. -/
theorem roster_iff_listed :
    Roster s ↔ ∀ q g, listed s q g = if s.online q = true ∧ s.guild q = some g then 1 else 0 := by
  constructor
  · intro h q g
    unfold listed
    cases hG : s.heap g with
    | some G => exact h.count_eq g G hG q
    | none =>
      refine (if_neg fun hq => ?_).symm
      have hlive := h.live q g hq.1 hq.2
      rw [hG] at hlive
      nomatch hlive
  · refine fun h => ⟨fun g G hG q => (listed_of_some hG q).symm.trans (h q g), fun q g ho hq => ?_⟩
    have hone := h q g
    rw [if_pos ⟨ho, hq⟩] at hone
    unfold listed at hone
    cases hG : s.heap g with
    | some G => rfl
    | none =>
      rw [hG] at hone
      nomatch hone

@[simp] theorem guild_point (guild : Option ℕ) (level : UInt8) :
    (s.point q guild level).guild = Function.update s.guild q guild := rfl

@[simp] theorem online_point (guild : Option ℕ) (level : UInt8) :
    (s.point q guild level).online = s.online := rfl

@[simp] theorem listed_point (guild : Option ℕ) (level : UInt8) (x : ℕ) :
    listed (s.point q guild level) p x = listed s p x := listed_congr rfl p

theorem Known.point (h : Known s) (guild : Option ℕ) (level : UInt8) : Known (s.point q guild level) :=
  ⟨h.guilds_iff, h.fresh⟩

omit [DecidableEq ι] in
theorem Known.ne_of_le (h : Known s) (hG : s.heap g = some G) (hx : s.nextGuild ≤ x) : x ≠ g := by
  rintro rfl
  nomatch hG.symm.trans (h.fresh x hx)

omit [DecidableEq ι] in
/-- A guild is exchanged for one with its id. -/
theorem Known.replace (h : Known s) (hG : s.heap g = some G) {G' : Guild ι} (hid : G'.id = G.id) :
    Known { s with heap := Function.update s.heap g (some G') } where
  guilds_iff id x := by
    rw [h.guilds_iff id x]
    by_cases hx : x = g
    · subst hx
      simp [hG, hid]
    · simp [hx]
  fresh x hx := (Function.update_of_ne (h.ne_of_le hG hx) _ _).trans (h.fresh x hx)

omit [DecidableEq ι] in
/-- A guild is deleted, and forgotten. -/
theorem Known.delete (h : Known s) (hG : s.heap g = some G) :
    Known { s with heap := Function.update s.heap g none, guilds := Function.update s.guilds G.id none } where
  guilds_iff id x := by
    have hid : s.guilds G.id = some g := (h.guilds_iff G.id g).2 ⟨G, hG, rfl⟩
    dsimp only
    by_cases hx : x = g
    · subst hx
      rw [Function.update_self]
      refine ⟨fun hs => ?_, nofun⟩
      by_cases he : id = G.id
      · subst he
        rw [Function.update_self] at hs
        nomatch hs
      · rw [Function.update_of_ne he] at hs
        obtain ⟨G', hG', rfl⟩ := (h.guilds_iff id x).1 hs
        exact absurd (congrArg Guild.id (Option.some.inj (hG'.symm.trans hG))) he
    · rw [Function.update_of_ne hx]
      by_cases he : id = G.id
      · subst he
        rw [Function.update_self]
        refine ⟨nofun, fun hs => ?_⟩
        exact absurd (Option.some.inj (((h.guilds_iff G.id x).2 hs).symm.trans hid)) hx
      · rw [Function.update_of_ne he]
        exact h.guilds_iff id x
  fresh x hx := (Function.update_of_ne (h.ne_of_le hG hx) _ _).trans (h.fresh x hx)

/-- The guilds that are there were there before, with their ids. -/
def Kept (s s' : State ι) : Prop :=
  ∀ x G', s'.heap x = some G' → ∃ G, s.heap x = some G ∧ G'.id = G.id

omit [DecidableEq ι] in
theorem Kept.refl (s : State ι) : Kept s s := fun _ G hG => ⟨G, hG, rfl⟩

omit [DecidableEq ι] in
theorem Kept.trans {s'' : State ι} (h : Kept s s') (h' : Kept s' s'') : Kept s s'' := by
  intro x G'' hG''
  obtain ⟨G', hG', hid'⟩ := h' x G'' hG''
  obtain ⟨G, hG, hid⟩ := h x G' hG'
  exact ⟨G, hG, hid'.trans hid⟩

omit [DecidableEq ι] in
theorem kept_of_update (hG : s.heap g = some G) {o : Option (Guild ι)} (ho : ∀ G' ∈ o, G'.id = G.id)
    (h : s'.heap = Function.update s.heap g o) : Kept s s' := by
  intro x G' hG'
  rw [h] at hG'
  by_cases hx : x = g
  · subst hx
    rw [Function.update_self] at hG'
    exact ⟨G, hG, ho G' hG'⟩
  · rw [Function.update_of_ne hx] at hG'
    exact ⟨G', hG', rfl⟩

theorem addMember_spec (h : Known s) (hG : s.heap g = some G) (q : ι) :
    ∃ s', addMember s g q = some s' ∧ Known s' ∧ s'.guild = s.guild ∧ s'.online = s.online ∧ Kept s s' ∧
      (∀ x, (s.heap x).isSome = true → (s'.heap x).isSome = true) ∧
      ∀ p x, listed s' p x = listed s p x + if p = q ∧ x = g then 1 else 0 := by
  unfold addMember
  rw [hG]
  refine ⟨_, rfl, h.replace hG rfl, rfl, rfl, kept_of_update hG ?_ rfl, fun x hx => ?_, fun p x => ?_⟩
  · intro G' hG'
    obtain rfl := Option.some.inj hG'
    rfl
  · by_cases hxg : x = g
    · simp [hxg]
    · simpa [hxg] using hx
  by_cases hx : x = g
  · subst hx
    rw [listed_of_some (Function.update_self ..), listed_of_some hG]
    by_cases hp : p = q
    · simp [hp]
    · simp [hp, Ne.symm hp]
  · rw [if_neg fun hpx => hx hpx.2, Nat.add_zero]
    exact listed_congr (Function.update_of_ne hx _ _) p

/-- **What `removeMember` does**: the player is not listed any more. The guild is
deleted when it lists nobody. -/
theorem removeMember_spec (h : Known s) (hG : s.heap g = some G) (q : ι) :
    ∃ s', removeMember s g q = some s' ∧ Known s' ∧ s'.guild = s.guild ∧ s'.online = s.online ∧
      Kept s s' ∧ ∀ p x, listed s' p x = if p = q ∧ x = g then 0 else listed s p x := by
  have hcount : ∀ p, (G.membersOnline.filter (· ≠ q)).count p =
      if p = q ∧ g = g then 0 else listed s p g := by
    intro p
    rw [listed_of_some hG]
    by_cases hp : p = q
    · rw [if_pos ⟨hp, rfl⟩, List.count_eq_zero]
      simp [hp]
    · rw [if_neg fun hpg => hp hpg.1]
      exact List.count_filter (by simpa using hp)
  -- the other guilds are not touched
  have hother : ∀ {s' : State ι} (p : ι) (x : ℕ), x ≠ g → s'.heap x = s.heap x →
      listed s' p x = if p = q ∧ x = g then 0 else listed s p x := by
    intro s' p x hx hs
    rw [if_neg fun hpx => hx hpx.2]
    exact listed_congr hs p
  unfold removeMember
  rw [hG]
  simp only [Option.bind_eq_bind, Option.bind_some]
  by_cases hnil : G.membersOnline.filter (· ≠ q) = []
  · rw [if_pos hnil]
    refine ⟨_, rfl, h.delete hG, rfl, rfl, kept_of_update (o := none) hG nofun rfl, fun p x => ?_⟩
    by_cases hx : x = g
    · subst hx
      rw [← hcount p, hnil, List.count_nil]
      unfold listed
      dsimp only
      rw [Function.update_self]
    · exact hother p x hx (Function.update_of_ne hx _ _)
  · rw [if_neg hnil]
    refine ⟨_, rfl, h.replace hG rfl, rfl, rfl, kept_of_update hG ?_ rfl, fun p x => ?_⟩
    · intro G' hG'
      obtain rfl := Option.some.inj hG'
      rfl
    by_cases hx : x = g
    · subst hx
      rw [← hcount p, listed_of_some (Function.update_self ..)]
    · exact hother p x hx (Function.update_of_ne hx _ _)

theorem removeFrom_spec (h : Known s) {guild : Option ℕ} (hg : ∀ g ∈ guild, (s.heap g).isSome = true)
    (q : ι) : ∃ s', removeFrom s guild q = some s' ∧ Known s' ∧ s'.guild = s.guild ∧ s'.online = s.online ∧
      Kept s s' ∧ ∀ p x, listed s' p x = if p = q ∧ guild = some x then 0 else listed s p x := by
  cases guild with
  | none => exact ⟨s, rfl, h, rfl, rfl, .refl s, fun p x => (if_neg fun hp => nomatch hp.2).symm⟩
  | some g =>
    obtain ⟨G, hG⟩ := Option.isSome_iff_exists.1 (hg g rfl)
    obtain ⟨s', he, hk, hp, ho, hkept, hl⟩ := removeMember_spec h hG q
    refine ⟨s', he, hk, hp, ho, hkept, fun p x => (hl p x).trans (if_congr ?_ rfl rfl)⟩
    rw [Option.some.injEq, eq_comm (a := x)]

/-! ### The calls -/

/-- **What `setGuild` does.** Nothing, when it is the guild that the player has.
When the new one has no rank of level 1, he loses his guild and stays listed.
Otherwise he is listed for the new one in place of the old one. -/
theorem setGuild_cases (hk : Known s) (hold : ∀ g ∈ s.guild q, (s.heap g).isSome = true) {guild : Option ℕ}
    (hg : ∀ g ∈ guild, (s.heap g).isSome = true) :
    ∃ s', setGuild s q guild = some s' ∧ Known s' ∧ s'.online = s.online ∧ Kept s s' ∧
      ((guild = s.guild q ∧ s' = s) ∨
        (guild ≠ s.guild q ∧ (∃ g G, guild = some g ∧ s.heap g = some G ∧ G.getRankByLevel 1 = none) ∧
          s' = s.point q none 0) ∨
        (guild ≠ s.guild q ∧ (∀ g G, guild = some g → s.heap g = some G → G.getRankByLevel 1 ≠ none) ∧
          s'.guild = Function.update s.guild q guild ∧
          ∀ p x, listed s' p x = (if p = q ∧ s.guild q = some x then 0 else listed s p x) +
            if p = q ∧ guild = some x then 1 else 0)) := by
  unfold setGuild
  by_cases hsame : guild = s.guild q
  · rw [if_pos hsame]
    exact ⟨s, rfl, hk, rfl, .refl s, .inl ⟨hsame, rfl⟩⟩
  · rw [if_neg hsame]
    dsimp only
    cases guild with
    | none =>
      obtain ⟨s', he, hk', hp, ho', hkept, hl⟩ := removeFrom_spec (hk.point (q := q) none 0) hold q
      refine ⟨s', he, hk', ho', hkept, .inr (.inr ⟨hsame, nofun, hp, fun p x => ?_⟩)⟩
      rw [hl, listed_point]
      simp
    | some g =>
      obtain ⟨G, hG⟩ := Option.isSome_iff_exists.1 (hg g rfl)
      have hG' : (s.point q none 0).heap g = some G := hG
      simp only [hG', Option.bind_eq_bind, Option.bind_some]
      cases hrank : G.getRankByLevel 1 with
      | none =>
        exact ⟨_, rfl, hk.point none 0, rfl, .refl s, .inr (.inl ⟨hsame, ⟨g, G, rfl, hG, hrank⟩, rfl⟩)⟩
      | some rank =>
        obtain ⟨s₁, h₁, hk₁, hp₁, ho₁, hkept₁, hthere, hl₁⟩ :=
          addMember_spec (s := (s.point q none 0).point q (some g) 1) ((hk.point none 0).point (some g) 1) hG q
        obtain ⟨s', he, hk', hp, ho', hkept, hl⟩ :=
          removeFrom_spec hk₁ (fun x hx => hthere x (hold x hx)) q
        refine ⟨s', ?_, hk', ho'.trans ho₁, hkept₁.trans hkept, .inr (.inr ⟨hsame, ?_, ?_, fun p x => ?_⟩)⟩
        · dsimp only
          rw [h₁]
          exact he
        · intro g₁ G₁ hg₁ hG₁
          obtain rfl := Option.some.inj hg₁
          rw [Option.some.inj (hG₁.symm.trans hG), hrank]
          exact nofun
        · rw [hp, hp₁, guild_point, guild_point, Function.update_idem]
        · rw [hl, hl₁, listed_point, listed_point]
          by_cases hpx : p = q ∧ s.guild q = some x
          · have hne : ¬ (p = q ∧ some g = some x) := fun h => hsame (h.2.trans hpx.2.symm)
            rw [if_pos hpx, if_pos hpx, if_neg hne]
          · rw [if_neg hpx, if_neg hpx]
            exact congrArg _ (if_congr (and_congr_right' (eq_comm.trans (Option.some.injEq g x).symm.to_iff))
              rfl rfl)

/-- The guilds that stay keep their ids. -/
def SameIds (s s' : State ι) : Prop :=
  ∀ x G G', s.heap x = some G → s'.heap x = some G' → G'.id = G.id

omit [DecidableEq ι] in
theorem Kept.sameIds (h : Kept s s') : SameIds s s' := by
  intro x G G' hG hG'
  obtain ⟨G₀, hG₀, hid⟩ := h x G' hG'
  rw [hid, Option.some.inj (hG₀.symm.trans hG)]

/-- The guild of a row is there, and lists whom it has listed. -/
theorem findGuild_spec (hk : Known s) (row : Membership) :
    Known (findGuild s row).1 ∧ (findGuild s row).1.guild = s.guild ∧
      (findGuild s row).1.online = s.online ∧ SameIds s (findGuild s row).1 ∧
      (∀ p x, listed (findGuild s row).1 p x = listed s p x) ∧
      ∀ g ∈ (findGuild s row).2, ((findGuild s row).1.heap g).isSome = true := by
  unfold findGuild
  cases hg : s.guilds row.guildId with
  | some g =>
    refine ⟨hk, rfl, rfl, (Kept.refl s).sameIds, fun _ _ => rfl, fun x hx => ?_⟩
    obtain ⟨G, hG, -⟩ := (hk.guilds_iff row.guildId g).1 hg
    obtain rfl := Option.some.inj hx
    exact Option.isSome_of_eq_some hG
  | none =>
    cases row.ranks with
    | none => exact ⟨hk, rfl, rfl, (Kept.refl s).sameIds, fun _ _ => rfl, nofun⟩
    | some ranks =>
      have hnew := hk.fresh s.nextGuild le_rfl
      refine ⟨⟨fun id x => ?_, fun x hx => ?_⟩, rfl, rfl, fun x G G' hG hG' => ?_, fun p x => ?_,
        fun x hx => ?_⟩
      · have hid := hk.guilds_iff id x
        dsimp only
        by_cases hx : x = s.nextGuild
        · subst hx
          rw [Function.update_self]
          by_cases he : id = row.guildId
          · simp [he]
          · rw [Function.update_of_ne he, hid, hnew]
            simpa using fun h => he h.symm
        · rw [Function.update_of_ne hx]
          by_cases he : id = row.guildId
          · subst he
            rw [Function.update_self, ← hid, hg]
            simpa using Ne.symm hx
          · rw [Function.update_of_ne he]
            exact hid
      · have hx : s.nextGuild + 1 ≤ x := hx
        refine (Function.update_of_ne ?_ _ _).trans (hk.fresh x ?_)
        · omega
        · omega
      · have hx : x ≠ s.nextGuild := by
          rintro rfl
          nomatch hnew.symm.trans hG
        have hsame : s.heap x = some G' := (Function.update_of_ne hx _ _).symm.trans hG'
        rw [Option.some.inj (hsame.symm.trans hG)]
      · by_cases hx : x = s.nextGuild
        · subst hx
          rw [listed_of_some (Function.update_self ..)]
          unfold listed
          rw [hnew, List.count_nil]
        · exact listed_congr (Function.update_of_ne hx _ _) p
      · obtain rfl := Option.some.inj hx
        dsimp only
        rw [Function.update_self]
        rfl

/-- **What a login does**: the player is listed once more for the guild that he
has then. -/
theorem login_cases (hk : Known s) (row : Option Membership) :
    ∃ s', login s q row = some s' ∧ Known s' ∧ s'.online = Function.update s.online q true ∧
      (∀ p, p ≠ q → s'.guild p = s.guild p) ∧ SameIds s s' ∧
      ∀ p x, listed s' p x = listed s p x + if p = q ∧ s'.guild q = some x then 1 else 0 := by
  have hk₀ : Known ({ s with online := Function.update s.online q true }.point q none 0) :=
    ⟨hk.guilds_iff, hk.fresh⟩
  have hl₀ : ∀ p x, listed ({ s with online := Function.update s.online q true }.point q none 0) p x =
      listed s p x := fun p x => listed_congr rfl p
  unfold login
  cases row with
  | none =>
    refine ⟨_, rfl, hk₀, rfl, fun p hp => Function.update_of_ne hp _ _, (Kept.refl s).sameIds, fun p x => ?_⟩
    rw [hl₀]
    simp
  | some row =>
    obtain ⟨hk₁, hp₁, ho₁, hid₁, hl₁, hg₁⟩ := findGuild_spec hk₀ row
    dsimp only
    generalize findGuild ({ s with online := Function.update s.online q true }.point q none 0) row = r
      at hk₁ hp₁ ho₁ hid₁ hl₁ hg₁ ⊢
    obtain ⟨s₁, guild⟩ := r
    dsimp only at hk₁ hp₁ ho₁ hid₁ hl₁ hg₁ ⊢
    cases guild with
    | none =>
      refine ⟨s₁, rfl, hk₁, ho₁, fun p hp => ?_, hid₁, fun p x => ?_⟩
      · rw [hp₁]
        exact Function.update_of_ne hp _ _
      · rw [hl₁, hl₀, hp₁]
        simp
    | some g =>
      obtain ⟨G, hG⟩ := Option.isSome_iff_exists.1 (hg₁ g rfl)
      dsimp only
      rw [hG]
      simp only [Option.bind_eq_bind, Option.bind_some]
      generalize (match G.getRankById row.rankId with | some rank => rank.level | none => 1 : UInt8) = level
      obtain ⟨s', he, hk', hp, ho', hkept, -, hl⟩ := addMember_spec (hk₁.point (q := q) (some g) level) hG q
      refine ⟨s', he, hk', ho'.trans ho₁, fun p hpq => ?_, fun x G₀ G' hG₀ hG' => ?_, fun p x => ?_⟩
      · rw [hp, guild_point, Function.update_of_ne hpq, hp₁]
        exact Function.update_of_ne hpq _ _
      · obtain ⟨G₁, hG₁, hid⟩ := hkept x G' hG'
        exact hid.trans (hid₁ x G₀ G₁ hG₀ hG₁)
      · rw [hl, listed_point, hl₁, hl₀, hp, guild_point, Function.update_self]
        simp [eq_comm]

/-- **What a logout does**: the player is not listed for his guild. -/
theorem logout_cases (hk : Known s) (hold : ∀ g ∈ s.guild q, (s.heap g).isSome = true) :
    ∃ s', logout s q = some s' ∧ Known s' ∧ s'.online = Function.update s.online q false ∧
      s'.guild = s.guild ∧ Kept s s' ∧
      ∀ p x, listed s' p x = if p = q ∧ s.guild q = some x then 0 else listed s p x := by
  obtain ⟨s₁, h₁, hk₁, hp₁, ho₁, hkept, hl₁⟩ := removeFrom_spec hk hold q
  unfold logout
  rw [h₁]
  refine ⟨{ s₁ with online := Function.update s₁.online q false }, rfl, ⟨hk₁.guilds_iff, hk₁.fresh⟩, ?_, hp₁,
    hkept, fun p x => (listed_congr rfl p).trans (hl₁ p x)⟩
  exact congrArg (Function.update · q false) ho₁

/-! ### The agreement -/

theorem setGuild_spec (hr : Roster s) (hk : Known s) (ho : s.online q = true) {guild : Option ℕ}
    (hg : ∀ g ∈ guild, (s.heap g).isSome = true) :
    ∃ s', setGuild s q guild = some s' ∧ Known s' ∧
      (Roster s' ↔ Ranked s (.setGuild q guild)) := by
  obtain ⟨s', he, hk', ho', -, hcases⟩ := setGuild_cases hk (fun g hg => hr.live q g ho hg) hg
  refine ⟨s', he, hk', ?_⟩
  obtain ⟨rfl, rfl⟩ | ⟨hne, ⟨g, G, rfl, hG, hrank⟩, rfl⟩ | ⟨hne, hrank, hp, hl⟩ := hcases
  · refine iff_of_true hr ?_
    cases hq : s'.guild q with
    | none => trivial
    | some g => exact fun _ _ h => absurd hq h
  · cases hq : s.guild q with
    | none =>
      -- he had no guild, and has none now
      refine iff_of_true (roster_iff_listed.2 fun p x => ?_) fun _ h => absurd hq h
      rw [listed_point, roster_iff_listed.1 hr, guild_point, online_point]
      by_cases hpq : p = q
      · subst hpq
        simp [hq]
      · simp [hpq]
    | some x =>
      -- the guild he had still lists him
      refine iff_of_false (fun h => ?_) fun h => h ho (hq ▸ nofun) (Ne.symm hne) G hG hrank
      have hone := roster_iff_listed.1 h q x
      rw [listed_point, roster_iff_listed.1 hr, if_pos ⟨ho, hq⟩, guild_point, Function.update_self,
        if_neg fun h => nomatch h.2] at hone
      nomatch hone
  · refine iff_of_true (roster_iff_listed.2 fun p x => ?_) ?_
    · rw [hl, roster_iff_listed.1 hr, hp, ho']
      by_cases hpq : p = q
      · subst hpq
        simp [ho]
      · simp [hpq]
    · cases guild with
      | none => trivial
      | some g => exact fun _ _ _ G hG => hrank g G rfl hG

theorem login_spec (hr : Roster s) (hk : Known s) (ho : s.online q = false) (row : Option Membership) :
    ∃ s', login s q row = some s' ∧ Known s' ∧ Roster s' := by
  obtain ⟨s', he, hk', ho', hp, -, hl⟩ := login_cases (q := q) hk row
  refine ⟨s', he, hk', roster_iff_listed.2 fun p x => ?_⟩
  rw [hl, roster_iff_listed.1 hr, ho']
  by_cases hpq : p = q
  · subst hpq
    simp [ho]
  · simp [hpq, hp p hpq]

theorem logout_spec (hr : Roster s) (hk : Known s) (ho : s.online q = true) :
    ∃ s', logout s q = some s' ∧ Known s' ∧ Roster s' := by
  obtain ⟨s', he, hk', ho', hp, -, hl⟩ := logout_cases hk (fun g hg => hr.live q g ho hg)
  refine ⟨s', he, hk', roster_iff_listed.2 fun p x => ?_⟩
  rw [hl, roster_iff_listed.1 hr, ho', hp]
  by_cases hpq : p = q
  · subst hpq
    simp [ho]
  · simp [hpq]

/-- **A step has a result, and keeps the agreement just when it is ranked.** -/
theorem step_roster_iff (hr : Roster s) (hk : Known s) (a : Action ι) :
    ∃ s', step s a = some s' ∧ Known s' ∧ (Roster s' ↔ Ranked s a) := by
  cases a with
  | setGuild q guild =>
    rw [step]
    split_ifs with h
    · exact setGuild_spec hr hk h.1 h.2
    · refine ⟨s, rfl, hk, iff_of_true hr ?_⟩
      cases guild with
      | none => trivial
      | some g =>
        intro ho _ _ G hG
        refine absurd ⟨ho, fun x hx => ?_⟩ h
        obtain rfl := Option.some.inj hx
        exact Option.isSome_of_eq_some hG
  | login q row =>
    rw [step]
    split_ifs with h
    · exact ⟨s, rfl, hk, iff_of_true hr trivial⟩
    · obtain ⟨s', he, hk', hr'⟩ := login_spec hr hk (Bool.eq_false_of_not_eq_true h) row
      exact ⟨s', he, hk', iff_of_true hr' trivial⟩
  | logout q =>
    rw [step]
    split_ifs with h
    · obtain ⟨s', he, hk', hr'⟩ := logout_spec hr hk h
      exact ⟨s', he, hk', iff_of_true hr' trivial⟩
    · exact ⟨s, rfl, hk, iff_of_true hr trivial⟩

theorem initial_roster : Roster (initial : State ι) := ⟨nofun, nofun⟩

omit [DecidableEq ι] in
theorem initial_known : Known (initial : State ι) where
  guilds_iff _ _ := ⟨nofun, fun ⟨_, h, _⟩ => nomatch h⟩
  fresh _ _ := rfl

/-! ### Without the condition -/

/-- An online player is listed for the guild that he points to. -/
def Present (s : State ι) : Prop := ∀ q g, s.online q = true → s.guild q = some g → listed s q g ≠ 0

theorem Present.live (h : Present s) (ho : s.online q = true) : ∀ g ∈ s.guild q, (s.heap g).isSome = true :=
  fun g hg => isSome_of_listed (h q g ho hg)

theorem initial_present : Present (initial : State ι) := nofun

omit [DecidableEq ι] in
def Action.player : Action ι → ι
  | setGuild player _ => player
  | login player _ => player
  | logout player => player

/-- **Whatever the steps**, online players are listed for their guilds, so these
are not deleted; the other players and the guilds' ids do not change. -/
theorem step_present (h : Present s) (hk : Known s) (a : Action ι) :
    ∃ s', step s a = some s' ∧ Known s' ∧ Present s' ∧ SameIds s s' ∧
      ∀ p, p ≠ a.player → s'.online p = s.online p ∧ s'.guild p = s.guild p := by
  have hstay : ∃ s', some s = some s' ∧ Known s' ∧ Present s' ∧ SameIds s s' ∧
      ∀ p, p ≠ a.player → s'.online p = s.online p ∧ s'.guild p = s.guild p :=
    ⟨s, rfl, hk, h, (Kept.refl s).sameIds, fun _ _ => ⟨rfl, rfl⟩⟩
  cases a with
  | setGuild q guild =>
    rw [step]
    split_ifs with hc
    · obtain ⟨s', he, hk', ho', hkept, hcases⟩ := setGuild_cases hk (h.live hc.1) hc.2
      refine ⟨s', he, hk', ?_⟩
      obtain ⟨-, rfl⟩ | ⟨-, -, rfl⟩ | ⟨hne, -, hp, hl⟩ := hcases
      · exact ⟨h, hkept.sameIds, fun _ _ => ⟨rfl, rfl⟩⟩
      · refine ⟨fun p x ho hg => ?_, hkept.sameIds, fun p hpq => ⟨rfl, Function.update_of_ne hpq _ _⟩⟩
        rw [guild_point] at hg
        rw [listed_point]
        by_cases hpq : p = q
        · subst hpq
          rw [Function.update_self] at hg
          nomatch hg
        · rw [Function.update_of_ne hpq] at hg
          exact h p x ho hg
      · refine ⟨fun p x ho hg => ?_, hkept.sameIds, fun p hpq => ⟨by rw [ho'], ?_⟩⟩
        · rw [hp] at hg
          rw [hl]
          by_cases hpq : p = q
          · subst hpq
            rw [Function.update_self] at hg
            simp [hg]
          · rw [Function.update_of_ne hpq] at hg
            rw [ho'] at ho
            simpa [hpq] using h p x ho hg
        · rw [hp]
          exact Function.update_of_ne hpq _ _
    · exact hstay
  | login q row =>
    rw [step]
    split_ifs with ho
    · exact hstay
    · obtain ⟨s', he, hk', ho', hp, hid, hl⟩ := login_cases (q := q) hk row
      refine ⟨s', he, hk', fun p x hop hg => ?_, hid, fun p hpq => ⟨?_, hp p hpq⟩⟩
      · rw [hl]
        by_cases hpq : p = q
        · subst hpq
          simp [hg]
        · rw [ho', Function.update_of_ne hpq] at hop
          rw [hp p hpq] at hg
          simpa [hpq] using h p x hop hg
      · rw [ho']
        exact Function.update_of_ne hpq _ _
  | logout q =>
    rw [step]
    split_ifs with ho
    · obtain ⟨s', he, hk', ho', hp, hkept, hl⟩ := logout_cases hk (h.live ho)
      refine ⟨s', he, hk', fun p x hop hg => ?_, hkept.sameIds, fun p hpq => ⟨?_, by rw [hp]⟩⟩
      · rw [ho'] at hop
        rw [hp] at hg
        have hpq : p ≠ q := by
          rintro rfl
          rw [Function.update_self] at hop
          nomatch hop
        rw [Function.update_of_ne hpq] at hop
        rw [hl, if_neg fun h => hpq h.1]
        exact h p x hop hg
      · rw [ho']
        exact Function.update_of_ne hpq _ _
    · exact hstay

omit [DecidableEq ι] in
/-- The id of a player's guild. -/
def State.guildId (s : State ι) (player : ι) : Option ℕ :=
  (s.guild player).bind fun g => (s.heap g).map Guild.id

theorem guildId_eq (h : Present s) (h' : Present s') (hid : SameIds s s') (ho : s.online q = true)
    (ho' : s'.online q = true) (hg : s'.guild q = s.guild q) : s'.guildId q = s.guildId q := by
  unfold State.guildId
  rw [hg]
  cases hq : s.guild q with
  | none => rfl
  | some g =>
    obtain ⟨G, hG⟩ := Option.isSome_iff_exists.1 (h.live ho g hq)
    obtain ⟨G', hG'⟩ := Option.isSome_iff_exists.1 (h'.live ho' g (hg.trans hq))
    rw [Option.bind_some, Option.bind_some, hG, hG', Option.map_some, Option.map_some, hid g G G' hG hG']

/-! ### Runs -/

/-- A run goes on while its steps have results. -/
def next (s : Option (State ι)) (a : Action ι) : Option (State ι) := s.bind (step · a)

/-- **The rosters agree along a run just when its steps are ranked.** From no
guilds and nobody online, any logins, logouts and calls of `setGuild`. -/
theorem roster_iff (actions : List (Action ι)) :
    Run.Along next (fun s a => ∃ s', next s a = some s' ∧ Roster s') (some initial) actions ↔
      Run.Along next (fun s a => ∀ s', s = some s' → Ranked s' a) (some initial) actions := by
  apply Run.along_congr (I := fun s => ∃ s' : State ι, s = some s' ∧ Roster s' ∧ Known s')
  · rintro _ a ⟨s, rfl, hr, hk⟩ ⟨s', hs, hr'⟩
    obtain ⟨s'', hs'', hk', -⟩ := step_roster_iff hr hk a
    have hs : step s a = some s' := hs
    obtain rfl := Option.some.inj (hs.symm.trans hs'')
    exact ⟨s', hs, hr', hk'⟩
  · rintro _ a ⟨s, rfl, hr, hk⟩
    obtain ⟨s', hs, -, hiff⟩ := step_roster_iff hr hk a
    constructor
    · rintro ⟨s'', hs'', hr''⟩ s₀ h₀
      obtain rfl := Option.some.inj h₀
      have hs'' : step s a = some s'' := hs''
      obtain rfl := Option.some.inj (hs''.symm.trans hs)
      exact hiff.1 hr''
    · intro h
      exact ⟨s', hs, hiff.2 (h s rfl)⟩
  · exact ⟨initial, rfl, initial_roster, initial_known⟩

end

/-- Two players log in, each to a guild, the second one without ranks. The
first is then moved to the guild of the second. -/
def moved : List (Action ℕ) :=
  [.login 0 (some ⟨10, 1, some [⟨1, 1⟩]⟩), .login 1 (some ⟨20, 1, some []⟩), .setGuild 0 (some 1)]

/-- The guild that was left still lists the player. -/
theorem left_but_listed :
    ¬ Run.Along next (fun s a => ∃ s', next s a = some s' ∧ Roster s') (some initial) moved := by
  rintro ⟨-, -, ⟨s', hs, hr⟩, -⟩
  have hlisted : ∀ s ∈ next (Run.run next (some initial) (moved.take 2)) (.setGuild 0 (some 1)),
      listed s 0 0 = 1 ∧ s.guild 0 = none := by
    intro s h
    obtain rfl := Option.some.inj h
    exact ⟨rfl, rfl⟩
  obtain ⟨hone, hnone⟩ := hlisted s' hs
  have hzero := roster_iff_listed.1 hr 0 0
  rw [hone, hnone, if_neg fun h => nomatch h.2] at hzero
  nomatch hzero

end Guilds
end ForgottenServer
