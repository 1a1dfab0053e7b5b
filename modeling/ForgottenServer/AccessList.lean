/-
# Access lists of houses

The owner of a house writes a list of lines, each of them a name, the name of a
guild behind `@`, or a pattern with `*` and `?`, which lets in those whose name
it matches or, behind `!`, keeps them out. `parseList` makes regular expressions
of the patterns, those of `!` at the front of a list and the others at its end,
and the first that matches a name decides.

A pattern is passed over if it stands in `expressionList`, to take in each only
once. But that list holds the texts of the regular expressions, so that a pattern
which looks like the expression of another is lost, if it comes after it.

Key definitions: `parseList`, `isInList`, `Listed`, `remaining`, `Settled`.
Key theorems: `addExpression_eq`, `isInList_iff_remaining`, `isInList_iff`,
`settled_of_plain_name`.
-/
import ForgottenServer.Delivery
import ForgottenServer.Lib.Wildcard

namespace ForgottenServer

namespace Tools

/-! ### The tools for texts -/

/-- `str.find(sought, start)` -/
def find (str sought : Bytes) (start : ℕ) : Option ℕ :=
  (List.range' start (str.length + 1 - start)).find? fun pos => sought.isPrefixOf (str.drop pos)

/-- The loop of `replaceString`. -/
def replaceLoop (sought replacement : Bytes) : ℕ → Bytes → ℕ → Bytes
  | 0, str, _ => str
  | fuel + 1, str, start =>
    match find str sought start with
    | none => str
    | some pos =>
      let str := str.take pos ++ replacement ++ str.drop (pos + sought.length)
      replaceLoop sought replacement fuel str (pos + replacement.length)

/-- Each round passes over a sign of the string, if `sought` has one. -/
def replaceString (str sought replacement : Bytes) : Bytes := replaceLoop sought replacement (str.length + 1) str 0

def trim_right (source : Bytes) (t : UInt8) : Bytes := (source.reverse.dropWhile (· = t)).reverse

def trim_left (source : Bytes) (t : UInt8) : Bytes := source.dropWhile (· = t)

/-- `tolower`, in the C locale. -/
def tolower (c : UInt8) : UInt8 := if 65 ≤ c ∧ c ≤ 90 then c + 32 else c

def toLowerCaseString (source : Bytes) : Bytes := source.map tolower

end Tools

open IOLoginData (trimString lines)
open Tools
open Wildcard (Regex regexMatch metachars rewrite)

/-! ### The model -/

/-- What the names in a list are looked up in: the players in the game by their
lower-case names, and the players and the guilds in the database. -/
structure Names where
  mappedPlayerNames : Bytes → Option UInt32
  guidByName : Bytes → UInt32
  guildIdByName : Bytes → UInt32

/-- `Game::getPlayerByName`, the GUID of the player. -/
def Names.getPlayerByName (W : Names) (s : Bytes) : Option UInt32 :=
  if s = [] then none else W.mappedPlayerNames (toLowerCaseString s)

structure AccessList where
  list : Bytes
  playerList : Finset UInt32
  guildList : Finset UInt32
  expressionList : List Bytes
  regExList : List (Regex × Bool)

namespace AccessList

/-- `Player`: `getName`, `getGUID`, and the id of `getGuild`. -/
structure Visitor where
  name : Bytes
  guid : UInt32
  guild : Option UInt32

def addPlayer (W : Names) (a : AccessList) (name : Bytes) : AccessList :=
  match W.getPlayerByName name with
  | some guid => { a with playerList := insert guid a.playerList }
  | none =>
    let guid := W.guidByName name
    if guid ≠ 0 then { a with playerList := insert guid a.playerList } else a

def addGuild (W : Names) (a : AccessList) (name : Bytes) : AccessList :=
  let guildId := W.guildIdByName name
  if guildId ≠ 0 then { a with guildList := insert guildId a.guildList } else a

/-- The loop over the expression, and the two calls of `replaceString`. -/
def outExp (expression : Bytes) : Bytes :=
  let escaped := expression.flatMap fun c => if c ∈ metachars then ['\\'.toUInt8, c] else [c]
  replaceString (replaceString escaped ['*'.toUInt8] ['.'.toUInt8, '*'.toUInt8]) ['?'.toUInt8]
    ['.'.toUInt8, '?'.toUInt8]

/-- A text that is no regular expression throws, and is caught. -/
def addExpression (a : AccessList) (expression : Bytes) : AccessList :=
  if expression ∈ a.expressionList then a
  else
    let outExp := outExp expression
    if outExp = [] then a
    else
      let a := { a with expressionList := a.expressionList ++ [outExp] }
      if outExp.head? = some '!'.toUInt8 then
        if 1 < outExp.length then
          match Wildcard.parse outExp.tail with
          | some regex => { a with regExList := (regex, false) :: a.regExList }
          | none => a
        else a
      else
        match Wildcard.parse outExp with
        | some regex => { a with regExList := a.regExList ++ [(regex, true)] }
        | none => a

/-- The trims of a line. -/
def trimLine (line : Bytes) : Bytes := trimString (trim_right (trim_left (trimString line) 9) 9)

def isExpression (line : Bytes) : Bool :=
  '!'.toUInt8 ∈ line ∨ '*'.toUInt8 ∈ line ∨ '?'.toUInt8 ∈ line

/-- The body of the loop over the lines. -/
def parseLine (W : Names) (a : AccessList) (line : Bytes) : AccessList :=
  let line := trimLine line
  if line = [] ∨ line.head? = some '#'.toUInt8 ∨ 100 < line.length then a
  else
    let line := toLowerCaseString line
    if '@'.toUInt8 ∈ line then addGuild W a (line.dropWhile (· ≠ '@'.toUInt8)).tail
    else if isExpression line then addExpression a line
    else addPlayer W a line

def parseList (W : Names) (list : Bytes) : AccessList :=
  let a : AccessList := { list := list, playerList := ∅, guildList := ∅, expressionList := [], regExList := [] }
  if list = [] then a else (lines list).foldl (parseLine W) a

def isInList (a : AccessList) (player : Visitor) : Bool :=
  let name := toLowerCaseString player.name
  match a.regExList.find? fun it => regexMatch it.1 name with
  | some it => it.2
  | none => player.guid ∈ a.playerList ∨ ∃ id ∈ player.guild, id ∈ a.guildList

/-! ### What a list says -/

/-- The lines that count, in lower case. -/
def readLines (text : Bytes) : List Bytes :=
  (((lines text).map trimLine).filter fun line =>
    ¬ (line = [] ∨ line.head? = some '#'.toUInt8 ∨ 100 < line.length)).map toLowerCaseString

section Meaning

variable (W : Names) (player : Visitor)

/-- A line with `!` at its front, and a pattern behind it that matches the name. -/
def Denies (line : Bytes) : Prop :=
  '@'.toUInt8 ∉ line ∧ line.head? = some '!'.toUInt8 ∧ line.tail ≠ [] ∧
    toLowerCaseString player.name ∈ Wildcard.language line.tail

/-- A pattern that matches the name. -/
def Admits (line : Bytes) : Prop :=
  '@'.toUInt8 ∉ line ∧ isExpression line ∧ line.head? ≠ some '!'.toUInt8 ∧
    toLowerCaseString player.name ∈ Wildcard.language line

/-- A line with the name of the player, who is in the game or in the database. -/
def NamesPlayer (line : Bytes) : Prop :=
  '@'.toUInt8 ∉ line ∧ ¬ isExpression line ∧
    (W.getPlayerByName line = some player.guid ∨
      W.getPlayerByName line = none ∧ W.guidByName line = player.guid ∧ player.guid ≠ 0)

/-- A line with the name of the player's guild behind `@`. -/
def NamesGuild (line : Bytes) : Prop :=
  '@'.toUInt8 ∈ line ∧ ∃ id ∈ player.guild, id ≠ 0 ∧
    W.guildIdByName (line.dropWhile (· ≠ '@'.toUInt8)).tail = id

/-- A line that lets the player in. -/
def Favours (line : Bytes) : Prop := Admits player line ∨ NamesPlayer W player line ∨ NamesGuild W player line

/-- What some lines say about a player, in whichever order they stand. -/
def Listed (ls : List Bytes) : Prop := (∀ line ∈ ls, ¬ Denies player line) ∧ ∃ line ∈ ls, Favours W player line

instance (line : Bytes) : Decidable (Denies player line) := inferInstanceAs (Decidable (_ ∧ _ ∧ _ ∧ _))

instance (line : Bytes) : Decidable (Admits player line) := inferInstanceAs (Decidable (_ ∧ _ ∧ _ ∧ _))

instance (line : Bytes) : Decidable (NamesPlayer W player line) := inferInstanceAs (Decidable (_ ∧ _ ∧ (_ ∨ _)))

instance (line : Bytes) : Decidable (NamesGuild W player line) := inferInstanceAs (Decidable (_ ∧ _))

instance (line : Bytes) : Decidable (Favours W player line) := inferInstanceAs (Decidable (_ ∨ _ ∨ _))

instance (ls : List Bytes) : Decidable (Listed W player ls) := inferInstanceAs (Decidable (_ ∧ _))

end Meaning

/-- The lines that are not lost: an expression is, if it looks like what was
written for one before. -/
def remaining : List Bytes → List Bytes → List Bytes
  | _, [] => []
  | written, line :: ls =>
    if '@'.toUInt8 ∉ line ∧ isExpression line then
      if line ∈ written then remaining written ls else line :: remaining (written ++ [rewrite line]) ls
    else line :: remaining written ls

/-! ### The texts of the expressions -/

section Texts

variable {c : UInt8} {done pre rest replacement : Bytes}

theorem isPrefixOf_drop {str : Bytes} {pos : ℕ} : [c].isPrefixOf (str.drop pos) = true ↔ str[pos]? = some c := by
  cases h : str.drop pos with
  | nil =>
    have hnone : str[pos]? = none := by rw [List.getElem?_eq_none_iff, ← List.drop_eq_nil_iff, h]
    simp [hnone]
  | cons d tail =>
    have hsome : str[pos]? = some d := by rw [← List.head?_drop, h, List.head?_cons]
    rw [hsome, List.isPrefixOf, Bool.and_eq_true, beq_iff_eq, Option.some_inj, eq_comm]
    exact and_iff_left rfl

/-- The first place of a sign behind some others. -/
theorem find_eq (hpre : c ∉ pre) :
    find (done ++ (pre ++ c :: rest)) [c] done.length = some (done.length + pre.length) := by
  rw [find, List.find?_range'_eq_some]
  refine ⟨?_, ?_, fun pos hdone hpos => ?_⟩
  · rw [isPrefixOf_drop, List.getElem?_append_right (by omega), Nat.add_sub_cancel_left,
      List.getElem?_append_right le_rfl, Nat.sub_self]
    rfl
  · rw [List.mem_range'_1, List.length_append, List.length_append, List.length_cons]
    omega
  · rw [Bool.not_eq_true', ← Bool.not_eq_true, isPrefixOf_drop, List.getElem?_append_right hdone,
      List.getElem?_append_left (by omega)]
    exact fun h => hpre (List.mem_of_getElem? h)

theorem find_eq_none (hpre : c ∉ pre) : find (done ++ pre) [c] done.length = none := by
  rw [find, List.find?_range'_eq_none]
  intro pos hdone _
  rw [Bool.not_eq_true', ← Bool.not_eq_true, isPrefixOf_drop, List.getElem?_append_right hdone]
  exact fun h => hpre (List.mem_of_getElem? h)

/-- The string with a sign replaced. -/
theorem flatMap_of_notMem (h : c ∉ pre) : (pre.flatMap fun d => if d = c then replacement else [d]) = pre := by
  have hsame : (pre.flatMap fun d => if d = c then replacement else [d]) = pre.flatMap fun d => [d] :=
    List.flatMap_congr fun d hd => if_neg fun hdc : d = c => h (hdc ▸ hd)
  rw [hsame, List.flatMap_singleton']

/-- The rest of the string, with the sign replaced. -/
theorem replaceLoop_eq : ∀ (fuel : ℕ) (done rest : Bytes), rest.length < fuel →
    replaceLoop [c] replacement fuel (done ++ rest) done.length =
      done ++ rest.flatMap fun d => if d = c then replacement else [d]
  | 0, _, _, h => absurd h (Nat.not_lt_zero _)
  | fuel + 1, done, rest, h => by
    by_cases hc : c ∈ rest
    · obtain ⟨pre, post, rfl, hpre⟩ := List.eq_append_cons_of_mem hc
      have hpost : post.length < fuel := by
        rw [List.length_append, List.length_cons] at h
        omega
      have hbefore : (done ++ (pre ++ c :: post)).take (done.length + pre.length) = done ++ pre := by
        rw [← List.length_append, ← List.append_assoc, List.take_left]
      have hbehind : (done ++ (pre ++ c :: post)).drop (done.length + pre.length + [c].length) = post := by
        rw [List.length_singleton, ← List.length_append, ← List.append_assoc, ← List.drop_drop, List.drop_left]
        rfl
      have hplace : done.length + pre.length + replacement.length = (done ++ pre ++ replacement).length := by
        rw [List.length_append, List.length_append]
      rw [replaceLoop, find_eq hpre]
      dsimp only
      rw [hbefore, hbehind, hplace, replaceLoop_eq fuel _ _ hpost, List.flatMap_append, List.flatMap_cons,
        flatMap_of_notMem hpre, if_pos rfl, List.append_assoc, List.append_assoc]
    · rw [replaceLoop, find_eq_none hc, flatMap_of_notMem hc]

theorem replaceString_eq (str replacement : Bytes) (c : UInt8) :
    replaceString str [c] replacement = str.flatMap fun d => if d = c then replacement else [d] :=
  replaceLoop_eq _ [] str (Nat.lt_succ_self _)

/-- What is written for an expression. -/
theorem outExp_eq (expression : Bytes) : outExp expression = rewrite expression := by
  rw [outExp, replaceString_eq, replaceString_eq, List.flatMap_assoc, List.flatMap_assoc, rewrite]
  refine List.flatMap_congr fun c _ => ?_
  unfold Wildcard.rewriteSign
  by_cases hstar : c = '*'.toUInt8
  · subst hstar
    decide
  by_cases hquestion : c = '?'.toUInt8
  · subst hquestion
    decide
  rw [if_neg hstar, if_neg hquestion]
  have hescape : '\\'.toUInt8 ≠ '*'.toUInt8 ∧ '\\'.toUInt8 ≠ '?'.toUInt8 := by decide
  by_cases hmeta : c ∈ metachars
  · rw [if_pos hmeta]
    simp [hstar, hquestion, hescape]
  · rw [if_neg hmeta]
    simp [hstar, hquestion]

end Texts

section Expressions

variable {a : AccessList} {c : UInt8} {expression : Bytes}

theorem rewrite_deny (expression : Bytes) :
    rewrite ('!'.toUInt8 :: expression) = '!'.toUInt8 :: rewrite expression := by
  have hsign : Wildcard.rewriteSign '!'.toUInt8 = ['!'.toUInt8] := by decide
  rw [Wildcard.rewrite_cons, hsign]
  rfl

/-- Only of an expression with `!` at its front is what is written. -/
theorem head?_rewrite (hc : c ≠ '!'.toUInt8) (expression : Bytes) :
    (rewrite (c :: expression)).head? ≠ some '!'.toUInt8 := by
  rw [Wildcard.rewrite_cons]
  rcases Wildcard.rewriteSign_cases c with h | h | h
  · rw [h]
    exact fun e => absurd (Option.some.inj e) (by decide)
  · rw [h]
    exact fun e => absurd (Option.some.inj e) (by decide)
  · rw [h]
    exact fun e => hc (Option.some.inj e)

theorem rewrite_eq_nil : rewrite expression = [] ↔ expression = [] := by
  cases expression with
  | nil => exact Iff.rfl
  | cons c expression =>
    rw [Wildcard.rewrite_cons]
    rcases Wildcard.rewriteSign_cases c with h | h | h <;> simp [h]

/-- The expression is taken in: before the others if it denies, and behind them
if it admits. -/
theorem addExpression_eq (hnew : expression ∉ a.expressionList) (hne : expression ≠ []) :
    addExpression a expression =
      { a with
        expressionList := a.expressionList ++ [rewrite expression]
        regExList :=
          if expression.head? = some '!'.toUInt8 then
            if expression.tail = [] then a.regExList
            else (expression.tail.map Wildcard.pieceOf, false) :: a.regExList
          else a.regExList ++ [(expression.map Wildcard.pieceOf, true)] } := by
  unfold addExpression
  rw [if_neg hnew, outExp_eq]
  dsimp only
  rw [if_neg (mt rewrite_eq_nil.1 hne)]
  cases expression with
  | nil => exact absurd rfl hne
  | cons c expression =>
    by_cases hc : c = '!'.toUInt8
    · subst hc
      rw [rewrite_deny, List.head?_cons, List.head?_cons, if_pos rfl, if_pos rfl, List.tail_cons, List.tail_cons,
        Wildcard.parse_rewrite]
      by_cases hnil : expression = []
      · subst hnil
        rfl
      · have hlen : 1 < ('!'.toUInt8 :: rewrite expression).length := by
          rw [List.length_cons]
          exact Nat.succ_lt_succ (List.length_pos_iff.2 (mt rewrite_eq_nil.1 hnil))
        rw [if_pos hlen, if_neg hnil]
    · have hhead : (c :: expression).head? ≠ some '!'.toUInt8 := fun e => hc (Option.some.inj e)
      rw [if_neg (head?_rewrite hc expression), if_neg hhead, Wildcard.parse_rewrite]

end Expressions

/-! ### The result of a list -/

section Run

variable {W : Names} {player : Visitor} {a : AccessList} {line : Bytes} {ls : List Bytes}

/-- Some regular expression of the list matches, and denies or admits. -/
def Matches (a : AccessList) (name : Bytes) (admits : Bool) : Prop :=
  ∃ it ∈ a.regExList, it.2 = admits ∧ regexMatch it.1 name = true

/-- What denies stands before what admits. -/
def Sorted (a : AccessList) : Prop := a.regExList.Pairwise fun x y => x.2 = true → y.2 = true

/-- Any match that denies decides, and else one that admits. -/
theorem isInList_iff_of_sorted (h : Sorted a) : isInList a player = true ↔
    ¬ Matches a (toLowerCaseString player.name) false ∧
      (Matches a (toLowerCaseString player.name) true ∨ player.guid ∈ a.playerList ∨
        ∃ id ∈ player.guild, id ∈ a.guildList) := by
  unfold isInList
  dsimp only
  split
  · next it hfind =>
    obtain ⟨hmatch, before, behind, hlist, hbefore⟩ := List.find?_eq_some_iff_append.1 hfind
    have hmem : it ∈ a.regExList := by
      rw [hlist]
      exact List.mem_append_right before List.mem_cons_self
    cases hit : it.2 with
    | false => exact ⟨fun e => (by cases e), fun hn => absurd ⟨it, hmem, hit, hmatch⟩ hn.1⟩
    | true =>
      refine ⟨fun _ => ⟨?_, .inl ⟨it, hmem, hit, hmatch⟩⟩, fun _ => rfl⟩
      rintro ⟨other, hother, hdenies, hmatches⟩
      rw [Sorted, hlist, List.pairwise_append, List.pairwise_cons] at h
      rw [hlist] at hother
      rcases List.mem_append.1 hother with hother | hother
      · exact absurd hmatches (by simpa using hbefore other hother)
      · rcases List.mem_cons.1 hother with rfl | hother
        · rw [hit] at hdenies
          cases hdenies
        · rw [h.2.1.1 other hother hit] at hdenies
          cases hdenies
  · next hfind =>
    have hnone (b : Bool) : ¬ Matches a (toLowerCaseString player.name) b := by
      rintro ⟨it, hit, -, hmatches⟩
      exact List.find?_eq_none.1 hfind it hit hmatches
    rw [decide_eq_true_iff]
    exact ⟨fun h => ⟨hnone false, .inr h⟩, fun h => h.2.resolve_left (hnone true)⟩

/-- The list holds what some lines say about the player. -/
structure Holds (W : Names) (player : Visitor) (a : AccessList) (ls : List Bytes) : Prop where
  sorted : Sorted a
  denies : Matches a (toLowerCaseString player.name) false ↔ ∃ line ∈ ls, Denies player line
  admits : Matches a (toLowerCaseString player.name) true ↔ ∃ line ∈ ls, Admits player line
  players : player.guid ∈ a.playerList ↔ ∃ line ∈ ls, NamesPlayer W player line
  guilds : (∃ id ∈ player.guild, id ∈ a.guildList) ↔ ∃ line ∈ ls, NamesGuild W player line

theorem exists_mem_concat {P : Bytes → Prop} : (∃ l ∈ ls ++ [line], P l) ↔ (∃ l ∈ ls, P l) ∨ P line := by
  simp only [List.mem_append, List.mem_singleton, or_and_right, exists_or, exists_eq_left]

/-- A line that says nothing of some kind. -/
theorem exists_mem_concat_of_not {P : Bytes → Prop} (h : ¬ P line) : (∃ l ∈ ls ++ [line], P l) ↔ ∃ l ∈ ls, P l := by
  rw [exists_mem_concat, or_iff_left h]

namespace Holds

theorem isInList_iff_listed (h : Holds W player a ls) : isInList a player = true ↔ Listed W player ls := by
  rw [isInList_iff_of_sorted h.sorted, h.denies, h.admits, h.players, h.guilds]
  unfold Listed Favours
  simp only [and_or_left, exists_or]
  push Not
  rfl

/-- A line that is no pattern leaves the expressions. -/
theorem of_regExList {a' : AccessList} (h : Holds W player a ls) (hlist : a'.regExList = a.regExList)
    (hdenies : ¬ Denies player line) (hadmits : ¬ Admits player line)
    (hplayers : player.guid ∈ a'.playerList ↔ ∃ l ∈ ls ++ [line], NamesPlayer W player l)
    (hguilds : (∃ id ∈ player.guild, id ∈ a'.guildList) ↔ ∃ l ∈ ls ++ [line], NamesGuild W player l) :
    Holds W player a' (ls ++ [line]) := by
  refine ⟨?_, ?_, ?_, hplayers, hguilds⟩
  · rw [Sorted, hlist]
    exact h.sorted
  · rw [exists_mem_concat_of_not hdenies, ← h.denies, Matches, hlist]
    rfl
  · rw [exists_mem_concat_of_not hadmits, ← h.admits, Matches, hlist]
    rfl

theorem addGuild (h : Holds W player a ls) (hat : '@'.toUInt8 ∈ line) :
    Holds W player (addGuild W a (line.dropWhile (· ≠ '@'.toUInt8)).tail) (ls ++ [line]) := by
  have hdenies : ¬ Denies player line := fun hn => hn.1 hat
  have hadmits : ¬ Admits player line := fun hn => hn.1 hat
  have hnames : ¬ NamesPlayer W player line := fun hn => hn.1 hat
  set name := (line.dropWhile (· ≠ '@'.toUInt8)).tail with hname
  have hguild : NamesGuild W player line ↔ ∃ id ∈ player.guild, id ≠ 0 ∧ W.guildIdByName name = id := by
    rw [NamesGuild, ← hname]
    exact and_iff_right hat
  have hguilds : (∃ id ∈ player.guild, id ∈ (AccessList.addGuild W a name).guildList) ↔
      ∃ l ∈ ls ++ [line], NamesGuild W player l := by
    rw [exists_mem_concat, ← h.guilds, hguild, AccessList.addGuild]
    split
    · next hid =>
      simp only [Finset.mem_insert, and_or_left, exists_or]
      rw [or_comm]
      refine or_congr_right (exists_congr fun id => and_congr_right fun _ => ⟨?_, ?_⟩)
      · rintro rfl
        exact ⟨hid, rfl⟩
      · rintro ⟨-, rfl⟩
        rfl
    · next hid =>
      rw [not_not] at hid
      refine (or_iff_left ?_).symm
      rintro ⟨id, -, hne, rfl⟩
      exact hne hid
  have hlists : (AccessList.addGuild W a name).regExList = a.regExList ∧
      (AccessList.addGuild W a name).playerList = a.playerList := by
    unfold AccessList.addGuild
    dsimp only
    split
    · exact ⟨rfl, rfl⟩
    · exact ⟨rfl, rfl⟩
  refine h.of_regExList hlists.1 hdenies hadmits ?_ hguilds
  rw [exists_mem_concat_of_not hnames, ← h.players, hlists.2]

theorem addPlayer (h : Holds W player a ls) (hat : '@'.toUInt8 ∉ line) (hexpression : ¬ isExpression line) :
    Holds W player (addPlayer W a line) (ls ++ [line]) := by
  have hdenies : ¬ Denies player line := by
    rintro ⟨-, hhead, -⟩
    exact hexpression (decide_eq_true (.inl (List.mem_of_head? hhead)))
  have hadmits : ¬ Admits player line := fun hn => hexpression hn.2.1
  have hguild : ¬ NamesGuild W player line := fun hn => hat hn.1
  have hplayers : player.guid ∈ (AccessList.addPlayer W a line).playerList ↔
      ∃ l ∈ ls ++ [line], NamesPlayer W player l := by
    rw [exists_mem_concat, ← h.players, AccessList.addPlayer]
    unfold NamesPlayer
    rw [and_iff_right hat, and_iff_right hexpression]
    cases W.getPlayerByName line with
    | some guid => simp [or_comm, eq_comm]
    | none =>
      dsimp only
      split
      · next hid =>
        rw [Finset.mem_insert, or_comm]
        refine or_congr_right ⟨fun e => .inr ⟨rfl, e.symm, e ▸ hid⟩, ?_⟩
        rintro (e | ⟨-, e, -⟩)
        · cases e
        · exact e.symm
      · next hid =>
        rw [not_not] at hid
        refine (or_iff_left ?_).symm
        rintro (e | ⟨-, e, hne⟩)
        · cases e
        · exact hne (e.symm.trans hid)
  have hlists : (AccessList.addPlayer W a line).regExList = a.regExList ∧
      (AccessList.addPlayer W a line).guildList = a.guildList := by
    unfold AccessList.addPlayer
    split
    · exact ⟨rfl, rfl⟩
    · dsimp only
      split
      · exact ⟨rfl, rfl⟩
      · exact ⟨rfl, rfl⟩
  refine h.of_regExList hlists.1 hdenies hadmits hplayers ?_
  rw [exists_mem_concat_of_not hguild, ← h.guilds, hlists.2]

theorem addExpression (h : Holds W player a ls) (hat : '@'.toUInt8 ∉ line) (hexpression : isExpression line)
    (hnew : line ∉ a.expressionList) : Holds W player (addExpression a line) (ls ++ [line]) := by
  have hnames : ¬ NamesPlayer W player line := fun hn => hn.2.1 hexpression
  have hguild : ¬ NamesGuild W player line := fun hn => hat hn.1
  have hne : line ≠ [] := by
    rintro rfl
    exact absurd hexpression (by decide)
  have hplayers : player.guid ∈ a.playerList ↔ ∃ l ∈ ls ++ [line], NamesPlayer W player l := by
    rw [exists_mem_concat_of_not hnames, ← h.players]
  have hguilds : (∃ id ∈ player.guild, id ∈ a.guildList) ↔ ∃ l ∈ ls ++ [line], NamesGuild W player l := by
    rw [exists_mem_concat_of_not hguild, ← h.guilds]
  rw [addExpression_eq hnew hne]
  by_cases hhead : line.head? = some '!'.toUInt8
  · have hadmits : ¬ Admits player line := fun hn => hn.2.2.1 hhead
    simp only [if_pos hhead]
    by_cases htail : line.tail = []
    · -- a lone `!` has no pattern
      have hdenies : ¬ Denies player line := fun hn => hn.2.2.1 htail
      exact h.of_regExList (if_pos htail) hdenies hadmits hplayers hguilds
    · have hdenies : Denies player line ↔
          regexMatch (line.tail.map Wildcard.pieceOf) (toLowerCaseString player.name) = true := by
        rw [Wildcard.matches_iff, Denies, and_iff_right hat, and_iff_right hhead, and_iff_right htail]
      rw [if_neg htail]
      refine ⟨?_, ?_, ?_, hplayers, hguilds⟩
      · exact List.pairwise_cons.2 ⟨fun _ _ e => (by cases e), h.sorted⟩
      · rw [exists_mem_concat, ← h.denies, hdenies, or_comm]
        simp [Matches]
      · rw [exists_mem_concat_of_not hadmits, ← h.admits]
        simp [Matches]
  · have hdenies : ¬ Denies player line := fun hn => hhead hn.2.1
    have hadmits : Admits player line ↔
        regexMatch (line.map Wildcard.pieceOf) (toLowerCaseString player.name) = true := by
      rw [Wildcard.matches_iff, Admits, and_iff_right hat, and_iff_right hexpression, and_iff_right hhead]
    rw [if_neg hhead]
    refine ⟨?_, ?_, ?_, hplayers, hguilds⟩
    · refine List.pairwise_append.2 ⟨h.sorted, List.pairwise_singleton _ _, fun _ _ y hy _ => ?_⟩
      rw [List.mem_singleton.1 hy]
    · rw [exists_mem_concat_of_not hdenies, ← h.denies]
      simp [Matches, or_and_right, exists_or]
    · rw [exists_mem_concat, ← h.admits, hadmits]
      simp [Matches, or_and_right, exists_or]

end Holds

/-- The body of the loop for a line that counts. -/
def takeLine (W : Names) (a : AccessList) (line : Bytes) : AccessList :=
  if '@'.toUInt8 ∈ line then addGuild W a (line.dropWhile (· ≠ '@'.toUInt8)).tail
  else if isExpression line then addExpression a line
  else addPlayer W a line

theorem foldl_parseLine (raws : List Bytes) (a : AccessList) :
    raws.foldl (parseLine W) a =
      (((raws.map trimLine).filter fun line =>
        ¬ (line = [] ∨ line.head? = some '#'.toUInt8 ∨ 100 < line.length)).map
          toLowerCaseString).foldl (takeLine W) a := by
  induction raws generalizing a with
  | nil => rfl
  | cons raw raws ih =>
    rw [List.foldl_cons, ih, List.map_cons, parseLine]
    dsimp only
    split
    · next hskip => rw [List.filter_cons_of_neg (by rw [decide_eq_true_iff, not_not]; exact hskip)]
    · next hskip =>
      rw [List.filter_cons_of_pos (by rw [decide_eq_true_iff]; exact hskip)]
      rfl

theorem expressionList_addGuild (name : Bytes) : (addGuild W a name).expressionList = a.expressionList := by
  unfold addGuild
  dsimp only
  split
  · rfl
  · rfl

theorem expressionList_addPlayer (name : Bytes) : (addPlayer W a name).expressionList = a.expressionList := by
  unfold addPlayer
  cases W.getPlayerByName name with
  | some guid => rfl
  | none =>
    dsimp only
    split
    · rfl
    · rfl

/-- The loop takes in the lines that are not lost. -/
theorem Holds.foldl : ∀ {ls read : List Bytes} {a : AccessList}, Holds W player a read →
    Holds W player (ls.foldl (takeLine W) a) (read ++ remaining a.expressionList ls)
  | [], read, _, h => by
    rw [remaining, List.append_nil]
    exact h
  | line :: ls, read, a, h => by
    rw [List.foldl_cons, takeLine, remaining]
    by_cases hat : '@'.toUInt8 ∈ line
    · have hrest := @Holds.foldl ls _ _ (h.addGuild hat)
      rw [expressionList_addGuild, List.append_assoc] at hrest
      rw [if_pos hat, if_neg fun hn => hn.1 hat]
      exact hrest
    rw [if_neg hat]
    by_cases hexpression : isExpression line
    · rw [if_pos hexpression, if_pos ⟨hat, hexpression⟩]
      by_cases hnew : line ∈ a.expressionList
      · rw [if_pos hnew, AccessList.addExpression, if_pos hnew]
        exact h.foldl
      · have hne : line ≠ [] := by
          rintro rfl
          exact absurd hexpression (by decide)
        have hrest := @Holds.foldl ls _ _ (h.addExpression hat hexpression hnew)
        rw [addExpression_eq hnew hne, List.append_assoc] at hrest
        rw [if_neg hnew, addExpression_eq hnew hne]
        exact hrest
    · have hrest := @Holds.foldl ls _ _ (h.addPlayer hat hexpression)
      rw [expressionList_addPlayer, List.append_assoc] at hrest
      rw [if_neg hexpression, if_neg fun hn => hexpression hn.2]
      exact hrest

/-- The list says what the lines say that are not lost. -/
theorem isInList_iff_remaining (W : Names) (text : Bytes) (player : Visitor) :
    isInList (parseList W text) player = true ↔ Listed W player (remaining [] (readLines text)) := by
  have hempty : Holds W player ⟨text, ∅, ∅, [], []⟩ [] :=
    ⟨List.Pairwise.nil, by simp [Matches], by simp [Matches], by simp, by simp⟩
  have hparse : parseList W text = (readLines text).foldl (takeLine W) ⟨text, ∅, ∅, [], []⟩ := by
    rw [parseList, readLines, ← foldl_parseLine]
    split
    · next htext => rw [htext]; rfl
    · rfl
  rw [hparse]
  exact hempty.foldl.isInList_iff_listed

end Run

/-! ### The lost lines -/

section Lost

variable {W : Names} {player : Visitor} {ls : List Bytes} {line : Bytes}

/-- No line that is lost decides about the player: where it denies, another does
or none that is left lets him in, and where it lets him in, so does another or
some line denies. -/
structure Settled (W : Names) (player : Visitor) (ls : List Bytes) : Prop where
  denied : ∀ line ∈ ls, line ∉ remaining [] ls → Denies player line →
    (∃ l ∈ remaining [] ls, Denies player l) ∨ ∀ l ∈ remaining [] ls, ¬ Favours W player l
  favoured : ∀ line ∈ ls, line ∉ remaining [] ls → Favours W player line →
    (∃ l ∈ ls, Denies player l) ∨ ∃ l ∈ remaining [] ls, Favours W player l

theorem remaining_subset : ∀ {written ls : List Bytes}, remaining written ls ⊆ ls
  | _, [], _, h => h
  | written, line :: ls, l, h => by
    rw [remaining] at h
    split at h
    · split at h
      · exact List.mem_cons_of_mem line (remaining_subset h)
      · exact List.mem_cons.2 ((List.mem_cons.1 h).imp_right fun h => remaining_subset h)
    · exact List.mem_cons.2 ((List.mem_cons.1 h).imp_right fun h => remaining_subset h)

/-- What is left says the same as all lines just if no lost line decides. -/
theorem listed_remaining_iff :
    (Listed W player (remaining [] ls) ↔ Listed W player ls) ↔ Settled W player ls := by
  constructor
  · intro h
    refine ⟨fun line hline _ hdenies => ?_, fun line hline _ hfavours => ?_⟩
    · by_contra hn
      push Not at hn
      exact (h.1 hn).1 line hline hdenies
    · by_contra hn
      push Not at hn
      obtain ⟨l, hl, hfavours'⟩ := (h.2 ⟨hn.1, line, hline, hfavours⟩).2
      exact hn.2 l hl hfavours'
  · intro h
    constructor
    · rintro ⟨hdenies, l, hl, hfavours⟩
      refine ⟨fun line hline hdenies' => ?_, l, remaining_subset hl, hfavours⟩
      by_cases hlost : line ∈ remaining [] ls
      · exact hdenies line hlost hdenies'
      · rcases h.denied line hline hlost hdenies' with ⟨k, hk, hkdenies⟩ | hnone
        · exact hdenies k hk hkdenies
        · exact hnone l hl hfavours
    · rintro ⟨hdenies, line, hline, hfavours⟩
      refine ⟨fun l hl => hdenies l (remaining_subset hl), ?_⟩
      by_cases hlost : line ∈ remaining [] ls
      · exact ⟨line, hlost, hfavours⟩
      · rcases h.favoured line hline hlost hfavours with ⟨k, hk, hkdenies⟩ | hsome
        · exact absurd hkdenies (hdenies k hk)
        · exact hsome

/-- A line is lost to one before, whose text it has. -/
theorem eq_rewrite_of_lost : ∀ {written ls : List Bytes}, line ∈ ls → line ∉ remaining written ls →
    '@'.toUInt8 ∉ line ∧ isExpression line ∧ (line ∈ written ∨ ∃ e ∈ remaining written ls, line = rewrite e)
  | _, [], h, _ => absurd h List.not_mem_nil
  | written, l :: ls, h, hlost => by
    rw [remaining] at hlost ⊢
    split at hlost
    · next hl =>
      rw [if_pos hl]
      split at hlost
      · next hwritten =>
        rw [if_pos hwritten]
        rcases List.mem_cons.1 h with rfl | h
        · exact ⟨hl.1, hl.2, .inl hwritten⟩
        · exact eq_rewrite_of_lost h hlost
      · next hwritten =>
        rw [if_neg hwritten]
        rw [List.mem_cons, not_or] at hlost
        obtain ⟨hat, hexpression, hrewrite⟩ := eq_rewrite_of_lost ((List.mem_cons.1 h).resolve_left hlost.1) hlost.2
        refine ⟨hat, hexpression, ?_⟩
        rcases hrewrite with hrewrite | ⟨e, he, hrewrite⟩
        · rcases List.mem_append.1 hrewrite with hrewrite | hrewrite
          · exact .inl hrewrite
          · exact .inr ⟨l, List.mem_cons_self, List.mem_singleton.1 hrewrite⟩
        · exact .inr ⟨e, List.mem_cons_of_mem l he, hrewrite⟩
    · next hl =>
      rw [if_neg hl]
      rw [List.mem_cons, not_or] at hlost
      obtain ⟨hat, hexpression, hrewrite⟩ := eq_rewrite_of_lost ((List.mem_cons.1 h).resolve_left hlost.1) hlost.2
      refine ⟨hat, hexpression, hrewrite.imp_right ?_⟩
      rintro ⟨e, he, hrewrite⟩
      exact ⟨e, List.mem_cons_of_mem l he, hrewrite⟩

/-- A lost line matches only names with a `.` or a backslash. -/
theorem settled_of_plain_name (hdot : '.'.toUInt8 ∉ toLowerCaseString player.name)
    (hbackslash : '\\'.toUInt8 ∉ toLowerCaseString player.name) (ls : List Bytes) : Settled W player ls := by
  have hsign {line : Bytes} (hline : line ∈ ls) (hlost : line ∉ remaining [] ls) :
      ∃ c ∈ line, c ∉ toLowerCaseString player.name ∧ c ≠ '*'.toUInt8 ∧ c ≠ '?'.toUInt8 ∧ c ≠ '!'.toUInt8 := by
    obtain ⟨-, -, hwritten | ⟨e, he, rfl⟩⟩ := eq_rewrite_of_lost hline hlost
    · exact absurd hwritten List.not_mem_nil
    rcases Wildcard.rewrite_eq_self_or e with h | h | h
    · rw [h] at hlost
      exact absurd he hlost
    · exact ⟨_, h, hdot, by decide, by decide, by decide⟩
    · exact ⟨_, h, hbackslash, by decide, by decide, by decide⟩
  refine ⟨fun line hline hlost hdenies => ?_, fun line hline hlost hfavours => ?_⟩
  · obtain ⟨c, hc, hname, hstar, hquestion, hdeny⟩ := hsign hline hlost
    obtain ⟨-, hhead, -, hmatch⟩ := hdenies
    cases line with
    | nil => exact absurd hc List.not_mem_nil
    | cons d pattern =>
      have hc : c ∈ pattern := (List.mem_cons.1 hc).resolve_left fun e => hdeny (e.trans (Option.some.inj hhead))
      exact absurd (Wildcard.mem_of_mem_language hmatch hc hstar hquestion) hname
  · obtain ⟨c, hc, hname, hstar, hquestion, -⟩ := hsign hline hlost
    obtain ⟨hat, hexpression, -⟩ := eq_rewrite_of_lost hline hlost
    rcases hfavours with hadmits | hnames | hguild
    · exact absurd (Wildcard.mem_of_mem_language hadmits.2.2.2 hc hstar hquestion) hname
    · exact absurd hexpression hnames.2.1
    · exact absurd hguild.1 hat

/-! ### The order of the lines -/

theorem readLines_perm {text text' : Bytes} (h : (lines text').Perm (lines text)) :
    (readLines text').Perm (readLines text) :=
  ((h.map _).filter _).map _

theorem listed_perm {ls' : List Bytes} (h : ls'.Perm ls) : Listed W player ls' ↔ Listed W player ls := by
  simp only [Listed, h.mem_iff]

/-- The list says what its lines say, and the same with its lines in any other
order, just if in each order no lost line decides. -/
theorem isInList_iff (W : Names) (text : Bytes) (player : Visitor) :
    ((isInList (parseList W text) player = true ↔ Listed W player (readLines text)) ∧
      ∀ text', (lines text').Perm (lines text) →
        isInList (parseList W text') player = isInList (parseList W text) player) ↔
    ∀ text', (lines text').Perm (lines text) → Settled W player (readLines text') := by
  have hone (text : Bytes) : (isInList (parseList W text) player = true ↔ Listed W player (readLines text)) ↔
      Settled W player (readLines text) := by
    rw [isInList_iff_remaining, listed_remaining_iff]
  constructor
  · rintro ⟨hlisted, horder⟩ text' hperm
    rw [← hone, horder text' hperm, hlisted, listed_perm (readLines_perm hperm)]
  · intro h
    have hlisted := (hone text).2 (h text (.refl _))
    refine ⟨hlisted, fun text' hperm => ?_⟩
    rw [Bool.eq_iff_iff, hlisted, (hone text').2 (h text' hperm), listed_perm (readLines_perm hperm)]

/-- `a?` is written `a.?`, and the line `a.?` behind it is lost. -/
theorem not_isInList_lost :
    let W : Names := ⟨fun _ => none, fun _ => 0, fun _ => 0⟩
    let player : Visitor := ⟨"A.x".toList.map Char.toUInt8, 1, none⟩
    isInList (parseList W ("a?\na.?".toList.map Char.toUInt8)) player = false ∧
      Listed W player (readLines ("a?\na.?".toList.map Char.toUInt8)) ∧
      isInList (parseList W ("a.?\na?".toList.map Char.toUInt8)) player = true := by
  decide +kernel

end Lost

end AccessList
end ForgottenServer
