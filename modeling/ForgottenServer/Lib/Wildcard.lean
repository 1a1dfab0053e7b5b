/-
# Wildcard patterns and regular expressions

In a wildcard pattern `*` stands for any string, `?` for at most one sign, and
every other sign for itself. A matcher for regular expressions can be used for
them: `*` is written `.*`, `?` is written `.?`, and the signs that a regular
expression would take for operators are escaped.

The regular expressions here are rows of signs, `.` and quantifiers; a text with
other operators is none of them. What is written for a pattern is one, and has
the strings of the pattern (`parse_rewrite`, `matches_iff`).

Key definitions: `Piece.language`, `regexMatch`, `parse`, `language`, `rewrite`.
Key theorems: `regexMatch_iff`, `parse_rewrite`, `matches_iff`, `mem_of_mem_language`.
-/
import Mathlib.Computability.Language
import Mathlib.Tactic

namespace Wildcard

/-! ### Regular expressions -/

/-- `.` or a sign. -/
inductive Atom where
  | any
  | sign (c : UInt8)
  deriving DecidableEq

inductive Quantifier where
  | once
  | optional
  | star
  deriving DecidableEq

/-- An atom with what is written behind it. -/
structure Piece where
  atom : Atom
  quantifier : Quantifier
  deriving DecidableEq

abbrev Regex := List Piece

def Atom.accepts : Atom → UInt8 → Bool
  | .any, _ => true
  | .sign c, d => c = d

/-- The strings of one sign that an atom stands for. -/
def Atom.language (a : Atom) : Language UInt8 := {s | ∃ c, a.accepts c ∧ s = [c]}

open Computability in
def Piece.language (p : Piece) : Language UInt8 :=
  match p.quantifier with
  | .once => p.atom.language
  | .optional => 1 + p.atom.language
  | .star => p.atom.language∗

def Regex.language (r : Regex) : Language UInt8 := (r.map Piece.language).prod

/-- One sign for the atom, and then the rest. -/
def Atom.step (a : Atom) (rest : List UInt8 → Bool) : List UInt8 → Bool
  | [] => false
  | c :: s => a.accepts c && rest s

/-- Some signs for the atom, and then the rest. -/
def Atom.loop (a : Atom) (rest : List UInt8 → Bool) : List UInt8 → Bool
  | [] => rest []
  | c :: s => rest (c :: s) || (a.accepts c && a.loop rest s)

/-- Whether a whole string is one of the expression. -/
def regexMatch : Regex → List UInt8 → Bool
  | [], s => s.isEmpty
  | ⟨a, .once⟩ :: r, s => a.step (regexMatch r) s
  | ⟨a, .optional⟩ :: r, s => regexMatch r s || a.step (regexMatch r) s
  | ⟨a, .star⟩ :: r, s => a.loop (regexMatch r) s

section Match

variable {a : Atom} {L : Language UInt8} {rest : List UInt8 → Bool} {r : Regex} {s : List UInt8}

theorem Atom.mem_language_mul : s ∈ a.language * L ↔ ∃ c t, a.accepts c ∧ t ∈ L ∧ s = c :: t := by
  rw [Language.mem_mul]
  constructor
  · rintro ⟨-, ⟨c, hc, rfl⟩, t, ht, rfl⟩
    exact ⟨c, t, hc, ht, rfl⟩
  · rintro ⟨c, t, hc, ht, rfl⟩
    exact ⟨[c], ⟨c, hc, rfl⟩, t, ht, rfl⟩

theorem Atom.step_iff (h : ∀ s, rest s = true ↔ s ∈ L) : a.step rest s = true ↔ s ∈ a.language * L := by
  rw [mem_language_mul]
  cases s with
  | nil => simp [step]
  | cons c s =>
    rw [step, Bool.and_eq_true, h]
    constructor
    · rintro ⟨hc, hs⟩
      exact ⟨c, s, hc, hs, rfl⟩
    · rintro ⟨d, t, hd, ht, heq⟩
      obtain ⟨rfl, rfl⟩ := List.cons.inj heq
      exact ⟨hd, ht⟩

open Computability in
theorem Atom.loop_iff (h : ∀ s, rest s = true ↔ s ∈ L) (s : List UInt8) :
    a.loop rest s = true ↔ s ∈ a.language∗ * L := by
  have hunfold : a.language∗ * L = L + a.language * (a.language∗ * L) := by
    conv_lhs => rw [← Language.one_add_self_mul_kstar_eq_kstar, add_mul, one_mul, mul_assoc]
  induction s with
  | nil =>
    rw [loop, h, hunfold, Language.mem_add, mem_language_mul]
    simp
  | cons c s ih =>
    rw [loop, Bool.or_eq_true, Bool.and_eq_true, h, hunfold, Language.mem_add, mem_language_mul]
    refine or_congr_right ⟨?_, ?_⟩
    · rintro ⟨hc, hs⟩
      exact ⟨c, s, hc, ih.1 hs, rfl⟩
    · rintro ⟨d, t, hd, ht, heq⟩
      obtain ⟨rfl, rfl⟩ := List.cons.inj heq
      exact ⟨hd, ih.2 ht⟩

theorem regexMatch_iff : ∀ (r : Regex) (s : List UInt8), regexMatch r s = true ↔ s ∈ Regex.language r
  | [], s => by
    rw [regexMatch, List.isEmpty_iff]
    rfl
  | ⟨a, .once⟩ :: r, s => by
    rw [regexMatch, Atom.step_iff (regexMatch_iff r)]
    rfl
  | ⟨a, .optional⟩ :: r, s => by
    rw [regexMatch, Bool.or_eq_true, Atom.step_iff (regexMatch_iff r), regexMatch_iff r, ← Language.mem_add]
    have hunfold : Regex.language r + a.language * Regex.language r = (1 + a.language) * Regex.language r := by
      rw [add_mul, one_mul]
    rw [hunfold]
    rfl
  | ⟨a, .star⟩ :: r, s => by
    rw [regexMatch, Atom.loop_iff (regexMatch_iff r)]
    rfl

end Match

/-! ### The text of an expression -/

/-- The signs that are escaped: `.` and the operators. -/
def metachars : List UInt8 := ".[\x7b\x7d()\\+|^$".toList.map Char.toUInt8

inductive Token where
  | atom (a : Atom)
  | star
  | question

/-- A sign that is not escaped. -/
def token (c : UInt8) : Option Token :=
  if c = '*'.toUInt8 then some .star
  else if c = '?'.toUInt8 then some .question
  else if c = '.'.toUInt8 then some (.atom .any)
  else if c ∈ metachars then none
  else some (.atom (.sign c))

def tokens : List UInt8 → Option (List Token)
  | [] => some []
  | [c] => (token c).map fun t => [t]
  | c :: d :: text =>
    if c = '\\'.toUInt8 then
      if d ∈ metachars then (tokens text).map (.atom (.sign d) :: ·) else none
    else (token c).bind fun t => (tokens (d :: text)).map (t :: ·)

def pieces : List Token → Option Regex
  | [] => some []
  | .atom a :: .star :: ts => (pieces ts).map (⟨a, .star⟩ :: ·)
  | .atom a :: .question :: ts => (pieces ts).map (⟨a, .optional⟩ :: ·)
  | .atom a :: ts => (pieces ts).map (⟨a, .once⟩ :: ·)
  | _ :: _ => none

/-- The expression that a text stands for, if it is one of those here. -/
def parse (text : List UInt8) : Option Regex := (tokens text).bind pieces

/-! ### Patterns -/

/-- The strings that a sign of a pattern stands for. -/
def signLanguage (c : UInt8) : Language UInt8 :=
  {s | if c = '*'.toUInt8 then True else if c = '?'.toUInt8 then s.length ≤ 1 else s = [c]}

/-- The strings of a pattern. -/
def language (pattern : List UInt8) : Language UInt8 := (pattern.map signLanguage).prod

/-- What is written for a sign of a pattern. -/
def rewriteSign (c : UInt8) : List UInt8 :=
  if c = '*'.toUInt8 then ['.'.toUInt8, c]
  else if c = '?'.toUInt8 then ['.'.toUInt8, c]
  else if c ∈ metachars then ['\\'.toUInt8, c]
  else [c]

def rewrite (pattern : List UInt8) : List UInt8 := pattern.flatMap rewriteSign

def pieceOf (c : UInt8) : Piece :=
  if c = '*'.toUInt8 then ⟨.any, .star⟩
  else if c = '?'.toUInt8 then ⟨.any, .optional⟩
  else ⟨.sign c, .once⟩

/-- What the text of a sign is read as. -/
def tokensOf (c : UInt8) : List Token :=
  if c = '*'.toUInt8 then [.atom .any, .star]
  else if c = '?'.toUInt8 then [.atom .any, .question]
  else [.atom (.sign c)]

section Patterns

variable {c : UInt8} {pattern s : List UInt8} {ts : List Token}

theorem tokens_cons (h : c ≠ '\\'.toUInt8) (text : List UInt8) :
    tokens (c :: text) = (token c).bind fun t => (tokens text).map (t :: ·) := by
  cases text with
  | nil =>
    have hone : tokens [c] = (token c).map fun t => [t] := rfl
    rw [hone]
    cases token c with
    | none => rfl
    | some t => rfl
  | cons d text => rw [tokens, if_neg h]

theorem tokens_rewriteSign (c : UInt8) (text : List UInt8) :
    tokens (rewriteSign c ++ text) = (tokens text).map (tokensOf c ++ ·) := by
  unfold rewriteSign tokensOf
  have hdot : token '.'.toUInt8 = some (.atom .any) := rfl
  split
  · next h =>
    have hstar : token c = some .star := by rw [h]; rfl
    rw [List.cons_append, List.cons_append, List.nil_append, tokens_cons (by decide), tokens_cons (by rw [h]; decide),
      hdot, hstar]
    cases tokens text with
    | none => rfl
    | some ts => rfl
  · next hstar =>
    split
    · next h =>
      have hquestion : token c = some .question := by rw [h]; rfl
      rw [List.cons_append, List.cons_append, List.nil_append, tokens_cons (by decide), tokens_cons (by rw [h]; decide),
        hdot, hquestion]
      cases tokens text with
      | none => rfl
      | some ts => rfl
    · next hquestion =>
      split
      · next hmeta =>
        rw [List.cons_append, List.cons_append, List.nil_append, tokens, if_pos rfl, if_pos hmeta]
        rfl
      · next hmeta =>
        have hsign : token c = some (.atom (.sign c)) := by
          unfold token
          rw [if_neg hstar, if_neg hquestion, if_neg, if_neg hmeta]
          rintro rfl
          exact hmeta (by decide)
        have hescape : c ≠ '\\'.toUInt8 := by
          rintro rfl
          exact hmeta (by decide)
        rw [List.cons_append, List.nil_append, tokens_cons hescape, hsign]
        rfl

theorem rewrite_cons (c : UInt8) (pattern : List UInt8) : rewrite (c :: pattern) = rewriteSign c ++ rewrite pattern :=
  List.flatMap_cons ..

theorem tokens_rewrite : ∀ pattern : List UInt8, tokens (rewrite pattern) = some (pattern.flatMap tokensOf)
  | [] => rfl
  | c :: pattern => by
    rw [rewrite_cons, tokens_rewriteSign, tokens_rewrite pattern]
    rfl

/-- The signs after a sign are never read as its quantifier. -/
theorem pieces_tokensOf (c : UInt8) (pattern : List UInt8) :
    pieces (tokensOf c ++ pattern.flatMap tokensOf) = (pieces (pattern.flatMap tokensOf)).map (pieceOf c :: ·) := by
  have hatom (d : UInt8) : ∃ a ts, tokensOf d = .atom a :: ts := by
    unfold tokensOf
    split
    · exact ⟨_, _, rfl⟩
    · split
      · exact ⟨_, _, rfl⟩
      · exact ⟨_, _, rfl⟩
  unfold pieceOf
  rw [tokensOf]
  split
  · rfl
  · split
    · rfl
    · cases pattern with
      | nil => rfl
      | cons d pattern =>
        obtain ⟨a, ts, hd⟩ := hatom d
        rw [List.flatMap_cons, hd]
        rfl

/-- What is written for a pattern is an expression, with one piece for each sign. -/
theorem parse_rewrite (pattern : List UInt8) : parse (rewrite pattern) = some (pattern.map pieceOf) := by
  rw [parse, tokens_rewrite, Option.bind_some]
  induction pattern with
  | nil => rfl
  | cons c pattern ih =>
    rw [List.flatMap_cons, pieces_tokensOf, ih]
    rfl

theorem Atom.mem_language_any {s : List UInt8} : s ∈ Atom.any.language ↔ s.length = 1 := by
  rw [List.length_eq_one_iff]
  constructor
  · rintro ⟨c, -, hs⟩
    exact ⟨c, hs⟩
  · rintro ⟨c, hs⟩
    exact ⟨c, rfl, hs⟩

theorem mem_signLanguage :
    s ∈ signLanguage c ↔ if c = '*'.toUInt8 then True else if c = '?'.toUInt8 then s.length ≤ 1 else s = [c] :=
  Iff.rfl

theorem pieceOf_language (c : UInt8) : (pieceOf c).language = signLanguage c := by
  ext s
  rw [mem_signLanguage, pieceOf]
  split
  · -- any string is a row of strings of one sign
    refine ⟨fun _ => trivial, fun _ => ?_⟩
    have hsigns : s = (s.map fun d => [d]).flatten := by rw [List.flatten_eq_flatMap, List.flatMap_map]; simp
    rw [hsigns]
    refine Language.join_mem_kstar fun t ht => ?_
    obtain ⟨d, -, rfl⟩ := List.mem_map.1 ht
    exact Atom.mem_language_any.2 rfl
  · split
    · have hone : s ∈ (1 : Language UInt8) + Atom.any.language ↔ s.length ≤ 1 := by
        rw [Language.mem_add, Language.mem_one, Atom.mem_language_any, ← List.length_eq_zero_iff]
        omega
      exact hone
    · constructor
      · rintro ⟨d, hd, rfl⟩
        obtain rfl : c = d := of_decide_eq_true hd
        rfl
      · rintro rfl
        exact ⟨c, decide_eq_true rfl, rfl⟩

/-- The expression that is written for a pattern has its strings. -/
theorem matches_iff (pattern s : List UInt8) : regexMatch (pattern.map pieceOf) s = true ↔ s ∈ language pattern := by
  have hlanguage : Regex.language (pattern.map pieceOf) = language pattern := by
    rw [Regex.language, List.map_map, language]
    exact congrArg List.prod (List.map_congr_left fun c _ => pieceOf_language c)
  rw [regexMatch_iff, hlanguage]

instance (pattern : List UInt8) : DecidablePred (· ∈ language pattern) := fun s =>
  decidable_of_iff _ (matches_iff pattern s)

/-- The text of a sign begins with `.`, a backslash or the sign. -/
theorem rewriteSign_cases (c : UInt8) :
    rewriteSign c = ['.'.toUInt8, c] ∨ rewriteSign c = ['\\'.toUInt8, c] ∨ rewriteSign c = [c] := by
  unfold rewriteSign
  split
  · exact .inl rfl
  · split
    · exact .inl rfl
    · split
      · exact .inr (.inl rfl)
      · exact .inr (.inr rfl)

/-- A pattern that is not its own expression has a `.` or a backslash in it. -/
theorem rewrite_eq_self_or (pattern : List UInt8) :
    rewrite pattern = pattern ∨ '.'.toUInt8 ∈ rewrite pattern ∨ '\\'.toUInt8 ∈ rewrite pattern := by
  induction pattern with
  | nil => exact .inl rfl
  | cons c pattern ih =>
    rw [rewrite_cons]
    rcases rewriteSign_cases c with h | h | h
    · rw [h]
      exact .inr (.inl List.mem_cons_self)
    · rw [h]
      exact .inr (.inr List.mem_cons_self)
    · rw [h, List.singleton_append]
      rcases ih with h | h | h
      · exact .inl (congrArg _ h)
      · exact .inr (.inl (List.mem_cons_of_mem c h))
      · exact .inr (.inr (List.mem_cons_of_mem c h))

/-- A sign of a pattern that stands for itself is in each of its strings. -/
theorem mem_of_mem_language (hs : s ∈ language pattern) (hc : c ∈ pattern) (hstar : c ≠ '*'.toUInt8)
    (hquestion : c ≠ '?'.toUInt8) : c ∈ s := by
  induction pattern generalizing s with
  | nil => exact absurd hc List.not_mem_nil
  | cons d pattern ih =>
    rw [language, List.map_cons, List.prod_cons] at hs
    obtain ⟨t, ht, u, hu, rfl⟩ := Language.mem_mul.1 hs
    rcases List.mem_cons.1 hc with rfl | hc
    · rw [mem_signLanguage, if_neg hstar, if_neg hquestion] at ht
      subst ht
      exact List.mem_append_left u List.mem_cons_self
    · exact List.mem_append_right t (ih hu hc)

end Patterns

end Wildcard
