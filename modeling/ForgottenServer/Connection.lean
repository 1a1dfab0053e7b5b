/-
# Reading a packet

A connection reads every packet into the same `NetworkMessage`, over what the
packets before it left there. `canRead` keeps the readers inside `length + 4`
bytes of the buffer. Past the first packet `length` is what `XTEA_decrypt`
found inside the packet and that bound is its end. For the first packet it is
the size with the header, and the bound is four bytes behind the end.

Key definitions: `Read`, `perform`, `outcome`, `OwnBytesOnly`, `Packet.reads`, `Within`.
Key theorems: `sim_perform`, `reads_some`, `follows_decrypt`, `own_bytes_only_iff`.
-/
import Mathlib.Tactic
import ForgottenServer.Lib.Run
import ForgottenServer.Protocol

namespace ForgottenServer
namespace Connection

open Buffer Protocol Run

/-! ### Reads -/

/-- What a protocol does to the message of its connection. -/
inductive Read
  | getByte
  | get (size : ℕ)
  | getString (stringLen : ℕ)
  | getPosition
  | skipBytes (count : ℕ)
  | RSA_decrypt
  deriving DecidableEq, Repr

inductive Value
  | number (n : ℕ)
  | chars (l : List UInt8)
  | position (x y z : ℕ)
  | answer (b : Bool)
  | nothing
  deriving DecidableEq, Repr

section Reads

variable (rsa : List UInt8 → List UInt8)

/-- `Protocol::RSA_decrypt`, with the transformation `rsa` of the block. -/
def RSA_decrypt (msg : NetworkMessage) : Bool × NetworkMessage :=
  if (msg.length : ℤ) - msg.position ≠ 128 then (false, msg)
  else
    let byte := { msg with
      buffer := copy msg.buffer msg.position (rsa (msg.peek 128)) : NetworkMessage }.getByte
    (byte.1 == 0, byte.2)

def perform (msg : NetworkMessage) : Read → Value × NetworkMessage
  | .getByte => (.number msg.getByte.1.toNat, msg.getByte.2)
  | .get size => (.number (msg.get size).1, (msg.get size).2)
  | .getString stringLen => (.chars (msg.getString stringLen).1, (msg.getString stringLen).2)
  | .getPosition => (.position msg.getPosition.1.1 msg.getPosition.1.2.1
      msg.getPosition.1.2.2.toNat, msg.getPosition.2)
  | .skipBytes count => (.nothing, msg.skipBytes count)
  | .RSA_decrypt => (.answer (RSA_decrypt rsa msg).1, (RSA_decrypt rsa msg).2)

def step (msg : NetworkMessage) (r : Read) : NetworkMessage := (perform rsa msg r).2

/-- The values of reads made one after another. -/
def values : NetworkMessage → List Read → List Value
  | _, [] => []
  | msg, r :: reads => (perform rsa msg r).1 :: values (step rsa msg r) reads

/-- The two ways of a packet to its readers: the first one of a connection is
read as it is, a later one once it is decrypted. -/
inductive Path
  | first
  | encrypted (key : Key)

/-- The message that is read, none if it is not decrypted (`Protocol::onRecvMessage`). -/
def start : Path → NetworkMessage → Option NetworkMessage
  | .first, msg => some msg
  | .encrypted key, msg =>
    if (XTEA_decrypt key msg).1 then some (XTEA_decrypt key msg).2 else none

/-- The values of the reads and the flag after them. -/
def outcome (path : Path) (msg : NetworkMessage) (reads : List Read) :
    Option (List Value × Bool) :=
  (start path msg).map fun m => (values rsa m reads, (run (step rsa) m reads).overrun)

/-- The packets that `Connection::parseHeader` accepts. -/
structure Accepted (header body : List UInt8) : Prop where
  headerLength : header.length = 2
  size : body.length = Bytes.value header
  pos : 0 < body.length
  lt : body.length < NETWORKMESSAGE_MAXSIZE - 16

/-- A read takes no byte from `last` on. -/
def Inside (last : ℕ) (msg : NetworkMessage) (r : Read) : Prop :=
  (∀ count, r ≠ .skipBytes count) →
    (step rsa msg r).position = msg.position ∨ (step rsa msg r).position ≤ last

/-- A packet is interpreted from its own bytes: what is read does not depend on
what the buffer of the connection held, and no read goes past the packet.
`overrun` is the flag as the packets before left it. -/
def OwnBytesOnly (path : Path) (overrun : Bool) (header body : List UInt8) (reads : List Read) :
    Prop :=
  (∀ msg msg' : NetworkMessage, msg.overrun = overrun → msg'.overrun = overrun →
    outcome rsa path (receive msg header body) reads =
      outcome rsa path (receive msg' header body) reads) ∧
  ∀ msg m : NetworkMessage, msg.overrun = overrun → start path (receive msg header body) = some m →
    Along (step rsa) (Inside rsa (2 + body.length)) m reads

/-! ### The same reads on the bytes of a packet alone -/

/-- The bytes of a packet, header included, with a cursor and the flag of
refused reads. -/
structure Packet where
  bytes : List UInt8
  cursor : ℕ
  overrun : Bool

namespace Packet

/-- A read of `n` bytes. They are there, or they end so far behind the packet
that they are refused; a read that ends at most `gap` bytes behind it has no
answer. -/
def take (gap n : ℕ) (p : Packet) : Option (Option (List UInt8) × Packet) :=
  if p.cursor + n ≤ p.bytes.length ∨ (n = 0 ∧ p.cursor ≤ p.bytes.length + gap) then
    some (some ((p.bytes.drop p.cursor).take n), { p with cursor := p.cursor + n })
  else if p.cursor + n ≤ p.bytes.length + gap then none
  else some (none, { p with overrun := true })

def number (gap size : ℕ) (p : Packet) : Option (ℕ × Packet) :=
  (p.take gap size).map fun r => ((r.1.map Bytes.value).getD 0, r.2)

def chars (gap size : ℕ) (p : Packet) : Option (List UInt8 × Packet) :=
  (p.take gap size).map fun r => (r.1.getD [], r.2)

/-- The block under the cursor transformed. -/
def transform (p : Packet) : Packet :=
  { p with bytes := p.bytes.take p.cursor ++ (rsa ((p.bytes.drop p.cursor).take 128) ++
      p.bytes.drop (p.cursor + 128)) }

def string (gap stringLen : ℕ) (p : Packet) : Option (List UInt8 × Packet) :=
  if stringLen = 0 then (p.number gap 2).bind fun r => r.2.chars gap r.1
  else p.chars gap stringLen

def position (gap : ℕ) (p : Packet) : Option ((ℕ × ℕ × ℕ) × Packet) :=
  (p.number gap 2).bind fun x => (x.2.number gap 2).bind fun y =>
    (y.2.number gap 1).map fun z => ((x.1, y.1, z.1), z.2)

def read (gap : ℕ) (p : Packet) : Read → Option (Value × Packet)
  | .getByte => (p.number gap 1).map fun r => (.number r.1, r.2)
  | .get size => (p.number gap size).map fun r => (.number r.1, r.2)
  | .getString stringLen => (p.string gap stringLen).map fun r => (.chars r.1, r.2)
  | .getPosition => (p.position gap).map fun r => (.position r.1.1 r.1.2.1 r.1.2.2, r.2)
  | .skipBytes count => some (.nothing, { p with cursor := p.cursor + count })
  | .RSA_decrypt =>
    if ((p.bytes.length + gap : ℕ) : ℤ) - 4 - p.cursor ≠ 128 then some (.answer false, p)
    else ((p.transform rsa).number gap 1).map fun r => (.answer (r.1 == 0), r.2)

def reads (gap : ℕ) : Packet → List Read → Option (List Value × Packet)
  | p, [] => some ([], p)
  | p, r :: rs =>
    (p.read rsa gap r).bind fun v => (v.2.reads gap rs).map fun vs => (v.1 :: vs.1, vs.2)

end Packet

/-- On the first packet of a connection no read ends one to four bytes behind
the packet, when all are made on its own bytes. -/
def Within : Path → Bool → List UInt8 → List UInt8 → List Read → Prop
  | .first, overrun, header, body, reads =>
    (Packet.reads rsa 4 ⟨header ++ body, 2, overrun⟩ reads).isSome
  | .encrypted _, _, _, _, _ => True

end Reads

/-! ### The message follows the packet -/

/-- A message that holds the bytes of a packet, its bound `gap` bytes behind them. -/
structure Follows (last gap : ℕ) (msg : NetworkMessage) (p : Packet) : Prop where
  size : p.bytes.length = last
  bound : msg.length + 4 = last + gap
  cursor : msg.position = p.cursor
  overrun : msg.overrun = p.overrun
  bytes : slice msg.buffer 0 last = p.bytes
  fits : last + gap < NETWORKMESSAGE_MAXSIZE

/-- What a function of the message gives, against what the packet alone gives:
the same, inside the packet; or no answer, and then it goes past the packet. -/
def Sim {α : Type} (last gap : ℕ) (msg : NetworkMessage) (r : α × NetworkMessage) :
    Option (α × Packet) → Prop
  | some q => r.1 = q.1 ∧ Follows last gap r.2 q.2 ∧
      (r.2.position = msg.position ∨ r.2.position ≤ last)
  | none => msg.position < r.2.position ∧ last < r.2.position

section Sim

variable {last gap : ℕ} {msg : NetworkMessage} {p : Packet}

theorem canRead_eq (h : Follows last gap msg p) (n : ℕ) :
    msg.canRead n = decide (p.cursor + n ≤ last + gap) := by
  have h1 := h.bound
  have h2 := h.cursor
  have h3 := h.fits
  unfold NetworkMessage.canRead
  rw [h1, h2, Bool.eq_iff_iff]
  simp only [Bool.not_eq_true', Bool.or_eq_false_iff, decide_eq_false_iff_not, decide_eq_true_eq]
  omega

theorem peek_eq (h : Follows last gap msg p) {n : ℕ} (hn : p.cursor + n ≤ last) :
    msg.peek n = (p.bytes.drop p.cursor).take n := by
  unfold NetworkMessage.peek
  rw [← h.bytes, h.cursor, drop_slice _ _ (by omega), take_slice _ _ (by omega), Nat.zero_add]

theorem Follows.skip (h : Follows last gap msg p) (n : ℕ) :
    Follows last gap (msg.skipBytes n) { p with cursor := p.cursor + n } :=
  { size := h.size, bound := h.bound, overrun := h.overrun, bytes := h.bytes, fits := h.fits
    cursor := congrArg (· + n) h.cursor }

theorem Follows.refuse (h : Follows last gap msg p) :
    Follows last gap msg.setOverrun { p with overrun := true } :=
  { size := h.size, bound := h.bound, overrun := rfl, bytes := h.bytes, fits := h.fits
    cursor := h.cursor }

/-- A guarded read of `n` bytes, with the value `f` of them. -/
theorem sim_take {α : Type} (h : Follows last gap msg p) (n : ℕ) (f : Option (List UInt8) → α) :
    Sim last gap msg
      (if !msg.canRead n then (f none, msg.setOverrun) else (f (some (msg.peek n)), msg.skipBytes n))
      ((p.take gap n).map fun r => (f r.1, r.2)) := by
  have hsize := h.size
  have hcursor := h.cursor
  rw [canRead_eq h]
  unfold Packet.take
  rw [hsize]
  by_cases h1 : p.cursor + n ≤ last
  · have hread : p.cursor + n ≤ last + gap := by omega
    rw [decide_eq_true hread, Bool.not_true, if_neg Bool.false_ne_true, if_pos (Or.inl h1)]
    refine ⟨?_, h.skip n, .inr ?_⟩
    · show f (some (msg.peek n)) = _
      rw [peek_eq h h1]
    · show msg.position + n ≤ last
      omega
  · by_cases h0 : n = 0 ∧ p.cursor ≤ last + gap
    · have hread : p.cursor + n ≤ last + gap := by omega
      rw [decide_eq_true hread, Bool.not_true, if_neg Bool.false_ne_true, if_pos (Or.inr h0)]
      obtain ⟨rfl, -⟩ := h0
      exact ⟨rfl, h.skip 0, .inl rfl⟩
    · rw [if_neg (show ¬ (p.cursor + n ≤ last ∨ (n = 0 ∧ p.cursor ≤ last + gap)) from
        not_or.2 ⟨h1, h0⟩)]
      by_cases h2 : p.cursor + n ≤ last + gap
      · rw [decide_eq_true h2, Bool.not_true, if_neg Bool.false_ne_true, if_pos h2]
        show msg.position < msg.position + n ∧ last < msg.position + n
        omega
      · rw [decide_eq_false h2, Bool.not_false, if_pos rfl, if_neg h2]
        exact ⟨rfl, h.refuse, .inl rfl⟩

theorem sim_get (h : Follows last gap msg p) (n : ℕ) :
    Sim last gap msg (msg.get n) (p.number gap n) :=
  sim_take h n fun r => (r.map Bytes.value).getD 0

theorem sim_getChars (h : Follows last gap msg p) (n : ℕ) :
    Sim last gap msg (msg.getChars n) (p.chars gap n) :=
  sim_take h n fun r => r.getD []

theorem getByte_eq (msg : NetworkMessage) :
    (msg.getByte.1.toNat, msg.getByte.2) = msg.get 1 := by
  unfold NetworkMessage.getByte NetworkMessage.get
  split
  · rfl
  · simp [NetworkMessage.peek, slice, Bytes.value]

theorem position_le_get (msg : NetworkMessage) (n : ℕ) : msg.position ≤ (msg.get n).2.position := by
  unfold NetworkMessage.get
  split
  · exact le_refl _
  · exact Nat.le_add_right _ _

theorem position_le_getChars (msg : NetworkMessage) (n : ℕ) :
    msg.position ≤ (msg.getChars n).2.position := by
  unfold NetworkMessage.getChars
  split
  · exact le_refl _
  · exact Nat.le_add_right _ _

/-- One function after another. -/
theorem Sim.bind {α β : Type} {r : α × NetworkMessage} {q : Option (α × Packet)}
    {f : α → NetworkMessage → β × NetworkMessage} {g : α × Packet → Option (β × Packet)}
    (h : Sim last gap msg r q) (hle : msg.position ≤ r.2.position)
    (hf : ∀ v m, m.position ≤ (f v m).2.position)
    (hg : ∀ v m p', Follows last gap m p' → Sim last gap m (f v m) (g (v, p'))) :
    Sim last gap msg (f r.1 r.2) (q.bind g) := by
  have hmono := hf r.1 r.2
  cases q with
  | none =>
    obtain ⟨h1, h2⟩ := h
    exact ⟨by omega, by omega⟩
  | some q =>
    obtain ⟨hv, hfollow, hpos⟩ := h
    have hnext := hg r.1 r.2 q.2 hfollow
    rw [Option.bind_some]
    have hq : q = (r.1, q.2) := by rw [hv]
    rw [← hq] at hnext
    cases hq' : g q with
    | none =>
      rw [hq'] at hnext
      exact ⟨by have := hnext.1; omega, hnext.2⟩
    | some q' =>
      rw [hq'] at hnext
      obtain ⟨h1, h2, h3⟩ := hnext
      exact ⟨h1, h2, by omega⟩

theorem Sim.map {α β : Type} {r : α × NetworkMessage} {q : Option (α × Packet)}
    (h : Sim last gap msg r q) (f : α → β) :
    Sim last gap msg (f r.1, r.2) (q.map fun v => (f v.1, v.2)) := by
  cases q with
  | none => exact h
  | some q => exact ⟨congrArg f h.1, h.2⟩

theorem sim_getByte (h : Follows last gap msg p) :
    Sim last gap msg (msg.getByte.1.toNat, msg.getByte.2) (p.number gap 1) := by
  rw [getByte_eq]
  exact sim_get h 1

theorem sim_getString (h : Follows last gap msg p) (stringLen : ℕ) :
    Sim last gap msg (msg.getString stringLen) (p.string gap stringLen) := by
  unfold NetworkMessage.getString Packet.string
  split
  · apply (sim_get h 2).bind (f := fun n m => m.getChars n) (position_le_get msg 2)
    · exact fun n m => position_le_getChars m n
    · exact fun n m p' hp => sim_getChars hp n
  · exact sim_getChars h stringLen

theorem sim_getPosition (h : Follows last gap msg p) :
    Sim last gap msg ((msg.getPosition.1.1, msg.getPosition.1.2.1, msg.getPosition.1.2.2.toNat),
      msg.getPosition.2) (p.position gap) := by
  have hz : ∀ m : NetworkMessage, m.position ≤ m.getByte.2.position := by
    intro m
    have := position_le_get m 1
    rwa [← getByte_eq] at this
  apply (sim_get h 2).bind (f := fun x m =>
    ((x, (m.get 2).1, (m.get 2).2.getByte.1.toNat), (m.get 2).2.getByte.2)) (position_le_get msg 2)
  · exact fun x m => (position_le_get m 2).trans (hz _)
  intro x m p' hp
  apply (sim_get hp 2).bind (f := fun y m => ((x, y, m.getByte.1.toNat), m.getByte.2))
    (position_le_get m 2)
  · exact fun y m => hz m
  intro y m' p'' hp'
  exact (sim_getByte hp').map fun z => (x, y, z)

variable {rsa : List UInt8 → List UInt8}

/-- The transformed block lies inside the packet. -/
theorem Follows.transform (hrsa : ∀ l, l.length = 128 → (rsa l).length = 128)
    (h : Follows last gap msg p) (hblock : p.cursor + 128 ≤ last) :
    Follows last gap { msg with buffer := copy msg.buffer msg.position (rsa (msg.peek 128)) }
      (p.transform rsa) := by
  obtain ⟨rest, hlast⟩ : ∃ rest, last = p.cursor + (128 + rest) :=
    ⟨last - (p.cursor + 128), by omega⟩
  have hpeek := peek_eq h hblock
  have hlen : (rsa (msg.peek 128)).length = 128 := hrsa _ (length_slice _ _ _)
  have hsize := h.size
  refine { size := ?_, bound := h.bound, cursor := h.cursor, overrun := h.overrun, bytes := ?_,
           fits := h.fits }
  · unfold Packet.transform
    rw [← hpeek]
    simp only [List.length_append, List.length_take, List.length_drop, hlen]
    omega
  · have hread : slice (copy msg.buffer msg.position (rsa (msg.peek 128))) msg.position 128 =
        rsa (msg.peek 128) := by
      have := slice_copy msg.buffer msg.position (rsa (msg.peek 128))
      rwa [hlen] at this
    have hcursor := h.cursor
    unfold Packet.transform
    rw [← hpeek, ← h.bytes]
    show slice (copy msg.buffer msg.position (rsa (msg.peek 128))) 0 last = _
    rw [take_slice _ _ (by omega), drop_slice _ _ (by omega)]
    rw [← hcursor] at hlast ⊢
    rw [hlast, slice_add, slice_add, Nat.zero_add, hread,
      slice_copy_of_disjoint _ (.inl (by omega)), slice_copy_of_disjoint _ (.inr (by omega))]
    rw [show msg.position + (128 + rest) - (msg.position + 128) = rest by omega, Nat.zero_add]

theorem sim_RSA_decrypt (hrsa : ∀ l, l.length = 128 → (rsa l).length = 128) (hgap : gap ≤ 4)
    (h : Follows last gap msg p) :
    Sim last gap msg (.answer (RSA_decrypt rsa msg).1, (RSA_decrypt rsa msg).2)
      (p.read rsa gap .RSA_decrypt) := by
  have hbound := h.bound
  have hcursor := h.cursor
  have hsize := h.size
  unfold RSA_decrypt Packet.read
  by_cases hne : (msg.length : ℤ) - msg.position ≠ 128
  · rw [if_pos hne, if_pos (by push_cast; omega)]
    exact ⟨rfl, h, .inl rfl⟩
  · rw [if_neg hne, if_neg (by push_cast; omega)]
    have hblock := h.transform hrsa (by omega)
    have hzero : ∀ b : UInt8, (b.toNat == 0) = (b == 0) := by
      intro b
      rw [Bool.eq_iff_iff, beq_iff_eq, beq_iff_eq, ← UInt8.toNat_inj, UInt8.toNat_zero]
    have hsim := (sim_getByte hblock).map fun z => Value.answer (z == 0)
    dsimp only at hsim
    rw [hzero] at hsim
    exact hsim

/-- What a read gives, against what the packet alone gives. -/
theorem sim_perform (hrsa : ∀ l, l.length = 128 → (rsa l).length = 128) (hgap : gap ≤ 4)
    (h : Follows last gap msg p) {r : Read} (hr : ∀ count, r ≠ .skipBytes count) :
    Sim last gap msg (perform rsa msg r) (p.read rsa gap r) := by
  cases r with
  | getByte => exact (sim_getByte h).map Value.number
  | get size => exact (sim_get h size).map Value.number
  | getString stringLen => exact (sim_getString h stringLen).map Value.chars
  | getPosition => exact (sim_getPosition h).map fun v => Value.position v.1 v.2.1 v.2.2
  | skipBytes count => exact absurd rfl (hr count)
  | RSA_decrypt => exact sim_RSA_decrypt hrsa hgap h

theorem perform_some (hrsa : ∀ l, l.length = 128 → (rsa l).length = 128) (hgap : gap ≤ 4)
    (h : Follows last gap msg p) {r : Read} {q : Value × Packet} (hq : p.read rsa gap r = some q) :
    (perform rsa msg r).1 = q.1 ∧ Follows last gap (step rsa msg r) q.2 ∧
      Inside rsa last msg r := by
  by_cases hr : ∃ count, r = .skipBytes count
  · obtain ⟨count, rfl⟩ := hr
    obtain rfl := Option.some.inj hq
    exact ⟨rfl, h.skip count, fun hno => absurd rfl (hno count)⟩
  · have hsim := sim_perform hrsa hgap h (not_exists.1 hr)
    rw [hq] at hsim
    exact ⟨hsim.1, hsim.2.1, fun _ => hsim.2.2⟩

theorem perform_none (hrsa : ∀ l, l.length = 128 → (rsa l).length = 128) (hgap : gap ≤ 4)
    (h : Follows last gap msg p) {r : Read} (hq : p.read rsa gap r = none) :
    ¬ Inside rsa last msg r := by
  have hr : ∀ count, r ≠ .skipBytes count := by
    rintro count rfl
    cases hq
  have hsim := sim_perform hrsa hgap h hr
  rw [hq] at hsim
  obtain ⟨h1, h2⟩ : msg.position < (step rsa msg r).position ∧
    last < (step rsa msg r).position := hsim
  intro hinside
  have := hinside hr
  omega

/-- The same for reads one after another: as long as the packet has an answer,
it is the one of the message, and no read goes past the packet. -/
theorem reads_some (hrsa : ∀ l, l.length = 128 → (rsa l).length = 128) (hgap : gap ≤ 4)
    (reads : List Read) : ∀ {msg p}, Follows last gap msg p →
      ∀ {q}, p.reads rsa gap reads = some q →
        values rsa msg reads = q.1 ∧ (run (step rsa) msg reads).overrun = q.2.overrun ∧
          Along (step rsa) (Inside rsa last) msg reads := by
  induction reads with
  | nil =>
    intro msg p h q hq
    obtain rfl := Option.some.inj hq
    exact ⟨rfl, h.overrun, trivial⟩
  | cons r rs ih =>
    intro msg p h q hq
    obtain ⟨v, hv, hrest⟩ := Option.bind_eq_some_iff.1 hq
    obtain ⟨vs, hvs, rfl⟩ := Option.map_eq_some_iff.1 hrest
    obtain ⟨hval, hfollow, hinside⟩ := perform_some hrsa hgap h hv
    obtain ⟨hvals, hoverrun, halong⟩ := ih hfollow hvs
    exact ⟨congrArg₂ List.cons hval hvals, hoverrun, hinside, halong⟩

theorem reads_none (hrsa : ∀ l, l.length = 128 → (rsa l).length = 128) (hgap : gap ≤ 4)
    (reads : List Read) : ∀ {msg p}, Follows last gap msg p → p.reads rsa gap reads = none →
      ¬ Along (step rsa) (Inside rsa last) msg reads := by
  induction reads with
  | nil =>
    intro msg p h hq
    cases hq
  | cons r rs ih =>
    intro msg p h hq halong
    cases hv : p.read rsa gap r with
    | none => exact perform_none hrsa hgap h hv halong.1
    | some v =>
      obtain ⟨-, hfollow, -⟩ := perform_some hrsa hgap h hv
      apply ih hfollow ?_ halong.2
      unfold Packet.reads at hq
      rw [hv] at hq
      exact Option.map_eq_none_iff.1 hq

end Sim

/-- A bound at the end of the packet leaves no read without an answer. -/
theorem Packet.take_isSome (n : ℕ) (p : Packet) : (p.take 0 n).isSome := by
  unfold Packet.take
  split
  · rfl
  · next h =>
    rw [Nat.add_zero, if_neg (fun hle => h (.inl hle))]
    rfl

theorem Packet.number_isSome (n : ℕ) (p : Packet) : (p.number 0 n).isSome := by
  unfold Packet.number
  rw [Option.isSome_map]
  exact p.take_isSome n

theorem Packet.chars_isSome (n : ℕ) (p : Packet) : (p.chars 0 n).isSome := by
  unfold Packet.chars
  rw [Option.isSome_map]
  exact p.take_isSome n

theorem isSome_bind {α β : Type} {o : Option α} {f : α → Option β} (h : o.isSome)
    (hf : ∀ a, (f a).isSome) : (o.bind f).isSome := by
  obtain ⟨a, rfl⟩ := Option.isSome_iff_exists.1 h
  exact hf a

theorem Packet.read_isSome (rsa : List UInt8 → List UInt8) (p : Packet) (r : Read) :
    (p.read rsa 0 r).isSome := by
  cases r with
  | getByte => exact Option.isSome_map.trans (p.number_isSome 1)
  | get size => exact Option.isSome_map.trans (p.number_isSome size)
  | getString stringLen =>
    apply Option.isSome_map.trans
    unfold Packet.string
    split
    · exact isSome_bind (p.number_isSome 2) fun r => r.2.chars_isSome r.1
    · exact p.chars_isSome stringLen
  | getPosition =>
    apply Option.isSome_map.trans
    apply isSome_bind (p.number_isSome 2)
    intro x
    apply isSome_bind (x.2.number_isSome 2)
    intro y
    exact Option.isSome_map.trans (y.2.number_isSome 1)
  | skipBytes count => rfl
  | RSA_decrypt =>
    unfold Packet.read
    dsimp only
    split
    · rfl
    · exact Option.isSome_map.trans ((p.transform rsa).number_isSome 1)

theorem Packet.reads_isSome (rsa : List UInt8 → List UInt8) (reads : List Read) :
    ∀ p : Packet, (p.reads rsa 0 reads).isSome := by
  induction reads with
  | nil => exact fun _ => rfl
  | cons r rs ih =>
    intro p
    exact isSome_bind (p.read_isSome rsa r) fun v => Option.isSome_map.trans (ih v.2)

/-! ### The two paths -/

section Paths

variable {header body : List UInt8}

/-- The first packet: the bound is four bytes behind its end. -/
theorem follows_receive (h : Accepted header body) (msg : NetworkMessage) :
    Follows (2 + body.length) 4 (receive msg header body) ⟨header ++ body, 2, msg.overrun⟩ := by
  have hlen := receive_length msg body h.headerLength
  have hsize := h.size
  have hlt := h.lt
  refine { size := ?_, bound := ?_, cursor := rfl, overrun := rfl, bytes := ?_, fits := ?_ }
  · rw [List.length_append, h.headerLength]
  · omega
  · have hslice := slice_copy msg.buffer 0 (header ++ body)
    have hcopy := copy_copy msg.buffer 0 header body
    rw [h.headerLength] at hcopy
    rw [List.length_append, h.headerLength] at hslice
    rw [receive_buffer]
    rw [Nat.zero_add] at hcopy
    rw [hcopy, hslice]
  · unfold NETWORKMESSAGE_MAXSIZE at hlt ⊢
    omega

/-- A packet of whole blocks after decryption, header included. -/
def decrypted (key : Key) (header body : List UInt8) : List UInt8 :=
  header ++ mapBlocks (onBytes (decryptBlock key)) 8 (body.length / 8) body

/-- What the loop of the cipher leaves in the buffer of a connection. -/
theorem slice_cryptLoop (key : Key) (h : Accepted header body) (h8 : 8 ∣ body.length)
    (msg : NetworkMessage) :
    slice (cryptLoop (decryptBlock key) 2 body.length 0 (receive msg header body).buffer) 0
      (2 + body.length) = decrypted key header body := by
  obtain ⟨n, hn⟩ := h8
  have hlen : ∀ l : List UInt8, l.length = 8 → (onBytes (decryptBlock key) l).length = 8 :=
    fun l _ => length_onBytes _ l
  have hcount : (body.length - 0 + 7) / 8 = n := by omega
  have hcells : body.length = n * 8 := by omega
  have hdiv : body.length / 8 = n := by omega
  have hpacket := (follows_receive h msg).bytes
  rw [slice_add] at hpacket
  obtain ⟨hheader, hbody⟩ := List.append_inj hpacket (by rw [length_slice, h.headerLength])
  rw [Nat.zero_add] at hbody
  unfold decrypted
  rw [slice_add, hdiv, Nat.zero_add]
  apply congrArg₂ (· ++ ·)
  · calc
      _ = slice (receive msg header body).buffer 0 2 :=
        slice_congr fun k _ hk => cryptLoop_of_lt _ _ _ hk
      _ = header := hheader
  · rw [cryptLoop_eq, hcount, Nat.add_zero]
    conv_lhs => rw [hcells]
    rw [slice_overBlocks hlen, ← hcells, hbody]

theorem length_decrypted (key : Key) (h : Accepted header body) (h8 : 8 ∣ body.length) :
    (decrypted key header body).length = 2 + body.length := by
  rw [← slice_cryptLoop key h h8 ⟨0, 0, false, fun _ => 0⟩, length_slice]

theorem length_receive (h : Accepted header body) (msg : NetworkMessage) :
    (receive msg header body).length = 2 + body.length := by
  rw [receive_length msg body h.headerLength, ← h.size, Nat.add_comm]

theorem XTEA_decrypt_of_not_dvd (key : Key) (h : Accepted header body) (h8 : ¬ 8 ∣ body.length)
    (msg : NetworkMessage) : (XTEA_decrypt key (receive msg header body)).1 = false := by
  have hmod : ((receive msg header body).length - 2 : ℤ) % 8 ≠ 0 := by
    rw [length_receive h]
    omega
  unfold XTEA_decrypt
  rw [if_pos hmod]

theorem XTEA_decrypt_of_dvd (key : Key) (h : Accepted header body) (h8 : 8 ∣ body.length)
    (msg : NetworkMessage) {inner : ℕ}
    (hinner : inner = Bytes.value (((decrypted key header body).drop 2).take 2))
    {buffer : ℕ → UInt8} (hbuffer : buffer =
      cryptLoop (decryptBlock key) 2 body.length 0 (receive msg header body).buffer) :
    XTEA_decrypt key (receive msg header body) =
      if body.length < inner + 2 then (false, ⟨2 + body.length, 4, msg.overrun, buffer⟩)
      else (true, ⟨inner, 4, msg.overrun, buffer⟩) := by
  have hpos := h.pos
  have hpeek : slice buffer 2 2 = ((decrypted key header body).drop 2).take 2 := by
    rw [← slice_cryptLoop key h h8 msg, ← hbuffer, drop_slice _ _ (by omega),
      take_slice _ _ (by omega)]
  have hmsg : receive msg header body =
      ⟨2 + body.length, 2, msg.overrun, (receive msg header body).buffer⟩ := by
    rw [← length_receive h msg]
    rfl
  rw [hmsg, hinner, ← hpeek]
  exact XTEA_decrypt_blocks key h8 msg.overrun hbuffer.symm

/-- A later packet: it is dropped, whatever the buffer held, or the bound is the
length inside the packet. -/
theorem follows_decrypt (key : Key) (h : Accepted header body) (overrun : Bool) :
    (∀ msg, start (.encrypted key) (receive msg header body) = none) ∨
    ∃ last p, last ≤ 2 + body.length ∧ ∀ msg : NetworkMessage, msg.overrun = overrun →
      ∃ m, start (.encrypted key) (receive msg header body) = some m ∧ Follows last 0 m p := by
  by_cases h8 : 8 ∣ body.length
  swap
  · left
    intro msg
    exact if_neg (by rw [XTEA_decrypt_of_not_dvd key h h8]; exact Bool.false_ne_true)
  generalize hinner : Bytes.value (((decrypted key header body).drop 2).take 2) = inner
  by_cases hdrop : body.length < inner + 2
  · left
    intro msg
    refine if_neg ?_
    rw [XTEA_decrypt_of_dvd key h h8 msg hinner.symm rfl, if_pos hdrop]
    exact Bool.false_ne_true
  · right
    have hlt := h.lt
    unfold NETWORKMESSAGE_MAXSIZE at hlt
    refine ⟨inner + 4, ⟨(decrypted key header body).take (inner + 4), 4, overrun⟩, by omega, ?_⟩
    rintro msg rfl
    have hdecrypt := XTEA_decrypt_of_dvd key h h8 msg hinner.symm rfl
    rw [if_neg hdrop] at hdecrypt
    refine ⟨_, if_pos (congrArg Prod.fst hdecrypt), ?_⟩
    rw [hdecrypt]
    have hbytes := slice_cryptLoop key h h8 msg
    refine { size := ?_, bound := rfl, cursor := rfl, overrun := rfl, bytes := ?_, fits := ?_ }
    · rw [List.length_take, length_decrypted key h h8]
      omega
    · rw [← hbytes, take_slice _ _ (by omega)]
    · unfold NETWORKMESSAGE_MAXSIZE
      omega

end Paths

/-! ### A packet from its own bytes -/

section Main

variable {rsa : List UInt8 → List UInt8} {header body : List UInt8} {reads : List Read}

/-- Two messages that follow one packet are read alike. -/
theorem outcome_eq (hrsa : ∀ l, l.length = 128 → (rsa l).length = 128) {last gap : ℕ}
    (hgap : gap ≤ 4) {path : Path} {p : Packet} {q : List Value × Packet}
    (hq : p.reads rsa gap reads = some q) {msg m : NetworkMessage}
    (hm : start path msg = some m) (h : Follows last gap m p) :
    outcome rsa path msg reads = some (q.1, q.2.overrun) := by
  obtain ⟨hvalues, hoverrun, -⟩ := reads_some hrsa hgap reads h hq
  unfold outcome
  rw [hm, Option.map_some, hvalues, hoverrun]

theorem along_inside_mono {last last' : ℕ} (hle : last ≤ last') {m : NetworkMessage}
    (h : Along (step rsa) (Inside rsa last) m reads) :
    Along (step rsa) (Inside rsa last') m reads := by
  apply along_of_inv (I := fun _ => True) (fun _ _ _ _ => trivial) ?_ reads trivial h
  intro m r _ hinside hr
  have := hinside hr
  omega

theorem own_bytes_only_encrypted (hrsa : ∀ l, l.length = 128 → (rsa l).length = 128)
    (key : Key) (overrun : Bool) (h : Accepted header body) (reads : List Read) :
    OwnBytesOnly rsa (.encrypted key) overrun header body reads := by
  rcases follows_decrypt key h overrun with hnone | ⟨last, p, hlast, hfollows⟩
  · constructor
    · intro msg msg' _ _
      unfold outcome
      rw [hnone, hnone]
    · intro msg m _ hm
      rw [hnone] at hm
      cases hm
  · obtain ⟨q, hq⟩ := Option.isSome_iff_exists.1 (p.reads_isSome rsa reads)
    constructor
    · intro msg msg' hmsg hmsg'
      obtain ⟨m, hm, hfollow⟩ := hfollows msg hmsg
      obtain ⟨m', hm', hfollow'⟩ := hfollows msg' hmsg'
      rw [outcome_eq hrsa (by omega) hq hm hfollow, outcome_eq hrsa (by omega) hq hm' hfollow']
    · intro msg m hmsg hm
      obtain ⟨m', hm', hfollow⟩ := hfollows msg hmsg
      obtain rfl := Option.some.inj (hm.symm.trans hm')
      exact along_inside_mono hlast (reads_some hrsa (by omega) reads hfollow hq).2.2

theorem own_bytes_only_first (hrsa : ∀ l, l.length = 128 → (rsa l).length = 128)
    (overrun : Bool) (h : Accepted header body) (reads : List Read) :
    OwnBytesOnly rsa .first overrun header body reads ↔
      Within rsa .first overrun header body reads := by
  have hfollow := follows_receive h
  show _ ↔ (Packet.reads rsa 4 ⟨header ++ body, 2, overrun⟩ reads).isSome
  constructor
  · rintro ⟨-, hinside⟩
    let msg : NetworkMessage := ⟨0, 0, overrun, fun _ => 0⟩
    by_contra hnone
    rw [Option.not_isSome_iff_eq_none] at hnone
    exact reads_none hrsa (le_refl 4) reads (hfollow msg) hnone (hinside msg _ rfl rfl)
  · intro hsome
    obtain ⟨q, hq⟩ := Option.isSome_iff_exists.1 hsome
    constructor
    · rintro msg msg' rfl hmsg'
      have hfollow' := hfollow msg'
      rw [hmsg'] at hfollow'
      rw [outcome_eq hrsa (le_refl 4) hq rfl (hfollow msg),
        outcome_eq hrsa (le_refl 4) hq rfl hfollow']
    · rintro msg m rfl hm
      obtain rfl := Option.some.inj hm
      exact (reads_some hrsa (le_refl 4) reads (hfollow msg) hq).2.2

/-- **Noninterference of the buffer.** Past the first packet of a connection a
packet is interpreted from its own bytes; the first one exactly if no read ends
in the four bytes behind it. -/
theorem own_bytes_only_iff (rsa : List UInt8 → List UInt8)
    (hrsa : ∀ l, l.length = 128 → (rsa l).length = 128) (path : Path) (overrun : Bool)
    (header body : List UInt8) (h : Accepted header body) (reads : List Read) :
    OwnBytesOnly rsa path overrun header body reads ↔
      Within rsa path overrun header body reads := by
  cases path with
  | first => exact own_bytes_only_first hrsa overrun h reads
  | encrypted key => exact iff_of_true (own_bytes_only_encrypted hrsa key overrun h reads) trivial

theorem accepted_byte : Accepted [1, 0] [0x0A] := ⟨rfl, rfl, by decide, by decide⟩

/-- A read far behind the packet is refused. -/
theorem own_bytes_only_iff_byte :
    OwnBytesOnly id .first false [1, 0] [0x0A] [.getByte, .get 8] :=
  (own_bytes_only_iff id (fun _ h => h) .first false [1, 0] [0x0A] accepted_byte _).2 rfl

/-- A first packet that is its protocol id alone, and the number of the
operating system that `ProtocolGame::onRecvFirstMessage` reads behind it. -/
theorem stale_bytes_read : Accepted [1, 0] [0x0A] ∧
    ¬ OwnBytesOnly id .first false [1, 0] [0x0A] [.skipBytes 1, .get 2] := by
  refine ⟨accepted_byte, fun h => ?_⟩
  have hsame := h.1 ⟨0, 4, false, fun _ => 0⟩ ⟨0, 4, false, fun _ => 1⟩ rfl rfl
  have hzero : outcome id .first (receive ⟨0, 4, false, fun _ => 0⟩ [1, 0] [0x0A])
      [.skipBytes 1, .get 2] = some ([.nothing, .number 0], false) := rfl
  have hone : outcome id .first (receive ⟨0, 4, false, fun _ => 1⟩ [1, 0] [0x0A])
      [.skipBytes 1, .get 2] = some ([.nothing, .number 257], false) := rfl
  rw [hzero, hone] at hsame
  simp at hsame

end Main

end Connection
end ForgottenServer
