/-
# Network messages

A message is a buffer with a length and a cursor. The writers put bytes at the
cursor if `canAdd` finds room for them, the readers take bytes from it if
`canRead` finds them. The body starts at the fourth byte of the buffer: the
bytes before it are kept for the headers.

Key definitions: `NetworkMessage`, `canAdd`, `canRead`, `Built`, `Appends`.
Key theorems: `Built.written`, `appends_add`, `appends_addString`, `Appends.comp`.
-/
import Mathlib.Tactic
import ForgottenServer.Lib.Buffer
import ForgottenServer.Lib.Bytes

namespace ForgottenServer

open Buffer

def NETWORKMESSAGE_MAXSIZE : ℕ := 24590

structure NetworkMessage where
  length : ℕ
  position : ℕ
  overrun : Bool
  buffer : ℕ → UInt8

namespace NetworkMessage

def INITIAL_BUFFER_POSITION : ℕ := 4
def HEADER_LENGTH : ℕ := 2
def CHECKSUM_LENGTH : ℕ := 4
def XTEA_MULTIPLE : ℕ := 8
def MAX_BODY_LENGTH : ℕ :=
  NETWORKMESSAGE_MAXSIZE - HEADER_LENGTH - CHECKSUM_LENGTH - XTEA_MULTIPLE

/-- A new message in memory that held `memory`. -/
def new (memory : ℕ → UInt8) : NetworkMessage :=
  ⟨0, INITIAL_BUFFER_POSITION, false, memory⟩

variable (m : NetworkMessage)

/-- The bytes written so far. -/
def body : List UInt8 := slice m.buffer INITIAL_BUFFER_POSITION m.length

/-! ### Writing -/

def canAdd (size : ℕ) : Bool := size + m.position < MAX_BODY_LENGTH

/-- Bytes copied to the cursor, which moves behind them. -/
def put (bytes : List UInt8) : NetworkMessage :=
  { m with
    buffer := copy m.buffer m.position bytes
    position := m.position + bytes.length
    length := m.length + bytes.length }

def addByte (value : UInt8) : NetworkMessage :=
  if !m.canAdd 1 then m else m.put [value]

/-- `NetworkMessage::add` of a type of `size` bytes. -/
def add (size value : ℕ) : NetworkMessage :=
  if !m.canAdd size then m else m.put (Bytes.put size value)

def addBytes (bytes : List UInt8) : NetworkMessage :=
  if !m.canAdd bytes.length || 8192 < bytes.length then m else m.put bytes

/-- `NetworkMessage::addPaddingBytes`. The cursor stays. -/
def addPaddingBytes (n : ℕ) : NetworkMessage :=
  if !m.canAdd n then m
  else { m with
    buffer := copy m.buffer m.position (List.replicate n 0x33)
    length := m.length + n }

def addString (value : List UInt8) : NetworkMessage :=
  if !m.canAdd (value.length + 2) || 8192 < value.length then m
  else (m.add 2 value.length).put value

def addPosition (x y : UInt16) (z : UInt8) : NetworkMessage :=
  ((m.add 2 x.toNat).add 2 y.toNat).addByte z

/-! ### Reading -/

/-- `NetworkMessage::canRead`, without the flag that it sets. -/
def canRead (size : ℕ) : Bool :=
  !(m.length + 4 < m.position + size || NETWORKMESSAGE_MAXSIZE ≤ size + m.position)

def setOverrun : NetworkMessage := { m with overrun := true }

def skipBytes (count : ℕ) : NetworkMessage := { m with position := m.position + count }

/-- The `size` bytes at the cursor. -/
def peek (size : ℕ) : List UInt8 := slice m.buffer m.position size

def getByte : UInt8 × NetworkMessage :=
  if !m.canRead 1 then (0, m.setOverrun) else (m.buffer m.position, m.skipBytes 1)

/-- `NetworkMessage::get` of a type of `size` bytes. -/
def get (size : ℕ) : ℕ × NetworkMessage :=
  if !m.canRead size then (0, m.setOverrun) else (Bytes.value (m.peek size), m.skipBytes size)

/-- The bytes of a string of known length. -/
def getChars (stringLen : ℕ) : List UInt8 × NetworkMessage :=
  if !m.canRead stringLen then ([], m.setOverrun)
  else (m.peek stringLen, m.skipBytes stringLen)

def getString (stringLen : ℕ) : List UInt8 × NetworkMessage :=
  if stringLen = 0 then (m.get 2).2.getChars (m.get 2).1 else m.getChars stringLen

def getPosition : (ℕ × ℕ × UInt8) × NetworkMessage :=
  let x := m.get 2
  let y := x.2.get 2
  let z := y.2.getByte
  ((x.1, y.1, z.1), z.2)

def setLength (newLength : ℕ) : NetworkMessage := { m with length := newLength }

/-- `NetworkMessage::decodeHeader` -/
def decodeHeader : NetworkMessage := m.setLength (Bytes.value (slice m.buffer 0 2))

/-- `NetworkMessage::getBodyBuffer`, what it does to the cursor. -/
def getBodyBuffer : NetworkMessage := { m with position := HEADER_LENGTH }

/-! ### What writers do -/

/-- The messages that the writers make from a new one. -/
inductive Built : NetworkMessage → Prop
  | new (memory : ℕ → UInt8) : Built (.new memory)
  | addByte (m : NetworkMessage) (value : UInt8) : Built m → Built (m.addByte value)
  | add (m : NetworkMessage) (size value : ℕ) : Built m → Built (m.add size value)
  | addBytes (m : NetworkMessage) (bytes : List UInt8) : Built m → Built (m.addBytes bytes)
  | addString (m : NetworkMessage) (value : List UInt8) : Built m → Built (m.addString value)

/-- The cursor is behind the body, which ends before the last bytes that may be
written. -/
structure Written : Prop where
  position : m.position = m.length + INITIAL_BUFFER_POSITION
  room : m.position < MAX_BODY_LENGTH

variable {m}

theorem written_new (memory : ℕ → UInt8) : (new memory).Written :=
  ⟨rfl, show INITIAL_BUFFER_POSITION < MAX_BODY_LENGTH by decide⟩

theorem Written.put (h : m.Written) {bytes : List UInt8}
    (hroom : bytes.length + m.position < MAX_BODY_LENGTH) : (m.put bytes).Written := by
  have := h.position
  constructor
  · show m.position + bytes.length = m.length + bytes.length + INITIAL_BUFFER_POSITION
    omega
  · show m.position + bytes.length < MAX_BODY_LENGTH
    omega

theorem body_put (h : m.Written) (bytes : List UInt8) : (m.put bytes).body = m.body ++ bytes := by
  show slice (copy m.buffer m.position bytes) INITIAL_BUFFER_POSITION (m.length + bytes.length) = _
  rw [h.position, Nat.add_comm m.length INITIAL_BUFFER_POSITION]
  exact slice_copy_append m.buffer INITIAL_BUFFER_POSITION m.length bytes

@[simp] theorem length_body (m : NetworkMessage) : m.body.length = m.length :=
  length_slice _ _ _

theorem written_add (h : m.Written) (size value : ℕ) : (m.add size value).Written := by
  unfold NetworkMessage.add canAdd
  split_ifs with hc
  · exact h
  · exact h.put (by simpa using hc)

/-- What the writers make is written. -/
theorem Built.written (h : Built m) : m.Written := by
  induction h with
  | new memory => exact written_new memory
  | addByte m value _ ih =>
    unfold NetworkMessage.addByte canAdd
    split_ifs with hc
    · exact ih
    · exact ih.put (by simpa using hc)
  | add m size value _ ih => exact written_add ih size value
  | addBytes m bytes _ ih =>
    unfold NetworkMessage.addBytes canAdd
    split_ifs with hc
    · exact ih
    · exact ih.put (by simp at hc; exact hc.1)
  | addString m value _ ih =>
    unfold NetworkMessage.addString canAdd
    split_ifs with hc
    · exact ih
    · simp only [Bool.or_eq_true, Bool.not_eq_true', decide_eq_false_iff_not, decide_eq_true_eq,
        not_or, not_lt] at hc
      refine (written_add ih _ _).put ?_
      unfold NetworkMessage.add canAdd NetworkMessage.put
      rw [if_neg (by simp; omega)]
      show value.length + (m.position + (Bytes.put 2 value.length).length) < MAX_BODY_LENGTH
      rw [Bytes.length_put]
      omega

/-! ### Writers as bytes -/

/-- With room for it, a writer appends these bytes to the body. -/
def Appends (f : NetworkMessage → NetworkMessage) (bytes : List UInt8) : Prop :=
  ∀ m, m.Written → bytes.length + m.position < MAX_BODY_LENGTH →
    (f m).Written ∧ (f m).body = m.body ++ bytes

theorem Appends.id : Appends (fun m => m) [] := fun m h _ => ⟨h, by simp⟩

/-- One writer after another. -/
theorem Appends.comp {f g : NetworkMessage → NetworkMessage} {a b : List UInt8}
    (hf : Appends f a) (hg : Appends g b) : Appends (fun m => g (f m)) (a ++ b) := by
  intro m h hroom
  rw [List.length_append] at hroom
  obtain ⟨h1, h2⟩ := hf m h (by omega)
  have hlen := congrArg List.length h2
  rw [List.length_append, length_body, length_body] at hlen
  have hp := h.position
  have hp1 := h1.position
  obtain ⟨h3, h4⟩ := hg (f m) h1 (by omega)
  exact ⟨h3, by rw [h4, h2, List.append_assoc]⟩

theorem Appends.ite {p : Prop} [Decidable p] {f g : NetworkMessage → NetworkMessage}
    {a b : List UInt8} (hf : Appends f a) (hg : Appends g b) :
    Appends (fun m => if p then f m else g m) (if p then a else b) := by
  split
  · exact hf
  · exact hg

theorem appends_put (bytes : List UInt8) : Appends (fun m => m.put bytes) bytes :=
  fun _ h hroom => ⟨h.put hroom, body_put h bytes⟩

theorem appends_addByte (value : UInt8) : Appends (fun m => m.addByte value) [value] := by
  intro m h hroom
  have hc : m.canAdd 1 = true := decide_eq_true hroom
  show (m.addByte value).Written ∧ (m.addByte value).body = _
  unfold addByte
  rw [hc]
  exact appends_put [value] m h hroom

theorem appends_add (size value : ℕ) :
    Appends (fun m => m.add size value) (Bytes.put size value) := by
  intro m h hroom
  have hc : m.canAdd size = true := by
    rw [Bytes.length_put] at hroom
    exact decide_eq_true hroom
  show (m.add size value).Written ∧ (m.add size value).body = _
  unfold add
  rw [hc]
  exact appends_put _ m h hroom

theorem appends_addBytes {bytes : List UInt8} (h : bytes.length ≤ 8192) :
    Appends (fun m => m.addBytes bytes) bytes := by
  intro m hm hroom
  have hc : m.canAdd bytes.length = true := decide_eq_true hroom
  show (m.addBytes bytes).Written ∧ (m.addBytes bytes).body = _
  unfold addBytes
  rw [if_neg (by simp [hc, h])]
  exact appends_put bytes m hm hroom

/-- What `NetworkMessage::addString` writes: nothing for a string that is too long. -/
def stringBytes (value : List UInt8) : List UInt8 :=
  if 8192 < value.length then [] else Bytes.put 2 value.length ++ value

theorem appends_addString (value : List UInt8) :
    Appends (fun m => m.addString value) (stringBytes value) := by
  unfold stringBytes
  split
  · next hlong =>
    intro m h _
    show (m.addString value).Written ∧ (m.addString value).body = _
    unfold addString
    rw [if_pos (by simp [hlong])]
    exact ⟨h, by simp⟩
  · next hshort =>
    intro m h hroom
    have hc : m.canAdd (value.length + 2) = true := by
      rw [List.length_append, Bytes.length_put] at hroom
      refine decide_eq_true ?_
      omega
    show (m.addString value).Written ∧ (m.addString value).body = _
    unfold addString
    rw [if_neg (by simp [hc, hshort])]
    exact (appends_add 2 value.length).comp (appends_put value) m h hroom

theorem appends_addPosition (x y : UInt16) (z : UInt8) :
    Appends (fun m => m.addPosition x y z)
      (Bytes.put 2 x.toNat ++ Bytes.put 2 y.toNat ++ [z]) :=
  ((appends_add 2 x.toNat).comp (appends_add 2 y.toNat)).comp (appends_addByte z)

end NetworkMessage
end ForgottenServer
