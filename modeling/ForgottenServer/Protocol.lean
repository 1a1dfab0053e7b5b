/-
# Framing

The messages for a client are appended to one output buffer while it has room
(`Protocol::getOutputBuffer`). Before it is sent, `Protocol::onSendMessage` puts
the length of the bodies in front, fills the whole up to a multiple of eight,
encrypts it and puts the length of the result in front. The filling goes
through `canAdd`, which refuses it near the end of the buffer; then the last
block of the cipher reaches past the message.

Key definitions: `OutputMessage`, `onSendMessage`, `XTEA_decrypt`, `receive`, `Framed`.
Key theorems: `framed_iff_room`, `framed_iff`.
-/
import Mathlib.Tactic
import ForgottenServer.NetworkMessage
import ForgottenServer.Xtea

namespace ForgottenServer

open Buffer NetworkMessage

/-! ### Output messages -/

structure OutputMessage extends NetworkMessage where
  outputBufferStart : ℕ

namespace OutputMessage

def new (memory : ℕ → UInt8) : OutputMessage :=
  ⟨.new memory, INITIAL_BUFFER_POSITION⟩

/-- `OutputMessage::append` -/
def append (out : OutputMessage) (msg : NetworkMessage) : OutputMessage :=
  { out with toNetworkMessage := out.put (slice msg.buffer 4 msg.length) }

/-- `OutputMessage::writeMessageLength` and `OutputMessage::addCryptoHeader` -/
def writeMessageLength (out : OutputMessage) : OutputMessage :=
  { out with
    outputBufferStart := out.outputBufferStart - 2
    buffer := copy out.buffer (out.outputBufferStart - 2) (Bytes.put 2 out.length)
    length := out.length + 2 }

/-- The bytes that are sent: `getLength()` bytes from `getOutputBuffer()`. -/
def wire (out : OutputMessage) : List UInt8 := slice out.buffer out.outputBufferStart out.length

end OutputMessage

/-! ### The protocol -/

structure Protocol where
  key : Protocol.Key
  encryptionEnabled : Bool := false
  rawMessages : Bool := false
  outputBuffer : Option OutputMessage := none

namespace Protocol

/-- `Protocol::getOutputBuffer`. A new buffer is taken from memory that held
`memory`; the old one is dropped. -/
def getOutputBuffer (p : Protocol) (memory : ℕ → UInt8) (size : ℕ) : OutputMessage :=
  match p.outputBuffer with
  | some out => if out.length + size ≤ MAX_BODY_LENGTH then out else .new memory
  | none => .new memory

/-- `ProtocolGame::writeToOutputBuffer` -/
def writeToOutputBuffer (p : Protocol) (memory : ℕ → UInt8) (msg : NetworkMessage) : Protocol :=
  { p with outputBuffer := some ((p.getOutputBuffer memory msg.length).append msg) }

/-- `Protocol::XTEA_encrypt` -/
def XTEA_encrypt (key : Key) (msg : OutputMessage) : OutputMessage :=
  let paddingBytes := msg.length % 8
  let msg := if paddingBytes ≠ 0 then
      { msg with toNetworkMessage := msg.addPaddingBytes (8 - paddingBytes) }
    else msg
  { msg with buffer := cryptLoop (encryptBlock key) msg.outputBufferStart msg.length 0 msg.buffer }

/-- `Protocol::XTEA_decrypt` -/
def XTEA_decrypt (key : Key) (msg : NetworkMessage) : Bool × NetworkMessage :=
  if ((msg.length : ℤ) - 2) % 8 ≠ 0 then (false, msg)
  else
    let msg := { msg with
      buffer := cryptLoop (decryptBlock key) msg.position (msg.length - 2) 0 msg.buffer }
    let inner := msg.get 2
    if (inner.2.length : ℤ) - 4 < inner.1 then (false, inner.2)
    else (true, inner.2.setLength inner.1)

/-- `Protocol::onSendMessage` -/
def onSendMessage (p : Protocol) (msg : OutputMessage) : OutputMessage :=
  if !p.rawMessages then
    let msg := msg.writeMessageLength
    if p.encryptionEnabled then (XTEA_encrypt p.key msg).writeMessageLength else msg
  else msg

/-- The message of a connection once a packet has arrived: the header is read
into its first bytes (`Connection::parseHeader`), the body behind it
(`Connection::parsePacket`). -/
def receive (msg : NetworkMessage) (header body : List UInt8) : NetworkMessage :=
  let msg := { msg with buffer := copy msg.buffer 0 header }.decodeHeader
  let msg := (msg.setLength (msg.length + HEADER_LENGTH)).getBodyBuffer
  { msg with buffer := copy msg.buffer HEADER_LENGTH body }

/-- What was sent starts with the length of the rest, which is a number of
whole blocks, and whoever receives it decrypts it to `bodies`. -/
def Framed (key : Key) (sent bodies : List UInt8) : Prop :=
  Bytes.value (sent.take 2) = (sent.drop 2).length ∧ 8 ∣ (sent.drop 2).length ∧
    ∀ msg : NetworkMessage,
      (XTEA_decrypt key (receive msg (sent.take 2) (sent.drop 2))).1 = true ∧
        (XTEA_decrypt key (receive msg (sent.take 2) (sent.drop 2))).2.peek
          (XTEA_decrypt key (receive msg (sent.take 2) (sent.drop 2))).2.length = bodies

/-! ### Sending one buffer -/

section Send

variable (key : Key) {out : OutputMessage} {bodies : List UInt8}

/-- A buffer that holds bodies, and nothing else yet. -/
structure Holds (out : OutputMessage) (bodies : List UInt8) : Prop where
  start : out.outputBufferStart = 4
  position : out.position = out.length + 4
  length : out.length = bodies.length
  body : out.body = bodies
  room : bodies.length ≤ MAX_BODY_LENGTH

theorem receive_buffer (msg : NetworkMessage) (header body : List UInt8) :
    (receive msg header body).buffer = copy (copy msg.buffer 0 header) 2 body := rfl

theorem receive_length (msg : NetworkMessage) {header : List UInt8} (body : List UInt8)
    (h : header.length = 2) : (receive msg header body).length = Bytes.value header + 2 := by
  have hslice : slice (copy msg.buffer 0 header) 0 2 = header := by
    have := slice_copy msg.buffer 0 header
    rwa [h] at this
  show Bytes.value (slice (copy msg.buffer 0 header) 0 2) + 2 = _
  rw [hslice]

theorem slice_receive (msg : NetworkMessage) (header body : List UInt8) :
    slice (receive msg header body).buffer 2 body.length = body := by
  rw [receive_buffer]
  exact slice_copy _ 2 body

/-- The blocks of a message are decrypted, and its length is read from them. -/
theorem XTEA_decrypt_blocks (key : Key) {n : ℕ} (h8 : 8 ∣ n) (overrun : Bool)
    {buffer plain : ℕ → UInt8} (hplain : cryptLoop (decryptBlock key) 2 n 0 buffer = plain) :
    XTEA_decrypt key ⟨2 + n, 2, overrun, buffer⟩ =
      if n < Bytes.value (slice plain 2 2) + 2 then (false, ⟨2 + n, 4, overrun, plain⟩)
      else (true, ⟨Bytes.value (slice plain 2 2), 4, overrun, plain⟩) := by
  have hread : (⟨2 + n, 2, overrun, plain⟩ : NetworkMessage).canRead 2 = true := by
    simp [canRead, NETWORKMESSAGE_MAXSIZE]
  have hget : (⟨2 + n, 2, overrun, plain⟩ : NetworkMessage).get 2 =
      (Bytes.value (slice plain 2 2), ⟨2 + n, 4, overrun, plain⟩) := by
    unfold NetworkMessage.get
    rw [hread]
    rfl
  unfold XTEA_decrypt
  dsimp only
  rw [if_neg (by push_cast; omega), Nat.add_sub_cancel_left, hplain, hget]
  dsimp only
  by_cases hshort : n < Bytes.value (slice plain 2 2) + 2
  · rw [if_pos hshort, if_pos (by push_cast; omega)]
  · rw [if_neg hshort, if_neg (by push_cast; omega)]
    rfl

/-- A frame of whole blocks, `inner` under the cipher, is decrypted to what
`inner` holds behind its length. -/
theorem decrypt_receive {n : ℕ} {inner header body : List UInt8} {start : ℕ}
    {buffer : ℕ → UInt8} (hinner : slice buffer start (n * 8) = inner)
    (hbody : body = slice (cryptLoop (encryptBlock key) start (n * 8) 0 buffer) start (n * 8))
    (hheader : header.length = 2) (hn : Bytes.value header = n * 8) (hpos : 0 < n)
    (hle : Bytes.value (inner.take 2) + 2 ≤ n * 8) (msg : NetworkMessage) :
    (XTEA_decrypt key (receive msg header body)).1 = true ∧
      (XTEA_decrypt key (receive msg header body)).2.peek
          (XTEA_decrypt key (receive msg header body)).2.length =
        (inner.drop 2).take (Bytes.value (inner.take 2)) := by
  have hlen : (receive msg header body).length = 2 + n * 8 := by
    rw [receive_length msg body hheader, hn, Nat.add_comm]
  have hposition : (receive msg header body).position = 2 := rfl
  have hcrypt : slice (receive msg header body).buffer 2 (n * 8) = body := by
    have hb : body.length = n * 8 := by rw [hbody, length_slice]
    have := slice_receive msg header body
    rwa [hb] at this
  generalize receive msg header body = m at hlen hposition hcrypt ⊢
  obtain ⟨length, position, overrun, buffer'⟩ := m
  dsimp only at hlen hposition hcrypt
  subst hlen hposition
  have hplain := cryptLoop_inverse (decryptBlock_encryptBlock key) (hcrypt.trans hbody)
  rw [hinner] at hplain
  generalize hloop : cryptLoop (decryptBlock key) 2 (n * 8) 0 buffer' = plain at hplain
  have htake : slice plain 2 2 = inner.take 2 := by
    rw [← hplain, take_slice _ _ (by omega)]
  have hdrop : slice plain 4 (n * 8 - 2) = inner.drop 2 := by
    rw [← hplain, drop_slice _ _ (by omega)]
  have hdecrypt := XTEA_decrypt_blocks key (Dvd.intro_left n rfl) overrun hloop
  rw [htake, if_neg (by omega)] at hdecrypt
  rw [hdecrypt]
  refine ⟨rfl, ?_⟩
  show slice plain 4 (Bytes.value (inner.take 2)) = _
  rw [← hdrop, take_slice _ _ (by omega)]

/-- What `Protocol::XTEA_encrypt` works on: the message filled up, if there is room. -/
theorem XTEA_encrypt_eq (msg : OutputMessage) : ∃ filled : OutputMessage,
    XTEA_encrypt key msg = { filled with
      buffer := cryptLoop (encryptBlock key) filled.outputBufferStart filled.length 0 filled.buffer } ∧
    filled.outputBufferStart = msg.outputBufferStart ∧
    ((filled = msg ∧
        (msg.length % 8 = 0 ∨ MAX_BODY_LENGTH ≤ 8 - msg.length % 8 + msg.position)) ∨
      (msg.length % 8 ≠ 0 ∧ 8 - msg.length % 8 + msg.position < MAX_BODY_LENGTH ∧
        filled.length = msg.length + (8 - msg.length % 8) ∧
        filled.buffer = copy msg.buffer msg.position (List.replicate (8 - msg.length % 8) 0x33))) := by
  unfold XTEA_encrypt
  by_cases hmod : msg.length % 8 = 0
  · exact ⟨msg, by simp [hmod], rfl, .inl ⟨rfl, .inl hmod⟩⟩
  · refine ⟨{ msg with toNetworkMessage := msg.addPaddingBytes (8 - msg.length % 8) },
      by simp only [ne_eq, hmod, not_false_eq_true, if_true], rfl, ?_⟩
    unfold NetworkMessage.addPaddingBytes canAdd
    by_cases hroom : 8 - msg.length % 8 + msg.position < MAX_BODY_LENGTH
    · right
      simp [hmod, hroom]
    · left
      simp only [hroom, decide_false, Bool.not_false, if_true]
      exact ⟨trivial, .inr (Nat.le_of_not_lt hroom)⟩

/-- The bytes that leave an encrypting protocol: the length of a message that
starts with the length of the bodies and the bodies, and that message under
the cipher. -/
theorem wire_onSendMessage (h : Holds out bodies) : ∃ (filled : ℕ → UInt8) (length : ℕ),
    (onSendMessage { key, encryptionEnabled := true } out).wire =
      Bytes.put 2 length ++ slice (cryptLoop (encryptBlock key) 2 length 0 filled) 2 length ∧
    (∃ padding, slice filled 2 length = Bytes.put 2 bodies.length ++ (bodies ++ padding)) ∧
    length ≤ bodies.length + 9 ∧ bodies.length + 2 ≤ length ∧
    (8 ∣ length ↔ bodies.length ≤ 24566 ∨ bodies.length = 24574) := by
  obtain ⟨filled, hencrypt, hstart, hfilled⟩ := XTEA_encrypt_eq key out.writeMessageLength
  have hbody := h.body
  have hposition := h.position
  have hlength := h.length
  have hroom := h.room
  have hout : out.writeMessageLength = { out with
      outputBufferStart := 2, buffer := copy out.buffer 2 (Bytes.put 2 bodies.length)
      length := bodies.length + 2 } := by
    unfold OutputMessage.writeMessageLength
    rw [h.start, hlength]
  have hinner : slice (copy out.buffer 2 (Bytes.put 2 bodies.length)) 2 (bodies.length + 2) =
      Bytes.put 2 bodies.length ++ bodies := by
    have hcopy := slice_copy out.buffer 2 (Bytes.put 2 bodies.length)
    rw [Bytes.length_put] at hcopy
    unfold body INITIAL_BUFFER_POSITION at hbody
    rw [hlength] at hbody
    rw [Nat.add_comm, slice_add, hcopy, slice_copy_of_disjoint _ (.inr (by simp)), hbody]
  have hwire : ∀ (f : OutputMessage), f.outputBufferStart = 2 →
      ({ f with buffer := cryptLoop (encryptBlock key) f.outputBufferStart f.length 0 f.buffer } :
        OutputMessage).writeMessageLength.wire =
      Bytes.put 2 f.length ++
        slice (cryptLoop (encryptBlock key) 2 f.length 0 f.buffer) 2 f.length := by
    intro f hf
    have hcopy := slice_copy (cryptLoop (encryptBlock key) 2 f.length 0 f.buffer) 0
      (Bytes.put 2 f.length)
    rw [Bytes.length_put] at hcopy
    unfold OutputMessage.writeMessageLength OutputMessage.wire
    rw [hf]
    dsimp only
    rw [Nat.add_comm, Nat.sub_self, slice_add, hcopy,
      slice_copy_of_disjoint _ (.inr (by simp))]
  have hsent : (onSendMessage { key, encryptionEnabled := true } out).wire =
      Bytes.put 2 filled.length ++
        slice (cryptLoop (encryptBlock key) 2 filled.length 0 filled.buffer) 2 filled.length := by
    rw [hout] at hstart
    show ((XTEA_encrypt key out.writeMessageLength).writeMessageLength).wire = _
    rw [hencrypt]
    exact hwire filled hstart
  rw [hout] at hfilled
  unfold MAX_BODY_LENGTH NETWORKMESSAGE_MAXSIZE HEADER_LENGTH CHECKSUM_LENGTH XTEA_MULTIPLE
    at hfilled hroom
  dsimp only at hfilled
  refine ⟨filled.buffer, filled.length, hsent, ?_⟩
  rcases hfilled with ⟨rfl, hno⟩ | ⟨hmod, hok, hlen, hbuf⟩
  · refine ⟨⟨[], by rw [hinner, List.append_nil]⟩, ?_, ?_, ?_⟩
    · show bodies.length + 2 ≤ bodies.length + 9
      omega
    · exact le_refl _
    · show 8 ∣ bodies.length + 2 ↔ _
      omega
  · refine ⟨⟨List.replicate (8 - (bodies.length + 2) % 8) 0x33, ?_⟩, by omega, by omega, by omega⟩
    have happend := slice_copy_append (copy out.buffer 2 (Bytes.put 2 bodies.length)) 2
      (bodies.length + 2) (List.replicate (8 - (bodies.length + 2) % 8) 0x33)
    have hpos : out.position = 2 + (bodies.length + 2) := by omega
    rw [List.length_replicate, hinner, ← hpos] at happend
    rw [hbuf, hlen, happend, List.append_assoc]

/-- A buffer is framed exactly if its padding has room or is not needed. -/
theorem framed_iff_room (h : Holds out bodies) :
    Framed key (onSendMessage { key, encryptionEnabled := true } out).wire bodies ↔
      bodies.length ≤ 24566 ∨ bodies.length = 24574 := by
  obtain ⟨filled, length, hwire, ⟨padding, hinner⟩, hle, hge, hiff⟩ := wire_onSendMessage key h
  have hroom := h.room
  unfold MAX_BODY_LENGTH NETWORKMESSAGE_MAXSIZE HEADER_LENGTH CHECKSUM_LENGTH XTEA_MULTIPLE at hroom
  have htake : (onSendMessage { key, encryptionEnabled := true } out).wire.take 2 =
      Bytes.put 2 length := by
    rw [hwire, List.take_left' (Bytes.length_put 2 length)]
  have hdrop : (onSendMessage { key, encryptionEnabled := true } out).wire.drop 2 =
      slice (cryptLoop (encryptBlock key) 2 length 0 filled) 2 length := by
    rw [hwire, List.drop_left' (Bytes.length_put 2 length)]
  rw [← hiff]
  unfold Framed
  rw [htake, hdrop, length_slice]
  constructor
  · intro hframed
    exact hframed.2.1
  · rintro ⟨n, rfl⟩
    rw [Nat.mul_comm] at hwire htake hdrop hinner hle hge ⊢
    have hvalue : Bytes.value (Bytes.put 2 (n * 8)) = n * 8 :=
      Bytes.value_put_of_lt (by norm_num; omega)
    have htake2 : (slice filled 2 (n * 8)).take 2 = Bytes.put 2 bodies.length := by
      rw [hinner, List.take_left' (Bytes.length_put 2 _)]
    have hdrop2 : (slice filled 2 (n * 8)).drop 2 = bodies ++ padding := by
      rw [hinner, List.drop_left' (Bytes.length_put 2 _)]
    have hbodies : Bytes.value (Bytes.put 2 bodies.length) = bodies.length :=
      Bytes.value_put_of_lt (by norm_num; omega)
    refine ⟨hvalue, Nat.dvd_mul_left 8 n, fun msg => ?_⟩
    have hdecrypt := decrypt_receive key rfl rfl (Bytes.length_put 2 _) hvalue (by omega)
      (by rw [htake2, hbodies]; omega) msg
    rw [htake2, hdrop2, hbodies, List.take_left' rfl] at hdecrypt
    exact hdecrypt

end Send

/-! ### Filling the buffer -/

/-- Messages written one after another, each with what the memory holds that a
new buffer would be taken from. -/
def writeAll (p : Protocol) (msgs : List (NetworkMessage × (ℕ → UInt8))) : Protocol :=
  msgs.foldl (fun p m => p.writeToOutputBuffer m.2 m.1) p

/-- The bodies of messages, in order. -/
def bodies (msgs : List NetworkMessage) : List UInt8 := (msgs.map (·.body)).flatten

/-- The messages in the output buffer: those since it was taken. -/
def inBuffer (msgs : List NetworkMessage) : List NetworkMessage :=
  msgs.foldl (fun current m =>
    if (bodies current).length + m.length ≤ MAX_BODY_LENGTH then current ++ [m] else [m]) []

theorem bodies_append (msgs : List NetworkMessage) (m : NetworkMessage) :
    bodies (msgs ++ [m]) = bodies msgs ++ m.body := by
  simp [bodies]

/-- The output buffer is absent at first, then it holds the messages written to it. -/
def Current (p : Protocol) (current : List NetworkMessage) : Prop :=
  match p.outputBuffer with
  | none => current = []
  | some out => Holds out (bodies current)

theorem holds_new (memory : ℕ → UInt8) : Holds (.new memory) (bodies []) :=
  ⟨rfl, rfl, rfl, rfl, Nat.zero_le _⟩

theorem Holds.append {out : OutputMessage} {written : List UInt8} {msg : NetworkMessage}
    (h : Holds out written) (hroom : written.length + msg.length ≤ MAX_BODY_LENGTH) :
    Holds (out.append msg) (written ++ msg.body) := by
  have hlen : (slice msg.buffer 4 msg.length).length = msg.length := length_slice _ _ _
  have hlength := h.length
  have hposition := h.position
  constructor
  · exact h.start
  · show out.position + _ = out.length + _ + 4
    omega
  · show out.length + _ = _
    rw [List.length_append, length_body, hlen, hlength]
  · show slice (copy out.buffer out.position (slice msg.buffer 4 msg.length)) 4 (out.length + _) = _
    rw [hposition, Nat.add_comm out.length 4, slice_copy_append]
    exact congrArg (· ++ msg.body) h.body
  · rwa [List.length_append, length_body]

/-- One message more. -/
theorem Current.write {p : Protocol} {current : List NetworkMessage} {msg : NetworkMessage}
    (memory : ℕ → UInt8) (h : Current p current) (hmsg : msg.Written) :
    Current (p.writeToOutputBuffer memory msg)
      (if (bodies current).length + msg.length ≤ MAX_BODY_LENGTH then current ++ [msg]
        else [msg]) := by
  have hfits : msg.length ≤ MAX_BODY_LENGTH := by
    have h1 := hmsg.position
    have h2 := hmsg.room
    omega
  have hfirst : Holds ((OutputMessage.new memory).append msg) (bodies [msg]) := by
    have hroom : (bodies []).length + msg.length ≤ MAX_BODY_LENGTH := by simpa [bodies] using hfits
    simpa [bodies] using (holds_new memory).append hroom
  unfold Current at h
  show Holds ((p.getOutputBuffer memory msg.length).append msg) _
  unfold getOutputBuffer
  cases hp : p.outputBuffer with
  | none =>
    rw [hp] at h
    dsimp only at h
    rw [h]
    simpa [bodies, hfits] using hfirst
  | some out =>
    rw [hp] at h
    dsimp only at h ⊢
    rw [h.length]
    split
    · next hroom =>
      rw [bodies_append]
      exact h.append hroom
    · exact hfirst

theorem current_writeAll {key : Key} {msgs : List (NetworkMessage × (ℕ → UInt8))}
    (hbuilt : ∀ m ∈ msgs, Built m.1) :
    ∀ (p : Protocol) (current : List NetworkMessage), Current p current → p.key = key →
      p.encryptionEnabled = true → p.rawMessages = false →
      Current (p.writeAll msgs) ((msgs.map (·.1)).foldl (fun current m =>
        if (bodies current).length + m.length ≤ MAX_BODY_LENGTH then current ++ [m] else [m])
          current) ∧
        ∀ out, onSendMessage (p.writeAll msgs) out =
          onSendMessage { key, encryptionEnabled := true } out := by
  induction msgs with
  | nil =>
    intro p current h hk he hr
    refine ⟨h, fun out => ?_⟩
    show onSendMessage p out = _
    unfold onSendMessage
    rw [hk, he, hr]
  | cons m msgs ih =>
    intro p current h hk he hr
    have hm := (hbuilt m List.mem_cons_self).written
    exact ih (fun m' hm' => hbuilt m' (List.mem_cons_of_mem m hm')) _ _ (h.write m.2 hm) hk he hr

/-- What the last buffer holds when it is sent. -/
theorem framed_of_writeAll {key : Key} {msgs : List (NetworkMessage × (ℕ → UInt8))}
    (hbuilt : ∀ m ∈ msgs, Built m.1) {out : OutputMessage}
    (hout : (writeAll { key, encryptionEnabled := true } msgs).outputBuffer = some out) :
    Framed key (onSendMessage (writeAll { key, encryptionEnabled := true } msgs) out).wire
        (bodies (inBuffer (msgs.map (·.1)))) ↔
      (bodies (inBuffer (msgs.map (·.1)))).length ≤ 24566 ∨
        (bodies (inBuffer (msgs.map (·.1)))).length = 24574 := by
  obtain ⟨hcurrent, hsend⟩ :=
    current_writeAll hbuilt { key, encryptionEnabled := true } [] rfl rfl rfl rfl
  unfold Current at hcurrent
  rw [hout] at hcurrent
  rw [hsend]
  exact framed_iff_room key hcurrent

/-- **Wire framing.** The second loop of the cipher inverts the first. Of the
messages in the output buffer, what is sent is framed and decrypts to their
bodies exactly if these are at most 24566 bytes, or 24574. -/
theorem framed_iff (key : Key) (msgs : List (NetworkMessage × (ℕ → UInt8)))
    (hbuilt : ∀ m ∈ msgs, Built m.1) :
    (∀ v, decryptBlock key (encryptBlock key v) = v) ∧
    ∀ out, (writeAll { key, encryptionEnabled := true } msgs).outputBuffer = some out →
      (Framed key (onSendMessage (writeAll { key, encryptionEnabled := true } msgs) out).wire
          (bodies (inBuffer (msgs.map (·.1)))) ↔
        (bodies (inBuffer (msgs.map (·.1)))).length ≤ 24566 ∨
          (bodies (inBuffer (msgs.map (·.1)))).length = 24574) :=
  ⟨decryptBlock_encryptBlock key, fun _ hout => framed_of_writeAll hbuilt hout⟩

/-- A message of one byte. -/
def shortMessage : NetworkMessage := (NetworkMessage.new fun _ => 0).addByte 0x1D

theorem built_shortMessage : Built shortMessage := .addByte _ _ (.new _)

/-- A key of zeros. -/
def zeroKey : Key := fun _ => 0

theorem framed_iff_short :
    ∃ out, (writeAll { key := zeroKey, encryptionEnabled := true }
        [(shortMessage, fun _ => 0)]).outputBuffer = some out ∧
      Framed zeroKey (onSendMessage (writeAll { key := zeroKey, encryptionEnabled := true }
        [(shortMessage, fun _ => 0)]) out).wire [0x1D] :=
  ⟨_, rfl, ((framed_iff zeroKey [(shortMessage, fun _ => 0)]
    (by simpa using built_shortMessage)).2 _ rfl).2 (.inl (by decide))⟩

/-- A message of 24567 bytes. -/
def longMessage : NetworkMessage :=
  (((NetworkMessage.new fun _ => 0).addBytes (List.replicate 8189 0)).addBytes
    (List.replicate 8189 0)).addBytes (List.replicate 8189 0)

theorem built_longMessage : Built longMessage :=
  .addBytes _ _ (.addBytes _ _ (.addBytes _ _ (.new _)))

theorem length_longMessage : longMessage.body.length = 24567 := by
  have hpart : Appends (fun m => m.addBytes (List.replicate 8189 0)) (List.replicate 8189 0) :=
    appends_addBytes (by rw [List.length_replicate]; norm_num)
  have hroom : (List.replicate 8189 (0 : UInt8) ++ List.replicate 8189 0 ++
      List.replicate 8189 0).length + (NetworkMessage.new fun _ => 0).position < MAX_BODY_LENGTH := by
    simp only [List.length_append, List.length_replicate]
    decide
  have hbody := (((hpart.comp hpart).comp hpart) _ (written_new fun _ => 0) hroom).2
  show List.length longMessage.body = _
  unfold longMessage
  rw [hbody]
  simp only [List.length_append, List.length_replicate]
  rfl

theorem not_framed_of_length {key : Key} {m : NetworkMessage} (memory : ℕ → UInt8)
    (hm : Built m) (hlen : m.body.length = 24567) :
    ∃ out, (writeAll { key, encryptionEnabled := true } [(m, memory)]).outputBuffer = some out ∧
      ¬ Framed key (onSendMessage (writeAll { key, encryptionEnabled := true }
        [(m, memory)]) out).wire (bodies (inBuffer ([(m, memory)].map (·.1)))) := by
  have hbuilt : ∀ m' ∈ [(m, memory)], Built m'.1 := by simpa using hm
  refine ⟨_, rfl, ?_⟩
  rw [framed_of_writeAll hbuilt rfl]
  have hin : (bodies (inBuffer [m])).length = 24567 := by
    have hm' := hlen
    rw [length_body] at hm'
    simp [inBuffer, bodies, hm', MAX_BODY_LENGTH, NETWORKMESSAGE_MAXSIZE, HEADER_LENGTH,
      CHECKSUM_LENGTH, XTEA_MULTIPLE]
  show ¬ ((bodies (inBuffer [m])).length ≤ 24566 ∨ (bodies (inBuffer [m])).length = 24574)
  omega

/-- The padding of a long message finds no room. -/
theorem long_not_framed : ∃ (key : Key) (msgs : List (NetworkMessage × (ℕ → UInt8)))
    (out : OutputMessage), (∀ m ∈ msgs, Built m.1) ∧
      (writeAll { key, encryptionEnabled := true } msgs).outputBuffer = some out ∧
      ¬ Framed key (onSendMessage (writeAll { key, encryptionEnabled := true } msgs) out).wire
        (bodies (inBuffer (msgs.map (·.1)))) := by
  obtain ⟨out, hout, hnot⟩ :=
    not_framed_of_length (fun _ => 0) built_longMessage length_longMessage
  exact ⟨fun _ => 0, [(longMessage, fun _ => 0)], out, by simpa using built_longMessage, hout, hnot⟩

end Protocol
end ForgottenServer
