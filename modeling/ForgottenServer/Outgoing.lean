/-
# Messages on their way out

What the game writes for a client is collected in the output buffer of its protocol.
From time to time the buffer is sent: the connection queues it, and hands the head of
its queue to the socket, one write at a time. A buffer in which a message finds no
room is dropped (`Protocol::getOutputBuffer`). The game, the clock and the ends of
writes come in any order, and each has the lock of the connection while it works.

Key definitions: `State`, `send`, `close`, `onWriteOperation`, `sendAll`, `step`,
`Flows`, `Fits`, `State.stream`.
Key theorems: `sent_in_order`, `drained`, `stream_iff_fits`.
-/
import ForgottenServer.Lib.Run
import ForgottenServer.Protocol

namespace ForgottenServer
namespace Outgoing

open NetworkMessage Protocol

/-! ### A connection -/

/-- A connection, and the protocol that writes to it. `writes` counts the writes whose
handler has not been called. What the socket took is in `sent`, a packet an element;
`accepted` records what `send` has queued, and `written` what the game has written. -/
structure State where
  protocol : Protocol
  isOpen : Bool := true
  socketOpen : Bool := true
  messageQueue : List OutputMessage := []
  writes : ℕ := 0
  sent : List (List UInt8) := []
  accepted : List OutputMessage := []
  written : List NetworkMessage := []

/-- `Connection::closeSocket` -/
def closeSocket (s : State) : State := { s with socketOpen := false }

/-- `Connection::close` -/
def close (s : State) (force : Bool) : State :=
  if s.isOpen then
    let s := { s with isOpen := false }
    if s.messageQueue.isEmpty || force then closeSocket s else s
  else s

/-- The bytes of a message behind `Protocol::onSendMessage`. -/
def State.packet (s : State) (msg : OutputMessage) : List UInt8 := (s.protocol.onSendMessage msg).wire

/-- `Connection::internalSend`. A closed socket takes nothing, and the write ends with
an error. -/
def internalSend (s : State) (msg : OutputMessage) : State :=
  { s with
    writes := s.writes + 1
    sent := if s.socketOpen then s.sent ++ [s.packet msg] else s.sent }

/-- `Connection::send` -/
def send (s : State) (msg : OutputMessage) : State :=
  if s.isOpen then
    let noPendingWrite := s.messageQueue.isEmpty
    let s := { s with messageQueue := s.messageQueue ++ [msg], accepted := s.accepted ++ [msg] }
    if noPendingWrite then internalSend s msg else s
  else s

/-- `Connection::onWriteOperation` -/
def onWriteOperation (s : State) (error : Bool) : State :=
  let s := { s with writes := s.writes - 1, messageQueue := s.messageQueue.tail }
  if error then close { s with messageQueue := [] } true
  else
    match s.messageQueue with
    | msg :: _ => internalSend s msg
    | [] => if s.isOpen then s else closeSocket s

/-- `Connection::handleTimeout` -/
def handleTimeout (s : State) (aborted : Bool) : State := if aborted then s else close s true

/-- `ProtocolGame::writeToOutputBuffer` -/
def writeToOutputBuffer (s : State) (memory : ℕ → UInt8) (msg : NetworkMessage) : State :=
  { s with
    protocol := s.protocol.writeToOutputBuffer memory msg
    written := s.written ++ [msg] }

/-- `OutputMessagePool::sendAll`, for this protocol. -/
def sendAll (s : State) : State :=
  match s.protocol.outputBuffer with
  | some msg => send { s with protocol := { s.protocol with outputBuffer := none } } msg
  | none => s

/-- What happens next. A message of its own is sent past the buffer (`Protocol::send`);
`closeAll` is `ConnectionManager::closeAll`. -/
inductive Act
  | write (msg : NetworkMessage) (memory : ℕ → UInt8)
  | sendAll
  | send (msg : OutputMessage)
  | close (force : Bool)
  | handleTimeout (aborted : Bool)
  | onWriteOperation (error : Bool)
  | closeAll

/-- A handler is called once for each write. -/
def step (s : State) : Act → State
  | .write msg memory => writeToOutputBuffer s memory msg
  | .sendAll => sendAll s
  | .send msg => send s msg
  | .close force => close s force
  | .handleTimeout aborted => handleTimeout s aborted
  | .onWriteOperation error => if 0 < s.writes then onWriteOperation s error else s
  | .closeAll => closeSocket s

/-- A client with the key has logged in. -/
def init (key : Key) : State := { protocol := { key, encryptionEnabled := true } }

variable {s : State}

/-! ### One write at a time, in order -/

/-- One write is under way while the queue is not empty. The packets of the socket are
those of the first messages that were accepted; the others are in the queue as long as
the socket is open and somebody is going to take them from there. -/
structure Flows (s : State) : Prop where
  one : s.writes = min 1 s.messageQueue.length
  order : s.sent <+: s.accepted.map s.packet
  flow : s.socketOpen = true → (s.isOpen = true ∨ s.messageQueue ≠ []) →
    s.sent ++ s.messageQueue.tail.map s.packet = s.accepted.map s.packet

theorem Flows.closeSocket (h : Flows s) : Flows (closeSocket s) where
  one := h.one
  order := h.order
  flow hopen := by simp [Outgoing.closeSocket] at hopen

theorem Flows.close (h : Flows s) (force : Bool) : Flows (close s force) := by
  unfold Outgoing.close
  split
  · next hopen =>
    have hclosed : s.messageQueue ≠ [] → Flows { s with isOpen := false } := by
      intro hne
      exact ⟨h.one, h.order, fun hs _ => h.flow hs (.inl hopen)⟩
    dsimp only
    split
    · exact ⟨h.one, h.order, fun hs => by simp [Outgoing.closeSocket] at hs⟩
    · next hcond =>
      apply hclosed
      simp_all
  · exact h

theorem Flows.send (h : Flows s) (msg : OutputMessage) : Flows (send s msg) := by
  unfold Outgoing.send
  split
  · next hopen =>
    dsimp only
    split
    · next hempty =>
      have hq : s.messageQueue = [] := List.isEmpty_iff.1 hempty
      have hall : s.socketOpen = true → s.sent = s.accepted.map s.packet := by
        intro hs
        simpa [hq] using h.flow hs (.inl hopen)
      refine ⟨?_, ?_, ?_⟩
      · simp [internalSend, hq, h.one]
      · simp only [internalSend, List.map_append, List.map_cons, List.map_nil]
        split
        · next hs =>
          rw [hall hs]
          exact List.prefix_rfl
        · exact h.order.trans (List.prefix_append _ _)
      · intro hs _
        have hs : s.socketOpen = true := hs
        simp only [internalSend, hs, if_true, hq, hall hs]
        simp [State.packet]
    · next hne =>
      have hq : s.messageQueue ≠ [] := by simpa using hne
      refine ⟨?_, ?_, ?_⟩
      · have hone := h.one
        have hpos := List.length_pos_of_ne_nil hq
        simp only [List.length_append, List.length_singleton]
        omega
      · rw [List.map_append]
        exact h.order.trans (List.prefix_append _ _)
      · intro hs _
        have hflow := h.flow hs (.inl hopen)
        simp only [List.tail_append_of_ne_nil hq, List.map_append]
        rw [← List.append_assoc]
        exact congrArg (· ++ _) hflow
  · exact h

/-- The output buffer is no part of what a packet is made with. -/
theorem Flows.setBuffer (h : Flows s) (out : Option OutputMessage) (written : List NetworkMessage) :
    Flows { s with protocol := { s.protocol with outputBuffer := out }, written } :=
  ⟨h.one, h.order, h.flow⟩

theorem Flows.onWriteOperation (h : Flows s) (hw : 0 < s.writes) (error : Bool) :
    Flows (onWriteOperation s error) := by
  obtain ⟨msg, rest, hq⟩ : ∃ msg rest, s.messageQueue = msg :: rest := by
    apply List.exists_cons_of_ne_nil
    intro hnil
    have hone := h.one
    simp [hnil] at hone
    omega
  have hwrites : s.writes = 1 := by simpa [hq] using h.one
  have hflow : s.socketOpen = true → s.sent ++ rest.map s.packet = s.accepted.map s.packet := by
    intro hs
    simpa [hq] using h.flow hs (.inr (by simp [hq]))
  unfold Outgoing.onWriteOperation
  simp only [hq, List.tail_cons, hwrites]
  split
  · -- the queue is lost; a connection that was closed before keeps its socket
    unfold Outgoing.close
    split
    · exact ⟨by simp [Outgoing.closeSocket], h.order, fun hs => by simp [Outgoing.closeSocket] at hs⟩
    · next hopen =>
      refine ⟨by simp, h.order, fun _ hor => ?_⟩
      simp_all
  · cases rest with
    | nil =>
      have hdone : Flows { s with writes := 0, messageQueue := [] } :=
        ⟨rfl, h.order, fun hs _ => hflow hs⟩
      dsimp only
      split
      · exact hdone
      · exact hdone.closeSocket
    | cons next rest =>
      have hall : s.socketOpen = true → s.sent ++ [s.packet next] ++ rest.map s.packet = s.accepted.map s.packet := by
        intro hs
        calc s.sent ++ [s.packet next] ++ rest.map s.packet
            = s.sent ++ (next :: rest).map s.packet := by simp
          _ = s.accepted.map s.packet := hflow hs
      refine ⟨by simp [internalSend], ?_, ?_⟩
      · simp only [internalSend]
        split
        · next hs => exact ⟨rest.map s.packet, hall hs⟩
        · exact h.order
      · intro hs _
        have hs : s.socketOpen = true := hs
        simp only [internalSend, hs, if_true]
        exact hall hs

theorem flows_step (h : Flows s) (a : Act) : Flows (step s a) := by
  cases a with
  | write msg memory => exact h.setBuffer _ _
  | sendAll =>
    simp only [step, sendAll]
    split
    · exact (h.setBuffer none s.written).send _
    · exact h
  | send msg => exact h.send msg
  | close force => exact h.close force
  | handleTimeout aborted =>
    simp only [step, handleTimeout]
    split
    · exact h
    · exact h.close true
  | onWriteOperation error =>
    simp only [step]
    split
    · next hw => exact h.onWriteOperation hw error
    · exact h
  | closeAll => exact h.closeSocket

theorem flows_init (key : Key) : Flows (init key) := ⟨rfl, List.prefix_rfl, fun _ _ => rfl⟩

theorem flows_run (key : Key) (as : List Act) : Flows (Run.run step (init key) as) :=
  Run.run_of_step (I := Flows) (fun _ a h => flows_step h a) as (flows_init key)

/-- **Packets go out in order, one at a time.** In every order of sends, time-outs and
ends of writes the socket takes the packets of the messages in the order in which the
connection accepted them, each once, and one write is under way as long as the queue
is not empty. No accepted message is lost while the socket is open and the connection
is open or has something to write. -/
theorem sent_in_order (key : Key) (as : List Act) :
    let s := Run.run step (init key) as
    s.sent <+: s.accepted.map s.packet ∧ s.writes = min 1 s.messageQueue.length ∧
      (s.socketOpen = true → (s.isOpen = true ∨ s.messageQueue ≠ []) →
        s.sent ++ s.messageQueue.tail.map s.packet = s.accepted.map s.packet) :=
  ⟨(flows_run key as).order, (flows_run key as).one, (flows_run key as).flow⟩

/-! ### Closing, with nothing lost -/

/-- No write fails, and nobody closes by force. -/
def Act.calm : Act → Bool
  | .close force => !force
  | .handleTimeout aborted => aborted
  | .onWriteOperation error => !error
  | .closeAll => false
  | _ => true

/-- The socket stays open for what is in the queue, and every accepted message is on
its way. -/
structure Calm (s : State) : Prop extends Flows s where
  socket : s.socketOpen = (s.isOpen || !s.messageQueue.isEmpty)
  all : s.sent ++ s.messageQueue.tail.map s.packet = s.accepted.map s.packet

theorem Calm.open_of_ne (h : Calm s) (hq : s.messageQueue ≠ []) : s.socketOpen = true := by
  have hsocket := h.socket
  simp_all

theorem Calm.close (h : Calm s) : Calm (close s false) := by
  refine { h.toFlows.close false with socket := ?_, all := ?_ }
  · have hsocket := h.socket
    unfold Outgoing.close
    split
    · dsimp only
      split <;> simp_all [Outgoing.closeSocket]
    · exact hsocket
  · unfold Outgoing.close
    split
    · dsimp only
      split
      · exact h.all
      · exact h.all
    · exact h.all

theorem Calm.send (h : Calm s) (msg : OutputMessage) : Calm (send s msg) := by
  have hflows := h.toFlows.send msg
  have hsocket : (Outgoing.send s msg).socketOpen =
      ((Outgoing.send s msg).isOpen || !(Outgoing.send s msg).messageQueue.isEmpty) := by
    have hold := h.socket
    unfold Outgoing.send
    split
    · dsimp only
      split <;> simp_all [internalSend]
    · exact hold
  by_cases hopen : s.isOpen = true
  · have hopen' : (Outgoing.send s msg).isOpen = true := by
      unfold Outgoing.send
      rw [if_pos hopen]
      dsimp only
      split <;> exact hopen
    have hsent : (Outgoing.send s msg).socketOpen = true := by rw [hsocket, hopen', Bool.true_or]
    exact { hflows with socket := hsocket, all := hflows.flow hsent (.inl hopen') }
  · have hsame : Outgoing.send s msg = s := if_neg hopen
    rw [hsame]
    exact h

theorem Calm.setBuffer (h : Calm s) (out : Option OutputMessage) (written : List NetworkMessage) :
    Calm { s with protocol := { s.protocol with outputBuffer := out }, written } :=
  { h.toFlows.setBuffer out written with socket := h.socket, all := h.all }

/-- What the end of a write leaves as it is. -/
theorem onWriteOperation_rest (s : State) :
    (onWriteOperation s false).messageQueue = s.messageQueue.tail ∧
      (onWriteOperation s false).isOpen = s.isOpen ∧ (onWriteOperation s false).accepted = s.accepted ∧
      (onWriteOperation s false).packet = s.packet := by
  unfold onWriteOperation
  simp only [Bool.false_eq_true, if_false]
  split
  · next hq => exact ⟨hq.symm ▸ rfl, rfl, rfl, rfl⟩
  · next hq =>
    split <;> exact ⟨hq.symm ▸ rfl, rfl, rfl, rfl⟩

theorem Calm.onWriteOperation (h : Calm s) (hw : 0 < s.writes) : Calm (onWriteOperation s false) := by
  have hflows := h.toFlows.onWriteOperation hw false
  obtain ⟨hqueue, hopen, haccepted, hpacket⟩ := onWriteOperation_rest s
  have hq : s.messageQueue ≠ [] := by
    intro hnil
    have hone := h.one
    simp [hnil] at hone
    omega
  have hs := h.open_of_ne hq
  have hsocket : (Outgoing.onWriteOperation s false).socketOpen =
      (s.isOpen || !s.messageQueue.tail.isEmpty) := by
    unfold Outgoing.onWriteOperation
    simp only [Bool.false_eq_true, if_false]
    split
    · next htail => simp [internalSend, htail, hs]
    · next htail =>
      split
      · next hopen => simp [htail, hopen, hs]
      · next hopen => simp [htail, hopen, Outgoing.closeSocket]
  refine { hflows with socket := by rw [hsocket, hopen, hqueue], all := ?_ }
  by_cases hend : s.messageQueue.tail = []
  · -- the last packet is with the socket already
    have hsent : (Outgoing.onWriteOperation s false).sent = s.sent := by
      unfold Outgoing.onWriteOperation
      simp only [Bool.false_eq_true, if_false, hend]
      split <;> rfl
    have hall := h.all
    simp only [hend] at hall
    rw [hqueue, hend, hsent, haccepted, hpacket]
    exact hall
  · apply hflows.flow
    · rw [hsocket]
      simp [hend]
    · exact .inr (hqueue ▸ hend)

theorem calm_step (h : Calm s) (a : Act) (ha : a.calm = true) : Calm (step s a) := by
  cases a with
  | write msg memory => exact h.setBuffer _ _
  | sendAll =>
    simp only [step, sendAll]
    split
    · exact (h.setBuffer none s.written).send _
    · exact h
  | send msg => exact h.send msg
  | close force =>
    have hforce : force = false := by simpa [Act.calm] using ha
    rw [hforce]
    exact h.close
  | handleTimeout aborted =>
    have haborted : aborted = true := ha
    simpa [step, handleTimeout, haborted] using h
  | onWriteOperation error =>
    have herror : error = false := by simpa [Act.calm] using ha
    simp only [step, herror]
    split
    · next hw => exact h.onWriteOperation hw
    · exact h
  | closeAll => simp [Act.calm] at ha

theorem calm_init (key : Key) : Calm (init key) := { flows_init key with socket := rfl, all := rfl }

/-- The writes that are still to end. -/
def ends (n : ℕ) : List Act := List.replicate n (.onWriteOperation false)

theorem drain : ∀ (n : ℕ) {s : State}, Calm s → s.messageQueue.length = n →
    (Run.run step s (ends n)).messageQueue = [] ∧
      (Run.run step s (ends n)).sent = s.accepted.map s.packet ∧
      (Run.run step s (ends n)).socketOpen = s.isOpen
  | 0, s, h, hn => by
    have hq : s.messageQueue = [] := List.length_eq_zero_iff.1 hn
    refine ⟨hq, ?_, ?_⟩
    · simpa [ends, Run.run, hq] using h.all
    · simpa [ends, Run.run, hq] using h.socket
  | n + 1, s, h, hn => by
    have hw : 0 < s.writes := by
      rw [h.one, hn]
      omega
    obtain ⟨hqueue, hopen, haccepted, hpacket⟩ := onWriteOperation_rest s
    have hstep : step s (.onWriteOperation false) = onWriteOperation s false := if_pos hw
    have hlength : (onWriteOperation s false).messageQueue.length = n := by
      rw [hqueue, List.length_tail, hn, Nat.add_sub_cancel]
    have hrest := drain n (h.onWriteOperation hw) hlength
    rw [haccepted, hpacket, hopen] at hrest
    change (Run.run step (step s (.onWriteOperation false)) (ends n)).messageQueue = [] ∧
      (Run.run step (step s (.onWriteOperation false)) (ends n)).sent = _ ∧
      (Run.run step (step s (.onWriteOperation false)) (ends n)).socketOpen = _
    rw [hstep]
    exact hrest

/-- **A connection that is closed still sends what it accepted.** As long as no write
fails and nobody closes by force, the writes that end bring all accepted packets to
the socket; then it is closed if and only if the connection is. -/
theorem drained (key : Key) (as : List Act) (has : ∀ a ∈ as, a.calm = true) :
    let s := Run.run step (init key) as
    let t := Run.run step s (ends s.messageQueue.length)
    t.messageQueue = [] ∧ t.sent = s.accepted.map s.packet ∧ t.socketOpen = s.isOpen := by
  intro s t
  have hcalm : Calm s := Run.run_of_mem (I := Calm) (fun _ a h ha => calm_step h a ha) as (calm_init key) has
  exact drain s.messageQueue.length hcalm rfl

/-- Two messages are sent, and the connection is closed behind them. -/
def goodbye : List Act := [.send (.new fun _ => 0), .send (.new fun _ => 0), .close false]

theorem drained_goodbye : (Run.run step (Run.run step (init zeroKey) goodbye) (ends 2)).socketOpen = false :=
  (drained zeroKey goodbye (by simp [goodbye, Act.calm])).2.2

/-! ### What the client reads -/

/-- What the output buffer holds. -/
def State.buffered (s : State) : List UInt8 := (s.protocol.outputBuffer.map (·.body)).getD []

/-- What was accepted, and behind it what the output buffer holds. -/
def State.stream (s : State) : List UInt8 := (s.accepted.map (·.body)).flatten ++ s.buffered

/-- Everything goes through the output buffer, in messages the game has built. -/
def Act.buffers : Act → Prop
  | .write msg _ => Built msg
  | .send _ => False
  | _ => True

/-- What is written finds room behind the buffer. -/
def Fits (s : State) : Act → Prop
  | .write msg _ => s.buffered.length + msg.length ≤ MAX_BODY_LENGTH
  | _ => True

/-- The connection accepts messages that nobody has framed yet. Of what was written
bytes may be missing in them and in the buffer, but none come from elsewhere. -/
structure Carries (key : Key) (s : State) : Prop where
  sends : ∀ msg, s.packet msg = (onSendMessage { key, encryptionEnabled := true } msg).wire
  holds : ∀ out ∈ s.accepted, Holds out out.body
  buffer : ∃ current, Current s.protocol current
  accepted : (s.accepted.map (·.body)).flatten.Sublist (bodies s.written)
  stream : s.isOpen = true → s.stream.Sublist (bodies s.written)

variable {key : Key}

theorem Holds.body_self {out : OutputMessage} {written : List UInt8} (h : Holds out written) : Holds out out.body := by
  rw [h.body]
  exact h

theorem buffered_of_current {current : List NetworkMessage} (h : Current s.protocol current) :
    s.buffered = bodies current := by
  unfold Current at h
  unfold State.buffered
  cases hout : s.protocol.outputBuffer with
  | none =>
    rw [hout] at h
    simp [h, bodies]
  | some out =>
    rw [hout] at h
    simpa using h.body

theorem write_buffer {msg : NetworkMessage} (memory : ℕ → UInt8) (h : ∃ current, Current s.protocol current)
    (hmsg : Built msg) : (∃ current, Current (writeToOutputBuffer s memory msg).protocol current) ∧
      (writeToOutputBuffer s memory msg).buffered =
        if s.buffered.length + msg.length ≤ MAX_BODY_LENGTH then s.buffered ++ msg.body else msg.body := by
  obtain ⟨current, hcurrent⟩ := h
  have hwrite : Current (writeToOutputBuffer s memory msg).protocol _ := hcurrent.write memory hmsg.written
  refine ⟨⟨_, hwrite⟩, ?_⟩
  rw [buffered_of_current hwrite, buffered_of_current hcurrent]
  split
  · exact bodies_append current msg
  · simp [bodies]

theorem Carries.write (h : Carries key s) {msg : NetworkMessage} (memory : ℕ → UInt8) (hmsg : Built msg) :
    Carries key (writeToOutputBuffer s memory msg) := by
  obtain ⟨hcurrent, hbuffered⟩ := write_buffer memory h.buffer hmsg
  have hwritten : bodies (writeToOutputBuffer s memory msg).written = bodies s.written ++ msg.body :=
    bodies_append s.written msg
  refine ⟨h.sends, h.holds, hcurrent, ?_, fun hopen => ?_⟩
  · rw [hwritten]
    exact h.accepted.trans (List.sublist_append_left _ _)
  · rw [hwritten]
    unfold State.stream
    rw [hbuffered]
    split
    · rw [← List.append_assoc]
      exact (h.stream hopen).append (List.Sublist.refl _)
    · exact h.accepted.append (List.Sublist.refl _)

/-- The buffer becomes the last message that was accepted. -/
theorem sendAll_stream (hopen : s.isOpen = true) :
    (sendAll s).stream = s.stream ∧ (sendAll s).written = s.written ∧ (sendAll s).isOpen = true := by
  unfold sendAll
  split
  · next out hout =>
    unfold send
    rw [if_pos hopen]
    dsimp only
    split
    all_goals
      refine ⟨?_, rfl, hopen⟩
      simp [State.stream, State.buffered, internalSend, hout]
  · exact ⟨rfl, rfl, hopen⟩

theorem sendAll_accepted (s : State) : (sendAll s).accepted = s.accepted ∨
    ∃ out ∈ s.protocol.outputBuffer, (sendAll s).accepted = s.accepted ++ [out] := by
  unfold sendAll
  split
  · next out hout =>
    unfold send
    dsimp only
    split_ifs
    · exact .inr ⟨out, hout, rfl⟩
    · exact .inr ⟨out, hout, rfl⟩
    · exact .inl rfl
  · exact .inl rfl

theorem sendAll_rest (s : State) : (sendAll s).protocol.outputBuffer = none ∧ (sendAll s).packet = s.packet ∧
    (sendAll s).written = s.written ∧ (sendAll s).isOpen = s.isOpen := by
  unfold sendAll
  split
  · unfold send
    dsimp only
    split_ifs <;> exact ⟨rfl, rfl, rfl, rfl⟩
  · next hout => exact ⟨hout, rfl, rfl, rfl⟩

theorem Carries.sendAll (h : Carries key s) : Carries key (sendAll s) := by
  obtain ⟨hout, hpacket, hwritten, hopen⟩ := sendAll_rest s
  have haccepted : ((Outgoing.sendAll s).accepted.map (·.body)).flatten.Sublist (bodies s.written) := by
    by_cases hs : s.isOpen = true
    · have hstream := (sendAll_stream hs).1 ▸ h.stream hs
      exact (List.sublist_append_left _ _).trans hstream
    · have hsame : (Outgoing.sendAll s).accepted = s.accepted := by
        unfold Outgoing.sendAll
        split
        · simp [send, hs]
        · rfl
      rw [hsame]
      exact h.accepted
  refine ⟨fun msg => ?_, fun out hmem => ?_, ⟨[], ?_⟩, hwritten ▸ haccepted, fun hs => ?_⟩
  · rw [hpacket]
    exact h.sends msg
  · obtain ⟨current, hcurrent⟩ := h.buffer
    rcases sendAll_accepted s with hsame | ⟨last, hlast, hmore⟩
    · exact h.holds out (hsame ▸ hmem)
    · rw [hmore, List.mem_append, List.mem_singleton] at hmem
      rcases hmem with hmem | rfl
      · exact h.holds out hmem
      · unfold Current at hcurrent
        rw [Option.mem_def.1 hlast] at hcurrent
        exact Holds.body_self hcurrent
  · unfold Current
    rw [hout]
  · rw [hopen] at hs
    rw [(sendAll_stream hs).1, hwritten]
    exact h.stream hs

/-- The buffer, the accepted messages and what was written stay; only a connection that
was open is open. -/
structure Spares (s s' : State) : Prop where
  protocol : s'.protocol = s.protocol
  accepted : s'.accepted = s.accepted
  written : s'.written = s.written
  isOpen : s'.isOpen = true → s.isOpen = true

theorem Spares.refl (s : State) : Spares s s := ⟨rfl, rfl, rfl, id⟩

theorem Spares.stream {s' : State} (h : Spares s s') : s'.stream = s.stream := by
  simp only [State.stream, State.buffered, h.protocol, h.accepted]

theorem Carries.of_spares {s' : State} (h : Carries key s) (hs : Spares s s') : Carries key s' := by
  have hpacket : s'.packet = s.packet := by
    unfold State.packet
    rw [hs.protocol]
  refine ⟨fun msg => ?_, fun out hout => h.holds out (hs.accepted ▸ hout), ?_, ?_, fun hopen => ?_⟩
  · rw [hpacket]
    exact h.sends msg
  · rw [hs.protocol]
    exact h.buffer
  · rw [hs.accepted, hs.written]
    exact h.accepted
  · rw [hs.stream, hs.written]
    exact h.stream (hs.isOpen hopen)

theorem close_spares (s : State) (force : Bool) : Spares s (close s force) := by
  unfold close
  dsimp only
  split_ifs
  · exact ⟨rfl, rfl, rfl, by simp [closeSocket]⟩
  · exact ⟨rfl, rfl, rfl, by simp⟩
  · exact .refl s

theorem onWriteOperation_spares (s : State) (error : Bool) : Spares s (onWriteOperation s error) := by
  unfold onWriteOperation
  dsimp only
  split
  · have hclose := close_spares { s with writes := s.writes - 1, messageQueue := [] } true
    exact ⟨hclose.protocol, hclose.accepted, hclose.written, hclose.isOpen⟩
  · split
    · exact ⟨rfl, rfl, rfl, id⟩
    · split
      · exact ⟨rfl, rfl, rfl, id⟩
      · exact ⟨rfl, rfl, rfl, id⟩

/-- Apart from the writes of the game and the sending of the buffer. -/
theorem step_spares {a : Act} (ha : a.buffers) (hwrite : ∀ msg memory, a ≠ .write msg memory)
    (hsend : a ≠ .sendAll) : Spares s (step s a) := by
  cases a with
  | write msg memory => exact absurd rfl (hwrite msg memory)
  | sendAll => exact absurd rfl hsend
  | send msg => exact absurd ha id
  | close force => exact close_spares s force
  | handleTimeout aborted =>
    simp only [step, handleTimeout]
    split
    · exact .refl s
    · exact close_spares s true
  | onWriteOperation error =>
    simp only [step]
    split
    · exact onWriteOperation_spares s error
    · exact .refl s
  | closeAll => exact ⟨rfl, rfl, rfl, id⟩

theorem carries_step (h : Carries key s) {a : Act} (ha : a.buffers) : Carries key (step s a) := by
  cases a with
  | write msg memory => exact h.write memory ha
  | sendAll => exact h.sendAll
  | _ => exact h.of_spares (step_spares ha (by simp) (by simp))

/-- While the connection stays open, the stream is what was written before the step and
is so after it exactly if the step fits. -/
theorem stream_step_iff (h : Carries key s) {a : Act} (ha : a.buffers) (hopen : (step s a).isOpen = true) :
    (step s a).stream = bodies (step s a).written ↔ s.stream = bodies s.written ∧ Fits s a := by
  cases a with
  | write msg memory =>
    obtain ⟨-, hbuffered⟩ := write_buffer memory h.buffer ha
    have hwritten : bodies (writeToOutputBuffer s memory msg).written = bodies s.written ++ msg.body :=
      bodies_append s.written msg
    have hstream : (writeToOutputBuffer s memory msg).stream =
        (s.accepted.map (·.body)).flatten ++ (writeToOutputBuffer s memory msg).buffered := rfl
    simp only [step, Fits]
    rw [hwritten, hstream, hbuffered]
    split
    · next hfits =>
      rw [← List.append_assoc, List.append_left_inj]
      exact (and_iff_left hfits).symm
    · next hfits =>
      rw [List.append_left_inj]
      refine ⟨fun hlost => absurd ?_ hfits, fun hc => absurd hc.2 hfits⟩
      -- a buffer that is dropped is not empty, so its bytes are missed
      have hlength := (h.stream hopen).length_le
      rw [← hlost, State.stream, List.length_append] at hlength
      have hroom := ha.written.room
      have hposition := ha.written.position
      omega
  | sendAll =>
    have hs : s.isOpen = true := (sendAll_rest s).2.2.2 ▸ hopen
    obtain ⟨hstream, hwritten, -⟩ := sendAll_stream hs
    simp only [step, Fits, and_true]
    rw [hstream, hwritten]
  | _ =>
    have hspares := step_spares (s := s) ha (by simp) (by simp)
    rw [hspares.stream, hspares.written]
    simp [Fits]

theorem carries_init (key : Key) : Carries key (init key) :=
  ⟨fun _ => rfl, by simp [init], ⟨[], rfl⟩, List.Sublist.refl _, fun _ => List.Sublist.refl _⟩

theorem isOpen_of_step {a : Act} (ha : a.buffers) (hopen : (step s a).isOpen = true) : s.isOpen = true := by
  cases a with
  | write msg memory => exact hopen
  | sendAll => exact (sendAll_rest s).2.2.2 ▸ hopen
  | _ => exact (step_spares ha (by simp) (by simp)).isOpen hopen

theorem isOpen_of_run : ∀ {as : List Act} {s : State}, (∀ a ∈ as, a.buffers) →
    (Run.run step s as).isOpen = true → s.isOpen = true
  | [], _, _, h => h
  | a :: _, _, has, h =>
    isOpen_of_step (has a List.mem_cons_self) (isOpen_of_run (fun b hb => has b (List.mem_cons_of_mem a hb)) h)

theorem stream_run_iff : ∀ {as : List Act} {s : State}, Carries key s → (∀ a ∈ as, a.buffers) →
    (Run.run step s as).isOpen = true →
      ((Run.run step s as).stream = bodies (Run.run step s as).written ↔
        s.stream = bodies s.written ∧ Run.Along step Fits s as)
  | [], _, _, _, _ => (and_iff_left trivial).symm
  | a :: as, s, h, has, hopen => by
    have ha := has a List.mem_cons_self
    have hrest : ∀ b ∈ as, b.buffers := fun b hb => has b (List.mem_cons_of_mem a hb)
    have ih := stream_run_iff (carries_step h ha) hrest hopen
    calc (Run.run step s (a :: as)).stream = bodies (Run.run step s (a :: as)).written
        ↔ (step s a).stream = bodies (step s a).written ∧ Run.Along step Fits (step s a) as := ih
      _ ↔ (s.stream = bodies s.written ∧ Fits s a) ∧ Run.Along step Fits (step s a) as := by
        rw [stream_step_iff h ha (isOpen_of_run hrest hopen)]
      _ ↔ s.stream = bodies s.written ∧ Run.Along step Fits s (a :: as) := and_assoc

/-- **What the client reads is what the game wrote, unless a buffer was dropped.** In
every order of writes, autosends, time-outs and ends of writes: a packet of a message
of at most 24566 bytes is decrypted by the client to what the message held; what the
messages held is part of what was written, in order; and while the connection is open
it is all of it, with the buffer, exactly if every write found room in the buffer. -/
theorem stream_iff_fits (key : Key) (as : List Act) (has : ∀ a ∈ as, a.buffers) :
    let s := Run.run step (init key) as
    (∀ out ∈ s.accepted, out.length ≤ 24566 → Framed key (s.packet out) out.body) ∧
      (s.accepted.map (·.body)).flatten.Sublist (bodies s.written) ∧
      (s.isOpen = true → (s.stream = bodies s.written ↔ Run.Along step Fits (init key) as)) := by
  intro s
  have h : Carries key s :=
    Run.run_of_mem (Q := Act.buffers) (I := Carries key) (fun _ _ h ha => carries_step h ha) as (carries_init key) has
  refine ⟨fun out hout hshort => ?_, h.accepted, fun hopen => ?_⟩
  · have hholds := h.holds out hout
    rw [h.sends]
    exact (framed_iff_room key hholds).2 (.inl (hholds.length ▸ hshort))
  · have hstart : (init key).stream = bodies (init key).written := rfl
    have hiff := stream_run_iff (carries_init key) has hopen
    rwa [and_iff_right hstart] at hiff

/-- A byte is written and sent. -/
def ping : List Act := [.write shortMessage fun _ => 0, .sendAll]

theorem stream_iff_fits_ping : (Run.run step (init zeroKey) ping).stream = [0x1D] := by
  have has : ∀ a ∈ ping, a.buffers := by
    simp only [ping, List.mem_cons, List.not_mem_nil, or_false, forall_eq_or_imp, forall_eq]
    exact ⟨built_shortMessage, trivial⟩
  have hroom : Fits (init zeroKey) (.write shortMessage fun _ => 0) := by
    show 0 + 1 ≤ MAX_BODY_LENGTH
    decide
  exact ((stream_iff_fits zeroKey ping has).2.2 rfl).2 ⟨hroom, trivial, trivial⟩

end Outgoing
end ForgottenServer
