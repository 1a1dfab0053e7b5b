/-
# Fields of a message

A message is written field by field and read in the same order. A writer that
finds no room leaves its field out, and so does the one of strings for a string
of more than 8192 bytes. The reader does not know, and takes the bytes of what
follows for the field that is missing.

A reader sees what is left of the body. That a message with a field left out is
never read back as it was meant is a matter of counting the bytes that are not
zero: no field is read from fewer of them than it is written with.

Key definitions: `Field`, `addAll`, `readAll`, `left`.
Key theorems: `Field.read_encoded`, `Field.nonzero_read`, `readAll_iff`.
-/
import ForgottenServer.NetworkMessage

namespace ForgottenServer
namespace NetworkMessage

open Buffer

/-! ### The model -/

/-- What a call writes; a number with the size of its type. -/
inductive Field
  | byte (value : UInt8)
  | number (size : ℕ) (value : Fin (256 ^ size))
  | string (value : List UInt8)
  | position (x y : UInt16) (z : UInt8)

/-- What a call reads. -/
inductive Kind
  | byte
  | number (size : ℕ)
  | string
  | position

/-- What a reader returns. -/
inductive Value
  | byte (value : UInt8)
  | number (value : ℕ)
  | string (value : List UInt8)
  | position (value : ℕ × ℕ × UInt8)
  deriving DecidableEq

namespace Field

def add : Field → NetworkMessage → NetworkMessage
  | byte value, m => m.addByte value
  | number size value, m => m.add size value
  | string value, m => m.addString value
  | position x y z, m => m.addPosition x y z

/-- The reader of the field. -/
def kind : Field → Kind
  | byte _ => .byte
  | number size _ => .number size
  | string _ => .string
  | position _ _ _ => .position

/-- What the reader should return. -/
def value : Field → Value
  | byte value => .byte value
  | number _ value => .number value
  | string value => .string value
  | position x y z => .position (x.toNat, y.toNat, z)

/-- The field in bytes. -/
def encoded : Field → List UInt8
  | byte value => [value]
  | number size value => Bytes.put size value
  | string value => Bytes.put 2 value.length ++ value
  | position x y z => Bytes.put 2 x.toNat ++ Bytes.put 2 y.toNat ++ [z]

/-- The bytes that are written for the field, if there is room. -/
def written : Field → List UInt8
  | string value => stringBytes value
  | f => f.encoded

/-- The field is no string of more than 8192 bytes. -/
def Short : Field → Prop
  | string value => value.length ≤ 8192
  | _ => True

end Field

def Kind.read : Kind → NetworkMessage → Value × NetworkMessage
  | .byte, m => (.byte m.getByte.1, m.getByte.2)
  | .number size, m => (.number (m.get size).1, (m.get size).2)
  | .string, m => (.string (m.getString 0).1, (m.getString 0).2)
  | .position, m => (.position m.getPosition.1, m.getPosition.2)

/-- A new message with the fields. -/
def addAll (m : NetworkMessage) (fields : List Field) : NetworkMessage := fields.foldl (fun m f => f.add m) m

def readAll : List Kind → NetworkMessage → List Value
  | [], _ => []
  | k :: ks, m => (k.read m).1 :: readAll ks (k.read m).2

/-- The message as its reader finds it. -/
def rewind (m : NetworkMessage) : NetworkMessage := { m with position := INITIAL_BUFFER_POSITION }

/-! ### What is left to read -/

/-- The bytes of the body from the cursor on. -/
def left (m : NetworkMessage) : List UInt8 := slice m.buffer m.position (m.length + 4 - m.position)

/-- The cursor is in a body that has room behind it. -/
structure Readable (m : NetworkMessage) : Prop where
  position : m.position ≤ m.length + 4
  room : m.length + 4 < MAX_BODY_LENGTH

section Reading

variable {m : NetworkMessage} {size : ℕ}

theorem length_left (m : NetworkMessage) : m.left.length = m.length + 4 - m.position := length_slice _ _ _

theorem canRead_iff (h : m.Readable) : m.canRead size = true ↔ size ≤ m.left.length := by
  have hpos := h.position
  have hroom := h.room
  have hmax : MAX_BODY_LENGTH = 24576 := rfl
  have hsize : NETWORKMESSAGE_MAXSIZE = 24590 := rfl
  rw [length_left]
  simp only [canRead, Bool.not_eq_true', Bool.or_eq_false_iff, decide_eq_false_iff_not]
  omega

theorem peek_eq (h : size ≤ m.left.length) : m.peek size = m.left.take size := by
  rw [length_left] at h
  exact (take_slice m.buffer m.position h).symm

theorem left_skipBytes (h : size ≤ m.left.length) : (m.skipBytes size).left = m.left.drop size := by
  rw [length_left] at h
  unfold left skipBytes
  rw [drop_slice _ _ h, Nat.sub_sub]

theorem Readable.skipBytes (h : m.Readable) (hsize : size ≤ m.left.length) : (m.skipBytes size).Readable := by
  rw [length_left] at hsize
  have hpos := h.position
  refine ⟨?_, h.room⟩
  show m.position + size ≤ m.length + 4
  omega

theorem Readable.setOverrun (h : m.Readable) : m.setOverrun.Readable := ⟨h.position, h.room⟩

@[simp] theorem left_setOverrun (m : NetworkMessage) : m.setOverrun.left = m.left := rfl

/-- A reader of one value that takes some bytes, or none. -/
theorem get_eq (h : m.Readable) : m.get size =
    if size ≤ m.left.length then (Bytes.value (m.left.take size), m.skipBytes size) else (0, m.setOverrun) := by
  unfold NetworkMessage.get
  by_cases hsize : size ≤ m.left.length
  · rw [(canRead_iff h).2 hsize, if_pos hsize, peek_eq hsize]
    rfl
  · rw [Bool.eq_false_of_not_eq_true (mt (canRead_iff h).1 hsize), if_neg hsize]
    rfl

theorem getChars_eq (h : m.Readable) : m.getChars size =
    if size ≤ m.left.length then (m.left.take size, m.skipBytes size) else ([], m.setOverrun) := by
  unfold getChars
  by_cases hsize : size ≤ m.left.length
  · rw [(canRead_iff h).2 hsize, if_pos hsize, peek_eq hsize]
    rfl
  · rw [Bool.eq_false_of_not_eq_true (mt (canRead_iff h).1 hsize), if_neg hsize]
    rfl

theorem getByte_cons {b : UInt8} {s : List UInt8} (h : m.Readable) (hleft : m.left = b :: s) :
    m.getByte = (b, m.skipBytes 1) := by
  have hlen : 1 ≤ m.left.length := by simp [hleft]
  have hpeek : m.peek 1 = [b] := by rw [peek_eq hlen, hleft]; rfl
  have hb : m.buffer m.position = b := by simpa [peek, slice] using hpeek
  unfold getByte
  rw [(canRead_iff h).2 hlen, hb]
  rfl

theorem getByte_nil (h : m.Readable) (hleft : m.left = []) : m.getByte = (0, m.setOverrun) := by
  have hlen : ¬ 1 ≤ m.left.length := by simp [hleft]
  unfold getByte
  rw [Bool.eq_false_of_not_eq_true (mt (canRead_iff h).1 hlen)]
  rfl

/-! ### A field that is there -/

/-- The cursor goes on behind some bytes. -/
structure Passes (m : NetworkMessage) (bytes : List UInt8) (m' : NetworkMessage) : Prop where
  readable : m'.Readable
  left : m.left = bytes ++ m'.left

theorem passes_skipBytes {bytes s : List UInt8} (h : m.Readable) (hleft : m.left = bytes ++ s) :
    m.Passes bytes (m.skipBytes bytes.length) ∧ (m.skipBytes bytes.length).left = s := by
  have hlen : bytes.length ≤ m.left.length := by simp [hleft]
  have hs : (m.skipBytes bytes.length).left = s := by rw [left_skipBytes hlen, hleft, List.drop_left]
  exact ⟨⟨h.skipBytes hlen, by rw [hs, hleft]⟩, hs⟩

theorem get_of_left {bytes s : List UInt8} (h : m.Readable) (hleft : m.left = bytes ++ s) :
    m.get bytes.length = (Bytes.value bytes, m.skipBytes bytes.length) := by
  have hlen : bytes.length ≤ m.left.length := by simp [hleft]
  rw [get_eq h, if_pos hlen, hleft, List.take_left]

theorem getChars_of_left {bytes s : List UInt8} (h : m.Readable) (hleft : m.left = bytes ++ s) :
    m.getChars bytes.length = (bytes, m.skipBytes bytes.length) := by
  have hlen : bytes.length ≤ m.left.length := by simp [hleft]
  rw [getChars_eq h, if_pos hlen, hleft, List.take_left]

/-- A number of known size that is next in the body. -/
theorem get_put {n value : ℕ} {s : List UInt8} (h : m.Readable) (hleft : m.left = Bytes.put n value ++ s)
    (hlt : value < 256 ^ n) :
    (m.get n).1 = value ∧ (m.get n).2.Readable ∧ (m.get n).2.left = s := by
  have hget := get_of_left h hleft
  obtain ⟨hpasses, hs⟩ := passes_skipBytes h hleft
  rw [Bytes.length_put] at hget hpasses hs
  rw [hget]
  exact ⟨Bytes.value_put_of_lt hlt, hpasses.readable, hs⟩

theorem getString_put {value s : List UInt8} (h : m.Readable)
    (hleft : m.left = Bytes.put 2 value.length ++ value ++ s) :
    (m.getString 0).1 = value ∧ (m.getString 0).2.Readable ∧ (m.getString 0).2.left = s := by
  have hlt : value.length < 256 ^ 2 := by
    have hlen := congrArg List.length hleft
    have hroom := h.room
    have hmax : MAX_BODY_LENGTH = 24576 := rfl
    rw [length_left, List.length_append, List.length_append] at hlen
    omega
  rw [List.append_assoc] at hleft
  obtain ⟨hvalue, hreadable, hrest⟩ := get_put h hleft hlt
  unfold getString
  rw [if_pos rfl, hvalue, getChars_of_left hreadable hrest]
  obtain ⟨hpasses, hs⟩ := passes_skipBytes hreadable hrest
  exact ⟨rfl, hpasses.readable, hs⟩

/-- A field that is next in the body is read as it was written. -/
theorem Field.read_encoded (f : Field) {s : List UInt8} (h : m.Readable) (hleft : m.left = f.encoded ++ s) :
    (f.kind.read m).1 = f.value ∧ (f.kind.read m).2.Readable ∧ (f.kind.read m).2.left = s := by
  cases f with
  | byte value =>
    obtain ⟨hpasses, hs⟩ := passes_skipBytes h hleft
    simp only [Field.kind, Kind.read, getByte_cons h hleft]
    exact ⟨rfl, hpasses.readable, hs⟩
  | number size value =>
    obtain ⟨hvalue, hrest⟩ := get_put h hleft value.isLt
    exact ⟨congrArg Value.number hvalue, hrest⟩
  | string value =>
    obtain ⟨hvalue, hrest⟩ := getString_put h hleft
    exact ⟨congrArg Value.string hvalue, hrest⟩
  | position x y z =>
    simp only [Field.encoded, List.append_assoc] at hleft
    obtain ⟨hx, hreadable, hleft⟩ := get_put h hleft x.toNat_lt
    obtain ⟨hy, hreadable, hleft⟩ := get_put hreadable hleft y.toNat_lt
    obtain ⟨hpasses, hs⟩ := passes_skipBytes hreadable hleft
    simp only [Field.kind, Kind.read, getPosition, hx, hy, getByte_cons hreadable hleft]
    exact ⟨rfl, hpasses.readable, hs⟩

theorem readAll_encoded : ∀ (fields : List Field) {m : NetworkMessage} {s : List UInt8}, m.Readable →
    m.left = fields.flatMap Field.encoded ++ s → readAll (fields.map Field.kind) m = fields.map Field.value
  | [], _, _, _, _ => rfl
  | f :: fields, m, s, h, hleft => by
    rw [List.flatMap_cons, List.append_assoc] at hleft
    obtain ⟨hvalue, hreadable, hrest⟩ := f.read_encoded h hleft
    simp only [List.map_cons, readAll, hvalue, readAll_encoded fields hreadable hrest]

/-! ### A field that is not there -/

/-- No number is read from fewer bytes that are not zero than it is written with. -/
theorem nonzero_get {n value : ℕ} (h : m.Readable) (hvalue : (m.get n).1 = value) :
    (m.get n).2.Readable ∧ Bytes.nonzero (Bytes.put n value) + Bytes.nonzero (m.get n).2.left ≤ Bytes.nonzero m.left := by
  rw [get_eq h] at hvalue ⊢
  split at hvalue
  · next hlen =>
    rw [if_pos hlen]
    refine ⟨h.skipBytes hlen, ?_⟩
    have hput : Bytes.put n value = m.left.take n := by
      have := Bytes.put_value (m.left.take n)
      rw [List.length_take_of_le hlen] at this
      rw [← hvalue]
      exact this
    rw [hput, left_skipBytes hlen, Bytes.nonzero_take_add_drop]
  · next hlen =>
    rw [if_neg hlen]
    refine ⟨h.setOverrun, ?_⟩
    rw [← hvalue, Bytes.nonzero_put_zero, left_setOverrun, Nat.zero_add]

theorem nonzero_getByte {value : UInt8} (h : m.Readable) (hvalue : m.getByte.1 = value) :
    m.getByte.2.Readable ∧ Bytes.nonzero [value] + Bytes.nonzero m.getByte.2.left ≤ Bytes.nonzero m.left := by
  cases hleft : m.left with
  | nil =>
    rw [getByte_nil h hleft] at hvalue ⊢
    rw [left_setOverrun, hleft, ← hvalue]
    exact ⟨h.setOverrun, le_rfl⟩
  | cons b s =>
    obtain ⟨hpasses, hs⟩ := @passes_skipBytes _ [b] _ h hleft
    rw [getByte_cons h hleft] at hvalue ⊢
    refine ⟨hpasses.readable, ?_⟩
    rw [← hvalue, ← hleft, hpasses.left, Bytes.nonzero_append]
    rfl

theorem nonzero_getString {value : List UInt8} (h : m.Readable) (hvalue : (m.getString 0).1 = value) :
    (m.getString 0).2.Readable ∧
      Bytes.nonzero (Bytes.put 2 value.length ++ value) + Bytes.nonzero (m.getString 0).2.left ≤ Bytes.nonzero m.left := by
  obtain ⟨hreadable, hle⟩ := nonzero_get (n := 2) h rfl
  have hrest : (m.getString 0) = (m.get 2).2.getChars (m.get 2).1 := if_pos rfl
  rw [hrest] at hvalue ⊢
  rw [getChars_eq hreadable] at hvalue ⊢
  split at hvalue
  · next hlen =>
    dsimp only at hvalue
    rw [if_pos hlen]
    refine ⟨hreadable.skipBytes hlen, ?_⟩
    have hsize : value.length = (m.get 2).1 := by rw [← hvalue, List.length_take_of_le hlen]
    have hsum := Bytes.nonzero_take_add_drop (m.get 2).1 (m.get 2).2.left
    rw [left_skipBytes hlen, Bytes.nonzero_append, hsize, ← hvalue]
    omega
  · next hlen =>
    -- the string that is returned is empty
    rw [if_neg hlen, ← hvalue]
    refine ⟨hreadable.setOverrun, ?_⟩
    rw [left_setOverrun, List.length_nil, Bytes.nonzero_append, Bytes.nonzero_put_zero, Bytes.nonzero_nil]
    omega

theorem Field.nonzero_read (f : Field) (h : m.Readable) (hvalue : (f.kind.read m).1 = f.value) :
    (f.kind.read m).2.Readable ∧
      Bytes.nonzero f.encoded + Bytes.nonzero (f.kind.read m).2.left ≤ Bytes.nonzero m.left := by
  cases f with
  | byte value => exact nonzero_getByte h (Value.byte.inj hvalue)
  | number size value => exact nonzero_get h (Value.number.inj hvalue)
  | string value => exact nonzero_getString h (Value.string.inj hvalue)
  | position x y z =>
    have hvalues := Value.position.inj hvalue
    simp only [getPosition, Prod.mk.injEq] at hvalues
    obtain ⟨hx, hy, hz⟩ := hvalues
    obtain ⟨hreadable, hx⟩ := nonzero_get h hx
    obtain ⟨hreadable, hy⟩ := nonzero_get hreadable hy
    obtain ⟨hreadable, hz⟩ := nonzero_getByte hreadable hz
    refine ⟨hreadable, ?_⟩
    simp only [Field.encoded, Bytes.nonzero_append, Field.kind, Kind.read, getPosition]
    omega

theorem nonzero_readAll : ∀ (fields : List Field) {m : NetworkMessage}, m.Readable →
    readAll (fields.map Field.kind) m = fields.map Field.value →
    Bytes.nonzero (fields.flatMap Field.encoded) ≤ Bytes.nonzero m.left
  | [], m, _, _ => Nat.zero_le _
  | f :: fields, m, h, hvalues => by
    simp only [List.map_cons, readAll, List.cons.injEq] at hvalues
    obtain ⟨hreadable, hle⟩ := f.nonzero_read h hvalues.1
    have hrest := nonzero_readAll fields hreadable hvalues.2
    rw [List.flatMap_cons, Bytes.nonzero_append]
    omega

end Reading

/-! ### Messages -/

section Messages

variable {m : NetworkMessage} {fields : List Field}

theorem Field.appends (f : Field) : Appends f.add f.written := by
  cases f with
  | byte value => exact appends_addByte value
  | number size value => exact appends_add size value
  | string value => exact appends_addString value
  | position x y z => exact appends_addPosition x y z

theorem Field.written_of_short {f : Field} (h : f.Short) : f.written = f.encoded := by
  cases f with
  | string value => exact if_neg (Nat.not_lt.2 h)
  | _ => rfl

theorem Field.written_of_not_short {f : Field} (h : ¬ f.Short) : f.written = [] := by
  cases f with
  | string value => exact if_pos (Nat.not_le.1 h)
  | _ => exact absurd trivial h

theorem Field.length_written_le (f : Field) : f.written.length ≤ f.encoded.length := by
  by_cases h : f.Short
  · rw [f.written_of_short h]
  · rw [f.written_of_not_short h]
    exact Nat.zero_le _

/-- The size of the fields in bytes. -/
def encodedSize (fields : List Field) : ℕ := (fields.flatMap Field.encoded).length

/-- With room for all fields the message gets what each writer writes. -/
theorem addAll_written (h : m.Written) (hroom : encodedSize fields + m.position < MAX_BODY_LENGTH) :
    (addAll m fields).Written ∧ (addAll m fields).body = m.body ++ fields.flatMap Field.written := by
  induction fields generalizing m with
  | nil => exact ⟨h, by simp [addAll]⟩
  | cons f fields ih =>
    have hsize : encodedSize (f :: fields) = f.encoded.length + encodedSize fields := by
      simp only [encodedSize, List.flatMap_cons, List.length_append]
    have hle := f.length_written_le
    obtain ⟨hwritten, hbody⟩ := f.appends m h (by omega)
    have hlen := congrArg List.length hbody
    rw [List.length_append, length_body, length_body] at hlen
    have hpos := h.position
    have hpos' := hwritten.position
    obtain ⟨hrest, hrestBody⟩ := ih hwritten (by omega)
    exact ⟨hrest, by rw [addAll, List.foldl_cons, ← addAll, hrestBody, hbody, List.append_assoc]; rfl⟩

theorem readable_rewind (h : m.Written) : (rewind m).Readable := by
  have hpos := h.position
  have hroom := h.room
  exact ⟨Nat.le_add_left _ _, by rw [hpos] at hroom; exact hroom⟩

theorem left_rewind (m : NetworkMessage) : (rewind m).left = m.body := by
  unfold left rewind body
  rw [show m.length + 4 - INITIAL_BUFFER_POSITION = m.length from Nat.add_sub_cancel _ _]

/-- A string that is left out has bytes that are not zero. -/
theorem Field.nonzero_pos {f : Field} (h : ¬ f.Short) (hlt : f.encoded.length < MAX_BODY_LENGTH) :
    0 < Bytes.nonzero f.encoded := by
  cases f with
  | string value =>
    have hlong : 8192 < value.length := Nat.not_le.1 h
    have hmax : MAX_BODY_LENGTH = 24576 := rfl
    simp only [Field.encoded, List.length_append, Bytes.length_put] at hlt
    rw [Field.encoded, Bytes.nonzero_append]
    by_contra hzero
    have hvalue := Bytes.value_of_nonzero_eq_zero (s := Bytes.put 2 value.length) (by omega)
    rw [Bytes.value_put_of_lt (by omega)] at hvalue
    omega
  | _ => exact absurd trivial h

theorem nonzero_written_le (f : Field) : Bytes.nonzero f.written ≤ Bytes.nonzero f.encoded := by
  by_cases h : f.Short
  · rw [f.written_of_short h]
  · rw [f.written_of_not_short h]
    exact Nat.zero_le _

theorem nonzero_flatMap_le (fields : List Field) :
    Bytes.nonzero (fields.flatMap Field.written) ≤ Bytes.nonzero (fields.flatMap Field.encoded) := by
  induction fields with
  | nil => exact le_rfl
  | cons f fields ih =>
    rw [List.flatMap_cons, List.flatMap_cons, Bytes.nonzero_append, Bytes.nonzero_append]
    exact Nat.add_le_add (nonzero_written_le f) ih

theorem nonzero_flatMap_lt (hroom : encodedSize fields < MAX_BODY_LENGTH) (h : ∃ f ∈ fields, ¬ f.Short) :
    Bytes.nonzero (fields.flatMap Field.written) < Bytes.nonzero (fields.flatMap Field.encoded) := by
  induction fields with
  | nil => simp at h
  | cons f fields ih =>
    have hsize : encodedSize (f :: fields) = f.encoded.length + encodedSize fields := by
      simp only [encodedSize, List.flatMap_cons, List.length_append]
    rw [List.flatMap_cons, List.flatMap_cons, Bytes.nonzero_append, Bytes.nonzero_append]
    obtain ⟨g, hg, hshort⟩ := h
    rcases List.mem_cons.1 hg with rfl | hg
    · have hpos := Field.nonzero_pos hshort (by omega)
      have hle := nonzero_flatMap_le fields
      rw [g.written_of_not_short hshort, Bytes.nonzero_nil]
      omega
    · exact Nat.add_lt_add_of_le_of_lt (nonzero_written_le f) (ih (by omega) ⟨g, hg, hshort⟩)

/-- A message that left a field out is not read back. -/
theorem readAll_ne_of_long (memory : ℕ → UInt8)
    (hroom : encodedSize fields < MAX_BODY_LENGTH - INITIAL_BUFFER_POSITION) (h : ∃ f ∈ fields, ¬ f.Short) :
    readAll (fields.map Field.kind) (rewind (addAll (new memory) fields)) ≠ fields.map Field.value := by
  intro hvalues
  have hmax : MAX_BODY_LENGTH = 24576 := rfl
  have hpos : (new memory).position = 4 := rfl
  have hinit : INITIAL_BUFFER_POSITION = 4 := rfl
  obtain ⟨hwritten, hbody⟩ := @addAll_written _ fields (written_new memory) (by omega)
  have hlt := nonzero_flatMap_lt (by omega) h
  have hle := nonzero_readAll fields (readable_rewind hwritten) hvalues
  have hempty : (new memory).body = [] := rfl
  rw [left_rewind, hbody, hempty, List.nil_append] at hle
  omega

/-- After every call the length is the number of bytes written and the cursor is
behind them, and the fields are read back as they were written exactly when no
string has more than 8192 bytes. -/
theorem readAll_iff (memory : ℕ → UInt8) (hroom : encodedSize fields < MAX_BODY_LENGTH - INITIAL_BUFFER_POSITION) :
    (∀ n, (addAll (new memory) (fields.take n)).length = ((fields.take n).flatMap Field.written).length ∧
      (addAll (new memory) (fields.take n)).position =
        (addAll (new memory) (fields.take n)).length + INITIAL_BUFFER_POSITION) ∧
    (readAll (fields.map Field.kind) (rewind (addAll (new memory) fields)) = fields.map Field.value ↔
      ∀ f ∈ fields, f.Short) := by
  have hmax : MAX_BODY_LENGTH = 24576 := rfl
  have hpos : (new memory).position = 4 := rfl
  have hinit : INITIAL_BUFFER_POSITION = 4 := rfl
  have hempty : (new memory).body = [] := rfl
  constructor
  · intro n
    have htake : encodedSize (fields.take n) ≤ encodedSize fields := by
      have hsplit := congrArg encodedSize (List.take_append_drop n fields)
      simp only [encodedSize, List.flatMap_append, List.length_append] at hsplit ⊢
      omega
    obtain ⟨hwritten, hbody⟩ := @addAll_written _ (fields.take n) (written_new memory) (by omega)
    exact ⟨by rw [← length_body, hbody, hempty, List.nil_append], hwritten.position⟩
  · obtain ⟨hwritten, hbody⟩ := @addAll_written _ fields (written_new memory) (by omega)
    rw [hempty, List.nil_append] at hbody
    constructor
    · intro hvalues
      by_contra hlong
      push Not at hlong
      exact readAll_ne_of_long memory hroom hlong hvalues
    · intro hshort
      refine readAll_encoded fields (s := []) (readable_rewind hwritten) ?_
      rw [left_rewind, hbody, List.append_nil]
      exact List.flatMap_congr fun f hf => f.written_of_short (hshort f hf)

/-- A message of each kind of field. -/
def sample : List Field := [.byte 151, .number 4 7, .string [97, 98], .position 100 200 7]

theorem readAll_iff_sample :
    encodedSize sample < MAX_BODY_LENGTH - INITIAL_BUFFER_POSITION ∧
    (∀ n, (addAll (new fun _ => 0) (sample.take n)).length = ((sample.take n).flatMap Field.written).length ∧
      (addAll (new fun _ => 0) (sample.take n)).position =
        (addAll (new fun _ => 0) (sample.take n)).length + INITIAL_BUFFER_POSITION) ∧
    (readAll (sample.map Field.kind) (rewind (addAll (new fun _ => 0) sample)) = sample.map Field.value ↔
      ∀ f ∈ sample, f.Short) :=
  ⟨by decide, readAll_iff (fun _ => 0) (by decide)⟩

/-- What `ProtocolGame::sendHouseWindow` writes. -/
def houseWindow (windowTextId : Fin (256 ^ 4)) (text : List UInt8) : List Field :=
  [.byte 151, .byte 0, .number 4 windowTextId, .string text]

theorem string_mem_houseWindow (windowTextId : Fin (256 ^ 4)) (text : List UInt8) :
    .string text ∈ houseWindow windowTextId text := by
  simp [houseWindow]

/-- A house window with a text of 8193 bytes fits, and is not read back. -/
theorem houseWindow_torn :
    encodedSize (houseWindow 1 (List.replicate 8193 97)) < MAX_BODY_LENGTH - INITIAL_BUFFER_POSITION ∧
      readAll ((houseWindow 1 (List.replicate 8193 97)).map Field.kind)
          (rewind (addAll (new fun _ => 0) (houseWindow 1 (List.replicate 8193 97)))) ≠
        (houseWindow 1 (List.replicate 8193 97)).map Field.value := by
  have hsize : encodedSize (houseWindow 1 (List.replicate 8193 97)) < MAX_BODY_LENGTH - INITIAL_BUFFER_POSITION := by
    simp only [encodedSize, houseWindow, List.flatMap_cons, Field.encoded, List.length_append, Bytes.length_put,
      List.length_replicate]
    decide
  have hlong : ¬ (Field.string (List.replicate 8193 97)).Short := fun h => by
    rw [Field.Short, List.length_replicate] at h
    omega
  exact ⟨hsize, readAll_ne_of_long _ hsize ⟨_, string_mem_houseWindow _ _, hlong⟩⟩

end Messages
end NetworkMessage
end ForgottenServer
