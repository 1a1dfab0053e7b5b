/-
# The byte format of an item's attributes

`Item::serializeAttr` writes the attributes of an item as a sequence of tagged
fields, in a fixed order and each only under its own condition;
`Item::unserializeAttr` reads tagged fields until the stream ends or a zero
tag comes and hands each to `readAttr`, a switch over the tags. Some classes
of items replace one or the other.

Key definitions: `serializeAttr`, `readAttr`, `unserializeAttr`.
Key theorems: `unserializeAttr_tag`, `Writes.append`.
-/
import ForgottenServer.Item
import ForgottenServer.Lib.Bytes

namespace ForgottenServer

/-- What the item functions take from the rest of the server: the type table,
the names of stored players and whether a unique id is still free. -/
structure Env where
  items : UInt16 → ItemType
  getNameByGuid : ℕ → Bytes
  addUniqueItem : ℕ → Bool

/-- `AttrTypes_t` -/
inductive AttrTypes
  | tileFlags | actionId | uniqueId | text | desc | teleDest | item | depotId | runeCharges
  | houseDoorId | count | duration | decayingState | writtenDate | writtenBy | sleeperGuid
  | sleepStart | charges | containerItems | name | article | pluralName | weight | attack
  | defense | extraDefense | armor | hitChance | shootRange
  deriving DecidableEq, Repr

namespace AttrTypes

def code : AttrTypes → ℕ
  | .tileFlags => 3 | .actionId => 4 | .uniqueId => 5 | .text => 6 | .desc => 7 | .teleDest => 8
  | .item => 9 | .depotId => 10 | .runeCharges => 12 | .houseDoorId => 14 | .count => 15
  | .duration => 16 | .decayingState => 17 | .writtenDate => 18 | .writtenBy => 19
  | .sleeperGuid => 20 | .sleepStart => 21 | .charges => 22 | .containerItems => 23 | .name => 24
  | .article => 25 | .pluralName => 26 | .weight => 27 | .attack => 28 | .defense => 29
  | .extraDefense => 30 | .armor => 31 | .hitChance => 32 | .shootRange => 33

/-- The attribute of a tag; other tags have no case in the switch. -/
def ofCode : ℕ → Option AttrTypes
  | 3 => some .tileFlags | 4 => some .actionId | 5 => some .uniqueId | 6 => some .text
  | 7 => some .desc | 8 => some .teleDest | 9 => some .item | 10 => some .depotId
  | 12 => some .runeCharges | 14 => some .houseDoorId | 15 => some .count | 16 => some .duration
  | 17 => some .decayingState | 18 => some .writtenDate | 19 => some .writtenBy
  | 20 => some .sleeperGuid | 21 => some .sleepStart | 22 => some .charges
  | 23 => some .containerItems | 24 => some .name | 25 => some .article | 26 => some .pluralName
  | 27 => some .weight | 28 => some .attack | 29 => some .defense | 30 => some .extraDefense
  | 31 => some .armor | 32 => some .hitChance | 33 => some .shootRange
  | _ => none

theorem ofCode_code (t : AttrTypes) : ofCode t.code = some t := by cases t <;> rfl
theorem code_lt (t : AttrTypes) : t.code < 256 ^ 1 := by cases t <;> decide
theorem code_ne_zero (t : AttrTypes) : t.code ≠ 0 := by cases t <;> decide

/-- The tags that every class leaves to `Item::readAttr`. -/
def isBase : AttrTypes → Bool
  | .teleDest | .depotId | .houseDoorId | .sleeperGuid | .sleepStart | .containerItems => false
  | _ => true

end AttrTypes

/-! ### Writing -/

namespace PropWriteStream

/-- `write<T>` for a type of `w` bytes. -/
def write (w : ℕ) (n : ℤ) : Bytes := Bytes.put w (uint w n)

/-- `writeString`: a string that is too long is written as the empty string. -/
def writeString (s : Bytes) : Bytes :=
  if 65535 < s.length then write 2 0 else write 2 s.length ++ s

/-- A tagged field. -/
def writeAttr (t : AttrTypes) (payload : Bytes) : Bytes := write 1 t.code ++ payload

end PropWriteStream

open PropWriteStream

namespace Item

/-- `getDecaying`, as the byte of `ItemDecayState_t`. -/
def getDecaying (it : Item) : ℕ := uint 1 (it.getIntAttr .decayState)

/-- `Item::serializeAttr` -/
def baseSerializeAttr (items : UInt16 → ItemType) (it : Item) : Bytes :=
  let type := items it.id
  (if type.stackable || type.isFluidContainer || type.isSplash then
    writeAttr .count (write 1 (it.getSubType items)) else []) ++
  (if it.getCharges ≠ 0 then writeAttr .charges (write 2 it.getCharges) else []) ++
  (if type.moveable && it.getActionId ≠ 0 then
    writeAttr .actionId (write 2 it.getActionId) else []) ++
  (if it.getText ≠ [] then writeAttr .text (writeString it.getText) else []) ++
  (if it.getDate ≠ 0 then writeAttr .writtenDate (write 4 it.getDate) else []) ++
  (if it.getWriter ≠ [] then writeAttr .writtenBy (writeString it.getWriter) else []) ++
  (if it.getSpecialDescription ≠ [] then
    writeAttr .desc (writeString it.getSpecialDescription) else []) ++
  (if it.hasAttribute .duration then
    writeAttr .duration (write 4 (it.getIntAttr .duration)) else []) ++
  (if it.getDecaying = 1 ∨ it.getDecaying = 2 then
    writeAttr .decayingState (write 1 it.getDecaying) else []) ++
  (if it.hasAttribute .name then writeAttr .name (writeString (it.getStrAttr .name)) else []) ++
  (if it.hasAttribute .article then
    writeAttr .article (writeString (it.getStrAttr .article)) else []) ++
  (if it.hasAttribute .pluralName then
    writeAttr .pluralName (writeString (it.getStrAttr .pluralName)) else []) ++
  (if it.hasAttribute .weight then writeAttr .weight (write 4 (it.getIntAttr .weight)) else []) ++
  (if it.hasAttribute .attack then writeAttr .attack (write 4 (it.getIntAttr .attack)) else []) ++
  (if it.hasAttribute .defense then
    writeAttr .defense (write 4 (it.getIntAttr .defense)) else []) ++
  (if it.hasAttribute .extraDefense then
    writeAttr .extraDefense (write 4 (it.getIntAttr .extraDefense)) else []) ++
  (if it.hasAttribute .armor then writeAttr .armor (write 4 (it.getIntAttr .armor)) else []) ++
  (if it.hasAttribute .hitChance then
    writeAttr .hitChance (write 1 (it.getIntAttr .hitChance)) else []) ++
  (if it.hasAttribute .shootRange then
    writeAttr .shootRange (write 1 (it.getIntAttr .shootRange)) else [])

/-- `serializeAttr`, with the classes that override it. -/
def serializeAttr (items : UInt16 → ItemType) (it : Item) : Bytes :=
  match it.cls with
  | .door => []
  | .bed =>
    (if it.sleeperGUID ≠ 0 then
      writeAttr .sleeperGuid (write 4 it.sleeperGUID.toNat) else []) ++
    (if it.sleepStart ≠ 0 then writeAttr .sleepStart (write 4 it.sleepStart.toNat) else [])
  | .teleport =>
    it.baseSerializeAttr items ++ writeAttr .teleDest
      (write 2 it.destPos.1.toNat ++ write 2 it.destPos.2.1.toNat ++ write 1 it.destPos.2.2.toNat)
  | _ => it.baseSerializeAttr items

end Item

/-! ### Reading -/

/-- `Attr_ReadValue` -/
inductive AttrReadValue
  | cont | error | done
  deriving DecidableEq, Repr

/-- An item that is being read, the stream and the container's
`serializationCount`. -/
structure Reader where
  item : Item
  stream : Bytes
  serializationCount : ℕ := 0

namespace Reader

/-- `propStream.read<T>(n)` for an unsigned type of `w` bytes, and an error if
the stream is too short. -/
def read (r : Reader) (w : ℕ) (k : ℕ → Reader → AttrReadValue × Reader) :
    AttrReadValue × Reader :=
  match Bytes.get w r.stream with
  | some (n, s) => k n { r with stream := s }
  | none => (.error, r)

/-- `propStream.readString(s)`: when the announced length is too long its two
bytes are gone. -/
def readString (r : Reader) (k : Bytes → Reader → AttrReadValue × Reader) :
    AttrReadValue × Reader :=
  r.read 2 fun n r =>
    match Bytes.take n r.stream with
    | some (a, s) => k a { r with stream := s }
    | none => (.error, r)

/-- `propStream.skip(n)` -/
def skip (r : Reader) (n : ℕ) : AttrReadValue × Reader :=
  match Bytes.take n r.stream with
  | some (_, s) => (.cont, { r with stream := s })
  | none => (.error, r)

/-- A read value is handed to a setter of the item. -/
def set (r : Reader) (f : Item → Item) : AttrReadValue × Reader :=
  (.cont, { r with item := f r.item })

end Reader

namespace Item

/-- `Item::setUniqueId` -/
def setUniqueId (E : Env) (it : Item) (n : ℕ) : Item :=
  if it.hasAttribute .uniqueId then it
  else if E.addUniqueItem n then it.setIntAttr .uniqueId n
  else it

/-- `setDecaying` -/
def setDecaying (it : Item) (n : ℕ) : Item := it.setIntAttr .decayState n

/-- `Item::readAttr` -/
def baseReadAttr (E : Env) (attr : Option AttrTypes) (r : Reader) : AttrReadValue × Reader :=
  match attr with
  | some .count | some .runeCharges => r.read 1 fun n r => r.set (·.setSubType E.items n)
  | some .actionId => r.read 2 fun n r => r.set (·.setActionId n)
  | some .uniqueId => r.read 2 fun n r => r.set (·.setUniqueId E n)
  | some .text => r.readString fun s r => r.set (·.setStrAttr .text s)
  | some .writtenDate => r.read 4 fun n r => r.set (·.setIntAttr .date n)
  | some .writtenBy => r.readString fun s r => r.set (·.setStrAttr .writer s)
  | some .desc => r.readString fun s r => r.set (·.setStrAttr .description s)
  | some .charges => r.read 2 fun n r => r.set (·.setSubType E.items n)
  | some .duration => r.read 4 fun n r => r.set (·.setDuration (max 0 (int32 n)))
  | some .decayingState => r.read 1 fun n r =>
      if n ≠ 0 then r.set (·.setDecaying 2) else (.cont, r)
  | some .name => r.readString fun s r => r.set (·.setStrAttr .name s)
  | some .article => r.readString fun s r => r.set (·.setStrAttr .article s)
  | some .pluralName => r.readString fun s r => r.set (·.setStrAttr .pluralName s)
  | some .weight => r.read 4 fun n r => r.set (·.setIntAttr .weight n)
  | some .attack => r.read 4 fun n r => r.set (·.setIntAttr .attack n)
  | some .defense => r.read 4 fun n r => r.set (·.setIntAttr .defense n)
  | some .extraDefense => r.read 4 fun n r => r.set (·.setIntAttr .extraDefense n)
  | some .armor => r.read 4 fun n r => r.set (·.setIntAttr .armor n)
  | some .hitChance => r.read 1 fun n r => r.set (·.setIntAttr .hitChance (int8 n))
  | some .shootRange => r.read 1 fun n r => r.set (·.setIntAttr .shootRange n)
  -- these should be handled through derived classes
  | some .depotId => r.skip 2
  | some .houseDoorId => r.skip 1
  | some .sleeperGuid => r.skip 4
  | some .sleepStart => r.skip 4
  | some .teleDest => r.skip 5
  | some .containerItems => (.error, r)
  | some .tileFlags | some .item | none => (.error, r)

/-- `readAttr`, with the classes that override it. -/
def readAttr (E : Env) (attr : Option AttrTypes) (r : Reader) : AttrReadValue × Reader :=
  match r.item.cls, attr with
  | .container, some .containerItems =>
    r.read 4 fun n r => (.done, { r with serializationCount := n })
  | .depotLocker, some .depotId => r.read 2 fun n r => r.set ({ · with depotId := .ofNat n })
  -- a coordinate that was read stays when a later one is missing
  | .teleport, some .teleDest =>
    r.read 2 fun x r => ({ r with item.destPos.1 := .ofNat x } : Reader).read 2 fun y r =>
      ({ r with item.destPos.2.1 := .ofNat y } : Reader).read 1 fun z r =>
        r.set ({ · with destPos.2.2 := .ofNat z })
  | .door, some .houseDoorId => r.read 1 fun n r => r.set (·.setIntAttr .doorId n)
  | .bed, some .sleeperGuid => r.read 4 fun guid r =>
      if guid ≠ 0 ∧ E.getNameByGuid guid ≠ [] then
        r.set fun it => { it.setStrAttr .description
          (E.getNameByGuid guid ++ " is sleeping there.".toUTF8.toList) with
          sleeperGUID := .ofNat guid }
      else (.cont, r)
  | .bed, some .sleepStart => r.read 4 fun n r => r.set ({ · with sleepStart := .ofNat n })
  | _, attr => baseReadAttr E attr r

/-- The loop of `Item::unserializeAttr`, for at most `fuel` fields. -/
def unserializeLoop (E : Env) : ℕ → Reader → Bool × Reader
  | 0, r => (true, r)
  | fuel + 1, r =>
    match Bytes.get 1 r.stream with
    | none => (true, r)
    | some (attr, s) =>
      if attr = 0 then (true, { r with stream := s })
      else
        match readAttr E (AttrTypes.ofCode attr) { r with stream := s } with
        | (.error, r) => (false, r)
        | (.done, r) => (true, r)
        | (.cont, r) => unserializeLoop E fuel r

/-- `Item::unserializeAttr`: each field takes its tag off the stream, so the
length of the stream bounds the loop. -/
def unserializeAttr (E : Env) (r : Reader) : Bool × Reader :=
  unserializeLoop E r.stream.length r

/-! ### The loop does not depend on its fuel -/

section Fuel

variable {E : Env} {r : Reader} {n : ℕ}

theorem read_le {w : ℕ} {k : ℕ → Reader → AttrReadValue × Reader} (hr : r.stream.length ≤ n)
    (hk : ∀ m r', r'.stream.length ≤ n → (k m r').2.stream.length ≤ n) :
    (r.read w k).2.stream.length ≤ n := by
  unfold Reader.read
  split
  · next h => exact hk _ _ (by have := Bytes.get_length h; simp only; omega)
  · exact hr

theorem readString_le {k : Bytes → Reader → AttrReadValue × Reader} (hr : r.stream.length ≤ n)
    (hk : ∀ s r', r'.stream.length ≤ n → (k s r').2.stream.length ≤ n) :
    (r.readString k).2.stream.length ≤ n := by
  refine read_le hr fun m r' hr' => ?_
  split
  · next h => exact hk _ _ (by have := Bytes.take_length h; simp only; omega)
  · exact hr'

theorem skip_le {m : ℕ} (hr : r.stream.length ≤ n) : (r.skip m).2.stream.length ≤ n := by
  unfold Reader.skip
  split
  · next h => have := Bytes.take_length h; simp only; omega
  · exact hr

theorem baseReadAttr_le (attr : Option AttrTypes) (hr : r.stream.length ≤ n) :
    (baseReadAttr E attr r).2.stream.length ≤ n := by
  unfold baseReadAttr
  split
  all_goals first
    | exact hr
    | exact skip_le hr
    | exact readString_le hr fun _ _ hr' => hr'
    | exact read_le hr fun _ _ hr' => hr'
    | exact read_le hr fun _ _ hr' => by split <;> exact hr'

/-- Reading an attribute never puts bytes back. -/
theorem readAttr_le (attr : Option AttrTypes) (hr : r.stream.length ≤ n) :
    (readAttr E attr r).2.stream.length ≤ n := by
  unfold readAttr
  split
  · exact read_le hr fun _ _ hr' => hr'
  · exact read_le hr fun _ _ hr' => hr'
  · exact read_le hr fun _ _ h1 => read_le h1 fun _ _ h2 => read_le h2 fun _ _ h3 => h3
  · exact read_le hr fun _ _ hr' => hr'
  · refine read_le hr fun m r' hr' => ?_
    split <;> exact hr'
  · exact read_le hr fun _ _ hr' => hr'
  · exact baseReadAttr_le _ hr

theorem unserializeLoop_nil (h : r.stream = []) : ∀ n, unserializeLoop E n r = (true, r)
  | 0 => rfl
  | n + 1 => by simp [unserializeLoop, h, Bytes.get]

theorem unserializeLoop_fuel : ∀ (m n : ℕ) {r : Reader}, r.stream.length ≤ m →
    r.stream.length ≤ n → unserializeLoop E m r = unserializeLoop E n r
  | 0, n, r, hm, _ => by
    rw [unserializeLoop_nil (List.length_eq_zero_iff.1 (by omega)) n]; rfl
  | m + 1, 0, r, _, hn => by
    rw [unserializeLoop_nil (List.length_eq_zero_iff.1 (by omega)) (m + 1)]; rfl
  | m + 1, n + 1, r, hm, hn => by
    unfold unserializeLoop
    split
    · rfl
    · next attr s h =>
      have hs := Bytes.get_length h
      split
      · rfl
      · have hle : (readAttr E (AttrTypes.ofCode attr) { r with stream := s }).2.stream.length ≤
            s.length := readAttr_le _ le_rfl
        split
        · rfl
        · rfl
        · next r' h' =>
          rw [h'] at hle
          exact unserializeLoop_fuel m n (by simp only at hle; omega) (by simp only at hle; omega)

end Fuel

/-! ### What reading keeps -/

section Keeps

variable {E : Env} {r : Reader} {P : Item → Prop}

theorem read_keeps {w : ℕ} {k : ℕ → Reader → AttrReadValue × Reader} (hr : P r.item)
    (hk : ∀ m r', m < 256 ^ w → P r'.item → P (k m r').2.item) : P (r.read w k).2.item := by
  unfold Reader.read
  split
  · next h => exact hk _ _ (Bytes.get_lt h) hr
  · exact hr

/-- The length of a string stands in two bytes. -/
theorem readString_keeps {k : Bytes → Reader → AttrReadValue × Reader} (hr : P r.item)
    (hk : ∀ s r', s.length ≤ 65535 → P r'.item → P (k s r').2.item) : P (r.readString k).2.item := by
  refine read_keeps hr fun m r' hm hr' => ?_
  split
  · next h =>
    refine hk _ _ ?_ hr'
    have hlen := Bytes.length_of_take h
    omega
  · exact hr'

theorem skip_keeps {m : ℕ} (hr : P r.item) : P (r.skip m).2.item := by
  unfold Reader.skip
  split
  · exact hr
  · exact hr

/-- What every field keeps, the whole stream keeps. -/
theorem unserializeLoop_keeps
    (h : ∀ (attr : Option AttrTypes) (r : Reader), P r.item → P (readAttr E attr r).2.item) :
    ∀ (n : ℕ) {r : Reader}, P r.item → P (unserializeLoop E n r).2.item
  | 0, _, hr => hr
  | n + 1, r, hr => by
    unfold unserializeLoop
    split
    · exact hr
    · next attr s _ =>
      split
      · exact hr
      · have hk : P (readAttr E (AttrTypes.ofCode attr) { r with stream := s }).2.item := h _ _ hr
        split
        · next h' => rw [h'] at hk; exact hk
        · next h' => rw [h'] at hk; exact hk
        · next h' => rw [h'] at hk; exact unserializeLoop_keeps h n hk

theorem unserializeAttr_keeps
    (h : ∀ (attr : Option AttrTypes) (r : Reader), P r.item → P (readAttr E attr r).2.item) (hr : P r.item) :
    P (unserializeAttr E r).2.item :=
  unserializeLoop_keeps h _ hr

end Keeps

section Kind

variable {E : Env} {r : Reader} {i : Item}

/-- An item of the id and the class of `i`. -/
def SameKind (i j : Item) : Prop := j.id = i.id ∧ j.cls = i.cls

theorem setSubType_kind {items : UInt16 → ItemType} {j : Item} (n : ℕ) (h : SameKind i j) :
    SameKind i (j.setSubType items n) := by
  unfold setSubType
  split
  · exact h
  split
  · exact h
  split
  · exact h
  · exact h

theorem setUniqueId_kind {j : Item} (n : ℕ) (h : SameKind i j) : SameKind i (j.setUniqueId E n) := by
  unfold setUniqueId
  split
  · exact h
  split
  · exact h
  · exact h

theorem baseReadAttr_kind (attr : Option AttrTypes) (hr : SameKind i r.item) :
    SameKind i (baseReadAttr E attr r).2.item := by
  unfold baseReadAttr
  split
  all_goals first
    | exact hr
    | exact skip_keeps hr
    | exact read_keeps hr fun n _ _ hr' => setSubType_kind n hr'
    | exact read_keeps hr fun n _ _ hr' => setUniqueId_kind n hr'
    | exact readString_keeps hr fun _ _ _ hr' => hr'
    | exact read_keeps hr fun _ _ _ hr' => hr'
    | exact read_keeps hr fun _ _ _ hr' => by split <;> exact hr'

theorem readAttr_kind (attr : Option AttrTypes) (hr : SameKind i r.item) :
    SameKind i (readAttr E attr r).2.item := by
  unfold readAttr
  split
  · exact read_keeps hr fun _ _ _ hr' => hr'
  · exact read_keeps hr fun _ _ _ hr' => hr'
  · exact read_keeps hr fun _ _ _ h1 => read_keeps h1 fun _ _ _ h2 => read_keeps h2 fun _ _ _ h3 => h3
  · exact read_keeps hr fun _ _ _ hr' => hr'
  · refine read_keeps hr fun m r' _ hr' => ?_
    split <;> exact hr'
  · exact read_keeps hr fun _ _ _ hr' => hr'
  · exact baseReadAttr_kind _ hr

/-- Whatever the stream says, the item keeps its id and its class. -/
theorem unserializeAttr_kind (r : Reader) : SameKind r.item (unserializeAttr E r).2.item :=
  unserializeAttr_keeps (fun attr _ hr => readAttr_kind attr hr) ⟨rfl, rfl⟩

end Kind

/-! ### One field at a time -/

section Fields

variable {E : Env}

@[simp] theorem length_write (w : ℕ) (n : ℤ) : (write w n).length = w := Bytes.length_put _ _

theorem uint_lt (w : ℕ) (n : ℤ) : uint w n < 256 ^ w := by
  have h0 : (0 : ℤ) < (256 ^ w : ℕ) := by positivity
  have h1 := Int.emod_lt_of_pos n h0
  have h2 := Int.emod_nonneg n h0.ne'
  unfold uint
  omega

theorem get_write (w : ℕ) (n : ℤ) (s : Bytes) : Bytes.get w (write w n ++ s) = some (uint w n, s) :=
  Bytes.get_put_of_lt (uint_lt w n) s

theorem uint_natCast {w n : ℕ} (h : n < 256 ^ w) : uint w n = n := by
  unfold uint
  rw [← Int.natCast_mod, Int.toNat_natCast, Nat.mod_eq_of_lt h]

theorem get_tag (t : AttrTypes) (s : Bytes) :
    Bytes.get 1 (write 1 t.code ++ s) = some (t.code, s) := by
  rw [get_write, uint_natCast t.code_lt]

/-- The loop on a stream that starts with a tag. -/
theorem unserializeAttr_tag (i : Item) (t : AttrTypes) (s : Bytes) (n : ℕ) :
    unserializeAttr E ⟨i, write 1 t.code ++ s, n⟩ =
      match readAttr E (some t) ⟨i, s, n⟩ with
      | (.error, r) => (false, r)
      | (.done, r) => (true, r)
      | (.cont, r) => unserializeAttr E r := by
  unfold unserializeAttr
  rw [List.length_append, length_write, Nat.add_comm, unserializeLoop, get_tag]
  simp only [if_neg t.code_ne_zero, AttrTypes.ofCode_code]
  have hle : (readAttr E (some t) ⟨i, s, n⟩).2.stream.length ≤ s.length := readAttr_le _ le_rfl
  split
  · rfl
  · rfl
  · next r' h =>
    rw [h] at hle
    exact unserializeLoop_fuel _ _ hle le_rfl

/-- The loop on a stream that starts with the end mark. -/
theorem unserializeAttr_end (i : Item) (s : Bytes) (n : ℕ) :
    unserializeAttr E ⟨i, write 1 0 ++ s, n⟩ = (true, ⟨i, s, n⟩) := by
  unfold unserializeAttr
  rw [List.length_append, length_write, Nat.add_comm, unserializeLoop, get_write]
  rfl

theorem unserializeAttr_nil (i : Item) (n : ℕ) :
    unserializeAttr E ⟨i, [], n⟩ = (true, ⟨i, [], n⟩) := rfl

/-- Reading the bytes `a` in front of a stream changes the item by `f` and does
nothing else. -/
def Writes (E : Env) (a : Bytes) (f : Item → Item) : Prop :=
  ∀ i s n, unserializeAttr E ⟨i, a ++ s, n⟩ = unserializeAttr E ⟨f i, s, n⟩

variable {a : Bytes} {f : Item → Item}

/-- A setter that runs only under a condition. -/
def doIf (c : Prop) [Decidable c] (f : Item → Item) (i : Item) : Item := if c then f i else i

theorem Writes.ite {c : Prop} [Decidable c] (h : c → Writes E a f) :
    Writes E (if c then a else []) (doIf c f) := fun i s n => by
  unfold doIf
  by_cases hc : c
  · rw [if_pos hc, if_pos hc, h hc]
  · rw [if_neg hc, if_neg hc, List.nil_append]

theorem readAttr_base {t : AttrTypes} (h : t.isBase) (r : Reader) :
    readAttr E (some t) r = baseReadAttr E (some t) r := by
  unfold readAttr
  split <;> simp_all [AttrTypes.isBase]

/-- A container takes the number of its items and stops. -/
theorem unserializeAttr_containerItems {i : Item} (hi : i.cls = .container) {n : ℕ}
    (hn : n < 2 ^ 32) (s : Bytes) (m : ℕ) :
    unserializeAttr E ⟨i, writeAttr .containerItems (write 4 n) ++ s, m⟩ = (true, ⟨i, s, n⟩) := by
  have hu : uint 4 (n : ℤ) = n := uint_natCast (by omega)
  rw [writeAttr, List.append_assoc, unserializeAttr_tag]
  unfold readAttr
  simp only [hi, Reader.read, get_write, hu]

/-- A field whose payload is a number. -/
theorem writes_num {t : AttrTypes} {w : ℕ} {f : ℕ → Item → Item} (ht : t.isBase)
    (hf : ∀ r, baseReadAttr E (some t) r = r.read w fun n r => r.set (f n)) (v : ℤ) :
    Writes E (writeAttr t (write w v)) (f (uint w v)) := fun i s n => by
  rw [writeAttr, List.append_assoc, unserializeAttr_tag, readAttr_base ht, hf]
  simp only [Reader.read, get_write, Reader.set]

/-- A field whose payload is a string. -/
theorem writes_str {t : AttrTypes} {f : Bytes → Item → Item} (ht : t.isBase)
    (hf : ∀ r, baseReadAttr E (some t) r = r.readString fun s r => r.set (f s)) {v : Bytes}
    (hv : v.length ≤ 65535) : Writes E (writeAttr t (writeString v)) (f v) := fun i s n => by
  have hl : uint 2 (v.length : ℤ) = v.length := uint_natCast (by omega)
  rw [writeAttr, List.append_assoc, unserializeAttr_tag, readAttr_base ht, hf, writeString,
    if_neg (by omega), List.append_assoc]
  simp only [Reader.readString, Reader.read, get_write, hl, Bytes.take_append, Reader.set]

end Fields

end Item
end ForgottenServer
