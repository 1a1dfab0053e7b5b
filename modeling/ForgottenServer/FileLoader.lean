/-
# The node file format

An OTB or OTBM file is an identifier and a tree of nodes, each between a start
and an end byte, with its type, its properties and its children; special bytes
in the properties are escaped. `FileLoader::openFile` scans the file once for
the places of the nodes; `getProps` reads a node's properties later, through
the same cache, and removes the escapes in place.

Key definitions: `parseNode`, `openFile`, `getProps`, `Label`, `encode`, `Shows`.
Key theorems: `parseNode_spec`, `getProps_spec`, `openFile_encodeFile`.
-/
import ForgottenServer.FileCache
import ForgottenServer.Lib.Forest

namespace ForgottenServer
namespace FileLoader

def escapeChar : UInt8 := 0xFD
def nodeStart : UInt8 := 0xFE
def nodeEnd : UInt8 := 0xFF

/-! ### Opening a file -/

/-- The size of the properties and the first child of a node whose end was
read; `props` are set if a child was found. -/
def endProps (L : FileLoader) (start : ℕ) :
    Option (ℕ × NodeStruct) → Option (ℕ × NodeStruct) × FileLoader
  | some props => (some props, L)
  | none =>
    match L.safeTell with
    | (none, L) => (none, L)
    | (some pos, L) => (some (sub32 (sub32 pos start) 2, .null), L)

mutual

/-- `FileLoader::parseNode` for the node that starts at `start`, with those that
follow it on its level. Every call reads a byte further on in the file, so its
length bounds their depth. -/
def parseNode : ℕ → ℕ → FileLoader → Option NodeStruct × FileLoader
  | 0, _, L => (none, L)
  | n + 1, start, L =>
    match L.readByte with
    | (none, L) => (none, L)
    | (some type, L) => parseProps n start type.toNat none L

/-- The inner loop of `parseNode`; `props` are the size of the properties and
the first child, once a child was found. -/
def parseProps : ℕ → ℕ → ℕ → Option (ℕ × NodeStruct) → FileLoader → Option NodeStruct × FileLoader
  | 0, _, _, _, L => (none, L)
  | n + 1, start, type, props, L =>
    match L.readByte with
    | (none, L) => (none, L)
    | (some byte, L) =>
      if byte = nodeStart then
        -- child node start
        match L.safeTell with
        | (none, L) => (none, L)
        | (some pos, L) =>
          match parseNode n pos L with
          | (none, L) => (none, L)
          | (some child, L) =>
            parseProps n start type (some (sub32 (sub32 pos start) 2, child)) L
      else if byte = nodeEnd then
        -- current node end
        match L.endProps start props with
        | (none, L) => (none, L)
        | (some (propsSize, child), L) =>
          match L.readByte with
          | (none, L) => (some (.node start propsSize type .null child), L)
          | (some byte, L) =>
            if byte = nodeStart then
              -- starts next node
              match L.safeTell with
              | (none, L) => (none, L)
              | (some pos, L) =>
                match parseNode n pos L with
                | (none, L) => (none, L)
                | (some next, L) => (some (.node start propsSize type next child), L)
            else if byte = nodeEnd then
              match L.safeTell with
              | (none, L) => (none, L)
              | (some pos, L) =>
                match L.safeSeek pos with
                | (false, L) => (none, L)
                | (true, L) => (some (.node start propsSize type .null child), L)
            else (none, { L with lastError := .invalidFormat })
      else if byte = escapeChar then
        match L.readByte with
        | (none, L) => (none, L)
        | (some _, L) => parseProps n start type props L
      else parseProps n start type props L

end

/-- The size of a cache block for a file of `n` bytes, whose size is read as an
`int32_t`. -/
def cacheSizeFor (n : ℕ) : ℕ :=
  (min 32768 (max (uint 4 ((int32 n).tdiv 20)) 8192)).ldiff 0x1FFF

/-- `FileLoader::openFile` of a new loader; `none` is a file that cannot be
opened. -/
def openFile (acceptIdentifier : Bytes) : Option Bytes → Bool × FileLoader
  | none => (false, { file := [], lastError := .canNotOpen })
  | some file =>
    if file.length < 4 then (false, { file, lastError := .eof })
    -- the identifier is the accepted one or the wildcard
    else if file.take 4 ≠ acceptIdentifier.take 4 ∧ file.take 4 ≠ [0, 0, 0, 0] then
      (false, { file, lastError := .invalidFileVersion })
    else
      let L : FileLoader := { file, cacheSize := cacheSizeFor file.length }
      match L.safeSeek 4 with
      | (false, L) => (false, { L with lastError := .invalidFormat })
      | (true, L) =>
        match L.safeSeek 4 with
        | (false, L) => (false, L)
        | (true, L) =>
          match L.readByte with
          | (none, L) => (false, L)
          | (some byte, L) =>
            if byte = nodeStart then
              match parseNode file.length 4 L with
              | (none, L) => (false, L)
              | (some root, L) => (true, { L with root })
            else (false, L)

/-! ### Reading the nodes -/

/-- The loop that doubles `buffer_size` until `propsSize` fits. After 32 rounds
the size is 0 and stays so: without a result the loop does not end. -/
def growBuffer (propsSize : ℕ) : ℕ → ℕ → Option ℕ
  | 0, _ => none
  | n + 1, size =>
    if size ≤ propsSize then growBuffer propsSize n (2 * size % 2 ^ 32) else some size

/-- `memcpy` to the place `k` of the buffer. -/
def copyTo (buffer : Bytes) (k : ℕ) (data : Bytes) : Bytes :=
  buffer.take k ++ data ++ buffer.drop (k + data.length)

/-- The loop of `FileLoader::readBytes`, with `k` bytes in the buffer; without a
result it does not end, as a round that reads nothing is repeated for ever. The
sizes that reach it are below 2³¹. -/
def readBytes : ℕ → ℕ → ℕ → ℕ → FileLoader → Option (Bool × FileLoader)
  | 0, _, _, _, _ => none
  | n + 1, remain, k, pos, L =>
    match L.getCacheBlock pos with
    | (none, L) => some (false, L)
    | (some i, L) =>
      let L := L.setCursor i pos
      let data := ((L.cachedData i).data.drop L.cacheOffset).take remain
      let L := { L with
        buffer := copyTo L.buffer k data
        cacheOffset := L.cacheOffset + data.length }
      if 0 < remain - data.length then
        readBytes n (remain - data.length) (k + data.length) (pos + data.length) L
      else some (true, L)

/-- The loop of `getProps` that removes the escapes: the buffer and how many
bytes of it are left. -/
def unescape (propsSize : ℕ) : ℕ → ℕ → ℕ → Bool → Bytes → Bytes × ℕ
  | 0, _, j, _, buffer => (buffer, j)
  | n + 1, i, j, escaped, buffer =>
    if i < propsSize then
      if buffer.getD i 0 = escapeChar then
        -- escape char found, skip it and write next
        unescape propsSize n (i + 2) (j + 1) true (buffer.set j (buffer.getD (i + 1) 0))
      else if escaped then
        unescape propsSize n (i + 1) (j + 1) true (buffer.set j (buffer.getD i 0))
      else unescape propsSize n (i + 1) (j + 1) false buffer
    else (buffer, j)

/-- A new buffer, if the old one is too small. -/
def growTo (L : FileLoader) (propsSize : ℕ) : Option FileLoader :=
  if L.buffer.length ≤ propsSize then
    (growBuffer propsSize 33 L.buffer.length).map fun size =>
      { L with buffer := List.replicate size 0 }
  else some L

/-- `FileLoader::getProps`: the bytes, if any; without a result it does not
return. -/
def getProps (L : FileLoader) : NodeStruct → Option (Option Bytes × FileLoader)
  | .null => some (none, L)
  | .node start propsSize _ _ _ =>
    match L.growTo propsSize with
    | none => none
    | some L =>
      match readBytes (propsSize + 1) propsSize 0 ((start + 2) % 2 ^ 32) L with
      | none => none
      | some (false, L) => some (none, L)
      | some (true, L) =>
        let (buffer, size) := unescape propsSize propsSize 0 0 false L.buffer
        some (some (buffer.take size), { L with buffer })

/-- `FileLoader::getChildNode`: the node and the type that is set, if any. -/
def getChildNode (L : FileLoader) : NodeStruct → NodeStruct × Option ℕ
  | .node _ _ _ _ child =>
    match child with
    | .null => (.null, none)
    | .node _ _ type _ _ => (child, some type)
  | .null =>
    match L.root with
    | .null => (.null, none)
    | .node _ _ type _ _ => (L.root, some type)

/-- `FileLoader::getNextNode` -/
def getNextNode : NodeStruct → NodeStruct × Option ℕ
  | .null => (.null, none)
  | .node _ _ _ next _ =>
    match next with
    | .null => (.null, none)
    | .node _ _ type _ _ => (next, some type)

/-! ### Encoding -/

/-- A node's type and properties. -/
structure Label where
  type : UInt8
  props : Bytes
  type_lt : type < 0xFD
  deriving DecidableEq, Repr

/-- Properties with the special bytes escaped. -/
def encodeProps : Bytes → Bytes
  | [] => []
  | b :: l => if escapeChar ≤ b then escapeChar :: b :: encodeProps l else b :: encodeProps l

/-- The nodes of a level, one after the other. -/
def encode : Forest Label → Bytes
  | .nil => []
  | .cons a c s =>
    nodeStart :: a.type :: (encodeProps a.props ++ (encode c ++ (nodeEnd :: encode s)))

/-- A file with the tree of the root `a`. -/
def encodeFile (identifier : Bytes) (a : Label) (c : Forest Label) : Bytes :=
  identifier ++ encode (.cons a c .nil)

/-- The structures for the nodes of a level whose encoding starts at `p`. -/
def nodes : ℕ → Forest Label → NodeStruct
  | _, .nil => .null
  | p, .cons a c s =>
    .node p (encodeProps a.props).length a.type.toNat
      (nodes (p + 3 + (encodeProps a.props).length + (encode c).length) s)
      (nodes (p + 2 + (encodeProps a.props).length) c)

/-! ### The scan of the file -/

variable {f : Bytes} {L : FileLoader} {p q n : ℕ} {rest : Bytes}

theorem drop_succ {b : UInt8} (h : f.drop q = b :: rest) : f.drop (q + 1) = rest := by
  rw [← List.tail_drop, h, List.tail_cons]

theorem drop_add {a : Bytes} (h : f.drop q = a ++ rest) : f.drop (q + a.length) = rest := by
  rw [← List.drop_drop, h, List.drop_left]

/-- A position in front of a byte is one of the file. -/
theorem lt_of_drop {b : UInt8} (h : f.drop q = b :: rest) : q < f.length := by
  have := congrArg List.length h
  simp only [List.length_drop, List.length_cons] at this
  omega

theorem add_le_of_drop {a : Bytes} (h : f.drop q = a ++ rest) (hq : q ≤ f.length) :
    q + a.length ≤ f.length := by
  have := congrArg List.length h
  simp only [List.length_drop, List.length_append] at this
  omega

/-- The inner loop runs over escaped properties. -/
theorem parseProps_props (hf : f.length < 2 ^ 32) (start type : ℕ) (pr : Option (ℕ × NodeStruct)) :
    ∀ (props : Bytes) {n q : ℕ} {L : FileLoader}, f.drop q = encodeProps props ++ rest →
    At f L q → f.length ≤ n + q → ∃ n' L', parseProps n start type pr L =
        parseProps n' start type pr L' ∧ At f L' (q + (encodeProps props).length) ∧
      f.length ≤ n' + (q + (encodeProps props).length)
  | [], n, q, L, _, hL, hn => ⟨n, L, rfl, hL, hn⟩
  | b :: l, n, q, L, h, hL, hn => by
    unfold encodeProps at h ⊢
    by_cases hb : escapeChar ≤ b
    · rw [if_pos hb] at h ⊢
      have hlt := lt_of_drop h
      obtain ⟨m, rfl⟩ : ∃ m, n = m + 1 := ⟨n - 1, by omega⟩
      obtain ⟨L1, h1, hL1⟩ := readByte_cons hL hf h
      obtain ⟨L2, h2, hL2⟩ := readByte_cons hL1 hf (drop_succ h)
      obtain ⟨n', L', h3, hL', hn'⟩ := parseProps_props hf start type pr l
        (drop_succ (drop_succ h)) hL2 (n := m) (by omega)
      have hne1 : ¬ escapeChar = nodeStart := by decide
      have hne2 : ¬ escapeChar = nodeEnd := by decide
      refine ⟨n', L', ?_, by convert hL' using 1; simp only [List.length_cons]; omega, by
        simp only [List.length_cons]; omega⟩
      rw [parseProps, h1]
      simp only [if_neg hne1, if_neg hne2, h2]
      exact h3
    · rw [if_neg hb] at h ⊢
      have hlt := lt_of_drop h
      obtain ⟨m, rfl⟩ : ∃ m, n = m + 1 := ⟨n - 1, by omega⟩
      obtain ⟨L1, h1, hL1⟩ := readByte_cons hL hf h
      obtain ⟨n', L', h3, hL', hn'⟩ := parseProps_props hf start type pr l (drop_succ h) hL1
        (n := m) (by omega)
      have hne : ∀ c : UInt8, escapeChar ≤ c → ¬ b = c := fun c hc hbc => hb (hbc ▸ hc)
      refine ⟨n', L', ?_, by convert hL' using 1; simp only [List.length_cons]; omega, by
        simp only [List.length_cons]; omega⟩
      rw [parseProps, h1]
      simp only [if_neg (hne nodeStart (by decide)), if_neg (hne nodeEnd (by decide)),
        if_neg (hne escapeChar (by decide))]
      exact h3

/-- What follows the nodes of a level: nothing, or the end of their parent. -/
def EndsLevel (rest : Bytes) : Prop := rest = [] ∨ ∃ r, rest = nodeEnd :: r

/-- The nodes `F` are parsed where they stand in the file, and the cursor is
left after them. -/
def Parses (f : Bytes) (F : Forest Label) : Prop :=
  ∀ (n p : ℕ) (L : FileLoader) (rest : Bytes), f.drop p = encode F ++ rest → EndsLevel rest →
    At f L (p + 1) → f.length ≤ n + (p + 1) →
    ∃ L', parseNode n p L = (some (nodes p F), L') ∧ At f L' (p + (encode F).length)

/-- The end byte of a node: the next node of the level is parsed, or the cursor
goes back in front of the end of the parent. -/
theorem parseProps_end (hf : f.length < 2 ^ 32) {s : Forest Label} (hs : s ≠ .nil → Parses f s)
    (start type : ℕ) {e propsSize : ℕ} {child : NodeStruct} {pr : Option (ℕ × NodeStruct)}
    (hpr : ∀ L', At f L' (e + 1) → L'.endProps start pr = (some (propsSize, child), L'))
    (h : f.drop e = nodeEnd :: (encode s ++ rest)) (hrest : EndsLevel rest) (hL : At f L e)
    (hn : f.length ≤ n + e) :
    ∃ L', parseProps n start type pr L =
        (some (.node start propsSize type (nodes (e + 1) s) child), L') ∧
      At f L' (e + 1 + (encode s).length) := by
  have hlt := lt_of_drop h
  obtain ⟨m, rfl⟩ : ∃ m, n = m + 1 := ⟨n - 1, by omega⟩
  obtain ⟨L1, h1, hL1⟩ := readByte_cons hL hf h
  have hne : ¬ nodeEnd = nodeStart := by decide
  rw [parseProps, h1]
  simp only [if_neg hne, if_true, hpr L1 hL1]
  have hnext := drop_succ h
  cases s with
  | nil =>
    rcases hrest with rfl | ⟨r, rfl⟩
    · -- the file ends here
      have hend : e + 1 = f.length := by
        have := congrArg List.length hnext
        simp only [encode, List.append_nil, List.length_drop, List.length_nil] at this
        omega
      rw [hend] at hL1
      obtain ⟨L2, h2, hL2⟩ := readByte_end hL1 hf
      rw [h2]
      exact ⟨L2, rfl, by simpa only [encode, List.length_nil, Nat.add_zero, hend] using hL2⟩
    · rw [encode, List.nil_append] at hnext
      obtain ⟨L2, h2, hL2⟩ := readByte_cons hL1 hf hnext
      have hlt' := lt_of_drop hnext
      obtain ⟨L3, h3, hL3⟩ := safeSeek_at hL2.toSound hlt'.le (by omega)
      rw [h2]
      simp only [if_neg hne, if_true, safeTell_at hL2 (by omega), h3]
      exact ⟨L3, rfl, hL3⟩
  | cons a c s =>
    obtain ⟨L2, h2, hL2⟩ := readByte_cons hL1 hf (b := nodeStart) hnext
    have hlt' := lt_of_drop (b := nodeStart) hnext
    obtain ⟨L3, h3, hL3⟩ := hs (fun h => by cases h) m _ L2 rest hnext hrest hL2 (by omega)
    rw [h2]
    simp only [if_true, safeTell_at hL2 (by omega), h3]
    exact ⟨L3, rfl, hL3⟩

theorem sub32_props {p k : ℕ} (h : p + 2 + k < 2 ^ 32) : sub32 (sub32 (p + 2 + k) p) 2 = k := by
  rw [sub32_of_le (by omega) h, sub32_of_le (by omega) (by omega)]
  omega

theorem nodes_cons {a : Label} {c s : Forest Label} {p e : ℕ}
    (he : e + 1 = p + 3 + (encodeProps a.props).length + (encode c).length) :
    nodes p (.cons a c s) = .node p (encodeProps a.props).length a.type.toNat (nodes (e + 1) s)
      (nodes (p + 2 + (encodeProps a.props).length) c) := by
  rw [he, nodes]

/-- The nodes of a level and all below them are parsed. -/
theorem parseNode_spec (hf : f.length < 2 ^ 32) : ∀ F : Forest Label, F ≠ .nil → Parses f F
  | .nil, h => absurd rfl h
  | .cons a c s, _ => by
    intro n p L rest h hrest hL hn
    simp only [encode, List.cons_append, List.append_assoc] at h
    have htype := drop_succ h
    have hlt := lt_of_drop htype
    obtain ⟨m, rfl⟩ : ∃ m, n = m + 1 := ⟨n - 1, by omega⟩
    obtain ⟨L1, h1, hL1⟩ := readByte_cons hL hf htype
    have hprops := drop_succ htype
    obtain ⟨n', L2, h2, hL2, hn2⟩ := parseProps_props hf p a.type.toNat none a.props hprops hL1
      (n := m) (by omega)
    have hbody := drop_add hprops
    have hq := add_le_of_drop hprops (by omega)
    rw [show p + 1 + 1 = p + 2 from rfl] at hbody hL2 hn2 hq
    rw [parseNode, h1]
    simp only [h2]
    have hlen : (encode (.cons a c s)).length =
        3 + (encodeProps a.props).length + (encode c).length + (encode s).length := by
      simp only [encode, List.length_cons, List.length_append]
      omega
    cases c with
    | nil =>
      rw [encode, List.nil_append] at hbody
      have := lt_of_drop hbody
      have hpr : ∀ L', At f L' (p + 2 + (encodeProps a.props).length + 1) →
          L'.endProps p none = (some ((encodeProps a.props).length, .null), L') := fun L' hL' => by
        rw [endProps, safeTell_at hL' (by omega)]
        simp only [sub32_props (show p + 2 + (encodeProps a.props).length < 2 ^ 32 by omega)]
      obtain ⟨L3, h3, hL3⟩ := parseProps_end hf (fun hs => parseNode_spec hf s hs) p
        a.type.toNat hpr hbody hrest hL2 hn2
      rw [encode, List.length_nil] at hlen
      have he : p + (encode (.cons a .nil s)).length =
          p + 2 + (encodeProps a.props).length + 1 + (encode s).length := by omega
      refine ⟨L3, ?_, he ▸ hL3⟩
      rw [h3, nodes_cons (e := p + 2 + (encodeProps a.props).length) (by
        rw [encode, List.length_nil]
        omega)]
      simp only [nodes]
    | cons b d r =>
      have hchild : f.drop (p + 2 + (encodeProps a.props).length) =
          nodeStart :: (b.type :: (encodeProps b.props ++ (encode d ++ (nodeEnd :: encode r))) ++
            (nodeEnd :: (encode s ++ rest))) := hbody
      have hlt2 := lt_of_drop hchild
      obtain ⟨k, rfl⟩ : ∃ k, n' = k + 1 := ⟨n' - 1, by omega⟩
      obtain ⟨L3, h3, hL3⟩ := readByte_cons hL2 hf hchild
      obtain ⟨L4, h4, hL4⟩ := parseNode_spec hf (.cons b d r) (fun h => by cases h) k _ L3 _ hbody
        (.inr ⟨_, rfl⟩) hL3 (by omega)
      have hend := drop_add hbody
      have hpos : 0 < (encode (.cons b d r)).length := Nat.succ_pos _
      obtain ⟨L5, h5, hL5⟩ := parseProps_end hf (fun hs => parseNode_spec hf s hs) p a.type.toNat
        (fun L' _ => endProps.eq_1 L' p ((encodeProps a.props).length,
          nodes (p + 2 + (encodeProps a.props).length) (.cons b d r))) hend hrest hL4 (n := k)
        (by omega)
      have he : p + (encode (.cons a (.cons b d r) s)).length = p + 2 + (encodeProps a.props).length +
          (encode (.cons b d r)).length + 1 + (encode s).length := by omega
      have hsize : sub32 (sub32 (p + 2 + (encodeProps a.props).length) p) 2 =
          (encodeProps a.props).length := sub32_props (by omega)
      refine ⟨L5, ?_, he ▸ hL5⟩
      rw [parseProps, h3]
      simp only [if_true, safeTell_at hL3 (by omega), h4, hsize]
      rw [h5, nodes_cons (a := a) (s := s)
        (e := p + 2 + (encodeProps a.props).length + (encode (.cons b d r)).length) (by omega)]

/-! ### Reading bytes into the buffer -/

theorem growBuffer_zero (m : ℕ) : ∀ n, growBuffer m n 0 = none
  | 0 => rfl
  | n + 1 => by
    rw [growBuffer, if_pos (Nat.zero_le m)]
    exact growBuffer_zero m n

/-- From 2³¹ bytes on the size overflows before it is large enough. -/
theorem growBuffer_none {m : ℕ} (hm : 2 ^ 31 ≤ m) : ∀ n {k : ℕ}, k < 32 →
    growBuffer m n (2 ^ k) = none
  | 0, _, _ => rfl
  | n + 1, k, hk => by
    have hle : 2 ^ k ≤ 2 ^ 31 := Nat.pow_le_pow_right (by omega) (by omega)
    rw [growBuffer, if_pos (hle.trans hm), ← Nat.pow_succ']
    by_cases hlast : k = 31
    · subst hlast
      exact growBuffer_zero m n
    · rw [Nat.mod_eq_of_lt (Nat.pow_lt_pow_right (by omega) (by omega))]
      exact growBuffer_none hm n (by omega)

theorem growBuffer_some {m : ℕ} (hm : m < 2 ^ 31) : ∀ n {k : ℕ}, k < 32 → m < 2 ^ (k + n) →
    ∃ j < 32, growBuffer m (n + 1) (2 ^ k) = some (2 ^ j) ∧ m < 2 ^ j
  | 0, k, hk, h => ⟨k, hk, by rw [growBuffer, if_neg (by simpa using h)], h⟩
  | n + 1, k, hk, h => by
    rw [growBuffer]
    by_cases hle : 2 ^ k ≤ m
    · have hlt : k < 31 := (Nat.pow_lt_pow_iff_right (by omega)).1 (hle.trans_lt hm)
      rw [if_pos hle, ← Nat.pow_succ',
        Nat.mod_eq_of_lt (Nat.pow_lt_pow_right (by omega) (by omega))]
      exact growBuffer_some hm n (by omega) (by rwa [show k + 1 + n = k + (n + 1) by omega])
    · rw [if_neg hle]
      exact ⟨k, hk, rfl, by omega⟩

theorem length_copyTo {b d : Bytes} {k : ℕ} (h : k + d.length ≤ b.length) :
    (copyTo b k d).length = b.length := by
  simp only [copyTo, List.length_append, List.length_take, List.length_drop]
  omega

/-- Two copies, one after the other. -/
theorem copyTo_copyTo {b d e : Bytes} {k : ℕ} (h : k + d.length ≤ b.length) :
    copyTo (copyTo b k d) (k + d.length) e = copyTo b k (d ++ e) := by
  have hlen : (b.take k ++ d).length = k + d.length := by
    rw [List.length_append, List.length_take]
    omega
  have htake : (b.take k ++ d ++ b.drop (k + d.length)).take (k + d.length) = b.take k ++ d := by
    rw [← hlen, List.take_left]
  have hdrop : (b.take k ++ d ++ b.drop (k + d.length)).drop (k + d.length + e.length) =
      b.drop (k + (d ++ e).length) := by
    rw [List.drop_append, hlen, List.drop_of_length_le (by omega), List.nil_append, List.drop_drop,
      List.length_append]
    congr 1
    omega
  rw [copyTo, copyTo, htake, hdrop, copyTo, List.append_assoc (b.take k) d e]

/-- The state after one round of `readBytes`. -/
theorem Sound.copied (h : Sound f L) (i : Fin 3) (pos : ℕ) {k : ℕ} {d : Bytes}
    (hd : k + d.length ≤ L.buffer.length) :
    Sound f { L.setCursor i pos with
      buffer := copyTo L.buffer k d
      cacheOffset := (L.setCursor i pos).cacheOffset + d.length } := by
  refine ⟨h.file, h.cacheSize, ?_, h.data⟩
  show ∃ k' < 32, (copyTo L.buffer k d).length = 2 ^ k'
  rw [length_copyTo hd]
  exact h.buffer

theorem loadCacheBlock_buffer (L : FileLoader) (pos : ℕ) :
    (L.loadCacheBlock pos).2.buffer = L.buffer := by
  unfold loadCacheBlock
  simp only []
  split
  · rfl
  · rfl

theorem getCacheBlock_buffer (L : FileLoader) (pos : ℕ) :
    (L.getCacheBlock pos).2.buffer = L.buffer := by
  unfold getCacheBlock
  split
  · rfl
  · exact loadCacheBlock_buffer L pos

/-- Whatever is read, the cache stays sound. -/
theorem readBytes_sound : ∀ (n : ℕ) {remain k pos : ℕ} {L : FileLoader} {r : Bool × FileLoader},
    Sound f L → k + remain ≤ L.buffer.length → readBytes n remain k pos L = some r → Sound f r.2
  | 0, _, _, _, _, _, _, _, h => by cases h
  | n + 1, remain, k, pos, L, r, hL, hk, h => by
    have hsound := getCacheBlock_sound hL pos
    have hbuffer := getCacheBlock_buffer L pos
    rw [readBytes] at h
    rcases hget : L.getCacheBlock pos with ⟨i, L'⟩
    rw [hget] at h hsound hbuffer
    cases i with
    | none =>
      cases h
      exact hsound
    | some i =>
      simp only [] at h
      have hlen := List.length_take_le remain
        (((L'.setCursor i pos).cachedData i).data.drop (L'.setCursor i pos).cacheOffset)
      have hb : L.buffer = L'.buffer := hbuffer.symm
      have hsound' : Sound f L' := hsound
      rw [hb] at hk
      have hs := hsound'.copied i pos (k := k) (d :=
        (((L'.setCursor i pos).cachedData i).data.drop (L'.setCursor i pos).cacheOffset).take remain)
        (by omega)
      split at h
      · refine readBytes_sound n hs ?_ h
        show k + _ + (remain - _) ≤ (copyTo L'.buffer k _).length
        rw [length_copyTo (by omega)]
        omega
      · cases h
        exact hs

/-- A round takes the bytes at the position that the block and the rest allow, at
least one while there is a rest. -/
theorem round_data {i : Fin 3} {pos remain : ℕ} (h : Sound f L) (hi : (L.cachedData i).loaded)
    (hb : (L.cachedData i).base = L.basePos pos) (hlt : pos < 2 ^ 32)
    (hpos : pos + remain ≤ f.length) : ∃ d ≤ remain, (0 < remain → 0 < d) ∧
      (((L.setCursor i pos).cachedData i).data.drop (L.setCursor i pos).cacheOffset).take remain =
        (f.drop pos).take d ∧ ((f.drop pos).take d).length = d := by
  have hle := basePos_le L pos
  have hsize := h.cacheSize
  obtain ⟨-, hoff⟩ := setCursor_at h hi hb hlt
  rw [hoff]
  show ∃ d ≤ remain, _ ∧ ((L.cachedData i).data.drop _).take remain = _ ∧ _
  rw [h.data i hi, List.drop_take, List.take_take, List.drop_drop,
    show (L.cachedData i).base + (pos - (L.cachedData i).base) = pos by omega]
  refine ⟨min remain (L.cacheSize - (pos - (L.cachedData i).base)), by omega, by omega, rfl, ?_⟩
  rw [List.length_take, List.length_drop]
  omega

/-- The bytes of the file are copied into the buffer, and the cursor is behind them. -/
theorem readBytes_spec (hf : f.length < 2 ^ 32) : ∀ (n remain k pos : ℕ) {L : FileLoader},
    Sound f L → pos + remain ≤ f.length → k + remain ≤ L.buffer.length → remain < n →
    ∃ L', readBytes n remain k pos L = some (true, L') ∧ At f L' (pos + remain) ∧
      L'.buffer = copyTo L.buffer k ((f.drop pos).take remain)
  | 0, _, _, _, _, _, _, _, h => absurd h (Nat.not_lt_zero _)
  | n + 1, remain, k, pos, L, hL, hpos, hk, hn => by
    have hle : pos ≤ f.length := by omega
    obtain ⟨i, L', h1, h2, h3, h4, h5, h6⟩ := getCacheBlock_spec hL hle (by omega)
    have hb : (L'.cachedData i).base = L'.basePos pos := by rw [h4, basePos, basePos, h5]
    obtain ⟨d, hd, hpos', hdata, hdlen⟩ := round_data h2 h3 hb (by omega) hpos
    have hk' : k + ((f.drop pos).take d).length ≤ L'.buffer.length := by
      rw [hdlen, h6]
      omega
    have hs := h2.copied i pos hk'
    rw [readBytes, h1]
    simp only [hdata]
    split
    · next hrest =>
      rw [hdlen] at hrest ⊢
      rw [hdlen] at hs
      obtain ⟨L'', h7, h8, h9⟩ := readBytes_spec hf n (remain - d) (k + d) (pos + d) hs
        (by omega) (by
          show k + d + (remain - d) ≤ (copyTo L'.buffer k _).length
          rw [length_copyTo hk', h6]
          omega) (by omega)
      rw [show pos + d + (remain - d) = pos + remain by omega] at h8
      refine ⟨L'', h7, h8, h9.trans ?_⟩
      have hcopy := copyTo_copyTo (e := (f.drop (pos + d)).take (remain - d)) hk'
      rw [hdlen] at hcopy
      refine hcopy.trans ?_
      rw [h6, ← List.drop_drop, ← List.take_add, Nat.add_sub_cancel' hd]
    · next hrest =>
      have hall : d = remain := by
        rw [hdlen] at hrest
        omega
      have hcursor : (L'.cachedData i).base + ((L'.setCursor i pos).cacheOffset + d) = pos + remain := by
        have hoff := (setCursor_at h2 h3 hb (by omega)).2
        have hbase := basePos_le L' pos
        omega
      refine ⟨_, rfl, ⟨hs, i, rfl, h3, by rw [hdlen]; exact hcursor⟩, ?_⟩
      show copyTo L'.buffer k _ = _
      rw [hall, h6]

/-! ### Removing the escapes -/

theorem getD_of_drop {buffer : Bytes} {i : ℕ} {b : UInt8} {r : Bytes}
    (h : buffer.drop i = b :: r) : buffer.getD i 0 = b := by
  rw [List.getD_eq_getElem?_getD, ← Nat.add_zero i, ← List.getElem?_drop, h]
  rfl

/-- Writing the byte `b` behind the `j` bytes that are done. -/
theorem set_done {buffer : Bytes} {j i : ℕ} {b : UInt8} (hj : j < buffer.length) (hi : j < i) :
    (buffer.set j b).take (j + 1) = buffer.take j ++ [b] ∧
      (buffer.set j b).drop i = buffer.drop i := by
  refine ⟨?_, List.drop_set_of_lt hi⟩
  rw [List.take_add_one, List.take_set_of_le le_rfl, List.getElem?_set_self hj]
  rfl

/-- The loop takes escaped bytes from behind the place `i` and puts the bytes
themselves behind the place `j`. -/
theorem unescape_spec (size : ℕ) : ∀ (props : Bytes) {n i j : ℕ} {e : Bool} {buffer tail : Bytes},
    buffer.drop i = encodeProps props ++ tail → size = i + (encodeProps props).length →
    (encodeProps props).length ≤ n → j ≤ i → (¬ e → j = i) →
    ∃ buffer', unescape size n i j e buffer = (buffer', j + props.length) ∧
      buffer'.take (j + props.length) = buffer.take j ++ props
  | [], n, i, j, e, buffer, tail, _, hsize, _, _, _ => by
    have hlt : ¬ i < size := by
      rw [hsize, encodeProps, List.length_nil]
      omega
    refine ⟨buffer, ?_, by simp⟩
    cases n with
    | zero => rfl
    | succ n => rw [unescape, if_neg hlt]; rfl
  | b :: l, n, i, j, e, buffer, tail, h, hsize, hn, hj, he => by
    unfold encodeProps at h hsize hn
    have hlen := congrArg List.length h
    by_cases hb : escapeChar ≤ b
    · rw [if_pos hb] at h hsize hn hlen
      simp only [List.length_cons, List.length_append, List.length_drop] at hsize hn hlen
      obtain ⟨m, rfl⟩ : ∃ m, n = m + 1 := ⟨n - 1, by omega⟩
      have h1 := drop_succ h
      obtain ⟨h2, h3⟩ := set_done (b := b) (show j < buffer.length by omega) (show j < i + 2 by omega)
      obtain ⟨buffer', h4, h5⟩ := unescape_spec size l (n := m) (i := i + 2) (j := j + 1) (e := true)
        (h3.trans (drop_succ h1)) (by omega) (by omega) (by omega) (by simp)
      refine ⟨buffer', ?_, ?_⟩
      · rw [unescape, if_pos (by omega), getD_of_drop h, if_pos rfl, getD_of_drop h1, h4,
          List.length_cons]
        congr 1
        omega
      · rw [List.length_cons, show j + (l.length + 1) = j + 1 + l.length by omega, h5, h2]
        simp
    · rw [if_neg hb] at h hsize hn hlen
      simp only [List.length_cons, List.length_append, List.length_drop] at hsize hn hlen
      obtain ⟨m, rfl⟩ : ∃ m, n = m + 1 := ⟨n - 1, by omega⟩
      have hne : ¬ b = escapeChar := fun h => hb (h ▸ (by decide : escapeChar ≤ escapeChar))
      obtain ⟨h2, h3⟩ := set_done (b := b) (show j < buffer.length by omega) (show j < i + 1 by omega)
      cases e with
      | true =>
        obtain ⟨buffer', h4, h5⟩ := unescape_spec size l (n := m) (i := i + 1) (j := j + 1)
          (e := true) (h3.trans (drop_succ h)) (by omega) (by omega) (by omega) (by simp)
        refine ⟨buffer', ?_, ?_⟩
        · rw [unescape, if_pos (by omega), getD_of_drop h, if_neg hne, if_pos rfl, h4,
            List.length_cons]
          congr 1
          omega
        · rw [List.length_cons, show j + (l.length + 1) = j + 1 + l.length by omega, h5, h2]
          simp
      | false =>
        -- nothing was displaced: the byte is in its place
        have hji := he (by simp)
        subst hji
        obtain ⟨buffer', h4, h5⟩ := unescape_spec size l (n := m) (i := j + 1) (j := j + 1)
          (e := false) (drop_succ h) (by omega) (by omega) le_rfl (by simp)
        refine ⟨buffer', ?_, ?_⟩
        · rw [unescape, if_pos (by omega), getD_of_drop h, if_neg hne, if_neg (by simp), h4,
            List.length_cons]
          congr 1
          omega
        · have hget : buffer[j]? = some b := by
            rw [← Nat.add_zero j, ← List.getElem?_drop, h]
            rfl
          rw [List.length_cons, show j + (l.length + 1) = j + 1 + l.length by omega, h5,
            List.take_add_one, hget]
          simp

theorem length_unescape (size : ℕ) : ∀ (n i j : ℕ) (e : Bool) (buffer : Bytes),
    (unescape size n i j e buffer).1.length = buffer.length
  | 0, _, _, _, _ => rfl
  | n + 1, i, j, e, buffer => by
    unfold unescape
    split_ifs
    · rw [length_unescape, List.length_set]
    · rw [length_unescape, List.length_set]
    · rw [length_unescape]
    · rfl

/-! ### The properties of a node -/

/-- The loader with a buffer that is large enough; for more than 2³¹ bytes there
is none. -/
theorem growTo_spec (h : Sound f L) (m : ℕ) :
    (m < 2 ^ 31 → ∃ L', L.growTo m = some L' ∧ Sound f L' ∧ m < L'.buffer.length) ∧
    (2 ^ 31 ≤ m → L.growTo m = none) := by
  obtain ⟨k, hk, hlen⟩ := h.buffer
  unfold growTo
  refine ⟨fun hm => ?_, fun hm => ?_⟩
  · by_cases hle : L.buffer.length ≤ m
    · have hlt : m < 2 ^ (k + 32) := hm.trans (Nat.pow_lt_pow_right (by omega) (by omega))
      obtain ⟨j, hj, hgrow, hmj⟩ := growBuffer_some hm 32 hk hlt
      rw [if_pos hle, hlen, hgrow]
      refine ⟨_, rfl, ⟨h.file, h.cacheSize, ⟨j, hj, ?_⟩, h.data⟩, ?_⟩
      · exact List.length_replicate
      · show m < (List.replicate (2 ^ j) (0 : UInt8)).length
        rwa [List.length_replicate]
    · rw [if_neg hle]
      exact ⟨L, rfl, h, by omega⟩
  · have hle : 2 ^ k ≤ 2 ^ 31 := Nat.pow_le_pow_right (by omega) (by omega)
    rw [if_pos (by omega), hlen, growBuffer_none hm 33 hk, Option.map_none]

/-- `getProps` leaves the cache sound. -/
theorem getProps_sound {node : NodeStruct} {r : Option Bytes × FileLoader} (h : Sound f L)
    (hr : L.getProps node = some r) : Sound f r.2 := by
  cases node with
  | null =>
    cases hr
    exact h
  | node start m type next child =>
    obtain ⟨h1, h2⟩ := growTo_spec h m
    rw [getProps] at hr
    by_cases hm : m < 2 ^ 31
    · obtain ⟨L', h3, h4, h5⟩ := h1 hm
      rw [h3] at hr
      simp only [] at hr
      rcases hread : readBytes (m + 1) m 0 ((start + 2) % 2 ^ 32) L' with - | ⟨b, L''⟩
      · rw [hread] at hr
        cases hr
      · have hs := readBytes_sound _ h4 (by omega) hread
        rw [hread] at hr
        cases b with
        | false =>
          cases hr
          exact hs
        | true =>
          cases hr
          refine ⟨hs.file, hs.cacheSize, ?_, hs.data⟩
          show ∃ k < 32, (unescape m m 0 0 false L''.buffer).1.length = 2 ^ k
          rw [length_unescape]
          exact hs.buffer
    · rw [h2 (by omega)] at hr
      cases hr

/-- `getProps` gives the properties of a node that stands in the file. -/
theorem getProps_spec (hf : f.length < 2 ^ 32) (h : Sound f L) {a : Label} {next child : NodeStruct}
    {type : ℕ} (ha : (encodeProps a.props).length < 2 ^ 31)
    (hp : f.drop p = nodeStart :: a.type :: (encodeProps a.props ++ rest)) :
    ∃ L', L.getProps (.node p (encodeProps a.props).length type next child) =
      some (some a.props, L') := by
  obtain ⟨L1, h1, h2, h3⟩ := (growTo_spec h _).1 ha
  have hlt := lt_of_drop (drop_succ hp)
  have hprops := drop_succ (drop_succ hp)
  have hle := add_le_of_drop hprops (by omega)
  rw [show p + 1 + 1 = p + 2 from rfl] at hprops hle
  obtain ⟨L2, h4, -, h5⟩ := readBytes_spec hf ((encodeProps a.props).length + 1)
    (encodeProps a.props).length 0 (p + 2) h2 hle (by omega) (Nat.lt_succ_self _)
  rw [hprops, List.take_left] at h5
  have hbuffer : L2.buffer.drop 0 =
      encodeProps a.props ++ L1.buffer.drop (0 + (encodeProps a.props).length) := by
    rw [h5, copyTo, List.take_zero, List.nil_append, List.drop_zero]
  obtain ⟨buffer, h6, h7⟩ := unescape_spec (encodeProps a.props).length a.props hbuffer
    (Nat.zero_add _).symm le_rfl le_rfl (e := false) (fun _ => rfl)
  rw [getProps, h1]
  simp only [Nat.mod_eq_of_lt (show p + 2 < 2 ^ 32 by omega), h4, h6]
  rw [h7, List.take_zero, List.nil_append]
  exact ⟨_, rfl⟩

/-- A node with 2³¹ bytes of properties or more cannot be read: the loop that
enlarges the buffer does not end. -/
theorem getProps_large (h : Sound f L) {start m type : ℕ} {next child : NodeStruct}
    (hm : 2 ^ 31 ≤ m) : L.getProps (.node start m type next child) = none := by
  rw [getProps, (growTo_spec h m).2 hm]

/-! ### The round trip -/

theorem cacheSizeFor_pos (n : ℕ) : 0 < cacheSizeFor n := by
  have h1 := ldiff_add_and (min 32768 (max (uint 4 ((int32 n).tdiv 20)) 8192)) 0x1FFF
  have h2 : min 32768 (max (uint 4 ((int32 n).tdiv 20)) 8192) &&& 0x1FFF ≤ 0x1FFF :=
    Nat.and_le_right
  unfold cacheSizeFor
  omega

/-- A file with the accepted identifier, or the wildcard. -/
def Accepts (acceptIdentifier identifier : Bytes) : Prop :=
  identifier.length = 4 ∧ (identifier = acceptIdentifier.take 4 ∨ identifier = [0, 0, 0, 0])

theorem openFile_spec {acceptIdentifier identifier : Bytes} {a : Label} {c : Forest Label}
    (hid : Accepts acceptIdentifier identifier)
    (hsize : (encodeFile identifier a c).length < 2 ^ 32) :
    ∃ L, openFile acceptIdentifier (some (encodeFile identifier a c)) = (true, L) ∧
      Sound (encodeFile identifier a c) L ∧ L.root = nodes 4 (.cons a c .nil) := by
  obtain ⟨hlen, hacc⟩ := hid
  have htake : (encodeFile identifier a c).take 4 = identifier := by
    rw [encodeFile, ← hlen, List.take_left]
  have hdrop : (encodeFile identifier a c).drop 4 = encode (.cons a c .nil) ++ [] := by
    rw [encodeFile, ← hlen, List.drop_left, List.append_nil]
  have h4 := lt_of_drop (b := nodeStart) hdrop
  generalize encodeFile identifier a c = f at *
  have hnew : Sound f { file := f, cacheSize := cacheSizeFor f.length } :=
    ⟨rfl, cacheSizeFor_pos _, ⟨10, by decide, List.length_replicate⟩, fun _ h => by cases h⟩
  obtain ⟨L1, h1, hL1⟩ := safeSeek_at hnew h4.le (by omega)
  obtain ⟨L2, h2, hL2⟩ := safeSeek_at hL1.toSound h4.le (by omega)
  obtain ⟨L3, h3, hL3⟩ := readByte_cons hL2 hsize (b := nodeStart) hdrop
  obtain ⟨L4, h5, hL4⟩ := parseNode_spec hsize (.cons a c .nil) (fun h => by cases h) f.length 4 L3
    [] hdrop (.inl rfl) hL3 (by omega)
  refine ⟨{ L4 with root := nodes 4 (.cons a c .nil) }, ?_,
    ⟨hL4.file, hL4.cacheSize, hL4.buffer, hL4.data⟩, rfl⟩
  have hacc' : ¬ (identifier ≠ acceptIdentifier.take 4 ∧ identifier ≠ [0, 0, 0, 0]) := by
    rintro ⟨h1, h2⟩
    exact hacc.elim h1 h2
  rw [openFile, if_neg (by omega), htake, if_neg hacc']
  simp only [h1, h2, h3, if_true, h5]

/-- A node and its type, as `getChildNode` and `getNextNode` give them. -/
def found : NodeStruct → NodeStruct × Option ℕ
  | .null => (.null, none)
  | .node start propsSize type next child => (.node start propsSize type next child, some type)

theorem getChildNode_node (L : FileLoader) (start propsSize type : ℕ) (next child : NodeStruct) :
    L.getChildNode (.node start propsSize type next child) = found child := by
  cases child <;> rfl

theorem getNextNode_node (start propsSize type : ℕ) (next child : NodeStruct) :
    getNextNode (.node start propsSize type next child) = found next := by
  cases next <;> rfl

theorem getChildNode_null (L : FileLoader) : L.getChildNode .null = found L.root := by
  unfold getChildNode
  cases L.root <;> rfl

/-- Calls of `getProps`, one after the other. -/
def Calls : FileLoader → FileLoader → Prop :=
  Relation.ReflTransGen fun L L' => ∃ node r, L.getProps node = some (r, L')

theorem Calls.sound (h : Sound f L) {L' : FileLoader} (hc : Calls L L') : Sound f L' := by
  induction hc with
  | refl => exact h
  | tail _ hstep ih =>
    obtain ⟨node, r, hr⟩ := hstep
    exact getProps_sound ih hr

/-- From the node in `r` on, the calls of the loader show the nodes of a level
and those below: their types and, whenever it is asked for them, their
properties. -/
def Shows (L : FileLoader) : NodeStruct × Option ℕ → Forest Label → Prop
  | r, .nil => r.1 = .null
  | r, .cons a c s =>
    r.1 ≠ .null ∧ r.2 = some a.type.toNat ∧
      (∀ L', Calls L L' → ∃ L'', L'.getProps r.1 = some (some a.props, L'')) ∧
      Shows L (L.getChildNode r.1) c ∧ Shows L (getNextNode r.1) s

theorem shows_nodes (hf : f.length < 2 ^ 32) (hL : Sound f L) : ∀ {F : Forest Label} {p : ℕ}
    {rest : Bytes}, f.drop p = encode F ++ rest →
    (F.All fun a _ => (encodeProps a.props).length < 2 ^ 31) → Shows L (found (nodes p F)) F
  | .nil, _, _, _, _ => rfl
  | .cons a c s, p, rest, h, ⟨ha, hc, hs⟩ => by
    simp only [encode, List.cons_append, List.append_assoc] at h
    have hbody := drop_add (drop_succ (drop_succ h))
    rw [show p + 1 + 1 = p + 2 from rfl] at hbody
    have hnext := drop_succ (drop_add hbody)
    rw [nodes_cons (e := p + 2 + (encodeProps a.props).length + (encode c).length) (by omega)]
    rw [Shows]
    refine ⟨(fun h => by cases h), rfl, fun L' hL' => getProps_spec hf (hL'.sound hL) ha h, ?_, ?_⟩
    · rw [found, getChildNode_node]
      exact shows_nodes hf hL hbody hc
    · rw [found, getNextNode_node]
      exact shows_nodes hf hL hnext hs

/-- Parsing undoes encoding: a file that its 32-bit positions can address, with
escaped properties of less than 2³¹ bytes in each node, is opened and shows the
tree that was encoded. -/
theorem openFile_encodeFile {acceptIdentifier identifier : Bytes} {a : Label} {c : Forest Label}
    (hid : Accepts acceptIdentifier identifier)
    (hsize : (encodeFile identifier a c).length < 2 ^ 32)
    (hprops : (Forest.cons a c .nil).All fun a _ => (encodeProps a.props).length < 2 ^ 31) :
    ∃ L, openFile acceptIdentifier (some (encodeFile identifier a c)) = (true, L) ∧
      Shows L (L.getChildNode .null) (.cons a c .nil) := by
  obtain ⟨L, h1, h2, h3⟩ := openFile_spec hid hsize
  refine ⟨L, h1, ?_⟩
  rw [getChildNode_null, h3]
  have hdrop : (encodeFile identifier a c).drop 4 = encode (.cons a c .nil) ++ [] := by
    rw [encodeFile, ← hid.1, List.drop_left, List.append_nil]
  exact shows_nodes hsize h2 hdrop hprops

/-- A root with the three special bytes and two children, one of them with a
child of its own. -/
theorem openFile_encodeFile_special : ∃ L,
    openFile [79, 84, 66, 77] (some (encodeFile [79, 84, 66, 77] ⟨0, [253, 254, 255, 7], by decide⟩
      (.cons ⟨2, [], by decide⟩ (.cons ⟨4, [254], by decide⟩ .nil .nil)
        (.cons ⟨6, [1, 2], by decide⟩ .nil .nil)))) = (true, L) ∧
      Shows L (L.getChildNode .null) (.cons ⟨0, [253, 254, 255, 7], by decide⟩
        (.cons ⟨2, [], by decide⟩ (.cons ⟨4, [254], by decide⟩ .nil .nil)
          (.cons ⟨6, [1, 2], by decide⟩ .nil .nil)) .nil) :=
  openFile_encodeFile ⟨rfl, .inl rfl⟩ (by decide) (by simp only [Forest.All]; decide)

theorem encodeProps_zeros : ∀ n : ℕ,
    encodeProps (List.replicate n 0) = List.replicate n 0
  | 0 => rfl
  | n + 1 => by
    rw [List.replicate_succ, encodeProps, if_neg (by decide), encodeProps_zeros n]

/-- A node with `n` zero bytes of properties. -/
def zeros (n : ℕ) : Label := ⟨0, List.replicate n 0, by decide⟩

theorem zeros_not_read {identifier : Bytes} (hid : Accepts identifier identifier) {n : ℕ}
    (hn : 2 ^ 31 ≤ n) (hsize : n + 7 < 2 ^ 32) : ¬ ∃ L,
    openFile identifier (some (encodeFile identifier (zeros n) .nil)) = (true, L) ∧
      Shows L (L.getChildNode .null) (.cons (zeros n) .nil .nil) := by
  have hprops : (encodeProps (zeros n).props).length = n := by
    rw [zeros, encodeProps_zeros, List.length_replicate]
  have hlen : (encodeFile identifier (zeros n) .nil).length < 2 ^ 32 := by
    simp only [encodeFile, encode, List.length_append, List.length_cons, List.length_nil, hprops,
      hid.1]
    omega
  obtain ⟨L, h1, h2, h3⟩ := openFile_spec hid hlen
  rintro ⟨L', h4, h5⟩
  rw [h1, Prod.mk.injEq] at h4
  obtain ⟨-, rfl⟩ := h4
  rw [Shows] at h5
  obtain ⟨-, -, h6, -⟩ := h5
  obtain ⟨L'', h7⟩ := h6 L .refl
  rw [getChildNode_null, h3, nodes, found, getProps_large h2 (by rw [hprops]; exact hn)] at h7
  cases h7

/-- The file of a node with 2³¹ zero bytes has less than 2³² bytes, but the
properties cannot be read. -/
theorem large_not_read : ¬ ∃ L, openFile [79, 84, 66, 77]
      (some (encodeFile [79, 84, 66, 77] (zeros (2 ^ 31)) .nil)) = (true, L) ∧
    Shows L (L.getChildNode .null) (.cons (zeros (2 ^ 31)) .nil .nil) :=
  zeros_not_read ⟨rfl, .inl rfl⟩ le_rfl (by norm_num)

end FileLoader
end ForgottenServer
