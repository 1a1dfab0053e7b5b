/-
# The areas of spells

`AreaCombat::setupArea` reads a matrix of cells with a center for the north and makes the
matrices of the other sides from it by rotation, and `setupExtArea` does so for the corners
by mirroring and flipping. The copies are square, twice the longer side. A rotation turns
the cells about the center into the middle of the new matrix; mirroring and flipping leave
them in the corner, and the new center is computed apart. There the number of rows and the
number of columns are mixed up: the areas of the corners are right for square matrices only.

A write outside of a matrix is `none`. Sizes, centers and indices are those of the code, in
32 bits, and what cosine and sine give for right angles is exact.

Key definitions: `MatrixArea`, `copyArea`, `createArea`, `setupArea`, `setupExtArea`, `Congruent`.
Key theorems: `writeAll_spec`, `copyArea_rotate`, `copyArea_mirror`, `createArea_spec`, `congruent_iff`.
-/
import Mathlib.Tactic
import Mathlib.Data.UInt
import ForgottenServer.PathSearch
import ForgottenServer.Lib.Words

namespace ForgottenServer
namespace AreaCombat

open PathSearch (Direction)

/-! ### Matrices -/

structure MatrixArea where
  rows : UInt32
  cols : UInt32
  centerY : UInt32 := 0
  centerX : UInt32 := 0
  data : UInt32 → UInt32 → Bool := fun _ _ => false

namespace MatrixArea

/-- `(*this)[row][col] = value`, in bounds -/
def write (m : MatrixArea) (row col : UInt32) (value : Bool) : Option MatrixArea :=
  if row < m.rows ∧ col < m.cols then
    some { m with data := fun r c => if r = row ∧ c = col then value else m.data r c }
  else none

def setCenter (m : MatrixArea) (y x : UInt32) : MatrixArea := { m with centerY := y, centerX := x }

/-- Writes one after another: a row, a column and a value each. -/
def writeAll (m : MatrixArea) (l : List (UInt32 × UInt32 × Bool)) : Option MatrixArea :=
  l.foldlM (fun m w => m.write w.1 w.2.1 w.2.2) m

end MatrixArea

/-! ### Copies -/

/-- `MatrixOperation_t` -/
inductive MatrixOperation
  | copy | mirror | flip | rotate90 | rotate180 | rotate270
  deriving DecidableEq, Repr

namespace MatrixOperation

/-- `std::cos(angleRad)` -/
def cos : MatrixOperation → ℤ
  | .rotate90 | .rotate270 => 0
  | .rotate180 => -1
  | _ => 1

/-- `std::sin(angleRad)` -/
def sin : MatrixOperation → ℤ
  | .rotate90 => 1
  | .rotate270 => -1
  | _ => 0

end MatrixOperation

/-- `for (uint32_t x = 0; x < n; ++x)` -/
def upTo (n : UInt32) : List UInt32 := (List.range n.toNat).map UInt32.ofNat

/-- `for (int32_t x = n; --x >= 0;)`, with the number of the round -/
def downFrom (n : UInt32) : List (UInt32 × UInt32) :=
  if n.toNat < 2 ^ 31 then (List.range n.toNat).map fun k => (n - 1 - .ofNat k, .ofNat k) else []

/-- Where a rotation puts a cell: the row and the column in `output`. -/
def rotated (input output : MatrixArea) (op : MatrixOperation) (x y : UInt32) : UInt32 × UInt32 :=
  let rotateCenterX := (output.cols / 2 - 1).toInt32
  let rotateCenterY := (output.rows / 2 - 1).toInt32
  let newX := (x - input.centerX).toInt32
  let newY := (y - input.centerY).toInt32
  let rotatedX := Int32.ofInt (newX.toInt * op.cos + newY.toInt * -op.sin)
  let rotatedY := Int32.ofInt (newX.toInt * op.sin + newY.toInt * op.cos)
  ((rotatedY + rotateCenterY).toUInt32, (rotatedX + rotateCenterX).toUInt32)

/-- The writes of `copyArea`, in order. -/
def writes (input output : MatrixArea) : MatrixOperation → List (UInt32 × UInt32 × Bool)
  | .copy => (upTo input.rows).flatMap fun y => (upTo input.cols).map fun x => (y, x, input.data y x)
  | .mirror => (upTo input.rows).flatMap fun y =>
      (downFrom input.cols).map fun (x, rx) => (y, rx, input.data y x)
  | .flip => (upTo input.cols).flatMap fun x =>
      (downFrom input.rows).map fun (y, ry) => (ry, x, input.data y x)
  | op => (upTo input.cols).flatMap fun x => (upTo input.rows).map fun y =>
      ((rotated input output op x y).1, (rotated input output op x y).2, input.data y x)

/-- The center that `copyArea` sets at the end, y first. -/
def newCenter (input output : MatrixArea) : MatrixOperation → UInt32 × UInt32
  | .copy => (input.centerY, input.centerX)
  | .mirror => (input.centerY, input.rows - 1 - input.centerX)
  | .flip => (input.cols - 1 - input.centerY, input.centerX)
  | _ => (output.rows / 2 - 1, output.cols / 2 - 1)

/-- `AreaCombat::copyArea` -/
def copyArea (input output : MatrixArea) (op : MatrixOperation) : Option MatrixArea :=
  (output.writeAll (writes input output op)).map fun m =>
    m.setCenter (newCenter input output op).1 (newCenter input output op).2

/-! ### Areas -/

/-- The loop of `createArea`, at a cell. -/
def fillArea (area : MatrixArea) : List UInt32 → UInt32 → UInt32 → Option MatrixArea
  | [], _, _ => some area
  | value :: list, y, x => do
    let area ← if value = 1 ∨ value = 3 then area.write y x true else some area
    let area := if value = 2 ∨ value = 3 then area.setCenter y x else area
    if area.cols = x + 1 then fillArea area list (y + 1) 0 else fillArea area list y (x + 1)

/-- `AreaCombat::createArea` -/
def createArea (list : List UInt32) (rows : UInt32) : Option MatrixArea :=
  let cols := if rows = 0 then 0 else UInt32.ofNat (list.length / rows.toNat)
  fillArea { rows, cols } list 0 0

/-- The members of `AreaCombat`. -/
structure Areas where
  areas : Direction → Option MatrixArea
  hasExtArea : Bool

/-- `areas[dir] = area` -/
def Areas.set (a : Areas) (dir : Direction) (area : MatrixArea) : Areas :=
  { a with areas := Function.update a.areas dir (some area) }

/-- `maxOutput` -/
def maxOutput (area : MatrixArea) : UInt32 := (if area.cols < area.rows then area.rows else area.cols) * 2

/-- `new MatrixArea(maxOutput, maxOutput)` -/
def square (area : MatrixArea) : MatrixArea := { rows := maxOutput area, cols := maxOutput area }

/-- `AreaCombat::setupArea` -/
def setupArea (a : Areas) (list : List UInt32) (rows : UInt32) : Option Areas := do
  let area ← createArea list rows
  let a := a.set .north area
  let southArea ← copyArea area (square area) .rotate180
  let a := a.set .south southArea
  let eastArea ← copyArea area (square area) .rotate90
  let a := a.set .east eastArea
  let westArea ← copyArea area (square area) .rotate270
  some (a.set .west westArea)

/-- `AreaCombat::setupExtArea` -/
def setupExtArea (a : Areas) (list : List UInt32) (rows : UInt32) : Option Areas := do
  if list = [] then some a
  else
    let a := { a with hasExtArea := true }
    let area ← createArea list rows
    let a := a.set .northWest area
    let neArea ← copyArea area (square area) .mirror
    let a := a.set .northEast neArea
    let swArea ← copyArea area (square area) .flip
    let a := a.set .southWest swArea
    let seArea ← copyArea swArea (square area) .mirror
    some (a.set .southEast seArea)

/-! ### Writing -/

section Writing

variable {m m' : MatrixArea} {l : List (UInt32 × UInt32 × Bool)}

/-- A write is in bounds. -/
def InBounds (m : MatrixArea) (w : UInt32 × UInt32 × Bool) : Prop := w.1 < m.rows ∧ w.2.1 < m.cols

instance InBounds.decidable (m : MatrixArea) (w : UInt32 × UInt32 × Bool) : Decidable (InBounds m w) :=
  inferInstanceAs (Decidable (_ ∧ _))

/-- A cell is written with one value only. -/
def Consistent (l : List (UInt32 × UInt32 × Bool)) : Prop :=
  ∀ w ∈ l, ∀ w' ∈ l, w.1 = w'.1 → w.2.1 = w'.2.1 → w.2.2 = w'.2.2

theorem write_of_inBounds {row col : UInt32} {value : Bool} (h : row < m.rows ∧ col < m.cols) :
    m.write row col value =
      some { m with data := fun r c => if r = row ∧ c = col then value else m.data r c } := if_pos h

theorem write_of_not_inBounds {row col : UInt32} {value : Bool} (h : ¬ (row < m.rows ∧ col < m.cols)) :
    m.write row col value = none := if_neg h

theorem writeAll_cons (w : UInt32 × UInt32 × Bool) :
    m.writeAll (w :: l) = (m.write w.1 w.2.1 w.2.2).bind fun m => m.writeAll l := rfl

/-- All writes take place if and only if all are in bounds. -/
theorem writeAll_isSome : (m.writeAll l).isSome ↔ ∀ w ∈ l, InBounds m w := by
  induction l generalizing m with
  | nil => exact iff_of_true rfl fun w hw => absurd hw List.not_mem_nil
  | cons w l ih =>
    rw [writeAll_cons, List.forall_mem_cons]
    by_cases h : InBounds m w
    · rw [write_of_inBounds h, Option.bind_some, ih]
      exact (and_iff_right h).symm
    · rw [write_of_not_inBounds h]
      exact iff_of_false (by simp) fun h' => h h'.1

/-- What has been written. -/
theorem writeAll_spec (hl : Consistent l) (h : m.writeAll l = some m') :
    (m'.rows = m.rows ∧ m'.cols = m.cols) ∧ ∀ r c, m'.data r c = true ↔
      (r, c, true) ∈ l ∨ ((∀ v, (r, c, v) ∉ l) ∧ m.data r c = true) := by
  induction l generalizing m with
  | nil =>
    obtain rfl : m = m' := Option.some.inj h
    simp
  | cons w l ih =>
    obtain ⟨row, col, value⟩ := w
    rw [writeAll_cons] at h
    by_cases hb : InBounds m (row, col, value)
    swap
    · rw [write_of_not_inBounds hb] at h
      exact nomatch h
    rw [write_of_inBounds hb, Option.bind_some] at h
    obtain ⟨hsize, hdata⟩ := ih (fun a ha b hb => hl a (List.mem_cons_of_mem _ ha) b (List.mem_cons_of_mem _ hb)) h
    refine ⟨hsize, fun r c => ?_⟩
    rw [hdata]
    dsimp only
    by_cases hrc : r = row ∧ c = col
    · obtain ⟨rfl, rfl⟩ := hrc
      rw [if_pos ⟨rfl, rfl⟩]
      have hsame : ∀ v, (r, c, v) ∈ l → v = value := fun v hv =>
        hl _ (List.mem_cons_of_mem _ hv) _ List.mem_cons_self rfl rfl
      constructor
      · rintro (hmem | ⟨-, rfl⟩)
        · exact .inl (List.mem_cons_of_mem _ hmem)
        · exact .inl List.mem_cons_self
      · rintro (hmem | ⟨hno, -⟩)
        · rcases List.mem_cons.1 hmem with he | hmem
          · obtain rfl : true = value := congrArg (fun w => w.2.2) he
            by_cases hv : (r, c, true) ∈ l
            · exact .inl hv
            · refine .inr ⟨fun v hv' => ?_, rfl⟩
              rw [hsame v hv'] at hv'
              exact hv hv'
          · exact .inl hmem
        · exact absurd List.mem_cons_self (hno value)
    · rw [if_neg hrc]
      have hne : ∀ v, (r, c, v) ∈ (row, col, value) :: l ↔ (r, c, v) ∈ l := by
        intro v
        rw [List.mem_cons, or_iff_right]
        intro he
        exact hrc ⟨congrArg Prod.fst he, congrArg (fun w => w.2.1) he⟩
      simp only [hne]

end Writing

/-! ### Loops -/

theorem mem_upTo {n x : UInt32} : x ∈ upTo n ↔ x < n := by
  unfold upTo
  rw [List.mem_map, UInt32.lt_iff_toNat_lt]
  constructor
  · rintro ⟨k, hk, rfl⟩
    rw [List.mem_range] at hk
    rw [UInt32.toNat_ofNat']
    exact (Nat.mod_le _ _).trans_lt hk
  · intro h
    exact ⟨x.toNat, List.mem_range.2 h, UInt32.ofNat_toNat⟩

/-- The rounds of a loop downwards, for a number that is one as an `int32_t`. -/
theorem mem_downFrom {n x k : UInt32} (hn : n.toNat < 2 ^ 31) :
    (x, k) ∈ downFrom n ↔ k < n ∧ x = n - 1 - k := by
  unfold downFrom
  rw [if_pos hn, List.mem_map, UInt32.lt_iff_toNat_lt]
  constructor
  · rintro ⟨j, hj, he⟩
    rw [List.mem_range] at hj
    obtain ⟨rfl, rfl⟩ := Prod.mk.inj he
    refine ⟨?_, rfl⟩
    rw [UInt32.toNat_ofNat']
    exact (Nat.mod_le _ _).trans_lt hj
  · rintro ⟨hk, rfl⟩
    exact ⟨k.toNat, List.mem_range.2 hk, by rw [UInt32.ofNat_toNat]⟩

theorem downFrom_of_le {n : UInt32} (hn : 2 ^ 31 ≤ n.toNat) : downFrom n = [] := if_neg hn.not_gt

/-! ### Offsets -/

/-- The cells that are set, relative to the center: x first. -/
def offsets (m : MatrixArea) : Set (ℤ × ℤ) :=
  {d | ∃ y x, (y < m.rows ∧ x < m.cols) ∧ m.data y x = true ∧
    d = ((x.toNat : ℤ) - m.centerX.toNat, (y.toNat : ℤ) - m.centerY.toNat)}

/-- A turn by a right angle, from north to east. -/
def turn (d : ℤ × ℤ) : ℤ × ℤ := (-d.2, d.1)

def mirrorX (d : ℤ × ℤ) : ℤ × ℤ := (-d.1, d.2)

def mirrorY (d : ℤ × ℤ) : ℤ × ℤ := (d.1, -d.2)

/-- The areas of the sides are made, every write in bounds, and each is the one of the north,
turned. -/
def Sides (list : List UInt32) (rows : UInt32) : Prop :=
  ∀ a : Areas, ∃ a' north east south west, setupArea a list rows = some a' ∧
    (a'.areas .north = some north ∧ a'.areas .east = some east ∧ a'.areas .south = some south ∧
      a'.areas .west = some west) ∧
    offsets east = turn '' offsets north ∧ offsets south = turn^[2] '' offsets north ∧
    offsets west = turn^[3] '' offsets north

/-- The areas of the corners are made, every write in bounds, and each is the one of the north
west, mirrored. -/
def Corners (list : List UInt32) (rows : UInt32) : Prop :=
  ∀ a : Areas, ∃ a' northWest northEast southWest southEast, setupExtArea a list rows = some a' ∧
    (a'.areas .northWest = some northWest ∧ a'.areas .northEast = some northEast ∧
      a'.areas .southWest = some southWest ∧ a'.areas .southEast = some southEast) ∧
    offsets northEast = mirrorX '' offsets northWest ∧ offsets southWest = mirrorY '' offsets northWest ∧
    offsets southEast = mirrorX '' (mirrorY '' offsets northWest)

def Congruent (list : List UInt32) (rows : UInt32) : Prop := Sides list rows ∧ Corners list rows

section Copy

variable {input output : MatrixArea} {op : MatrixOperation} {f : UInt32 → UInt32 → UInt32 × UInt32}

/-- The copy writes each cell of `input` at its place. -/
def Places (input output : MatrixArea) (op : MatrixOperation) (f : UInt32 → UInt32 → UInt32 × UInt32) : Prop :=
  ∀ r c v, (r, c, v) ∈ writes input output op ↔
    ∃ y x, (y < input.rows ∧ x < input.cols) ∧ f y x = (r, c) ∧ v = input.data y x

theorem Places.isSome (hp : Places input output op f) :
    (copyArea input output op).isSome ↔
      ∀ y x, y < input.rows ∧ x < input.cols → (f y x).1 < output.rows ∧ (f y x).2 < output.cols := by
  unfold copyArea
  rw [Option.isSome_map, writeAll_isSome]
  constructor
  · intro h y x hyx
    exact h (_, _, _) ((hp _ _ _).2 ⟨y, x, hyx, rfl, rfl⟩)
  · rintro h ⟨r, c, v⟩ hw
    obtain ⟨y, x, hyx, hf, -⟩ := (hp r c v).1 hw
    have := h y x hyx
    rw [hf] at this
    exact this

/-- A copy into an empty matrix, with distinct places for the cells. -/
theorem Places.spec (hp : Places input output op f)
    (hf : ∀ y x y' x', f y x = f y' x' → y = y' ∧ x = x')
    (hin : ∀ y x, y < input.rows ∧ x < input.cols → (f y x).1 < output.rows ∧ (f y x).2 < output.cols)
    (hempty : output.data = fun _ _ => false) :
    ∃ m, copyArea input output op = some m ∧ (m.rows = output.rows ∧ m.cols = output.cols) ∧
      (m.centerY, m.centerX) = newCenter input output op ∧
      ∀ r c, m.data r c = true ↔ ∃ y x, (y < input.rows ∧ x < input.cols) ∧ f y x = (r, c) ∧
        input.data y x = true := by
  have hsome := hp.isSome.2 hin
  obtain ⟨m', hm'⟩ : ∃ m', output.writeAll (writes input output op) = some m' := by
    unfold copyArea at hsome
    rw [Option.isSome_map] at hsome
    exact Option.isSome_iff_exists.1 hsome
  have hcons : Consistent (writes input output op) := by
    rintro ⟨r, c, v⟩ hw ⟨r', c', v'⟩ hw' hr hc
    obtain ⟨y, x, -, hyx, rfl⟩ := (hp _ _ _).1 hw
    obtain ⟨y', x', -, hyx', rfl⟩ := (hp _ _ _).1 hw'
    obtain rfl : r = r' := hr
    obtain rfl : c = c' := hc
    obtain ⟨rfl, rfl⟩ := hf y x y' x' (hyx.trans hyx'.symm)
    rfl
  obtain ⟨hsize, hdata⟩ := writeAll_spec hcons hm'
  refine ⟨m'.setCenter (newCenter input output op).1 (newCenter input output op).2, ?_, hsize, rfl, ?_⟩
  · unfold copyArea
    rw [hm']
    rfl
  · intro r c
    show m'.data r c = true ↔ _
    rw [hdata, hempty, or_iff_left (by rintro ⟨-, h⟩; exact nomatch h), hp]
    constructor
    · rintro ⟨y, x, hyx, hfyx, hv⟩
      exact ⟨y, x, hyx, hfyx, hv.symm⟩
    · rintro ⟨y, x, hyx, hfyx, hv⟩
      exact ⟨y, x, hyx, hfyx, hv.symm⟩

/-- The offsets of a copy, when its places relate to the centers as `g` says. -/
theorem offsets_copy {m : MatrixArea} {g : ℤ × ℤ → ℤ × ℤ}
    (hin : ∀ y x, y < input.rows ∧ x < input.cols → (f y x).1 < m.rows ∧ (f y x).2 < m.cols)
    (hdata : ∀ r c, m.data r c = true ↔
      ∃ y x, (y < input.rows ∧ x < input.cols) ∧ f y x = (r, c) ∧ input.data y x = true)
    (hg : ∀ y x, y < input.rows ∧ x < input.cols →
      (((f y x).2.toNat : ℤ) - m.centerX.toNat, ((f y x).1.toNat : ℤ) - m.centerY.toNat) =
        g ((x.toNat : ℤ) - input.centerX.toNat, (y.toNat : ℤ) - input.centerY.toNat)) :
    offsets m = g '' offsets input := by
  ext d
  constructor
  · rintro ⟨r, c, hrc, hd, rfl⟩
    obtain ⟨y, x, hyx, hf, hv⟩ := (hdata r c).1 hd
    refine ⟨_, ⟨y, x, hyx, hv, rfl⟩, ?_⟩
    rw [← hg y x hyx, hf]
  · rintro ⟨d, ⟨y, x, hyx, hv, rfl⟩, rfl⟩
    exact ⟨_, _, hin y x hyx, (hdata _ _).2 ⟨y, x, hyx, rfl, hv⟩, (hg y x hyx).symm⟩

end Copy

/-! ### Rotations -/

section Rotate

variable (input output : MatrixArea) (x y : UInt32)

/-- Half of a matrix, less one: the center of a rotation. -/
abbrev half (n : UInt32) : UInt32 := n / 2 - 1

theorem rotated_rotate90 :
    rotated input output .rotate90 x y =
      ((x - input.centerX) + half output.rows, (input.centerY - y) + half output.cols) := by
  simp only [rotated, MatrixOperation.cos, MatrixOperation.sin, mul_zero, mul_one, mul_neg, zero_add, add_zero,
    Int32.ofInt_neg, Int32.ofInt_toInt, Int32.toUInt32_add, Int32.toUInt32_neg, UInt32.toUInt32_toInt32,
    UInt32.neg_sub]

theorem rotated_rotate180 :
    rotated input output .rotate180 x y =
      ((input.centerY - y) + half output.rows, (input.centerX - x) + half output.cols) := by
  simp only [rotated, MatrixOperation.cos, MatrixOperation.sin, mul_zero, mul_one, mul_neg, neg_zero, zero_add,
    add_zero, Int32.ofInt_neg, Int32.ofInt_toInt, Int32.toUInt32_add, Int32.toUInt32_neg, UInt32.toUInt32_toInt32,
    UInt32.neg_sub]

theorem rotated_rotate270 :
    rotated input output .rotate270 x y =
      ((input.centerX - x) + half output.rows, (y - input.centerY) + half output.cols) := by
  simp only [rotated, MatrixOperation.cos, MatrixOperation.sin, mul_zero, mul_one, mul_neg, neg_neg, zero_add,
    add_zero, Int32.ofInt_neg, Int32.ofInt_toInt, Int32.toUInt32_add, Int32.toUInt32_neg, UInt32.toUInt32_toInt32,
    UInt32.neg_sub]

end Rotate

/-! ### Sizes -/

theorem toNat_sub_add {a b c : UInt32} (h1 : 0 ≤ (a.toNat : ℤ) - b.toNat + c.toNat)
    (h2 : (a.toNat : ℤ) - b.toNat + c.toNat < 2 ^ 32) :
    ((a - b + c).toNat : ℤ) = a.toNat - b.toNat + c.toNat := by
  have ha := a.toNat_lt
  have hb := b.toNat_lt
  rw [UInt32.toNat_add, UInt32.toNat_sub]
  omega

theorem toNat_maxOutput (m : MatrixArea) :
    (maxOutput m).toNat = max m.rows.toNat m.cols.toNat * 2 % 2 ^ 32 := by
  unfold maxOutput
  rw [UInt32.toNat_mul]
  congr 2
  split_ifs with h
  · rw [UInt32.lt_iff_toNat_lt] at h
    omega
  · rw [UInt32.lt_iff_toNat_lt] at h
    omega

/-- The longer side is a word that stays one when doubled. -/
def Fits (m : MatrixArea) : Prop := max m.rows.toNat m.cols.toNat < 2 ^ 31

/-- The center is a cell. -/
def Centered (m : MatrixArea) : Prop := m.centerY < m.rows ∧ m.centerX < m.cols

theorem Fits.maxOutput {m : MatrixArea} (h : Fits m) :
    (maxOutput m).toNat = max m.rows.toNat m.cols.toNat * 2 := by
  rw [toNat_maxOutput]
  unfold Fits at h
  omega

theorem Fits.half {m : MatrixArea} (h : Fits m) (hc : Centered m) :
    (half (AreaCombat.maxOutput m)).toNat = max m.rows.toNat m.cols.toNat - 1 := by
  have hm := h.maxOutput
  have hx := UInt32.lt_iff_toNat_lt.1 hc.2
  unfold Fits at h
  rw [AreaCombat.half, UInt32.toNat_sub, UInt32.toNat_div, hm]
  show (2 ^ 32 - 1 + _ / 2) % 2 ^ 32 = _
  omega

/-! ### Rotated copies -/

/-- The operations that rotate. -/
def MatrixOperation.Rotates (op : MatrixOperation) : Prop := op = .rotate90 ∨ op = .rotate180 ∨ op = .rotate270

/-- A rotation as it acts on offsets. -/
def MatrixOperation.turns : MatrixOperation → ℤ × ℤ → ℤ × ℤ
  | .rotate90 => turn
  | .rotate180 => turn^[2]
  | .rotate270 => turn^[3]
  | _ => id

section Rotation

variable {input : MatrixArea} {op : MatrixOperation}

theorem writes_rotate (output : MatrixArea) (hop : op.Rotates) :
    writes input output op = (upTo input.cols).flatMap fun x => (upTo input.rows).map fun y =>
      ((rotated input output op x y).1, (rotated input output op x y).2, input.data y x) := by
  rcases hop with rfl | rfl | rfl <;> rfl

theorem newCenter_rotate (output : MatrixArea) (hop : op.Rotates) :
    newCenter input output op = (half output.rows, half output.cols) := by
  rcases hop with rfl | rfl | rfl <;> rfl

theorem places_rotate (output : MatrixArea) (hop : op.Rotates) :
    Places input output op fun y x => rotated input output op x y := by
  intro r c v
  rw [writes_rotate output hop]
  simp only [List.mem_flatMap, List.mem_map, mem_upTo, Prod.mk.injEq]
  constructor
  · rintro ⟨x, hx, y, hy, rfl, rfl, rfl⟩
    exact ⟨y, x, ⟨hy, hx⟩, rfl, rfl⟩
  · rintro ⟨y, x, ⟨hy, hx⟩, hf, rfl⟩
    exact ⟨x, hx, y, hy, congrArg Prod.fst hf, congrArg Prod.snd hf, rfl⟩

theorem rotated_inj (output : MatrixArea) (hop : op.Rotates) {x y x' y' : UInt32}
    (h : rotated input output op x y = rotated input output op x' y') : y = y' ∧ x = x' := by
  rcases hop with rfl | rfl | rfl
  · rw [rotated_rotate90, rotated_rotate90, Prod.mk.injEq, UInt32.add_left_inj, UInt32.add_left_inj,
      UInt32.sub_left_inj, UInt32.sub_right_inj] at h
    exact ⟨h.2, h.1⟩
  · rw [rotated_rotate180, rotated_rotate180, Prod.mk.injEq, UInt32.add_left_inj, UInt32.add_left_inj,
      UInt32.sub_right_inj, UInt32.sub_right_inj] at h
    exact h
  · rw [rotated_rotate270, rotated_rotate270, Prod.mk.injEq, UInt32.add_left_inj, UInt32.add_left_inj,
      UInt32.sub_left_inj, UInt32.sub_right_inj] at h
    exact ⟨h.2, h.1⟩

/-- Where a rotation puts a cell, relative to the middle of the new matrix. -/
theorem rotated_spec (hfit : Fits input) (hc : Centered input) (hop : op.Rotates) {x y : UInt32}
    (hyx : y < input.rows ∧ x < input.cols) :
    ((rotated input (square input) op x y).1 < maxOutput input ∧
      (rotated input (square input) op x y).2 < maxOutput input) ∧
    (((rotated input (square input) op x y).2.toNat : ℤ) - (half (maxOutput input)).toNat,
      ((rotated input (square input) op x y).1.toNat : ℤ) - (half (maxOutput input)).toNat) =
      op.turns ((x.toNat : ℤ) - input.centerX.toNat, (y.toNat : ℤ) - input.centerY.toNat) := by
  have hmax := hfit.maxOutput
  have hhalf := hfit.half hc
  have hy := UInt32.lt_iff_toNat_lt.1 hyx.1
  have hx := UInt32.lt_iff_toNat_lt.1 hyx.2
  have hcy := UInt32.lt_iff_toNat_lt.1 hc.1
  have hcx := UInt32.lt_iff_toNat_lt.1 hc.2
  unfold Fits at hfit
  have hX := @toNat_sub_add x input.centerX (half (maxOutput input)) (by omega) (by omega)
  have hX' := @toNat_sub_add input.centerX x (half (maxOutput input)) (by omega) (by omega)
  have hY := @toNat_sub_add y input.centerY (half (maxOutput input)) (by omega) (by omega)
  have hY' := @toNat_sub_add input.centerY y (half (maxOutput input)) (by omega) (by omega)
  simp only [UInt32.lt_iff_toNat_lt]
  rcases hop with rfl | rfl | rfl
  · rw [rotated_rotate90]
    refine ⟨⟨?_, ?_⟩, Prod.ext ?_ ?_⟩ <;> simp only [square, MatrixOperation.turns, turn] <;> omega
  · rw [rotated_rotate180]
    refine ⟨⟨?_, ?_⟩, Prod.ext ?_ ?_⟩ <;>
      simp only [square, MatrixOperation.turns, turn, Function.iterate_succ, Function.iterate_zero,
        Function.comp_apply, id] <;> omega
  · rw [rotated_rotate270]
    refine ⟨⟨?_, ?_⟩, Prod.ext ?_ ?_⟩ <;>
      simp only [square, MatrixOperation.turns, turn, Function.iterate_succ, Function.iterate_zero,
        Function.comp_apply, id] <;> omega

/-- A rotated copy, of a matrix of any shape. -/
theorem copyArea_rotate (hfit : Fits input) (hc : Centered input) (hop : op.Rotates) :
    ∃ m, copyArea input (square input) op = some m ∧ offsets m = op.turns '' offsets input := by
  obtain ⟨m, hm, ⟨hrows, hcols⟩, hcenter, hdata⟩ := (places_rotate (square input) hop).spec
    (fun y x y' x' h => rotated_inj _ hop h) (fun y x hyx => (rotated_spec hfit hc hop hyx).1) rfl
  refine ⟨m, hm, offsets_copy (fun y x hyx => ?_) hdata fun y x hyx => ?_⟩
  · rw [hrows, hcols]
    exact (rotated_spec hfit hc hop hyx).1
  · rw [newCenter_rotate _ hop, Prod.mk.injEq] at hcenter
    rw [hcenter.1, hcenter.2]
    exact (rotated_spec hfit hc hop hyx).2

/-- A side with no double has a cell that a half turn puts outside. -/
theorem exists_outside {n c m : UInt32} (hc : c.toNat < n.toNat) (hn : 2 ^ 31 ≤ n.toNat)
    (hm : m.toNat = n.toNat * 2 % 2 ^ 32) :
    ∃ k : UInt32, k.toNat < n.toNat ∧ ¬ (c - k + half m).toNat < m.toNat := by
  have hlt := n.toNat_lt
  have hhalf : (half m).toNat = (2 ^ 32 - 1 + m.toNat / 2) % 2 ^ 32 := by
    rw [half, UInt32.toNat_sub, UInt32.toNat_div]
    rfl
  have hsum : ∀ k : UInt32, (c - k + half m).toNat =
      ((2 ^ 32 - k.toNat + c.toNat) % 2 ^ 32 + (half m).toNat) % 2 ^ 32 := by
    intro k
    rw [UInt32.toNat_add, UInt32.toNat_sub]
  -- as far below the center as the new matrix has cells above it, or one cell too far above
  rcases Nat.lt_or_ge (c.toNat + m.toNat / 2) n.toNat with h | h
  · have hk : (UInt32.ofNat (c.toNat + m.toNat / 2)).toNat = c.toNat + m.toNat / 2 :=
      UInt32.toNat_ofNat_of_lt' (by show _ < 2 ^ 32; omega)
    refine ⟨.ofNat (c.toNat + m.toNat / 2), by omega, ?_⟩
    rw [hsum, hk, hhalf]
    omega
  · have hk : (UInt32.ofNat (c.toNat - m.toNat / 2 - 1)).toNat = c.toNat - m.toNat / 2 - 1 :=
      UInt32.toNat_ofNat_of_lt' (by show _ < 2 ^ 32; omega)
    refine ⟨.ofNat (c.toNat - m.toNat / 2 - 1), by omega, ?_⟩
    rw [hsum, hk, hhalf]
    omega

/-- When the longer side has no double, a half turn writes outside. -/
theorem copyArea_rotate180_of_not_fits (hc : Centered input) (hfit : ¬ Fits input) :
    copyArea input (square input) .rotate180 = none := by
  rw [← Option.not_isSome_iff_eq_none, (places_rotate (square input) (.inr (.inl rfl))).isSome]
  intro h
  have hM := toNat_maxOutput input
  have hcy := UInt32.lt_iff_toNat_lt.1 hc.1
  have hcx := UInt32.lt_iff_toNat_lt.1 hc.2
  unfold Fits at hfit
  simp only [rotated_rotate180, UInt32.lt_iff_toNat_lt] at h
  rcases Nat.le_total input.cols.toNat input.rows.toNat with hle | hle
  · obtain ⟨k, hk, hout⟩ := exists_outside (m := maxOutput input) hcy (by omega) (by rw [hM]; congr 2; omega)
    exact hout (h k input.centerX ⟨hk, hcx⟩).1
  · obtain ⟨k, hk, hout⟩ := exists_outside (m := maxOutput input) hcx (by omega) (by rw [hM]; congr 2; omega)
    exact hout (h input.centerY k ⟨hcy, hk⟩).2

end Rotation

/-! ### Mirrored copies -/

theorem toNat_pred_sub {n k : UInt32} (h : k < n) : (n - 1 - k).toNat = n.toNat - 1 - k.toNat := by
  have hn := n.toNat_lt
  have hk := UInt32.lt_iff_toNat_lt.1 h
  rw [UInt32.toNat_sub, UInt32.toNat_sub, UInt32.toNat_one]
  omega

theorem pred_sub_lt {n k : UInt32} (h : k < n) : n - 1 - k < n := by
  have hk := UInt32.lt_iff_toNat_lt.1 h
  rw [UInt32.lt_iff_toNat_lt, toNat_pred_sub h]
  omega

theorem pred_sub_pred_sub {n k : UInt32} (h : k < n) : n - 1 - (n - 1 - k) = k := by
  have hk := UInt32.lt_iff_toNat_lt.1 h
  rw [← UInt32.toNat_inj, toNat_pred_sub (pred_sub_lt h), toNat_pred_sub h]
  omega

/-- A loop downwards puts a cell as far from the end as it was from the start. -/
theorem mem_downFrom_iff {n x k : UInt32} (hn : n.toNat < 2 ^ 31) :
    (x, k) ∈ downFrom n ↔ x < n ∧ n - 1 - x = k := by
  rw [mem_downFrom hn]
  constructor
  · rintro ⟨hk, rfl⟩
    exact ⟨pred_sub_lt hk, pred_sub_pred_sub hk⟩
  · rintro ⟨hx, rfl⟩
    exact ⟨pred_sub_lt hx, (pred_sub_pred_sub hx).symm⟩

/-- What the number of rows in place of the one of columns adds to a mirrored area. -/
def mirrorShift (m : MatrixArea) : ℤ := (m.cols.toNat : ℤ) - 1 - m.centerX.toNat - (m.rows - 1 - m.centerX).toNat

/-- What the number of columns in place of the one of rows adds to a flipped area. -/
def flipShift (m : MatrixArea) : ℤ := (m.rows.toNat : ℤ) - 1 - m.centerY.toNat - (m.cols - 1 - m.centerY).toNat

section Mirror

variable {input : MatrixArea} (output : MatrixArea)

theorem places_mirror (h : input.cols.toNat < 2 ^ 31) :
    Places input output .mirror fun y x => (y, input.cols - 1 - x) := by
  intro r c v
  simp only [writes, List.mem_flatMap, List.mem_map, mem_upTo, Prod.exists, mem_downFrom_iff h, Prod.mk.injEq]
  constructor
  · rintro ⟨y, hy, x, k, ⟨hx, rfl⟩, rfl, rfl, rfl⟩
    exact ⟨y, x, ⟨hy, hx⟩, ⟨rfl, rfl⟩, rfl⟩
  · rintro ⟨y, x, ⟨hy, hx⟩, ⟨rfl, rfl⟩, rfl⟩
    exact ⟨y, hy, x, _, ⟨hx, rfl⟩, rfl, rfl, rfl⟩

theorem places_flip (h : input.rows.toNat < 2 ^ 31) :
    Places input output .flip fun y x => (input.rows - 1 - y, x) := by
  intro r c v
  simp only [writes, List.mem_flatMap, List.mem_map, mem_upTo, Prod.exists, mem_downFrom_iff h, Prod.mk.injEq]
  constructor
  · rintro ⟨x, hx, y, k, ⟨hy, rfl⟩, rfl, rfl, rfl⟩
    exact ⟨y, x, ⟨hy, hx⟩, ⟨rfl, rfl⟩, rfl⟩
  · rintro ⟨y, x, ⟨hy, hx⟩, ⟨rfl, rfl⟩, rfl⟩
    exact ⟨x, hx, y, _, ⟨hy, rfl⟩, rfl, rfl, rfl⟩

variable {output}

/-- A mirrored copy: the cells are mirrored, but the center goes by the number of rows. -/
theorem copyArea_mirror (hrows : input.rows ≤ output.rows) (hcols : input.cols ≤ output.cols)
    (hlt : input.cols.toNat < 2 ^ 31) (hempty : output.data = fun _ _ => false) :
    ∃ m, copyArea input output .mirror = some m ∧
      offsets m = (fun d => (-d.1 + mirrorShift input, d.2)) '' offsets input := by
  have hin : ∀ y x, y < input.rows ∧ x < input.cols → y < output.rows ∧ input.cols - 1 - x < output.cols :=
    fun y x h => ⟨UInt32.lt_of_lt_of_le h.1 hrows, UInt32.lt_of_lt_of_le (pred_sub_lt h.2) hcols⟩
  obtain ⟨m, hm, ⟨hr, hc⟩, hcenter, hdata⟩ := (places_mirror output hlt).spec
    (fun y x y' x' h => ⟨congrArg Prod.fst h, (UInt32.sub_right_inj _).1 (congrArg Prod.snd h)⟩) hin hempty
  refine ⟨m, hm, offsets_copy (fun y x hyx => ?_) hdata fun y x hyx => Prod.ext ?_ ?_⟩
  · rw [hr, hc]
    exact hin y x hyx
  · have hx := UInt32.lt_iff_toNat_lt.1 hyx.2
    obtain ⟨-, hcx⟩ := Prod.mk.inj hcenter
    show ((input.cols - 1 - x).toNat : ℤ) - m.centerX.toNat = _
    rw [hcx, toNat_pred_sub hyx.2]
    show _ = -((x.toNat : ℤ) - input.centerX.toNat) + mirrorShift input
    unfold mirrorShift
    omega
  · obtain ⟨hcy, -⟩ := Prod.mk.inj hcenter
    show (y.toNat : ℤ) - m.centerY.toNat = _
    rw [hcy]

/-- A flipped copy: the cells are flipped, but the center goes by the number of columns. -/
theorem copyArea_flip (hrows : input.rows ≤ output.rows) (hcols : input.cols ≤ output.cols)
    (hlt : input.rows.toNat < 2 ^ 31) (hempty : output.data = fun _ _ => false) :
    ∃ m, copyArea input output .flip = some m ∧ (m.rows = output.rows ∧ m.cols = output.cols) ∧
      m.centerX = input.centerX ∧
      offsets m = (fun d => (d.1, -d.2 + flipShift input)) '' offsets input := by
  have hin : ∀ y x, y < input.rows ∧ x < input.cols → input.rows - 1 - y < output.rows ∧ x < output.cols :=
    fun y x h => ⟨UInt32.lt_of_lt_of_le (pred_sub_lt h.1) hrows, UInt32.lt_of_lt_of_le h.2 hcols⟩
  obtain ⟨m, hm, ⟨hr, hc⟩, hcenter, hdata⟩ := (places_flip output hlt).spec
    (fun y x y' x' h => ⟨(UInt32.sub_right_inj _).1 (congrArg Prod.fst h), congrArg Prod.snd h⟩) hin hempty
  obtain ⟨hcy, hcx⟩ := Prod.mk.inj hcenter
  refine ⟨m, hm, ⟨hr, hc⟩, hcx, offsets_copy (fun y x hyx => ?_) hdata fun y x hyx => Prod.ext ?_ ?_⟩
  · rw [hr, hc]
    exact hin y x hyx
  · show (x.toNat : ℤ) - m.centerX.toNat = _
    rw [hcx]
  · have hy := UInt32.lt_iff_toNat_lt.1 hyx.1
    show ((input.rows - 1 - y).toNat : ℤ) - m.centerY.toNat = _
    rw [hcy, toNat_pred_sub hyx.1]
    show _ = -((y.toNat : ℤ) - input.centerY.toNat) + flipShift input
    unfold flipShift
    omega

/-- A loop downwards that starts below zero copies nothing. -/
theorem copyArea_mirror_of_le (hlt : 2 ^ 31 ≤ input.cols.toNat) (hempty : output.data = fun _ _ => false) :
    ∃ m, copyArea input output .mirror = some m ∧ offsets m = ∅ := by
  have hw : writes input output .mirror = [] := by
    rw [writes, downFrom_of_le hlt]
    simp
  unfold copyArea
  rw [hw]
  refine ⟨_, rfl, Set.eq_empty_iff_forall_notMem.2 ?_⟩
  rintro d ⟨y, x, -, hd, -⟩
  have : output.data y x = true := hd
  rw [hempty] at this
  exact nomatch this

end Mirror

/-! ### From a list -/

/-- A value that sets its cell. -/
def Marks (value : UInt32) : Prop := value = 1 ∨ value = 3

/-- A value that makes its cell the center. -/
def IsCenter (value : UInt32) : Prop := value = 2 ∨ value = 3

instance Marks.decidable (value : UInt32) : Decidable (Marks value) := inferInstanceAs (Decidable (_ ∨ _))

instance IsCenter.decidable (value : UInt32) : Decidable (IsCenter value) := inferInstanceAs (Decidable (_ ∨ _))

section Create

variable {area : MatrixArea} {list : List UInt32} {value x y : UInt32}

/-- A cell's place in the list. -/
def index (m : MatrixArea) (y x : UInt32) : ℕ := y.toNat * m.cols.toNat + x.toNat

/-- A value takes its cell. -/
def put (area : MatrixArea) (value y x : UInt32) : MatrixArea where
  rows := area.rows
  cols := area.cols
  centerY := if IsCenter value then y else area.centerY
  centerX := if IsCenter value then x else area.centerX
  data r c := if Marks value ∧ r = y ∧ c = x then true else area.data r c

theorem fillArea_cons (h : y < area.rows ∧ x < area.cols) :
    fillArea area (value :: list) y x =
      if area.cols = x + 1 then fillArea (put area value y x) list (y + 1) 0
      else fillArea (put area value y x) list y (x + 1) := by
  have hcenter : ∀ m : MatrixArea, m = { area with data := (put area value y x).data } →
      (if value = 2 ∨ value = 3 then m.setCenter y x else m) = put area value y x := by
    rintro m rfl
    by_cases hv : IsCenter value
    · rw [if_pos (show value = 2 ∨ value = 3 from hv)]
      simp only [put, hv, if_true, MatrixArea.setCenter]
    · rw [if_neg (show ¬ (value = 2 ∨ value = 3) from hv)]
      simp only [put, hv, if_false]
  rw [fillArea]
  by_cases hv : Marks value
  · rw [if_pos (show value = 1 ∨ value = 3 from hv), write_of_inBounds h, Option.bind_eq_bind, Option.bind_some]
    dsimp only
    rw [hcenter]
    · rfl
    · simp only [put, hv, true_and]
  · rw [if_neg (show ¬ (value = 1 ∨ value = 3) from hv), Option.bind_eq_bind, Option.bind_some]
    dsimp only
    rw [hcenter]
    · rfl
    · simp only [put, hv, false_and, if_false]

theorem index_inj {y' x' : UInt32} (hx : x < area.cols) (hx' : x' < area.cols)
    (h : index area y x = index area y' x') : y = y' ∧ x = x' := by
  have hx := UInt32.lt_iff_toNat_lt.1 hx
  have hx' := UInt32.lt_iff_toNat_lt.1 hx'
  have hpos : 0 < area.cols.toNat := by omega
  unfold index at h
  have hdiv := congrArg (· / area.cols.toNat) h
  have hmod := congrArg (· % area.cols.toNat) h
  simp only [Nat.mul_add_mod', Nat.mod_eq_of_lt hx, Nat.mod_eq_of_lt hx'] at hmod
  simp only [Nat.mul_comm _ area.cols.toNat, Nat.mul_add_div hpos, Nat.div_eq_of_lt hx, Nat.div_eq_of_lt hx',
    add_zero] at hdiv
  exact ⟨UInt32.toNat_inj.1 hdiv, UInt32.toNat_inj.1 hmod⟩

/-- The next cell: in the same row, or the first of the next one. -/
theorem index_next (hx : x < area.cols) (hy : y < area.rows) :
    (area.cols = x + 1 → index area (y + 1) 0 = index area y x + 1) ∧
      (area.cols ≠ x + 1 → index area y (x + 1) = index area y x + 1 ∧ x + 1 < area.cols) := by
  have hx := UInt32.lt_iff_toNat_lt.1 hx
  have hy := UInt32.lt_iff_toNat_lt.1 hy
  have hc := area.cols.toNat_lt
  have hr := area.rows.toNat_lt
  have hx1 : (x + 1).toNat = x.toNat + 1 := by
    rw [UInt32.toNat_add, UInt32.toNat_one]
    omega
  have hy1 : (y + 1).toNat = y.toNat + 1 := by
    rw [UInt32.toNat_add, UInt32.toNat_one]
    omega
  unfold index
  constructor
  · intro h
    have := congrArg UInt32.toNat h
    rw [hx1] at this
    rw [hy1, UInt32.toNat_zero, Nat.succ_mul]
    omega
  · intro h
    rw [Ne, ← UInt32.toNat_inj, hx1] at h
    rw [UInt32.lt_iff_toNat_lt, hx1]
    omega

theorem exists_getElem?_cons {α : Type*} {P : ℕ → α → Prop} {a : α} {l : List α} :
    (∃ k v, (a :: l)[k]? = some v ∧ P k v) ↔ P 0 a ∨ ∃ k v, l[k]? = some v ∧ P (k + 1) v := by
  constructor
  · rintro ⟨k, v, hk, hP⟩
    cases k with
    | zero =>
      obtain rfl : a = v := Option.some.inj hk
      exact .inl hP
    | succ k => exact .inr ⟨k, v, hk, hP⟩
  · rintro (hP | ⟨k, v, hk, hP⟩)
    · exact ⟨0, a, rfl, hP⟩
    · exact ⟨k + 1, v, hk, hP⟩

/-- The values take the cells in turn. -/
theorem fillArea_spec (hx : x < area.cols)
    (hlen : index area y x + list.length = area.rows.toNat * area.cols.toNat) :
    ∃ m, fillArea area list y x = some m ∧ (m.rows = area.rows ∧ m.cols = area.cols) ∧
      (∀ r c, r < area.rows ∧ c < area.cols → (m.data r c = true ↔ area.data r c = true ∨
        ∃ k v, list[k]? = some v ∧ Marks v ∧ index area r c = index area y x + k)) ∧
      ((∃ k v, list[k]? = some v ∧ IsCenter v ∧ Centered m ∧
          index area m.centerY m.centerX = index area y x + k) ∨
        (∀ v ∈ list, ¬ IsCenter v) ∧ m.centerY = area.centerY ∧ m.centerX = area.centerX) := by
  induction list generalizing area y x with
  | nil => exact ⟨area, rfl, ⟨rfl, rfl⟩, by simp, .inr ⟨by simp, rfl, rfl⟩⟩
  | cons value list ih =>
    have hy : y < area.rows := by
      rw [List.length_cons] at hlen
      rw [UInt32.lt_iff_toNat_lt]
      by_contra hge
      have := Nat.mul_le_mul_right area.cols.toNat (Nat.le_of_not_lt hge)
      unfold index at hlen
      omega
    rw [List.length_cons] at hlen
    obtain ⟨hrow, hcol⟩ := index_next hx hy
    -- the rest of the list goes on at the next cell
    obtain ⟨y', x', hnext, hx', hindex⟩ : ∃ y' x', fillArea area (value :: list) y x =
        fillArea (put area value y x) list y' x' ∧ x' < area.cols ∧ index area y' x' = index area y x + 1 := by
      rw [fillArea_cons ⟨hy, hx⟩]
      by_cases h : area.cols = x + 1
      · rw [if_pos h]
        exact ⟨_, _, rfl, UInt32.lt_of_le_of_lt (UInt32.zero_le) hx, hrow h⟩
      · rw [if_neg h]
        exact ⟨_, _, rfl, (hcol h).2, (hcol h).1⟩
    have hlen' : index (put area value y x) y' x' + list.length = area.rows.toNat * area.cols.toNat := by
      show index area y' x' + _ = _
      omega
    obtain ⟨m, hm, hsize, hdata, hcenter⟩ := @ih (put area value y x) _ _ hx' hlen'
    refine ⟨m, hnext.trans hm, hsize, fun r c hrc => ?_, ?_⟩
    · -- the cell is this one, or one of those after it
      have hcell : (put area value y x).data r c = true ↔ (Marks value ∧ r = y ∧ c = x) ∨ area.data r c = true := by
        show (if Marks value ∧ r = y ∧ c = x then true else area.data r c) = true ↔ _
        by_cases h : Marks value ∧ r = y ∧ c = x
        · simp [h]
        · simp [h]
      have hhead : r = y ∧ c = x ↔ index area r c = index area y x := by
        constructor
        · rintro ⟨rfl, rfl⟩
          rfl
        · intro h
          exact index_inj hrc.2 hx h
      have hshift : ∀ k, index (put area value y x) y' x' + k = index area y x + (k + 1) := by
        intro k
        show index area y' x' + k = _
        omega
      rw [hdata r c hrc, hcell, hhead, exists_getElem?_cons, or_right_comm, or_comm]
      simp only [hshift, add_zero]
      rfl
    · rw [exists_getElem?_cons]
      rcases hcenter with ⟨k, v, hk, hv, hc, hi⟩ | ⟨hno, hcy, hcx⟩
      · refine .inl (.inr ⟨k, v, hk, hv, hc, ?_⟩)
        calc index area m.centerY m.centerX = index area y' x' + k := hi
          _ = index area y x + (k + 1) := by omega
      · by_cases hv : IsCenter value
        · simp only [put, hv, if_true] at hcy hcx
          refine .inl (.inl ⟨hv, ?_, ?_⟩)
          · rw [Centered, hcy, hcx, hsize.1, hsize.2]
            exact ⟨hy, hx⟩
          · rw [hcy, hcx, add_zero]
        · simp only [put, hv, if_false] at hcy hcx
          exact .inr ⟨List.forall_mem_cons.2 ⟨hv, hno⟩, hcy, hcx⟩

end Create

section Setup

variable {list : List UInt32} {rows cols : UInt32} {m : MatrixArea}

/-- The matrix of a list: a cell is set by its value, and the center is a cell that has one. -/
theorem createArea_spec (hrows : 0 < rows) (hlen : list.length = rows.toNat * cols.toNat)
    (hcenter : ∃ v ∈ list, IsCenter v) :
    ∃ m, createArea list rows = some m ∧ (m.rows = rows ∧ m.cols = cols) ∧ Centered m ∧
      (∃ v, list[index m m.centerY m.centerX]? = some v ∧ IsCenter v) ∧
      ∀ r c, r < m.rows ∧ c < m.cols →
        (m.data r c = true ↔ ∃ v, list[index m r c]? = some v ∧ Marks v) := by
  have hpos := UInt32.lt_iff_toNat_lt.1 hrows
  obtain ⟨v₀, hv₀, hc₀⟩ := hcenter
  have hcols : 0 < cols := by
    rw [UInt32.lt_iff_toNat_lt, UInt32.toNat_zero]
    by_contra h
    rw [Nat.eq_zero_of_not_pos h, mul_zero] at hlen
    rw [List.eq_nil_of_length_eq_zero hlen] at hv₀
    exact List.not_mem_nil hv₀
  have hdiv : UInt32.ofNat (list.length / rows.toNat) = cols := by
    rw [hlen, Nat.mul_div_cancel_left _ hpos, UInt32.ofNat_toNat]
  have hcreate : createArea list rows = fillArea { rows, cols } list 0 0 := by
    unfold createArea
    rw [if_neg (UInt32.ne_of_lt hrows).symm, hdiv]
  have hzero : index { rows, cols } 0 0 = 0 := by simp [index]
  obtain ⟨m, hm, hsize, hdata, hcm⟩ := @fillArea_spec { rows, cols } list 0 0 hcols (by rw [hzero, zero_add, hlen])
  have hindex : ∀ r c, index m r c = index { rows, cols } r c := fun r c => by rw [index, index, hsize.2]
  have hnone : ¬ ∀ v ∈ list, ¬ IsCenter v := fun h => h v₀ hv₀ hc₀
  obtain ⟨k, v, hk, hv, hcentered, hi⟩ := hcm.resolve_right fun h => hnone h.1
  refine ⟨m, hcreate.trans hm, hsize, hcentered, ⟨v, ?_, hv⟩, fun r c hrc => ?_⟩
  · rw [hindex, hi, hzero, zero_add, hk]
  · rw [hsize.1, hsize.2] at hrc
    rw [hdata r c hrc, hindex, hzero]
    constructor
    · rintro (h | ⟨k, v, hk, hv, hi⟩)
      · exact nomatch h
      · rw [hi, zero_add]
        exact ⟨v, hk, hv⟩
    · rintro ⟨v, hk, hv⟩
      exact .inr ⟨_, v, hk, hv, (zero_add _).symm⟩

/-- A matrix has a cell if and only if a value marks one. -/
theorem offsets_nonempty (hlen : list.length = m.rows.toNat * m.cols.toNat)
    (hdata : ∀ r c, r < m.rows ∧ c < m.cols → (m.data r c = true ↔ ∃ v, list[index m r c]? = some v ∧ Marks v)) :
    (offsets m).Nonempty ↔ ∃ v ∈ list, Marks v := by
  constructor
  · rintro ⟨-, r, c, hrc, hd, -⟩
    obtain ⟨v, hv, hm⟩ := (hdata r c hrc).1 hd
    exact ⟨v, List.mem_of_getElem? hv, hm⟩
  · rintro ⟨v, hv, hm⟩
    obtain ⟨k, hk, hkv⟩ := List.getElem_of_mem hv
    rw [hlen] at hk
    have hcols : 0 < m.cols.toNat := Nat.pos_of_ne_zero fun h => by simp [h] at hk
    have hr : k / m.cols.toNat < m.rows.toNat := Nat.div_lt_of_lt_mul (by rwa [mul_comm])
    have hc : k % m.cols.toNat < m.cols.toNat := Nat.mod_lt _ hcols
    have hr' : (UInt32.ofNat (k / m.cols.toNat)).toNat = k / m.cols.toNat :=
      UInt32.toNat_ofNat_of_lt' (hr.trans m.rows.toNat_lt)
    have hc' : (UInt32.ofNat (k % m.cols.toNat)).toNat = k % m.cols.toNat :=
      UInt32.toNat_ofNat_of_lt' (hc.trans m.cols.toNat_lt)
    have hrc : UInt32.ofNat (k / m.cols.toNat) < m.rows ∧ UInt32.ofNat (k % m.cols.toNat) < m.cols := by
      rw [UInt32.lt_iff_toNat_lt, UInt32.lt_iff_toNat_lt, hr', hc']
      exact ⟨hr, hc⟩
    have hindex : index m (.ofNat (k / m.cols.toNat)) (.ofNat (k % m.cols.toNat)) = k := by
      rw [index, hr', hc']
      exact Nat.div_add_mod' k _
    refine ⟨_, _, _, hrc, (hdata _ _ hrc).2 ⟨v, ?_, hm⟩, rfl⟩
    rw [hindex, ← hkv]
    exact List.getElem?_eq_getElem _

/-- The sides are right for every shape, as long as the sizes fit. -/
theorem sides_of_fits (hm : createArea list rows = some m) (hc : Centered m) (hfit : Fits m) : Sides list rows := by
  intro a
  obtain ⟨south, hs, hos⟩ := @copyArea_rotate _ .rotate180 hfit hc (.inr (.inl rfl))
  obtain ⟨east, he, hoe⟩ := @copyArea_rotate _ .rotate90 hfit hc (.inl rfl)
  obtain ⟨west, hw, how⟩ := @copyArea_rotate _ .rotate270 hfit hc (.inr (.inr rfl))
  refine ⟨(((a.set .north m).set .south south).set .east east).set .west west, m, east, south, west, ?_,
    ⟨rfl, rfl, rfl, rfl⟩, hoe, hos, how⟩
  rw [setupArea, hm]
  simp only [hs, he, hw, Option.bind_eq_bind, Option.bind_some]

theorem not_sides_of_not_fits (hm : createArea list rows = some m) (hc : Centered m) (hfit : ¬ Fits m) :
    ¬ Sides list rows := by
  intro h
  obtain ⟨a', -, -, -, -, ha, -⟩ := h ⟨fun _ => none, false⟩
  rw [setupArea, hm] at ha
  simp only [copyArea_rotate180_of_not_fits hc hfit, Option.bind_eq_bind, Option.bind_some, Option.bind_none] at ha
  exact nomatch ha

/-- The corners: the areas that are made, and by how much they are out of place. -/
theorem setupExtArea_spec (hm : createArea list rows = some m) (hc : Centered m) (hfit : Fits m) (hne : list ≠ []) :
    ∃ northEast southWest southEast,
      (∀ a : Areas, setupExtArea a list rows = some
        (((({ a with hasExtArea := true }.set .northWest m).set .northEast northEast).set .southWest southWest).set
          .southEast southEast)) ∧
      offsets northEast = (fun d => (-d.1 + mirrorShift m, d.2)) '' offsets m ∧
      offsets southWest = (fun d => (d.1, -d.2 + flipShift m)) '' offsets m ∧
      ((maxOutput m).toNat < 2 ^ 31 → offsets southEast = mirrorX '' offsets southWest) ∧
      (2 ^ 31 ≤ (maxOutput m).toNat → offsets southEast = ∅) := by
  have hmax := hfit.maxOutput
  have hcx := UInt32.lt_iff_toNat_lt.1 hc.2
  have hrows : m.rows ≤ (square m).rows := by
    rw [UInt32.le_iff_toNat_le]
    show _ ≤ (maxOutput m).toNat
    omega
  have hcols : m.cols ≤ (square m).cols := by
    rw [UInt32.le_iff_toNat_le]
    show _ ≤ (maxOutput m).toNat
    omega
  unfold Fits at hfit
  obtain ⟨ne, hne', hone⟩ := copyArea_mirror hrows hcols (by omega) rfl
  obtain ⟨sw, hsw, ⟨hswr, hswc⟩, hswx, hosw⟩ := copyArea_flip hrows hcols (by omega) rfl
  obtain ⟨se, hse, hlt, hle⟩ : ∃ se, copyArea sw (square m) .mirror = some se ∧
      ((maxOutput m).toNat < 2 ^ 31 → offsets se = mirrorX '' offsets sw) ∧
      (2 ^ 31 ≤ (maxOutput m).toNat → offsets se = ∅) := by
    rcases Nat.lt_or_ge (maxOutput m).toNat (2 ^ 31) with hM | hM
    · obtain ⟨se, hse, hose⟩ := @copyArea_mirror sw (square m)
        (by rw [hswr]; exact UInt32.le_refl _) (by rw [hswc]; exact UInt32.le_refl _) (by rw [hswc]; exact hM) rfl
      have hshift : mirrorShift sw = 0 := by
        have hlt : sw.centerX < sw.cols := by
          rw [hswx, hswc, UInt32.lt_iff_toNat_lt]
          show _ < (maxOutput m).toNat
          omega
        have hle := UInt32.lt_iff_toNat_lt.1 hlt
        have hsq : sw.rows = sw.cols := hswr.trans hswc.symm
        rw [mirrorShift, hsq, toNat_pred_sub hlt]
        omega
      refine ⟨se, hse, fun _ => ?_, fun h => absurd hM h.not_gt⟩
      rw [hose, hshift]
      simp only [add_zero]
      rfl
    · obtain ⟨se, hse, hose⟩ := @copyArea_mirror_of_le sw (square m) (by rw [hswc]; exact hM) rfl
      exact ⟨se, hse, fun h => absurd hM h.not_ge, fun _ => hose⟩
  refine ⟨ne, sw, se, fun a => ?_, hone, hosw, hlt, hle⟩
  rw [setupExtArea, if_neg hne, hm]
  simp only [hne', hsw, hse, Option.bind_eq_bind, Option.bind_some]

/-- A set of cells is not the same at another place. -/
theorem eq_zero_of_shift {δ : ℤ} (hS : (offsets m).Nonempty)
    (h : (fun d : ℤ × ℤ => (-d.1 + δ, d.2)) '' offsets m = mirrorX '' offsets m) : δ = 0 := by
  have hbound : ∀ d ∈ offsets m, d.1.natAbs < 2 ^ 32 := by
    rintro d ⟨y, x, -, -, rfl⟩
    have := x.toNat_lt
    have := m.centerX.toNat_lt
    dsimp only
    omega
  have hstep : ∀ d ∈ offsets m, ((d.1 - δ, d.2) : ℤ × ℤ) ∈ offsets m := by
    intro d hd
    have hmem : ((-d.1 + δ, d.2) : ℤ × ℤ) ∈ mirrorX '' offsets m := h ▸ Set.mem_image_of_mem _ hd
    obtain ⟨e, he, heq⟩ := hmem
    obtain ⟨h1, h2⟩ := Prod.mk.inj heq
    rwa [show ((d.1 - δ, d.2) : ℤ × ℤ) = e from Prod.ext (by simp only; omega) h2.symm]
  obtain ⟨d, hd⟩ := hS
  have hiter : ∀ k : ℕ, ((d.1 - k * δ, d.2) : ℤ × ℤ) ∈ offsets m := by
    intro k
    induction k with
    | zero => simpa using hd
    | succ k ih =>
      have := hstep _ ih
      rwa [show d.1 - ((k + 1 : ℕ) : ℤ) * δ = d.1 - k * δ - δ by push_cast; ring]
  have h0 := hbound _ hd
  have hfar := hbound _ (hiter (2 ^ 33))
  dsimp only at hfar
  push_cast at hfar
  omega

theorem mirrorShift_eq_zero_iff (hc : Centered m) : mirrorShift m = 0 ↔ m.rows = m.cols := by
  have hcx := UInt32.lt_iff_toNat_lt.1 hc.2
  have hcols := m.cols.toNat_lt
  have hrows := m.rows.toNat_lt
  constructor
  · intro h
    unfold mirrorShift at h
    rw [UInt32.toNat_sub, UInt32.toNat_sub, UInt32.toNat_one] at h
    rw [← UInt32.toNat_inj]
    omega
  · intro h
    rw [mirrorShift, h, toNat_pred_sub hc.2]
    omega

theorem flipShift_eq_zero (hc : Centered m) (h : m.rows = m.cols) : flipShift m = 0 := by
  have hcy := UInt32.lt_iff_toNat_lt.1 hc.1
  rw [flipShift, ← h, toNat_pred_sub hc.1]
  omega

/-- The corners are right for a square whose double fits twice, and for no cells at all. -/
theorem corners_iff (hm : createArea list rows = some m) (hc : Centered m) (hfit : Fits m) (hne : list ≠ []) :
    Corners list rows ↔ offsets m = ∅ ∨ (m.rows = m.cols ∧ m.rows.toNat < 2 ^ 30) := by
  have hmax := hfit.maxOutput
  obtain ⟨ne, sw, se, hset, hone, hosw, hlt, hle⟩ := setupExtArea_spec hm hc hfit hne
  constructor
  · intro h
    obtain ⟨a', nw', ne', sw', se', ha', ⟨hnw, hne', hsw, hse⟩, h1, h2, h3⟩ := h ⟨fun _ => none, false⟩
    rw [hset] at ha'
    obtain rfl := Option.some.inj ha'
    obtain rfl : m = nw' := Option.some.inj hnw
    obtain rfl : ne = ne' := Option.some.inj hne'
    obtain rfl : sw = sw' := Option.some.inj hsw
    obtain rfl : se = se' := Option.some.inj hse
    rcases Set.eq_empty_or_nonempty (offsets m) with hempty | hnon
    · exact .inl hempty
    · have hsquare := (mirrorShift_eq_zero_iff hc).1 (eq_zero_of_shift hnon (hone.symm.trans h1))
      refine .inr ⟨hsquare, ?_⟩
      by_contra hge
      rw [hle (by rw [hmax]; omega)] at h3
      exact (((hnon.image mirrorY).image mirrorX).ne_empty h3.symm).elim
  · intro h a
    refine ⟨_, m, ne, sw, se, hset a, ⟨rfl, rfl, rfl, rfl⟩, ?_⟩
    rcases h with hempty | ⟨hsquare, hsmall⟩
    · rw [hone, hosw, hempty]
      simp only [Set.image_empty, true_and]
      rcases Nat.lt_or_ge (maxOutput m).toNat (2 ^ 31) with hM | hM
      · rw [hlt hM, hosw, hempty, Set.image_empty, Set.image_empty]
      · exact hle hM
    · have hM : (maxOutput m).toNat < 2 ^ 31 := by
        rw [hmax, ← hsquare, max_self]
        omega
      have hosw' : offsets sw = mirrorY '' offsets m := by
        rw [hosw, flipShift_eq_zero hc hsquare]
        simp only [add_zero]
        rfl
      refine ⟨?_, hosw', ?_⟩
      · rw [hone, (mirrorShift_eq_zero_iff hc).2 hsquare]
        simp only [add_zero]
        rfl
      · rw [hlt hM, hosw']

end Setup

/-- **The areas of the corners are right for squares only.** The sides are turned rightly
whatever the shape. Mirroring takes the number of rows for the one of columns and flipping
the other way around, so that with different numbers an area with a cell in it is out of
place. Beyond that the sizes have to fit into their words, doubled for the sides and doubled
twice for the corners. -/
theorem congruent_iff (list : List UInt32) (rows cols : UInt32) (hrows : 1 ≤ rows)
    (hlen : list.length = rows.toNat * cols.toNat) (hone : list.countP (fun v => v = 2 ∨ v = 3) = 1) :
    Congruent list rows ↔ (max rows.toNat cols.toNat < 2 ^ 31 ∧ ∀ v ∈ list, v ≠ 1 ∧ v ≠ 3) ∨
      (rows = cols ∧ rows.toNat < 2 ^ 30) := by
  obtain ⟨v₀, hv₀, hc₀⟩ : ∃ v ∈ list, IsCenter v := by
    have : 0 < list.countP fun v => v = 2 ∨ v = 3 := by omega
    rw [List.countP_pos_iff] at this
    obtain ⟨v, hv, hp⟩ := this
    exact ⟨v, hv, of_decide_eq_true hp⟩
  have hpos : 0 < rows := by
    rw [UInt32.le_iff_toNat_le, UInt32.toNat_one] at hrows
    rw [UInt32.lt_iff_toNat_lt, UInt32.toNat_zero]
    omega
  obtain ⟨m, hm, ⟨hr, hcl⟩, hc, -, hdata⟩ := createArea_spec hpos hlen ⟨v₀, hv₀, hc₀⟩
  have hempty : offsets m = ∅ ↔ ∀ v ∈ list, v ≠ 1 ∧ v ≠ 3 := by
    rw [← Set.not_nonempty_iff_eq_empty, offsets_nonempty (by rw [hr, hcl, hlen]) hdata]
    push Not
    simp only [Marks, not_or]
  have hfits : Fits m ↔ max rows.toNat cols.toNat < 2 ^ 31 := by rw [Fits, hr, hcl]
  have hne : list ≠ [] := List.ne_nil_of_mem hv₀
  by_cases hfit : Fits m
  · have hfit' := hfits.1 hfit
    rw [Congruent, and_iff_right (sides_of_fits hm hc hfit), corners_iff hm hc hfit hne, hempty, hr, hcl,
      and_iff_right hfit']
  · have hfit' := hfits.not.1 hfit
    refine iff_of_false (fun h => not_sides_of_not_fits hm hc hfit h.1) ?_
    rintro (⟨h, -⟩ | ⟨rfl, h⟩)
    · exact hfit' h
    · rw [max_self] at hfit'
      omega

theorem congruent_iff_square : Congruent [1, 0, 2, 0] 2 ↔
    (max 2 2 < 2 ^ 31 ∧ ∀ v ∈ [(1 : UInt32), 0, 2, 0], v ≠ 1 ∧ v ≠ 3) ∨ ((2 : UInt32) = 2 ∧ 2 < 2 ^ 30) :=
  congruent_iff [1, 0, 2, 0] 2 2 (by decide) (by decide) (by decide)

/-- A row of two cells with the center on the left: its mirror image reaches to the right too. -/
theorem row_not_congruent : ∃ (list : List UInt32) (rows cols : UInt32), 1 ≤ rows ∧
    list.length = rows.toNat * cols.toNat ∧ (∀ v ∈ list, v ≤ 3) ∧
    list.countP (fun v => v = 2 ∨ v = 3) = 1 ∧ ¬ Congruent list rows := by
  have hle : ∀ v ∈ [(3 : UInt32), 1], v ≤ 3 := by
    intro v hv
    rw [List.mem_cons, List.mem_singleton] at hv
    rcases hv with rfl | rfl
    · exact UInt32.le_refl _
    · exact UInt32.le_iff_toNat_le.2 (by simp)
  refine ⟨[3, 1], 1, 2, by decide, by decide, hle, by decide, fun h => ?_⟩
  obtain ⟨a', nw, ne, -, -, ha, ⟨hnw, hne, -⟩, hmirror, -⟩ := h.2 ⟨fun _ => none, false⟩
  have hnw' : (setupExtArea ⟨fun _ => none, false⟩ [3, 1] 1).bind (fun a => (a.areas .northWest).map
      (·.centerX)) = some 0 := by decide
  have hne' : (setupExtArea ⟨fun _ => none, false⟩ [3, 1] 1).bind (fun a => (a.areas .northEast).map
      fun m => (m.rows, m.cols, m.centerY, m.centerX, m.data 0 1)) = some (4, 4, 0, 0, true) := by decide
  rw [ha, Option.bind_some, hnw] at hnw'
  rw [ha, Option.bind_some, hne] at hne'
  obtain ⟨hr, hc, hy, hx, hd⟩ := by simpa using hne'
  have hcx : nw.centerX = 0 := by simpa using hnw'
  have hmem : ((1, 0) : ℤ × ℤ) ∈ offsets ne :=
    ⟨0, 1, by rw [hr, hc]; decide, hd, by rw [hx, hy]; rfl⟩
  rw [hmirror] at hmem
  obtain ⟨-, ⟨y, x, -, -, rfl⟩, he⟩ := hmem
  have hneg : -((x.toNat : ℤ) - nw.centerX.toNat) = 1 := congrArg Prod.fst he
  rw [hcx, UInt32.toNat_zero] at hneg
  omega

end AreaCombat
end ForgottenServer
