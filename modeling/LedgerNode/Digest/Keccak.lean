/-!
# The Keccak permutation

Keccak-f[1600] permutes a state of five by five lanes of 64 bits; lane `(x, y)` stands at index
`x + 5 * y`. A round mixes the columns, rotates and moves the lanes, combines each lane with the
next two of its row, and adds a round constant.

- `Lanes`: the state.
- `Lanes.round`, `Lanes.permute`: one round, and all twenty-four.
-/

namespace LedgerNode.Digest

/-- A state of twenty-five lanes of 64 bits. -/
abbrev Lanes := Vector UInt64 25

/-- The constants added to lane `(0, 0)`, one a round. -/
def roundConstants : List UInt64 :=
  [0x0000000000000001, 0x0000000000008082, 0x800000000000808a, 0x8000000080008000,
   0x000000000000808b, 0x0000000080000001, 0x8000000080008081, 0x8000000000008009,
   0x000000000000008a, 0x0000000000000088, 0x0000000080008009, 0x000000008000000a,
   0x000000008000808b, 0x800000000000008b, 0x8000000000008089, 0x8000000000008003,
   0x8000000000008002, 0x8000000000000080, 0x000000000000800a, 0x800000008000000a,
   0x8000000080008081, 0x8000000000008080, 0x0000000080000001, 0x8000000080008008]

/-- How far each lane is rotated. -/
def rotationOffsets : Vector UInt64 25 :=
  #v[0, 1, 62, 28, 27, 36, 44, 6, 55, 20, 3, 10, 43, 25, 39, 41, 45, 15, 21, 8, 18, 2, 61, 56, 14]

/-- Rotation of a lane toward its high end. -/
def rotateLeft (lane amount : UInt64) : UInt64 :=
  (lane <<< amount) ||| (lane >>> (64 - amount))

namespace Lanes

/-- The lane in column `x` and row `y`, both taken modulo five. -/
def cell (lanes : Lanes) (x y : Nat) : UInt64 :=
  lanes.get ⟨x % 5 + 5 * (y % 5), by omega⟩

/-- The state whose lane in column `x` and row `y` is `f x y`. -/
def ofCells (f : Nat → Nat → UInt64) : Lanes :=
  Vector.ofFn fun i => f (i.val % 5) (i.val / 5)

/-- The parity of each column. -/
def columnParities (lanes : Lanes) : Vector UInt64 5 :=
  Vector.ofFn fun x =>
    lanes.cell x 0 ^^^ lanes.cell x 1 ^^^ lanes.cell x 2 ^^^ lanes.cell x 3 ^^^ lanes.cell x 4

/-- What is added to each lane of a column: the parities of the columns on either side, that of the
next one rotated. -/
def columnEffects (lanes : Lanes) : Vector UInt64 5 :=
  let parities := lanes.columnParities
  Vector.ofFn fun x => parities.get (x + 4) ^^^ rotateLeft (parities.get (x + 1)) 1

/-- Adds to each lane the effect on its column. -/
def mixColumns (lanes : Lanes) : Lanes :=
  let effects := lanes.columnEffects
  ofCells fun x y => lanes.cell x y ^^^ effects.get (Fin.ofNat 5 x)

/-- Rotates each lane by its own offset and moves it to its new place. -/
def scatter (lanes : Lanes) : Lanes :=
  ofCells fun x y => rotateLeft (lanes.cell (x + 3 * y) x) (cell rotationOffsets (x + 3 * y) x)

/-- Combines each lane with the next two lanes of its row. -/
def combineRows (lanes : Lanes) : Lanes :=
  ofCells fun x y => lanes.cell x y ^^^ ((~~~ lanes.cell (x + 1) y) &&& lanes.cell (x + 2) y)

/-- One round, with its constant. -/
def round (lanes : Lanes) (constant : UInt64) : Lanes :=
  let mixed := lanes.mixColumns.scatter.combineRows
  mixed.set 0 (mixed.cell 0 0 ^^^ constant)

/-- The permutation: one round for each constant. -/
def permute (lanes : Lanes) : Lanes :=
  roundConstants.foldl round lanes

end Lanes

end LedgerNode.Digest
