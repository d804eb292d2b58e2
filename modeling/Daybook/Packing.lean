/-!
# Packing boxes into columns

A box reserves a stretch of the time line, and boxes that overlap stand side by side.  Packing is
first fit: the boxes are taken by start, the taller one first among equal starts, and each goes to
the leftmost column that is free again at its start.

The order is reached by two stable sorts, by height and then by start, so boxes that agree in both
keep the order in which they were given.  A column is known by its *bottom*, the first second at
which it is free again.  Bottoms are clamped to the signed 64-bit range (`clamp`), since a box may
start at the last second of the range and be as tall as the range itself.

`packWith` leaves the rule for bottoms open and `pack` fixes it, so packing without the clamp can be
said, and compared, with the same steps.
-/

namespace Daybook

/-- **A box on the time line.**  Both numbers are seconds; a duration may be negative. -/
structure Box where
  /-- The second at which the box starts. -/
  start : Int64
  /-- The length of the box. -/
  duration : Int64
  deriving DecidableEq, Inhabited

/-- **Columns of a list of boxes.** -/
structure Packing where
  /-- How many columns are open. -/
  count : Nat
  /-- The column of each box, in the order in which the boxes were given. -/
  columns : List Nat
  deriving DecidableEq, Inhabited

/-- The number of the signed 64-bit range that is nearest to `n`. -/
def clamp (n : Int) : Int :=
  min (max n Int64.minValue.toInt) Int64.maxValue.toInt

namespace Box

/-- The height a box is given: its duration, but no less than the least height asked for. -/
def height (least : Int64) (b : Box) : Int :=
  max b.duration.toInt least.toInt

/-- Where the box ends when it is drawn with its height, clamped to the 64-bit range. -/
def bottom (least : Int64) (b : Box) : Int :=
  clamp (b.start.toInt + b.height least)

end Box

namespace Packing

/-! ### The order in which boxes are placed -/

/-- Boxes with their indices in placing order: earliest start first, among equal starts the taller
first, and else as given. -/
def order (least : Int64) (boxes : List Box) : List (Box × Nat) :=
  (boxes.zipIdx.mergeSort fun p q => decide (q.1.height least ≤ p.1.height least)).mergeSort
    fun p q => decide (p.1.start.toInt ≤ q.1.start.toInt)

/-! ### Placing one box, and all of them -/

/-- The leftmost of the columns with the given bottoms that is free at `top`, and the bottoms after
it has been taken down to `bottom`.  If no column is free a new one is opened on the right. -/
def place (top bottom : Int) : List Int → Nat × List Int
  | [] => (0, [bottom])
  | b :: bs =>
    if b ≤ top then (0, bottom :: bs)
    else
      let (column, bs') := place top bottom bs
      (column + 1, b :: bs')

/-- Places boxes one after the other, from columns with the given bottoms.  Gives the column of each
index, and the bottoms at the end. -/
def placeAll (bottom : Box → Int) : List Int → List (Box × Nat) → List (Nat × Nat) × List Int
  | bottoms, [] => ([], bottoms)
  | bottoms, (b, index) :: rest =>
    let (column, bottoms') := place b.start.toInt (bottom b) bottoms
    let (placed, last) := placeAll bottom bottoms' rest
    ((index, column) :: placed, last)

end Packing

/-- First fit with a rule of one's own for where a box ends. -/
def packWith (bottom : Box → Int) (least : Int64) (boxes : List Box) : Packing :=
  let (placed, bottoms) := Packing.placeAll bottom [] (Packing.order least boxes)
  { count := bottoms.length
    columns := (List.range boxes.length).map fun index => (placed.lookup index).getD 0 }

/-- **First fit.**  `least` is the least height of a box; it keeps room below very short ones. -/
def pack (least : Int64) (boxes : List Box) : Packing :=
  packWith (Box.bottom least) least boxes

namespace Packing

/-- The column of the box at `index`, if there is one. -/
def columnOf? (p : Packing) (index : Nat) : Option Nat :=
  p.columns[index]?

/-- Whether nothing was packed. -/
def isEmpty (p : Packing) : Bool :=
  p.columns.isEmpty

end Packing

end Daybook
