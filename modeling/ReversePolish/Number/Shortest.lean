import ReversePolish.Number.Decimal

/-!
# The shortest decimal of a magnitude

Among the decimals that round to a given magnitude, the one to write has the
fewest digits, and among those it is the nearest to the magnitude.

Since `2 ^ -1074 = 5 ^ 1074 * 10 ^ -1074`, every finite magnitude is a whole
number of `10 ^ -1074`.  Counted in that grain, the magnitude and the two ends
of the range that rounds to it are natural numbers, and a decimal with exponent
`j - 1074` is a multiple of `10 ^ j`.  Fewest digits then means the coarsest grid
`10 ^ j` with a point in the range.  The range is convex and holds the magnitude,
so a grid has a point in it only if one of the magnitude's two neighbours on the
grid lies in it, and the search needs to look at no other points.
-/

namespace ReversePolish

-- powers are those of the core library, whatever is imported
attribute [local instance (2000)] instPowNat

/-- The numbers that round to one magnitude, counted in `10 ^ -1074`.  The two
ends are midpoints between neighbouring magnitudes and are kept doubled, so that
they are whole; they belong to the basin when the rank is even. -/
structure Basin where
  centre : Nat
  lowDoubled : Nat
  highDoubled : Nat
  closed : Bool

namespace Basin

/-- The basin of the magnitude of rank `k`. -/
def ofRank (k : Nat) : Basin where
  centre := Magnitude.units k * 5 ^ (1074 : Nat)
  lowDoubled := (Magnitude.units (k - 1) + Magnitude.units k) * 5 ^ (1074 : Nat)
  highDoubled := (Magnitude.units k + Magnitude.units (k + 1)) * 5 ^ (1074 : Nat)
  closed := k % 2 == 0

/-- Whether `n * 10 ^ -1074` lies in the basin. -/
def contains (b : Basin) (n : Nat) : Bool :=
  if b.closed then decide (b.lowDoubled ≤ 2 * n ∧ 2 * n ≤ b.highDoubled)
  else decide (b.lowDoubled < 2 * n ∧ 2 * n < b.highDoubled)

/-- The multiple of `10 ^ j` in the basin that is nearest to the centre, divided
by `10 ^ j`; of two equally near, the larger. -/
def onGrid? (b : Basin) (j : Nat) : Option Nat :=
  let step := 10 ^ j
  let below := b.centre / step
  let above := below + 1
  if b.contains (below * step) then
    if b.contains (above * step) && decide (above * step - b.centre ≤ b.centre - below * step)
    then some above
    else some below
  else if b.contains (above * step) then some above
  else none

/-- The decimal on the coarsest grid no coarser than `10 ^ j` that has a point in
the basin.  On the grid of the grain itself the centre is such a point. -/
def coarsest (b : Basin) : Nat → Decimal
  | 0 => ⟨b.centre, -1074⟩
  | j + 1 =>
    match b.onGrid? (j + 1) with
    | some n => ⟨n, (j + 1 : Nat) - 1074⟩
    | none => b.coarsest j

end Basin

/-- A number of decimal places that is enough for `n`: `2 ^ 93 < 10 ^ 28`. -/
def placesBound (n : Nat) : Nat := 28 * (n.log2 + 1) / 93 + 1

/-- The shortest decimal that rounds to the magnitude of rank `k`, for `k`
neither zero nor infinite. -/
def Decimal.shortest (k : Nat) : Decimal :=
  let b := Basin.ofRank k
  b.coarsest (placesBound b.highDoubled)

end ReversePolish
