/-! The fewest decimal digits that read back as a given double, and among those the nearest to
its exact value. All arithmetic is on natural numbers. -/
namespace HoverServer.Decimal

/-- A magnitude `mantissa * 2 ^ exponent`. -/
structure Binary where
  mantissa : Nat
  exponent : Int
  deriving DecidableEq

def Binary.ofBits (bits : UInt64) : Binary :=
  let fraction : Nat := bits.toNat % 0x10000000000000
  let biased : Nat := bits.toNat / 0x10000000000000 % 0x800
  if biased = 0 then ⟨fraction, -1074⟩ else ⟨0x10000000000000 + fraction, (biased : Int) - 1075⟩

/-- A magnitude `digits * 10 ^ exponent`. -/
structure Digits where
  digits : Nat
  exponent : Int
  deriving DecidableEq

/-- Everything below is measured in quarters of the last place of the mantissa. The reals that
round to the double reach half a place up, and half a place down unless the double is a
power of two: there the gap below is half as wide. -/
def Binary.quarters (b : Binary) : Nat := 4 * b.mantissa

def Binary.lowest (b : Binary) : Nat :=
  if b.mantissa = 0x10000000000000 ∧ b.exponent ≠ -1074 then b.quarters - 1 else b.quarters - 2

def Binary.highest (b : Binary) : Nat := b.quarters + 2

/-- The fraction `numerator / denominator` that one quarter is worth, as a multiple of the
decimal unit `10 ^ place`. -/
def Binary.numerator (b : Binary) (place : Int) : Nat :=
  (1 <<< (b.exponent - 2).toNat) * Nat.pow 10 (-place).toNat

def Binary.denominator (b : Binary) (place : Int) : Nat :=
  (1 <<< (2 - b.exponent).toNat) * Nat.pow 10 place.toNat

/-- Does `d * 10 ^ place` round to the double? A bound itself does if the mantissa is even. -/
def Binary.covers (b : Binary) (place : Int) (d : Nat) : Bool :=
  let low := b.lowest * b.numerator place
  let high := b.highest * b.numerator place
  let here := d * b.denominator place
  if b.mantissa % 2 = 0 then low ≤ here && here ≤ high else low < here && here < high

/-- Twice the exact value against the sum of a decimal and its successor. -/
def Binary.nearerAbove (b : Binary) (place : Int) (d : Nat) : Bool :=
  let twice := 2 * (b.quarters * b.numerator place)
  let middle := (2 * d + 1) * b.denominator place
  middle < twice || (middle = twice && d % 2 = 1)

def Binary.below (b : Binary) (place : Int) : Nat :=
  b.quarters * b.numerator place / b.denominator place

/-- The decimal with units of `10 ^ place` that reads back, if there is one: the nearer of the
two around the value, and the even one of a tie. -/
def Binary.at (b : Binary) (place : Int) : Option Digits :=
  let below := b.below place
  match b.covers place below, b.covers place (below + 1) with
  | true, true => some ⟨if b.nearerAbove place below then below + 1 else below, place⟩
  | true, false => some ⟨below, place⟩
  | false, true => some ⟨below + 1, place⟩
  | false, false => none

def length (n : Nat) : Nat := (Nat.toDigits 10 n).length

/-- The power of ten just above the value. -/
def Binary.magnitude (b : Binary) : Int :=
  let above := b.quarters * b.numerator 0
  let below := b.denominator 0
  if below ≤ above then (length (above / below) : Int)
  else
    let shift := length below - length above
    if below ≤ above * Nat.pow 10 shift then 1 - (shift : Int) else -(shift : Int)

def Digits.trim : Nat → Digits → Digits
  | 0, d => d
  | fuel + 1, d =>
    if d.digits % 10 = 0 && d.digits ≠ 0 then Digits.trim fuel ⟨d.digits / 10, d.exponent + 1⟩
    else d

/-- Grids of one digit, two digits and so on; seventeen digits always suffice. -/
def Binary.shortest (b : Binary) : Digits :=
  let place (n : Nat) : Int := b.magnitude - (n : Int)
  let found := (List.range 17).findSome? fun n => b.at (place (n + 1))
  (found.getD ⟨b.below (place 17), place 17⟩).trim 17

end HoverServer.Decimal
