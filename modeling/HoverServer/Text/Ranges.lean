/-! Sets of code points. -/
namespace HoverServer.Text

/-- A set of code points: closed ranges in ascending order. -/
abbrev Ranges := List (Nat × Nat)

def Ranges.contains : Ranges → Nat → Bool
  | [], _ => false
  | (low, high) :: r, n => if n < low then false else n ≤ high || Ranges.contains r n

end HoverServer.Text
