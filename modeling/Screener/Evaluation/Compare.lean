import Screener.Filter.Expression

/-! Comparing two numbers. Equality allows for a difference that is small against the numbers. -/
namespace Screener.Evaluation

/-- The difference, relative to the size of the numbers, up to which they count as equal. -/
def tolerance : Float := 1e-9

def scale (a b : Float) : Float := greater (greater 1.0 a.abs) b.abs

def nearlyEqual (a b : Float) : Bool := (a - b).abs ≤ tolerance * scale a b

def holds (comparison : Filter.Comparison) (a b : Float) : Bool :=
  match comparison with
  | .greater => b < a
  | .less => a < b
  | .atLeast => b ≤ a
  | .atMost => a ≤ b
  | .equal => nearlyEqual a b
  | .unequal => !nearlyEqual a b

end Screener.Evaluation
