/-! Counts of rows. They are kept in a machine word: a sum that does not fit stays at the greatest count. -/
namespace Screener.Size

def most : Nat := Nat.pow 2 64 - 1

def add (a b : Nat) : Nat := min (a + b) most

theorem add_le (a b : Nat) : add a b ≤ a + b := Nat.min_le_left _ _

end Screener.Size
