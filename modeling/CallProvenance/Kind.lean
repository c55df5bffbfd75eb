/-! Value kinds: what the machine knows about a local slot or an operand without running it. -/
namespace CallProvenance

/-- `uninitialized` stands for an unset slot, for the upper half of a wide value, and for
a join of different kinds. -/
inductive Kind where
  | uninitialized
  | int
  | float
  | long
  | double
  | reference
  | returnAddress
  deriving DecidableEq, Repr

namespace Kind

def size : Kind → Nat
  | .long | .double => 2
  | _ => 1

/-- Kinds form a flat order below `uninitialized`. -/
def join (a b : Kind) : Kind := if a = b then a else .uninitialized

def letter : Kind → String
  | .uninitialized => "."
  | .int => "I"
  | .float => "F"
  | .long => "J"
  | .double => "D"
  | .reference => "R"
  | .returnAddress => "A"

theorem size_eq_one_or_two (k : Kind) : k.size = 1 ∨ k.size = 2 := by cases k <;> simp [size]

theorem size_pos (k : Kind) : 0 < k.size := by cases k <;> simp [size]

theorem size_eq_two {k : Kind} : k.size = 2 ↔ k = .long ∨ k = .double := by cases k <;> simp [size]

@[simp] theorem join_self (k : Kind) : k.join k = k := by simp [join]

end Kind
end CallProvenance
