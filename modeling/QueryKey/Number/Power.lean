/-! Powers of two and of ten, the scales of binary and of decimal numbers.
-/

namespace QueryKey.Number

/-- The `n`th power of two. -/
def twoTo (n : Nat) : Nat :=
  Nat.pow 2 n

/-- The `n`th power of ten. -/
def tenTo (n : Nat) : Nat :=
  Nat.pow 10 n

@[simp] theorem twoTo_zero : twoTo 0 = 1 :=
  rfl

@[simp] theorem tenTo_zero : tenTo 0 = 1 :=
  rfl

theorem twoTo_succ (n : Nat) : twoTo (n + 1) = twoTo n * 2 :=
  rfl

theorem tenTo_succ (n : Nat) : tenTo (n + 1) = tenTo n * 10 :=
  rfl

theorem twoTo_pos (n : Nat) : 0 < twoTo n := by
  induction n with
  | zero => decide
  | succ n ih => rw [twoTo_succ]; omega

theorem tenTo_pos (n : Nat) : 0 < tenTo n := by
  induction n with
  | zero => decide
  | succ n ih => rw [tenTo_succ]; omega

end QueryKey.Number
