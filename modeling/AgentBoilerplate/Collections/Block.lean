import Mathlib.Data.Nat.Basic
import Mathlib.Data.Nat.Bitwise

namespace AgentBoilerplate.Collections

-- The numbers of `width` bits that begin with the same `length` bits.
structure Block (width : Nat) where
  base : Nat
  length : Nat
  aligned : 2 ^ (width - length) ∣ base := by decide
deriving DecidableEq

namespace Block

variable {width : Nat} (block : Block width)

def size : Nat := 2 ^ (width - block.length)

instance : Membership Nat (Block width) :=
  ⟨fun block n => n / block.size = block.base / block.size⟩

instance (n : Nat) : Decidable (n ∈ block) :=
  inferInstanceAs (Decidable (n / block.size = block.base / block.size))

variable {block}

theorem mem_iff {n : Nat} : n ∈ block ↔ block.base ≤ n ∧ n < block.base + block.size := by
  have hpos : 0 < block.size := Nat.two_pow_pos _
  obtain ⟨blocks, hbase⟩ := block.aligned
  have hquotient : block.base / block.size = blocks := by
    rw [hbase]
    exact Nat.mul_div_cancel_left blocks hpos
  change n / block.size = block.base / block.size ↔ _
  rw [hquotient, Nat.div_eq_iff hpos, hbase]
  change _ ↔ block.size * blocks ≤ n ∧ n < block.size * blocks + block.size
  rw [Nat.mul_comm]
  omega

-- A number is in the block where the mask of the block gives its base.
theorem land_mask_iff {n : Nat} (hn : n < 2 ^ width) (hlength : block.length ≤ width) :
    n &&& (2 ^ width - block.size) = block.base ↔ n ∈ block := by
  have hmask : 2 ^ width - block.size = block.size * (2 ^ block.length - 1) := by
    rw [size, Nat.mul_sub, ← Nat.pow_add, Nat.sub_add_cancel hlength, Nat.mul_one]
  have hland : n &&& (2 ^ width - block.size) = block.size * (n / block.size) := by
    rw [hmask]
    refine Nat.eq_of_testBit_eq fun i => ?_
    rw [Nat.testBit_and, size, Nat.testBit_two_pow_mul, Nat.testBit_two_pow_mul,
      Nat.testBit_two_pow_sub_one, Nat.testBit_div_two_pow]
    by_cases hi : width - block.length ≤ i
    · have hback : i - (width - block.length) + (width - block.length) = i := by omega
      rw [hback]
      by_cases hlow : i < width
      · have hshort : i - (width - block.length) < block.length := by omega
        simp [hi, hshort]
      · have hzero : n.testBit i = false :=
          Nat.testBit_lt_two_pow (hn.trans_le (Nat.pow_le_pow_right Nat.two_pos (by omega)))
        simp [hzero]
    · simp [hi]
  have hbase : block.size * (block.base / block.size) = block.base :=
    Nat.mul_div_cancel' block.aligned
  rw [hland]
  constructor
  · intro h
    rw [← hbase] at h
    exact Nat.eq_of_mul_eq_mul_left (Nat.two_pow_pos _) h
  · intro h
    have hsame : n / block.size = block.base / block.size := h
    rw [hsame, hbase]

end Block

end AgentBoilerplate.Collections
