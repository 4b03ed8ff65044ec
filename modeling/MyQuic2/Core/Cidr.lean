import Mathlib.Algebra.Order.Ring.Nat

/-!
# Address prefixes

A prefix is an address together with the number of leading bits it fixes. The
membership test stands for the one of ipnet: it compares against the first and the
last address of the block. `contains_iff` identifies it with agreement of the leading
bits, which is its contract.
-/

namespace MyQuic2

/-- A block of `w`-bit addresses that share their first `len` bits. -/
structure Cidr (w : Nat) where
  addr : BitVec w
  len : Nat
  /-- The prefix length cannot exceed the address width. -/
  len_le : len ≤ w

namespace Cidr

variable {w : Nat}

variable (net : Cidr w) (a : BitVec w)

/-- Number of free low bits. -/
def host : Nat := w - net.len

/-- The first address of the block: the host bits cleared. -/
def network : BitVec w := net.addr >>> net.host <<< net.host

/-- The last address of the block: the host bits set. -/
def broadcast : BitVec w := net.network ||| BitVec.allOnes w >>> net.len

/-- Membership is a comparison with both ends of the block. -/
def contains : Bool :=
  decide (net.network ≤ a) && decide (a ≤ net.broadcast)

lemma toNat_network : net.network.toNat = net.addr.toNat / 2 ^ net.host * 2 ^ net.host := by
  have hle : net.addr.toNat / 2 ^ net.host * 2 ^ net.host ≤ net.addr.toNat :=
    Nat.div_mul_le_self _ _
  rw [network, BitVec.toNat_shiftLeft, BitVec.toNat_ushiftRight, Nat.shiftRight_eq_div_pow,
    Nat.shiftLeft_eq, Nat.mod_eq_of_lt (by omega)]

lemma toNat_broadcast :
    net.broadcast.toNat = net.addr.toNat / 2 ^ net.host * 2 ^ net.host + (2 ^ net.host - 1) := by
  have hmask : (BitVec.allOnes w >>> net.len).toNat = 2 ^ net.host - 1 := by
    have hw : 2 ^ w = 2 ^ net.len * 2 ^ net.host := by
      rw [← pow_add, host, Nat.add_sub_cancel' net.len_le]
    have hp : 0 < 2 ^ net.len := Nat.two_pow_pos _
    have hq : 0 < 2 ^ net.host := Nat.two_pow_pos _
    rw [BitVec.toNat_ushiftRight, BitVec.toNat_allOnes, Nat.shiftRight_eq_div_pow, hw]
    -- `(p * q - 1) / p = q - 1` because the quotient misses `q` by the single unit taken away
    obtain ⟨q, hq'⟩ : ∃ q, 2 ^ net.host = q + 1 := ⟨2 ^ net.host - 1, by omega⟩
    rw [hq', Nat.mul_succ, Nat.add_sub_assoc hp, Nat.mul_add_div hp, Nat.div_eq_of_lt (by omega)]
    omega
  have hfree : 2 ^ net.host - 1 < 2 ^ net.host := by
    have hq : 0 < 2 ^ net.host := Nat.two_pow_pos _
    omega
  rw [broadcast, BitVec.toNat_or, hmask, toNat_network, Nat.mul_comm,
    ← Nat.two_pow_add_eq_or_of_lt hfree]

/-- An address lies in the block exactly when its leading bits are the block's. -/
lemma contains_iff :
    net.contains a = true ↔ a.toNat / 2 ^ net.host = net.addr.toNat / 2 ^ net.host := by
  have hq : 0 < 2 ^ net.host := Nat.two_pow_pos _
  rw [contains, Bool.and_eq_true, decide_eq_true_iff, decide_eq_true_iff, BitVec.le_def,
    BitVec.le_def, toNat_network, toNat_broadcast]
  generalize hp : 2 ^ net.host = p at hq ⊢
  generalize net.addr.toNat / p = k
  constructor
  · rintro ⟨hlo, hhi⟩
    have hhi' : a.toNat < (k + 1) * p := by
      rw [Nat.succ_mul]
      omega
    have hup := (Nat.div_lt_iff_lt_mul hq).mpr hhi'
    have hlow := (Nat.le_div_iff_mul_le hq).mpr hlo
    omega
  · intro he
    have hlo := (Nat.le_div_iff_mul_le hq).mp he.ge
    have hhi := (Nat.div_lt_iff_lt_mul hq).mp (show a.toNat / p < k + 1 by omega)
    rw [Nat.succ_mul] at hhi
    omega

end Cidr

end MyQuic2
