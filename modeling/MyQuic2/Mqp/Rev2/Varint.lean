import MyQuic2.Core.Field
import MyQuic2.Mqp.Addr

/-!
# Rev2 varints

Wire ids and item lengths are LEB128 numbers of at most five octets. The fifth
octet has room for four bits only, so that every number read fits in 32 bits.
The decoders and the train iterator have a reader each.
-/

namespace MyQuic2.Rev2

/-- The loop of `varintLen`: at most `fuel` further octets. -/
def varintLenLoop : Nat → UInt32 → Nat
  | 0, _ => 1
  | fuel + 1, n => if 0x80 ≤ n then varintLenLoop fuel (n >>> 7) + 1 else 1

section

variable (n : UInt32)

/-- Number of octets of `n`. -/
def varintLen : Nat := varintLenLoop 4 n

/-- The loop of `putVarint`: at most `fuel` octets that announce another one. -/
def putVarintLoop : Nat → UInt32 → Bytes
  | 0, n => [n.toUInt8]
  | fuel + 1, n =>
    if 0x80 ≤ n then (n.toUInt8 ||| 0x80) :: putVarintLoop fuel (n >>> 7) else [n.toUInt8]

/-- The octets of `n`, seven bits each, lowest first. -/
def putVarint : Bytes := putVarintLoop 4 n

lemma toNat_shiftRight_seven : (n >>> 7).toNat = n.toNat / 128 := by
  rw [UInt32.toNat_shiftRight]
  simp [Nat.shiftRight_eq_div_pow]

/-- Four octets that announce another one are enough for any 32-bit number. -/
lemma putVarintLoop_succ {fuel : Nat} {n : UInt32} (h : n.toNat < 2 ^ (7 * (fuel + 1))) :
    putVarintLoop (fuel + 1) n = putVarintLoop fuel n := by
  induction fuel generalizing n with
  | zero =>
    have hlt : ¬ 0x80 ≤ n := by
      rw [UInt32.le_iff_toNat_le]
      simp only [UInt32.reduceToNat]
      omega
    simp [putVarintLoop, if_neg hlt]
  | succ fuel ih =>
    have hdiv : (n >>> 7).toNat < 2 ^ (7 * (fuel + 1)) := by
      rw [toNat_shiftRight_seven]
      have hpow : 2 ^ (7 * (fuel + 1 + 1)) = 2 ^ (7 * (fuel + 1)) * 128 := by
        rw [show 7 * (fuel + 1 + 1) = 7 * (fuel + 1) + 7 by omega, Nat.pow_add]
      omega
    rw [putVarintLoop, ih hdiv]
    rfl

/-- The writer's loop as the source has it: one octet, then the rest of the number. -/
lemma putVarint_eq :
    putVarint n =
      if 0x80 ≤ n then (n.toUInt8 ||| 0x80) :: putVarint (n >>> 7) else [n.toUInt8] := by
  have hlt : (n >>> 7).toNat < 2 ^ (7 * (3 + 1)) := by
    rw [toNat_shiftRight_seven]
    have := n.toNat_lt
    omega
  rw [putVarint, putVarintLoop, putVarint, putVarintLoop_succ hlt]

lemma length_putVarintLoop (fuel : Nat) (n : UInt32) :
    (putVarintLoop fuel n).length = varintLenLoop fuel n := by
  induction fuel generalizing n with
  | zero => rfl
  | succ fuel ih =>
    rw [putVarintLoop, varintLenLoop]
    split
    · rw [List.length_cons, ih]
    · rfl

lemma length_putVarint : (putVarint n).length = varintLen n :=
  length_putVarintLoop 4 n

end

/-- The decoder's loop with `left` of its five rounds to go. -/
def getVarintLoop (b : Bytes) : Nat → Nat → UInt32 → Except MqpError (UInt32 × Nat)
  | 0, _, _ => .error (.malformed "r2 varint too long")
  | left + 1, off, value => do
      let byte ← readByte (.malformed "truncated r2 varint") b off
      let off := off + 1
      if left = 0 then
        if byte &&& 0xF0 ≠ 0 then .error (.malformed "r2 varint overflow")
        else .ok (value ||| (byte.toUInt32 <<< 28), off)
      else
        let value := value ||| ((byte &&& 0x7F).toUInt32 <<< UInt32.ofNat (7 * (4 - left)))
        if byte &&& 0x80 = 0 then .ok (value, off) else getVarintLoop b left off value

/-- The decoder's reader of a varint. -/
def getVarint (b : Bytes) (off : Nat) : Except MqpError (UInt32 × Nat) := getVarintLoop b 5 off 0

/-- The iterator's loop with `left` of its five rounds to go. -/
def varintAtLoop (b : Bytes) : Nat → Nat → UInt32 → Option (UInt32 × Nat)
  | 0, _, _ => none
  | left + 1, off, value => do
      let byte ← b[off]?
      let off := off + 1
      if left = 0 then
        if byte &&& 0xF0 ≠ 0 then none
        else some (value ||| (byte.toUInt32 <<< 28), off)
      else
        let value := value ||| ((byte &&& 0x7F).toUInt32 <<< UInt32.ofNat (7 * (4 - left)))
        if byte &&& 0x80 = 0 then some (value, off) else varintAtLoop b left off value

/-- The iterator's reader of a varint. -/
def varintAt (b : Bytes) (off : Nat) : Option (UInt32 × Nat) := varintAtLoop b 5 off 0

/-- The octets that complete a number of which `value` is known and `left` rounds remain. -/
inductive Groups : Nat → UInt32 → Bytes → UInt32 → Prop where
  | fifth {value : UInt32} (x : UInt8) (h : x &&& 0xF0 = 0) :
      Groups 1 value [x] (value ||| (x.toUInt32 <<< 28))
  | last {left : Nat} {value : UInt32} (x : UInt8) (h : x &&& 0x80 = 0) :
      Groups (left + 2) value [x]
        (value ||| ((x &&& 0x7F).toUInt32 <<< UInt32.ofNat (7 * (4 - (left + 1)))))
  | more {left : Nat} {value v : UInt32} {s : Bytes} (x : UInt8) (h : x &&& 0x80 ≠ 0)
      (t : Groups (left + 1)
        (value ||| ((x &&& 0x7F).toUInt32 <<< UInt32.ofNat (7 * (4 - (left + 1))))) s v) :
      Groups (left + 2) value (x :: s) v

/-- The octets of a varint. The longer forms of a small number are read as well. -/
def VarintField (s : Bytes) (v : UInt32) : Prop := Groups 5 0 s v

section

variable {b s t : Bytes} {left off : Nat} {value v : UInt32}

lemma getVarintLoop_of_groups (h : Groups left value s v) (hr : Rest b off (s ++ t)) :
    getVarintLoop b left off value = .ok (v, off + s.length) := by
  induction h generalizing off with
  | fifth x hx | last x hx =>
    rw [getVarintLoop]
    simp [readByte_of_rest hr, ok_bind, hx]
  | more x hx _ ih =>
    have hr' := ih (Rest.tail hr)
    rw [getVarintLoop]
    simp only [readByte_of_rest hr, ok_bind, Nat.add_one_ne_zero, if_false, if_neg hx, hr',
      List.length_cons]
    congr 2
    omega

lemma groups_of_getVarintLoop {stop : Nat} (h : getVarintLoop b left off value = .ok (v, stop)) :
    ∃ s, Groups left value s v ∧ stop = off + s.length ∧ Rest b off (s ++ b.drop stop) := by
  induction left generalizing off value with
  | zero => simp [getVarintLoop] at h
  | succ left ih =>
    rw [getVarintLoop] at h
    obtain ⟨x, hx, h⟩ := bind_eq_ok.mp h
    have hr := rest_of_readByte hx
    cases left with
    | zero =>
      by_cases hbits : x &&& 0xF0 = 0
      · simp only [hbits, ne_eq, not_true, if_true, if_false, Except.ok.injEq, Prod.mk.injEq] at h
        obtain ⟨rfl, rfl⟩ := h
        exact ⟨[x], .fifth x hbits, rfl, hr⟩
      · simp [hbits] at h
    | succ left =>
      simp only [Nat.add_one_ne_zero, if_false] at h
      by_cases hbit : x &&& 0x80 = 0
      · simp only [if_pos hbit, Except.ok.injEq, Prod.mk.injEq] at h
        obtain ⟨rfl, rfl⟩ := h
        exact ⟨[x], .last x hbit, rfl, hr⟩
      rw [if_neg hbit] at h
      obtain ⟨s, hs, hstop, hrest⟩ := ih h
      refine ⟨x :: s, .more x hbit hs, ?_, hr.le, ?_⟩
      · rw [hstop, List.length_cons]
        omega
      · have hd := hr.drop
        rw [hrest.drop] at hd
        exact hd

/-- The iterator's loop answers as the decoder's loop does. -/
lemma varintAtLoop_eq (b : Bytes) (left off : Nat) (value : UInt32) :
    varintAtLoop b left off value = (getVarintLoop b left off value).toOption := by
  induction left generalizing off value with
  | zero => rfl
  | succ left ih =>
    rw [varintAtLoop, getVarintLoop, readByte]
    cases b[off]? with
    | none => rfl
    | some x =>
      simp only [Option.bind_eq_bind, Option.bind_some, ok_bind]
      by_cases hl : left = 0
      · simp only [if_pos hl]
        split
        · rfl
        · rfl
      simp only [if_neg hl]
      split
      · rfl
      · exact ih _ _

/-- The two readers never disagree. -/
lemma varintAt_eq (b : Bytes) (off : Nat) : varintAt b off = (getVarint b off).toOption :=
  varintAtLoop_eq b 5 off 0

/-- The decoder's reader is exact for varints. -/
lemma reads_varintField : Reads VarintField getVarint where
  accepts h hr _ := getVarintLoop_of_groups h hr
  sound h _ := groups_of_getVarintLoop h

end

lemma octet_bits (x : UInt8) :
    (x &&& 0x80 = 0 ↔ x.toNat < 128) ∧ (x.toNat < 16 → x &&& 0xF0 = 0) ∧
      (x &&& 0x7F).toNat = x.toNat % 128 ∧ (x ||| 0x80).toNat = x.toNat % 128 + 128 := by
  have h : ∀ i : Fin 256, (UInt8.ofNat i &&& 0x80 = 0 ↔ i.val < 128) ∧
      (i.val < 16 → UInt8.ofNat i &&& 0xF0 = 0) ∧ (UInt8.ofNat i &&& 0x7F).toNat = i.val % 128 ∧
      (UInt8.ofNat i ||| 0x80).toNat = i.val % 128 + 128 := by decide +kernel
  simpa using h ⟨x.toNat, x.toNat_lt⟩

/-- Seven bits are put above those that are known. -/
lemma toNat_or_shiftLeft {value m : UInt32} {k : Nat} (hk : k < 32) (hv : value.toNat < 2 ^ k)
    (hm : m.toNat * 2 ^ k < 2 ^ 32) :
    (value ||| (m <<< UInt32.ofNat k)).toNat = value.toNat + m.toNat * 2 ^ k := by
  have hshift : (UInt32.ofNat k).toNat % 32 = k := by
    rw [UInt32.toNat_ofNat']
    omega
  rw [UInt32.toNat_or, UInt32.toNat_shiftLeft, hshift, Nat.shiftLeft_eq, Nat.mod_eq_of_lt hm,
    Nat.or_comm, Nat.mul_comm, ← Nat.two_pow_add_eq_or_of_lt hv, Nat.add_comm]

lemma toNat_toUInt8_mod (n : UInt32) : n.toUInt8.toNat % 128 = n.toNat % 128 := by
  rw [UInt32.toNat_toUInt8]
  omega

/-- The writer's octets complete a number of which the bits below are known. -/
lemma groups_putVarintLoop (fuel : Nat) (value n : UInt32) (hf : fuel ≤ 4)
    (hv : value.toNat < 2 ^ (7 * (4 - fuel))) (hn : n.toNat < 2 ^ (4 + 7 * fuel)) :
    ∃ v, Groups (fuel + 1) value (putVarintLoop fuel n) v ∧
      v.toNat = value.toNat + n.toNat * 2 ^ (7 * (4 - fuel)) := by
  induction fuel generalizing value n with
  | zero =>
    have hbyte : n.toUInt8.toNat = n.toNat := by
      rw [UInt32.toNat_toUInt8]
      omega
    refine ⟨_, .fifth n.toUInt8 ((octet_bits _).2.1 (by omega)), ?_⟩
    have hword : n.toUInt8.toUInt32.toNat = n.toNat := by
      rw [UInt8.toNat_toUInt32, hbyte]
    rw [show (28 : UInt32) = UInt32.ofNat 28 from rfl,
      toNat_or_shiftLeft (by omega) hv (by rw [hword]; omega), hword]
  | succ fuel ih =>
    -- The shift of this round; all that is left of the number stands above it.
    obtain ⟨k, hk⟩ : ∃ k, k = 7 * (4 - (fuel + 1)) := ⟨_, rfl⟩
    have hk' : 7 * (4 - fuel) = k + 7 := by omega
    have hpow : 2 ^ (4 + 7 * (fuel + 1)) * 2 ^ k = 2 ^ 32 := by
      rw [← Nat.pow_add]
      congr 1
      omega
    have hfit : n.toNat * 2 ^ k < 2 ^ 32 := by
      rw [← hpow]
      exact Nat.mul_lt_mul_of_pos_right hn (Nat.two_pow_pos k)
    have hlow : n.toNat % 128 * 2 ^ k ≤ n.toNat * 2 ^ k := Nat.mul_le_mul_right _ (Nat.mod_le _ _)
    rw [← hk] at hv ⊢
    rw [putVarintLoop]
    by_cases hge : 0x80 ≤ n
    · rw [if_pos hge]
      have hbits := octet_bits (n.toUInt8 ||| 0x80)
      have hseven : ((n.toUInt8 ||| 0x80) &&& 0x7F).toUInt32.toNat = n.toNat % 128 := by
        rw [UInt8.toNat_toUInt32, hbits.2.2.1, (octet_bits n.toUInt8).2.2.2, toNat_toUInt8_mod]
        omega
      have hcont : (n.toUInt8 ||| 0x80) &&& 0x80 ≠ 0 := by
        intro h0
        have hsmall := hbits.1.mp h0
        rw [(octet_bits n.toUInt8).2.2.2] at hsmall
        omega
      have hval := toNat_or_shiftLeft (k := k)
        (m := ((n.toUInt8 ||| 0x80) &&& 0x7F).toUInt32) (by omega) hv (by rw [hseven]; omega)
      rw [hseven] at hval
      have hnext : value.toNat + n.toNat % 128 * 2 ^ k < 2 ^ (k + 7) := by
        have hmod : n.toNat % 128 * 2 ^ k ≤ 127 * 2 ^ k := Nat.mul_le_mul_right _ (by omega)
        rw [Nat.pow_add]
        omega
      have hrest : (n >>> 7).toNat < 2 ^ (4 + 7 * fuel) := by
        rw [show 4 + 7 * (fuel + 1) = 4 + 7 * fuel + 7 by omega, Nat.pow_add] at hn
        rw [toNat_shiftRight_seven]
        omega
      obtain ⟨v, hg, hvv⟩ := ih
        (value ||| (((n.toUInt8 ||| 0x80) &&& 0x7F).toUInt32 <<< UInt32.ofNat k)) (n >>> 7)
        (by omega) (by rw [hval, hk']; exact hnext) hrest
      refine ⟨v, ?_, ?_⟩
      · rw [hk] at hg
        exact .more _ hcont hg
      · rw [hvv, hval, hk', toNat_shiftRight_seven, Nat.pow_add]
        have hsplit : n.toNat * 2 ^ k = n.toNat % 128 * 2 ^ k + n.toNat / 128 * (2 ^ k * 2 ^ 7) := by
          conv_lhs => rw [← Nat.mod_add_div n.toNat 128, Nat.add_mul]
          congr 1
          rw [Nat.mul_comm 128, Nat.mul_assoc, Nat.mul_comm 128]
          rfl
        omega
    · rw [if_neg hge]
      have hsmall : n.toNat < 128 := by
        rw [UInt32.le_iff_toNat_le] at hge
        simpa using hge
      have hbyte : n.toUInt8.toNat = n.toNat := by
        rw [UInt32.toNat_toUInt8]
        omega
      have hseven : (n.toUInt8 &&& 0x7F).toUInt32.toNat = n.toNat := by
        rw [UInt8.toNat_toUInt32, (octet_bits _).2.2.1, hbyte]
        omega
      refine ⟨_, .last n.toUInt8 ((octet_bits _).1.mpr (by omega)), ?_⟩
      rw [← hk, toNat_or_shiftLeft (by omega) hv (by rw [hseven]; exact hfit), hseven]

lemma varintField_putVarint (n : UInt32) : VarintField (putVarint n) n := by
  obtain ⟨v, hg, hv⟩ := groups_putVarintLoop 4 0 n (le_refl 4) (by decide) n.toNat_lt
  have he : v = n := by
    apply UInt32.toNat_inj.mp
    simpa using hv
  rw [he] at hg
  exact hg

/-- Any number takes at most five octets. -/
lemma varintLen_le (n : UInt32) : varintLen n ≤ 5 := by
  have hloop : ∀ (fuel : Nat) (m : UInt32), varintLenLoop fuel m ≤ fuel + 1 := by
    intro fuel
    induction fuel with
    | zero =>
      intro m
      exact le_refl 1
    | succ fuel ih =>
      intro m
      have hrec := ih (m >>> 7)
      rw [varintLenLoop]
      split <;> omega
  exact hloop 4 n

/-- A written number is read back where it stands. -/
lemma getVarint_of_rest {b t : Bytes} {off : Nat} {n : UInt32}
    (h : Rest b off (putVarint n ++ t)) : getVarint b off = .ok (n, off + varintLen n) := by
  rw [← length_putVarint]
  exact getVarintLoop_of_groups (varintField_putVarint n) h

lemma rest_putVarint {b t : Bytes} {off : Nat} {n : UInt32}
    (h : Rest b off (putVarint n ++ t)) : Rest b (off + varintLen n) t := by
  rw [← length_putVarint]
  exact h.append

end MyQuic2.Rev2
