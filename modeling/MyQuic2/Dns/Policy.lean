import MyQuic2.Core.Cidr
import MyQuic2.Net.Addr

/-!
# Egress policy: which addresses are globally routable

The verdict scans one prefix table per address family. Forms of the 128-bit
space that embed a 32-bit address are judged by the embedded address before the
table is consulted. The reserved region below `2000::/3` is meant to be denied
as blocks; the second block is entered with sixteen fixed bits where eight would
close the region.
-/

namespace MyQuic2

open Ipv6Addr

/-- A 32-bit prefix entry; a prefix length above the width does not elaborate. -/
def v4Net (a b c d : UInt8) (len : Nat) (h : len ≤ 32 := by decide) : Cidr 32 :=
  ⟨(Ipv4Addr.new a b c d).bits, len, h⟩

/-- A 128-bit prefix entry; a prefix length above the width does not elaborate. -/
def v6Net (a : Ipv6Addr) (len : Nat) (h : len ≤ 128 := by decide) : Cidr 128 := ⟨a.bits, len, h⟩

/-- Non-globally-routable 32-bit space. -/
def nonGlobalV4 : List (Cidr 32) :=
  [ v4Net 0 0 0 0 8, v4Net 10 0 0 0 8, v4Net 100 64 0 0 10,
    v4Net 127 0 0 0 8, v4Net 169 254 0 0 16,
    v4Net 172 16 0 0 12, v4Net 192 0 0 0 24,
    v4Net 192 0 2 0 24, v4Net 192 88 99 0 24,
    v4Net 192 168 0 0 16, v4Net 192 175 48 0 24,
    v4Net 192 31 196 0 24, v4Net 192 52 193 0 24,
    v4Net 198 18 0 0 15, v4Net 198 51 100 0 24,
    v4Net 203 0 113 0 24, v4Net 224 0 0 0 4,
    v4Net 240 0 0 0 4 ]

/-- The entries meant to cover everything below `2000::/3`. -/
def reservedBelow2000 : List (Cidr 128) :=
  [ v6Net (.new 0 0 0 0 0 0 0 0) 8, v6Net (.new 0x0100 0 0 0 0 0 0 0) 16,
    v6Net (.new 0x0200 0 0 0 0 0 0 0) 7,
    v6Net (.new 0x0400 0 0 0 0 0 0 0) 6,
    v6Net (.new 0x0800 0 0 0 0 0 0 0) 5,
    v6Net (.new 0x1000 0 0 0 0 0 0 0) 4 ]

/-- The special-purpose registrations inside and above `2000::/3`, and the NAT64 block. -/
def specialPurposeV6 : List (Cidr 128) :=
  [ v6Net (.new 0x2001 0 0 0 0 0 0 0) 23,
    v6Net (.new 0x2001 0x0001 0 0 0 0 0 1) 128,
    v6Net (.new 0x2001 0x0001 0 0 0 0 0 2) 128,
    v6Net (.new 0x2001 0x0001 0 0 0 0 0 3) 128,
    v6Net (.new 0x2001 0x0002 0 0 0 0 0 0) 48,
    v6Net (.new 0x2001 0x0003 0 0 0 0 0 0) 32,
    v6Net (.new 0x2001 0x0004 0x0112 0 0 0 0 0) 48,
    v6Net (.new 0x2001 0x0010 0 0 0 0 0 0) 28,
    v6Net (.new 0x2001 0x0020 0 0 0 0 0 0) 28,
    v6Net (.new 0x2001 0x0030 0 0 0 0 0 0) 28,
    v6Net (.new 0x2001 0x0db8 0 0 0 0 0 0) 32,
    v6Net (.new 0x2002 0 0 0 0 0 0 0) 16,
    v6Net (.new 0x2620 0x004f 0x8000 0 0 0 0 0) 48,
    v6Net (.new 0x3fff 0 0 0 0 0 0 0) 20,
    v6Net (.new 0x5f00 0 0 0 0 0 0 0) 16,
    v6Net (.new 0x0064 0xff9b 0 0 0 0 0 0) 32,
    v6Net (.new 0xfc00 0 0 0 0 0 0 0) 7,
    v6Net (.new 0xfe00 0 0 0 0 0 0 0) 9,
    v6Net (.new 0xfe80 0 0 0 0 0 0 0) 10,
    v6Net (.new 0xfec0 0 0 0 0 0 0 0) 10,
    v6Net (.new 0xff00 0 0 0 0 0 0 0) 8 ]

/-- Non-globally-routable 128-bit space. -/
def nonGlobalV6 : List (Cidr 128) := reservedBelow2000 ++ specialPurposeV6

/-- The 32-bit address in segments 6 and 7. -/
def embeddedV4 (a : Ipv6Addr) : Ipv4Addr := ⟨a.segment 6 ++ a.segment 7⟩

/-- The segments `lo..hi` are all zero. -/
def zeroSegments (a : Ipv6Addr) (lo hi : Nat) : Bool :=
  (List.range' lo (hi - lo)).all fun i => a.segment i == 0

/-- The verdict on a 32-bit address: one scan of its table. -/
def isGlobalV4 (a : Ipv4Addr) : Bool := !nonGlobalV4.any fun net => net.contains a.bits

/-- True for globally routable targets. The recursion of the source on an embedded
address always lands in the 32-bit case. -/
def isGlobalIp : IpAddr → Bool
  | .v4 a => isGlobalV4 a
  | .v6 a =>
    match a.toIpv4Mapped with
    | some mapped => isGlobalV4 mapped
    | none =>
      if zeroSegments a 0 4 && a.segment 4 == 0xffff && a.segment 5 == 0 then
        isGlobalV4 (embeddedV4 a)
      else if a.segment 0 == 0x0064 && a.segment 1 == 0xff9b && zeroSegments a 2 6 then
        isGlobalV4 (embeddedV4 a)
      else if zeroSegments a 0 6 then isGlobalV4 (embeddedV4 a)
      else !nonGlobalV6.any fun net => net.contains a.bits

/-- Strip the mapped form so that replies carry a dialable address. -/
def unmap : IpAddr → IpAddr
  | .v6 a => (a.toIpv4Mapped.map .v4).getD (.v6 a)
  | .v4 a => .v4 a

/-- The forms of the 128-bit space that are judged by an embedded 32-bit address. -/
inductive EmbedForm where
  /-- `::ffff:a.b.c.d`. -/
  | mapped
  /-- `::ffff:0:a.b.c.d`. -/
  | translated
  /-- `64:ff9b::a.b.c.d`. -/
  | nat64
  /-- `::a.b.c.d`. -/
  | compatible

/-- The 96 bits in front of the embedded address. -/
def EmbedForm.high : EmbedForm → BitVec 96
  | .mapped => 0xffff
  | .translated => 0xffff0000
  | .nat64 => 0x0064ff9b0000000000000000
  | .compatible => 0

/-- The address that embeds `v` in the given form. -/
def EmbedForm.embed (form : EmbedForm) (v : Ipv4Addr) : Ipv6Addr := ⟨form.high ++ v.bits⟩

open EmbedForm

/-- Map a 32-bit endpoint for sending through a dual-stack socket. -/
def mapForDual : SocketAddr → SocketAddr
  | .v4 a p => SocketAddr.new (.v6 (mapped.embed a)) p
  | s => s

/-- The address is one of the recognised embedding forms. -/
def Embeds (a : Ipv6Addr) : Prop := ∃ (form : EmbedForm) (v : Ipv4Addr), form.embed v = a

lemma EmbedForm.toNat_embed (form : EmbedForm) (v : Ipv4Addr) :
    (form.embed v).bits.toNat = form.high.toNat * 2 ^ 32 + v.bits.toNat := by
  rw [embed, BitVec.toNat_append, ← Nat.shiftLeft_add_eq_or_of_lt v.bits.isLt, Nat.shiftLeft_eq]

lemma toNat_embeddedV4 (a : Ipv6Addr) : (embeddedV4 a).bits.toNat = a.bits.toNat % 2 ^ 32 := by
  have hlow := (a.segment 7).isLt
  rw [embeddedV4, BitVec.toNat_append, ← Nat.shiftLeft_add_eq_or_of_lt hlow, Nat.shiftLeft_eq,
    toNat_segment, toNat_segment]
  omega

/-- An address embeds exactly when its upper 96 bits are those of a form. -/
lemma embeds_iff (a : Ipv6Addr) :
    Embeds a ↔ ∃ form : EmbedForm, a.bits.toNat / 2 ^ 32 = form.high.toNat := by
  constructor
  · rintro ⟨form, v, rfl⟩
    exact ⟨form, by rw [form.toNat_embed]; omega⟩
  · rintro ⟨form, h⟩
    refine ⟨form, embeddedV4 a, ?_⟩
    have he : (form.embed (embeddedV4 a)).bits = a.bits := by
      apply BitVec.eq_of_toNat_eq
      rw [form.toNat_embed, toNat_embeddedV4, ← h]
      omega
    exact congrArg mk he

variable {a : Ipv6Addr}

/-- The three segment tests of the verdict, and the mapped test, as tests of the upper bits. -/
lemma translated_iff :
    (zeroSegments a 0 4 && a.segment 4 == 0xffff && a.segment 5 == 0) = true ↔
      a.bits.toNat / 2 ^ 32 = translated.high.toNat := by
  simp only [zeroSegments, Nat.sub_zero, List.range', List.all_cons, List.all_nil, Bool.and_true,
    Bool.and_eq_true, beq_iff_eq, ← BitVec.toNat_inj, toNat_segment,
    show translated.high.toNat = 0xffff0000 from rfl,
    show BitVec.toNat (0 : BitVec 16) = 0 from rfl,
    show BitVec.toNat (0xffff : BitVec 16) = 0xffff from rfl]
  omega

lemma nat64_iff :
    (a.segment 0 == 0x0064 && a.segment 1 == 0xff9b && zeroSegments a 2 6) = true ↔
      a.bits.toNat / 2 ^ 32 = nat64.high.toNat := by
  simp only [zeroSegments, Nat.reduceSub, List.range', List.all_cons, List.all_nil, Bool.and_true,
    Bool.and_eq_true, beq_iff_eq, ← BitVec.toNat_inj, toNat_segment,
    show nat64.high.toNat = 0x0064ff9b0000000000000000 from rfl,
    show BitVec.toNat (0 : BitVec 16) = 0 from rfl,
    show BitVec.toNat (0x0064 : BitVec 16) = 0x0064 from rfl,
    show BitVec.toNat (0xff9b : BitVec 16) = 0xff9b from rfl]
  omega

lemma compatible_iff :
    zeroSegments a 0 6 = true ↔ a.bits.toNat / 2 ^ 32 = compatible.high.toNat := by
  simp only [zeroSegments, Nat.sub_zero, List.range', List.all_cons, List.all_nil, Bool.and_true,
    Bool.and_eq_true, beq_iff_eq, ← BitVec.toNat_inj, toNat_segment,
    show compatible.high.toNat = 0 from rfl,
    show BitVec.toNat (0 : BitVec 16) = 0 from rfl]
  omega

lemma mapped_iff : a.bits >>> 32 = 0xffff ↔ a.bits.toNat / 2 ^ 32 = mapped.high.toNat := by
  rw [← BitVec.toNat_inj, BitVec.toNat_ushiftRight, Nat.shiftRight_eq_div_pow]
  rfl

/-- An embedding form is judged by its embedded address, whichever test recognises it. -/
lemma isGlobalIp_of_high (form : EmbedForm) (h : a.bits.toNat / 2 ^ 32 = form.high.toNat) :
    isGlobalIp (.v6 a) = isGlobalV4 (embeddedV4 a) := by
  by_cases hm : a.bits >>> 32 = 0xffff
  · -- The mapped test answers with the truncated bits, the others with segments 6 and 7.
    have he : (⟨a.bits.setWidth 32⟩ : Ipv4Addr) = embeddedV4 a := by
      apply congrArg Ipv4Addr.mk
      apply BitVec.eq_of_toNat_eq
      exact (toNat_embeddedV4 a).symm
    simp only [isGlobalIp, toIpv4Mapped, if_pos hm, he]
  have hone : (zeroSegments a 0 4 && a.segment 4 == 0xffff && a.segment 5 == 0) = true ∨
      (a.segment 0 == 0x0064 && a.segment 1 == 0xff9b && zeroSegments a 2 6) = true ∨
      zeroSegments a 0 6 = true := by
    cases form with
    | mapped => exact absurd ((mapped_iff).mpr h) hm
    | translated => exact Or.inl ((translated_iff).mpr h)
    | nat64 => exact Or.inr (Or.inl ((nat64_iff).mpr h))
    | compatible => exact Or.inr (Or.inr ((compatible_iff).mpr h))
  simp only [isGlobalIp, toIpv4Mapped, if_neg hm]
  split_ifs with h1 h2 h3
  · rfl
  · rfl
  · rfl
  · rcases hone with h | h | h
    · exact absurd h h1
    · exact absurd h h2
    · exact absurd h h3

/-- The verdict on every embedding address is the verdict on the embedded one. -/
lemma isGlobalIp_embed (form : EmbedForm) (v : Ipv4Addr) :
    isGlobalIp (.v6 (form.embed v)) = isGlobalIp (.v4 v) := by
  have hn := form.toNat_embed v
  have hlow : embeddedV4 (form.embed v) = v := by
    apply congrArg Ipv4Addr.mk
    apply BitVec.eq_of_toNat_eq
    have he := toNat_embeddedV4 (form.embed v)
    simp only [embeddedV4] at he
    omega
  rw [isGlobalIp_of_high form (by rw [hn]; omega), hlow, isGlobalIp]

/-- Every other address is judged by the table alone. -/
lemma isGlobalIp_of_not_embeds (h : ¬ Embeds a) :
    isGlobalIp (.v6 a) = !nonGlobalV6.any fun net => net.contains a.bits := by
  have hforms : ∀ form : EmbedForm, a.bits.toNat / 2 ^ 32 ≠ form.high.toNat :=
    fun form he => h ((embeds_iff a).mpr ⟨form, he⟩)
  simp only [isGlobalIp, toIpv4Mapped, if_neg (mt (mapped_iff).mp (hforms .mapped)),
    if_neg (mt (translated_iff).mp (hforms .translated)),
    if_neg (mt (nat64_iff).mp (hforms .nat64)),
    if_neg (mt (compatible_iff).mp (hforms .compatible))]

lemma v6Net_contains_iff (len : Nat) (h : len ≤ 128) (b : BitVec 128) :
    (v6Net a len h).contains b = true ↔
      b.toNat / 2 ^ (128 - len) = a.bits.toNat / 2 ^ (128 - len) :=
  Cidr.contains_iff _ _

/-- The reserved entries leave out exactly the segments `0101..=01ff`. -/
lemma reservedBelow2000_any (h : a.bits.toNat / 2 ^ 112 < 0x2000) :
    (reservedBelow2000.any fun net => net.contains a.bits) = true ↔
      ¬ (0x0101 ≤ a.bits.toNat / 2 ^ 112 ∧ a.bits.toNat / 2 ^ 112 ≤ 0x01ff) := by
  simp only [reservedBelow2000, List.any_cons, List.any_nil, Bool.or_false, Bool.or_eq_true,
    v6Net_contains_iff, new, BitVec.toNat_append]
  simp only [BitVec.ofNat_eq_ofNat, BitVec.toNat_ofNat, Nat.reduceSub, Nat.reducePow,
    Nat.reduceMod, Nat.reduceShiftLeft, Nat.reduceOr, Nat.reduceDiv]
  omega

lemma specialPurposeV6_any (hlo : 0x0101 ≤ a.bits.toNat / 2 ^ 112)
    (hhi : a.bits.toNat / 2 ^ 112 ≤ 0x01ff) :
    (specialPurposeV6.any fun net => net.contains a.bits) = false := by
  rw [← Bool.not_eq_true]
  simp only [specialPurposeV6, List.any_cons, List.any_nil, Bool.or_false, Bool.or_eq_true,
    v6Net_contains_iff, new, BitVec.toNat_append]
  simp only [BitVec.ofNat_eq_ofNat, BitVec.toNat_ofNat, Nat.reduceSub, Nat.reducePow,
    Nat.reduceMod, Nat.reduceShiftLeft, Nat.reduceOr, Nat.reduceDiv]
  omega

lemma toNat_segment_zero (a : Ipv6Addr) : (a.segment 0).toNat = a.bits.toNat / 2 ^ 112 := by
  rw [toNat_segment]
  omega

/-- A first segment from `0101` on is the start of none of the four forms. -/
lemma not_embeds_of_gap (a : Ipv6Addr) (hlo : 0x0101 ≤ a.segment 0) : ¬ Embeds a := by
  rw [embeds_iff]
  rintro ⟨form, h⟩
  have hs := toNat_segment_zero a
  have hn : 0x0101 ≤ a.bits.toNat / 2 ^ 112 := by
    rw [← hs]
    exact BitVec.le_def.mp hlo
  have hhigh : form.high.toNat ≤ 0x0064ff9b0000000000000000 := by
    cases form <;> decide
  omega

/-- Below `2000::/3`, an address that embeds nothing is global exactly in the gap. -/
lemma isGlobalIp_below_2000 (a : Ipv6Addr) (h : a.segment 0 < 0x2000) (he : ¬ Embeds a) :
    isGlobalIp (.v6 a) = true ↔ 0x0101 ≤ a.segment 0 ∧ a.segment 0 ≤ 0x01ff := by
  have hs := toNat_segment_zero a
  have hlt : a.bits.toNat / 2 ^ 112 < 0x2000 := by
    rw [← hs]
    exact BitVec.lt_def.mp h
  have hgap : 0x0101 ≤ a.segment 0 ∧ a.segment 0 ≤ 0x01ff ↔
      0x0101 ≤ a.bits.toNat / 2 ^ 112 ∧ a.bits.toNat / 2 ^ 112 ≤ 0x01ff := by
    rw [BitVec.le_def, BitVec.le_def, hs]
    exact Iff.rfl
  rw [hgap, isGlobalIp_of_not_embeds he, nonGlobalV6, List.any_append, Bool.not_eq_true']
  constructor
  · intro hnone
    have hreserved := (Bool.or_eq_false_iff.mp hnone).1
    by_contra hout
    rw [(reservedBelow2000_any hlt).mpr hout] at hreserved
    exact Bool.noConfusion hreserved
  · rintro ⟨hlo, hhi⟩
    have hreserved : (reservedBelow2000.any fun net => net.contains a.bits) = false := by
      rw [← Bool.not_eq_true, reservedBelow2000_any hlt]
      exact not_not_intro ⟨hlo, hhi⟩
    rw [hreserved, specialPurposeV6_any hlo hhi]
    rfl

/-- The reserved region is denied, and every embedding form has the verdict of the address
it embeds, exactly when the first segment is outside `0101..=01ff`. -/
theorem isGlobalIp_reserved_iff (a : Ipv6Addr) (form : EmbedForm) (v : Ipv4Addr) :
    ((a.segment 0 < 0x2000 → ¬ Embeds a → isGlobalIp (.v6 a) = false) ∧
      isGlobalIp (.v6 (form.embed v)) = isGlobalIp (.v4 v)) ↔
        ¬ (0x0101 ≤ a.segment 0 ∧ a.segment 0 ≤ 0x01ff) := by
  constructor
  · rintro ⟨hdenied, _⟩ ⟨hlo, hhi⟩
    have hlt : a.segment 0 < 0x2000 :=
      Nat.lt_of_le_of_lt (BitVec.le_def.mp hhi) (show (0x01ff : BitVec 16).toNat < 0x2000 by decide)
    have hglobal := (isGlobalIp_below_2000 a hlt (not_embeds_of_gap a hlo)).mpr ⟨hlo, hhi⟩
    rw [hdenied hlt (not_embeds_of_gap a hlo)] at hglobal
    exact Bool.noConfusion hglobal
  · intro hout
    refine ⟨fun hlt he => ?_, isGlobalIp_embed form v⟩
    rw [← Bool.not_eq_true]
    exact fun hglobal => hout ((isGlobalIp_below_2000 a hlt he).mp hglobal)

/-- `101::1` lies in the reserved region, embeds no 32-bit address and is answered global. -/
theorem isGlobalIp_gap_101 :
    (new 0x0101 0 0 0 0 0 0 1).segment 0 < 0x2000 ∧
      ¬ Embeds (new 0x0101 0 0 0 0 0 0 1) ∧ isGlobalIp (.v6 (new 0x0101 0 0 0 0 0 0 1)) = true := by
  exact ⟨by decide, not_embeds_of_gap _ (by decide), by decide⟩

end MyQuic2
