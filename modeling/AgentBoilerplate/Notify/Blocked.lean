import AgentBoilerplate.Collections.Block
import AgentBoilerplate.Notify.Address

namespace AgentBoilerplate.Notify

open Collections

def Ipv4Addr.toNat (addr : Ipv4Addr) : Nat :=
  ((addr.a.toNat * 2 ^ 8 + addr.b.toNat) * 2 ^ 8 + addr.c.toNat) * 2 ^ 8 + addr.d.toNat

def Ipv6Addr.toNat (addr : Ipv6Addr) : Nat :=
  ((((((addr.s0.toNat * 2 ^ 16 + addr.s1.toNat) * 2 ^ 16 + addr.s2.toNat) * 2 ^ 16 +
    addr.s3.toNat) * 2 ^ 16 + addr.s4.toNat) * 2 ^ 16 + addr.s5.toNat) * 2 ^ 16 +
    addr.s6.toNat) * 2 ^ 16 + addr.s7.toNat

-- The block of the addresses that begin as an address does.
def ipv4Block (a b c d : UInt8) (length : Nat)
    (h : 2 ^ (32 - length) ∣ (Ipv4Addr.mk a b c d).toNat := by decide) : Block 32 :=
  ⟨(Ipv4Addr.mk a b c d).toNat, length, h⟩

def ipv6Block (s0 : UInt16) (length : Nat)
    (h : 2 ^ (128 - length) ∣ s0.toNat * 2 ^ 112 := by decide) : Block 128 :=
  ⟨s0.toNat * 2 ^ 112, length, h⟩

-- What is not globally reachable, multicast included.
def nonGlobalIpv4 : List (Block 32) :=
  [ipv4Block 0 0 0 0 8, ipv4Block 10 0 0 0 8, ipv4Block 100 64 0 0 10, ipv4Block 127 0 0 0 8,
    ipv4Block 169 254 0 0 16, ipv4Block 172 16 0 0 12, ipv4Block 192 0 0 0 24,
    ipv4Block 192 0 2 0 24, ipv4Block 192 168 0 0 16, ipv4Block 198 18 0 0 15,
    ipv4Block 198 51 100 0 24, ipv4Block 203 0 113 0 24, ipv4Block 224 0 0 0 4,
    ipv4Block 240 0 0 0 4]

def nonGlobalIpv6 : List (Block 128) :=
  [⟨0, 128, by decide⟩, ⟨1, 128, by decide⟩, ipv6Block 0xff00 8, ipv6Block 0xfc00 7, ipv6Block 0xfe80 10]

def ipv4Mapped (addr : Ipv4Addr) : Nat := 0xffff * 2 ^ 32 + addr.toNat

def NonGlobalIpv4 (addr : Ipv4Addr) : Prop := ∃ block ∈ nonGlobalIpv4, addr.toNat ∈ block

def NonGlobal : IpAddr → Prop
  | .v4 addr => NonGlobalIpv4 addr
  | .v6 addr => (∃ block ∈ nonGlobalIpv6, addr.toNat ∈ block) ∨
      ∃ mapped, addr.toNat = ipv4Mapped mapped ∧ NonGlobalIpv4 mapped

-- The blocks that no test of `is_blocked_ip` is about, but for two addresses.
def missedIpv4 : List (Block 32) :=
  [ipv4Block 0 0 0 0 8, ipv4Block 192 0 0 0 24, ipv4Block 198 18 0 0 15, ipv4Block 240 0 0 0 4]

def MissedIpv4 (addr : Ipv4Addr) : Prop :=
  (∃ block ∈ missedIpv4, addr.toNat ∈ block) ∧ addr ≠ ⟨0, 0, 0, 0⟩ ∧ addr ≠ ⟨255, 255, 255, 255⟩

def Missed : IpAddr → Prop
  | .v4 addr => MissedIpv4 addr
  | .v6 addr => ∃ mapped, addr.toNat = ipv4Mapped mapped ∧ MissedIpv4 mapped

theorem mem_ipv4Block {a b c d : UInt8} {length : Nat}
    {h : 2 ^ (32 - length) ∣ (Ipv4Addr.mk a b c d).toNat} {n : Nat} :
    n ∈ ipv4Block a b c d length h ↔ (Ipv4Addr.mk a b c d).toNat ≤ n ∧
      n < (Ipv4Addr.mk a b c d).toNat + 2 ^ (32 - length) := Block.mem_iff

namespace Ipv4Addr

variable {addr : Ipv4Addr}

theorem eq_iff {a b c d : UInt8} :
    addr = ⟨a, b, c, d⟩ ↔ addr.toNat = (mk a b c d).toNat := by
  constructor
  · rintro rfl
    rfl
  · intro h
    obtain ⟨a', b', c', d'⟩ := addr
    have hb := b.toNat_lt
    have hc := c.toNat_lt
    have hd := d.toNat_lt
    have hb' := b'.toNat_lt
    have hc' := c'.toNat_lt
    have hd' := d'.toNat_lt
    simp only [toNat] at h
    rw [mk.injEq, ← UInt8.toNat_inj, ← UInt8.toNat_inj, ← UInt8.toNat_inj, ← UInt8.toNat_inj]
    omega

-- The tests on octets, as tests on numbers.
theorem isPrivate_iff : addr.isPrivate = true ↔ addr.toNat ∈ ipv4Block 10 0 0 0 8 ∨
    addr.toNat ∈ ipv4Block 172 16 0 0 12 ∨ addr.toNat ∈ ipv4Block 192 168 0 0 16 := by
  have hb := addr.b.toNat_lt
  have hc := addr.c.toNat_lt
  have hd := addr.d.toNat_lt
  simp only [isPrivate, mem_ipv4Block, toNat, decide_eq_true_eq, ← UInt8.toNat_inj,
    UInt8.le_iff_toNat_le, UInt8.reduceToNat]
  omega

theorem isLoopback_iff : addr.isLoopback = true ↔ addr.toNat ∈ ipv4Block 127 0 0 0 8 := by
  have hb := addr.b.toNat_lt
  have hc := addr.c.toNat_lt
  have hd := addr.d.toNat_lt
  simp only [isLoopback, mem_ipv4Block, toNat, decide_eq_true_eq, ← UInt8.toNat_inj,
    UInt8.reduceToNat]
  omega

theorem isLinkLocal_iff : addr.isLinkLocal = true ↔ addr.toNat ∈ ipv4Block 169 254 0 0 16 := by
  have hb := addr.b.toNat_lt
  have hc := addr.c.toNat_lt
  have hd := addr.d.toNat_lt
  simp only [isLinkLocal, mem_ipv4Block, toNat, decide_eq_true_eq, ← UInt8.toNat_inj,
    UInt8.reduceToNat]
  omega

theorem isDocumentation_iff : addr.isDocumentation = true ↔ addr.toNat ∈ ipv4Block 192 0 2 0 24 ∨
    addr.toNat ∈ ipv4Block 198 51 100 0 24 ∨ addr.toNat ∈ ipv4Block 203 0 113 0 24 := by
  have hb := addr.b.toNat_lt
  have hc := addr.c.toNat_lt
  have hd := addr.d.toNat_lt
  simp only [isDocumentation, mem_ipv4Block, toNat, decide_eq_true_eq, ← UInt8.toNat_inj,
    UInt8.reduceToNat]
  omega

theorem isMulticast_iff : addr.isMulticast = true ↔ addr.toNat ∈ ipv4Block 224 0 0 0 4 := by
  have hb := addr.b.toNat_lt
  have hc := addr.c.toNat_lt
  have hd := addr.d.toNat_lt
  simp only [isMulticast, mem_ipv4Block, toNat, decide_eq_true_eq, UInt8.le_iff_toNat_le,
    UInt8.reduceToNat]
  omega

theorem carrierGrade_iff : (addr.a = 100 ∧ 0x40 ≤ addr.b ∧ addr.b ≤ 0x7f) ↔
    addr.toNat ∈ ipv4Block 100 64 0 0 10 := by
  have hb := addr.b.toNat_lt
  have hc := addr.c.toNat_lt
  have hd := addr.d.toNat_lt
  simp only [mem_ipv4Block, toNat, ← UInt8.toNat_inj, UInt8.le_iff_toNat_le, UInt8.reduceToNat]
  omega

end Ipv4Addr

-- The blocks that are tested.
def testedIpv4 : List (Block 32) :=
  [ipv4Block 10 0 0 0 8, ipv4Block 172 16 0 0 12, ipv4Block 192 168 0 0 16, ipv4Block 127 0 0 0 8,
    ipv4Block 169 254 0 0 16, ipv4Block 192 0 2 0 24, ipv4Block 198 51 100 0 24,
    ipv4Block 203 0 113 0 24, ipv4Block 224 0 0 0 4, ipv4Block 100 64 0 0 10]

theorem blocked_iff_tested (addr : Ipv4Addr) :
    isBlockedIpv4 addr = true ↔ (∃ block ∈ testedIpv4, addr.toNat ∈ block) ∨
      addr = ⟨0, 0, 0, 0⟩ ∨ addr = ⟨255, 255, 255, 255⟩ := by
  simp only [isBlockedIpv4, Ipv4Addr.isBroadcast, Ipv4Addr.isUnspecified, decide_eq_true_eq,
    Ipv4Addr.isPrivate_iff, Ipv4Addr.isLoopback_iff, Ipv4Addr.isLinkLocal_iff,
    Ipv4Addr.isDocumentation_iff, Ipv4Addr.isMulticast_iff, Ipv4Addr.carrierGrade_iff, testedIpv4,
    List.exists_mem_cons_iff, List.not_mem_nil, false_and, exists_false, or_false]
  grind

theorem nonGlobal_perm : nonGlobalIpv4.Perm (testedIpv4 ++ missedIpv4) := by
  decide

theorem nonGlobal_iff (addr : Ipv4Addr) :
    NonGlobalIpv4 addr ↔ (∃ block ∈ testedIpv4, addr.toNat ∈ block) ∨
      ∃ block ∈ missedIpv4, addr.toNat ∈ block := by
  simp only [NonGlobalIpv4, nonGlobal_perm.mem_iff, List.mem_append, or_and_right, exists_or]

theorem tested_disjoint {n : Nat} (htested : ∃ block ∈ testedIpv4, n ∈ block) :
    ¬ ∃ block ∈ missedIpv4, n ∈ block := by
  simp only [testedIpv4, missedIpv4, List.exists_mem_cons_iff, List.not_mem_nil, false_and,
    exists_false, or_false, mem_ipv4Block, Ipv4Addr.toNat, UInt8.reduceToNat] at htested ⊢
  omega

theorem isBlockedIpv4_iff (addr : Ipv4Addr) :
    isBlockedIpv4 addr = true ↔ NonGlobalIpv4 addr ∧ ¬ MissedIpv4 addr := by
  have hdisjoint := @tested_disjoint addr.toNat
  have hzero : addr = ⟨0, 0, 0, 0⟩ → ∃ block ∈ missedIpv4, addr.toNat ∈ block := by
    rintro rfl
    decide
  have hbroadcast : addr = ⟨255, 255, 255, 255⟩ → ∃ block ∈ missedIpv4, addr.toNat ∈ block := by
    rintro rfl
    decide
  rw [blocked_iff_tested, nonGlobal_iff, MissedIpv4]
  constructor
  · rintro (htested | heq | heq)
    · exact ⟨Or.inl htested, fun hmissed => hdisjoint htested hmissed.1⟩
    · exact ⟨Or.inr (hzero heq), fun hmissed => hmissed.2.1 heq⟩
    · exact ⟨Or.inr (hbroadcast heq), fun hmissed => hmissed.2.2 heq⟩
  · rintro ⟨htested | hblock, hmissed⟩
    · exact Or.inl htested
    · by_contra hnone
      push Not at hnone
      exact hmissed ⟨hblock, hnone.2⟩

theorem mem_ipv6Block {s0 : UInt16} {length : Nat} {h : 2 ^ (128 - length) ∣ s0.toNat * 2 ^ 112}
    {n : Nat} : n ∈ ipv6Block s0 length h ↔ s0.toNat * 2 ^ 112 ≤ n ∧
      n < s0.toNat * 2 ^ 112 + 2 ^ (128 - length) := Block.mem_iff

-- A masked segment, as a test on the number.
theorem segment_mask {segment mask base : UInt16} {length : Nat} (hlength : length ≤ 16)
    (hmask : mask.toNat = 2 ^ 16 - 2 ^ (16 - length)) (haligned : 2 ^ (16 - length) ∣ base.toNat) :
    segment &&& mask = base ↔
      base.toNat ≤ segment.toNat ∧ segment.toNat < base.toNat + 2 ^ (16 - length) := by
  have hblock := @Block.land_mask_iff 16 ⟨base.toNat, length, haligned⟩ segment.toNat
    segment.toNat_lt hlength
  rw [Block.mem_iff] at hblock
  rw [← UInt16.toNat_inj, UInt16.toNat_and, hmask]
  exact hblock

namespace Ipv6Addr

variable {addr : Ipv6Addr}

-- The bounds that `omega` needs of an address.
theorem segments_lt (addr : Ipv6Addr) :
    addr.s1.toNat < 2 ^ 16 ∧ addr.s2.toNat < 2 ^ 16 ∧ addr.s3.toNat < 2 ^ 16 ∧
      addr.s4.toNat < 2 ^ 16 ∧ addr.s5.toNat < 2 ^ 16 ∧ addr.s6.toNat < 2 ^ 16 ∧
        addr.s7.toNat < 2 ^ 16 :=
  ⟨addr.s1.toNat_lt, addr.s2.toNat_lt, addr.s3.toNat_lt, addr.s4.toNat_lt, addr.s5.toNat_lt,
    addr.s6.toNat_lt, addr.s7.toNat_lt⟩

theorem isUnspecified_iff : addr.isUnspecified = true ↔ addr.toNat = 0 := by
  rw [isUnspecified, decide_eq_true_eq]
  constructor
  · rintro rfl
    rfl
  · intro h
    obtain ⟨s0, s1, s2, s3, s4, s5, s6, s7⟩ := addr
    simp only [toNat] at h
    simp only [mk.injEq, ← UInt16.toNat_inj, UInt16.reduceToNat]
    omega

theorem isLoopback_iff : addr.isLoopback = true ↔ addr.toNat = 1 := by
  rw [isLoopback, decide_eq_true_eq]
  constructor
  · rintro rfl
    rfl
  · intro h
    obtain ⟨s0, s1, s2, s3, s4, s5, s6, s7⟩ := addr
    simp only [toNat] at h
    simp only [mk.injEq, ← UInt16.toNat_inj, UInt16.reduceToNat]
    omega

theorem isMulticast_iff : addr.isMulticast = true ↔ addr.toNat ∈ ipv6Block 0xff00 8 := by
  have hsegments := addr.segments_lt
  have hmask : addr.s0 &&& 0xff00 = 0xff00 ↔ _ :=
    @segment_mask addr.s0 0xff00 0xff00 8 (by decide) (by decide) (by decide)
  refine decide_eq_true_iff.trans (hmask.trans (Iff.trans ?_ mem_ipv6Block.symm))
  simp only [toNat, UInt16.reduceToNat]
  omega

theorem uniqueLocal_iff : addr.s0 &&& 0xfe00 = 0xfc00 ↔ addr.toNat ∈ ipv6Block 0xfc00 7 := by
  have hsegments := addr.segments_lt
  have hmask : addr.s0 &&& 0xfe00 = 0xfc00 ↔ _ :=
    @segment_mask addr.s0 0xfe00 0xfc00 7 (by decide) (by decide) (by decide)
  refine hmask.trans (Iff.trans ?_ mem_ipv6Block.symm)
  simp only [toNat, UInt16.reduceToNat]
  omega

theorem linkLocal_iff : addr.s0 &&& 0xffc0 = 0xfe80 ↔ addr.toNat ∈ ipv6Block 0xfe80 10 := by
  have hsegments := addr.segments_lt
  have hmask : addr.s0 &&& 0xffc0 = 0xfe80 ↔ _ :=
    @segment_mask addr.s0 0xffc0 0xfe80 10 (by decide) (by decide) (by decide)
  refine hmask.trans (Iff.trans ?_ mem_ipv6Block.symm)
  simp only [toNat, UInt16.reduceToNat]
  omega

theorem toIpv4Mapped_eq_some {mapped : Ipv4Addr} :
    addr.toIpv4Mapped = some mapped ↔ addr.toNat = ipv4Mapped mapped := by
  have hsegments := addr.segments_lt
  obtain ⟨s0, s1, s2, s3, s4, s5, s6, s7⟩ := addr
  obtain ⟨a, b, c, d⟩ := mapped
  dsimp only at hsegments
  have ha := a.toNat_lt
  have hb := b.toNat_lt
  have hc := c.toNat_lt
  have hd := d.toNat_lt
  simp only [toIpv4Mapped, Option.ite_none_right_eq_some, Option.some.injEq, Ipv4Addr.mk.injEq,
    ← UInt8.toNat_inj, ← UInt16.toNat_inj, UInt16.toNat_toUInt8, UInt16.toNat_shiftRight,
    UInt16.reduceToNat, toNat, ipv4Mapped, Ipv4Addr.toNat, Nat.shiftRight_eq_div_pow,
    Nat.reducePow, Nat.reduceMod]
  omega

end Ipv6Addr

theorem tested_ipv6 (addr : Ipv6Addr) : (∃ block ∈ nonGlobalIpv6, addr.toNat ∈ block) ↔
    addr.isLoopback = true ∨ addr.isUnspecified = true ∨ addr.isMulticast = true ∨
      addr.s0 &&& 0xfe00 = 0xfc00 ∨ addr.s0 &&& 0xffc0 = 0xfe80 := by
  have hzero : ∀ n : Nat, n ∈ (⟨0, 128, by decide⟩ : Block 128) ↔ n = 0 := by
    intro n
    rw [Block.mem_iff]
    simp only [Block.size]
    omega
  have hone : ∀ n : Nat, n ∈ (⟨1, 128, by decide⟩ : Block 128) ↔ n = 1 := by
    intro n
    rw [Block.mem_iff]
    simp only [Block.size]
    omega
  simp only [nonGlobalIpv6, List.exists_mem_cons_iff, List.not_mem_nil, false_and, exists_false,
    or_false, hzero, hone, Ipv6Addr.isLoopback_iff, Ipv6Addr.isUnspecified_iff,
    Ipv6Addr.isMulticast_iff, Ipv6Addr.uniqueLocal_iff, Ipv6Addr.linkLocal_iff]
  exact or_left_comm

-- No address of these blocks is a mapped one.
theorem unmapped {addr : Ipv6Addr} (h : ∃ block ∈ nonGlobalIpv6, addr.toNat ∈ block)
    (mapped : Ipv4Addr) : addr.toNat ≠ ipv4Mapped mapped := by
  have ha := mapped.a.toNat_lt
  have hb := mapped.b.toNat_lt
  have hc := mapped.c.toNat_lt
  have hd := mapped.d.toNat_lt
  simp only [nonGlobalIpv6, List.exists_mem_cons_iff, List.not_mem_nil, false_and, exists_false,
    or_false, ipv6Block, Block.mem_iff, Block.size, UInt16.reduceToNat] at h
  simp only [ipv4Mapped, Ipv4Addr.toNat]
  omega

-- What is blocked is exactly what is not global and not missed.
theorem isBlockedIp_iff (addr : IpAddr) :
    isBlockedIp addr = true ↔ NonGlobal addr ∧ ¬ Missed addr := by
  cases addr with
  | v4 addr => exact isBlockedIpv4_iff addr
  | v6 addr =>
      have hblocked : isBlockedIp (.v6 addr) = true ↔
          (∃ block ∈ nonGlobalIpv6, addr.toNat ∈ block) ∨ addr.toIpv4Mapped.any isBlockedIpv4 = true := by
        rw [tested_ipv6, isBlockedIp, decide_eq_true_eq]
        grind
      rw [hblocked]
      by_cases hmapped : ∃ mapped, addr.toNat = ipv4Mapped mapped
      · obtain ⟨mapped, heq⟩ := hmapped
        have hmap := Ipv6Addr.toIpv4Mapped_eq_some.mpr heq
        have honly : ∀ other, addr.toNat = ipv4Mapped other → other = mapped := by
          intro other hother
          have hsome := Ipv6Addr.toIpv4Mapped_eq_some.mpr hother
          exact Option.some.inj (hsome.symm.trans hmap)
        have hnone : ¬ ∃ block ∈ nonGlobalIpv6, addr.toNat ∈ block := fun h => unmapped h mapped heq
        rw [hmap, Option.any_some, isBlockedIpv4_iff]
        constructor
        · rintro (hblock | ⟨hglobal, hmissed⟩)
          · exact absurd hblock hnone
          · refine ⟨Or.inr ⟨mapped, heq, hglobal⟩, ?_⟩
            rintro ⟨other, hother, hmiss⟩
            exact hmissed (honly other hother ▸ hmiss)
        · rintro ⟨hblock | ⟨other, hother, hglobal⟩, hmissed⟩
          · exact absurd hblock hnone
          · exact Or.inr ⟨honly other hother ▸ hglobal, fun hmiss => hmissed ⟨mapped, heq, hmiss⟩⟩
      · have hmap : addr.toIpv4Mapped = none :=
          Option.eq_none_iff_forall_ne_some.mpr fun mapped hsome =>
            hmapped ⟨mapped, Ipv6Addr.toIpv4Mapped_eq_some.mp hsome⟩
        rw [hmap, Option.any_none]
        constructor
        · rintro (hblock | hfalse)
          · exact ⟨Or.inl hblock, fun ⟨mapped, heq, _⟩ => hmapped ⟨mapped, heq⟩⟩
          · cases hfalse
        · rintro ⟨hblock | ⟨mapped, heq, -⟩, -⟩
          · exact Or.inl hblock
          · exact absurd ⟨mapped, heq⟩ hmapped

theorem MissedIpv4.nonGlobal {addr : Ipv4Addr} (h : MissedIpv4 addr) : NonGlobalIpv4 addr :=
  (nonGlobal_iff addr).mpr (Or.inr h.1)

-- An address that is not globally reachable is blocked, but for the missed blocks.
theorem blocked_iff_not_missed (addr : IpAddr) :
    (NonGlobal addr → isBlockedIp addr = true) ↔ ¬ Missed addr := by
  have hglobal : Missed addr → NonGlobal addr := by
    cases addr with
    | v4 addr => exact MissedIpv4.nonGlobal
    | v6 addr => exact fun ⟨mapped, heq, hmissed⟩ => Or.inr ⟨mapped, heq, hmissed.nonGlobal⟩
  rw [isBlockedIp_iff]
  constructor
  · exact fun h hmissed => (h (hglobal hmissed)).2 hmissed
  · exact fun hmissed hnonGlobal => ⟨hnonGlobal, hmissed⟩

-- An address for benchmarks, as such and mapped, and one that is reserved.
theorem reserved_not_blocked :
    NonGlobal (.v4 ⟨198, 18, 0, 1⟩) ∧ isBlockedIp (.v4 ⟨198, 18, 0, 1⟩) = false ∧
      NonGlobal (.v6 ⟨0, 0, 0, 0, 0, 0xffff, 0xc612, 1⟩) ∧
        isBlockedIp (.v6 ⟨0, 0, 0, 0, 0, 0xffff, 0xc612, 1⟩) = false ∧
          NonGlobal (.v4 ⟨240, 0, 0, 1⟩) ∧ isBlockedIp (.v4 ⟨240, 0, 0, 1⟩) = false := by
  have hbenchmark : NonGlobalIpv4 ⟨198, 18, 0, 1⟩ := ⟨ipv4Block 198 18 0 0 15, by decide, by decide⟩
  have hreserved : NonGlobalIpv4 ⟨240, 0, 0, 1⟩ := ⟨ipv4Block 240 0 0 0 4, by decide, by decide⟩
  exact ⟨hbenchmark, by decide, Or.inr ⟨⟨198, 18, 0, 1⟩, by decide, hbenchmark⟩, by decide,
    hreserved, by decide⟩

end AgentBoilerplate.Notify
