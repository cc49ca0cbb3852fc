import Cirrusync.Address
import Cirrusync.Net.Block

/-!
The filter of addresses that may be published as a list of blocks. An octet or
a segment is a quotient of the numeric address, and so is membership in a block.
-/

namespace Cirrusync

/-- The number of an IPv4 address in dotted notation. -/
def dotted (a b c d : Nat) : BitVec 32 := BitVec.ofNat 32 (((a * 256 + b) * 256 + c) * 256 + d)

/-- The number of an IPv6 address with its first three groups; the others are zero. -/
def grouped (first second third : Nat) : BitVec 128 :=
  BitVec.ofNat 128 (((first * 65536 + second) * 65536 + third) * 65536 ^ 5)

/-- The IPv4 blocks that are never published. -/
def reservedIpv4 : List (AddressBlock 32) :=
  [⟨dotted 0 0 0 0, 8, by decide⟩,
    ⟨dotted 10 0 0 0, 8, by decide⟩,
    ⟨dotted 100 64 0 0, 10, by decide⟩,
    ⟨dotted 127 0 0 0, 8, by decide⟩,
    ⟨dotted 169 254 0 0, 16, by decide⟩,
    ⟨dotted 172 16 0 0, 12, by decide⟩,
    ⟨dotted 192 0 0 0, 24, by decide⟩,
    ⟨dotted 192 0 2 0, 24, by decide⟩,
    ⟨dotted 192 31 196 0, 24, by decide⟩,
    ⟨dotted 192 52 193 0, 24, by decide⟩,
    ⟨dotted 192 88 99 0, 24, by decide⟩,
    ⟨dotted 192 168 0 0, 16, by decide⟩,
    ⟨dotted 192 175 48 0, 24, by decide⟩,
    ⟨dotted 198 18 0 0, 15, by decide⟩,
    ⟨dotted 198 51 100 0, 24, by decide⟩,
    ⟨dotted 203 0 113 0, 24, by decide⟩,
    ⟨dotted 224 0 0 0, 3, by decide⟩]

/-- The block that global unicast addresses are allocated from. -/
def globalUnicast : AddressBlock 128 := ⟨grouped 0x2000 0 0, 3, by decide⟩

/-- The blocks of it that are never published. -/
def reservedIpv6 : List (AddressBlock 128) :=
  [⟨grouped 0x2001 0 0, 23, by decide⟩,
    ⟨grouped 0x2001 0x0db8 0, 32, by decide⟩,
    ⟨grouped 0x2002 0 0, 16, by decide⟩,
    ⟨grouped 0x2620 0x004f 0x8000, 48, by decide⟩,
    ⟨grouped 0x3ffe 0 0, 16, by decide⟩,
    ⟨grouped 0x3fff 0 0, 20, by decide⟩]

/-- An address is rebuilt from its octets. -/
theorem toNat_octets (address : BitVec 32) :
    address.toNat = ((octet address 0 * 256 + octet address 1) * 256 + octet address 2) * 256 +
      octet address 3 := by
  have hbound := address.isLt
  simp only [octet]
  omega

theorem octet_lt (address : BitVec 32) (i : Nat) : octet address i < 256 :=
  Nat.mod_lt _ (by decide)

/-- Membership in each block in terms of the octets that the filter reads. -/
theorem mem_reservedIpv4_iff (address : BitVec 32) :
    (∃ block ∈ reservedIpv4, block.Contains address) ↔
      let a := octet address 0
      let b := octet address 1
      let c := octet address 2
      a = 0 ∨ a = 10 ∨ (a = 100 ∧ 64 ≤ b ∧ b ≤ 127) ∨ a = 127 ∨ (a = 169 ∧ b = 254) ∨
        (a = 172 ∧ 16 ≤ b ∧ b ≤ 31) ∨ (a = 192 ∧ b = 0 ∧ c = 0) ∨ (a = 192 ∧ b = 0 ∧ c = 2) ∨
        (a = 192 ∧ b = 31 ∧ c = 196) ∨ (a = 192 ∧ b = 52 ∧ c = 193) ∨
        (a = 192 ∧ b = 88 ∧ c = 99) ∨ (a = 192 ∧ b = 168) ∨ (a = 192 ∧ b = 175 ∧ c = 48) ∨
        (a = 198 ∧ (b = 18 ∨ b = 19)) ∨ (a = 198 ∧ b = 51 ∧ c = 100) ∨
        (a = 203 ∧ b = 0 ∧ c = 113) ∨ 224 ≤ a := by
  have hvalue := toNat_octets address
  have ha := octet_lt address 0
  have hb := octet_lt address 1
  have hc := octet_lt address 2
  have hd := octet_lt address 3
  simp only [reservedIpv4, List.exists_mem_cons_iff, List.not_mem_nil, false_and, exists_false,
    or_false, AddressBlock.contains_iff_div, dotted, BitVec.toNat_ofNat]
  generalize octet address 0 = a at *
  generalize octet address 1 = b at *
  generalize octet address 2 = c at *
  generalize octet address 3 = d at *
  rw [hvalue]
  clear hvalue
  repeat' apply or_congr
  all_goals omega

theorem isPublicIpv4_iff (address : BitVec 32) :
    isPublicIpv4 address = true ↔ ∀ block ∈ reservedIpv4, ¬block.Contains address := by
  have hreserved := mem_reservedIpv4_iff address
  have hforall : (∀ block ∈ reservedIpv4, ¬block.Contains address) ↔
      ¬∃ block ∈ reservedIpv4, block.Contains address := by simp
  rw [hforall, hreserved]
  simp only [isPublicIpv4]
  generalize octet address 0 = a
  generalize octet address 1 = b
  generalize octet address 2 = c
  simp only [Bool.or_eq_true, Bool.and_eq_true, beq_iff_eq, decide_eq_true_eq,
    Bool.if_false_left, Bool.not_eq_true', decide_eq_false_iff_not, Bool.and_true]
  rw [← not_or, not_iff_not]
  -- the same cases in another order
  simp only [and_or_left]
  apply iff_of_eq
  ac_rfl

/-- An address is rebuilt from the segments that the filter reads and the rest. -/
theorem toNat_segments (address : BitVec 128) :
    ∃ rest < 65536 ^ 5, address.toNat =
      ((segment address 0 * 65536 + segment address 1) * 65536 + segment address 2) *
        65536 ^ 5 + rest := by
  have hbound := address.isLt
  refine ⟨address.toNat % 65536 ^ 5, Nat.mod_lt _ (by decide), ?_⟩
  simp only [segment]
  omega

theorem segment_lt (address : BitVec 128) (i : Nat) : segment address i < 65536 :=
  Nat.mod_lt _ (by decide)

/-- The mask of the global unicast test keeps the first three bits. -/
theorem unicastMask_iff {first : Nat} (h : first < 65536) :
    first &&& 0xe000 = 0x2000 ↔ first / 8192 = 1 := by
  have hmask := @and_leadingMask 16 13 first (by decide) h
  simp only [Nat.reducePow, Nat.reduceSub] at hmask
  rw [hmask]
  omega

theorem documentationMask_iff {second : Nat} (h : second < 65536) :
    second &&& 0xf000 = 0 ↔ second / 4096 = 0 := by
  have hmask := @and_leadingMask 16 12 second (by decide) h
  simp only [Nat.reducePow, Nat.reduceSub] at hmask
  rw [hmask]
  omega

theorem mem_globalUnicast_iff (address : BitVec 128) :
    globalUnicast.Contains address ↔ segment address 0 / 8192 = 1 := by
  obtain ⟨rest, hrest, hvalue⟩ := toNat_segments address
  have h0 := segment_lt address 0
  have h1 := segment_lt address 1
  have h2 := segment_lt address 2
  simp only [globalUnicast, AddressBlock.contains_iff_div, grouped, BitVec.toNat_ofNat]
  omega

theorem mem_reservedIpv6_iff (address : BitVec 128) :
    (∃ block ∈ reservedIpv6, block.Contains address) ↔
      let first := segment address 0
      let second := segment address 1
      (first = 0x2001 ∧ second ≤ 0x01ff) ∨ (first = 0x2001 ∧ second = 0x0db8) ∨
        first = 0x2002 ∨ (first = 0x2620 ∧ second = 0x004f ∧ segment address 2 = 0x8000) ∨
        first = 0x3ffe ∨ (first = 0x3fff ∧ second / 4096 = 0) := by
  obtain ⟨rest, hrest, hvalue⟩ := toNat_segments address
  have h0 := segment_lt address 0
  have h1 := segment_lt address 1
  have h2 := segment_lt address 2
  simp only [reservedIpv6, List.exists_mem_cons_iff, List.not_mem_nil, false_and, exists_false,
    or_false, AddressBlock.contains_iff_div, grouped, BitVec.toNat_ofNat]
  generalize segment address 0 = first at *
  generalize segment address 1 = second at *
  generalize segment address 2 = third at *
  rw [hvalue]
  clear hvalue
  repeat' apply or_congr
  all_goals omega

theorem isPublicIpv6_iff (address : BitVec 128) :
    isPublicIpv6 address = true ↔
      globalUnicast.Contains address ∧ ∀ block ∈ reservedIpv6, ¬block.Contains address := by
  have hreserved := mem_reservedIpv6_iff address
  have hforall : (∀ block ∈ reservedIpv6, ¬block.Contains address) ↔
      ¬∃ block ∈ reservedIpv6, block.Contains address := by simp
  have hunicast := unicastMask_iff (segment_lt address 0)
  have hdocumentation := documentationMask_iff (segment_lt address 1)
  rw [hforall, hreserved, mem_globalUnicast_iff, ← hunicast]
  simp only [← hdocumentation, isPublicIpv6]
  generalize segment address 0 = first
  generalize segment address 1 = second
  generalize segment address 2 = third
  simp only [Bool.or_eq_true, Bool.and_eq_true, beq_iff_eq, bne_iff_ne, decide_eq_true_eq,
    Bool.if_false_left, Bool.not_eq_true', decide_eq_false_iff_not, Bool.and_true, not_not]
  refine and_congr Iff.rfl (not_congr ?_)
  simp only [and_or_left]
  apply iff_of_eq
  ac_rfl

/-- An address is public when no reserved block holds it and, for the second
family, when it is a global unicast address. -/
theorem isPublicAddress_iff_blocks :
    (∀ address : BitVec 32, isPublicAddress (.v4 address) = true ↔
      ∀ block ∈ reservedIpv4, ¬block.Contains address) ∧
    (∀ address : BitVec 128, isPublicAddress (.v6 address) = true ↔
      globalUnicast.Contains address ∧ ∀ block ∈ reservedIpv6, ¬block.Contains address) :=
  ⟨isPublicIpv4_iff, isPublicIpv6_iff⟩

end Cirrusync
