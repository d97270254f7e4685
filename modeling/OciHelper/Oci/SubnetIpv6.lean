import OciHelper.Lib.IpAddr

/-!
# A free subnet of an IPv6 block

* `deriveSubnetIpv6` : the first of the 256 subnets whose text is not in a list;
* `Subnet` : the /64 networks of a block; `Used` : some text of the list denotes a network that overlaps;
* `parseCIDR_candidate` : the text of a candidate denotes a subnet; `exists_block` : every subnet is a candidate;
* `SpelledOut` : the first subnets are in the list under their own text; `derive_correct_iff`.

Texts are lists of characters.
-/

namespace OciHelper.Oci
open IpAddr

inductive DeriveError
  | parse (cidr : List Char)
  | allInUse (cidr : List Char)
  deriving DecidableEq, Repr

/-- The subnet bits of a /56 are in byte 7. -/
def subnetIP (base : IP) (i : Nat) : IP := setByte base 7 i

def candidate (base : IP) (i : Nat) : List Char := ipString (subnetIP base i) ++ "/64".toList

def deriveSubnetIpv6 (vcnCidr : List Char) (usedCIDRs : List (List Char)) : Except DeriveError (List Char) :=
  match parseCIDR vcnCidr with
  | none => .error (.parse vcnCidr)
  | some (_, ipnet) =>
    let base := mask ipnet.ip 56
    match (List.range 256).find? fun i => !usedCIDRs.contains (candidate base i) with
    | some i => .ok (candidate base i)
    | none => .error (.allInUse vcnCidr)

/-- An IPv6 /64 network of a block. -/
structure Subnet (vcn n : IPNet) : Prop where
  bitLen : n.bitLen = 128
  ones : n.ones = 64
  masked : mask n.ip 64 = n.ip
  inside : mask n.ip (128 - vcn.bitLen + vcn.ones) = vcn.ip

def Denotes (cidr : List Char) (n : IPNet) : Prop := ∃ ip, parseCIDR cidr = some (ip, n)

def Used (usedCIDRs : List (List Char)) (n : IPNet) : Prop := ∃ cidr ∈ usedCIDRs, ∃ n', Denotes cidr n' ∧ n'.Overlaps n

/-! ## Candidates -/

theorem toNat_mask_56 (ip : IP) : (mask ip 56).toNat = ip.toNat / 2 ^ 72 * 2 ^ 72 := by
  have := ip.isLt
  unfold mask
  rw [BitVec.toNat_ofNat]
  omega

theorem toNat_mask_64 (ip : IP) : (mask ip 64).toNat = ip.toNat / 2 ^ 64 * 2 ^ 64 := by
  have := ip.isLt
  unfold mask
  rw [BitVec.toNat_ofNat]
  omega

theorem toNat_subnetIP (ip : IP) {i : Nat} (h : i < 256) :
    (subnetIP (mask ip 56) i).toNat = ip.toNat / 2 ^ 72 * 2 ^ 72 + i * 2 ^ 64 := by
  have := ip.isLt
  unfold subnetIP setByte
  rw [toNat_mask_56, BitVec.toNat_ofNat]
  omega

/-- The network of a candidate. -/
def block (base : IP) (i : Nat) : IPNet := ⟨subnetIP base i, 64, 128⟩

theorem subnet_block {vcn : IPNet} (hones : vcn.ones = 56) (hlen : vcn.bitLen = 128) (hmask : mask vcn.ip 56 = vcn.ip)
    {i : Nat} (hi : i < 256) : Subnet vcn (block (mask vcn.ip 56) i) := by
  have hip := toNat_subnetIP vcn.ip hi
  refine ⟨rfl, rfl, ?_, ?_⟩
  · apply BitVec.eq_of_toNat_eq
    rw [toNat_mask_64, block, hip]
    omega
  · rw [hones, hlen]
    apply BitVec.eq_of_toNat_eq
    have hround : (vcn.ip.toNat / 2 ^ 72 * 2 ^ 72 + i * 2 ^ 64) / 2 ^ 72 * 2 ^ 72 = vcn.ip.toNat / 2 ^ 72 * 2 ^ 72 := by
      omega
    rw [toNat_mask_56, block, hip, hround, ← toNat_mask_56, hmask]

/-- Every subnet is that of a candidate. -/
theorem exists_block {vcn n : IPNet} (hones : vcn.ones = 56) (hlen : vcn.bitLen = 128) (h : Subnet vcn n) :
    ∃ i < 256, n = block (mask vcn.ip 56) i := by
  obtain ⟨hbit, hsixtyfour, hmasked, hinside⟩ := h
  rw [hones, hlen] at hinside
  have hm := congrArg BitVec.toNat hmasked
  have hin := congrArg BitVec.toNat hinside
  rw [toNat_mask_64] at hm
  rw [toNat_mask_56] at hin
  refine ⟨n.ip.toNat / 2 ^ 64 % 256, Nat.mod_lt _ (by decide), ?_⟩
  have hip : n.ip = subnetIP (mask vcn.ip 56) (n.ip.toNat / 2 ^ 64 % 256) := by
    apply BitVec.eq_of_toNat_eq
    rw [toNat_subnetIP _ (Nat.mod_lt _ (by decide))]
    omega
  calc n = ⟨n.ip, n.ones, n.bitLen⟩ := rfl
    _ = block (mask vcn.ip 56) (n.ip.toNat / 2 ^ 64 % 256) := by rw [hsixtyfour, hbit, block, ← hip]

theorem slash_notMem_ipString {ip : IP} (h : is4 ip = false) : '/' ∉ ipString ip := by
  intro hm
  unfold ipString at hm
  rw [h, if_neg Bool.false_ne_true] at hm
  rcases mem_v6Text hm with hhex | hcolon
  · revert hhex
    decide
  · revert hcolon
    decide

/-- The text of a candidate denotes its network. -/
theorem parseCIDR_candidate (ip : IP) {i : Nat} (hi : i < 256) :
    parseCIDR (candidate (mask ip 56) i) = some (subnetIP (mask ip 56) i, block (mask ip 56) i) := by
  have hip := toNat_subnetIP ip hi
  have h4 : is4 (subnetIP (mask ip 56) i) = false := by
    unfold is4
    rw [hip]
    exact decide_eq_false (by omega)
  have hmask : mask (subnetIP (mask ip 56) i) 64 = subnetIP (mask ip 56) i := by
    apply BitVec.eq_of_toNat_eq
    rw [toNat_mask_64, hip]
    omega
  have hparse := parseCIDR_append (slash_notMem_ipString h4) (parseAddr_ipString h4) rfl
    (show dtoi "64".toList = some 64 by decide) (show 64 ≤ 128 by decide)
  rw [show 128 - 128 + 64 = 64 from rfl, hmask] at hparse
  exact hparse

theorem overlaps_self (ip : IP) (i : Nat) : (block ip i).Overlaps (block ip i) :=
  ⟨subnetIP ip i, by simp [IPNet.contains, block], by simp [IPNet.contains, block]⟩

/-- Two networks of the same length that overlap are the same. -/
theorem mask_eq_of_overlaps {n n' : IPNet} (hlen : n.bitLen = n'.bitLen) (hones : n.ones = n'.ones)
    (h : n.Overlaps n') : mask n.ip (128 - n.bitLen + n.ones) = mask n'.ip (128 - n.bitLen + n.ones) := by
  obtain ⟨ip, h, h'⟩ := h
  unfold IPNet.contains at h h'
  rw [← hlen, ← hones] at h'
  rw [Bool.and_eq_true, beq_iff_eq, beq_iff_eq] at h h'
  exact h.2.trans h'.2.symm

theorem eq_of_overlaps {ip : IP} {i j : Nat} (hi : i < 256) (hj : j < 256)
    (h : (block (mask ip 56) i).Overlaps (block (mask ip 56) j)) : i = j := by
  have hlen : (block (mask ip 56) i).bitLen = (block (mask ip 56) j).bitLen := rfl
  have hones : (block (mask ip 56) i).ones = (block (mask ip 56) j).ones := rfl
  have hmask := congrArg BitVec.toNat (mask_eq_of_overlaps hlen hones h)
  change (mask (subnetIP (mask ip 56) i) 64).toNat = (mask (subnetIP (mask ip 56) j) 64).toNat at hmask
  rw [toNat_mask_64, toNat_mask_64, toNat_subnetIP ip hi, toNat_subnetIP ip hj] at hmask
  omega

theorem mask_eq_of_parseCIDR {s : List Char} {ip : IP} {n : IPNet} (h : parseCIDR s = some (ip, n))
    (hones : n.ones = 56) (hlen : n.bitLen = 128) : mask n.ip 56 = n.ip := by
  unfold parseCIDR at h
  split at h
  · cases h
  · next digits _ =>
    obtain ⟨a, -, h⟩ := Option.bind_eq_some_iff.mp h
    obtain ⟨k, -, h⟩ := Option.bind_eq_some_iff.mp h
    split at h
    · cases h
    · cases h
      dsimp only at hones hlen ⊢
      rw [hones, hlen]
      apply BitVec.eq_of_toNat_eq
      rw [toNat_mask_56, toNat_mask_56]
      omega

/-! ## What the search promises -/

/-- A result is a subnet that overlaps no network of the list. -/
def Sound (vcnCidr : List Char) (vcn : IPNet) (usedCIDRs : List (List Char)) : Prop :=
  ∀ cidr, deriveSubnetIpv6 vcnCidr usedCIDRs = .ok cidr →
    ∃ n, Denotes cidr n ∧ Subnet vcn n ∧ ¬ Used usedCIDRs n

/-- There is a result unless every subnet is used. -/
def Complete (vcnCidr : List Char) (vcn : IPNet) (usedCIDRs : List (List Char)) : Prop :=
  ∀ e, deriveSubnetIpv6 vcnCidr usedCIDRs = .error e → ∀ n, Subnet vcn n → Used usedCIDRs n

/-- If the candidates before a used one are in the list under their own text, so is this one. -/
def SpelledOut (base : IP) (usedCIDRs : List (List Char)) : Prop :=
  ∀ i < 256, (∀ j < i, candidate base j ∈ usedCIDRs) → Used usedCIDRs (block base i) → candidate base i ∈ usedCIDRs

theorem find_free_eq_some_iff {base : IP} {usedCIDRs : List (List Char)} {i : Nat} :
    ((List.range 256).find? fun i => !usedCIDRs.contains (candidate base i)) = some i ↔
      i < 256 ∧ candidate base i ∉ usedCIDRs ∧ ∀ j < i, candidate base j ∈ usedCIDRs := by
  rw [List.find?_range_eq_some, and_left_comm]
  simp

theorem find_free_eq_none_iff {base : IP} {usedCIDRs : List (List Char)} :
    ((List.range 256).find? fun i => !usedCIDRs.contains (candidate base i)) = none ↔
      ∀ i < 256, candidate base i ∈ usedCIDRs := by
  rw [List.find?_range_eq_none]
  simp

section
variable {vcnCidr : List Char} {ip : IP} {vcn : IPNet} (usedCIDRs : List (List Char))
  (h : parseCIDR vcnCidr = some (ip, vcn))
include h

theorem derive_eq_ok_iff (cidr : List Char) :
    deriveSubnetIpv6 vcnCidr usedCIDRs = .ok cidr ↔
      ∃ i < 256, cidr = candidate (mask vcn.ip 56) i ∧ candidate (mask vcn.ip 56) i ∉ usedCIDRs ∧
        ∀ j < i, candidate (mask vcn.ip 56) j ∈ usedCIDRs := by
  unfold deriveSubnetIpv6
  rw [h]
  dsimp only
  constructor
  · intro hok
    split at hok
    · next i hfind =>
      cases hok
      obtain ⟨hi, hfree, hbelow⟩ := find_free_eq_some_iff.mp hfind
      exact ⟨i, hi, rfl, hfree, hbelow⟩
    · cases hok
  · rintro ⟨i, hi, rfl, hfree, hbelow⟩
    rw [find_free_eq_some_iff.mpr ⟨hi, hfree, hbelow⟩]

theorem derive_eq_error_iff (e : DeriveError) :
    deriveSubnetIpv6 vcnCidr usedCIDRs = .error e ↔
      e = .allInUse vcnCidr ∧ ∀ i < 256, candidate (mask vcn.ip 56) i ∈ usedCIDRs := by
  unfold deriveSubnetIpv6
  rw [h, ← find_free_eq_none_iff]
  dsimp only
  cases (List.range 256).find? fun i => !usedCIDRs.contains (candidate (mask vcn.ip 56) i) with
  | none => simp [eq_comm]
  | some i => simp

/-- **What the text comparison is worth.** The search is sound and complete just when no subnet that is used only under
another text comes first. -/
theorem derive_correct_iff (hones : vcn.ones = 56) (hlen : vcn.bitLen = 128) :
    Sound vcnCidr vcn usedCIDRs ∧ Complete vcnCidr vcn usedCIDRs ↔ SpelledOut (mask vcn.ip 56) usedCIDRs := by
  have hmask := mask_eq_of_parseCIDR h hones hlen
  constructor
  · rintro ⟨hsound, -⟩ i hi hbelow hused
    by_contra hfree
    obtain ⟨n, ⟨ip', hn⟩, -, hunused⟩ :=
      hsound _ ((derive_eq_ok_iff usedCIDRs h _).mpr ⟨i, hi, rfl, hfree, hbelow⟩)
    rw [parseCIDR_candidate _ hi] at hn
    cases hn
    exact hunused hused
  · intro hspelled
    constructor
    · intro cidr hok
      obtain ⟨i, hi, rfl, hfree, hbelow⟩ := (derive_eq_ok_iff usedCIDRs h cidr).mp hok
      exact ⟨_, ⟨_, parseCIDR_candidate _ hi⟩, subnet_block hones hlen hmask hi,
        fun hused => hfree (hspelled i hi hbelow hused)⟩
    · intro e he n hn
      obtain ⟨-, hall⟩ := (derive_eq_error_iff usedCIDRs h e).mp he
      obtain ⟨i, hi, rfl⟩ := exists_block hones hlen hn
      exact ⟨_, hall i hi, _, ⟨_, parseCIDR_candidate _ hi⟩, overlaps_self ..⟩

end

/-- 2001:db8:: -/
def exampleIP : IP := BitVec.ofNat 128 (0x20010db8 * 2 ^ 96)

/-- The first subnet is used, but its text has a leading zero. -/
theorem used_under_another_text :
    parseCIDR "2001:db8::/56".toList = some (exampleIP, ⟨exampleIP, 56, 128⟩) ∧
      parseCIDR "2001:0db8::/64".toList = some (exampleIP, ⟨exampleIP, 64, 128⟩) ∧
      ¬ Sound "2001:db8::/56".toList ⟨exampleIP, 56, 128⟩ ["2001:0db8::/64".toList] := by
  have hused : parseCIDR "2001:0db8::/64".toList = some (exampleIP, ⟨exampleIP, 64, 128⟩) := by decide +kernel
  have hresult : parseCIDR "2001:db8::/64".toList = some (exampleIP, ⟨exampleIP, 64, 128⟩) := by decide +kernel
  refine ⟨by decide +kernel, hused, fun hsound => ?_⟩
  obtain ⟨n, ⟨ip, hn⟩, -, hunused⟩ := hsound "2001:db8::/64".toList (by decide +kernel)
  rw [hresult] at hn
  cases hn
  exact hunused ⟨_, List.mem_singleton_self _, _, ⟨_, hused⟩, exampleIP, by decide +kernel, by decide +kernel⟩

/-- With the text that the code writes, the second subnet is found. -/
theorem derive_second_subnet :
    deriveSubnetIpv6 "2001:db8::/56".toList ["2001:db8::/64".toList] = .ok "2001:db8:0:1::/64".toList ∧
      Sound "2001:db8::/56".toList ⟨exampleIP, 56, 128⟩ ["2001:db8::/64".toList] := by
  have h : parseCIDR "2001:db8::/56".toList = some (exampleIP, ⟨exampleIP, 56, 128⟩) := by decide +kernel
  have htext : candidate (mask exampleIP 56) 0 = "2001:db8::/64".toList := by decide +kernel
  refine ⟨by decide +kernel, ((derive_correct_iff _ h rfl rfl).mpr ?_).1⟩
  rintro i hi - ⟨cidr, hcidr, n, ⟨ip, hn⟩, hoverlaps⟩
  obtain rfl := List.mem_singleton.mp hcidr
  rw [← htext, parseCIDR_candidate _ (by decide)] at hn
  obtain ⟨-, rfl⟩ := Prod.mk.inj (Option.some.inj hn)
  obtain rfl : 0 = i := eq_of_overlaps (by decide) hi hoverlaps
  rw [← htext]
  exact List.mem_singleton_self _

end OciHelper.Oci
