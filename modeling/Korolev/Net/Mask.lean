import Korolev.Net.Addresses

set_option relaxedAutoImplicit false
set_option autoImplicit false

/-!
# The masks of addresses

The mask of an address has its first bits set, as many as the prefix is long, so that two addresses
agree under the mask iff they have the prefix in common. `netdev_add_ip6_address` sets the bytes
that belong to the prefix as a whole. Of a byte that belongs to it in part it sets the bits at the
other end: for a prefix of 12 bits, the second byte has its lower four bits set.
`network_print_ipv6` reads the length of the prefix off the mask, by the number of bits in use of
that byte, which makes up for it where the byte is divided in the middle.

## Main definitions

* `Korolev.addrBit`, `Korolev.AgreeFirst` — addresses with a common prefix.
* `Korolev.SameMasked` — addresses that agree under a mask.

## Main results

* `Korolev.netNode_mask` — the bytes of a mask.
* `Korolev.netdev_mask_iff` — when the mask is that of the prefix.
-/

namespace Korolev

open Bytes

/-- Bit `k` of an address; bit `0` is the most significant one of byte `0`. -/
def addrBit (a : ℕ → BYTE) (k : ℕ) : Bool := (a (k / 8)).toNat.testBit (7 - k % 8)

/-- The addresses agree on their first `n` bits. -/
def AgreeFirst (n : ℕ) (a b : ℕ → BYTE) : Prop := ∀ k < n, addrBit a k = addrBit b k

/-- The addresses agree under the mask. -/
def SameMasked (mask a b : ℕ → BYTE) : Prop := ∀ i < 16, a i &&& mask i = b i &&& mask i

/-! ## The mask -/

/-- **The bytes of a mask.** -/
lemma netNode_mask (address : ℕ → BYTE) (len attr : LONG) (i : ℕ) :
    (netNode address len attr).mask i =
      if i = len.toNat / 8 ∧ len.toNat % 8 ≠ 0 then
        (((1 : LONG) <<< (8 - UInt32.ofNat (len.toNat % 8))) - 1).toUInt8
      else if i < len.toNat / 8 then 0xff else 0 := by
  obtain ⟨hfb, hrb⟩ := mask_fields len
  have hmask : (netNode address len attr).mask = (maskStores len).foldl
      (fun mask (st : ℕ × BYTE) => Function.update mask st.1 st.2) fun _ => 0 := rfl
  have hfull : ((List.range (len.toNat / 8)).map fun i => (i, (0xff : BYTE))).foldl
      (fun (mask : ℕ → BYTE) (st : ℕ × BYTE) => Function.update mask st.1 st.2) (fun _ => 0) i =
      if i < len.toNat / 8 then 0xff else 0 := by
    rw [List.foldl_map]
    exact Slots.foldl_update_apply (fun _ => 0) (fun _ _ => 0xff) _ i
  have hbits : len - len / 8 * 8 = UInt32.ofNat (len.toNat % 8) := by
    rw [← hrb, UInt32.ofNat_toNat]
  have hzero : UInt32.ofNat (len.toNat % 8) ≠ 0 ↔ len.toNat % 8 ≠ 0 := by
    rw [← hbits, ← toNat_ne_zero, hrb]
  rw [hmask, maskStores, hfb, hbits, List.foldl_append]
  by_cases hrem : len.toNat % 8 = 0
  · rw [if_neg (mt hzero.mp (not_not.mpr hrem)), if_neg fun h => h.2 hrem]
    exact hfull
  · rw [if_pos (hzero.mpr hrem), List.foldl_cons, List.foldl_nil]
    by_cases hi : i = len.toNat / 8
    · rw [if_pos ⟨hi, hrem⟩, hi, Function.update_self]
    · rw [if_neg fun h => hi h.1, Function.update_of_ne hi]
      exact hfull

/-- A byte that belongs to the prefix in part has its most significant bit clear. -/
lemma partial_and_top : ∀ r < 8, r ≠ 0 →
    (0x80 : BYTE) &&& (((1 : LONG) <<< (8 - UInt32.ofNat r)) - 1).toUInt8 = 0 := by
  decide

/-! ## A prefix of whole bytes -/

/-- Bytes are equal iff their bits are. -/
lemma byte_eq_iff {x y : BYTE} : x = y ↔ ∀ j < 8, x.toNat.testBit j = y.toNat.testBit j := by
  refine ⟨fun h j _ => by rw [h], fun h => UInt8.toNat_inj.mp (Nat.eq_of_testBit_eq fun j => ?_)⟩
  by_cases hj : j < 8
  · exact h j hj
  · have hhigh : ∀ z : BYTE, z.toNat.testBit j = false := fun z => by
      refine Nat.testBit_lt_two_pow (lt_of_lt_of_le z.toNat_lt ?_)
      exact Nat.pow_le_pow_right (by omega) (by omega)
    rw [hhigh x, hhigh y]

/-- A common prefix of whole bytes. -/
lemma agreeFirst_bytes (m : ℕ) (a b : ℕ → BYTE) :
    AgreeFirst (8 * m) a b ↔ ∀ i < m, a i = b i := by
  constructor
  · intro h i hi
    refine byte_eq_iff.mpr fun j hj => ?_
    have hbit := h (8 * i + (7 - j)) (by omega)
    have hdiv : (8 * i + (7 - j)) / 8 = i := by omega
    have hmod : 7 - (8 * i + (7 - j)) % 8 = j := by omega
    rwa [addrBit, addrBit, hdiv, hmod] at hbit
  · intro h k hk
    rw [addrBit, addrBit, h (k / 8) (by omega)]

/-- The mask of a prefix of whole bytes. -/
lemma sameMasked_bytes {m : ℕ} (hm : m ≤ 16) {mask : ℕ → BYTE}
    (hmask : ∀ i, mask i = if i < m then 0xff else 0) (a b : ℕ → BYTE) :
    SameMasked mask a b ↔ ∀ i < m, a i = b i := by
  have hall : ∀ x : BYTE, x &&& 0xff = x := fun x => UInt8.and_neg_one
  constructor
  · intro h i hi
    have hbyte := h i (by omega)
    rwa [hmask, if_pos hi, hall, hall] at hbyte
  · intro h i _
    rw [hmask]
    by_cases hi : i < m
    · rw [h i hi]
    · rw [if_neg hi, UInt8.and_zero, UInt8.and_zero]

/-- The length of a prefix of whole bytes, read off its mask. -/
lemma prefixLoop_bytes {m : ℕ} (hm : m ≤ 16) {mask : ℕ → BYTE}
    (hmask : ∀ i, mask i = if i < m then 0xff else 0) : ∀ (n i : ℕ), i + n = 16 → i ≤ m →
      ∀ len, prefixLoop mask n i len = len + UInt32.ofNat (8 * (m - i))
  | 0, i, hn, hi, len => by
    have hlast : m - i = 0 := by omega
    rw [prefixLoop, hlast]
    exact (UInt32.add_zero len).symm
  | n + 1, i, hn, hi, len => by
    rw [prefixLoop, hmask]
    by_cases him : i < m
    · have hrest : 8 * (m - i) = 8 + 8 * (m - (i + 1)) := by omega
      rw [if_pos him, if_pos rfl, prefixLoop_bytes hm hmask n (i + 1) (by omega) (by omega), hrest,
        UInt32.ofNat_add, UInt32.add_assoc]
      rfl
    · have hlast : m - i = 0 := by omega
      rw [if_neg him, if_neg (by decide), if_pos rfl, hlast]
      exact (UInt32.add_zero len).symm

/-! ## All prefixes -/

/-- An address that differs from `a` in the first bit of a byte only. -/
def flipTop (a : ℕ → BYTE) (i : ℕ) : ℕ → BYTE := Function.update a i (a i ^^^ 0x80)

/-- For a prefix that ends inside of a byte, the mask does not look at the first bit of that
byte. -/
lemma sameMasked_flipTop (len : LONG) (hrem : len.toNat % 8 ≠ 0) (address a : ℕ → BYTE)
    (attr : LONG) :
    SameMasked (netNode address len attr).mask a (flipTop a (len.toNat / 8)) := by
  have hdistrib : ∀ x y z : BYTE, (x ^^^ y) &&& z = (x &&& z) ^^^ (y &&& z) := fun x y z => by
    rw [← UInt8.toNat_inj]
    simp only [UInt8.toNat_and, UInt8.toNat_xor, Nat.and_xor_distrib_right]
  intro i _
  rw [flipTop]
  by_cases hi : i = len.toNat / 8
  · rw [netNode_mask, if_pos ⟨hi, hrem⟩, hi, Function.update_self, hdistrib,
      partial_and_top _ (Nat.mod_lt _ (by omega)) hrem, UInt8.xor_zero]
  · rw [Function.update_of_ne hi]

/-- The prefix does. -/
lemma not_agreeFirst_flipTop {n : ℕ} (hrem : n % 8 ≠ 0) (a : ℕ → BYTE) :
    ¬AgreeFirst n a (flipTop a (n / 8)) := by
  intro h
  have hbit := h (8 * (n / 8)) (by omega)
  have hdiv : 8 * (n / 8) / 8 = n / 8 := by omega
  have hmod : 7 - 8 * (n / 8) % 8 = 7 := by omega
  rw [addrBit, addrBit, hdiv, hmod, flipTop, Function.update_self, UInt8.toNat_xor,
    Nat.testBit_xor] at hbit
  have htop : (0x80 : BYTE).toNat.testBit 7 = true := by decide
  rw [htop] at hbit
  simp at hbit

/-- **The mask of an address.** The mask that `netdev_add_ip6_address` stores is that of the prefix,
inside of the mask's bytes and with the prefix length read off it again, iff the prefix ends at the
end of a byte. -/
theorem netdev_mask_iff (block : ℕ → LONG) (fuel : ℕ) (net : Network) (D : Set ℕ)
    (nodes : ℕ → List LONG) (h : net.Linked block D nodes) (dev : ℕ) (hdev : dev ∈ D)
    (hm : MallocSucceeds block (net.mallocs + 1)) (hfuel : (nodes dev).length ≤ fuel)
    (a : ℕ → BYTE) (len : LONG) (hlen : len ≤ 128) (attr : LONG) :
    ∃ addr net', netdevAddIp6Address block fuel net dev a len attr = .ok (addr, net') ∧
      (((∀ b, SameMasked (net'.heap addr).mask a b ↔ AgreeFirst len.toNat a b) ∧
        (∀ st ∈ maskStores len, st.1 < 16) ∧ prefixLoop (net'.heap addr).mask 16 0 0 = len) ↔
        8 ∣ len.toNat) := by
  obtain ⟨net', hadd, -, hadded⟩ := netdevAddIp6Address_spec fuel h hdev hm hfuel a len attr
  have hmask : (net'.heap (block net.mallocs)).mask = (netNode a len attr).mask :=
    congrArg (fun addr => addr.mask) hadded.new
  have hle : len.toNat ≤ 128 := UInt32.le_iff_toNat_le.mp hlen
  refine ⟨_, net', hadd, ?_⟩
  rw [hmask]
  constructor
  · rintro ⟨hmatch, -, -⟩
    by_contra hdvd
    have hrem : len.toNat % 8 ≠ 0 := fun h => hdvd (Nat.dvd_of_mod_eq_zero h)
    exact not_agreeFirst_flipTop hrem a ((hmatch _).mp (sameMasked_flipTop len hrem a a attr))
  · rintro ⟨m, hlenm⟩
    have hdiv : len.toNat / 8 = m := by omega
    have hrem : len.toNat % 8 = 0 := by omega
    have hbytes : ∀ i, (netNode a len attr).mask i = if i < m then 0xff else 0 := fun i => by
      rw [netNode_mask, if_neg fun h => h.2 hrem, hdiv]
    refine ⟨fun b => ?_, lt_of_mem_maskStores hlen, ?_⟩
    · rw [hlenm, agreeFirst_bytes, sameMasked_bytes (by omega) hbytes]
    · rw [prefixLoop_bytes (by omega) hbytes 16 0 rfl (Nat.zero_le _), Nat.sub_zero, ← hlenm,
        UInt32.ofNat_toNat, UInt32.zero_add]

/-- The mask of the loopback address, with its prefix of 64 bits. -/
theorem netdev_mask_iff_loopback :
    ∃ addr net', netdevAddIp6Address pageBlock 0 .boot 0 loopback 64 2 = .ok (addr, net') ∧
      (∀ b, SameMasked (net'.heap addr).mask loopback b ↔ AgreeFirst 64 loopback b) ∧
      prefixLoop (net'.heap addr).mask 16 0 0 = 64 := by
  obtain ⟨addr, net', hadd, hiff⟩ := netdev_mask_iff pageBlock 0 .boot Set.univ (fun _ => [])
    (Network.linked_of_empty fun _ _ => rfl) 0 trivial (pageBlock_succeeds (by simp [Network.boot]))
    le_rfl loopback 64 (by decide) 2
  obtain ⟨hmatch, -, hlen⟩ := hiff.mpr (by decide)
  exact ⟨addr, net', hadd, hmatch, hlen⟩

/-- A prefix of 10 bits: of the second byte the last six bits are in the mask, not the first two.
The prefix shown is of 14 bits. -/
theorem netdev_mask_ten_bits :
    ∃ net', netdevAddIp6Address pageBlock 0 .boot 0 (fun _ => 0) 10 0 = .ok (pageBlock 0, net') ∧
      (net'.heap (pageBlock 0)).mask 1 = 0x3f ∧
      SameMasked (net'.heap (pageBlock 0)).mask (fun _ => 0) (flipTop (fun _ => 0) 1) ∧
      ¬AgreeFirst 10 (fun _ => 0) (flipTop (fun _ => 0) 1) ∧
      prefixLoop (net'.heap (pageBlock 0)).mask 16 0 0 = 14 := by
  refine ⟨_, rfl, by decide, ?_, not_agreeFirst_flipTop (by decide) _, by decide⟩
  exact sameMasked_flipTop 10 (by decide) (fun _ => 0) _ 0

end Korolev
