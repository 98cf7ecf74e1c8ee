import Korolev.Base
import Korolev.Library.Slots

set_option relaxedAutoImplicit false
set_option autoImplicit false

/-!
# Ethernet interfaces

`net/ethernet.c` has a table of 16 interfaces. A driver takes the first entry that is not
allocated and fills it in; giving it back clears it. Drivers know an interface by the address of
its entry, which they also hand to the interrupt table.

## Main definitions

* `Korolev.Ethdev` — an interface.
* `Korolev.EthIfs` — the table, at an address where it fits.
* `Korolev.ethernetAllocate`, `Korolev.ethernetFree`, `Korolev.ethernetGetdev` — the functions.

## Main results

* `Korolev.ethernetAllocate_cases` — everything an allocation can do.
* `Korolev.EthIfs.ptr_ne_zero`, `Korolev.EthIfs.ptr_inj` — no entry is at address `0`, and no two
  are at the same one.
-/

namespace Korolev

/-- `ethdev`. Functions are known by their addresses. -/
structure Ethdev where
  allocated : LONG
  priv : LONG
  addr : Fin 6 → BYTE
  linkStatus : LONG
  mtu : LONG
  write : LONG
  isUp : LONG
  isBroadcast : LONG
  isMulticast : LONG
  isPromisc : LONG

/-- An interface as `kmemset` leaves it. -/
def Ethdev.zero : Ethdev := ⟨0, 0, fun _ => 0, 0, 0, 0, 0, 0, 0, 0⟩

/-- `eth_ifs`: the address of the table and its `ETH_MAX_IFS` entries of 44 bytes. -/
structure EthIfs where
  base : LONG
  ifs : ℕ → Ethdev
  base_ne_zero : base ≠ 0
  fits : base.toNat + 16 * 44 ≤ 2 ^ 32

namespace EthIfs

/-- `eth_ifs + i` -/
def ptr (e : EthIfs) (i : ℕ) : LONG := e.base + UInt32.ofNat (44 * i)

/-- The table with a changed entry `i`. -/
def set (e : EthIfs) (i : ℕ) (dev : Ethdev) : EthIfs :=
  { e with ifs := Function.update e.ifs i dev }

@[simp] lemma set_ifs (e : EthIfs) (i : ℕ) (dev : Ethdev) :
    (e.set i dev).ifs = Function.update e.ifs i dev := rfl

@[simp] lemma set_ptr (e : EthIfs) (i : ℕ) (dev : Ethdev) (j : ℕ) :
    (e.set i dev).ptr j = e.ptr j := rfl

@[simp] lemma set_set (e : EthIfs) (i : ℕ) (dev dev' : Ethdev) :
    (e.set i dev).set i dev' = e.set i dev' := by
  simp [set]

lemma set_eq_self {e : EthIfs} {i : ℕ} {dev : Ethdev} : e.set i dev = e ↔ e.ifs i = dev := by
  constructor
  · intro h
    rw [← h, set_ifs, Function.update_self]
  · rintro rfl
    simp [set]

/-- No entry of the table is at address `0`. -/
lemma ptr_ne_zero (e : EthIfs) {i : ℕ} (hi : i < 16) : e.ptr i ≠ 0 := by
  have hpos : e.base.toNat ≠ 0 := toNat_ne_zero.mpr e.base_ne_zero
  have hfits := e.fits
  rw [← toNat_ne_zero, ptr, toNat_add_ofNat (by omega)]
  omega

/-- The entry at an address. -/
def deref (e : EthIfs) (p : LONG) : Ethdev := e.ifs ((p - e.base).toNat / 44)

/-- The offset of an entry. -/
lemma ptr_sub_base (e : EthIfs) {i : ℕ} (hi : i < 16) : (e.ptr i - e.base).toNat = 44 * i := by
  have hoff : e.ptr i - e.base = UInt32.ofNat (44 * i) := by
    rw [ptr, UInt32.add_comm, UInt32.add_sub_cancel]
  rw [hoff, toNat_ofNat_of_lt (by omega)]

lemma deref_ptr (e : EthIfs) {i : ℕ} (hi : i < 16) : e.deref (e.ptr i) = e.ifs i := by
  rw [deref, e.ptr_sub_base hi, Nat.mul_div_cancel_left _ (by omega)]

/-- Entries are told apart by their addresses. -/
lemma ptr_inj (e : EthIfs) {i j : ℕ} (hi : i < 16) (hj : j < 16) : e.ptr i = e.ptr j ↔ i = j := by
  refine ⟨fun h => ?_, congrArg e.ptr⟩
  have hoff := e.ptr_sub_base hi
  rw [h, e.ptr_sub_base hj] at hoff
  omega

end EthIfs

/-- `ethernet_allocate()`: the index of the entry and the table; `none` is `NULL`. -/
def ethernetAllocate (e : EthIfs) : Option ℕ × EthIfs :=
  match (List.range 16).find? fun i => (e.ifs i).allocated = 0 with
  | some i => (some i, e.set i { e.ifs i with allocated := 1, mtu := 1500 })
  | none => (none, e)

/-- `ethernet_free(eth_ifs + i)` -/
def ethernetFree (e : EthIfs) (i : ℕ) : EthIfs := e.set i .zero

/-- `ethernet_getdev(index)` for `index ≥ 0`: the address of the entry, or `NULL`. -/
def ethernetGetdev (e : EthIfs) (index : ℕ) : LONG :=
  if 16 ≤ index then 0
  else if (e.ifs index).allocated = 0 then 0
  else e.ptr index

lemma ethernetGetdev_eq (e : EthIfs) {i : ℕ} (hi : i < 16) :
    ethernetGetdev e i = if (e.ifs i).allocated = 0 then 0 else e.ptr i := by
  rw [ethernetGetdev, if_neg (by omega)]

/-- The entry the next allocation takes is `i`. -/
def EthIfs.FirstFree (e : EthIfs) (i : ℕ) : Prop :=
  i < 16 ∧ (e.ifs i).allocated = 0 ∧ ∀ j < i, (e.ifs j).allocated ≠ 0

/-- There is only one first free entry. -/
lemma EthIfs.FirstFree.unique {e : EthIfs} {i j : ℕ} (hi : e.FirstFree i) (hj : e.FirstFree j) :
    i = j := by
  rcases Nat.lt_trichotomy i j with h | h | h
  · exact absurd hi.2.1 (hj.2.2 i h)
  · exact h
  · exact absurd hj.2.1 (hi.2.2 j h)

/-- Everything an allocation can do: take the first free entry, or fail because there is none. -/
lemma ethernetAllocate_cases (e : EthIfs) :
    (∃ i, e.FirstFree i ∧
      ethernetAllocate e = (some i, e.set i { e.ifs i with allocated := 1, mtu := 1500 })) ∨
    ((∀ i < 16, (e.ifs i).allocated ≠ 0) ∧ ethernetAllocate e = (none, e)) := by
  rw [ethernetAllocate]
  obtain ⟨i, hi, hfree, hbefore, hfind⟩ | ⟨hfull, hfind⟩ :=
    Slots.find?_range_cases 16 fun i => (e.ifs i).allocated = 0
  · rw [hfind]
    exact .inl ⟨i, ⟨hi, hfree, hbefore⟩, rfl⟩
  · rw [hfind]
    exact .inr ⟨hfull, rfl⟩

end Korolev
