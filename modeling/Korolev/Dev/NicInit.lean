import Korolev.Dev.VirtioNet

set_option relaxedAutoImplicit false
set_option autoImplicit false

/-!
# Network drivers whose initialisation fails

Both network drivers can fail half-way, when the interface is already taken and, in the e1000
driver, the interrupt handler is already registered. `virtionet_init` leaves the interface
allocated when the device refuses the features, returning no value at all; `e1000_init` clears the
interface when the card has no MAC address, but leaves the handler registered. On all other error
paths the tables are as before. Whether a failure is clean depends on the prior tables and on what
the device answers; this file has the exact condition for each driver.

## Main definitions

* `Korolev.NetState.SameTables` — interfaces and interrupt handlers are as before.
* `Korolev.E1000FailsCleanly`, `Korolev.VirtionetFailsCleanly` — the conditions.

## Main results

* `Korolev.e1000Init_sameTables_iff`, `Korolev.virtionetInit_sameTables_iff` — when a failing
  initialisation leaves the tables as they were.
* `Korolev.nic_init_atomic` — both.
-/

namespace Korolev

section Atomic

variable {δ : Type*} (B : Bus δ)

/-- Interfaces and interrupt handlers are as before. -/
def NetState.SameTables (s t : NetState δ) : Prop := t.eth = s.eth ∧ t.ints = s.ints

/-- The first word of the MAC address of a card, as `e1000_init` reads it. -/
def e1000MacWord (d : δ) (bus device function : LONG) : LONG :=
  let card := e1000Probe B d bus device function
  (B.read32 card.2 (card.1.memory + 0x5400)).1

/-- `e1000_init` never looks at the EEPROM: the MAC address is unreadable iff its first word in
memory is zero. -/
lemma e1000ReadMac_probe (d : δ) (bus device function : LONG) (fuel : ℕ) (addr : Fin 6 → BYTE) :
    let card := e1000Probe B d bus device function
    ∃ ok addr' d', e1000ReadMac B card.1 card.2 fuel addr = some (ok, addr', d') ∧
      (ok = 0 ↔ e1000MacWord B d bus device function = 0) := by
  intro card
  have heeprom : ¬card.1.eepromExists ≠ 0 := not_not.mpr rfl
  rw [e1000ReadMac, if_neg heeprom]
  simp only
  split_ifs with hword
  · exact ⟨1, _, _, rfl, iff_of_false (by decide) hword⟩
  · exact ⟨0, _, _, rfl, iff_of_true rfl (not_not.mp hword)⟩

/-- When a failing `e1000_init` leaves the tables as they were: there is no interface to take, or
it does not fail, or no handler could be registered and the interface it cleared was clear. -/
def E1000FailsCleanly (s : NetState δ) (bus device function : LONG) : Prop :=
  (∀ i < 16, (s.eth.ifs i).allocated ≠ 0) ∨ e1000MacWord B s.dev bus device function ≠ 0 ∨
    ((∀ i < 256, (s.ints i).dev ≠ 0) ∧ ∀ i, s.eth.FirstFree i → s.eth.ifs i = .zero)

lemma e1000Init_sameTables_iff (handler : LONG) (fuel : ℕ) (s : NetState δ)
    (bus device function : LONG) :
    ∃ r, e1000Init B handler fuel s bus device function = some r ∧
      ((r.1 ≠ 0 → s.SameTables r.2) ↔ E1000FailsCleanly B s bus device function) := by
  rw [e1000Init]
  obtain ⟨i, hi, halloc⟩ | ⟨hfull, halloc⟩ := ethernetAllocate_cases s.eth
  · rw [halloc]
    simp only
    obtain ⟨ok, addr', d', hmac, hok⟩ :=
      e1000ReadMac_probe B s.dev bus device function fuel (s.eth.ifs i).addr
    rw [EthIfs.set_ifs, Function.update_self, hmac]
    simp only
    split_ifs with hzero
    · -- the card is given up
      refine ⟨_, rfl, ?_⟩
      have hword := hok.mp hzero
      have hint := pciIntRequest_eq_self_iff s.ints bus device function handler
        (s.eth.ptr_ne_zero hi.1)
      have heth : s.eth.set i .zero = s.eth ↔ ∀ j, s.eth.FirstFree j → s.eth.ifs j = .zero := by
        rw [EthIfs.set_eq_self]
        constructor
        · intro h j hj
          rw [← hi.unique hj, h]
        · exact fun h => h i hi
      have hsome : ¬∀ j < 16, (s.eth.ifs j).allocated ≠ 0 := fun h => h i hi.1 hi.2.1
      simp only [NetState.SameTables, E1000FailsCleanly, ethernetFree, EthIfs.set_set,
        EthIfs.set_ptr, hword, hint, heth, hsome]
      tauto
    · refine ⟨_, rfl, iff_of_true (fun h => absurd rfl h) (.inr (.inl (mt hok.mpr hzero)))⟩
  · rw [halloc]
    exact ⟨_, rfl, iff_of_true (fun _ => ⟨rfl, rfl⟩) (.inl hfull)⟩

/-- When a failing `virtionet_init` leaves the tables as they were: the device is not for this
driver, there is no interface to take, or it does not fail. -/
def VirtionetFailsCleanly (s : NetState δ) (bus device function : LONG) : Prop :=
  let bar := pciCfgReadBar B s.dev bus device function 0
  let sub := pciCfgReadw B bar.2 bus.toUInt8 device.toUInt8 function.toUInt8 PCI_CFG_SSS
  bar.1 &&& 1 = 0 ∨ sub.1 ≠ 1 ∨ (∀ i < 16, (s.eth.ifs i).allocated ≠ 0) ∨
    (virtionetNegotiate B sub.2 (bar.1 &&& 0xfffffffe)).1 &&& VNET_S_FEATOK.toUInt32 ≠ 0

lemma virtionetInit_sameTables_iff (isUp isBroadcast isMulticast isPromisc : LONG)
    (s : NetState δ) (bus device function : LONG) :
    let r := virtionetInit B isUp isBroadcast isMulticast isPromisc s bus device function
    (r.1 ≠ some 0 → s.SameTables r.2) ↔ VirtionetFailsCleanly B s bus device function := by
  intro r
  obtain ⟨i, hi, halloc⟩ | ⟨hfull, halloc⟩ := ethernetAllocate_cases s.eth
  · simp only [r, virtionetInit, VirtionetFailsCleanly, halloc]
    split_ifs with hbar hsub hfeat
    · exact iff_of_true (fun _ => ⟨rfl, rfl⟩) (.inl hbar)
    · exact iff_of_true (fun _ => ⟨rfl, rfl⟩) (.inr (.inl hsub))
    · -- the features are refused: the interface stays allocated
      refine iff_of_false (fun h => ?_) ?_
      · have heth := (h (by simp)).1
        simp only [EthIfs.set_set] at heth
        have hfree := hi.2.1
        rw [EthIfs.set_eq_self.mp heth] at hfree
        exact absurd hfree (by simp)
      · rintro (h | h | h | h)
        · exact hbar h
        · exact hsub h
        · exact h i hi.1 hi.2.1
        · exact h hfeat
    · exact iff_of_true (fun h => absurd rfl h) (.inr (.inr (.inr hfeat)))
  · simp only [r, virtionetInit, VirtionetFailsCleanly, halloc]
    split_ifs with hbar hsub
    · exact iff_of_true (fun _ => ⟨rfl, rfl⟩) (.inl hbar)
    · exact iff_of_true (fun _ => ⟨rfl, rfl⟩) (.inr (.inl hsub))
    · exact iff_of_true (fun _ => ⟨rfl, rfl⟩) (.inr (.inr (.inl hfull)))

end Atomic

/-- **Initialisation that fails.** Both drivers always end, and a failing initialisation leaves
interfaces and interrupt handlers as they were exactly under the conditions above. -/
theorem nic_init_atomic {δ : Type*} (B : Bus δ) (s : NetState δ) (bus device function : LONG)
    (handler : LONG) (fuel : ℕ) (isUp isBroadcast isMulticast isPromisc : LONG) :
    (∃ r, e1000Init B handler fuel s bus device function = some r ∧
      ((r.1 ≠ 0 → s.SameTables r.2) ↔ E1000FailsCleanly B s bus device function)) ∧
    ((let r := virtionetInit B isUp isBroadcast isMulticast isPromisc s bus device function
      r.1 ≠ some 0 → s.SameTables r.2) ↔ VirtionetFailsCleanly B s bus device function) :=
  ⟨e1000Init_sameTables_iff B handler fuel s bus device function,
    virtionetInit_sameTables_iff B isUp isBroadcast isMulticast isPromisc s bus device function⟩

/-- A card at address `0` whose registers are all zero: it has no MAC address. -/
def mutedBus : Bus Unit where
  inb _ _ := (0, ())
  inl _ _ := (0, ())
  outb _ _ _ := ()
  outw _ _ _ := ()
  outl _ _ _ := ()
  read8 _ _ := (0, ())
  read32 _ _ := (0, ())
  write32 _ _ _ := ()

/-- A kernel that has just set up its tables. -/
def freshNetState : NetState Unit where
  eth := ⟨0x100000, fun _ => .zero, by decide, by decide⟩
  ints := fun _ => .zero
  mm := ⟨0, 0x200000, 16⟩
  dev := ()

/-- `e1000_init` gives up the card without a MAC address, and its handler stays registered. -/
theorem nic_init_handler_left :
    ∃ r, e1000Init mutedBus 0x101000 0 freshNetState 0 3 0 = some r ∧ r.1 = 1 ∧
      ¬freshNetState.SameTables r.2 := by
  refine ⟨_, rfl, rfl, fun h => ?_⟩
  have hentry := congrArg PciIntEntry.handler (congrFun h.2 0)
  exact absurd hentry (by decide)

end Korolev
