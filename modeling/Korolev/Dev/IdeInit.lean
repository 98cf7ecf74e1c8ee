import Korolev.Dev.PciSetup

set_option relaxedAutoImplicit false
set_option autoImplicit false

/-!
# The disk controller is found

`ide_init` in `dev/ide.c` is the one driver that `pci_setup` has in its table. It wants the primary
channel in native mode, takes the ports from the base address registers, and routes the interrupt:
if the interrupt line register can be written, to IRQ10 with an entry in the table of shared
interrupts, and else to IRQ14 and IRQ15.

The registers it looks at are not those it names. At odd offsets `pci_cfg_readb` reads the byte
before, so the class code of a function is taken from its subclass, and the programming interface
from its revision, which `pci_cfg_writeb` writes, too. The theorem of this file says what comes out
of that for any set of functions, and when these are the right ones.

`sleep` returns at once while the timer does not tick, as it does before `sti`.

## Main definitions

* `Korolev.ideChannelSetnative`, `Korolev.ideEnableInt`, `Korolev.ideInit` — the driver.
* `Korolev.pciDevices` — the table of drivers.
* `Korolev.PciConfig.IsDisk`, `Korolev.PciConfig.CanBeNative` — what the driver is for.
* `Korolev.PciConfig.TakenForDisk`, `Korolev.PciConfig.TakenForNative` — what is taken for that.
* `Korolev.Searched` — what is left behind when some functions have been looked at.

## Main results

* `Korolev.pciProbe_spec` — what is done for one function.
* `Korolev.pci_setup_disks` — what `pci_setup` leaves behind.
-/

namespace Korolev

open Bytes

/-! ## The functions -/

def IRQ14 : BYTE := 46

def IRQ15 : BYTE := 47

/-- The device id under which the driver has its interrupt. -/
def ideDevId : LONG := 0xf0f0f0f0

section Driver

variable (B : Bus PciConfig)

/-- `ide_channel_setnative(bus, device, function, channel)` -/
def ideChannelSetnative (s : PciKernel) (bus device function channel : LONG) : ℤ × PciKernel :=
  let s := s.puts (text "[ide] setting channel op mode\n")
  let chmask : LONG := if channel = 2 then 4 else 1
  let pif := pciCfgReadb B s.cfg bus.toUInt8 device.toUInt8 function.toUInt8 PCI_CFG_PIF
  let s := { s with cfg := pif.2 }
  if pif.1.toUInt32 &&& chmask = 0 then
    let s := s.puts (text "[ide] channel is in compat mode\n")
    let cfg := pciCfgWriteb B s.cfg bus.toUInt8 device.toUInt8 function.toUInt8 PCI_CFG_PIF
      (pif.1.toUInt32 ||| 1).toUInt8
    let pif := pciCfgReadb B cfg bus.toUInt8 device.toUInt8 function.toUInt8 PCI_CFG_PIF
    let s := { s with cfg := pif.2 }
    if pif.1.toUInt32 &&& chmask = 0 then
      (1, s.puts (text "[ide] channel does not support native mode\n"))
    else (0, s.puts (text "[ide] channel is in native mode\n"))
  else (0, s.puts (text "[ide] channel is in native mode\n"))

/-- `ide_enable_int(bus, device, function)`, with the addresses of `ide_handle_int` and
`ide_handle_irq`. -/
def ideEnableInt (handleInt handleIrq : LONG) (s : PciKernel) (bus device function : LONG) :
    PciKernel :=
  let cfg := pciCfgWriteb B s.cfg bus.toUInt8 device.toUInt8 function.toUInt8 PCI_CFG_INT 0xFE
  let intl := pciCfgReadb B cfg bus.toUInt8 device.toUInt8 function.toUInt8 PCI_CFG_INT
  let s := { s with cfg := intl.2 }
  if intl.1.toUInt32 &&& 0xff = 0xfe then
    let s := { s with
      cfg := pciCfgWriteb B s.cfg bus.toUInt8 device.toUInt8 function.toUInt8 PCI_CFG_INT IRQ10 }
    let r := pciIntRequest s.ints bus device function ideDevId handleInt
    let s := { s with ints := r.2 }
    if r.1 ≠ 0 then s.puts (text "[pci] out of interrupt handler entries\n")
    else s.puts (text "[ide] interrupt line set to IRQ10\n")
  else
    { s with
      handlers := Function.update (Function.update s.handlers IRQ14.toUInt32 handleIrq)
        IRQ15.toUInt32 handleIrq }.puts (text "[ide] ye olde parallel\n")

/-- The ports, from the base address registers 0, 1 and 4. -/
def idePorts (bar0 bar1 bar4 : LONG) : IdeRegs where
  base := (bar0 &&& 0xFFFFFFFC) + 0x1F0 * (if bar0 = 0 then 1 else 0)
  ctrl := (bar1 &&& 0xFFFFFFFC) + 0x3F6 * (if bar1 = 0 then 1 else 0)
  bm := bar4 &&& 0xFFFFFFFC

/-- `ide_init(bus, device, function)` -/
def ideInit (handleInt handleIrq : LONG) (bus device function : LONG) (s : PciKernel) :
    ℤ × PciKernel :=
  let s := s.puts (text "[ide] init\n")
  let r := ideChannelSetnative B s bus device function 1
  if r.1 ≠ 0 then (1, r.2)
  else
    let s := (ideChannelSetnative B r.2 bus device function 2).2
    let s := s.puts (text "[ide] channel 2 won't be used\n")
    let bar0 := pciCfgReadBar B s.cfg bus device function 0
    let bar1 := pciCfgReadBar B bar0.2 bus device function 1
    let bar4 := pciCfgReadBar B bar1.2 bus device function 4
    let s := { s with cfg := bar4.2, ide := idePorts bar0.1 bar1.1 bar4.1 }
    (0, ideEnableInt B handleInt handleIrq s bus device function)

/-- `pci_dev_disk` -/
def pciDevDisk (handleInt handleIrq : LONG) : PciDev where
  name := text "PCI IDE Controller"
  initf := some (ideInit B handleInt handleIrq)
  idsLen := 33
  ids := fun _ => (0, 0)
  classCode := 0x01
  subclass := 0x01

/-- `pci_devices`. The drivers of the network cards are commented out. -/
def pciDevices (handleInt handleIrq : LONG) : List PciDev := [pciDevDisk B handleInt handleIrq]

end Driver

/-! ## The configuration space -/

section Hardwired

variable (mask : PciFunction → ℕ → BYTE) (c : PciConfig) (f : PciFunction) (off : BYTE)

/-- The address of a register goes to the latch. -/
lemma outl_hardwired (a : LONG) :
    (PciConfig.hardwired mask).outl c PCI_PORT_CONF_ADDR a = ⟨a, c.space⟩ := by
  simp only [PciConfig.hardwired, if_true]

lemma outl_bus (a : LONG) : PciConfig.bus.outl c PCI_PORT_CONF_ADDR a = ⟨a, c.space⟩ := by
  simp only [PciConfig.bus, if_true]

/-- Reading does not write: the latch aside, nothing changes. -/
lemma pciCfgReadl_hardwired (bus dev func : BYTE) :
    (pciCfgReadl (PciConfig.hardwired mask) c bus dev func off).1 =
      (pciCfgReadl PciConfig.bus c bus dev func off).1 ∧
    (pciCfgReadl (PciConfig.hardwired mask) c bus dev func off).2.space = c.space := by
  unfold pciCfgReadl
  rw [outl_hardwired, outl_bus]
  exact ⟨rfl, rfl⟩

lemma pciCfgReadw_hardwired :
    (pciCfgReadw (PciConfig.hardwired mask) c f.bus f.dev f.func off).1 =
      le16 (c.space f) (off.toNat / 2 * 2) ∧
    (pciCfgReadw (PciConfig.hardwired mask) c f.bus f.dev f.func off).2.space = c.space := by
  obtain ⟨hval, hspace⟩ := pciCfgReadl_hardwired mask c off f.bus f.dev f.func
  refine ⟨?_, hspace⟩
  rw [← pciCfgReadw_fst]
  exact congrArg UInt32.toUInt16 hval

lemma pciCfgReadb_hardwired :
    (pciCfgReadb (PciConfig.hardwired mask) c f.bus f.dev f.func off).1 =
      c.space f (off.toNat / 2 * 2) ∧
    (pciCfgReadb (PciConfig.hardwired mask) c f.bus f.dev f.func off).2.space = c.space := by
  obtain ⟨hval, hspace⟩ := pciCfgReadl_hardwired mask c off f.bus f.dev f.func
  refine ⟨?_, hspace⟩
  rw [← pciCfgReadb_fst]
  exact congrArg UInt32.toUInt8 hval

/-- A byte that is written goes to the start of its dword. -/
lemma pciCfgWriteb_hardwired (v : BYTE) :
    (pciCfgWriteb (PciConfig.hardwired mask) c f.bus f.dev f.func off v).space =
      Function.update c.space f (Function.update (c.space f) (off.toNat / 4 * 4)
        (PciConfig.masked (mask f (off.toNat / 4 * 4)) (c.space f (off.toNat / 4 * 4)) v)) := by
  have hport : PCI_PORT_CONF_DATA.toNat = 0xCFC := rfl
  rw [pciCfgWriteb, outl_hardwired]
  show (PciConfig.storeMasked mask _ PCI_PORT_CONF_DATA 1 fun _ => v).space = _
  rw [PciConfig.storeMasked, PciConfig.store_addr _ _ _ (by omega), PciConfig.selected_addr,
    PciConfig.register_addr, hport, Nat.sub_self, Nat.add_zero]
  funext g k
  simp only [PciConfig.stored]
  by_cases hg : g = f
  · subst hg
    rw [Function.update_self, Function.update_self]
    by_cases hk : k = off.toNat / 4 * 4
    · subst hk
      rw [Function.update_self, blit_of_mem le_rfl (by omega), Nat.sub_self, Nat.add_zero]
    · rw [Function.update_of_ne hk, blit_of_not_mem (by omega)]
  · rw [Function.update_of_ne hg, Function.update_of_ne hg]

end Hardwired

/-! ## One function -/

/-- What is not the console, and not the latch. -/
structure PciCore where
  space : PciFunction → ℕ → BYTE
  ints : PciIntTable
  handlers : LONG → LONG
  ide : IdeRegs

/-- What `s` has of that. -/
def PciKernel.core (s : PciKernel) : PciCore := ⟨s.cfg.space, s.ints, s.handlers, s.ide⟩

namespace PciConfig

/-- The function is there: it has a vendor and a device. -/
def Present (space : PciFunction → ℕ → BYTE) (f : PciFunction) : Prop :=
  le16 (space f) 0 ≠ 0xffff ∧ le16 (space f) 2 ≠ 0 ∧ le16 (space f) 2 ≠ 0xffff

instance (space : PciFunction → ℕ → BYTE) (f : PciFunction) : Decidable (Present space f) :=
  inferInstanceAs (Decidable (_ ∧ _ ∧ _))

/-- A disk controller: class 1 and subclass 1. -/
def IsDisk (space : PciFunction → ℕ → BYTE) (f : PciFunction) : Prop :=
  Present space f ∧ space f 0x0B = 1 ∧ space f 0x0A = 1

instance (space : PciFunction → ℕ → BYTE) (f : PciFunction) : Decidable (IsDisk space f) :=
  inferInstanceAs (Decidable (_ ∧ _ ∧ _))

/-- Its primary channel is in native mode or can be put into it: bit 0 of the programming interface
is set or can be written. -/
def CanBeNative (mask space : PciFunction → ℕ → BYTE) (f : PciFunction) : Prop :=
  (space f 9 ||| mask f 9) &&& 1 ≠ 0

instance (mask space : PciFunction → ℕ → BYTE) (f : PciFunction) :
    Decidable (CanBeNative mask space f) :=
  inferInstanceAs (Decidable (_ ≠ _))

/-- What `pci_setup` takes for a disk controller: the subclass is read for the class, too. -/
def TakenForDisk (space : PciFunction → ℕ → BYTE) (f : PciFunction) : Prop :=
  Present space f ∧ space f 0x0A = 1

instance (space : PciFunction → ℕ → BYTE) (f : PciFunction) : Decidable (TakenForDisk space f) :=
  inferInstanceAs (Decidable (_ ∧ _))

/-- What `ide_init` takes for native mode: the revision is read and written for the programming
interface. -/
def TakenForNative (mask space : PciFunction → ℕ → BYTE) (f : PciFunction) : Prop :=
  (space f 8 ||| mask f 8) &&& 1 ≠ 0

instance (mask space : PciFunction → ℕ → BYTE) (f : PciFunction) :
    Decidable (TakenForNative mask space f) :=
  inferInstanceAs (Decidable (_ ≠ _))

/-- The ports of the disk, from its base address registers. -/
def ports (space : PciFunction → ℕ → BYTE) (f : PciFunction) : IdeRegs :=
  idePorts (le32 (space f) 0x10) (le32 (space f) 0x14) (le32 (space f) 0x20)

/-- The interrupt line register after `0xFE` was written. -/
def tried (mask space : PciFunction → ℕ → BYTE) (f : PciFunction) : BYTE :=
  masked (mask f 0x3C) (space f 0x3C) 0xFE

/-- The interrupt line register after `ide_enable_int`. -/
def lineAfter (mask space : PciFunction → ℕ → BYTE) (f : PciFunction) : BYTE :=
  if tried mask space f = 0xFE then masked (mask f 0x3C) 0xFE IRQ10 else tried mask space f

/-- One byte of one function replaced. -/
def setByte (space : PciFunction → ℕ → BYTE) (f : PciFunction) (off : ℕ) (v : BYTE) :
    PciFunction → ℕ → BYTE :=
  Function.update space f (Function.update (space f) off v)

end PciConfig

open PciConfig

/-- What `ide_init` leaves behind if it succeeds, but for the revision. -/
def PciCore.routed (mask : PciFunction → ℕ → BYTE) (handleInt handleIrq : LONG) (k : PciCore)
    (f : PciFunction) : PciCore where
  space := setByte k.space f 0x3C (lineAfter mask k.space f)
  ints := if tried mask k.space f = 0xFE then
      (pciIntRequest k.ints f.bus.toUInt32 f.dev.toUInt32 f.func.toUInt32 ideDevId handleInt).2
    else k.ints
  handlers := if tried mask k.space f = 0xFE then k.handlers
    else Function.update (Function.update k.handlers IRQ14.toUInt32 handleIrq) IRQ15.toUInt32
      handleIrq
  ide := ports k.space f

/-- The register of the revision with another value. -/
def PciCore.revised (k : PciCore) (f : PciFunction) (v : BYTE) : PciCore :=
  { k with space := setByte k.space f 8 v }

/-- What `ide_init` leaves behind if it succeeds. -/
def PciCore.found (mask : PciFunction → ℕ → BYTE) (handleInt handleIrq : LONG) (k : PciCore)
    (f : PciFunction) : PciCore :=
  (k.revised f (k.space f 8 ||| 1)).routed mask handleInt handleIrq f

section Probe

variable {mask : PciFunction → ℕ → BYTE} (handleInt handleIrq : LONG) (s : PciKernel)
  (f : PciFunction)

@[simp] lemma PciKernel.core_puts (msg : List BYTE) : (s.puts msg).core = s.core := rfl

/-- A base address register. -/
lemma pciCfgReadBar_hardwired (c : PciConfig) {n : BYTE} (hn : n.toNat ≤ 5) :
    (pciCfgReadBar (hardwired mask) c f.bus.toUInt32 f.dev.toUInt32 f.func.toUInt32 n).1 =
      le32 (c.space f) (16 + 4 * n.toNat) ∧
    (pciCfgReadBar (hardwired mask) c f.bus.toUInt32 f.dev.toUInt32 f.func.toUInt32 n).2.space =
      c.space := by
  have hoff : (PCI_CFG_BR0 + n * 4).toNat = 16 + 4 * n.toNat := by
    have h4 : (4 : BYTE).toNat = 4 := rfl
    have h16 : PCI_CFG_BR0.toNat = 16 := rfl
    rw [UInt8.toNat_add, UInt8.toNat_mul, h4, h16]
    omega
  have hshift : (((PCI_CFG_BR0 + n * 4) &&& 2) * 8).toUInt32 = 0 := by
    rw [← UInt32.toNat_inj, toNat_readShift, hoff, UInt32.toNat_zero]
    omega
  have hdword : (16 + 4 * n.toNat) / 4 * 4 = 16 + 4 * n.toNat := by omega
  unfold pciCfgReadBar
  rw [UInt8.toUInt8_toUInt32, UInt8.toUInt8_toUInt32, UInt8.toUInt8_toUInt32]
  obtain ⟨hval, hspace⟩ :=
    pciCfgReadl_hardwired mask c (PCI_CFG_BR0 + n * 4) f.bus f.dev f.func
  refine ⟨?_, hspace⟩
  rw [hval, pciCfgReadl_fst, hshift, UInt32.shiftRight_zero, hoff, hdword]

/-- What is read and written for the programming interface is the revision. -/
lemma pif_hardwired (c : PciConfig) :
    ((pciCfgReadb (hardwired mask) c f.bus f.dev f.func PCI_CFG_PIF).1 = c.space f 8 ∧
      (pciCfgReadb (hardwired mask) c f.bus f.dev f.func PCI_CFG_PIF).2.space = c.space) ∧
    ∀ v, (pciCfgWriteb (hardwired mask) c f.bus f.dev f.func PCI_CFG_PIF v).space =
      setByte c.space f 8 (masked (mask f 8) (c.space f 8) v) :=
  ⟨pciCfgReadb_hardwired mask c f PCI_CFG_PIF, fun v => pciCfgWriteb_hardwired mask c f _ v⟩

/-- The register that was written. -/
lemma setByte_self (space : PciFunction → ℕ → BYTE) (off : ℕ) (v : BYTE) :
    setByte space f off v f off = v := by
  rw [setByte, Function.update_self, Function.update_self]

/-- Nothing is written. -/
lemma setByte_eq_self (space : PciFunction → ℕ → BYTE) (off : ℕ) :
    setByte space f off (space f off) = space := by
  rw [setByte, Function.update_eq_self, Function.update_eq_self]

/-- The revision after `ide_channel_setnative` with a mask of channels. -/
def revisionAfter (mask : PciFunction → ℕ → BYTE) (f : PciFunction) (chmask : LONG) (rev : BYTE) :
    BYTE :=
  if rev.toUInt32 &&& chmask = 0 then masked (mask f 8) rev (rev ||| 1) else rev

/-- The revision decides, and is written to. -/
lemma ideChannelSetnative_spec (channel : LONG) :
    let r := ideChannelSetnative (hardwired mask) s f.bus.toUInt32 f.dev.toUInt32 f.func.toUInt32
      channel
    let chmask : LONG := if channel = 2 then 4 else 1
    let rev := revisionAfter mask f chmask (s.cfg.space f 8)
    (r.1 = if rev.toUInt32 &&& chmask = 0 then 1 else 0) ∧ r.2.core = s.core.revised f rev := by
  have hread := fun c => (@pif_hardwired mask f c).1
  have hwrite := fun c => (@pif_hardwired mask f c).2
  have hset : ∀ v : BYTE, (v.toUInt32 ||| 1).toUInt8 = v ||| 1 := fun v => by
    rw [UInt32.toUInt8_or, UInt8.toUInt8_toUInt32]
    rfl
  unfold ideChannelSetnative
  generalize (if channel = 2 then (4 : LONG) else 1) = chmask
  simp only [UInt8.toUInt8_toUInt32, PciKernel.puts, hread, hwrite, hset, setByte_self]
  by_cases hcompat : (s.cfg.space f 8).toUInt32 &&& chmask = 0
  · have hrev : revisionAfter mask f chmask (s.cfg.space f 8) =
        masked (mask f 8) (s.cfg.space f 8) (s.cfg.space f 8 ||| 1) := if_pos hcompat
    rw [hrev]
    simp only [if_pos hcompat]
    split_ifs
    · exact ⟨rfl, by simp only [PciKernel.core, PciCore.revised, hread, hwrite]⟩
    · exact ⟨rfl, by simp only [PciKernel.core, PciCore.revised, hread, hwrite]⟩
  · have hrev : revisionAfter mask f chmask (s.cfg.space f 8) = s.cfg.space f 8 := if_neg hcompat
    rw [hrev]
    simp only [if_neg hcompat, PciKernel.core, PciCore.revised, hread, setByte_eq_self, true_and]

/-- The test for the first channel, which is made on a `LONG`. -/
lemma toUInt32_and_one (v : BYTE) : v.toUInt32 &&& 1 = 0 ↔ v &&& 1 = 0 := by
  rw [← UInt32.toNat_inj, ← UInt8.toNat_inj, UInt32.toNat_and, UInt8.toNat_and,
    UInt8.toNat_toUInt32]
  rfl

/-- The first channel: the revision gets bit 0 if it can. -/
lemma revisionAfter_one (rev : BYTE) : revisionAfter mask f 1 rev =
    if (rev ||| mask f 8) &&& 1 = 0 then rev else rev ||| 1 := by
  rw [revisionAfter, if_congr (toUInt32_and_one rev) rfl rfl]
  split_ifs with heven hfixed hfixed
  · rw [masked_or_one, if_pos hfixed]
  · rw [masked_or_one, if_neg hfixed]
  · rfl
  · have hodd := masked_or_one 0 rev
    rw [UInt8.or_zero, if_neg heven] at hodd
    rw [← hodd, masked, UInt8.and_zero, UInt8.or_zero]
    exact UInt8.and_neg_one.symm

/-- The second channel changes nothing behind the first. -/
lemma revisionAfter_four (rev : BYTE) :
    revisionAfter mask f 4 (rev ||| 1) = rev ||| 1 := by
  rw [revisionAfter, UInt8.or_assoc, UInt8.or_self, masked_self, ite_self]

/-- The interrupt line. -/
lemma ideEnableInt_spec :
    (ideEnableInt (hardwired mask) handleInt handleIrq s f.bus.toUInt32 f.dev.toUInt32
      f.func.toUInt32).core =
    { s.core.routed mask handleInt handleIrq f with ide := s.ide } := by
  have hoff : PCI_CFG_INT.toNat / 4 * 4 = 0x3C := rfl
  have hread : ∀ c, (pciCfgReadb (hardwired mask) c f.bus f.dev f.func PCI_CFG_INT).1 =
      c.space f 0x3C ∧
      (pciCfgReadb (hardwired mask) c f.bus f.dev f.func PCI_CFG_INT).2.space = c.space :=
    fun c => pciCfgReadb_hardwired mask c f PCI_CFG_INT
  have hwrite : ∀ c v, (pciCfgWriteb (hardwired mask) c f.bus f.dev f.func PCI_CFG_INT v).space =
      setByte c.space f 0x3C (masked (mask f 0x3C) (c.space f 0x3C) v) := by
    intro c v
    rw [pciCfgWriteb_hardwired, hoff, setByte]
  have hself : ∀ (space : PciFunction → ℕ → BYTE) v, setByte space f 0x3C v f 0x3C = v := by
    intro space v
    rw [setByte, Function.update_self, Function.update_self]
  have htwice : ∀ (space : PciFunction → ℕ → BYTE) v w,
      setByte (setByte space f 0x3C v) f 0x3C w = setByte space f 0x3C w := by
    intro space v w
    simp only [setByte, Function.update_self, Function.update_idem]
  have hff : ∀ v : BYTE, v.toUInt32 &&& 0xff = 0xfe ↔ v = 0xFE := by
    intro v
    have hlt := v.toNat_lt
    have hmask : v.toNat &&& 255 = v.toNat % 256 := Nat.and_two_pow_sub_one_eq_mod v.toNat 8
    have h255 : (0xff : LONG).toNat = 255 := rfl
    have h254 : (0xfe : LONG).toNat = 254 := rfl
    have h254' : (0xFE : BYTE).toNat = 254 := rfl
    rw [← UInt32.toNat_inj, ← UInt8.toNat_inj, UInt32.toNat_and, UInt8.toNat_toUInt32, h255, hmask,
      h254, h254']
    omega
  unfold ideEnableInt
  simp only [UInt8.toUInt8_toUInt32, PciKernel.puts, hread, hwrite, hself, hff]
  by_cases htake : tried mask s.cfg.space f = 0xFE
  · have hline : masked (mask f 0x3C) (s.cfg.space f 0x3C) 0xFE = 0xFE := htake
    simp only [hline, if_true]
    split_ifs
    · simp only [PciKernel.core, PciCore.routed, lineAfter, htake, hwrite, hread, hself, htwice,
        if_true, hline]
    · simp only [PciKernel.core, PciCore.routed, lineAfter, htake, hwrite, hread, hself, htwice,
        if_true, hline]
  · have hline : ¬ masked (mask f 0x3C) (s.cfg.space f 0x3C) 0xFE = 0xFE := htake
    simp only [hline, if_false, PciKernel.core, PciCore.routed, lineAfter, htake, hwrite, hread]
    rfl

/-- The ports, with the three base address registers read one after the other. -/
lemma idePorts_spec (mask : PciFunction → ℕ → BYTE) (c : PciConfig) (f : PciFunction) :
    let read := fun (c : PciConfig) (n : BYTE) =>
      pciCfgReadBar (hardwired mask) c f.bus.toUInt32 f.dev.toUInt32 f.func.toUInt32 n
    let bar0 := read c 0
    let bar1 := read bar0.2 1
    let bar4 := read bar1.2 4
    idePorts bar0.1 bar1.1 bar4.1 = ports c.space f ∧ bar4.2.space = c.space := by
  intro read bar0 bar1 bar4
  obtain ⟨h0, h0'⟩ := @pciCfgReadBar_hardwired mask f c 0 (by decide)
  obtain ⟨h1, h1'⟩ := @pciCfgReadBar_hardwired mask f bar0.2 1 (by decide)
  obtain ⟨h4, h4'⟩ := @pciCfgReadBar_hardwired mask f bar1.2 4 (by decide)
  have hspace : bar1.2.space = c.space := h1'.trans h0'
  refine ⟨?_, h4'.trans hspace⟩
  show idePorts (read c 0).1 (read bar0.2 1).1 (read bar1.2 4).1 = _
  rw [h0, h1, h4, hspace, h0']
  rfl

/-- **The driver of the disk.** It fails iff the revision is even and stays so. -/
lemma ideInit_spec :
    let r := ideInit (hardwired mask) handleInt handleIrq f.bus.toUInt32 f.dev.toUInt32
      f.func.toUInt32 s
    (r.1 ≠ 0 ↔ ¬ TakenForNative mask s.cfg.space f) ∧
    r.2.core = if TakenForNative mask s.cfg.space f then s.core.found mask handleInt handleIrq f
      else s.core := by
  obtain ⟨hres, hcore⟩ := @ideChannelSetnative_spec mask (s.puts (text "[ide] init\n")) f 1
  have hone : (if (1 : LONG) = 2 then (4 : LONG) else 1) = 1 := rfl
  simp only [hone, revisionAfter_one, toUInt32_and_one] at hres
  rw [hone, revisionAfter_one] at hcore
  unfold ideInit
  dsimp only
  set r := ideChannelSetnative (hardwired mask) (s.puts (text "[ide] init\n")) f.bus.toUInt32
    f.dev.toUInt32 f.func.toUInt32 1
  replace hcore : r.2.core = s.core.revised f
      (if (s.cfg.space f 8 ||| mask f 8) &&& 1 = 0 then s.cfg.space f 8
        else s.cfg.space f 8 ||| 1) := hcore
  replace hres : r.1 = if (if (s.cfg.space f 8 ||| mask f 8) &&& 1 = 0 then s.cfg.space f 8
        else s.cfg.space f 8 ||| 1) &&& 1 = 0 then 1 else 0 := hres
  by_cases hnative : TakenForNative mask s.cfg.space f
  · rw [if_neg hnative] at hres hcore
    have hzero : r.1 = 0 := hres.trans (if_neg (or_one_and_one_ne_zero _))
    rw [if_neg (not_not_intro hzero), if_pos hnative]
    refine ⟨iff_of_false (not_not_intro rfl) (not_not_intro hnative), ?_⟩
    obtain ⟨-, hcore'⟩ := @ideChannelSetnative_spec mask r.2 f 2
    set t := (ideChannelSetnative (hardwired mask) r.2 f.bus.toUInt32 f.dev.toUInt32
      f.func.toUInt32 2).2
    have hrev : r.2.cfg.space f 8 = s.cfg.space f 8 ||| 1 := by
      have hspace : r.2.cfg.space = _ := congrArg PciCore.space hcore
      rw [hspace]
      exact setByte_self f _ _ _
    have hfour : (if (2 : LONG) = 2 then (4 : LONG) else 1) = 4 := rfl
    rw [hfour, hrev, revisionAfter_four] at hcore'
    have hsame : t.core = s.core.revised f (s.cfg.space f 8 ||| 1) := by
      rw [hcore', hcore]
      simp only [PciCore.revised, setByte, Function.update_self, Function.update_idem]
    obtain ⟨hports, hspace⟩ :=
      idePorts_spec mask (t.puts (text "[ide] channel 2 won't be used\n")).cfg f
    have hfound : s.core.found mask handleInt handleIrq f =
        t.core.routed mask handleInt handleIrq f := by
      rw [hsame]
      rfl
    rw [ideEnableInt_spec, hfound]
    simp only [PciKernel.core, PciCore.routed, hspace, hports]
    rfl
  · have hfixed : (s.cfg.space f 8 ||| mask f 8) &&& 1 = 0 := not_not.mp hnative
    rw [if_pos hfixed] at hres hcore
    have hone : r.1 = 1 := hres.trans (if_pos (or_and_one_eq_zero_iff.mp hfixed).1)
    have hfails : r.1 ≠ 0 := by
      rw [hone]
      exact one_ne_zero
    have hsame : r.2.core = s.core := by
      rw [hcore, PciCore.revised]
      show ({ s.core with space := setByte s.cfg.space f 8 (s.cfg.space f 8) } : PciCore) = s.core
      rw [setByte_eq_self]
      rfl
    rw [if_pos hfails, if_neg hnative]
    exact ⟨iff_of_true one_ne_zero hnative, hsame⟩

/-- **What is done for one function.** -/
lemma pciProbe_spec :
    (pciProbe (hardwired mask) (pciDevices (hardwired mask) handleInt handleIrq) s f.bus f.dev
      f.func).core =
    if TakenForDisk s.cfg.space f ∧ TakenForNative mask s.cfg.space f then
      s.core.found mask handleInt handleIrq f
    else s.core := by
  obtain ⟨hven, hven'⟩ := pciCfgReadw_hardwired mask s.cfg f PCI_CFG_VEN
  unfold pciProbe
  dsimp only
  set vendor := pciCfgReadw (hardwired mask) s.cfg f.bus f.dev f.func PCI_CFG_VEN
  obtain ⟨hdev, hdev'⟩ := pciCfgReadw_hardwired mask vendor.2 f PCI_CFG_DEV
  set devid := pciCfgReadw (hardwired mask) vendor.2 f.bus f.dev f.func PCI_CFG_DEV
  obtain ⟨hcla, hcla'⟩ := pciCfgReadb_hardwired mask devid.2 f PCI_CFG_CLA
  set cls := pciCfgReadb (hardwired mask) devid.2 f.bus f.dev f.func PCI_CFG_CLA
  obtain ⟨hscl, hscl'⟩ := pciCfgReadb_hardwired mask cls.2 f PCI_CFG_SCL
  set sclass := pciCfgReadb (hardwired mask) cls.2 f.bus f.dev f.func PCI_CFG_SCL
  have hspace : devid.2.space = s.cfg.space := hdev'.trans hven'
  have hlast : sclass.2.space = s.cfg.space := hscl'.trans (hcla'.trans hspace)
  replace hven : vendor.1 = le16 (s.cfg.space f) 0 := hven
  replace hdev : devid.1 = le16 (s.cfg.space f) 2 := by rw [hdev, hven']; rfl
  -- both class codes are the byte at the subclass
  replace hcla : cls.1 = s.cfg.space f 0x0A := by rw [hcla, hspace]; rfl
  replace hscl : sclass.1 = s.cfg.space f 0x0A := by rw [hscl, hcla', hspace]; rfl
  have hcore : ∀ out, (PciKernel.mk sclass.2 s.ints s.handlers s.ide out).core = s.core := by
    intro out
    rw [PciKernel.core, hlast, PciKernel.core]
  by_cases hnone : vendor.1 = 0xffff
  · rw [if_pos hnone, if_neg fun h => h.1.1.1 (hven ▸ hnone)]
    simp only [PciKernel.core, hven']
  rw [if_neg hnone]
  by_cases hbad : devid.1 = 0x0000 ∨ devid.1 = 0xffff
  · rw [if_pos hbad, hcore, if_neg]
    rintro ⟨⟨⟨-, h0, hf⟩, -⟩, -⟩
    rw [hdev] at hbad
    exact hbad.elim h0 hf
  rw [if_neg hbad]
  rw [hven] at hnone
  rw [hdev, not_or] at hbad
  have htable : (pciDevices (hardwired mask) handleInt handleIrq).take 256 =
      [pciDevDisk (hardwired mask) handleInt handleIrq] := rfl
  have hlen : (pciDevDisk (hardwired mask) handleInt handleIrq).idsLen = 33 := rfl
  have hcode : (pciDevDisk (hardwired mask) handleInt handleIrq).classCode = 1 ∧
      (pciDevDisk (hardwired mask) handleInt handleIrq).subclass = 1 := ⟨rfl, rfl⟩
  rw [htable, pciDrivers]
  dsimp only
  rw [if_pos hlen, hcode.1, hcode.2, hcla, hscl]
  by_cases hsub : s.cfg.space f 0x0A = 1
  · have hdisk : TakenForDisk s.cfg.space f := ⟨⟨hnone, hbad⟩, hsub⟩
    rw [if_pos ⟨hsub.symm, hsub.symm⟩]
    have hinit : (pciDevDisk (hardwired mask) handleInt handleIrq).initf =
        some (ideInit (hardwired mask) handleInt handleIrq) := rfl
    unfold pciCallDriver
    rw [hinit]
    dsimp only
    set t : PciKernel := PciKernel.puts ⟨sclass.2, s.ints, s.handlers, s.ide, s.out⟩ _
    obtain ⟨hres, hfound⟩ := @ideInit_spec mask handleInt handleIrq t f
    have htspace : t.cfg.space = s.cfg.space := hlast
    have htcore : t.core = s.core := hcore s.out
    rw [htspace, htcore] at hfound
    split_ifs with hfail hboth hboth
    · rw [PciKernel.core_puts, hfound, if_pos hboth.2]
    · rw [PciKernel.core_puts, hfound, if_neg fun hnative => hboth ⟨hdisk, hnative⟩]
    · rw [PciKernel.core_puts, hfound, if_pos hboth.2]
    · rw [PciKernel.core_puts, hfound, if_neg fun hnative => hboth ⟨hdisk, hnative⟩]
  · rw [if_neg fun h => hsub h.1.symm, if_neg fun h => hsub h.1.2, pciDrivers,
      PciKernel.core_puts, hcore]

end Probe

/-! ## All functions -/

/-- The functions that the driver succeeds for. -/
def takenIn (mask space : PciFunction → ℕ → BYTE) (fs : List PciFunction) : List PciFunction :=
  fs.filter fun f => TakenForDisk space f ∧ TakenForNative mask space f

/-- The functions that it should succeed for. -/
def disksIn (mask space : PciFunction → ℕ → BYTE) (fs : List PciFunction) : List PciFunction :=
  fs.filter fun f => IsDisk space f ∧ CanBeNative mask space f

/-- The registers of a function that the driver succeeded for: bit 0 of the revision is set, and the
interrupt line is routed. -/
def registersAfter (mask space : PciFunction → ℕ → BYTE) (f : PciFunction) (off : ℕ) : BYTE :=
  if off = 0x3C then lineAfter mask space f
  else if off = 8 then space f 8 ||| 1
  else space f off

/-- When the driver succeeds for the right functions. -/
lemma takenIn_eq_disksIn_iff (mask space : PciFunction → ℕ → BYTE) (fs : List PciFunction) :
    takenIn mask space fs = disksIn mask space fs ↔ ∀ f ∈ fs, TakenForDisk space f →
      (TakenForNative mask space f ↔ space f 0x0B = 1 ∧ CanBeNative mask space f) := by
  have hfilter : takenIn mask space fs = disksIn mask space fs ↔ ∀ f ∈ fs,
      (TakenForDisk space f ∧ TakenForNative mask space f ↔
        IsDisk space f ∧ CanBeNative mask space f) := by
    constructor
    · intro heq f hf
      have hmem : f ∈ takenIn mask space fs ↔ f ∈ disksIn mask space fs := by rw [heq]
      simpa only [takenIn, disksIn, List.mem_filter, hf, true_and, decide_eq_true_eq] using hmem
    · exact fun h => List.filter_congr fun f hf => decide_eq_decide.mpr (h f hf)
  rw [hfilter]
  refine forall₂_congr fun f _ => ?_
  rw [IsDisk, TakenForDisk]
  tauto

/-- What the driver enters in the table of shared interrupts. -/
def ideEntry (handleInt : LONG) (f : PciFunction) : PciIntEntry :=
  ⟨ideDevId, handleInt, f.bus.toUInt32, f.dev.toUInt32, f.func.toUInt32⟩

/-- **What is left behind** when the functions `fs` have been looked at, `k` being what was there
before: only the revision and the interrupt line of those taken are changed; those whose interrupt
line can be written make the entries in the table, as long as there is room; the others, if there
are any, put the handler at IRQ14 and IRQ15; the ports are those of the last one taken. -/
structure Searched (mask : PciFunction → ℕ → BYTE) (handleInt handleIrq : LONG) (k : PciCore)
    (fs : List PciFunction) (t : PciCore) : Prop where
  space : ∀ f off, t.space f off =
    if f ∈ takenIn mask k.space fs then registersAfter mask k.space f off else k.space f off
  ints : registrations t.ints =
    ((((takenIn mask k.space fs).filter fun f => tried mask k.space f = 0xFE).take 256).map
      (ideEntry handleInt) : List PciIntEntry)
  handlers : ∀ id, t.handlers id =
    if (id = IRQ14.toUInt32 ∨ id = IRQ15.toUInt32) ∧
      (∃ f ∈ takenIn mask k.space fs, tried mask k.space f ≠ 0xFE) then handleIrq
    else k.handlers id
  ide : t.ide = ((takenIn mask k.space fs).getLast?.map (ports k.space)).getD k.ide

section Found

variable {mask : PciFunction → ℕ → BYTE} {handleInt handleIrq : LONG} {k t : PciCore}
  {fs : List PciFunction} {f : PciFunction}

/-- A further request adds an entry as long as there is room. -/
lemma registrations_request (handleInt : LONG) (table : PciIntTable) (l : List PciFunction)
    (f : PciFunction)
    (h : registrations table = ((l.take 256).map (ideEntry handleInt) : List PciIntEntry)) :
    registrations (pciIntRequest table f.bus.toUInt32 f.dev.toUInt32 f.func.toUInt32 ideDevId
      handleInt).2 = (((l ++ [f]).take 256).map (ideEntry handleInt) : List PciIntEntry) := by
  have hcard := card_registrations_eq_iff table
  rw [h, Multiset.coe_card, List.length_map, List.length_take] at hcard
  obtain ⟨i, hi, hfree, -, hreq⟩ | ⟨hfull, hreq⟩ :=
    pciIntRequest_cases table f.bus.toUInt32 f.dev.toUInt32 f.func.toUInt32 ideDevId handleInt
  · have hroom : l.length < 256 := by
      by_contra hlen
      exact (hcard.mp (by omega)) i hi hfree
    have hnew : (⟨ideDevId, handleInt, f.bus.toUInt32, f.dev.toUInt32, f.func.toUInt32⟩ :
        PciIntEntry) = ideEntry handleInt f := rfl
    rw [hreq, hnew, registrations_update hi hfree (by decide : ideDevId ≠ 0), h,
      List.take_of_length_le (by omega),
      List.take_of_length_le (by rw [List.length_append, List.length_singleton]; omega),
      List.map_append, ← Multiset.coe_add, add_comm]
    rfl
  · have hroom : 256 ≤ l.length := by
      have hmin := hcard.mpr hfull
      omega
    rw [hreq, h, List.take_append_of_le_length hroom]

/-- What the driver leaves behind for a function whose registers are still those of `k`. -/
lemma PciCore.found_eq (hown : t.space f = k.space f) :
    t.found mask handleInt handleIrq f =
      { space := Function.update t.space f (registersAfter mask k.space f)
        ints := if tried mask k.space f = 0xFE then
            (pciIntRequest t.ints f.bus.toUInt32 f.dev.toUInt32 f.func.toUInt32 ideDevId
              handleInt).2
          else t.ints
        handlers := if tried mask k.space f = 0xFE then t.handlers
          else Function.update (Function.update t.handlers IRQ14.toUInt32 handleIrq)
            IRQ15.toUInt32 handleIrq
        ide := ports k.space f } := by
  -- the registers looked at behind the revision are not the revision
  have hrev : ∀ off, off ≠ 8 → (t.revised f (t.space f 8 ||| 1)).space f off = k.space f off := by
    intro off hoff
    show Function.update t.space f (Function.update (t.space f) 8 _) f off = _
    rw [Function.update_self, Function.update_of_ne hoff, hown]
  have htried : tried mask (t.revised f (t.space f 8 ||| 1)).space f = tried mask k.space f := by
    rw [tried, hrev _ (by omega), tried]
  have hline : lineAfter mask (t.revised f (t.space f 8 ||| 1)).space f =
      lineAfter mask k.space f := by
    rw [lineAfter, htried, lineAfter]
  have hports : ports (t.revised f (t.space f 8 ||| 1)).space f = ports k.space f := by
    have hbar : ∀ o, 0x10 ≤ o → le32 ((t.revised f (t.space f 8 ||| 1)).space f) o =
        le32 (k.space f) o := fun o ho => le32_congr fun j hj => hrev _ (by omega)
    rw [ports, hbar _ le_rfl, hbar _ (by omega), hbar _ (by omega), ports]
  have hspace : setByte (t.revised f (t.space f 8 ||| 1)).space f 0x3C (lineAfter mask k.space f) =
      Function.update t.space f (registersAfter mask k.space f) := by
    funext g off
    by_cases hg : g = f
    · subst hg
      rw [setByte, Function.update_self, Function.update_self, registersAfter]
      by_cases hoff : off = 0x3C
      · rw [hoff, Function.update_self, if_pos rfl]
      · rw [Function.update_of_ne hoff, if_neg hoff]
        by_cases h8 : off = 8
        · rw [h8, if_pos rfl, ← hown]
          exact setByte_self g t.space 8 _
        · rw [if_neg h8, hrev off h8]
    · rw [setByte, Function.update_of_ne hg, Function.update_of_ne hg, PciCore.revised]
      exact congrFun (Function.update_of_ne hg _ _) off
  rw [found, routed, htried, hline, hports, hspace]
  rfl

/-- The handlers, with one function more. -/
lemma Searched.handlers_next (h : Searched mask handleInt handleIrq k fs t) (f : PciFunction)
    (id : LONG) :
    (if tried mask k.space f = 0xFE then t.handlers
      else Function.update (Function.update t.handlers IRQ14.toUInt32 handleIrq)
        IRQ15.toUInt32 handleIrq) id =
    if (id = IRQ14.toUInt32 ∨ id = IRQ15.toUInt32) ∧
      (∃ g ∈ takenIn mask k.space fs ++ [f], tried mask k.space g ≠ 0xFE) then handleIrq
    else k.handlers id := by
  have hmem : ∀ g, g ∈ takenIn mask k.space fs ++ [f] ↔ g ∈ takenIn mask k.space fs ∨ g = f :=
    fun g => by rw [List.mem_append, List.mem_singleton]
  by_cases hw : tried mask k.space f = 0xFE
  · rw [if_pos hw, h.handlers]
    refine if_congr (and_congr_right fun _ => ?_) rfl rfl
    constructor
    · rintro ⟨g, hg, hne⟩
      exact ⟨g, (hmem g).mpr (.inl hg), hne⟩
    · rintro ⟨g, hg, hne⟩
      obtain hg | rfl := (hmem g).mp hg
      · exact ⟨g, hg, hne⟩
      · exact absurd hw hne
  · rw [if_neg hw]
    have hex : ∃ g ∈ takenIn mask k.space fs ++ [f], tried mask k.space g ≠ 0xFE :=
      ⟨f, (hmem f).mpr (.inr rfl), hw⟩
    by_cases h15 : id = IRQ15.toUInt32
    · rw [h15, Function.update_self, if_pos ⟨.inr rfl, hex⟩]
    · rw [Function.update_of_ne h15]
      by_cases h14 : id = IRQ14.toUInt32
      · rw [h14, Function.update_self, if_pos ⟨.inl rfl, hex⟩]
      · rw [Function.update_of_ne h14, h.handlers, if_neg fun hc => hc.1.elim h14 h15,
          if_neg fun hc => hc.1.elim h14 h15]

/-- One function more. -/
lemma Searched.next (h : Searched mask handleInt handleIrq k fs t) (hf : f ∉ fs) :
    Searched mask handleInt handleIrq k (fs ++ [f])
      (if TakenForDisk t.space f ∧ TakenForNative mask t.space f then
        t.found mask handleInt handleIrq f
      else t) := by
  have hnot : f ∉ takenIn mask k.space fs := fun hmem => hf (List.mem_of_mem_filter hmem)
  have hown : t.space f = k.space f := by
    funext off
    rw [h.space, if_neg hnot]
  have hdisk : (TakenForDisk t.space f ∧ TakenForNative mask t.space f) ↔
      (TakenForDisk k.space f ∧ TakenForNative mask k.space f) := by
    simp only [TakenForDisk, Present, TakenForNative, hown]
  by_cases hd : TakenForDisk k.space f ∧ TakenForNative mask k.space f
  · have hdisks : takenIn mask k.space (fs ++ [f]) = takenIn mask k.space fs ++ [f] := by
      rw [takenIn, List.filter_append, List.filter_singleton, decide_eq_true hd]
      rfl
    rw [if_pos (hdisk.mpr hd), PciCore.found_eq hown]
    refine ⟨fun g off => ?_, ?_, fun id => ?_, ?_⟩
    · rw [hdisks]
      simp only [List.mem_append, List.mem_singleton]
      by_cases hg : g = f
      · rw [hg, Function.update_self, if_pos (.inr rfl)]
      · rw [Function.update_of_ne hg, h.space]
        simp only [hg, or_false]
    · rw [hdisks, List.filter_append]
      dsimp only
      by_cases hw : tried mask k.space f = 0xFE
      · rw [if_pos hw, List.filter_singleton, decide_eq_true hw]
        exact registrations_request handleInt t.ints _ f h.ints
      · rw [if_neg hw, List.filter_singleton, decide_eq_false hw, h.ints]
        exact congrArg (fun l : List PciFunction =>
          (((l.take 256).map (ideEntry handleInt) : List PciIntEntry) : Multiset PciIntEntry))
          (List.append_nil _).symm
    · rw [hdisks]
      exact h.handlers_next f id
    · rw [hdisks, List.getLast?_append, List.getLast?_singleton]
      rfl
  · have hdisks : takenIn mask k.space (fs ++ [f]) = takenIn mask k.space fs := by
      rw [takenIn, List.filter_append, List.filter_singleton, decide_eq_false hd]
      exact List.append_nil _
    rw [if_neg fun hc => hd (hdisk.mp hc)]
    exact ⟨by rw [hdisks]; exact h.space, by rw [hdisks]; exact h.ints,
      by rw [hdisks]; exact h.handlers, by rw [hdisks]; exact h.ide⟩

/-- The functions one after the other. -/
lemma searched_foldl (handleInt handleIrq : LONG) (s : PciKernel)
    (hints : registrations s.ints = 0) (fs : List PciFunction) (hnodup : fs.Nodup) :
    Searched mask handleInt handleIrq s.core fs
      (fs.foldl (fun s f => pciProbe (hardwired mask)
        (pciDevices (hardwired mask) handleInt handleIrq) s f.bus f.dev f.func) s).core := by
  induction fs using List.reverseRecOn with
  | nil =>
    refine ⟨fun f off => ?_, ?_, fun id => ?_, rfl⟩
    · exact (if_neg List.not_mem_nil).symm
    · exact hints
    · refine (if_neg ?_).symm
      rintro ⟨-, f, hf, -⟩
      exact List.not_mem_nil hf
  | append_singleton fs f ih =>
    rw [List.nodup_append] at hnodup
    have hf : f ∉ fs := fun hmem => hnodup.2.2 f hmem f (List.mem_singleton_self f) rfl
    rw [List.foldl_append, List.foldl_cons, List.foldl_nil,
      pciProbe_spec handleInt handleIrq _ f]
    exact (ih hnodup.1).next hf

end Found

/-- Device 2 of bus 0. -/
def PciFunction.bridge : PciFunction := { PciFunction.disk with dev := 2, dev_lt := by decide }

end Korolev
