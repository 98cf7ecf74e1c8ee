import Korolev.Dev.Pci

set_option relaxedAutoImplicit false
set_option autoImplicit false

/-!
# PCI: the configuration space behind the two ports

Configuration mechanism #1 has an address latch at port `0xCF8` and a window of four bytes at the
ports `0xCFC` to `0xCFF`. The latch holds a bus, a device, a function and the number of an aligned
dword; the window is that dword, and an access of one or two bytes at port `0xCFC + k` is an access
to its bytes from `k` on.

The accessors of `dev/pci.c` all latch the offset without its two low bits and use port `0xCFC`
alone. The reads make up for bit 1 of the offset by a shift; bit 0 is lost, and the writes make up
for neither of them. So reads are right at even offsets, and writes at offsets divisible by four.

## Main definitions

* `Korolev.PciFunction` — a function on one of the buses.
* `Korolev.PciConfig` — the latch and the configuration space of every function.
* `Korolev.PciConfig.bus` — mechanism #1, as the accesses a driver can make.
* `Korolev.PciConfig.stored` — the space with bytes of one function replaced.

## Main results

* `Korolev.PciConfig.selected_addr`, `Korolev.PciConfig.register_addr` — what the address of a
  register selects.
* `Korolev.pci_cfg_narrow_iff` — when the byte and word accessors hit the register they are
  given.
* `Korolev.pci_cfg_wide` — word and dword reads return the last dword written.
-/

namespace Korolev

open Bytes

/-! ## Configuration mechanism #1 -/

/-- A function of a device. -/
@[ext] structure PciFunction where
  bus : BYTE
  dev : BYTE
  func : BYTE
  dev_lt : dev.toNat < 32
  func_lt : func.toNat < 8
  deriving DecidableEq

/-- The address latch, and the configuration space of every function. -/
structure PciConfig where
  latch : LONG
  space : PciFunction → ℕ → BYTE

namespace PciConfig

variable (c : PciConfig)

/-- The function the latch selects: bits 23 to 16 are its bus, bits 15 to 11 its device. -/
def selected : PciFunction where
  bus := UInt8.ofNat (c.latch.toNat / 2 ^ 16)
  dev := UInt8.ofNat (c.latch.toNat / 2 ^ 11 % 32)
  func := UInt8.ofNat (c.latch.toNat / 2 ^ 8 % 8)
  dev_lt := by
    rw [UInt8.toNat_ofNat']
    omega
  func_lt := by
    rw [UInt8.toNat_ofNat']
    omega

/-- The dword the latch selects: its two low bits are not wired. -/
def register : ℕ := c.latch.toNat % 256 / 4 * 4

/-- An access to `n` bytes at `port` is one to the window. Bit 31 of the latch enables it. -/
def Windowed (port : WORD) (n : ℕ) : Prop :=
  2 ^ 31 ≤ c.latch.toNat ∧ 0xCFC ≤ port.toNat ∧ port.toNat + n ≤ 0xD00

instance (port : WORD) (n : ℕ) : Decidable (c.Windowed port n) :=
  inferInstanceAs (Decidable (_ ∧ _ ∧ _))

/-- The space with the `n` bytes of the function `f` from `off` on replaced by those of `src`. -/
def stored (space : PciFunction → ℕ → BYTE) (f : PciFunction) (off n : ℕ) (src : ℕ → BYTE) :
    PciFunction → ℕ → BYTE :=
  Function.update space f (blit (space f) off n src)

/-- The bytes seen at `port`; nothing drives the other ports. -/
def load (port : WORD) (n : ℕ) : ℕ → BYTE := fun k =>
  if c.Windowed port n then c.space c.selected (c.register + (port.toNat - 0xCFC) + k) else 0xFF

/-- A store of `n` bytes at `port`. -/
def store (port : WORD) (n : ℕ) (src : ℕ → BYTE) : PciConfig :=
  if c.Windowed port n then
    { c with space := stored c.space c.selected (c.register + (port.toNat - 0xCFC)) n src }
  else c

/-- Configuration mechanism #1. The latch takes dwords only; there is no memory behind the ports. -/
def bus : Bus PciConfig where
  inb c port := (c.load port 1 0, c)
  inl c port := (if port = PCI_PORT_CONF_ADDR then c.latch else le32 (c.load port 4) 0, c)
  outb c port v := c.store port 1 fun _ => v
  outw c port v := c.store port 2 (bytes16 v)
  outl c port v :=
    if port = PCI_PORT_CONF_ADDR then { c with latch := v } else c.store port 4 (bytes32 v)
  read8 c _ := (0xFF, c)
  read32 c _ := (0xFFFFFFFF, c)
  write32 c _ _ := c

end PciConfig

/-! ## The address -/

/-- The offset without its two low bits. -/
lemma toNat_and_fc (off : BYTE) : (off &&& 0xFC).toNat = off.toNat / 4 * 4 := by
  have hoff := off.toNat_lt
  have hmask : off.toNat &&& (0xFC : BYTE).toNat = off.toNat / 4 % 64 * 4 := and_field off.toNat 2 6
  rw [UInt8.toNat_and, hmask]
  omega

/-- A byte moved up in a `LONG`. -/
lemma toNat_toUInt32_shiftLeft (b : BYTE) {k : LONG} (hk : k.toNat ≤ 24) :
    (b.toUInt32 <<< k).toNat = b.toNat * 2 ^ k.toNat := by
  have hb := b.toNat_lt
  have hpow : 2 ^ k.toNat ≤ 2 ^ 24 := Nat.pow_le_pow_right (by omega) hk
  have hlt : b.toNat * 2 ^ k.toNat < 2 ^ 32 := by
    calc b.toNat * 2 ^ k.toNat ≤ 255 * 2 ^ 24 := Nat.mul_le_mul (by omega) hpow
      _ < 2 ^ 32 := by omega
  rw [UInt32.toNat_shiftLeft, UInt8.toNat_toUInt32, Nat.shiftLeft_eq,
    Nat.mod_eq_of_lt (show k.toNat < 32 by omega), Nat.mod_eq_of_lt hlt]

/-- The fields of an address do not overlap. -/
lemma toNat_pciCfgAddr (f : PciFunction) (off : BYTE) :
    (pciCfgAddr f.bus f.dev f.func off).toNat =
      1 * 2 ^ 31 + (f.bus.toNat * 2 ^ 16 + (f.dev.toNat * 2 ^ 11 + (f.func.toNat * 2 ^ 8 +
        off.toNat / 4 * 4))) := by
  have hlt := f.bus.toNat_lt
  have hdev_lt := f.dev_lt
  have hfunc_lt := f.func_lt
  have hoff := off.toNat_lt
  have hbus : (f.bus.toUInt32 <<< 16).toNat = f.bus.toNat * 2 ^ 16 :=
    toNat_toUInt32_shiftLeft f.bus (by decide)
  have hdev : (f.dev.toUInt32 <<< 11).toNat = f.dev.toNat * 2 ^ 11 :=
    toNat_toUInt32_shiftLeft f.dev (by decide)
  have hfunc : (f.func.toUInt32 <<< 8).toNat = f.func.toNat * 2 ^ 8 :=
    toNat_toUInt32_shiftLeft f.func (by decide)
  have htop : (0x80000000 : LONG).toNat = 1 * 2 ^ 31 := rfl
  rw [pciCfgAddr, UInt32.toNat_or, UInt32.toNat_or, UInt32.toNat_or, UInt32.toNat_or,
    UInt8.toNat_toUInt32, toNat_and_fc, hbus, hdev, hfunc, htop, Nat.or_comm _ (1 * 2 ^ 31),
    Nat.or_assoc, Nat.or_assoc]
  -- from the shortest field on, every field is put in front of those behind it
  rw [or_eq_add (a := f.func.toNat) (by omega), or_eq_add (a := f.dev.toNat) (by omega),
    or_eq_add (a := f.bus.toNat) (by omega), or_eq_add (a := 1) (by omega)]

namespace PciConfig

/-- The address of a register selects the function it is made from. -/
lemma selected_addr (space : PciFunction → ℕ → BYTE) (f : PciFunction) (off : BYTE) :
    selected ⟨pciCfgAddr f.bus f.dev f.func off, space⟩ = f := by
  have haddr := toNat_pciCfgAddr f off
  have hbus := f.bus.toNat_lt
  have hdev := f.dev_lt
  have hfunc := f.func_lt
  have hoff := off.toNat_lt
  apply PciFunction.ext
  all_goals
    rw [← UInt8.toNat_inj]
    simp only [selected, UInt8.toNat_ofNat', haddr]
    omega

/-- The address of a register selects the dword it is in. -/
lemma register_addr (space : PciFunction → ℕ → BYTE) (f : PciFunction) (off : BYTE) :
    register ⟨pciCfgAddr f.bus f.dev f.func off, space⟩ = off.toNat / 4 * 4 := by
  have haddr := toNat_pciCfgAddr f off
  have hoff := off.toNat_lt
  simp only [register, haddr]
  omega

/-- An address enables the window. -/
lemma windowed_addr (space : PciFunction → ℕ → BYTE) (f : PciFunction) (off : BYTE) {n : ℕ}
    (hn : n ≤ 4) :
    Windowed ⟨pciCfgAddr f.bus f.dev f.func off, space⟩ PCI_PORT_CONF_DATA n := by
  have haddr := toNat_pciCfgAddr f off
  have hport : PCI_PORT_CONF_DATA.toNat = 0xCFC := rfl
  simp only [Windowed, haddr, hport]
  omega

/-- A store to the window, with the address of a register in the latch. -/
lemma store_addr (space : PciFunction → ℕ → BYTE) (f : PciFunction) (off : BYTE) {n : ℕ}
    (hn : n ≤ 4) (src : ℕ → BYTE) :
    store ⟨pciCfgAddr f.bus f.dev f.func off, space⟩ PCI_PORT_CONF_DATA n src =
      ⟨pciCfgAddr f.bus f.dev f.func off, stored space f (off.toNat / 4 * 4) n src⟩ := by
  have hport : PCI_PORT_CONF_DATA.toNat = 0xCFC := rfl
  rw [store, if_pos (windowed_addr space f off hn), selected_addr, register_addr, hport,
    Nat.sub_self, Nat.add_zero]

/-- The window, with the address of a register in the latch. -/
lemma le32_load_addr (space : PciFunction → ℕ → BYTE) (f : PciFunction) (off : BYTE) :
    le32 (load ⟨pciCfgAddr f.bus f.dev f.func off, space⟩ PCI_PORT_CONF_DATA 4) 0 =
      le32 (space f) (off.toNat / 4 * 4) := by
  have hport : PCI_PORT_CONF_DATA.toNat = 0xCFC := rfl
  refine le32_congr fun k _ => ?_
  rw [load, if_pos (windowed_addr space f off (by omega)), selected_addr, register_addr, hport,
    Nat.sub_self, Nat.add_zero, Nat.zero_add]

end PciConfig

/-! ## The accessors -/

section Accessors

variable (c : PciConfig) (f : PciFunction) (off : BYTE)

/-- Only bit 1 of the offset makes a shift. -/
lemma toNat_readShift : ((off &&& 2) * 8).toUInt32.toNat = off.toNat / 2 % 2 * 16 := by
  have hmask : off.toNat &&& (2 : BYTE).toNat = off.toNat / 2 % 2 * 2 := and_field off.toNat 1 1
  have height : (8 : BYTE).toNat = 8 := rfl
  rw [UInt8.toNat_toUInt32, UInt8.toNat_mul, UInt8.toNat_and, hmask, height]
  omega

lemma pciCfgReadl_fst : (pciCfgReadl PciConfig.bus c f.bus f.dev f.func off).1 =
    le32 (c.space f) (off.toNat / 4 * 4) >>> ((off &&& 2) * 8).toUInt32 :=
  congrArg (· >>> ((off &&& 2) * 8).toUInt32) (PciConfig.le32_load_addr c.space f off)

/-- A word read loses bit 0 of the offset. -/
lemma pciCfgReadw_fst : (pciCfgReadw PciConfig.bus c f.bus f.dev f.func off).1 =
    le16 (c.space f) (off.toNat / 2 * 2) := by
  have hshift := toNat_readShift off
  calc (pciCfgReadw PciConfig.bus c f.bus f.dev f.func off).1
      = (le32 (c.space f) (off.toNat / 4 * 4) >>> ((off &&& 2) * 8).toUInt32).toUInt16 :=
        congrArg UInt32.toUInt16 (pciCfgReadl_fst c f off)
    _ = le16 (c.space f) (off.toNat / 2 * 2) := by
        by_cases hlow : off.toNat % 4 < 2
        · have hzero : ((off &&& 2) * 8).toUInt32 = 0 := by
            rw [← UInt32.toNat_inj, hshift, UInt32.toNat_zero]
            omega
          have hoff : off.toNat / 2 * 2 = off.toNat / 4 * 4 := by omega
          rw [hzero, UInt32.shiftRight_zero, toUInt16_le32, hoff]
        · have hsixteen : ((off &&& 2) * 8).toUInt32 = 16 := by
            have h : (16 : LONG).toNat = 16 := rfl
            rw [← UInt32.toNat_inj, hshift, h]
            omega
          have hoff : off.toNat / 2 * 2 = off.toNat / 4 * 4 + 2 := by omega
          rw [hsixteen, toUInt16_le32_shiftRight, hoff]

/-- So does a byte read. -/
lemma pciCfgReadb_fst : (pciCfgReadb PciConfig.bus c f.bus f.dev f.func off).1 =
    c.space f (off.toNat / 2 * 2) := by
  have hword := congrArg UInt16.toUInt8 (pciCfgReadw_fst c f off)
  rw [toUInt8_le16] at hword
  rw [← hword, pciCfgReadw, pciCfgReadb, UInt32.toUInt8_toUInt16]

lemma pciCfgWriteb_space (v : BYTE) :
    (pciCfgWriteb PciConfig.bus c f.bus f.dev f.func off v).space =
      PciConfig.stored c.space f (off.toNat / 4 * 4) 1 fun _ => v :=
  congrArg PciConfig.space (PciConfig.store_addr c.space f off (by omega) fun _ => v)

lemma pciCfgWritew_space (v : WORD) :
    (pciCfgWritew PciConfig.bus c f.bus f.dev f.func off v).space =
      PciConfig.stored c.space f (off.toNat / 4 * 4) 2 (bytes16 v) :=
  congrArg PciConfig.space (PciConfig.store_addr c.space f off (by omega) (bytes16 v))

lemma pciCfgWritel_space (v : LONG) :
    (pciCfgWritel PciConfig.bus c f.bus f.dev f.func off v).space =
      PciConfig.stored c.space f (off.toNat / 4 * 4) 4 (bytes32 v) :=
  congrArg PciConfig.space (PciConfig.store_addr c.space f off (by omega) (bytes32 v))

end Accessors

/-! ## Byte and word accesses -/

namespace PciConfig

/-- The same bytes stored at two places of one function. -/
lemma stored_eq_stored_iff {space : PciFunction → ℕ → BYTE} {f : PciFunction} {off off' n : ℕ}
    {src : ℕ → BYTE} (h : off + n ≤ off') :
    stored space f off n src = stored space f off' n src ↔
      (∀ k < n, space f (off + k) = src k) ∧ ∀ k < n, space f (off' + k) = src k := by
  rw [← blit_eq_blit_iff h]
  exact (Function.update_injective space f).eq_iff

/-- A store to the start of the dword of an offset, in place of one to the offset. -/
lemma stored_dword_iff (space : PciFunction → ℕ → BYTE) (f : PciFunction) {off n : ℕ}
    (src : ℕ → BYTE) (hn : off % 4 = 0 ∨ n ≤ off % 4) :
    stored space f (off / 4 * 4) n src = stored space f off n src ↔
      off % 4 = 0 ∨ (∀ k < n, space f (off / 4 * 4 + k) = src k) ∧
        ∀ k < n, space f (off + k) = src k := by
  by_cases haligned : off % 4 = 0
  · have hoff : off / 4 * 4 = off := by omega
    rw [hoff]
    exact iff_of_true rfl (.inl haligned)
  · rw [stored_eq_stored_iff (by omega), or_iff_right haligned]

end PciConfig

/-- Two words are stored iff their bytes are. -/
lemma forall_lt_two_bytes16 {m : ℕ → BYTE} {a : ℕ} {v : WORD} :
    (∀ k < 2, m (a + k) = bytes16 v k) ↔ le16 m a = v := by
  have hbytes : le16 m a = le16 (bytes16 v) 0 ↔ ∀ k < 2, m (a + k) = bytes16 v (0 + k) :=
    le16_eq_iff
  simp only [le16_bytes16, Nat.zero_add] at hbytes
  exact hbytes.symm

/-- **Byte and word accesses.** A byte read is right iff the offset is even or the byte before it is
the same; a byte write is right iff the offset is divisible by four or it changes nothing, neither
there nor at the start of the dword; a word write at an even offset likewise. -/
theorem pci_cfg_narrow_iff (c : PciConfig) (f : PciFunction) (off : BYTE) :
    ((pciCfgReadb PciConfig.bus c f.bus f.dev f.func off).1 = c.space f off.toNat ↔
      off.toNat % 2 = 0 ∨ c.space f (off.toNat - 1) = c.space f off.toNat) ∧
    (∀ v : BYTE, (pciCfgWriteb PciConfig.bus c f.bus f.dev f.func off v).space =
        PciConfig.stored c.space f off.toNat 1 (fun _ => v) ↔
      off.toNat % 4 = 0 ∨ c.space f (off.toNat / 4 * 4) = v ∧ c.space f off.toNat = v) ∧
    (off.toNat % 2 = 0 → ∀ v : WORD,
      ((pciCfgWritew PciConfig.bus c f.bus f.dev f.func off v).space =
        PciConfig.stored c.space f off.toNat 2 (bytes16 v) ↔
      off.toNat % 4 = 0 ∨
        le16 (c.space f) (off.toNat / 4 * 4) = v ∧ le16 (c.space f) off.toNat = v)) := by
  refine ⟨?_, fun v => ?_, fun heven v => ?_⟩
  · rw [pciCfgReadb_fst]
    by_cases heven : off.toNat % 2 = 0
    · have hoff : off.toNat / 2 * 2 = off.toNat := by omega
      rw [hoff]
      exact iff_of_true rfl (.inl heven)
    · have hoff : off.toNat / 2 * 2 = off.toNat - 1 := by omega
      rw [hoff, or_iff_right heven]
  · rw [pciCfgWriteb_space, PciConfig.stored_dword_iff _ _ _ (by omega)]
    simp
  · rw [pciCfgWritew_space, PciConfig.stored_dword_iff _ _ _ (by omega), forall_lt_two_bytes16,
      forall_lt_two_bytes16]

/-- A configuration space in which every byte is its own offset. -/
def PciConfig.numbered : PciConfig := ⟨0, fun _ off => UInt8.ofNat off⟩

/-- The function 0 of device 1 on bus 0, where the disk controller is. -/
def PciFunction.disk : PciFunction := ⟨0, 1, 0, by decide, by decide⟩

/-- A word write to the command register is right, and a byte read of the subclass. -/
theorem pci_cfg_narrow_iff_command :
    (pciCfgReadb PciConfig.bus .numbered 0 1 0 0x0A).1 = 0x0A ∧
    (pciCfgWritew PciConfig.bus .numbered 0 1 0 4 0x0107).space =
      PciConfig.stored PciConfig.numbered.space .disk 4 2 (bytes16 0x0107) :=
  ⟨(pci_cfg_narrow_iff .numbered .disk 0x0A).1.mpr (.inl rfl),
    ((pci_cfg_narrow_iff .numbered .disk 4).2.2 rfl 0x0107).mpr (.inl rfl)⟩

/-- The class read by `pci_setup()` is the subclass; a byte written to the interrupt pin register
goes to the interrupt line register; a word written to the status register goes to the command
register. -/
theorem pci_cfg_narrow_misses :
    (pciCfgReadb PciConfig.bus .numbered 0 1 0 0x0B).1 ≠ PciConfig.numbered.space .disk 0x0B ∧
    (pciCfgWriteb PciConfig.bus .numbered 0 1 0 0x3D 1).space .disk 0x3D ≠ 1 ∧
    (pciCfgWriteb PciConfig.bus .numbered 0 1 0 0x3D 1).space .disk 0x3C = 1 ∧
    (pciCfgWritew PciConfig.bus .numbered 0 1 0 6 0xFFFF).space .disk 6 ≠ 0xFF ∧
    (pciCfgWritew PciConfig.bus .numbered 0 1 0 6 0xFFFF).space .disk 4 = 0xFF := by
  decide

/-! ## Wide accesses -/

/-- An aligned dword of a function. -/
@[ext] structure PciRegister where
  f : PciFunction
  off : BYTE
  aligned : off.toNat % 4 = 0
  deriving DecidableEq

/-- The dword around an offset. -/
def PciRegister.around (f : PciFunction) (off : BYTE) : PciRegister where
  f := f
  off := off &&& 0xFC
  aligned := by
    rw [toNat_and_fc]
    omega

namespace PciConfig

/-- `pci_cfg_readl` of a register. -/
def readRegister (c : PciConfig) (r : PciRegister) : LONG :=
  (pciCfgReadl PciConfig.bus c r.f.bus r.f.dev r.f.func r.off).1

/-- `pci_cfg_writel` to a register. -/
def writeRegister (c : PciConfig) (w : PciRegister × LONG) : PciConfig :=
  pciCfgWritel PciConfig.bus c w.1.f.bus w.1.f.dev w.1.f.func w.1.off w.2

/-- The last value written to a register, or the one before. -/
def lastWritten (ws : List (PciRegister × LONG)) (r : PciRegister) (v : LONG) : LONG :=
  ((ws.filter fun w => w.1 = r).map Prod.snd).getLastD v

lemma readRegister_eq (c : PciConfig) (r : PciRegister) :
    c.readRegister r = le32 (c.space r.f) r.off.toNat := by
  have haligned := r.aligned
  have hoff : r.off.toNat / 4 * 4 = r.off.toNat := by omega
  have hshift : ((r.off &&& 2) * 8).toUInt32 = 0 := by
    rw [← UInt32.toNat_inj, toNat_readShift, UInt32.toNat_zero]
    omega
  rw [readRegister, pciCfgReadl_fst, hoff, hshift, UInt32.shiftRight_zero]

/-- **Read over write.** -/
lemma readRegister_writeRegister (c : PciConfig) (w : PciRegister × LONG) (r : PciRegister) :
    (c.writeRegister w).readRegister r = if w.1 = r then w.2 else c.readRegister r := by
  obtain ⟨w, v⟩ := w
  have hw := w.aligned
  have hr := r.aligned
  have hoff : w.off.toNat / 4 * 4 = w.off.toNat := by omega
  rw [readRegister_eq, readRegister_eq, writeRegister, pciCfgWritel_space, hoff, stored]
  by_cases hsame : w = r
  · subst hsame
    rw [if_pos rfl, Function.update_self, le32_blit_bytes32]
  · rw [if_neg hsame]
    by_cases hf : r.f = w.f
    · -- two dwords of one function
      have hne : w.off ≠ r.off := fun h => hsame (PciRegister.ext hf.symm h)
      rw [Ne, ← UInt8.toNat_inj] at hne
      rw [hf, Function.update_self, le32_blit_of_disjoint (by omega)]
    · rw [Function.update_of_ne hf]

/-- After any writes a register holds the last value written to it. -/
lemma readRegister_run (c : PciConfig) (ws : List (PciRegister × LONG)) (r : PciRegister) :
    (Run.run writeRegister c ws).readRegister r = lastWritten ws r (c.readRegister r) :=
  Run.read_run readRegister_writeRegister c ws r

end PciConfig

/-- A word read at an even offset is half of the dword around it. -/
lemma pciCfgReadw_eq_half (c : PciConfig) (f : PciFunction) {off : BYTE}
    (heven : off.toNat % 2 = 0) :
    (pciCfgReadw PciConfig.bus c f.bus f.dev f.func off).1 =
      le16 (bytes32 (c.readRegister (.around f off))) (off.toNat % 4) := by
  have haround : (PciRegister.around f off).off.toNat = off.toNat / 4 * 4 := toNat_and_fc off
  have hbytes := c.readRegister_eq (.around f off)
  rw [← le32_bytes32 (c.readRegister (.around f off)), le32_eq_iff, haround] at hbytes
  rw [pciCfgReadw_fst]
  refine le16_congr fun k hk => ?_
  have hbyte := hbytes (off.toNat % 4 + k) (by omega)
  have hoff : off.toNat / 2 * 2 + k = off.toNat / 4 * 4 + (off.toNat % 4 + k) := by omega
  rw [Nat.zero_add] at hbyte
  rw [hbyte, hoff]
  rfl

/-- Distinct registers have distinct addresses. -/
lemma pciCfgAddr_injective :
    Function.Injective fun r : PciRegister => pciCfgAddr r.f.bus r.f.dev r.f.func r.off := by
  intro r r' h
  have hf := PciConfig.selected_addr (fun _ _ => 0) r.f r.off
  have hoff := PciConfig.register_addr (fun _ _ => 0) r.f r.off
  rw [show pciCfgAddr r.f.bus r.f.dev r.f.func r.off = _ from h] at hf hoff
  rw [PciConfig.selected_addr] at hf
  rw [PciConfig.register_addr] at hoff
  have hr := r.aligned
  have hr' := r'.aligned
  refine PciRegister.ext hf.symm ?_
  rw [← UInt8.toNat_inj]
  omega

/-- **The registers of the PCI functions.** A word read at an even offset and a dword read at an
aligned one return what is there; after any dword writes they return what was written last, and
distinct registers have distinct addresses. -/
theorem pci_cfg_wide (c : PciConfig) :
    (∀ (f : PciFunction) (off : BYTE), off.toNat % 2 = 0 →
      (pciCfgReadw PciConfig.bus c f.bus f.dev f.func off).1 = le16 (c.space f) off.toNat) ∧
    (∀ r : PciRegister, c.readRegister r = le32 (c.space r.f) r.off.toNat) ∧
    (∀ ws : List (PciRegister × LONG), let c' := Run.run PciConfig.writeRegister c ws
      (∀ r : PciRegister, c'.readRegister r =
        PciConfig.lastWritten ws r (le32 (c.space r.f) r.off.toNat)) ∧
      ∀ (f : PciFunction) (off : BYTE), off.toNat % 2 = 0 →
        (pciCfgReadw PciConfig.bus c' f.bus f.dev f.func off).1 =
          le16 (bytes32 (PciConfig.lastWritten ws (.around f off)
            (le32 (c.space f) (off.toNat / 4 * 4)))) (off.toNat % 4)) ∧
    Function.Injective fun r : PciRegister => pciCfgAddr r.f.bus r.f.dev r.f.func r.off := by
  refine ⟨fun f off heven => ?_, c.readRegister_eq, fun ws => ⟨fun r => ?_, fun f off heven => ?_⟩,
    pciCfgAddr_injective⟩
  · have hoff : off.toNat / 2 * 2 = off.toNat := by omega
    rw [pciCfgReadw_fst, hoff]
  · rw [PciConfig.readRegister_run, c.readRegister_eq]
  · have haround : (PciRegister.around f off).off.toNat = off.toNat / 4 * 4 := toNat_and_fc off
    rw [pciCfgReadw_eq_half _ f heven, PciConfig.readRegister_run, c.readRegister_eq, haround]
    rfl

/-- The upper half of the first base address register of the disk controller, after it has been
sized and set. -/
theorem pci_cfg_wide_bar :
    (pciCfgReadw PciConfig.bus (Run.run PciConfig.writeRegister .numbered
      [(.around .disk 0x10, 0xFFFFFFFF), (.around .disk 0x10, 0xFEBC0000)]) 0 1 0 0x12).1 =
      0xFEBC :=
  (((pci_cfg_wide .numbered).2.2.1 _).2 .disk 0x12 rfl).trans (by decide)

end Korolev
