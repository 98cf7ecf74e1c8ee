import Korolev.Dev.E1000
import Korolev.Dev.PciConfig
import Korolev.Net.Network

set_option relaxedAutoImplicit false
set_option autoImplicit false

/-!
# PCI: the search for devices

`pci_setup` in `dev/pci.c` looks at every function of the buses 0 to 254, and calls the drivers in
its table that the function is for. A driver is for a class, or for a list of vendors and devices;
its length tells which.

Most registers of the configuration space are read-only, in whole or in part. So stores have an
effect on some bits only, and which ones is a parameter.

## Main definitions

* `Korolev.PciConfig.hardwired` — mechanism #1, with bits that cannot be written.
* `Korolev.PciKernel` — what `pci_setup` and the drivers work on.
* `Korolev.PciDev`, `Korolev.pciDrivers`, `Korolev.pciProbe`, `Korolev.pciSetup` — the search.
* `Korolev.pciFunctions` — the functions, in the order they are looked at.

## Main results

* `Korolev.pciSetup_eq` — the three nested loops look at every function of the list.
* `Korolev.mem_pciFunctions`, `Korolev.pciFunctions_nodup` — the list has every function of the
  buses but the last, once.
-/

namespace Korolev

open Bytes

/-! ## Bits that cannot be written -/

namespace PciConfig

/-- A byte that is stored where only the bits of `mask` can be written. -/
def masked (mask old new : BYTE) : BYTE := (old &&& ~~~mask) ||| (new &&& mask)

section Masked

variable (mask old new : BYTE)

/-- The bits of a byte that is stored. -/
lemma masked_getElem {i : ℕ} (hi : i < 8) : (masked mask old new).toBitVec[i] =
    if mask.toBitVec[i] then new.toBitVec[i] else old.toBitVec[i] := by
  cases hm : mask.toBitVec[i] <;> simp [masked, hm]

/-- A byte that is stored in place of itself. -/
lemma masked_self : masked mask old old = old := by
  rw [← UInt8.toBitVec_inj]
  refine BitVec.eq_of_getElem_eq fun i hi => ?_
  rw [masked_getElem mask old old hi, ite_self]

/-- Bit 0 of a byte. -/
lemma and_one_eq_zero_iff (v : BYTE) : v &&& 1 = 0 ↔ v.toBitVec.getLsbD 0 = false := by
  have hone : ∀ i < 8, (1 : BYTE).toBitVec.getLsbD i = decide (i = 0) := by decide
  rw [← UInt8.toBitVec_inj]
  constructor
  · intro heq
    have hbit : (v &&& 1).toBitVec.getLsbD 0 = (0 : BYTE).toBitVec.getLsbD 0 := by rw [heq]
    simpa using hbit
  · intro hbit
    refine BitVec.eq_of_getLsbD_eq fun i hi => ?_
    rw [UInt8.toBitVec_and, BitVec.getLsbD_and, hone i hi]
    by_cases h0 : i = 0
    · rw [h0, hbit]
      rfl
    · simp [h0]

lemma or_and_one_eq_zero_iff {v w : BYTE} : (v ||| w) &&& 1 = 0 ↔ v &&& 1 = 0 ∧ w &&& 1 = 0 := by
  simp only [and_one_eq_zero_iff, UInt8.toBitVec_or, BitVec.getLsbD_or, Bool.or_eq_false_iff]

/-- Bit 0 is set where it was set. -/
lemma or_one_and_one_ne_zero (v : BYTE) : (v ||| 1) &&& 1 ≠ 0 := by
  rw [Ne, or_and_one_eq_zero_iff]
  exact fun h => absurd h.2 (by decide)

/-- Setting bit 0: it has an effect iff the bit can be written. -/
lemma masked_or_one :
    masked mask old (old ||| 1) = if (old ||| mask) &&& 1 = 0 then old else old ||| 1 := by
  rw [← UInt8.toBitVec_inj]
  refine BitVec.eq_of_getElem_eq fun i hi => ?_
  rw [masked_getElem mask old _ hi]
  by_cases h0 : i = 0
  · subst h0
    split_ifs with hmask hbit hbit
    · rw [and_one_eq_zero_iff] at hbit
      simp [hmask] at hbit
    · rfl
    · rfl
    · rw [and_one_eq_zero_iff] at hbit
      simp only [Bool.not_eq_true] at hmask
      simpa [hmask] using hbit
  · split_ifs <;> simp [h0]

end Masked

variable (mask : PciFunction → ℕ → BYTE)

/-- A store of `n` bytes at `port`. -/
def storeMasked (c : PciConfig) (port : WORD) (n : ℕ) (src : ℕ → BYTE) : PciConfig :=
  let off := c.register + (port.toNat - 0xCFC)
  c.store port n fun k =>
    masked (mask c.selected (off + k)) (c.space c.selected (off + k)) (src k)

/-- Mechanism #1, where only the bits of `mask` can be written. -/
def hardwired : Bus PciConfig where
  inb := bus.inb
  inl := bus.inl
  outb c port v := c.storeMasked mask port 1 fun _ => v
  outw c port v := c.storeMasked mask port 2 (bytes16 v)
  outl c port v :=
    if port = PCI_PORT_CONF_ADDR then { c with latch := v }
    else c.storeMasked mask port 4 (bytes32 v)
  read8 := bus.read8
  read32 := bus.read32
  write32 := bus.write32

end PciConfig

/-! ## The functions -/

def PCI_CFG_VEN : BYTE := 0x00

def PCI_CFG_DEV : BYTE := 0x02

def PCI_CFG_PIF : BYTE := 0x09

def PCI_CFG_SCL : BYTE := 0x0A

def PCI_CFG_CLA : BYTE := 0x0B

/-- The globals of `dev/ide.c`: the ports of the primary channel. -/
structure IdeRegs where
  base : LONG
  ctrl : LONG
  bm : LONG
  deriving DecidableEq

/-- The configuration space, the table of shared interrupts, the handlers of the kernel by their
addresses, the ports of the disk, and what was put on the console. -/
structure PciKernel where
  cfg : PciConfig
  ints : PciIntTable
  handlers : LONG → LONG
  ide : IdeRegs
  out : List BYTE

/-- `puts` -/
def PciKernel.puts (s : PciKernel) (msg : List BYTE) : PciKernel := { s with out := s.out ++ msg }

/-- `pci_dev_t`, with the name as `puts` shows it. -/
structure PciDev where
  name : List BYTE
  initf : Option (LONG → LONG → LONG → PciKernel → ℤ × PciKernel)
  idsLen : LONG
  ids : ℕ → WORD × WORD
  classCode : BYTE
  subclass : BYTE

section Setup

variable (B : Bus PciConfig) (devices : List PciDev)

/-- The place of a function, as it is shown. -/
def pciPlace (bus device function : BYTE) : List BYTE :=
  putn16 bus.toUInt32 ++ text ":" ++ putn16 device.toUInt32 ++ text "." ++
    putn16 function.toUInt32 ++ text "\n"

/-- The driver is called, `ok` being shown if it succeeds. -/
def pciCallDriver (dev : PciDev) (ok : List BYTE) (bus device function : BYTE) (s : PciKernel) :
    PciKernel :=
  let s := s.puts (text "[pci] \"" ++ dev.name ++ text "\"@pci://" ++ pciPlace bus device function)
  match dev.initf with
  | none => s.puts (text "[pci] Missing driver.\n")
  | some initf =>
    let r := initf bus.toUInt32 device.toUInt32 function.toUInt32 s
    if r.1 ≠ 0 then r.2.puts (text "[pci] Initialization failure.\n") else r.2.puts ok

/-- The loop over `pci_devices`. A driver for a class ends it; behind the others, and behind those
that are not for the function, it goes on. -/
def pciDrivers (vendor devid : WORD) (cls sclass bus device function : BYTE) :
    List PciDev → PciKernel → PciKernel
  | [], s => s
  | dev :: devs, s =>
    let report := text "[pci] (" ++ putn16 vendor.toUInt32 ++ text ":" ++ putn16 devid.toUInt32 ++
      text ")@pci://" ++ pciPlace bus device function
    if dev.idsLen = 33 then
      if dev.classCode = cls ∧ dev.subclass = sclass then
        pciCallDriver dev [] bus device function s
      else pciDrivers vendor devid cls sclass bus device function devs (s.puts report)
    else
      let s := if (List.range dev.idsLen.toNat).any fun i => dev.ids i = (vendor, devid) then
          pciCallDriver dev (text "[pci] OK\n") bus device function s
        else s
      pciDrivers vendor devid cls sclass bus device function devs (s.puts report)

/-- The body of the loops: one function. -/
def pciProbe (s : PciKernel) (bus device function : BYTE) : PciKernel :=
  let vendor := pciCfgReadw B s.cfg bus device function PCI_CFG_VEN
  if vendor.1 = 0xffff then { s with cfg := vendor.2 }
  else
    let devid := pciCfgReadw B vendor.2 bus device function PCI_CFG_DEV
    let cls := pciCfgReadb B devid.2 bus device function PCI_CFG_CLA
    let sclass := pciCfgReadb B cls.2 bus device function PCI_CFG_SCL
    let s := { s with cfg := sclass.2 }
    if devid.1 = 0x0000 ∨ devid.1 = 0xffff then s
    else
      pciDrivers vendor.1 devid.1 cls.1 sclass.1 bus device function (devices.take 256) s

/-- `pci_setup()`, up to the loops; `irq` is the address of `pci_irq_handler`. -/
def pciReset (irq : LONG) (s : PciKernel) : PciKernel :=
  let s := s.puts (text "[pci] Resetting interrupt entries\n")
  let s := { s with
    ints := fun i => if i < 256 then .zero else s.ints i
    handlers := Function.update s.handlers IRQ10.toUInt32 irq }
  s.puts (text "[pci] Bus enumeration...\n")

/-- `pci_setup()`, with the drivers in front of the `NULL` of `pci_devices`. -/
def pciSetup (irq : LONG) (s : PciKernel) : PciKernel :=
  (List.range 255).foldl (fun s bus =>
    (List.range 32).foldl (fun s device =>
      (List.range 8).foldl (fun s function =>
        pciProbe B devices s (UInt8.ofNat bus) (UInt8.ofNat device) (UInt8.ofNat function)) s) s)
    (pciReset irq s)

end Setup

/-! ## The functions that are looked at -/

/-- The function of three numbers. -/
def PciFunction.ofNats (bus : ℕ) (dev : Fin 32) (func : Fin 8) : PciFunction where
  bus := UInt8.ofNat bus
  dev := UInt8.ofNat dev
  func := UInt8.ofNat func
  dev_lt := by
    rw [UInt8.toNat_ofNat']
    omega
  func_lt := by
    rw [UInt8.toNat_ofNat']
    omega

/-- The functions of the buses 0 to 254, in order. -/
def pciFunctions : List PciFunction :=
  (List.range 255).flatMap fun bus =>
    (List.finRange 32).flatMap fun dev => (List.finRange 8).map fun func => .ofNats bus dev func

/-- The loops look at every function of the list. -/
lemma pciSetup_eq (B : Bus PciConfig) (devices : List PciDev) (irq : LONG) (s : PciKernel) :
    pciSetup B devices irq s =
      pciFunctions.foldl (fun s f => pciProbe B devices s f.bus f.dev f.func) (pciReset irq s) := by
  have h8 : List.range 8 = (List.finRange 8).map Fin.val := rfl
  have h32 : List.range 32 = (List.finRange 32).map Fin.val := rfl
  simp only [pciSetup, pciFunctions, List.foldl_flatMap, List.foldl_map, h8, h32,
    PciFunction.ofNats]

/-- The numbers of a function. -/
lemma PciFunction.ofNats_eq_iff {bus : ℕ} (hbus : bus < 256) {dev : Fin 32} {func : Fin 8}
    {f : PciFunction} :
    ofNats bus dev func = f ↔
      bus = f.bus.toNat ∧ dev.val = f.dev.toNat ∧ func.val = f.func.toNat := by
  have hdev := dev.isLt
  have hfunc := func.isLt
  rw [PciFunction.ext_iff, ofNats, ← UInt8.toNat_inj, ← UInt8.toNat_inj, ← UInt8.toNat_inj,
    UInt8.toNat_ofNat', UInt8.toNat_ofNat', UInt8.toNat_ofNat', Nat.mod_eq_of_lt hbus,
    Nat.mod_eq_of_lt (by omega), Nat.mod_eq_of_lt (by omega)]

/-- Every function of a bus but the last is looked at. -/
lemma mem_pciFunctions {f : PciFunction} : f ∈ pciFunctions ↔ f.bus.toNat < 255 := by
  simp only [pciFunctions, List.mem_flatMap, List.mem_map, List.mem_range, List.mem_finRange,
    true_and]
  constructor
  · rintro ⟨bus, hbus, dev, func, rfl⟩
    show (UInt8.ofNat bus).toNat < 255
    rw [UInt8.toNat_ofNat']
    omega
  · intro hbus
    exact ⟨f.bus.toNat, hbus, ⟨f.dev.toNat, f.dev_lt⟩, ⟨f.func.toNat, f.func_lt⟩,
      (PciFunction.ofNats_eq_iff f.bus.toNat_lt).mpr ⟨rfl, rfl, rfl⟩⟩

/-- None is looked at twice. -/
lemma pciFunctions_nodup : pciFunctions.Nodup := by
  have hsame : ∀ {bus bus' : ℕ} {dev dev' : Fin 32} {func func' : Fin 8}, bus < 256 → bus' < 256 →
      PciFunction.ofNats bus dev func = .ofNats bus' dev' func' →
      bus = bus' ∧ dev = dev' ∧ func = func' := by
    intro bus bus' dev dev' func func' hbus hbus' heq
    obtain ⟨h1, h2, h3⟩ := (PciFunction.ofNats_eq_iff hbus).mp heq
    obtain ⟨h1', h2', h3'⟩ := (PciFunction.ofNats_eq_iff hbus').mp rfl
    exact ⟨h1.trans h1'.symm, Fin.ext (h2.trans h2'.symm), Fin.ext (h3.trans h3'.symm)⟩
  rw [pciFunctions, List.nodup_flatMap]
  refine ⟨fun bus hbus => ?_, ?_⟩
  · rw [List.mem_range] at hbus
    rw [List.nodup_flatMap]
    refine ⟨fun dev _ => ?_, ?_⟩
    · exact (List.nodup_finRange 8).map_on fun func _ func' _ heq =>
        (hsame (by omega) (by omega) heq).2.2
    · refine (List.nodup_finRange 32).imp fun {dev dev'} hne => ?_
      rintro f hf hf'
      obtain ⟨func, -, rfl⟩ := List.mem_map.mp hf
      obtain ⟨func', -, heq⟩ := List.mem_map.mp hf'
      exact hne (hsame (by omega) (by omega) heq.symm).2.1
  · refine (List.nodup_range (n := 255)).imp_of_mem fun {bus bus'} hbus hbus' hne => ?_
    rw [List.mem_range] at hbus hbus'
    rintro f hf hf'
    simp only [List.mem_flatMap, List.mem_map] at hf hf'
    obtain ⟨dev, -, func, -, rfl⟩ := hf
    obtain ⟨dev', -, func', -, heq⟩ := hf'
    exact hne (hsame (by omega) (by omega) heq.symm).1

end Korolev
