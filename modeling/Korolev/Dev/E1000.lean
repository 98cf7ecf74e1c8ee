import Korolev.Dev.Pci
import Korolev.Kernel.Memory
import Korolev.Net.Ethernet
import Mathlib.Data.Fin.VecNotation

set_option relaxedAutoImplicit false
set_option autoImplicit false

/-!
# The e1000 driver

`dev/e1000.c` drives an Intel network card. Its registers are reached through memory or through a
pair of I/O ports, depending on the first base address register of the card. Frames are handed
over in two rings of descriptors in memory, described by a head and a tail register each.

This file has the functions that touch the card: register access, the MAC address, the set-up of
the two rings, and the initialisation of a card found on the PCI bus. A descriptor ring is an
array of descriptors: `rx_descs[i]` and `tx_descs[i]` always point to entry `i` of the block that
`malloc` returned, so the pointers are not part of the model. The addresses `malloc` returns to
the ring set-up are parameters. What the rings do while frames come and go is in
`Korolev.Dev.E1000Receive` and `Korolev.Dev.E1000Transmit`.

The loops that wait for the EEPROM have no bound in the source; they have fuel here, and `none`
is a card that has not answered.

## Main definitions

* `Korolev.E1000Priv` — the private block of the driver.
* `Korolev.e1000Writecmd`, `Korolev.e1000Readcmd` — register access.
* `Korolev.e1000ReadMac`, `Korolev.e1000EnableInt`, `Korolev.e1000Init` — initialisation.
* `Korolev.e1000Rxinit`, `Korolev.e1000Txinit` — the rings.
* `Korolev.Nic` — a card as a file of registers.

## Main results

* `Korolev.e1000Writecmd_regs` — a command reaches its register through either kind of access.
* `Korolev.e1000Rxinit_nic`, `Korolev.e1000Txinit_nic` — the registers of the rings after their
  set-up.
-/

namespace Korolev

/-! ## Registers and bits -/

def REG_CTRL : WORD := 0x0000

def REG_EEPROM : WORD := 0x0014

def REG_IMASK : WORD := 0x00D0

def REG_RCTRL : WORD := 0x0100

def REG_RXDESCLO : WORD := 0x2800

def REG_RXDESCHI : WORD := 0x2804

def REG_RXDESCLEN : WORD := 0x2808

def REG_RXDESCHEAD : WORD := 0x2810

def REG_RXDESCTAIL : WORD := 0x2818

def REG_TCTRL : WORD := 0x0400

def REG_TXDESCLO : WORD := 0x3800

def REG_TXDESCHI : WORD := 0x3804

def REG_TXDESCLEN : WORD := 0x3808

def REG_TXDESCHEAD : WORD := 0x3810

def REG_TXDESCTAIL : WORD := 0x3818

def REG_TIPG : WORD := 0x0410

def ECTRL_SLU : LONG := 0x40

/-- `RCTL_EN|RCTL_SBP|RCTL_UPE|RCTL_MPE|RCTL_LBM_NONE|RTCL_RDMTS_HALF|RCTL_SECRC|RCTL_BSIZE_8192
|RCTL_BSEX` -/
def rctlInit : LONG :=
  UInt32.ofNat (1 <<< 1 ||| 1 <<< 2 ||| 1 <<< 3 ||| 1 <<< 4 ||| 0 <<< 6 ||| 0 <<< 8 ||| 1 <<< 26 |||
    (2 <<< 16 ||| 1 <<< 25) ||| 1 <<< 25)

/-- `TCTL_EN | TCTL_PSP | (15 << TCTL_CT_SHIFT) | (64 << TCTL_COLD_SHIFT) | TCTL_RTLC` -/
def tctlInit : LONG := UInt32.ofNat (1 <<< 1 ||| 1 <<< 3 ||| 15 <<< 4 ||| 64 <<< 12 ||| 1 <<< 24)

def TSTA_DD : BYTE := 1

def IRQ10 : BYTE := 42

/-- The number of receive descriptors, `E1000_NUM_RX_DESC`. -/
abbrev numRxDesc : ℕ := 32

/-- The number of transmit descriptors, `E1000_NUM_TX_DESC`. -/
abbrev numTxDesc : ℕ := 8

/-- `struct e1000_priv`, without the pointers to the descriptors. -/
structure E1000Priv where
  bus : LONG
  device : LONG
  function : LONG
  barType : LONG
  eepromExists : LONG
  rxCur : LONG
  txCur : LONG
  memory : LONG
  iobase : LONG
  deriving DecidableEq, Repr

/-- The block after `kmemset`. -/
def E1000Priv.zero : E1000Priv := ⟨0, 0, 0, 0, 0, 0, 0, 0, 0⟩

/-- `sizeof(struct e1000_priv)` -/
def sizeofE1000Priv : LONG := 196

/-- `struct e1000_rx_desc`: the fields the driver uses. -/
structure E1000RxDesc where
  addr : QWORD
  status : BYTE

/-- `struct e1000_tx_desc`: the fields the driver uses. -/
structure E1000TxDesc where
  addr : QWORD
  length : WORD
  cmd : BYTE
  status : BYTE

/-! ## Register access -/

section Access

variable {δ : Type*} (B : Bus δ) (p : E1000Priv) (d : δ)

/-- `e1000_writecmd(dev, addr, val)` -/
def e1000Writecmd (addr : WORD) (val : LONG) : δ :=
  if p.barType = 0 then B.write32 d (p.memory + addr.toUInt32) val
  else B.outl (B.outl d p.iobase.toUInt16 addr.toUInt32) (p.iobase + 4).toUInt16 val

/-- `e1000_readcmd(dev, addr)` -/
def e1000Readcmd (addr : WORD) : LONG × δ :=
  if p.barType = 0 then B.read32 d (p.memory + addr.toUInt32)
  else B.inl (B.outl d p.iobase.toUInt16 addr.toUInt32) (p.iobase + 4).toUInt16

/-- `while(!((tmp = e1000_readcmd(dev, REG_EEPROM)) & mask));` -/
def e1000EepromWait (mask : LONG) : ℕ → δ → Option (LONG × δ)
  | 0, _ => none
  | fuel + 1, d =>
    let r := e1000Readcmd B p d REG_EEPROM
    if r.1 &&& mask = 0 then e1000EepromWait mask fuel r.2 else some r

/-- `e1000_eeprom_read(dev, addr)` -/
def e1000EepromRead (fuel : ℕ) (addr : BYTE) : Option (LONG × δ) := do
  let one : LONG := 1
  let r ← if p.eepromExists ≠ 0 then
      e1000EepromWait B p (one <<< 4) fuel
        (e1000Writecmd B p d REG_EEPROM (one ||| addr.toUInt32 <<< 8))
    else
      e1000EepromWait B p (one <<< 1) fuel
        (e1000Writecmd B p d REG_EEPROM (one ||| addr.toUInt32 <<< 2))
  return ((r.1 >>> 16).toUInt16.toUInt32, r.2)

/-- The six bytes at `membase_mac_8`, read one after the other. -/
def e1000MacBytes : δ × (Fin 6 → BYTE) → ℕ → δ × (Fin 6 → BYTE) := fun s i =>
  let r := B.read8 s.1 (p.memory + 0x5400 + UInt32.ofNat i)
  (r.2, Function.update s.2 (Fin.ofNat 6 i) r.1)

/-- `e1000_read_mac(dev)`: the result, the address and the card. -/
def e1000ReadMac (fuel : ℕ) (addr : Fin 6 → BYTE) : Option (LONG × (Fin 6 → BYTE) × δ) :=
  if p.eepromExists ≠ 0 then do
    let r₀ ← e1000EepromRead B p d fuel 0
    let r₁ ← e1000EepromRead B p r₀.2 fuel 1
    let r₂ ← e1000EepromRead B p r₁.2 fuel 2
    return (1, ![r₀.1.toUInt8, (r₀.1 >>> 8).toUInt8, r₁.1.toUInt8, (r₁.1 >>> 8).toUInt8,
      r₂.1.toUInt8, (r₂.1 >>> 8).toUInt8], r₂.2)
  else
    let r := B.read32 d (p.memory + 0x5400)
    if r.1 ≠ 0 then
      let s := (List.range 6).foldl (e1000MacBytes B p) (r.2, addr)
      some (1, s.2, s.1)
    else some (0, addr, r.2)

/-- `e1000_enable_int(dev)` -/
def e1000EnableInt : δ :=
  (e1000Readcmd B p (e1000Writecmd B p d REG_IMASK 0x1f6dc) 0xc0).2

end Access

/-! ## Initialisation -/

/-- What a driver's entry point works on: the interfaces, the interrupt table, the allocator, and
the devices. -/
structure NetState (δ : Type*) where
  eth : EthIfs
  ints : PciIntTable
  mm : Mmgmt
  dev : δ

/-- The part of `e1000_init` that asks the card for its registers and routes its interrupt: the
private block and the card. -/
def e1000Probe {δ : Type*} (B : Bus δ) (d : δ) (bus device function : LONG) : E1000Priv × δ :=
  let bar0 := pciCfgReadBar B d bus device function 0
  ({ E1000Priv.zero with
      bus := bus, device := device, function := function, barType := bar0.1 &&& 1,
      memory := bar0.1 &&& 0xFFFFFFF0, iobase := bar0.1 &&& 0xFFFFFFFC },
    pciCfgWriteb B bar0.2 bus.toUInt8 device.toUInt8 function.toUInt8 PCI_CFG_INT IRQ10)

/-- `e1000_init(bus, device, function)`; `handler` is the address of `e1000_handler`. -/
def e1000Init {δ : Type*} (B : Bus δ) (handler : LONG) (fuel : ℕ) (s : NetState δ)
    (bus device function : LONG) : Option (ℤ × NetState δ) :=
  match ethernetAllocate s.eth with
  | (none, eth) => some (1, { s with eth := eth })
  | (some i, eth) =>
    let blk := malloc s.mm sizeofE1000Priv
    let dev : Ethdev := { eth.ifs i with allocated := 1, priv := blk.1 }
    let card := e1000Probe B s.dev bus device function
    let req := pciIntRequest s.ints bus device function (eth.ptr i) handler
    match e1000ReadMac B card.1 card.2 fuel dev.addr with
    | none => none
    | some (ok, addr, d) =>
      if ok = 0 then
        some (1, { eth := ethernetFree (eth.set i { dev with addr := addr }) i, ints := req.2,
                   mm := free blk.2 blk.1, dev := d })
      else
        let ctrl := e1000Readcmd B card.1 d REG_CTRL
        let d := e1000Writecmd B card.1 ctrl.2 REG_CTRL (ctrl.1 ||| ECTRL_SLU)
        some (0, { eth := eth.set i { dev with addr := addr }, ints := req.2, mm := blk.2,
                   dev := e1000EnableInt B card.1 d })

/-! ## The rings -/

section Rings

variable {δ : Type*} (B : Bus δ) (p : E1000Priv) (d : δ)

/-- `e1000_rxinit(dev)`, `malloc` having returned `ptr` for the descriptors and `bufs i` for the
buffer of descriptor `i`: the private block, the descriptors and the card. -/
def e1000Rxinit (descs : ℕ → E1000RxDesc) (ptr : LONG) (bufs : ℕ → LONG) :
    E1000Priv × (ℕ → E1000RxDesc) × δ :=
  let descs := (List.range numRxDesc).foldl (fun descs i =>
    Function.update descs i { descs i with addr := (bufs i).toUInt64, status := 0 }) descs
  let d := e1000Writecmd B p d REG_TXDESCLO ptr
  let d := e1000Writecmd B p d REG_TXDESCHI 0
  let d := e1000Writecmd B p d REG_RXDESCLO ptr
  let d := e1000Writecmd B p d REG_RXDESCHI 0
  let d := e1000Writecmd B p d REG_RXDESCLEN (32 * 16)
  let d := e1000Writecmd B p d REG_RXDESCHEAD 0
  let d := e1000Writecmd B p d REG_RXDESCTAIL (32 - 1)
  let p := { p with rxCur := 0 }
  (p, descs, e1000Writecmd B p d REG_RCTRL rctlInit)

/-- `e1000_txinit(dev)`, `malloc` having returned `ptr` for the descriptors: the private block,
the descriptors and the card. -/
def e1000Txinit (descs : ℕ → E1000TxDesc) (ptr : LONG) : E1000Priv × (ℕ → E1000TxDesc) × δ :=
  let descs := (List.range numTxDesc).foldl (fun descs i =>
    Function.update descs i { descs i with addr := 0, cmd := 0, status := TSTA_DD }) descs
  let d := e1000Writecmd B p d REG_TXDESCHI 0
  let d := e1000Writecmd B p d REG_TXDESCLO ptr
  let d := e1000Writecmd B p d REG_TXDESCLEN (8 * 16)
  let d := e1000Writecmd B p d REG_TXDESCHEAD 0
  let d := e1000Writecmd B p d REG_TXDESCTAIL 0
  let p := { p with txCur := 0 }
  let d := e1000Writecmd B p d REG_TCTRL tctlInit
  let d := e1000Writecmd B p d REG_TCTRL 0b0110000000000111111000011111010
  (p, descs, e1000Writecmd B p d REG_TIPG 0x60200a)

end Rings

/-! ## A card as a file of registers -/

/-- The registers of a card, and the register that its data port shows. -/
structure Nic where
  regs : LONG → LONG
  ioaddr : LONG

namespace Nic

/-- The register `addr`. -/
def reg (d : Nic) (addr : WORD) : LONG := d.regs addr.toUInt32

/-- The card with the register `addr` changed. -/
def setReg (d : Nic) (addr : WORD) (val : LONG) : Nic :=
  { d with regs := Function.update d.regs addr.toUInt32 val }

@[simp] lemma reg_setReg_self (d : Nic) (addr : WORD) (val : LONG) :
    (d.setReg addr val).reg addr = val := Function.update_self ..

lemma reg_setReg_of_ne (d : Nic) {addr addr' : WORD} (h : addr'.toUInt32 ≠ addr.toUInt32)
    (val : LONG) : (d.setReg addr val).reg addr' = d.reg addr' := Function.update_of_ne h ..

end Nic

/-- A card with its registers at `memory` and its ports at `iobase`. It takes no other access. -/
def Nic.bus (memory iobase : LONG) : Bus Nic where
  inb d _ := (0, d)
  inl d port := (if port = (iobase + 4).toUInt16 then d.regs d.ioaddr else 0, d)
  outb d _ _ := d
  outw d _ _ := d
  outl d port val :=
    if port = iobase.toUInt16 then { d with ioaddr := val }
    else if port = (iobase + 4).toUInt16 then { d with regs := Function.update d.regs d.ioaddr val }
    else d
  read8 d _ := (0, d)
  read32 d addr := (d.regs (addr - memory), d)
  write32 d addr val := { d with regs := Function.update d.regs (addr - memory) val }

/-- A command reaches its register through either kind of access. -/
lemma e1000Writecmd_regs {p : E1000Priv} {memory iobase : LONG} (hmem : p.memory = memory)
    (hio : p.iobase = iobase) (d : Nic) (addr : WORD) (val : LONG) :
    (e1000Writecmd (Nic.bus memory iobase) p d addr val).regs = (d.setReg addr val).regs := by
  subst hmem hio
  rw [e1000Writecmd]
  split_ifs
  · simp only [Nic.bus, Nic.setReg]
    rw [UInt32.add_comm, UInt32.add_sub_cancel]
  · -- the two ports are different, whatever their address
    simp [Nic.bus, Nic.setReg]

/-- An index moves to the next cell of a ring whose size divides `2 ^ 32`. -/
lemma toNat_add_one_mod {n : LONG} (hn : n.toNat ∣ 2 ^ 32) (i : LONG) :
    ((i + 1) % n).toNat = (i.toNat + 1) % n.toNat := by
  rw [UInt32.toNat_mod, UInt32.toNat_add]
  exact Nat.mod_mod_of_dvd _ hn

/-! ## The rings after their set-up -/

section Start

variable (p : E1000Priv) (d : Nic) (ptr : LONG)

/-- The receive ring after its set-up: no descriptor is done, all but the last one belong to the
card. -/
lemma e1000Rxinit_nic (descs : ℕ → E1000RxDesc) (bufs : ℕ → LONG) :
    let r := e1000Rxinit (Nic.bus p.memory p.iobase) p d descs ptr bufs
    r.1 = { p with rxCur := 0 } ∧ (∀ i < numRxDesc, (r.2.1 i).status = 0) ∧
      r.2.2.reg REG_RXDESCHEAD = 0 ∧ r.2.2.reg REG_RXDESCTAIL = 31 := by
  intro r
  refine ⟨rfl, fun i hi => ?_, ?_, ?_⟩
  · have hdesc := Slots.foldl_update_apply descs
      (fun i desc => { desc with addr := (bufs i).toUInt64, status := 0 }) numRxDesc i
    rw [if_pos hi] at hdesc
    exact congrArg E1000RxDesc.status hdesc
  · simp only [r, e1000Rxinit, Nic.reg, e1000Writecmd_regs, Nic.setReg]
    rfl
  · simp only [r, e1000Rxinit, Nic.reg, e1000Writecmd_regs, Nic.setReg]
    rfl

/-- The transmit ring after its set-up: every descriptor is done, none belongs to the card. -/
lemma e1000Txinit_nic (descs : ℕ → E1000TxDesc) :
    let r := e1000Txinit (Nic.bus p.memory p.iobase) p d descs ptr
    r.1 = { p with txCur := 0 } ∧ (∀ i < numTxDesc, (r.2.1 i).status = TSTA_DD) ∧
      r.2.2.reg REG_TXDESCHEAD = 0 ∧ r.2.2.reg REG_TXDESCTAIL = 0 := by
  intro r
  refine ⟨rfl, fun i hi => ?_, ?_, ?_⟩
  · have hdesc := Slots.foldl_update_apply descs
      (fun _ desc => { desc with addr := 0, cmd := 0, status := TSTA_DD }) numTxDesc i
    rw [if_pos hi] at hdesc
    exact congrArg E1000TxDesc.status hdesc
  · simp only [r, e1000Txinit, Nic.reg, e1000Writecmd_regs, Nic.setReg]
    rfl
  · simp only [r, e1000Txinit, Nic.reg, e1000Writecmd_regs, Nic.setReg]
    rfl

end Start

end Korolev
