import Korolev.Dev.E1000

set_option relaxedAutoImplicit false
set_option autoImplicit false

/-!
# The virtio-net driver

`dev/virtio-net.c` initialises a virtio network device: it looks at the base address register
and the subsystem of the device, takes an interface, negotiates features, and sets up a receive
queue. All accesses to the device go through I/O ports.

## Main definitions

* `Korolev.virtionetNegotiate`, `Korolev.virtionetLoadMacaddr`,
  `Korolev.virtionetInitializeQueue` — the parts of the initialisation.
* `Korolev.virtionetInit` — the entry point of the driver.
-/

namespace Korolev

def VNET_R_GFEAT : LONG := 0x04

def VNET_R_DSTAT : LONG := 0x12

def VNET_R_MACAD : LONG := 0x14

def VNET_S_DEVACK : BYTE := 0x01

def VNET_S_DRVLOAD : BYTE := 0x02

def VNET_S_FEATOK : BYTE := 0x08

def VNET_S_DRVFAIL : BYTE := 0x80

/-- `VNET_F_CTRL_VQ | VNET_F_EVENT_IDX | VNET_F_GUEST_TSO4 | VNET_F_GUEST_TSO6 |
VNET_F_GUEST_UFO | VNET_F_MRG_RXBUF` -/
def virtionetUnwanted : LONG :=
  UInt32.ofNat (1 <<< 17 ||| 1 <<< 29 ||| 1 <<< 7 ||| 1 <<< 8 ||| 1 <<< 10 ||| 1 <<< 15)

def VNET_F_CSUM : LONG := 1

/-- `struct virtionet_desc`, without `next`. -/
structure VirtionetDesc where
  addr : QWORD
  len : LONG
  flags : WORD

/-- `struct virtionet_priv`: the fields the driver sets, and the first receive descriptor, which
`rx_desc` points to. -/
structure VirtionetPriv where
  iobase : LONG
  qsize : LONG
  rxDesc : LONG
  rxAvail : LONG
  rxUsed : LONG
  desc : VirtionetDesc

/-- `sizeof(struct virtionet_priv)` -/
def sizeofVirtionetPriv : LONG := 52

section Driver

variable {δ : Type*} (B : Bus δ)

/-- `virtionet_drvfail(iobase)` -/
def virtionetDrvfail (d : δ) (iobase : LONG) : δ :=
  B.outb d (iobase + VNET_R_DSTAT).toUInt16 VNET_S_DRVFAIL

/-- `virtionet_write_dstatus(dev, val)` -/
def virtionetWriteDstatus (d : δ) (iobase : LONG) (val : BYTE) : δ :=
  B.outb d (iobase + VNET_R_DSTAT).toUInt16 val

/-- `virtionet_read_features(dev)` -/
def virtionetReadFeatures (d : δ) (iobase : LONG) : LONG × δ := B.inl d iobase.toUInt16

/-- `virtionet_write_features(dev, val)` -/
def virtionetWriteFeatures (d : δ) (iobase val : LONG) : δ :=
  B.outl d (iobase + VNET_R_GFEAT).toUInt16 val

/-- `virtionet_read_reg(dev, reg)` -/
def virtionetReadReg (d : δ) (iobase reg : LONG) : LONG × δ := B.inl d (iobase + reg).toUInt16

/-- `virtionet_load_macaddr(dev)`: the address and the device. -/
def virtionetLoadMacaddr (d : δ) (iobase : LONG) (addr : Fin 6 → BYTE) : δ × (Fin 6 → BYTE) :=
  (List.range 6).foldl (fun s i =>
    let r := B.inb s.1 (iobase + VNET_R_MACAD + UInt32.ofNat i).toUInt16
    (r.2, fun k => if (k : ℕ) = i then r.1 else s.2 k)) (d, addr)

/-- `virtionet_initialize_queue(dev)`: the private block and the allocator. A pointer is
sign-extended by the cast to `QWORD`. -/
def virtionetInitializeQueue (p : VirtionetPriv) (mm : Mmgmt) : VirtionetPriv × Mmgmt :=
  let blk := malloc mm (16 * 2 + 4096 + (6 * 2 * 2 + 4096) + (6 * 4 * 2 + 4096))
  let pmod := blk.1 % 4096
  let ptr := if pmod ≠ 0 then blk.1 + (4096 - pmod) else blk.1
  let avail := ptr + 16 * 2
  let buf := malloc blk.2 4096
  ({ p with
      qsize := 2, rxDesc := ptr, rxAvail := avail
      rxUsed := (avail + 4 + 2 * 32 + 2 + (4096 - 1)) &&& ~~~(4096 - 1)
      desc := ⟨buf.1.toInt32.toInt64.toUInt64, 4096, ~~~2⟩ }, buf.2)

/-- The part of `virtionet_init` that negotiates the features: the status the device then shows,
and the device. -/
def virtionetNegotiate (d : δ) (iobase : LONG) : LONG × δ :=
  let d := virtionetWriteDstatus B d iobase VNET_S_DEVACK
  let d := virtionetWriteDstatus B d iobase (VNET_S_DEVACK ||| VNET_S_DRVLOAD)
  let feat := virtionetReadFeatures B d iobase
  let d := virtionetWriteFeatures B feat.2 iobase
    (feat.1 &&& ~~~virtionetUnwanted ||| VNET_F_CSUM)
  let d := virtionetWriteDstatus B d iobase (VNET_S_DEVACK ||| VNET_S_DRVLOAD ||| VNET_S_FEATOK)
  virtionetReadReg B d iobase VNET_R_DSTAT

/-- `virtionet_init(bus, device, function)`; `isUp`, `isBroadcast`, `isMulticast` and `isPromisc`
are the addresses of the functions of the driver. The result is `none` where the function returns
without a value. -/
def virtionetInit (isUp isBroadcast isMulticast isPromisc : LONG) (s : NetState δ)
    (bus device function : LONG) : Option ℤ × NetState δ :=
  let bar := pciCfgReadBar B s.dev bus device function 0
  if bar.1 &&& 1 = 0 then (some 1, { s with dev := bar.2 })
  else
    let iobase := bar.1 &&& 0xfffffffe
    let sub := pciCfgReadw B bar.2 bus.toUInt8 device.toUInt8 function.toUInt8 PCI_CFG_SSS
    if sub.1 ≠ 1 then (some 1, { s with dev := virtionetDrvfail B sub.2 iobase })
    else
      match ethernetAllocate s.eth with
      | (none, eth) => (some 1, { s with eth := eth, dev := virtionetDrvfail B sub.2 iobase })
      | (some i, eth) =>
        let blk := malloc s.mm sizeofVirtionetPriv
        let dev : Ethdev := { eth.ifs i with allocated := 1, priv := blk.1 }
        let p : VirtionetPriv := ⟨iobase, 0, 0, 0, 0, ⟨0, 0, 0⟩⟩
        let stat := virtionetNegotiate B sub.2 iobase
        if stat.1 &&& VNET_S_FEATOK.toUInt32 = 0 then
          (none, { eth := eth.set i dev, ints := s.ints, mm := blk.2, dev := stat.2 })
        else
          let mac := virtionetLoadMacaddr B stat.2 iobase dev.addr
          let q := virtionetInitializeQueue p blk.2
          (some 0,
            { eth := eth.set i { dev with addr := mac.2, isUp := isUp, isBroadcast := isBroadcast,
                                          isMulticast := isMulticast, isPromisc := isPromisc }
              ints := s.ints, mm := q.2, dev := mac.1 })

end Driver

end Korolev
