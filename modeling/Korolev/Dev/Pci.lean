import Korolev.Base
import Korolev.Library.Run
import Korolev.Library.Slots

set_option relaxedAutoImplicit false
set_option autoImplicit false

/-!
# PCI: configuration space and shared interrupts

`dev/pci.c` reads and writes the configuration space of PCI functions through two I/O ports, and
keeps a table of the handlers that share the interrupt of the PCI devices. A driver enters its
handler with `pci_int_request` and takes it out with `pci_int_release`; on an interrupt every
handler in the table is called with the pointer its driver gave.

What is behind ports (`include/port.h`) and volatile memory is not part of the kernel: a device is
any state machine that answers reads and takes writes. `io_wait()` is a pair of jumps and does
nothing.

An entry of the table is free if its `dev` is `NULL`. Entries are taken and freed in any order;
the table stands for the multiset of the registrations in it.

## Main definitions

* `Korolev.Bus` — the accesses a driver can make.
* `Korolev.pciCfgReadb`, `Korolev.pciCfgReadw`, `Korolev.pciCfgReadl`, `Korolev.pciCfgWriteb`,
  `Korolev.pciCfgWritew`, `Korolev.pciCfgWritel` — configuration space.
* `Korolev.pciIntRequest`, `Korolev.pciIntRelease`, `Korolev.pciIrqHandler` — the table.
* `Korolev.registrations` — what the table stands for.

## Main results

* `Korolev.pciIntRequest_cases` — everything a request can do.
* `Korolev.pci_int_table` — the table represents the live registrations after every sequence of
  requests and releases.
-/

namespace Korolev

/-! ## Ports -/

/-- What is reached through the ports and the memory-mapped registers: how the devices answer,
and how their state changes with every access. -/
structure Bus (δ : Type*) where
  inb : δ → WORD → BYTE × δ
  inl : δ → WORD → LONG × δ
  outb : δ → WORD → BYTE → δ
  outw : δ → WORD → WORD → δ
  outl : δ → WORD → LONG → δ
  read8 : δ → LONG → BYTE × δ
  read32 : δ → LONG → LONG × δ
  write32 : δ → LONG → LONG → δ

/-! ## Configuration space -/

section Cfg

variable {δ : Type*} (B : Bus δ) (d : δ)

def PCI_PORT_CONF_ADDR : WORD := 0xCF8

def PCI_PORT_CONF_DATA : WORD := 0xCFC

def PCI_CFG_BR0 : BYTE := 0x10

def PCI_CFG_SSS : BYTE := 0x2E

def PCI_CFG_INT : BYTE := 0x3C

/-- The word that selects a register of a function. -/
def pciCfgAddr (bus dev func off : BYTE) : LONG :=
  bus.toUInt32 <<< 16 ||| dev.toUInt32 <<< 11 ||| func.toUInt32 <<< 8 |||
    (off &&& 0xFC).toUInt32 ||| 0x80000000

/-- `pci_cfg_readl(bus, dev, func, off)` -/
def pciCfgReadl (bus dev func off : BYTE) : LONG × δ :=
  let d := B.outl d PCI_PORT_CONF_ADDR (pciCfgAddr bus dev func off)
  let r := B.inl d PCI_PORT_CONF_DATA
  (r.1 >>> ((off &&& 2) * 8).toUInt32, r.2)

/-- `pci_cfg_readw(bus, dev, func, off)` -/
def pciCfgReadw (bus dev func off : BYTE) : WORD × δ :=
  let r := pciCfgReadl B d bus dev func off
  (r.1.toUInt16, r.2)

/-- `pci_cfg_readb(bus, dev, func, off)` -/
def pciCfgReadb (bus dev func off : BYTE) : BYTE × δ :=
  let r := pciCfgReadl B d bus dev func off
  (r.1.toUInt8, r.2)

/-- `pci_cfg_writeb(bus, dev, func, off, val)` -/
def pciCfgWriteb (bus dev func off val : BYTE) : δ :=
  B.outb (B.outl d PCI_PORT_CONF_ADDR (pciCfgAddr bus dev func off)) PCI_PORT_CONF_DATA val

/-- `pci_cfg_writew(bus, dev, func, off, val)` -/
def pciCfgWritew (bus dev func off : BYTE) (val : WORD) : δ :=
  B.outw (B.outl d PCI_PORT_CONF_ADDR (pciCfgAddr bus dev func off)) PCI_PORT_CONF_DATA val

/-- `pci_cfg_writel(bus, dev, func, off, val)` -/
def pciCfgWritel (bus dev func off : BYTE) (val : LONG) : δ :=
  B.outl (B.outl d PCI_PORT_CONF_ADDR (pciCfgAddr bus dev func off)) PCI_PORT_CONF_DATA val

/-- `pci_cfg_read_bar(bus, dev, func, n)` for the arguments of a driver's entry point. -/
def pciCfgReadBar (bus dev func : LONG) (n : BYTE) : LONG × δ :=
  pciCfgReadl B d bus.toUInt8 dev.toUInt8 func.toUInt8 (PCI_CFG_BR0 + n * 4)

end Cfg

/-! ## The interrupt table -/

/-- `pci_int_entry`. Handlers are known by their addresses. -/
structure PciIntEntry where
  dev : LONG
  handler : LONG
  bus : LONG
  device : LONG
  function : LONG
  deriving DecidableEq, Repr

/-- `pci_int_entries`, which has 256 entries. -/
abbrev PciIntTable := ℕ → PciIntEntry

/-- An entry after `pci_setup()` or a release. -/
def PciIntEntry.zero : PciIntEntry := ⟨0, 0, 0, 0, 0⟩

/-- `pci_int_request(bus, device, func, dev_id, handler)`: the result and the table. -/
def pciIntRequest (t : PciIntTable) (bus device func devId handler : LONG) : ℤ × PciIntTable :=
  match (List.range 256).find? fun i => (t i).dev = 0 with
  | some i => (0, Function.update t i ⟨devId, handler, bus, device, func⟩)
  | none => (1, t)

/-- `pci_int_release(dev_id)` -/
def pciIntRelease (t : PciIntTable) (devId : LONG) : PciIntTable :=
  (List.range 256).foldl (fun t i => if (t i).dev = devId then Function.update t i .zero else t) t

/-- `pci_irq_handler(regs)`: the handlers called, with the pointers they are given. -/
def pciIrqHandler (t : PciIntTable) : List (LONG × LONG) :=
  ((List.range 256).filter fun i => (t i).dev ≠ 0).map fun i => ((t i).handler, (t i).dev)

/-- Everything a request can do: take the first free entry, or fail because there is none. -/
lemma pciIntRequest_cases (t : PciIntTable) (bus device func devId handler : LONG) :
    (∃ i < 256, (t i).dev = 0 ∧ (∀ j < i, (t j).dev ≠ 0) ∧
      pciIntRequest t bus device func devId handler =
        (0, Function.update t i ⟨devId, handler, bus, device, func⟩)) ∨
    ((∀ i < 256, (t i).dev ≠ 0) ∧ pciIntRequest t bus device func devId handler = (1, t)) := by
  rw [pciIntRequest]
  obtain ⟨i, hi, hfree, hbefore, hfind⟩ | ⟨hfull, hfind⟩ :=
    Slots.find?_range_cases 256 fun i => (t i).dev = 0
  · rw [hfind]
    exact .inl ⟨i, hi, hfree, hbefore, rfl⟩
  · rw [hfind]
    exact .inr ⟨hfull, rfl⟩

/-- A request for a device that exists leaves the table as it is iff the table is full. -/
lemma pciIntRequest_eq_self_iff (t : PciIntTable) (bus device func handler : LONG) {devId : LONG}
    (hdev : devId ≠ 0) :
    (pciIntRequest t bus device func devId handler).2 = t ↔ ∀ i < 256, (t i).dev ≠ 0 := by
  obtain ⟨i, hi, hfree, -, hreq⟩ | ⟨hfull, hreq⟩ :=
    pciIntRequest_cases t bus device func devId handler
  · rw [hreq]
    refine iff_of_false (fun h => ?_) fun h => h i hi hfree
    have hentry := congrFun h i
    simp only [Function.update_self] at hentry
    rw [← hentry] at hfree
    exact hdev hfree
  · rw [hreq]
    exact iff_of_true rfl hfull

/-- Everything a release does: it zeroes the entries of its device. -/
lemma pciIntRelease_apply (t : PciIntTable) (devId : LONG) (i : ℕ) :
    pciIntRelease t devId i = if i < 256 ∧ (t i).dev = devId then .zero else t i := by
  have hstep : (fun (t : PciIntTable) i =>
      if (t i).dev = devId then Function.update t i .zero else t) = fun t i =>
        Function.update t i (if (t i).dev = devId then .zero else t i) := by
    funext t i
    split_ifs
    · rfl
    · rw [Function.update_eq_self]
  rw [pciIntRelease, hstep,
    Slots.foldl_update_apply t fun _ e => if e.dev = devId then .zero else e, ite_and]

/-! ## Registrations -/

/-- The registration in an entry, if there is one. -/
def PciIntEntry.registration (e : PciIntEntry) : Option PciIntEntry :=
  if e.dev = 0 then none else some e

/-- The registrations in the table. -/
def registrations (t : PciIntTable) : Multiset PciIntEntry :=
  Slots.contents 256 fun i => (t i).registration

lemma PciIntEntry.registration_eq_none {e : PciIntEntry} :
    e.registration = none ↔ e.dev = 0 := by
  rw [registration]
  split_ifs with h <;> simp [h]

/-- A successful request adds its registration. -/
lemma registrations_update {t : PciIntTable} {i : ℕ} (hi : i < 256) (hfree : (t i).dev = 0)
    {e : PciIntEntry} (he : e.dev ≠ 0) :
    registrations (Function.update t i e) = e ::ₘ registrations t := by
  have hreg : (fun j => (Function.update t i e j).registration) =
      Function.update (fun j => (t j).registration) i (some e) := by
    have hentry : e.registration = some e := if_neg he
    rw [← hentry]
    exact Function.comp_update PciIntEntry.registration t i e
  rw [registrations, hreg]
  exact Slots.contents_take hi (PciIntEntry.registration_eq_none.mpr hfree) e

/-- A release removes the registrations of its device, and no other. -/
lemma registrations_release (t : PciIntTable) (devId : LONG) :
    registrations (pciIntRelease t devId) = (registrations t).filter fun e => e.dev ≠ devId := by
  have hfilter := Slots.contents_filter (n := 256) (f := fun i => (t i).registration)
    fun e => decide (e.dev ≠ devId)
  simp only [decide_eq_true_eq] at hfilter
  rw [registrations, registrations, ← hfilter]
  refine Slots.contents_congr fun i hi => ?_
  rw [pciIntRelease_apply]
  by_cases hdev : (t i).dev = devId
  · rw [if_pos ⟨hi, hdev⟩, PciIntEntry.registration_eq_none.mpr rfl, PciIntEntry.registration]
    split_ifs
    · rfl
    · rw [Option.filter_some, if_neg (by simpa using hdev)]
  · rw [if_neg fun h => hdev h.2, PciIntEntry.registration]
    split_ifs
    · rfl
    · rw [Option.filter_some, if_pos (by simpa using hdev)]

/-- A request fails iff 256 registrations are there. -/
lemma card_registrations_eq_iff (t : PciIntTable) :
    (registrations t).card = 256 ↔ ∀ i < 256, (t i).dev ≠ 0 := by
  rw [registrations, Slots.card_contents_eq_iff]
  exact forall₂_congr fun i _ => not_congr PciIntEntry.registration_eq_none

/-- The interrupt calls the handlers in the table. -/
lemma pciIrqHandler_eq (t : PciIntTable) :
    (pciIrqHandler t : Multiset (LONG × LONG)) =
      (registrations t).map fun e => (e.handler, e.dev) := by
  rw [registrations, Slots.contents, Multiset.map_coe, List.map_filterMap, pciIrqHandler,
    ← List.filterMap_eq_map, List.filterMap_filter]
  refine congrArg _ (List.filterMap_congr fun i _ => ?_)
  rw [PciIntEntry.registration]
  by_cases hdev : (t i).dev = 0
  · simp [hdev]
  · simp [hdev]

/-! ## Histories -/

/-- What a driver does to the table. -/
inductive PciIntOp
  | request (bus device func devId handler : LONG)
  | release (devId : LONG)

/-- A request is made for a device. -/
def PciIntOp.Named : PciIntOp → Prop
  | request _ _ _ devId _ => devId ≠ 0
  | release _ => True

/-- The table, and the live registrations: those of requests that returned `0`, without those
released since. -/
structure PciInts where
  table : PciIntTable
  live : List PciIntEntry

/-- The state after `pci_setup()` has cleared the table. -/
def PciInts.boot : PciInts := ⟨fun _ => .zero, []⟩

/-- One call. -/
def PciInts.step (s : PciInts) : PciIntOp → PciInts
  | .request bus device func devId handler =>
    let r := pciIntRequest s.table bus device func devId handler
    ⟨r.2, if r.1 = 0 then ⟨devId, handler, bus, device, func⟩ :: s.live else s.live⟩
  | .release devId => ⟨pciIntRelease s.table devId, s.live.filter fun e => e.dev ≠ devId⟩

/-- The table represents the live registrations. -/
def PciInts.Represents (s : PciInts) : Prop :=
  registrations s.table = (s.live : Multiset PciIntEntry)

lemma PciInts.boot_represents : PciInts.boot.Represents :=
  Slots.contents_eq_zero fun _ _ => rfl

/-- Every call keeps the representation. -/
lemma PciInts.Represents.step {s : PciInts} {op : PciIntOp} (h : s.Represents) (hop : op.Named) :
    (s.step op).Represents := by
  cases op with
  | request bus device func devId handler =>
    rw [Represents, PciInts.step]
    obtain ⟨i, hi, hfree, -, hreq⟩ | ⟨-, hreq⟩ :=
      pciIntRequest_cases s.table bus device func devId handler
    · simp only [hreq, if_true]
      rw [registrations_update hi hfree (show devId ≠ 0 from hop), h, Multiset.cons_coe]
    · simpa [hreq, Represents] using h
  | release devId =>
    rw [Represents, PciInts.step]
    simp only
    rw [registrations_release, h, Multiset.filter_coe]

/-- The table represents the live registrations after every history. -/
lemma PciInts.represents_run {ops : List PciIntOp} (hops : ∀ op ∈ ops, op.Named) :
    (Run.run PciInts.step .boot ops).Represents := by
  have halong : Run.Along PciInts.step (fun _ op => op.Named) .boot ops :=
    Run.along_iff_forall_mem.mpr hops
  exact Run.run_invariant (fun _ _ h hop => h.step hop) boot_represents halong

/-- What a request returns depends on the number of live registrations. -/
lemma PciInts.Represents.request_iff {s : PciInts} (h : s.Represents)
    (bus device func devId handler : LONG) :
    (pciIntRequest s.table bus device func devId handler).1 = 1 ↔ s.live.length = 256 := by
  have hcard := card_registrations_eq_iff s.table
  rw [h, Multiset.coe_card] at hcard
  rw [hcard]
  obtain ⟨i, hi, hfree, -, hreq⟩ | ⟨hfull, hreq⟩ :=
    pciIntRequest_cases s.table bus device func devId handler
  · rw [hreq]
    exact iff_of_false (by simp) fun hfull => hfull i hi hfree
  · rw [hreq]
    exact iff_of_true rfl hfull

/-- **The shared interrupt table.** After every sequence of requests and releases the table
represents the live registrations; an interrupt calls the handler of each of them once, with its
own device, and nothing else; a request fails iff 256 registrations are live, and then leaves the
table as it is; a release removes the registrations of its device and no other. -/
theorem pci_int_table (ops : List PciIntOp) (hops : ∀ op ∈ ops, op.Named) :
    let s := Run.run PciInts.step .boot ops
    registrations s.table = (s.live : Multiset PciIntEntry) ∧
    (pciIrqHandler s.table : Multiset (LONG × LONG)) =
      (s.live.map fun e => (e.handler, e.dev) : List (LONG × LONG)) ∧
    (∀ bus device func devId handler,
      let r := pciIntRequest s.table bus device func devId handler
      (r.1 = 0 ∨ r.1 = 1) ∧ (r.1 = 1 ↔ s.live.length = 256) ∧ (r.1 = 1 → r.2 = s.table)) ∧
    (∀ devId, registrations (pciIntRelease s.table devId) =
      (s.live.filter fun e => e.dev ≠ devId : List PciIntEntry)) := by
  intro s
  have h : s.Represents := PciInts.represents_run hops
  refine ⟨h, ?_, fun bus device func devId handler => ⟨?_, h.request_iff .., ?_⟩, fun devId => ?_⟩
  · rw [pciIrqHandler_eq, h, Multiset.map_coe]
  · obtain ⟨i, -, -, -, hreq⟩ | ⟨-, hreq⟩ :=
      pciIntRequest_cases s.table bus device func devId handler
    · exact .inl (by rw [hreq])
    · exact .inr (by rw [hreq])
  · intro hone
    obtain ⟨i, -, -, -, hreq⟩ | ⟨-, hreq⟩ :=
      pciIntRequest_cases s.table bus device func devId handler
    · simp [hreq] at hone
    · rw [hreq]
  · rw [registrations_release, h, Multiset.filter_coe]

/-- One device, entered twice and another one, then released: its two entries are gone. -/
theorem pci_int_table_twice :
    registrations (Run.run PciInts.step .boot [.request 0 3 0 0x1000 0x100000,
      .request 0 4 0 0x2000 0x100010, .request 0 3 0 0x1000 0x100000, .release 0x1000]).table =
      ([⟨0x2000, 0x100010, 0, 4, 0⟩] : List PciIntEntry) := by
  refine (pci_int_table _ ?_).1.trans ?_
  · intro op hop
    simp only [List.mem_cons, List.not_mem_nil, or_false] at hop
    rcases hop with rfl | rfl | rfl | rfl <;> simp [PciIntOp.Named]
  · rfl

end Korolev
