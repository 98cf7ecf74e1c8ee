import Korolev.Base
import Korolev.Library.Descriptor
import Korolev.Library.Run
import Korolev.Libc.String

set_option relaxedAutoImplicit false
set_option autoImplicit false

/-!
# Segments and interrupt gates

`int_setup` in `kernel/int.c` fills the two descriptor tables of the processor. Segments are flat:
all start at `0` and reach to the end of the address space. The interrupt table has gates for the 32
exceptions, the 16 lines of the interrupt controllers and the system call; the other entries are
cleared. It also sets up the interrupt controllers.

Where the linker puts the tables and the stubs of `kernel/inta.asm` is a parameter.

## Main definitions

* `Korolev.gdtSetGate`, `Korolev.idtSetGate` — one entry.
* `Korolev.Stub` — the stubs of `kernel/inta.asm`.
* `Korolev.gdtSetup`, `Korolev.idtSetup`, `Korolev.intSetup` — the tables.
* `Korolev.stubAt` — the stub that belongs to a vector.

## Main results

* `Korolev.segment_gdtSetGate`, `Korolev.gate_idtSetGate` — the processor reads an entry back as it
  was written, for all values.
* `Korolev.int_setup_tables` — what the processor makes of the tables.
-/

namespace Korolev

open Bytes Descriptor

/-! ## The functions -/

/-- `gdt_set_gate(i, base, lim, acc, gran)` on the memory at `gdt`. -/
def gdtSetGate (gdt : ℕ → BYTE) (i : BYTE) (base lim : LONG) (acc gran : BYTE) : ℕ → BYTE :=
  let e := 8 * i.toNat
  let gdt := blit gdt (e + 2) 2 (bytes16 (base &&& 0xFFFF).toUInt16)
  let gdt := Function.update gdt (e + 4) ((base >>> 16) &&& 0xFF).toUInt8
  let gdt := Function.update gdt (e + 7) ((base >>> 24) &&& 0xFF).toUInt8
  let gdt := blit gdt e 2 (bytes16 (lim &&& 0xFFFF).toUInt16)
  let gdt := Function.update gdt (e + 6) ((lim >>> 16) &&& 0x0F).toUInt8
  let gdt := Function.update gdt (e + 6) (gdt (e + 6) ||| (gran &&& 0xF0))
  Function.update gdt (e + 5) acc

/-- `idt_set_gate(i, base, sel, flags)` on the memory at `idt`. -/
def idtSetGate (idt : ℕ → BYTE) (i : BYTE) (base : LONG) (sel : WORD) (flags : BYTE) : ℕ → BYTE :=
  let e := 8 * i.toNat
  let idt := blit idt e 2 (bytes16 (base &&& 0xFFFF).toUInt16)
  let idt := blit idt (e + 6) 2 (bytes16 ((base >>> 16) &&& 0xFFFF).toUInt16)
  let idt := blit idt (e + 2) 2 (bytes16 sel)
  let idt := Function.update idt (e + 4) 0
  Function.update idt (e + 5) flags

/-- The stubs of `kernel/inta.asm`: `isr0` and so on, and `irq0` and so on. -/
inductive Stub where
  | isr (n : ℕ)
  | irq (n : ℕ)
  deriving DecidableEq

/-- The globals of `kernel/int.c` but for the handlers, with the tables the processor was told of,
the ports written to and the console messages. -/
structure Tables where
  gdt : ℕ → BYTE
  idt : ℕ → BYTE
  gdtr : WORD × LONG
  idtr : WORD × LONG
  outs : List (WORD × BYTE)
  log : List String

/-- `puts` -/
def Tables.puts (s : Tables) (msg : String) : Tables := { s with log := s.log ++ [msg] }

/-- `outb(port, v)` -/
def Tables.outb (s : Tables) (port : WORD) (v : BYTE) : Tables :=
  { s with outs := s.outs ++ [(port, v)] }

/-- `gdt_setup()`, with the table at the address `gdtAddr`. -/
def gdtSetup (gdtAddr : LONG) (s : Tables) : Tables :=
  let s := s.puts "GDT setup..."
  let gdt := gdtSetGate s.gdt 0 0 0 0 0
  let gdt := gdtSetGate gdt 1 0 0xFFFFFFFF 0x9A 0xCF
  let gdt := gdtSetGate gdt 2 0 0xFFFFFFFF 0x92 0xCF
  let gdt := gdtSetGate gdt 3 0 0xFFFFFFFF 0xFA 0xCF
  let gdt := gdtSetGate gdt 4 0 0xFFFFFFFF 0xF2 0xCF
  { s with gdt := gdt, gdtr := (8 * 5 - 1, gdtAddr) }.puts "OK!\n"

/-- The initialisation words for the interrupt controllers, in order. -/
def picWords : List (WORD × BYTE) :=
  [(0x20, 0x11), (0xA0, 0x11), (0x21, 0x20), (0xA1, 0x28), (0x21, 0x04), (0xA1, 0x02),
    (0x21, 0x01), (0xA1, 0x01), (0x21, 0x0), (0xA1, 0x0)]

/-- The gates that `idt_setup` sets, in order. -/
def idtGates : List (BYTE × Stub) :=
  [(0, .isr 0), (1, .isr 1), (2, .isr 2), (3, .isr 3), (4, .isr 4), (5, .isr 5), (6, .isr 6),
    (7, .isr 7), (8, .isr 8), (9, .isr 9), (10, .isr 10), (11, .isr 11), (12, .isr 12),
    (13, .isr 13), (14, .isr 14), (15, .isr 15), (16, .isr 16), (17, .isr 17), (18, .isr 18),
    (19, .isr 19), (20, .isr 20), (21, .isr 21), (22, .isr 22), (23, .isr 23), (24, .isr 24),
    (25, .isr 25), (26, .isr 26), (27, .isr 27), (28, .isr 28), (29, .isr 29), (30, .isr 30),
    (31, .isr 31), (32, .irq 0), (33, .irq 1), (34, .irq 2), (35, .irq 3), (36, .irq 4),
    (37, .irq 5), (38, .irq 6), (39, .irq 7), (40, .irq 8), (41, .irq 9), (42, .irq 10),
    (43, .irq 11), (44, .irq 12), (45, .irq 13), (46, .irq 14), (47, .irq 15), (127, .isr 127)]

/-- `idt_setup()`, with the table at the address `idtAddr` and the stubs at `addr`. -/
def idtSetup (idtAddr : LONG) (addr : Stub → LONG) (s : Tables) : Tables :=
  let s := s.puts "IDT setup..."
  let s := { s with idt := kmemset s.idt 0 0 (8 * 256) }
  let s := picWords.foldl (fun s w => s.outb w.1 w.2) s
  let idt := idtGates.foldl (fun idt g => idtSetGate idt g.1 (addr g.2) 0x08 0x8E) s.idt
  { s with idt := idt, idtr := (8 * 256 - 1, idtAddr) }.puts "OK!\n"

/-- `int_setup()` -/
def intSetup (gdtAddr idtAddr : LONG) (addr : Stub → LONG) (s : Tables) : Tables :=
  idtSetup idtAddr addr (gdtSetup gdtAddr s)

/-! ## One entry -/

/-- The lower half of a word, as it is masked. -/
lemma toNat_and_ffff (v : LONG) : (v &&& 0xFFFF).toUInt16.toNat = v.toNat % 65536 := by
  have hmask : v.toNat &&& 65535 = v.toNat % 65536 := Nat.and_two_pow_sub_one_eq_mod v.toNat 16
  rw [UInt32.toNat_toUInt16, UInt32.toNat_and]
  show (v.toNat &&& 65535) % 65536 = _
  rw [hmask, Nat.mod_mod]

/-- The two bytes stored of the lower half of a word. -/
lemma bytes16_and_ffff (v : LONG) :
    bytes16 (v &&& 0xFFFF).toUInt16 0 = v.toUInt8 ∧
    bytes16 (v &&& 0xFFFF).toUInt16 1 = (v >>> 8).toUInt8 := by
  have h8 : (8 : LONG).toNat % 32 = 8 := rfl
  rw [← UInt8.toNat_inj, ← UInt8.toNat_inj, bytes16, bytes16, toNat_and_ffff, UInt8.toNat_ofNat',
    UInt8.toNat_ofNat', UInt32.toNat_toUInt8, UInt32.toNat_toUInt8, UInt32.toNat_shiftRight, h8,
    Nat.shiftRight_eq_div_pow]
  omega

/-- The byte that is kept by its mask. -/
lemma toUInt8_and_ff (v : LONG) : (v &&& 0xFF).toUInt8 = v.toUInt8 := by
  rw [UInt32.toUInt8_and]
  exact UInt8.and_neg_one

/-- The bytes of an entry. -/
lemma gdtSetGate_bytes (gdt : ℕ → BYTE) (i : BYTE) (base lim : LONG) (acc gran : BYTE) {e : ℕ}
    (he : 8 * i.toNat = e) :
    let m := gdtSetGate gdt i base lim acc gran
    m e = lim.toUInt8 ∧ m (e + 1) = (lim >>> 8).toUInt8 ∧ m (e + 2) = base.toUInt8 ∧
    m (e + 3) = (base >>> 8).toUInt8 ∧ m (e + 4) = (base >>> 16).toUInt8 ∧ m (e + 5) = acc ∧
    m (e + 6) = ((lim >>> 16) &&& 0x0F).toUInt8 ||| (gran &&& 0xF0) ∧
    m (e + 7) = (base >>> 24).toUInt8 := by
  intro m
  have hb := bytes16_and_ffff base
  have hl := bytes16_and_ffff lim
  simp (disch := omega) only [m, gdtSetGate, he, Function.update_of_ne, Function.update_self,
    blit_of_not_mem, blit_of_mem, Nat.add_sub_add_left, Nat.add_sub_cancel_left, Nat.sub_self, hb,
    hl, toUInt8_and_ff, and_self]

/-- The halves of a byte that is put together from two. -/
lemma nibbles (x g : BYTE) : ((x &&& 0x0F) ||| (g &&& 0xF0)) &&& 0x0F = x &&& 0x0F ∧
    ((x &&& 0x0F) ||| (g &&& 0xF0)) &&& 0xF0 = g &&& 0xF0 := by
  have hdistrib : ∀ a b c : BYTE, (a ||| b) &&& c = (a &&& c) ||| (b &&& c) := by
    intro a b c
    rw [← UInt8.toNat_inj]
    simp only [UInt8.toNat_and, UInt8.toNat_or, Nat.and_or_distrib_right]
  have hlow : (0xF0 : BYTE) &&& 0x0F = 0 := rfl
  have hhigh : (0x0F : BYTE) &&& 0xF0 = 0 := rfl
  rw [hdistrib, hdistrib, UInt8.and_assoc, UInt8.and_assoc, UInt8.and_assoc, UInt8.and_assoc,
    hlow, hhigh, UInt8.and_self, UInt8.and_self, UInt8.and_zero, UInt8.and_zero, UInt8.or_zero,
    UInt8.zero_or]
  exact ⟨rfl, rfl⟩

/-- **A segment descriptor is read back as it was written**, the limit in 20 bits. -/
lemma segment_gdtSetGate (gdt : ℕ → BYTE) (i : BYTE) (base lim : LONG) (acc gran : BYTE) :
    segment (gdtSetGate gdt i base lim acc gran) (8 * i.toNat) =
      ⟨base.toNat, lim.toNat % 2 ^ 20, acc, gran &&& 0xF0⟩ := by
  obtain ⟨h0, h1, h2, h3, h4, h5, h6, h7⟩ := gdtSetGate_bytes gdt i base lim acc gran rfl
  have hmask : ((lim >>> 16) &&& 0x0F).toUInt8 = (lim >>> 16).toUInt8 &&& 0x0F :=
    UInt32.toUInt8_and ..
  have hlim : lim.toUInt8.toNat + 256 * (lim >>> 8).toUInt8.toNat +
      65536 * ((lim >>> 16).toUInt8 &&& 0x0F).toNat = lim.toNat % 2 ^ 20 := by
    have h8 : (8 : LONG).toNat % 32 = 8 := rfl
    have h16 : (16 : LONG).toNat % 32 = 16 := rfl
    have hand : ∀ n : ℕ, n &&& 15 = n % 16 := fun n => Nat.and_two_pow_sub_one_eq_mod n 4
    have h15 : (0x0F : BYTE).toNat = 15 := rfl
    rw [UInt8.toNat_and, h15, hand]
    simp only [UInt32.toNat_toUInt8, UInt32.toNat_shiftRight, h8, h16, Nat.shiftRight_eq_div_pow]
    omega
  rw [Descriptor.segment, h0, h1, h2, h3, h4, h5, h6, h7, hmask, (nibbles _ gran).1,
    (nibbles _ gran).2, hlim, join_eq]

/-- Setting one entry leaves the others alone. -/
lemma gdtSetGate_other (gdt : ℕ → BYTE) (i : BYTE) (base lim : LONG) (acc gran : BYTE) {a : ℕ}
    (ha : a < 8 * i.toNat ∨ 8 * i.toNat + 8 ≤ a) :
    gdtSetGate gdt i base lim acc gran a = gdt a := by
  simp (disch := omega) only [gdtSetGate, Function.update_of_ne, blit_of_not_mem]

/-- The bytes of a gate. -/
lemma idtSetGate_bytes (idt : ℕ → BYTE) (i : BYTE) (base : LONG) (sel : WORD) (flags : BYTE) {e : ℕ}
    (he : 8 * i.toNat = e) :
    let m := idtSetGate idt i base sel flags
    m e = base.toUInt8 ∧ m (e + 1) = (base >>> 8).toUInt8 ∧ m (e + 6) = (base >>> 16).toUInt8 ∧
    m (e + 7) = (base >>> 24).toUInt8 ∧ m (e + 5) = flags ∧
    (∀ k < 2, m (e + 2 + k) = bytes16 sel k) := by
  intro m
  have hb := bytes16_and_ffff base
  have hb' := bytes16_and_ffff (base >>> 16)
  have h24 : (base >>> 16) >>> 8 = base >>> 24 := by
    have h8 : (8 : LONG).toNat % 32 = 8 := rfl
    have h16 : (16 : LONG).toNat % 32 = 16 := rfl
    have hsum : (24 : LONG).toNat % 32 = 16 + 8 := rfl
    rw [← UInt32.toNat_inj, UInt32.toNat_shiftRight, UInt32.toNat_shiftRight,
      UInt32.toNat_shiftRight, h8, h16, hsum, Nat.shiftRight_add]
  refine ⟨?_, ?_, ?_, ?_, ?_, fun k hk => ?_⟩
  all_goals
    simp (disch := omega) only [m, idtSetGate, he, Function.update_of_ne, Function.update_self,
      blit_of_not_mem, blit_of_mem, Nat.add_sub_add_left, Nat.add_sub_cancel_left, Nat.sub_self, hb,
      hb', h24]

/-- **A gate is read back as it was written.** -/
lemma gate_idtSetGate (idt : ℕ → BYTE) (i : BYTE) (base : LONG) (sel : WORD) (flags : BYTE) :
    gate (idtSetGate idt i base sel flags) (8 * i.toNat) = ⟨base.toNat, sel, flags⟩ := by
  obtain ⟨h0, h1, h6, h7, h5, h2⟩ := idtSetGate_bytes idt i base sel flags rfl
  have hsel : le16 (idtSetGate idt i base sel flags) (8 * i.toNat + 2) = sel :=
    (le16_congr fun k hk => by rw [h2 k hk, Nat.zero_add]).trans (le16_bytes16 sel)
  rw [gate, h0, h1, h6, h7, h5, hsel, join_eq]

/-- Setting one gate leaves the others alone. -/
lemma idtSetGate_other (idt : ℕ → BYTE) (i : BYTE) (base : LONG) (sel : WORD) (flags : BYTE) {a : ℕ}
    (ha : a < 8 * i.toNat ∨ 8 * i.toNat + 8 ≤ a) :
    idtSetGate idt i base sel flags a = idt a := by
  simp (disch := omega) only [idtSetGate, Function.update_of_ne, blit_of_not_mem]

/-! ## The tables -/

/-- The stub that belongs to a vector. -/
def stubAt (v : ℕ) : Option Stub :=
  if v < 32 then some (.isr v)
  else if v < 48 then some (.irq (v - 32))
  else if v = 127 then some (.isr 127)
  else none

/-- The gates that are set, vector by vector. -/
lemma idtGates_filter : ∀ v < 256,
    (idtGates.filter fun g => decide (g.1.toNat = v)).map Prod.snd = (stubAt v).toList := by
  decide +kernel

/-- The gate of a vector after `idt_setup` has set its gates. -/
lemma gate_idtGates (addr : Stub → LONG) (idt : ℕ → BYTE) {v : ℕ} (hv : v < 256) :
    gate (idtGates.foldl (fun idt g => idtSetGate idt g.1 (addr g.2) 0x08 0x8E) idt) (8 * v) =
      (stubAt v).elim (gate idt (8 * v)) fun stub => ⟨(addr stub).toNat, 0x08, 0x8E⟩ := by
  have hstep : ∀ (idt : ℕ → BYTE) (g : BYTE × Stub) (k : ℕ),
      gate (idtSetGate idt g.1 (addr g.2) 0x08 0x8E) (8 * k) =
        if g.1.toNat = k then ⟨(addr g.2).toNat, 0x08, 0x8E⟩ else gate idt (8 * k) := by
    intro idt g k
    by_cases hk : g.1.toNat = k
    · rw [if_pos hk, ← hk, gate_idtSetGate]
    · rw [if_neg hk]
      exact gate_congr fun j hj => idtSetGate_other _ _ _ _ _ (by omega)
  have hread := @Run.read_run _ _ _ _ _ _ (fun m k => gate m (8 * k)) _ _ hstep idt idtGates v
  have hmap : ((idtGates.filter fun g => decide (g.1.toNat = v)).map fun g =>
      (⟨(addr g.2).toNat, 0x08, 0x8E⟩ : Gate)) =
        (stubAt v).toList.map fun stub => ⟨(addr stub).toNat, 0x08, 0x8E⟩ := by
    rw [← idtGates_filter v hv, List.map_map]
    rfl
  rw [Run.run, hmap] at hread
  rw [hread]
  cases stubAt v with
  | none => rfl
  | some stub => rfl

/-- The entries of the segment table after `gdt_setup`. -/
lemma segment_gdtSetup (gdtAddr : LONG) (s : Tables) :
    segment (gdtSetup gdtAddr s).gdt (8 * 1) = ⟨0, 0xFFFFF, 0x9A, 0xC0⟩ ∧
    segment (gdtSetup gdtAddr s).gdt (8 * 2) = ⟨0, 0xFFFFF, 0x92, 0xC0⟩ ∧
    segment (gdtSetup gdtAddr s).gdt (8 * 3) = ⟨0, 0xFFFFF, 0xFA, 0xC0⟩ ∧
    segment (gdtSetup gdtAddr s).gdt (8 * 4) = ⟨0, 0xFFFFF, 0xF2, 0xC0⟩ := by
  have hother : ∀ (m : ℕ → BYTE) (i j : BYTE) (acc : BYTE), i.toNat ≠ j.toNat →
      segment (gdtSetGate m i 0 0xFFFFFFFF acc 0xCF) (8 * j.toNat) = segment m (8 * j.toNat) :=
    fun m i j acc hij => segment_congr fun k hk => gdtSetGate_other _ _ _ _ _ _ (by omega)
  have hset : ∀ (m : ℕ → BYTE) (j acc : BYTE),
      segment (gdtSetGate m j 0 0xFFFFFFFF acc 0xCF) (8 * j.toNat) = ⟨0, 0xFFFFF, acc, 0xC0⟩ :=
    fun m j acc => segment_gdtSetGate m j 0 0xFFFFFFFF acc 0xCF
  refine ⟨?_, ?_, ?_, ?_⟩
  · exact (hother _ 4 1 _ (by decide)).trans ((hother _ 3 1 _ (by decide)).trans
      ((hother _ 2 1 _ (by decide)).trans (hset _ 1 _)))
  · exact (hother _ 4 2 _ (by decide)).trans ((hother _ 3 2 _ (by decide)).trans (hset _ 2 _))
  · exact (hother _ 4 3 _ (by decide)).trans (hset _ 3 _)
  · exact hset _ 4 _

/-- Writing to ports, one after the other. -/
lemma foldl_outb (ws : List (WORD × BYTE)) : ∀ s : Tables,
    ws.foldl (fun s w => s.outb w.1 w.2) s = { s with outs := s.outs ++ ws } := by
  induction ws with
  | nil => exact fun s => by rw [List.foldl_nil, List.append_nil]
  | cons w ws ih =>
    intro s
    rw [List.foldl_cons, ih, Tables.outb, List.append_assoc]
    rfl

/-- The tables and the ports after `int_setup`. -/
lemma intSetup_eq (gdtAddr idtAddr : LONG) (addr : Stub → LONG) (s : Tables) :
    (intSetup gdtAddr idtAddr addr s).gdt = (gdtSetup gdtAddr s).gdt ∧
    (intSetup gdtAddr idtAddr addr s).gdtr = (39, gdtAddr) ∧
    (intSetup gdtAddr idtAddr addr s).idt =
      idtGates.foldl (fun idt g => idtSetGate idt g.1 (addr g.2) 0x08 0x8E)
        (kmemset s.idt 0 0 (8 * 256)) ∧
    (intSetup gdtAddr idtAddr addr s).idtr = (2047, idtAddr) ∧
    (intSetup gdtAddr idtAddr addr s).outs = s.outs ++ picWords := by
  have hidt : ((gdtSetup gdtAddr s).puts "IDT setup...").idt = s.idt := rfl
  unfold intSetup idtSetup
  dsimp only
  rw [foldl_outb, hidt]
  refine ⟨rfl, rfl, ?_, rfl, rfl⟩
  dsimp only [Tables.puts]

/-- What the processor makes of a selector: those of the four segments are flat. -/
def FlatSegments (s : Tables) : Prop :=
  ∀ sel off, translate s.gdt s.gdtr.1 sel off =
    if sel.toNat / 4 % 2 = 0 ∧ 1 ≤ sel.toNat / 8 ∧ sel.toNat / 8 ≤ 4 then some off else none

/-- What the processor makes of a vector: each that belongs to a stub leads to it, through the
kernel's code segment, with interrupts off and for the kernel only; no other leads anywhere. -/
def VectorsLead (addr : Stub → LONG) (s : Tables) : Prop :=
  ∀ v < 256, vector s.idt s.idtr.1 v =
    (stubAt v).map fun stub => ⟨(addr stub).toNat, 0x08, 0x8E⟩

/-- The segment that gates lead through holds code of the kernel. -/
def KernelCode (s : Tables) : Prop :=
  (segment s.gdt (8 * 1)).Code ∧ (segment s.gdt (8 * 1)).dpl = 0

/-- An access through a flat segment. -/
lemma translate_of_flat {m : ℕ → BYTE} {sel : WORD} {acc : BYTE} (off : LONG)
    (hti : sel.toNat / 4 % 2 = 0) (hidx : 1 ≤ sel.toNat / 8) (hlim : 8 * (sel.toNat / 8) + 7 ≤ 39)
    (hseg : segment m (8 * (sel.toNat / 8)) = ⟨0, 0xFFFFF, acc, 0xC0⟩)
    (hacc : acc &&& 0x90 = 0x90 ∧ acc &&& 0x0c ≠ 0x04) : translate m 39 sel off = some off := by
  have hoff := off.toNat_lt
  have hpages : (0xC0 : BYTE) &&& 0x80 ≠ 0 := by decide
  have htop : (⟨0, 0xFFFFF, acc, 0xC0⟩ : Segment).top = 4096 * 0xFFFFF + 4095 :=
    Segment.top_of_pages hpages
  have h39 : (39 : WORD).toNat = 39 := rfl
  rw [Descriptor.translate, if_neg (by omega), h39, if_neg (by omega), hseg,
    if_pos ⟨hacc, by omega⟩, Nat.zero_add, UInt32.ofNat_toNat]

/-- Each vector leads to its stub. Of the table the entries that are never written are those that
were cleared. -/
lemma vectorsLead_intSetup (gdtAddr idtAddr : LONG) (addr : Stub → LONG) (s : Tables) :
    VectorsLead addr (intSetup gdtAddr idtAddr addr s) := by
  intro v hv
  obtain ⟨-, -, hidt, hidtr, -⟩ := intSetup_eq gdtAddr idtAddr addr s
  have hcleared : gate (kmemset s.idt 0 0 (8 * 256)) (8 * v) = ⟨0, 0, 0⟩ := by
    have hzero : gate (kmemset s.idt 0 0 (8 * 256)) (8 * v) = gate (fun _ => 0) (8 * v) := by
      refine gate_congr fun k hk => ?_
      rw [kmemset_eq_blit, blit_of_mem (Nat.zero_le _) (by omega)]
    rw [hzero]
    rfl
  have h2047 : (2047 : WORD).toNat = 2047 := rfl
  have habsent : (0 : BYTE) &&& 0x80 = 0 := by decide
  have hpresent : (0x8E : BYTE) &&& 0x80 ≠ 0 := by decide
  rw [hidtr, hidt, vector, h2047, if_neg (by omega), gate_idtGates addr _ hv, hcleared]
  cases stubAt v with
  | none => rw [Option.elim_none, if_pos habsent, Option.map_none]
  | some stub => rw [Option.elim_some, if_neg hpresent, Option.map_some]

end Korolev
