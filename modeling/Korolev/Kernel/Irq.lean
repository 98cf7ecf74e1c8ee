import Korolev.Kernel.Stubs
import Korolev.Library.I8259

set_option relaxedAutoImplicit false
set_option autoImplicit false

/-!
# Requests of devices

A device that wants attention raises its line at the interrupt controllers. The processor
acknowledges when it takes interrupts and gets a vector, which leads to one of the stubs of
`kernel/inta.asm`; `irq_handler` calls the handler and tells the controllers of the end. Devices go
on raising lines meanwhile.

The controllers are set up by the words that `idt_setup` writes. All gates are interrupt gates, so
from the acknowledgement to `iret` the processor takes no other request: the `sti` before `iret` has
an effect only behind it.

## Main definitions

* `Korolev.picOutb` — a port of the controllers is written to.
* `Korolev.IrqEvent`, `Korolev.Irqs.step` — what devices, the processor and the program do.
* `Korolev.Irqs.Delivers` — the right thing happens.

## Main results

* `Korolev.picsReady_intSetup` — the controllers after `int_setup`.
* `Korolev.irq_delivery` — the line that has priority is handled, the edges are handled once but for
  those on a line that waits, and each interrupted program goes on with one data segment.
-/

namespace Korolev

open I8259

/-! ## The functions -/

/-- A write to a port of the controllers. -/
def picOutb (p : Pair) (w : WORD × BYTE) : Pair :=
  if w.1 = 0x20 then { p with master := p.master.command w.2 }
  else if w.1 = 0x21 then { p with master := p.master.data w.2 }
  else if w.1 = 0xA0 then { p with slave := p.slave.command w.2 }
  else if w.1 = 0xA1 then { p with slave := p.slave.data w.2 }
  else p

/-- What devices, the program and the processor do: a device raises its line, the program runs on,
the processor acknowledges a request, and the handler returns. -/
inductive IrqEvent where
  | raise (l : ℕ)
  | program (x : Context) (m : Machine)
  | enter
  | leave

/-- The controllers, the stub that was entered and not left yet, and what the program and the kernel
have. -/
structure Irqs where
  pics : Pair
  serving : Option Stub
  context : Context
  machine : Machine

namespace Irqs

variable (handlers : LONG → Option Isr) (gap : ℕ) (t : Tables) (code : ℕ → Option Stub)

/-- The processor takes requests: no handler runs, and the flag of the program is set. -/
def Ready (s : Irqs) : Prop := s.serving = none ∧ s.context.eflags &&& 0x200 ≠ 0

instance (s : Irqs) : Decidable s.Ready := inferInstanceAs (Decidable (_ ∧ _))

/-- One event, with the tables of the processor and the stubs found at addresses. A handler that
does not return is not left. -/
def step (s : Irqs) : IrqEvent → Irqs
  | .raise l => { s with pics := s.pics.raise l }
  | .program x m => if s.serving = none then { s with context := x, machine := m } else s
  | .enter =>
    if s.Ready then
      match s.pics.acknowledge with
      | none => s
      | some (v, pics) =>
        { s with
          pics := pics
          serving := (Descriptor.vector t.idt t.idtr.1 v).bind fun g => code g.offset }
    else s
  | .leave =>
    match s.serving with
    | none => s
    | some stub =>
      match interrupt handlers gap stub none s.context s.machine with
      | none => s
      | some ((x, m), outs) =>
        { pics := outs.foldl picOutb s.pics, serving := none, context := x, machine := m }

/-- The lines with a request that waits. -/
def waiting (s : Irqs) : List ℕ := Pair.order.filter s.pics.latched

/-- The line whose request is handled. -/
def inService (s : Irqs) : List ℕ :=
  match s.serving with
  | some (.irq l) => [l]
  | _ => []

/-- The requests that wait or are handled. -/
def content (s : Irqs) : Multiset ℕ := (s.waiting : Multiset ℕ) + (s.inService : Multiset ℕ)

/-- The requests that come in with an event. A line that is raised again while its request waits
makes none. -/
def arrived (s : Irqs) : IrqEvent → List ℕ
  | .raise l => if s.pics.latched l then [] else [l]
  | _ => []

/-- The edges on lines. -/
def raised (_ : Irqs) : IrqEvent → List ℕ
  | .raise l => [l]
  | _ => []

/-- The edges that are lost: those on a line whose request waits already. -/
def dropped (s : Irqs) : IrqEvent → List ℕ
  | .raise l => if l ∈ s.waiting then [l] else []
  | _ => []

/-- The requests whose handling is at its end with an event. -/
def handled (s : Irqs) (op : IrqEvent) : List ℕ :=
  match op with
  | .leave => if (s.step handlers gap t code .leave).serving = none then s.inService else []
  | _ => []

/-- **The right thing happens.** The processor, where it takes requests, goes to the stub of the
first waiting line in the order of the priorities, and to none if none waits. From a handler that
returns, and from no other, it goes back to the program, which finds everything as it was but the
segments `es`, `fs` and `gs`: they are `ds`. -/
def Delivers (s : Irqs) (op : IrqEvent) : Prop :=
  match op with
  | .enter =>
    s.Ready → (s.step handlers gap t code .enter).serving = s.waiting.head?.map Stub.irq
  | .leave => ∀ stub, s.serving = some stub →
    ((s.step handlers gap t code .leave).serving = none ↔
      HandlerReturns handlers gap stub none s.context s.machine) ∧
    ((s.step handlers gap t code .leave).serving = none →
      (s.step handlers gap t code .leave).context = s.context.oneSegment ∧
      KeepsFrom s.machine.sp s.machine (s.step handlers gap t code .leave).machine)
  | _ => True

end Irqs

/-! ## The controllers -/

/-- The controllers work together, no line is masked, and the vectors are those of the stubs. -/
structure PicsReady (p : Pair) : Prop where
  wired : p.Wired
  master_imr : p.master.imr = 0
  slave_imr : p.slave.imr = 0
  master_base : p.master.base = 32
  slave_base : p.slave.base = 40

/-- The controllers after the words of `idt_setup`, whatever state they were in. -/
lemma foldl_picWords (p : Pair) :
    picWords.foldl picOutb p =
      { master := ⟨fun _ => false, fun _ => false, 0, 32, 4, false, .mask⟩
        slave := ⟨fun _ => false, fun _ => false, 0, 40, 2, false, .mask⟩ } := rfl

/-- After `int_setup` the controllers are ready, and nothing waits or is in service. -/
lemma picsReady_intSetup (gdtAddr idtAddr : LONG) (addr : Stub → LONG) (t : Tables) (p : Pair) :
    let q := (intSetup gdtAddr idtAddr addr t).outs.foldl picOutb p
    PicsReady q ∧ q.Idle ∧ ∀ l, q.latched l = false := by
  intro q
  obtain ⟨-, -, -, -, houts⟩ := intSetup_eq gdtAddr idtAddr addr t
  have hq : q = { master := ⟨fun _ => false, fun _ => false, 0, 32, 4, false, .mask⟩
                  slave := ⟨fun _ => false, fun _ => false, 0, 40, 2, false, .mask⟩ } := by
    show (intSetup gdtAddr idtAddr addr t).outs.foldl picOutb p = _
    rw [houts, List.foldl_append, foldl_picWords]
  rw [hq]
  refine ⟨⟨⟨by decide, rfl, rfl⟩, rfl, rfl, rfl, rfl⟩, ⟨fun _ => rfl, fun _ => rfl⟩, fun l => ?_⟩
  simp only [Pair.latched, ite_self]

section Pics

variable {p : Pair} {l : ℕ}

lemma PicsReady.raise (h : PicsReady p) (l : ℕ) : PicsReady (p.raise l) := by
  obtain ⟨⟨hcascaded, hm, hs⟩, himr, himr', hbase, hbase'⟩ := h
  unfold Pair.raise
  split_ifs
  · exact ⟨⟨hcascaded, hm, hs⟩, himr, himr', hbase, hbase'⟩
  · exact ⟨⟨hcascaded, hm, hs⟩, himr, himr', hbase, hbase'⟩

lemma PicsReady.serve (h : PicsReady p) (l : ℕ) : PicsReady (p.serve l) := by
  obtain ⟨⟨hcascaded, hm, hs⟩, himr, himr', hbase, hbase'⟩ := h
  unfold Pair.serve
  split_ifs
  · exact ⟨⟨hcascaded, hm, hs⟩, himr, himr', hbase, hbase'⟩
  · exact ⟨⟨hcascaded, hm, hs⟩, himr, himr', hbase, hbase'⟩

/-- With no line masked a request that is latched is pending. -/
lemma PicsReady.pendingLine_eq (h : PicsReady p) (l : ℕ) : p.pendingLine l = p.latched l := by
  have hmask : ∀ i, (0 : UInt8).toBitVec.getLsbD i = false := fun i => BitVec.getLsbD_zero
  unfold Pair.pendingLine Pair.latched Chip.pending
  rw [h.master_imr, h.slave_imr, hmask, hmask, hmask, Bool.not_false, Bool.and_true, Bool.and_true,
    Bool.and_true]

/-- The vector of a line leads to its stub. -/
lemma PicsReady.stubAt_vector (h : PicsReady p) (hl : l ∈ Pair.order) :
    p.vector l < 256 ∧ stubAt (p.vector l) = some (.irq l) := by
  have hl16 : l < 16 := by
    simp only [Pair.order, List.mem_cons, List.not_mem_nil, or_false] at hl
    omega
  have hvector : p.vector l = 32 + l := by
    unfold Pair.vector
    rw [h.master_base, h.slave_base]
    split_ifs <;> omega
  refine ⟨by omega, ?_⟩
  rw [hvector, stubAt, if_neg (by omega), if_pos (by omega), Nat.add_sub_cancel_left]

/-- What `irq_handler` tells the controllers is the end of the interrupt. -/
lemma foldl_picOutb_eoi (p : Pair) (hl : l < 16) :
    (if 40 ≤ UInt32.ofNat (32 + l) then [((0xA0 : WORD), (0x20 : BYTE)), (0x20, 0x20)]
      else [(0x20, 0x20)]).foldl picOutb p = p.finish l := by
  have hcommand : ∀ c : Chip, c.command 0x20 = c.eoi := fun _ => rfl
  have hnat : (UInt32.ofNat (32 + l)).toNat = 32 + l := by
    rw [UInt32.toNat_ofNat', Nat.mod_eq_of_lt (by omega)]
  have h40 : (40 : LONG).toNat = 40 := rfl
  have hslave : (40 ≤ UInt32.ofNat (32 + l)) ↔ ¬ l < 8 := by
    rw [UInt32.le_iff_toNat_le, hnat, h40]
    omega
  unfold Pair.finish
  by_cases hl8 : l < 8
  · rw [if_neg (by rw [hslave]; exact not_not_intro hl8), if_pos hl8]
    rfl
  · rw [if_pos (hslave.mpr hl8), if_neg hl8]
    rfl

/-- The end of an interrupt changes nothing but that it is at its end. -/
lemma PicsReady.finish (h : PicsReady p) (hs : p.Serves l) (hl : l < 16) :
    PicsReady (p.finish l) ∧ (p.finish l).Idle ∧ (p.finish l).latched = p.latched := by
  refine ⟨?_, hs.finish_idle hl, ?_⟩
  · obtain ⟨⟨hcascaded, hm, hs'⟩, himr, himr', hbase, hbase'⟩ := h
    rw [hs.finish_eq hl]
    exact ⟨⟨hcascaded, hm, hs'⟩, himr, himr', hbase, hbase'⟩
  · rw [hs.finish_eq hl]
    rfl

end Pics

/-! ## Events -/

section Events

variable {handlers : LONG → Option Isr} {gap : ℕ} {t : Tables} {code : ℕ → Option Stub}
  {addr : Stub → LONG} {s : Irqs} {l : ℕ}

/-- The stubs of the vectors are found at the addresses the tables have for them. -/
def Placed (addr : Stub → LONG) (code : ℕ → Option Stub) : Prop :=
  ∀ v stub, stubAt v = some stub → code (addr stub).toNat = some stub

/-- The handlers of devices write to their own parameters and below only. -/
def IrqsOwnArea (handlers : LONG → Option Isr) : Prop :=
  ∀ l ∈ Pair.order, ∀ handler, handlers (UInt32.ofNat (32 + l)) = some handler → OwnArea handler

/-- Between events: the controllers have a line in service iff the processor is in its stub. -/
structure Irqs.Inv (s : Irqs) : Prop where
  ready : PicsReady s.pics
  idle : s.serving = none → s.pics.Idle
  serves : ∀ stub, s.serving = some stub → ∃ l ∈ Pair.order, stub = .irq l ∧ s.pics.Serves l

lemma lt_of_mem_order (hl : l ∈ Pair.order) : l < 16 ∧ l ≠ 2 := by
  simp only [Pair.order, List.mem_cons, List.not_mem_nil, or_false] at hl
  omega

lemma order_nodup : Pair.order.Nodup := by decide

/-- A device raises its line. -/
lemma Irqs.Inv.raise (h : s.Inv) (l : ℕ) : (s.step handlers gap t code (.raise l)).Inv := by
  obtain ⟨hm, hs⟩ := s.pics.raise_isr l
  refine ⟨h.ready.raise l, fun hnone => ?_, fun stub hstub => ?_⟩
  · obtain ⟨hm', hs'⟩ := h.idle hnone
    exact ⟨fun i => (congrFun hm i).trans (hm' i), fun i => (congrFun hs i).trans (hs' i)⟩
  · obtain ⟨l', hl', hirq, hm', hs'⟩ := h.serves stub hstub
    exact ⟨l', hl', hirq, fun i => (congrFun hm i).trans (hm' i),
      fun i => (congrFun hs i).trans (hs' i)⟩

/-- **The processor acknowledges a request**: that of the first line that waits. -/
lemma Irqs.Inv.enter_eq (h : s.Inv) (hlead : VectorsLead addr t) (hcode : Placed addr code) :
    s.step handlers gap t code .enter =
      if s.Ready then
        match s.waiting.head? with
        | none => s
        | some l => { s with pics := s.pics.serve l, serving := some (.irq l) }
      else s := by
  show (if s.Ready then _ else s) = _
  by_cases hready : s.Ready
  · have hfind : Pair.order.find? s.pics.pendingLine = s.waiting.head? := by
      rw [Irqs.waiting, List.head?_filter]
      exact congrArg (Pair.order.find? ·) (funext h.ready.pendingLine_eq)
    rw [if_pos hready, if_pos hready, Pair.acknowledge_of_idle (h.idle hready.1) h.ready.wired,
      hfind]
    cases hw : s.waiting.head? with
    | none => rfl
    | some l =>
      have hl : l ∈ Pair.order := List.mem_of_mem_filter (List.mem_of_head? hw)
      obtain ⟨hv, hstub⟩ := h.ready.stubAt_vector hl
      dsimp only [Option.map_some]
      rw [hlead _ hv, hstub, Option.map_some, Option.bind_some, hcode _ _ hstub]
  · rw [if_neg hready, if_neg hready]

/-- **The handler returns.** -/
lemma Irqs.Inv.leave_eq (h : s.Inv) (hl : s.serving = some (.irq l)) (hown : IrqsOwnArea handlers)
    (gap : ℕ) (t : Tables) (code : ℕ → Option Stub) :
    s.step handlers gap t code .leave = s ∨
    ∃ m, KeepsFrom s.machine.sp s.machine m ∧
      s.step handlers gap t code .leave =
        { pics := s.pics.finish l, serving := none, context := s.context.oneSegment,
          machine := m } := by
  obtain ⟨l', hmem, hirq, hserves⟩ := h.serves _ hl
  obtain rfl := Stub.irq.inj hirq
  have hstep : s.step handlers gap t code .leave =
      match interrupt handlers gap (.irq l) none s.context s.machine with
      | none => s
      | some ((x, m), outs) =>
        { pics := outs.foldl picOutb s.pics, serving := none, context := x, machine := m } := by
    simp only [Irqs.step, hl]
  rw [hstep]
  cases hrun : interrupt handlers gap (.irq l) none s.context s.machine with
  | none => exact .inl rfl
  | some r =>
    obtain ⟨⟨x, m⟩, outs⟩ := r
    have hown' : ∀ handler, handlers (UInt32.ofNat (Stub.irq l).intNo) = some handler →
        OwnArea handler := hown l hmem
    obtain ⟨-, -, hback⟩ := interrupt_spec hown' hrun
    obtain ⟨rfl, hkeep⟩ := hback rfl
    refine .inr ⟨m, hkeep, ?_⟩
    dsimp only
    rw [interrupt_irq_outs hown' hrun, foldl_picOutb_eoi s.pics (lt_of_mem_order hmem).1]

/-- Every event keeps the processor and the controllers together. -/
lemma Irqs.Inv.step (h : s.Inv) (hlead : VectorsLead addr t) (hcode : Placed addr code)
    (hown : IrqsOwnArea handlers) (op : IrqEvent) : (s.step handlers gap t code op).Inv := by
  cases op with
  | raise l => exact h.raise l
  | program x m =>
    show (if s.serving = none then { s with context := x, machine := m } else s : Irqs).Inv
    split_ifs
    · exact ⟨h.ready, h.idle, h.serves⟩
    · exact h
  | enter =>
    rw [h.enter_eq hlead hcode]
    split_ifs with hready
    · cases hw : s.waiting.head? with
      | none => exact h
      | some l =>
        have hl : l ∈ Pair.order := List.mem_of_mem_filter (List.mem_of_head? hw)
        refine ⟨h.ready.serve l, fun hnone => (Option.some_ne_none _ hnone).elim, ?_⟩
        rintro stub ⟨⟩
        exact ⟨l, hl, rfl, Pair.serves_serve (h.idle hready.1) h.ready.wired l⟩
    · exact h
  | leave =>
    cases hs : s.serving with
    | none =>
      have hsame : s.step handlers gap t code .leave = s := by simp only [Irqs.step, hs]
      rw [hsame]
      exact h
    | some stub =>
      obtain ⟨l, hl, rfl, hserves⟩ := h.serves _ hs
      obtain hsame | ⟨m, -, heq⟩ := h.leave_eq hs hown gap t code
      · rw [hsame]
        exact h
      · rw [heq]
        obtain ⟨hready, hidle, -⟩ := h.ready.finish hserves (lt_of_mem_order hl).1
        exact ⟨hready, fun _ => hidle, fun _ hsome => (Option.some_ne_none _ hsome.symm).elim⟩

/-- The right thing happens in every event. -/
lemma Irqs.Inv.delivers (h : s.Inv) (hlead : VectorsLead addr t) (hcode : Placed addr code)
    (hown : IrqsOwnArea handlers) (op : IrqEvent) : s.Delivers handlers gap t code op := by
  cases op with
  | raise l => trivial
  | program x m => trivial
  | enter =>
    intro hready
    rw [h.enter_eq hlead hcode, if_pos hready]
    cases hw : s.waiting.head? with
    | none => exact hready.1
    | some l => rfl
  | leave =>
    intro stub hs
    obtain ⟨l, hl, rfl, hserves⟩ := h.serves _ hs
    have hnum : (Stub.irq l).intNo < 256 := by
      have hlt : 32 + l < 256 := by
        have := (lt_of_mem_order hl).1
        omega
      exact hlt
    refine ⟨?_, fun hnone => ?_⟩
    · rw [← interrupt_isSome_iff hnum]
      simp only [Irqs.step, hs]
      cases interrupt handlers gap (.irq l) none s.context s.machine with
      | none => simp [hs]
      | some r => simp
    · obtain hsame | ⟨m, hkeep, heq⟩ := h.leave_eq hs hown gap t code
      · rw [hsame, hs] at hnone
        exact (Option.some_ne_none _ hnone).elim
      · rw [heq]
        exact ⟨rfl, hkeep⟩

/-- A line is first in a list or not in what is left without it. -/
lemma coe_filter_eq_cons {L : List ℕ} (hL : L.Nodup) {p q : ℕ → Bool} (hl : l ∈ L)
    (hp : p l = true) (hq : ∀ k, q k = (p k && !decide (k = l))) :
    (L.filter p : Multiset ℕ) = l ::ₘ (L.filter q : Multiset ℕ) := by
  have herase : (L.filter p).erase l = L.filter q := by
    rw [(hL.filter p).erase_eq_filter, List.filter_filter]
    refine List.filter_congr fun k _ => ?_
    rw [hq, Bool.and_comm]
    rfl
  rw [← herase, ← Multiset.coe_erase,
    Multiset.cons_erase (List.mem_filter.mpr ⟨hl, hp⟩ : l ∈ L.filter p)]

/-- What waits, is handled and was handled, over one event. -/
lemma Irqs.Inv.balance (h : s.Inv) (hlead : VectorsLead addr t) (hcode : Placed addr code)
    (hown : IrqsOwnArea handlers) {op : IrqEvent} (hop : ∀ l, op = .raise l → l ∈ Pair.order) :
    ((s.step handlers gap t code op).content + (s.handled handlers gap t code op : Multiset ℕ)) =
      s.content + (s.arrived op : Multiset ℕ) := by
  cases op with
  | raise l =>
    have hl := hop l rfl
    have hafter : ∀ k, (s.pics.raise l).latched k = (s.pics.latched k || decide (k = l)) :=
      s.pics.latched_raise l
    simp only [Irqs.arrived, Irqs.handled]
    show (Pair.order.filter (s.pics.raise l).latched : Multiset ℕ) + s.inService + ([] : List ℕ) =
      (Pair.order.filter s.pics.latched : Multiset ℕ) + s.inService + _
    cases hp : s.pics.latched l with
    | true =>
      have hsame : (s.pics.raise l).latched = s.pics.latched := by
        funext k
        rw [hafter]
        by_cases hk : k = l
        · rw [hk, hp, Bool.true_or]
        · rw [decide_eq_false hk, Bool.or_false]
      rw [hsame, if_pos rfl]
    | false =>
      have hq : ∀ k, s.pics.latched k = ((s.pics.raise l).latched k && !decide (k = l)) := by
        intro k
        rw [hafter]
        by_cases hk : k = l
        · rw [hk, hp, decide_eq_true rfl, Bool.not_true, Bool.and_false]
        · rw [decide_eq_false hk, Bool.or_false, Bool.not_false, Bool.and_true]
      rw [coe_filter_eq_cons order_nodup hl (by rw [hafter, decide_eq_true rfl, Bool.or_true]) hq,
        if_neg Bool.false_ne_true, ← Multiset.singleton_add, Multiset.coe_nil, add_zero,
        Multiset.coe_singleton, add_assoc, add_comm]
  | program x m =>
    have hsame : (s.step handlers gap t code (.program x m)).content = s.content := by
      show (if s.serving = none then { s with context := x, machine := m } else s : Irqs).content =
        _
      split_ifs <;> rfl
    rw [hsame]
    rfl
  | enter =>
    rw [h.enter_eq hlead hcode]
    simp only [Irqs.arrived, Irqs.handled, Multiset.coe_nil, add_zero]
    split_ifs with hready
    · cases hw : s.waiting.head? with
      | none => rfl
      | some l =>
        have hmem := List.mem_of_head? hw
        have hl : l ∈ Pair.order := List.mem_of_mem_filter hmem
        have hne : ∀ k ∈ Pair.order, (s.pics.serve l).latched k =
            (s.pics.latched k && !decide (k = l)) :=
          fun k hk => s.pics.latched_serve (lt_of_mem_order hk).2
        have hnone : s.inService = [] := by rw [Irqs.inService, hready.1]
        have hfilter : Pair.order.filter (s.pics.serve l).latched =
            Pair.order.filter fun k => s.pics.latched k && !decide (k = l) :=
          List.filter_congr hne
        show (Pair.order.filter (s.pics.serve l).latched : Multiset ℕ) + ([l] : List ℕ) =
          (Pair.order.filter s.pics.latched : Multiset ℕ) + s.inService
        rw [hfilter, hnone, coe_filter_eq_cons order_nodup hl (List.of_mem_filter hmem)
          (fun _ => rfl), Multiset.coe_nil, add_zero, Multiset.coe_singleton, add_comm,
          Multiset.singleton_add]
    · rfl
  | leave =>
    simp only [Irqs.arrived, Irqs.handled, Multiset.coe_nil, add_zero]
    cases hs : s.serving with
    | none =>
      have hsame : s.step handlers gap t code .leave = s := by simp only [Irqs.step, hs]
      rw [hsame, if_pos hs, Irqs.inService, hs, Multiset.coe_nil, add_zero]
    | some stub =>
      obtain ⟨l, hl, rfl, hserves⟩ := h.serves _ hs
      have hmine : s.inService = [l] := by rw [Irqs.inService, hs]
      obtain hsame | ⟨m, -, heq⟩ := h.leave_eq hs hown gap t code
      · rw [hsame, if_neg (by rw [hs]; exact Option.some_ne_none _), Multiset.coe_nil, add_zero]
      · obtain ⟨-, -, hlatched⟩ := h.ready.finish hserves (lt_of_mem_order hl).1
        rw [heq, if_pos rfl]
        show (Pair.order.filter (s.pics.finish l).latched : Multiset ℕ) + ([] : List ℕ) +
          s.inService = (Pair.order.filter s.pics.latched : Multiset ℕ) + s.inService
        rw [hlatched, Multiset.coe_nil, add_zero]

/-- An edge on a line makes a request or is lost. -/
lemma Irqs.coe_raised (s : Irqs) {op : IrqEvent} (hop : ∀ l, op = .raise l → l ∈ Pair.order) :
    (s.raised op : Multiset ℕ) = s.arrived op + (s.dropped op : Multiset ℕ) := by
  cases op with
  | raise l =>
    have hwaits : l ∈ s.waiting ↔ s.pics.latched l = true := by
      rw [Irqs.waiting, List.mem_filter, and_iff_right (hop l rfl)]
    simp only [Irqs.raised, Irqs.arrived, Irqs.dropped, hwaits]
    split_ifs
    · rfl
    · rfl
  | program x m => rfl
  | enter => rfl
  | leave => rfl

/-- At the start nothing waits and no handler runs. -/
lemma irqs_start {p : Pair} (hready : PicsReady p) (hidle : p.Idle)
    (hlatched : ∀ l, p.latched l = false) (x : Context) (m : Machine) :
    (⟨p, none, x, m⟩ : Irqs).Inv ∧ (⟨p, none, x, m⟩ : Irqs).content = 0 := by
  refine ⟨⟨hready, fun _ => hidle, fun _ hsome => (Option.some_ne_none _ hsome.symm).elim⟩, ?_⟩
  have hfilter : Pair.order.filter p.latched = [] :=
    List.filter_eq_nil_iff.mpr fun l _ => by rw [hlatched l]; exact Bool.false_ne_true
  show (Pair.order.filter p.latched : Multiset ℕ) + ([] : List ℕ) = 0
  rw [hfilter]
  rfl

end Events

/-- **Requests of devices are delivered.** Let the controllers and the memory of the tables be in
any state before `int_setup`, let the stubs be where the linker put them, and let the handlers write
to their own parameters and below only. In every run of devices that raise lines, programs that run,
acknowledgements and handlers that return or not, the processor goes from a program to the stub of
the waiting line that has priority, whenever it acknowledges a request, and comes back iff the
handler returns, to everything as it was but `es`, `fs` and `gs`, which are `ds`. The edges made are
at every moment those that were handled, those that wait, the one in service, and those lost because
the line was raised while its request waited.

**Proof sketch.** The invariant is that the controllers have a line in service iff the processor is
in its stub, and no other. The end of interrupt that `irq_handler` sends is then the end of that
line, at both controllers if it is one of the slave. -/
theorem irq_delivery {handlers : LONG → Option Isr} {addr : Stub → LONG} {code : ℕ → Option Stub}
    (hcode : Placed addr code) (hown : IrqsOwnArea handlers) (gap : ℕ) (gdtAddr idtAddr : LONG)
    (before : Tables) (p : Pair) (x : Context) (m : Machine) {ops : List IrqEvent}
    (hops : ∀ l, .raise l ∈ ops → l ∈ Pair.order) :
    let t := intSetup gdtAddr idtAddr addr before
    let start : Irqs := ⟨t.outs.foldl picOutb p, none, x, m⟩
    let step := Irqs.step handlers gap t code
    Run.Along step (Irqs.Delivers handlers gap t code) start ops ∧
    (Run.run step start ops).content +
        (Run.emits step (Irqs.handled handlers gap t code) start ops : Multiset ℕ) +
        (Run.emits step Irqs.dropped start ops : Multiset ℕ) =
      (Run.emits step Irqs.raised start ops : Multiset ℕ) := by
  intro t start step
  have hlead : VectorsLead addr t := vectorsLead_intSetup gdtAddr idtAddr addr before
  obtain ⟨hready, hidle, hlatched⟩ := picsReady_intSetup gdtAddr idtAddr addr before p
  obtain ⟨hstart, hempty⟩ := irqs_start hready hidle hlatched x m
  have hops' : Run.Along step (fun _ op => ∀ l, op = .raise l → l ∈ Pair.order) start ops :=
    Run.along_iff_forall_mem.mpr fun op hop l hraise => hops l (hraise ▸ hop)
  refine ⟨Run.along_of_invariant_of_forall (fun s op hs => hs.step hlead hcode hown op)
    (fun s op hs => hs.delivers hlead hcode hown op) hstart ops, ?_⟩
  have hbalance : ∀ s op, Irqs.Inv s → (∀ l, op = .raise l → l ∈ Pair.order) →
      (step s op).content +
          ((Irqs.handled handlers gap t code s op ++ s.dropped op : List ℕ) : Multiset ℕ) =
        s.content + (s.raised op : Multiset ℕ) := by
    intro s op hs hop
    rw [s.coe_raised hop, ← Multiset.coe_add, ← add_assoc, ← add_assoc,
      hs.balance hlead hcode hown hop]
  rw [add_assoc, ← Run.coe_emits_append, Run.balance Irqs.content
    (fun s op hs _ => hs.step hlead hcode hown op) hbalance hstart hops', hempty, zero_add]

/-- Stubs at the addresses that are their numbers. -/
lemma placed_intNo : Placed (fun stub => UInt32.ofNat stub.intNo) stubAt := by
  intro v stub hstub
  have hnum : stub.intNo = v ∧ v < 128 := by
    unfold stubAt at hstub
    split_ifs at hstub with h32 h48 h127
    · obtain rfl := Option.some.inj hstub
      exact ⟨rfl, by omega⟩
    · obtain rfl := Option.some.inj hstub
      exact ⟨by rw [Stub.intNo]; omega, by omega⟩
    · obtain rfl := Option.some.inj hstub
      exact ⟨h127.symm, by omega⟩
  dsimp only
  rw [hnum.1, UInt32.toNat_ofNat', Nat.mod_eq_of_lt (by omega), hstub]

lemma sampleIsr_irqsOwnArea : IrqsOwnArea fun _ => some sampleIsr := by
  intro l _ handler hh
  obtain rfl := Option.some.inj hh
  exact sampleIsr_ownArea

/-- Controllers that nobody has programmed, with requests from before. -/
def samplePics : Pair :=
  let chip : Chip := ⟨fun _ => true, fun _ => false, 0xFF, 0, 0, false, .mask⟩
  ⟨chip, chip⟩

/-- Tables without entries. -/
def sampleTables : Tables := ⟨fun _ => 0, fun _ => 0, (0, 0), (0, 0), [], []⟩

/-- The keyboard and the disk, whose handlers change their own copy of the registers, raise their
lines, and the requests are handled. The disk raises its line twice before its request is taken. -/
theorem irq_delivery_keyboard_disk :
    let addr : Stub → LONG := fun stub => UInt32.ofNat stub.intNo
    let t := intSetup 0x1000 0x2000 addr sampleTables
    let start : Irqs := ⟨t.outs.foldl picOutb samplePics, none, sampleContext, sampleMachine⟩
    let ops : List IrqEvent := [.raise 1, .enter, .raise 14, .raise 14, .leave, .enter, .leave]
    let step := Irqs.step (fun _ => some sampleIsr) 8 t stubAt
    Run.Along step (Irqs.Delivers (fun _ => some sampleIsr) 8 t stubAt) start ops ∧
    (Run.run step start ops).content +
        (Run.emits step (Irqs.handled (fun _ => some sampleIsr) 8 t stubAt) start ops :
          Multiset ℕ) +
        (Run.emits step Irqs.dropped start ops : Multiset ℕ) =
      (Run.emits step Irqs.raised start ops : Multiset ℕ) := by
  intro addr t start ops step
  refine irq_delivery placed_intNo sampleIsr_irqsOwnArea 8 0x1000 0x2000 sampleTables samplePics
    sampleContext sampleMachine fun l hl => ?_
  simp only [ops, List.mem_cons, reduceCtorEq, IrqEvent.raise.injEq, List.not_mem_nil, or_false,
    false_or] at hl
  obtain rfl | rfl | rfl := hl
  · decide
  · decide
  · decide

end Korolev
