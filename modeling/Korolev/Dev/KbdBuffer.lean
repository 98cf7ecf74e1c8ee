import Korolev.Dev.Kbd
import Korolev.Library.Run

set_option relaxedAutoImplicit false
set_option autoImplicit false

/-!
# The buffer of key events

Interrupts store key events in `kbd_stack`, system calls read them from there. The events that
are stored are the entries above `kbd_stack_sp`. A push stores first and moves the pointer down
afterwards, unless it is at entry `0`; a read moves it up first. So at most 511 events are stored,
entry `0` is written by every event that comes in when there are 511, and such an event is lost.

As the name says, `kbd_stack` is a stack: a read returns the event that came in last, not the one
that waits longest.

The bit-fields of an entry leave three bits of its second byte alone. They are `0` at boot and
stay so, which makes an entry a function of the scan code and of the modifiers.

## Main definitions

* `Korolev.kbdArrival` — the event an interrupt stores.
* `Korolev.Kbd.pending` — the stored events, latest first.
* `Korolev.KbdOp`, `Korolev.Kbd.step` — the calls that use the buffer.
* `Korolev.KbdOp.UsesOnly` — a call looks at these entries and leaves the others alone.

## Main results

* `Korolev.Kbd.kbdInterrupt_cases` — everything an interrupt can do.
* `Korolev.Kbd.step_pending` — what a call does to the stored events.
* `Korolev.kbd_conservation` — calls stay inside of the array, and no event is lost but by
  overflow and reset.
* `Korolev.kbd_last_in_first_out` — a read returns the latest event that was not yet read.
-/

namespace Korolev

/-! ## Events -/

/-- The event stored for a key: the fields of a zeroed entry, assigned one after the other. -/
def kbdEvent (k : Kbd) (kc : LONG) (scancode : BYTE) (spec : LONG) : KbdEvent :=
  let e : KbdEvent := ⟨kc.toUInt8, 0⟩
  let e := e.setBit 0 (scancode &&& 0x80)
  let e := e.setBit 1 k.ctrl
  let e := e.setBit 2 k.alt
  let e := e.setBit 3 k.shift
  e.setBit 4 spec.toUInt8

/-- The event `kbd_interrupt` stores; `none` if the controller has no data or the key is a
modifier. -/
def kbdArrival (k : Kbd) (p : KbdPorts) : Option KbdEvent :=
  if p.status &&& 1 = 0 then none
  else
    let spec : LONG := if p.data = 0xE0 then 1 else 0
    let scancode := if spec ≠ 0 then p.data' else p.data
    let kc := scancode.toUInt32 &&& ~~~0x80
    if kc = 0x2a ∨ kc = 0x36 ∨ kc = 0x1d ∨ kc = 0x38 then none
    else some (kbdEvent k kc scancode spec)

/-- The bits of an entry that belong to no field are `0`. -/
def KbdEvent.Clean (e : KbdEvent) : Prop := ∀ j < 8, 5 ≤ j → e.testBit j = false

/-- Two entries agree on the key code, on the first `n` fields and on the bits behind the
fields. -/
structure KbdEvent.Agree (n : ℕ) (e e' : KbdEvent) : Prop where
  keycode : e.keycode = e'.keycode
  bits : ∀ j < 8, j < n ∨ 5 ≤ j → e.testBit j = e'.testBit j

/-- Assigning the next field extends the agreement. -/
lemma KbdEvent.Agree.setBit {e e' : KbdEvent} {i : BYTE} (h : e.Agree i.toNat e')
    (hi : i.toNat < 8) (v : BYTE) : (e.setBit i v).Agree (i.toNat + 1) (e'.setBit i v) := by
  refine ⟨h.keycode, fun j hj hin => ?_⟩
  rw [testBit_setBit e hi v hj, testBit_setBit e' hi v hj]
  by_cases heq : j = i.toNat
  · rw [if_pos heq, if_pos heq]
  · rw [if_neg heq, if_neg heq, h.bits j hj (by omega)]

/-- The assignments of `kbd_interrupt` make a clean entry the event. -/
lemma kbdPush_stack {k : Kbd} (h : (k.stack k.sp).Clean) (kc : LONG) (scancode : BYTE)
    (spec : LONG) : (kbdPush k kc scancode spec).stack =
      Function.update k.stack k.sp (kbdEvent k kc scancode spec) := by
  have h0 : ({ k.stack k.sp with keycode := kc.toUInt8 } : KbdEvent).Agree 0 ⟨kc.toUInt8, 0⟩ := by
    refine ⟨rfl, fun j hj hin => ?_⟩
    have hold : (k.stack k.sp).testBit j = false := h j hj (by omega)
    have hzero : (⟨kc.toUInt8, 0⟩ : KbdEvent).testBit j = false := BitVec.getLsbD_zero
    exact hold.trans hzero.symm
  have h1 := h0.setBit (i := 0) (by decide) (scancode &&& 0x80)
  have h2 := h1.setBit (i := 1) (by decide) k.ctrl
  have h3 := h2.setBit (i := 2) (by decide) k.alt
  have h4 := h3.setBit (i := 3) (by decide) k.shift
  have h5 := h4.setBit (i := 4) (by decide) spec.toUInt8
  have hall : ∀ j : ℕ, j < (4 : BYTE).toNat + 1 ∨ 5 ≤ j := fun j => lt_or_ge j 5
  have heq := KbdEvent.ext_testBit h5.keycode fun j hj => h5.bits j hj (hall j)
  exact congrArg (Function.update k.stack k.sp) heq

/-- Assigning a field leaves an entry clean. -/
lemma KbdEvent.Clean.setBit {e : KbdEvent} (h : e.Clean) {i : BYTE} (hi : i.toNat < 5) (v : BYTE) :
    (e.setBit i v).Clean := by
  intro j hj h5
  rw [testBit_setBit e (by omega) v hj, if_neg (by omega), h j hj h5]

/-- Events are clean. -/
lemma kbdEvent_clean (k : Kbd) (kc : LONG) (scancode : BYTE) (spec : LONG) :
    (kbdEvent k kc scancode spec).Clean := by
  have h0 : (⟨kc.toUInt8, 0⟩ : KbdEvent).Clean := fun j _ _ => BitVec.getLsbD_zero
  have h1 := h0.setBit (i := 0) (by decide) (scancode &&& 0x80)
  have h2 := h1.setBit (i := 1) (by decide) k.ctrl
  have h3 := h2.setBit (i := 2) (by decide) k.alt
  have h4 := h3.setBit (i := 3) (by decide) k.shift
  exact h4.setBit (i := 4) (by decide) spec.toUInt8

/-! ## Calls -/

/-- A call that uses the buffer. -/
inductive KbdOp where
  | interrupt (p : KbdPorts)
  | pop
  | reset

/-- The globals after a call. -/
def Kbd.step (k : Kbd) : KbdOp → Kbd
  | .interrupt p => kbdInterrupt k p
  | .pop => (kbdPop k).2
  | .reset => kbdReset k

/-- Events are read only if `kbd_avail()` says so. -/
def KbdOp.Valid (k : Kbd) : KbdOp → Prop
  | .pop => kbdAvail k ≠ 0
  | _ => True

/-- The stored events, latest first: the entries above `kbd_stack_sp`. -/
def Kbd.pending (k : Kbd) : List KbdEvent :=
  (List.range (511 - k.sp)).map fun i => k.stack (k.sp + 1 + i)

/-- The entries of `kbd_stack` a call reads or writes. -/
def KbdOp.accesses (k : Kbd) : KbdOp → List ℕ
  | .interrupt p => if (kbdArrival k p).isSome then [k.sp] else []
  | .pop => [k.sp + 1]
  | .reset => []

/-- The event a call returns. -/
def KbdOp.popped (k : Kbd) : KbdOp → List KbdEvent
  | .pop => [(kbdPop k).1]
  | _ => []

/-- The call uses no entries of `kbd_stack` but those of `l`: whatever the others hold, it returns
the same event, does the same to the globals and to the entries of `l`, and leaves the others
alone. -/
def KbdOp.UsesOnly (k : Kbd) (op : KbdOp) (l : List ℕ) : Prop :=
  ∀ stack : ℕ → KbdEvent, (∀ i ∈ l, stack i = k.stack i) →
    op.popped { k with stack := stack } = op.popped k ∧
    Kbd.step { k with stack := stack } op =
      { k.step op with stack := fun i => if i ∈ l then (k.step op).stack i else stack i }

/-- The event a call brings in. -/
def KbdOp.arrived (k : Kbd) : KbdOp → List KbdEvent
  | .interrupt p => (kbdArrival k p).toList
  | _ => []

/-- The event a call brings in while 511 events are stored. -/
def KbdOp.overflowed (k : Kbd) : KbdOp → List KbdEvent
  | .interrupt p => if k.pending.length = 511 then (kbdArrival k p).toList else []
  | _ => []

/-- The events a reset discards. -/
def KbdOp.discarded (k : Kbd) : KbdOp → List KbdEvent
  | .reset => k.pending
  | _ => []

/-! ## What a call does to the stored events -/

/-- The pointer is in the array, and all entries are clean. -/
structure Kbd.Inv (k : Kbd) : Prop where
  sp_le : k.sp ≤ 511
  clean : ∀ i, (k.stack i).Clean

/-- The stored events after a call: an event is put on top unless 511 are stored. -/
def pendingStep (k : Kbd) (l : List KbdEvent) : KbdOp → List KbdEvent
  | .interrupt p =>
    match kbdArrival k p with
    | some e => if l.length = 511 then l else e :: l
    | none => l
  | .pop => l.tail
  | .reset => []

namespace Kbd

variable {k : Kbd}

lemma length_pending (k : Kbd) : k.pending.length = 511 - k.sp := by
  simp [pending]

/-- When `kbd_avail()` says so, an event is stored. -/
lemma Inv.sp_lt (h : k.Inv) (hop : KbdOp.pop.Valid k) : k.sp < 511 :=
  lt_of_le_of_ne h.sp_le ((kbdAvail_ne_zero k).mp hop)

/-- Everything an interrupt can do, which is up to the ports alone: set a modifier or nothing at
all, or store an event. -/
lemma kbdInterrupt_cases (p : KbdPorts) :
    (∀ k, kbdArrival k p = none ∧ (kbdInterrupt k p).stack = k.stack ∧
      (kbdInterrupt k p).sp = k.sp ∧ ∀ stack,
        kbdInterrupt { k with stack := stack } p = { kbdInterrupt k p with stack := stack }) ∨
    ∃ kc scancode spec, ∀ k, kbdArrival k p = some (kbdEvent k kc scancode spec) ∧
      kbdInterrupt k p = kbdPush k kc scancode spec := by
  unfold kbdArrival kbdInterrupt
  dsimp only
  by_cases hdata : p.status &&& 1 = 0
  · exact .inl fun k => by simp [hdata]
  simp only [if_neg hdata]
  generalize (if p.data = 0xE0 then 1 else 0 : LONG) = spec
  generalize (if spec ≠ 0 then p.data' else p.data) = scancode
  generalize scancode.toUInt32 &&& ~~~0x80 = kc
  by_cases hshift : kc = 0x2a ∨ kc = 0x36
  · refine .inl fun k => ⟨if_pos (by tauto), ?_⟩
    simp [hshift]
  by_cases hctrl : kc = 0x1d
  · refine .inl fun k => ⟨if_pos (by tauto), ?_⟩
    simp [hctrl]
  by_cases halt : kc = 0x38
  · refine .inl fun k => ⟨if_pos (by tauto), ?_⟩
    simp [halt]
  · refine .inr ⟨kc, scancode, spec, fun k => ⟨if_neg (by tauto), ?_⟩⟩
    rw [if_neg hshift, if_neg hctrl, if_neg halt]

/-- What an interrupt does to the entries and to the pointer, with the event it stores. -/
lemma interrupt_cases (h : k.Inv) (p : KbdPorts) :
    (kbdArrival k p = none ∧ (kbdInterrupt k p).stack = k.stack ∧
      (kbdInterrupt k p).sp = k.sp) ∨
    ∃ e, kbdArrival k p = some e ∧ e.Clean ∧
      (kbdInterrupt k p).stack = Function.update k.stack k.sp e ∧
      (kbdInterrupt k p).sp = if k.sp ≠ 0 then k.sp - 1 else k.sp := by
  rcases kbdInterrupt_cases p with hnone | ⟨kc, scancode, spec, hpush⟩
  · obtain ⟨harrival, hstack, hsp, -⟩ := hnone k
    exact .inl ⟨harrival, hstack, hsp⟩
  · obtain ⟨harrival, heq⟩ := hpush k
    refine .inr ⟨_, harrival, kbdEvent_clean _ _ _ _, ?_, ?_⟩
    · rw [heq, kbdPush_stack (h.clean k.sp)]
    · rw [heq]
      rfl

/-- Calls keep the pointer in the array and the entries clean. -/
lemma Inv.step (h : k.Inv) {op : KbdOp} (hop : op.Valid k) : (k.step op).Inv := by
  cases op with
  | interrupt p =>
    rcases interrupt_cases h p with ⟨-, hstack, hsp⟩ | ⟨e, -, hclean, hstack, hsp⟩
    · refine ⟨?_, ?_⟩
      · rw [Kbd.step, hsp]
        exact h.sp_le
      · rw [Kbd.step, hstack]
        exact h.clean
    · refine ⟨?_, fun i => ?_⟩
      · have hle := h.sp_le
        rw [Kbd.step, hsp]
        split_ifs
        · omega
        · exact hle
      · rw [Kbd.step, hstack]
        by_cases hi : i = k.sp
        · rw [hi, Function.update_self]
          exact hclean
        · rw [Function.update_of_ne hi]
          exact h.clean i
  | pop => exact ⟨h.sp_lt hop, h.clean⟩
  | reset => exact ⟨le_rfl, h.clean⟩

/-- The stored events are those of the entries from the pointer on. -/
lemma pending_of_sp_lt (h : k.sp < 511) :
    k.pending = k.stack (k.sp + 1) :: ({ k with sp := k.sp + 1 } : Kbd).pending := by
  have hlen : 511 - k.sp = 511 - (k.sp + 1) + 1 := by omega
  simp only [pending, hlen, List.range_succ_eq_map, List.map_cons, List.map_map]
  congr 1
  refine List.map_congr_left fun i _ => ?_
  show k.stack (k.sp + 1 + (i + 1)) = k.stack (k.sp + 1 + 1 + i)
  congr 1
  omega

/-- An event stored below the others is on top of them. -/
lemma pending_push {k' : Kbd} {e : KbdEvent} (hsp : k.sp ≤ 511)
    (hstack : k'.stack = Function.update k.stack k.sp e)
    (hsp' : k'.sp = if k.sp ≠ 0 then k.sp - 1 else k.sp) :
    k'.pending = if k.pending.length = 511 then k.pending else e :: k.pending := by
  have hold : ∀ i, k.sp < i → k'.stack i = k.stack i := fun i hi => by
    rw [hstack, Function.update_of_ne (by omega)]
  by_cases h0 : k.sp = 0
  · rw [length_pending, if_pos (by omega)]
    rw [if_neg (not_not.mpr h0)] at hsp'
    simp only [pending, hsp']
    exact List.map_congr_left fun i _ => hold _ (by omega)
  · rw [length_pending, if_neg (by omega)]
    rw [if_pos h0] at hsp'
    rw [pending_of_sp_lt (by omega), hsp', Nat.sub_add_cancel (by omega), hstack,
      Function.update_self]
    refine congrArg (e :: ·) (List.map_congr_left fun i _ => ?_)
    have hlt : k.sp < k.sp + 1 + i := by omega
    rw [← hstack]
    exact hold _ hlt

/-- **What a call does to the stored events.** -/
lemma step_pending (h : k.Inv) {op : KbdOp} (hop : op.Valid k) :
    (k.step op).pending = pendingStep k k.pending op := by
  cases op with
  | interrupt p =>
    rw [pendingStep, Kbd.step]
    rcases interrupt_cases h p with ⟨hnone, hstack, hsp⟩ | ⟨e, hsome, -, hstack, hsp⟩
    · rw [hnone]
      simp only [pending, hstack, hsp]
    · rw [hsome]
      exact pending_push h.sp_le hstack hsp
  | pop =>
    rw [pendingStep, pending_of_sp_lt (h.sp_lt hop), List.tail_cons]
    rfl
  | reset => rfl

/-- A read returns the latest of the stored events. -/
lemma head_pending (h : k.Inv) (hop : KbdOp.pop.Valid k) :
    k.pending.head? = some (kbdPop k).1 := by
  rw [pending_of_sp_lt (h.sp_lt hop), List.head?_cons]
  rfl

/-- In one call, what was stored and came in is stored, returned or lost. -/
lemma step_balance (h : k.Inv) {op : KbdOp} (hop : op.Valid k) :
    ((k.step op).pending : Multiset KbdEvent) +
        (op.popped k ++ (op.overflowed k ++ op.discarded k) : List KbdEvent) =
      (k.pending : Multiset KbdEvent) + (op.arrived k : Multiset KbdEvent) := by
  rw [step_pending h hop]
  cases op with
  | interrupt p =>
    simp only [pendingStep, KbdOp.popped, KbdOp.overflowed, KbdOp.discarded, KbdOp.arrived,
      List.nil_append, List.append_nil]
    cases kbdArrival k p with
    | none => simp
    | some e =>
      by_cases hfull : k.pending.length = 511
      · simp [hfull]
      · simp only [if_neg hfull, Multiset.coe_nil, add_zero, Option.toList_some]
        rw [← Multiset.cons_coe, ← Multiset.singleton_add, add_comm]
        rfl
  | pop =>
    have hhead := head_pending h hop
    simp only [pendingStep, KbdOp.popped, KbdOp.overflowed, KbdOp.discarded, KbdOp.arrived,
      List.append_nil, Multiset.coe_nil, add_zero]
    obtain ⟨l, hl⟩ := List.head?_eq_some_iff.mp hhead
    rw [hl, List.tail_cons, ← Multiset.cons_coe, ← Multiset.singleton_add, add_comm]
    rfl
  | reset => simp [pendingStep, KbdOp.popped, KbdOp.overflowed, KbdOp.discarded, KbdOp.arrived]

/-- The invariant holds at boot. -/
lemma inv_boot : Kbd.boot.Inv := ⟨le_rfl, fun _ _ _ _ => BitVec.getLsbD_zero⟩

/-- Entries that hold what they did before are put back. -/
lemma ite_mem_eq {l : List ℕ} {stack old : ℕ → KbdEvent} (hsame : ∀ i ∈ l, stack i = old i) :
    (fun i => if i ∈ l then old i else stack i) = stack := by
  funext i
  split_ifs with hi
  · exact (hsame i hi).symm
  · rfl

/-- Storing an event uses the entry at the pointer only. -/
lemma kbdPush_withStack {stack : ℕ → KbdEvent} (hsp : stack k.sp = k.stack k.sp) (kc : LONG)
    (scancode : BYTE) (spec : LONG) :
    kbdPush { k with stack := stack } kc scancode spec =
      { kbdPush k kc scancode spec with
        stack := fun i => if i = k.sp then (kbdPush k kc scancode spec).stack i else stack i } := by
  simp only [kbdPush, hsp]
  congr 1
  funext i
  by_cases hi : i = k.sp
  · rw [if_pos hi, hi, Function.update_self, Function.update_self]
  · rw [if_neg hi, Function.update_of_ne hi]

/-- A call uses no entries but those it accesses. -/
lemma usesOnly_accesses (k : Kbd) (op : KbdOp) : op.UsesOnly k (op.accesses k) := by
  cases op with
  | interrupt p =>
    intro stack hsame
    refine ⟨rfl, ?_⟩
    rw [step, step]
    rcases kbdInterrupt_cases p with hnone | ⟨kc, scancode, spec, hpush⟩
    · obtain ⟨harrival, -, -, heq⟩ := hnone k
      simp [KbdOp.accesses, harrival, heq stack]
    · obtain ⟨harrival, heq⟩ := hpush k
      rw [KbdOp.accesses, harrival, Option.isSome_some, if_pos rfl] at hsame ⊢
      have hsp : stack k.sp = k.stack k.sp := hsame k.sp (List.mem_singleton.mpr rfl)
      simp only [(hpush _).2, kbdPush_withStack hsp, List.mem_singleton]
  | pop =>
    intro stack hsame
    have hsp : stack (k.sp + 1) = k.stack (k.sp + 1) := hsame _ (List.mem_singleton.mpr rfl)
    refine ⟨congrArg (fun e => [e]) hsp, ?_⟩
    simp only [step, kbdPop, ite_mem_eq hsame]
  | reset =>
    intro stack hsame
    exact ⟨rfl, by simp only [step, kbdReset, ite_mem_eq hsame]⟩

/-- A call stays inside of `kbd_stack`. -/
lemma accesses_lt (h : k.Inv) {op : KbdOp} (hop : op.Valid k) : ∀ i ∈ op.accesses k, i < 512 := by
  have hle := h.sp_le
  cases op with
  | interrupt p =>
    intro i hi
    rw [KbdOp.accesses] at hi
    split_ifs at hi
    · simp only [List.mem_singleton] at hi
      omega
    · simp at hi
  | pop =>
    have hlt := h.sp_lt hop
    simp only [KbdOp.accesses, List.mem_singleton, forall_eq]
    omega
  | reset => simp [KbdOp.accesses]

/-- An interrupt leaves the stored entries as they are. -/
lemma interrupt_stack (h : k.Inv) (p : KbdPorts) {i : ℕ} (hi : k.sp < i) :
    (kbdInterrupt k p).stack i = k.stack i := by
  rcases interrupt_cases h p with ⟨-, hstack, -⟩ | ⟨e, -, -, hstack, -⟩
  · rw [hstack]
  · rw [hstack, Function.update_of_ne (by omega)]

end Kbd

/-! ## Conservation -/

/-- **No event is lost but by overflow and reset.** For every sequence of interrupts, guarded
reads and resets from boot: the pointer is always in the array, a call uses no entries but those it
accesses, which are in the array too, and an interrupt leaves the stored events as they are; and the
events read so far, those still stored, those that came in while 511 were stored and those discarded
by a reset are together the events that came in. -/
theorem kbd_conservation (ops : List KbdOp)
    (hops : Run.Along Kbd.step (fun k op => op.Valid k) Kbd.boot ops) :
    Run.Along Kbd.step (fun k op => k.sp < 512 ∧ op.UsesOnly k (op.accesses k) ∧
      (∀ i ∈ op.accesses k, i < 512) ∧
      ∀ p, op = .interrupt p → ∀ i, k.sp < i → (k.step op).stack i = k.stack i) Kbd.boot ops ∧
    (Run.run Kbd.step Kbd.boot ops).sp < 512 ∧
    (Run.emits Kbd.step (fun k op => op.popped k) Kbd.boot ops : Multiset KbdEvent) +
        ((Run.run Kbd.step Kbd.boot ops).pending : Multiset KbdEvent) +
        ((Run.emits Kbd.step (fun k op => op.overflowed k) Kbd.boot ops : Multiset KbdEvent) +
          (Run.emits Kbd.step (fun k op => op.discarded k) Kbd.boot ops : Multiset KbdEvent)) =
      (Run.emits Kbd.step (fun k op => op.arrived k) Kbd.boot ops : Multiset KbdEvent) := by
  have hstep : ∀ (k : Kbd) (op : KbdOp), k.Inv → op.Valid k → (k.step op).Inv :=
    fun _ _ h hop => h.step hop
  refine ⟨?_, ?_, ?_⟩
  · refine Run.along_of_invariant hstep (fun k op h hop => ?_) Kbd.inv_boot hops
    refine ⟨Nat.lt_succ_of_le h.sp_le, Kbd.usesOnly_accesses k op, Kbd.accesses_lt h hop, ?_⟩
    rintro p rfl i hi
    exact Kbd.interrupt_stack h p hi
  · exact Nat.lt_succ_of_le (Run.run_invariant hstep Kbd.inv_boot hops).sp_le
  · have hbal := Run.balance (fun k : Kbd => (k.pending : Multiset KbdEvent)) hstep
      (fun _ _ h hop => Kbd.step_balance h hop) Kbd.inv_boot hops
    have hempty : (Kbd.boot.pending : Multiset KbdEvent) = 0 := rfl
    rw [Run.coe_emits_append, Run.coe_emits_append, hempty, zero_add, ← add_assoc] at hbal
    rw [← hbal]
    congr 1
    exact add_comm _ _

/-- The keys `a` and `b`, a read, a reset, and 512 times the key `c`: `b` is read, `a` is discarded,
and of the last events one at least is lost, as they do not fit. -/
theorem kbd_conservation_overflow :
    let ops := [.interrupt ⟨1, 0x1e, 0⟩, .interrupt ⟨1, 0x30, 0⟩, .pop, .reset] ++
      List.replicate 512 (.interrupt ⟨1, 0x2e, 0⟩)
    Run.emits Kbd.step (fun k op => op.popped k) Kbd.boot ops = [⟨0x30, 0⟩] ∧
    Run.emits Kbd.step (fun k op => op.discarded k) Kbd.boot ops = [⟨0x1e, 0⟩] ∧
    Run.emits Kbd.step (fun k op => op.overflowed k) Kbd.boot ops ≠ [] ∧
    (Run.emits Kbd.step (fun k op => op.popped k) Kbd.boot ops : Multiset KbdEvent) +
        ((Run.run Kbd.step Kbd.boot ops).pending : Multiset KbdEvent) +
        ((Run.emits Kbd.step (fun k op => op.overflowed k) Kbd.boot ops : Multiset KbdEvent) +
          (Run.emits Kbd.step (fun k op => op.discarded k) Kbd.boot ops : Multiset KbdEvent)) =
      (Run.emits Kbd.step (fun k op => op.arrived k) Kbd.boot ops : Multiset KbdEvent) := by
  intro ops
  have hops : Run.Along Kbd.step (fun k op => op.Valid k) Kbd.boot ops := by
    rw [Run.along_append]
    refine ⟨⟨trivial, trivial, (kbdAvail_ne_zero _).mpr (by decide), trivial, trivial⟩, ?_⟩
    have hinterrupt : ∀ op ∈ List.replicate 512 (KbdOp.interrupt ⟨1, 0x2e, 0⟩),
        op = .interrupt ⟨1, 0x2e, 0⟩ := fun op hop => List.eq_of_mem_replicate hop
    refine Run.along_of_invariant (I := fun _ => True) (fun _ _ _ _ => trivial) ?_ trivial
      (Run.along_iff_forall_mem.mpr hinterrupt)
    rintro k op - rfl
    trivial
  have hpopped : Run.emits Kbd.step (fun k op => op.popped k) Kbd.boot ops = [⟨0x30, 0⟩] := by
    decide +kernel
  have hdiscarded : Run.emits Kbd.step (fun k op => op.discarded k) Kbd.boot ops =
      [⟨0x1e, 0⟩] := by decide +kernel
  have harrived : (Run.emits Kbd.step (fun k op => op.arrived k) Kbd.boot ops).length = 514 := by
    decide +kernel
  have hbal := (kbd_conservation ops hops).2.2
  refine ⟨hpopped, hdiscarded, fun hnone => ?_, hbal⟩
  -- without a loss, more than the 511 entries would be in use
  have hcard := congrArg Multiset.card hbal
  rw [hpopped, hdiscarded, hnone] at hcard
  simp only [Multiset.card_add, Multiset.coe_card, harrived, Kbd.length_pending,
    List.length_cons, List.length_nil] at hcard
  omega

/-! ## Order of delivery -/

/-- The state beside the list of events that came in and were not yet returned, latest first. -/
def lifoStep (st : Kbd × List KbdEvent) (op : KbdOp) : Kbd × List KbdEvent :=
  (st.1.step op, match op with
    | .interrupt _ => op.arrived st.1 ++ st.2
    | .pop => st.2.tail
    | .reset => [])

/-- **Last in, first out.** In every sequence of interrupts and guarded reads from boot in which
fewer than 511 events are pending, a read returns the event that came in last among those that
were not yet returned.

**Proof sketch.** The stored events are the list of `lifoStep`, by `Kbd.step_pending`; a read
returns the first of them (`Kbd.head_pending`). -/
theorem kbd_last_in_first_out (ops : List KbdOp)
    (hops : Run.Along lifoStep (fun st op => op ≠ .reset ∧ op.Valid st.1 ∧ st.2.length < 511)
      (Kbd.boot, []) ops) :
    Run.Along lifoStep (fun st op => op = .pop → st.2.head? = some (kbdPop st.1).1)
      (Kbd.boot, []) ops := by
  refine Run.along_of_invariant (I := fun st => st.1.Inv ∧ st.1.pending = st.2) ?_ ?_
    ⟨Kbd.inv_boot, rfl⟩ hops
  · rintro ⟨k, l⟩ op ⟨hinv, hpend⟩ ⟨-, hop, hlen⟩
    dsimp only at hinv hpend hop hlen
    refine ⟨hinv.step hop, ?_⟩
    dsimp only [lifoStep]
    rw [Kbd.step_pending hinv hop, hpend]
    cases op with
    | interrupt p =>
      simp only [pendingStep, KbdOp.arrived]
      cases kbdArrival k p with
      | none => rfl
      | some e => exact if_neg hlen.ne
    | pop => rfl
    | reset => rfl
  · rintro ⟨k, l⟩ op ⟨hinv, hpend⟩ ⟨-, hop, -⟩ rfl
    dsimp only at hpend ⊢
    rw [← hpend]
    exact Kbd.head_pending hinv hop

/-- The keys `a` and `b` are pressed and one event is read. -/
theorem kbd_last_in_first_out_two_keys :
    Run.Along lifoStep (fun st op => op = .pop → st.2.head? = some (kbdPop st.1).1)
      (Kbd.boot, []) [.interrupt ⟨1, 0x1e, 0⟩, .interrupt ⟨1, 0x30, 0⟩, .pop] :=
  kbd_last_in_first_out _
    ⟨⟨nofun, trivial, by decide⟩, ⟨nofun, trivial, by decide⟩,
      ⟨nofun, (kbdAvail_ne_zero _).mpr (by decide), by decide⟩, trivial⟩

/-- In that run the event returned is the one that came in second: the events returned are no
prefix of those that came in. -/
theorem kbd_not_first_in_first_out :
    Run.Along lifoStep (fun st op => op ≠ .reset ∧ op.Valid st.1 ∧ st.2.length < 511)
      (Kbd.boot, []) [.interrupt ⟨1, 0x1e, 0⟩, .interrupt ⟨1, 0x30, 0⟩, .pop] ∧
    ¬Run.emits Kbd.step (fun k op => op.popped k) Kbd.boot
        [.interrupt ⟨1, 0x1e, 0⟩, .interrupt ⟨1, 0x30, 0⟩, .pop] <+:
      Run.emits Kbd.step (fun k op => op.arrived k) Kbd.boot
        [.interrupt ⟨1, 0x1e, 0⟩, .interrupt ⟨1, 0x30, 0⟩, .pop] := by
  refine ⟨⟨⟨nofun, trivial, by decide⟩, ⟨nofun, trivial, by decide⟩,
    ⟨nofun, (kbdAvail_ne_zero _).mpr (by decide), by decide⟩, trivial⟩, ?_⟩
  decide

end Korolev
