import Korolev.Kernel.Interrupt

set_option relaxedAutoImplicit false
set_option autoImplicit false

/-!
# System calls

`kernel/syscall.c` is the handler of interrupt 127. The number of the call is in `eax`, its
arguments and results are in the other registers. The results are assigned to the fields of the
parameter `regs`; as that parameter is a copy of the saved frame (`Korolev.isrHandler`), they
reach the caller only where the register already had the value.

## Main definitions

* `Korolev.syscallHandler`, `Korolev.syscallSetup` — the functions of `kernel/syscall.c`.
* `Korolev.syscallResult` — the registers the caller should get back.
* `Korolev.ResultsPreset` — the registers already hold the results.

## Main results

* `Korolev.syscallHandler_ownArea` — the handler changes its own copy of the registers only.
* `Korolev.putsIntAt_eq` — a string printed through its address.
* `Korolev.syscall_results_iff` — the results reach the caller iff they are there already.
-/

namespace Korolev

/-! ## The handler -/

/-- The loop of `puts_int` on the string at an address. It ends at a NUL byte, which is looked
for in the first `fuel` bytes. -/
def putsIntLoop (m : Machine) : (fuel : ℕ) → Text → LONG → Option Text
  | 0, _, _ => none
  | fuel + 1, t, s =>
    if m.load t s = 0 then some t else putsIntLoop m fuel (put t (m.load t s)) (s + 1)

/-- `puts_int(s)` for the string at address `s`. -/
def putsIntAt (m : Machine) (fuel : ℕ) (s : LONG) : Option Text :=
  (putsIntLoop m fuel { m.text with strm := 1 } s).map fun t => { t with strm := 0 }

/-- `while(c--) put(*(s++));` -/
def putBytes (m : Machine) : (c : ℕ) → Text → LONG → Text
  | 0, t, _ => t
  | c + 1, t, s => putBytes m c (put t (m.load t s)) (s + 1)

/-- The flags of an event as system call 3 returns them. -/
def KbdEvent.flagWord (k : KbdEvent) : LONG :=
  k.release.toUInt32 ||| k.ctrl.toUInt32 <<< 1 ||| k.alt.toUInt32 <<< 2 |||
    k.shift.toUInt32 <<< 3 ||| k.special.toUInt32 <<< 4

/-- `syscall_handler(regs)`, with `regs` at the given address. -/
def syscallHandler (fuel : ℕ) : Isr := fun m regs =>
  let eax := m.stack (regs + Regs.eax)
  if eax = 0 then
    (putsIntAt m fuel (m.stack (regs + Regs.ebx))).map fun t => { m with text := t }
  else if eax = 1 then some { m with text := clear m.text }
  else if eax = 2 then
    if kbdAvail m.kbd ≠ 0 then
      let (k, kbd) := kbdPop m.kbd
      some ({ m with kbd := kbd }.poke (regs + Regs.ebx) k.word.toUInt32)
    else some (m.poke (regs + Regs.ebx) 0xffff)
  else if eax = 3 then
    -- interrupts are off, so that the wait for an event does not end if there is none
    if kbdAvail m.kbd = 0 then none
    else
      let m := { m with text := put m.text 75 }
      let (k, kbd) := kbdPop m.kbd
      let m := { m with kbd := kbd }
      let m := m.poke (regs + Regs.ebx) k.keycode.toUInt32
      some (m.poke (regs + Regs.ecx) k.flagWord)
  else if eax = 260 then
    let c := (m.stack (regs + Regs.edx)).toNat
    let m := { m with text := putBytes m c m.text (m.stack (regs + Regs.ecx)) }
    some (m.poke (regs + Regs.eax) (m.stack (regs + Regs.edx)))
  else some m  -- calls 4 and 259 do nothing, like the numbers not in use

/-- `syscall_setup()` -/
def syscallSetup (fuel : ℕ) (handlers : LONG → Option Isr) : LONG → Option Isr :=
  intRegh handlers 127 (syscallHandler fuel)

/-- Interrupt 127 is handled by `syscall_handler`. -/
lemma syscallSetup_apply (fuel : ℕ) (handlers : LONG → Option Isr) :
    syscallSetup fuel handlers 127 = some (syscallHandler fuel) := by
  have hid : (127 : LONG) = UInt8.toUInt32 127 := rfl
  rw [hid, syscallSetup, intRegh, Function.update_self]

/-! ## What the handler changes -/

lemma poke_keepsFrom {m₀ m : Machine} {regs o : ℤ} (ho : o < Regs.size) (v : LONG)
    (h : KeepsFrom (regs + Regs.size) m₀ m) :
    KeepsFrom (regs + Regs.size) m₀ (m.poke (regs + o) v) := by
  refine ⟨h.sp_eq, fun a ha => ?_⟩
  rw [← h.stack_eq a ha]
  exact Function.update_of_ne (by omega) _ _

/-- **The handler works on its own copy.** All its assignments are to the fields of its
parameter. -/
lemma syscallHandler_ownArea (fuel : ℕ) : OwnArea (syscallHandler fuel) := by
  intro m regs m' h
  have hrefl : ∀ m', m'.sp = m.sp → m'.stack = m.stack → KeepsFrom (regs + Regs.size) m m' :=
    fun m' hsp hstack => ⟨hsp, fun a _ => congrFun hstack a⟩
  unfold syscallHandler at h
  dsimp only at h
  split_ifs at h
  · obtain ⟨t, -, rfl⟩ := Option.map_eq_some_iff.mp h
    exact hrefl _ rfl rfl
  · cases h
    exact hrefl _ rfl rfl
  · cases h
    exact poke_keepsFrom (by decide) _ (hrefl _ rfl rfl)
  · cases h
    exact poke_keepsFrom (by decide) _ (hrefl _ rfl rfl)
  · cases h
    exact poke_keepsFrom (by decide) _ (poke_keepsFrom (by decide) _ (hrefl _ rfl rfl))
  · cases h
    exact poke_keepsFrom (by decide) _ (hrefl _ rfl rfl)
  · cases h
    exact hrefl _ rfl rfl

/-! ## When the handler returns -/

/-- The string `str` is at address `s`, with its terminator, outside of the frame buffer. -/
def StringAt (mem : LONG → BYTE) : LONG → List BYTE → Prop
  | s, [] => ¬(0xB8000 ≤ s ∧ s < 0xC0000) ∧ mem s = 0
  | s, c :: str => ¬(0xB8000 ≤ s ∧ s < 0xC0000) ∧ mem s = c ∧ c ≠ 0 ∧ StringAt mem (s + 1) str

/-- The loop of `puts_int` prints the bytes of a string one after the other, and stops at its
terminator. -/
lemma putsIntLoop_eq (m : Machine) (str : List BYTE) : ∀ {fuel : ℕ} {s : LONG} (t : Text),
    StringAt m.mem s str → str.length < fuel → putsIntLoop m fuel t s = some (str.foldl put t) := by
  induction str with
  | nil =>
    intro fuel s t hs hfuel
    obtain ⟨hout, hnul⟩ := hs
    cases fuel with
    | zero => simp at hfuel
    | succ fuel => simp [putsIntLoop, Machine.load, hout, hnul]
  | cons c str ih =>
    intro fuel s t hs hfuel
    obtain ⟨hout, hc, hne, hrest⟩ := hs
    cases fuel with
    | zero => simp at hfuel
    | succ fuel =>
      have hload : m.load t s = c := by simp [Machine.load, hout, hc]
      rw [putsIntLoop, hload, if_neg hne, List.foldl_cons]
      apply ih
      · exact hrest
      · simpa using hfuel

/-- On a string in memory, `puts_int` is the function of its bytes. -/
lemma putsIntAt_eq {m : Machine} {fuel : ℕ} {s : LONG} {str : List BYTE} (hs : StringAt m.mem s str)
    (hfuel : str.length < fuel) : putsIntAt m fuel s = some (putsInt m.text str) := by
  rw [putsIntAt, putsIntLoop_eq m str _ hs hfuel]
  rfl

/-- The handler returns if the string to print ends, and an event to wait for is there. -/
lemma syscallHandler_returns {fuel : ℕ} {m : Machine} {regs : ℤ}
    (hkbd : m.stack (regs + Regs.eax) = 3 → kbdAvail m.kbd ≠ 0)
    (hstr : m.stack (regs + Regs.eax) = 0 →
      ∃ str, str.length < fuel ∧ StringAt m.mem (m.stack (regs + Regs.ebx)) str) :
    ∃ m', syscallHandler fuel m regs = some m' := by
  unfold syscallHandler
  dsimp only
  split_ifs with h0 h1 h2 havail h3 hwait h260
  · obtain ⟨str, hfuel, hs⟩ := hstr h0
    rw [putsIntAt_eq hs hfuel]
    exact ⟨_, rfl⟩
  · exact ⟨_, rfl⟩
  · exact ⟨_, rfl⟩
  · exact ⟨_, rfl⟩
  · exact absurd hwait (hkbd h3)
  · exact ⟨_, rfl⟩
  · exact ⟨_, rfl⟩
  · exact ⟨_, rfl⟩

/-! ## Delivery of the results -/

/-- The registers a system call should return with: those assigned by the handler, the others
as they were. -/
def syscallResult (c : Cpu) (k : Kbd) : Cpu :=
  if c.eax = 2 then
    { c with ebx := if kbdAvail k ≠ 0 then (kbdPop k).1.word.toUInt32 else 0xffff }
  else if c.eax = 3 then
    { c with ebx := (kbdPop k).1.keycode.toUInt32, ecx := (kbdPop k).1.flagWord }
  else if c.eax = 260 then { c with eax := c.edx }
  else c

/-- The registers in which a system call returns something hold it already: for `sys_write` the
count `edx` is the number of the call, for the reads of the keyboard the event to be read
(or `0xffff`) is in place. -/
def ResultsPreset (c : Cpu) (k : Kbd) : Prop :=
  (c.eax = 260 → c.edx = 260) ∧
  (c.eax = 2 → k.sp = 511 → c.ebx = 0xffff) ∧
  (c.eax = 2 → k.sp ≠ 511 → c.ebx = (k.stack (k.sp + 1)).word.toUInt32) ∧
  (c.eax = 3 → c.ebx = (k.stack (k.sp + 1)).keycode.toUInt32 ∧
    c.ecx = (k.stack (k.sp + 1)).flagWord)

/-- The results are preset iff a call that changes no register delivers them. -/
lemma eq_syscallResult_iff (c : Cpu) (k : Kbd) : c = syscallResult c k ↔ ResultsPreset c k := by
  obtain ⟨ds, edi, esi, ebp, ebx, edx, ecx, eax⟩ := c
  simp only [syscallResult, ResultsPreset, kbdAvail_ne_zero, kbdPop]
  by_cases h2 : eax = 2
  · subst h2
    by_cases hsp : k.sp = 511
    · simp [hsp]
    · simp [hsp]
  · by_cases h3 : eax = 3
    · subst h3
      simp
    · by_cases h260 : eax = 260
      · subst h260
        simp [eq_comm]
      · simp [h2, h3, h260]

/-- Through the table, interrupt 127 runs the handler on a copy of the saved frame. -/
lemma isrCommonStub_syscall {handlers : LONG → Option Isr} {fuel gap : ℕ} {c : Cpu} {m : Machine}
    (hint : m.stack m.sp = 127) :
    isrCommonStub (syscallSetup fuel handlers) gap c m =
      (syscallHandler fuel ((saveRegs m c).copyRegs (m.sp - 9) (m.sp - 9 - gap - Regs.size))
        (m.sp - 9 - gap - Regs.size)).map fun m => restoreRegs m { c with ds := 0x10 } := by
  have hnum : (saveRegs m c).stack (m.sp - 9 + Regs.intNo) = 127 := by
    rw [← hint, ← saveRegs_intNo m c, (saveRegs_frame m c).1]
  have hlt : (127 : LONG) < 256 := by decide
  unfold isrCommonStub isrHandler
  dsimp only
  rw [(saveRegs_frame m c).1, hnum, syscallSetup_apply]
  simp only [if_pos hlt]

/-- **Results of system calls.** For every frame saved for interrupt 127, when `isr_handler` has
returned and the registers are restored, the caller has the results of the system call, with
everything else as it was, iff the results were in the registers beforehand. The handler does
return, unless it prints a string without an end or waits for a key with none pressed.

**Proof sketch.** The handler changes its copy only (`syscallHandler_ownArea`), so the stub
restores all registers (`isrCommonStub_restores`): the caller gets what it had. -/
theorem syscall_results_iff (handlers : LONG → Option Isr) (fuel gap : ℕ) (c : Cpu) (m : Machine)
    (hint : m.stack m.sp = 127) (hkbd : c.eax = 3 → kbdAvail m.kbd ≠ 0) :
    (∀ c' m', isrCommonStub (syscallSetup fuel handlers) gap c m = some (c', m') →
      ((c' = syscallResult c m.kbd ∧ KeepsFrom m.sp m m') ↔ ResultsPreset c m.kbd)) ∧
    ((c.eax = 0 → ∃ str, str.length < fuel ∧ StringAt m.mem c.ebx str) →
      ∃ c' m', isrCommonStub (syscallSetup fuel handlers) gap c m = some (c', m')) := by
  constructor
  · intro c' m' h
    have hown : ∀ handler, syscallSetup fuel handlers (m.stack m.sp) = some handler →
        OwnArea handler := by
      intro handler hh
      rw [hint, syscallSetup_apply] at hh
      obtain rfl := Option.some.inj hh
      exact syscallHandler_ownArea fuel
    obtain ⟨rfl, hkeep⟩ := isrCommonStub_restores hown h
    rw [← eq_syscallResult_iff]
    exact and_iff_left hkeep
  · intro hstr
    obtain ⟨-, hframe, -⟩ := saveRegs_frame m c
    have hcopy : ∀ o, 0 ≤ o → o < Regs.size → _ = _ := fun o =>
      (saveRegs m c).copyRegs_stack (m.sp - 9) (m.sp - 9 - gap - Regs.size) (o := o)
    have heax := (hcopy Regs.eax (by decide) (by decide)).trans hframe.eax_eq
    have hebx := (hcopy Regs.ebx (by decide) (by decide)).trans hframe.ebx_eq
    have hrun : ∃ m', syscallHandler fuel _ _ = some m' :=
      syscallHandler_returns (by rw [heax]; exact hkbd) (by rw [heax, hebx]; exact hstr)
    obtain ⟨m', hm'⟩ := hrun
    rw [isrCommonStub_syscall hint, hm']
    exact ⟨_, _, rfl⟩

/-- A machine with an empty keyboard buffer, interrupted by a system call. -/
def idleMachine : Machine where
  stack := fun a => if a = 0 then 127 else 0
  sp := 0
  text := ⟨0, 0, 0, 7, 0, ⟨fun _ => 0, []⟩, 0, fun _ => 0, 0, []⟩
  kbd := ⟨fun _ => ⟨0, 0⟩, 511, 0, 0, 0⟩
  mem := fun _ => 0

/-- A caller of system call 2 with nothing in its other registers. -/
def readKeyCaller : Cpu := ⟨0x10, 0, 0, 0, 0, 0, 0, 2⟩

/-- That machine with an `A` in the keyboard buffer. -/
def typedMachine : Machine := { idleMachine with kbd := ⟨fun _ => ⟨0x61, 8⟩, 510, 0, 0, 0⟩ }

/-- Callers that read the keyboard get what they should if they have it already: `0xffff` for
system call 2 with no key pressed, and the key and its flags for system call 3. -/
theorem syscall_results_preset :
    (∃ c' m', isrCommonStub (syscallSetup 1 fun _ => none) 0 { readKeyCaller with ebx := 0xffff }
        idleMachine = some (c', m') ∧
      c' = syscallResult { readKeyCaller with ebx := 0xffff } idleMachine.kbd) ∧
    ∃ c' m', isrCommonStub (syscallSetup 1 fun _ => none) 0
        { readKeyCaller with eax := 3, ebx := 0x61, ecx := 8 } typedMachine = some (c', m') ∧
      c' = syscallResult { readKeyCaller with eax := 3, ebx := 0x61, ecx := 8 }
        typedMachine.kbd := by
  constructor
  · obtain ⟨hiff, hreturns⟩ := syscall_results_iff (fun _ => none) 1 0
      { readKeyCaller with ebx := 0xffff } idleMachine (by decide) (by decide)
    obtain ⟨c', m', hrun⟩ := hreturns fun h0 => absurd h0 (by decide)
    have hpreset : ResultsPreset { readKeyCaller with ebx := 0xffff } idleMachine.kbd := by
      unfold ResultsPreset
      decide
    exact ⟨c', m', hrun, ((hiff c' m' hrun).mpr hpreset).1⟩
  · obtain ⟨hiff, hreturns⟩ := syscall_results_iff (fun _ => none) 1 0
      { readKeyCaller with eax := 3, ebx := 0x61, ecx := 8 } typedMachine (by decide)
      fun _ => by decide
    obtain ⟨c', m', hrun⟩ := hreturns fun h0 => absurd h0 (by decide)
    have hpreset : ResultsPreset { readKeyCaller with eax := 3, ebx := 0x61, ecx := 8 }
        typedMachine.kbd := by
      unfold ResultsPreset
      decide
    exact ⟨c', m', hrun, ((hiff c' m' hrun).mpr hpreset).1⟩

/-- With no key pressed, system call 2 should return `0xffff` in `ebx` and leaves it `0`. -/
theorem syscall_results_lost :
    idleMachine.stack idleMachine.sp = 127 ∧
    ∃ c' m', isrCommonStub (syscallSetup 1 fun _ => none) 0 readKeyCaller idleMachine =
        some (c', m') ∧
      c'.ebx = 0 ∧ (syscallResult readKeyCaller idleMachine.kbd).ebx = 0xffff := by
  refine ⟨by decide, _, _, rfl, ?_, ?_⟩
  · decide
  · decide

end Korolev
