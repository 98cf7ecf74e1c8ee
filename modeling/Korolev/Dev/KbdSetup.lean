import Korolev.Base
import Korolev.Library.I8042
import Korolev.Library.Run

set_option relaxedAutoImplicit false
set_option autoImplicit false

/-!
# Setting up the keyboard controller

`kbd_setup` (`dev/kbd.c`) switches both ports of the controller off, empties its output buffer by
one read, tests the controller and its first port, and switches the first port on again. The
controller does a command when it gets to it, and the devices at the ports send as long as they may;
the program only looks at the status register. Interrupts are off meanwhile.

The command for the second port may still wait in the input buffer when the output buffer is
emptied. A byte that comes from that port after this is taken for the answer to the first test.

What `kbd_setup` does besides (clearing the events and the flags, registering its handler) is left
out.

## Main definitions

* `Korolev.kbdSetupCalls` — the accesses of `kbd_setup`.
* `Korolev.KbdSetup`, `Korolev.KbdSetup.step` — the program and the controller, access by access.
* `Korolev.KbdSetup.Quiet` — no byte comes from the second port too late.

## Main results

* `Korolev.kbd_setup_answers_iff` — when the answers are those of the controller.
-/

namespace Korolev

open I8042

/-! ## The functions -/

/-- `kbd_ps2_cmd(cmd)`, `kbd_ps2_write_data(val)` and `kbd_ps2_flush_buf()`, and a comparison of
what `kbd_ps2_read_data()` returns. -/
inductive Ps2Call where
  | cmd (c : BYTE)
  | write (v : BYTE)
  | flush
  | read (want : BYTE)
  deriving DecidableEq

/-- The calls of `kbd_setup`, with those of `kbd_ps2_selftest`, `kbd_ps2_testch` and
`kbd_ps2_enable_irq` in their places. -/
def kbdSetupCalls : List Ps2Call :=
  [.cmd 0xAD, .cmd 0xA7, .flush, .cmd 0xAA, .read 0x55, .cmd 0xAB, .read 0, .cmd 0xAE, .cmd 0x60,
    .write 0x67, .write 0xFF]

/-- The controller, the calls that are left, whether the loop of the first one was left, whether a
test failed, and the answers that were read. -/
structure KbdSetup where
  chip : I8042
  calls : List Ps2Call
  polled : Bool
  failed : Bool
  answers : List (Source × BYTE)

/-- What happens: the program makes its next access, the controller takes what is in its input
buffer, or a device sends a byte. -/
inductive Ps2Event where
  | access
  | take
  | byte (src : Source) (v : BYTE)
  deriving DecidableEq

namespace KbdSetup

/-- The program looks at the status register or makes the access it waits for. -/
def access (s : KbdSetup) : KbdSetup :=
  match s.calls with
  | [] => s
  | .cmd c :: rest =>
    if s.polled then { s with chip := s.chip.write true c, calls := rest, polled := false }
    else { s with polled := s.chip.status &&& 2 = 0 }
  | .write v :: rest =>
    if s.polled then { s with chip := s.chip.write false v, calls := rest, polled := false }
    else { s with polled := s.chip.status &&& 2 = 0 }
  | .flush :: rest => { s with chip := s.chip.read.2, calls := rest }
  | .read want :: rest =>
    if s.polled then
      let r := s.chip.read
      { chip := r.2
        calls := if r.1.2 = want then rest else []
        polled := false
        failed := r.1.2 ≠ want
        answers := s.answers ++ [r.1] }
    else { s with polled := s.chip.status &&& 1 ≠ 0 }

/-- One event, with the answers of the controller. -/
def step (answer : BYTE → BYTE) (s : KbdSetup) : Ps2Event → KbdSetup
  | .access => s.access
  | .take => { s with chip := s.chip.take answer }
  | .byte src v => { s with chip := s.chip.receive src v }

/-- `kbd_setup` begins. -/
def start (c : I8042) : KbdSetup := ⟨c, kbdSetupCalls, false, false, []⟩

/-- No byte comes from the second port while it may still send and the output buffer has been
emptied. -/
def Quiet (s : KbdSetup) : Ps2Event → Prop
  | .byte .port2 _ => s.calls = kbdSetupCalls.drop 3 → s.chip.off2 = true
  | _ => True

end KbdSetup

/-! ## Where the program is -/

section Phase

variable (answer : BYTE → BYTE) (sent : List BYTE)

/-- The controller while the program is at call `k` and did or did not leave its loop, if all bytes
came in time. -/
def Phase : ℕ → I8042 → Bool → Prop
  | 0, c, _ => c.input = none ∧ c.sent = sent
  | 1, c, polled =>
    (c.input = some (true, 0xAD) ∧ polled = false ∨ c.input = none ∧ c.off1 = true) ∧ c.sent = sent
  | 2, c, polled =>
    (c.input = some (true, 0xA7) ∨ c.input = none ∧ c.off2 = true) ∧ polled = false ∧
      c.off1 = true ∧ c.sent = sent
  | 3, c, polled =>
    (c.input = some (true, 0xA7) ∧ polled = false ∨ c.input = none ∧ c.off2 = true) ∧
      c.output = none ∧ c.off1 = true ∧ c.sent = sent
  | 4, c, polled =>
    (c.input = some (true, 0xAA) ∧ c.output = none ∧ polled = false ∨
      c.input = none ∧ c.output = some (.controller, answer 0xAA)) ∧
      c.off1 = true ∧ c.off2 = true ∧ c.sent = sent
  | 5, c, _ =>
    c.input = none ∧ c.output = none ∧ c.off1 = true ∧ c.off2 = true ∧ c.sent = sent
  | 6, c, polled =>
    (c.input = some (true, 0xAB) ∧ c.output = none ∧ polled = false ∨
      c.input = none ∧ c.output = some (.controller, answer 0xAB)) ∧
      c.off1 = true ∧ c.off2 = true ∧ c.sent = sent
  | 7, c, _ =>
    c.input = none ∧ c.output = none ∧ c.off1 = true ∧ c.off2 = true ∧ c.sent = sent
  | 8, c, polled => (c.input = some (true, 0xAE) ∧ polled = false ∨ c.input = none) ∧ c.sent = sent
  | 9, c, polled =>
    (c.input = some (true, 0x60) ∧ polled = false ∨ c.input = none ∧ c.expecting = true) ∧
      c.sent = sent
  | 10, c, polled =>
    (c.input = some (false, 0x67) ∧ c.expecting = true ∧ polled = false ∨
      c.input = none ∧ c.expecting = false ∧ c.config = 0x67 ∧ c.off1 = false ∧ c.off2 = true) ∧
      c.sent = sent
  | 11, c, _ =>
    (c.input = some (false, 0xFF) ∧ c.sent = sent ∨ c.input = none ∧ c.sent = sent ++ [0xFF]) ∧
      c.expecting = false ∧ c.config = 0x67 ∧ c.off1 = false ∧ c.off2 = true
  | _, _, _ => False

variable {answer sent} {c : I8042} {polled : Bool} {k : ℕ}

/-- **The controller** keeps the phase. -/
lemma Phase.take (h : Phase answer sent k c polled) :
    Phase answer sent k (c.take answer) polled := by
  match k, h with
  | 0, ⟨hin, hsent⟩ => simp [Phase, I8042.take, hin, hsent]
  | 1, ⟨hin, hsent⟩ =>
    obtain ⟨hin, hp⟩ | ⟨hin, hoff⟩ := hin
    all_goals simp [Phase, I8042.take, command, *]
  | 2, ⟨hin, hp, hoff, hsent⟩ =>
    obtain hin | ⟨hin, hoff2⟩ := hin
    all_goals simp [Phase, I8042.take, command, *]
  | 3, ⟨hin, hout, hoff, hsent⟩ =>
    obtain ⟨hin, hp⟩ | ⟨hin, hoff2⟩ := hin
    all_goals simp [Phase, I8042.take, command, *]
  | 4, ⟨hin, hoff, hoff2, hsent⟩ =>
    obtain ⟨hin, hout, hp⟩ | ⟨hin, hout⟩ := hin
    all_goals simp [Phase, I8042.take, command, *]
  | 5, ⟨hin, hrest⟩ => simp [Phase, I8042.take, hin, hrest]
  | 6, ⟨hin, hoff, hoff2, hsent⟩ =>
    obtain ⟨hin, hout, hp⟩ | ⟨hin, hout⟩ := hin
    all_goals simp [Phase, I8042.take, command, *]
  | 7, ⟨hin, hrest⟩ => simp [Phase, I8042.take, hin, hrest]
  | 8, ⟨hin, hsent⟩ =>
    obtain ⟨hin, hp⟩ | hin := hin
    all_goals simp [Phase, I8042.take, command, *]
  | 9, ⟨hin, hsent⟩ =>
    obtain ⟨hin, hp⟩ | ⟨hin, hexpects⟩ := hin
    all_goals simp [Phase, I8042.take, command, *]
  | 10, ⟨hin, hsent⟩ =>
    obtain ⟨hin, hexpects, hp⟩ | ⟨hin, hrest⟩ := hin
    all_goals simp [Phase, I8042.take, *]
  | 11, ⟨hin, hexpects, hrest⟩ =>
    obtain ⟨hin, hsent⟩ | ⟨hin, hsent⟩ := hin
    all_goals simp [Phase, I8042.take, *]

/-- With both ports switched off no device sends. -/
lemma on_eq_false (hoff : c.off1 = true) (hoff2 : c.off2 = true) (src : Source) :
    c.on src = false := by
  cases src with
  | controller => rfl
  | port1 => rw [on, hoff, Bool.not_true]
  | port2 => rw [on, hoff2, Bool.not_true]

/-- **A device** keeps the phase, too, if it is not the second one and too late. -/
lemma Phase.receive (h : Phase answer sent k c polled) {src : Source}
    (hquiet : src = .port2 → k = 3 → c.off2 = true) (v : BYTE) :
    Phase answer sent k (c.receive src v) polled := by
  obtain ⟨output, heq⟩ := c.receive_eq src v
  match k, h with
  | 0, h | 1, h | 2, h | 8, h | 9, h | 10, h | 11, h =>
    -- the output buffer does not matter here
    rw [heq]
    exact h
  | 3, h =>
    have hoff : c.on src = false := by
      cases src with
      | controller => rfl
      | port1 => rw [on, h.2.2.1, Bool.not_true]
      | port2 => rw [on, hquiet rfl rfl, Bool.not_true]
    rw [receive_of_off hoff]
    exact h
  | 4, h | 6, h =>
    rw [receive_of_off (on_eq_false h.2.1 h.2.2.1 src)]
    exact h
  | 5, h | 7, h =>
    rw [receive_of_off (on_eq_false h.2.2.1 h.2.2.2.1 src)]
    exact h

/-- The byte a call writes, and whether it is a command. -/
def Ps2Call.written : Ps2Call → Option (Bool × BYTE)
  | .cmd c => some (true, c)
  | .write v => some (false, v)
  | _ => none

/-- **The program** leaves its loop when the input buffer is empty, and writes. -/
lemma Phase.written {command : Bool} {v : BYTE} (h : Phase answer sent k c polled)
    (hcall : kbdSetupCalls[k]?.bind Ps2Call.written = some (command, v)) :
    Phase answer sent k c (decide (c.input = none)) ∧
    (polled = true → Phase answer sent (k + 1) (c.write command v) false) := by
  match k, command, v, h, hcall with
  | 0, _, _, ⟨hin, hsent⟩, rfl => simp [Phase, I8042.write, hin, hsent]
  | 1, _, _, ⟨hin, hsent⟩, rfl =>
    obtain ⟨hin, hp⟩ | ⟨hin, hoff⟩ := hin
    all_goals simp [Phase, I8042.write, *]
  | 3, _, _, ⟨hin, hout, hoff, hsent⟩, rfl =>
    obtain ⟨hin, hp⟩ | ⟨hin, hoff2⟩ := hin
    all_goals simp [Phase, I8042.write, *]
  | 5, _, _, ⟨hin, hrest⟩, rfl => simp [Phase, I8042.write, hin, hrest]
  | 7, _, _, ⟨hin, hrest⟩, rfl => simp [Phase, I8042.write, hin, hrest]
  | 8, _, _, ⟨hin, hsent⟩, rfl =>
    obtain ⟨hin, hp⟩ | hin := hin
    all_goals simp [Phase, I8042.write, *]
  | 9, _, _, ⟨hin, hsent⟩, rfl =>
    obtain ⟨hin, hp⟩ | ⟨hin, hexpects⟩ := hin
    all_goals simp [Phase, I8042.write, *]
  | 10, _, _, ⟨hin, hsent⟩, rfl =>
    obtain ⟨hin, hexpects, hp⟩ | ⟨hin, hrest⟩ := hin
    all_goals simp [Phase, I8042.write, *]

/-- The program reads the answer to a test, which is there. -/
lemma Phase.answered {test : BYTE} (hk : k = 4 ∧ test = 0xAA ∨ k = 6 ∧ test = 0xAB)
    (h : Phase answer sent k c polled) :
    Phase answer sent k c (decide (c.output ≠ none)) ∧
    (polled = true → c.output = some (.controller, answer test) ∧ c.input = none ∧
      Phase answer sent (k + 1) c.read.2 false) := by
  obtain ⟨rfl, rfl⟩ | ⟨rfl, rfl⟩ := hk
  all_goals
    obtain ⟨⟨hin, hout, hp⟩ | ⟨hin, hout⟩, hoff, hoff2, hsent⟩ := h
    all_goals simp [Phase, I8042.read, *]

end Phase

/-! ## Events -/

section Events

variable (answer : BYTE → BYTE) (sent : List BYTE)

/-- The answers that were read before call `k`, and that they were those wanted. -/
def Passed (k : ℕ) (answers : List (Source × BYTE)) : Prop :=
  if k ≤ 4 then answers = []
  else if k ≤ 6 then answers = [(.controller, answer 0xAA)] ∧ answer 0xAA = 0x55
  else answers = [(.controller, answer 0xAA), (.controller, answer 0xAB)] ∧
    answer 0xAA = 0x55 ∧ answer 0xAB = 0

namespace KbdSetup

/-- The program is at call `k`, and all bytes came in time. -/
structure At (k : ℕ) (s : KbdSetup) : Prop where
  calls : s.calls = kbdSetupCalls.drop k
  running : s.failed = false
  phase : Phase answer sent k s.chip s.polled
  passed : Passed answer k s.answers

/-- A test has failed. -/
structure Refused (s : KbdSetup) : Prop where
  calls : s.calls = []
  failed : s.failed = true
  input : s.chip.input = none
  answers : s.answers = [(.controller, answer 0xAA)] ∧ answer 0xAA ≠ 0x55 ∨
    s.answers = [(.controller, answer 0xAA), (.controller, answer 0xAB)] ∧ answer 0xAB ≠ 0

/-- All bytes came in time. -/
def Clean (s : KbdSetup) : Prop := (∃ k, At answer sent k s) ∨ Refused answer s

variable {answer sent} {s : KbdSetup} {k : ℕ}

/-- A call that writes. -/
lemma access_written {call : Ps2Call} {rest : List Ps2Call} {command : Bool} {v : BYTE}
    (hcalls : s.calls = call :: rest) (hw : call.written = some (command, v)) :
    s.access = if s.polled then
      { s with chip := s.chip.write command v, calls := rest, polled := false }
      else { s with polled := decide (s.chip.input = none) } := by
  have hbusy : s.chip.status &&& 2 = 0 ↔ s.chip.input = none :=
    not_iff_not.mp (s.chip.status_and_two.trans Option.isSome_iff_ne_none)
  cases call with
  | cmd c =>
    obtain ⟨rfl, rfl⟩ := Prod.mk.inj (Option.some.inj hw)
    simp only [access, hcalls, hbusy]
  | write c =>
    obtain ⟨rfl, rfl⟩ := Prod.mk.inj (Option.some.inj hw)
    simp only [access, hcalls, hbusy]
  | flush => nomatch hw
  | read want => nomatch hw

/-- A call that reads an answer. -/
lemma access_read {want : BYTE} {rest : List Ps2Call} (hcalls : s.calls = .read want :: rest) :
    s.access = if s.polled then
      { chip := s.chip.read.2
        calls := if s.chip.read.1.2 = want then rest else []
        polled := false
        failed := s.chip.read.1.2 ≠ want
        answers := s.answers ++ [s.chip.read.1] }
      else { s with polled := decide (s.chip.output ≠ none) } := by
  have hthere : s.chip.status &&& 1 ≠ 0 ↔ s.chip.output ≠ none := by
    rw [s.chip.status_and_one, Option.isSome_iff_ne_none]
  simp only [access, hcalls, hthere]

/-- The call that empties the output buffer. -/
lemma access_flush {rest : List Ps2Call} (hcalls : s.calls = .flush :: rest) :
    s.access = { s with chip := s.chip.read.2, calls := rest } := by
  simp only [access, hcalls]

/-- A call that writes goes on to the next one. -/
lemma At.written (h : At answer sent k s) {call : Ps2Call} {command : Bool} {v : BYTE}
    (hcall : kbdSetupCalls.drop k = call :: kbdSetupCalls.drop (k + 1))
    (hw : call.written = some (command, v))
    (hpassed : Passed answer k s.answers → Passed answer (k + 1) s.answers) :
    Clean answer sent s.access := by
  obtain ⟨hpoll, hwrite⟩ := h.phase.written (by rw [← List.head?_drop, hcall]; exact hw)
  rw [access_written (h.calls.trans hcall) hw]
  split_ifs with hp
  · exact .inl ⟨k + 1, rfl, h.running, hwrite hp, hpassed h.passed⟩
  · exact .inl ⟨k, h.calls, h.running, hpoll, h.passed⟩

/-- A call that reads an answer goes on to the next one if it is that wanted. -/
lemma At.answered (h : At answer sent k s) {test want : BYTE}
    (hk : k = 4 ∧ test = 0xAA ∧ want = 0x55 ∨ k = 6 ∧ test = 0xAB ∧ want = 0) :
    Clean answer sent s.access := by
  have hcall : kbdSetupCalls.drop k = .read want :: kbdSetupCalls.drop (k + 1) := by
    obtain ⟨rfl, -, rfl⟩ | ⟨rfl, -, rfl⟩ := hk
    · rfl
    · rfl
  have htest : k = 4 ∧ test = 0xAA ∨ k = 6 ∧ test = 0xAB :=
    hk.imp (fun h => ⟨h.1, h.2.1⟩) fun h => ⟨h.1, h.2.1⟩
  obtain ⟨hpoll, hread⟩ := h.phase.answered htest
  rw [access_read (h.calls.trans hcall)]
  by_cases hp : s.polled = true
  · obtain ⟨hout, hin, hphase⟩ := hread hp
    have hr : s.chip.read.1 = (.controller, answer test) := by rw [I8042.read, hout]; rfl
    rw [if_pos hp, hr]
    by_cases hwant : answer test = want
    · refine .inl ⟨k + 1, if_pos hwant, decide_eq_false (not_not_intro hwant), hphase, ?_⟩
      obtain ⟨rfl, rfl, rfl⟩ | ⟨rfl, rfl, rfl⟩ := hk
      · have hnil : s.answers = [] := h.passed
        exact ⟨by rw [hnil]; rfl, hwant⟩
      · obtain ⟨hone, hpass⟩ : s.answers = [(.controller, answer 0xAA)] ∧ answer 0xAA = 0x55 :=
          h.passed
        exact ⟨by rw [hone]; rfl, hpass, hwant⟩
    · refine .inr ⟨if_neg hwant, decide_eq_true hwant, hin, ?_⟩
      obtain ⟨rfl, rfl, rfl⟩ | ⟨rfl, rfl, rfl⟩ := hk
      · have hnil : s.answers = [] := h.passed
        exact .inl ⟨by rw [hnil]; rfl, hwant⟩
      · obtain ⟨hone, hpass⟩ : s.answers = [(.controller, answer 0xAA)] ∧ answer 0xAA = 0x55 :=
          h.passed
        exact .inr ⟨by rw [hone]; rfl, hwant⟩
  · rw [if_neg hp]
    exact .inl ⟨k, h.calls, h.running, hpoll, h.passed⟩

/-- The output buffer is emptied. -/
lemma At.flushed (h : At answer sent 2 s) : At answer sent 3 s.access := by
  obtain ⟨hcalls, hrunning, ⟨hin, hp, hoff, hsent⟩, hpassed⟩ := h
  rw [access_flush hcalls]
  exact ⟨rfl, hrunning, ⟨hin.imp_left fun hin => ⟨hin, hp⟩, rfl, hoff, hsent⟩, hpassed⟩

/-- **The program keeps to its calls.** -/
lemma At.access (h : At answer sent k s) : Clean answer sent s.access := by
  match k, h with
  | 0, h | 1, h | 3, h | 5, h | 7, h | 8, h | 9, h | 10, h => exact h.written rfl rfl id
  | 2, h => exact .inl ⟨3, h.flushed⟩
  | 4, h => exact h.answered (.inl ⟨rfl, rfl, rfl⟩)
  | 6, h => exact h.answered (.inr ⟨rfl, rfl, rfl⟩)
  | 11, h =>
    have hsame : s.access = s := by simp only [KbdSetup.access, h.calls]; rfl
    rw [hsame]
    exact .inl ⟨11, h⟩
  | k + 12, h => exact h.phase.elim

/-- **Every event in time keeps all clean.** -/
lemma Clean.step (h : Clean answer sent s) {op : Ps2Event} (hop : s.Quiet op) :
    Clean answer sent (s.step answer op) := by
  obtain ⟨k, hk⟩ | ⟨hcalls, hfailed, hin, hanswers⟩ := h
  · cases op with
    | access => exact hk.access
    | take => exact .inl ⟨k, hk.calls, hk.running, hk.phase.take, hk.passed⟩
    | byte src v =>
      have hquiet : src = .port2 → k = 3 → s.chip.off2 = true := by
        rintro rfl rfl
        exact hop hk.calls
      exact .inl ⟨k, hk.calls, hk.running, hk.phase.receive hquiet v, hk.passed⟩
  · cases op with
    | access =>
      have hsame : s.access = s := by simp only [access, hcalls]
      exact .inr (by rw [KbdSetup.step, hsame]; exact ⟨hcalls, hfailed, hin, hanswers⟩)
    | take =>
      have hsame : s.chip.take answer = s.chip := by rw [I8042.take, hin]
      exact .inr (by rw [KbdSetup.step, hsame]; exact ⟨hcalls, hfailed, hin, hanswers⟩)
    | byte src v =>
      obtain ⟨output, heq⟩ := s.chip.receive_eq src v
      exact .inr (by rw [KbdSetup.step, heq]; exact ⟨hcalls, hfailed, hin, hanswers⟩)

/-- All answers are from the controller. -/
lemma Clean.controller (h : Clean answer sent s) : ∀ a ∈ s.answers, a.1 = .controller := by
  have hone : ∀ a ∈ [((.controller : Source), answer 0xAA)], a.1 = .controller := by simp
  have htwo : ∀ a ∈ [((.controller : Source), answer 0xAA), (.controller, answer 0xAB)],
      a.1 = .controller := by simp
  obtain ⟨k, hk⟩ | hrefused := h
  · have hpassed := hk.passed
    unfold Passed at hpassed
    split_ifs at hpassed
    · rw [hpassed]
      exact nofun
    · rw [hpassed.1]
      exact hone
    · rw [hpassed.1]
      exact htwo
  · obtain ⟨hanswers, -⟩ | ⟨hanswers, -⟩ := hrefused.answers
    · rw [hanswers]
      exact hone
    · rw [hanswers]
      exact htwo

/-- With no call left the program is behind the last one. -/
lemma At.eq_eleven (h : At answer sent k s) (hcalls : s.calls = []) : k = 11 := by
  have hlen : 11 ≤ k := List.drop_eq_nil_iff.mp (h.calls.symm.trans hcalls)
  match k, hlen, h with
  | 11, _, _ => rfl
  | k + 12, _, h => exact h.phase.elim

/-! ## A byte that comes too late -/

/-- A byte from the second port is in the output buffer while the answer to the first test is waited
for, or was read as this answer. -/
def Late (s : KbdSetup) : Prop :=
  ((s.calls = kbdSetupCalls.drop 3 ∨ s.calls = kbdSetupCalls.drop 4) ∧ s.answers = [] ∧
    ∃ v, s.chip.output = some (.port2, v)) ∨
  ∃ v, s.answers.head? = some (.port2, v)

/-- Answers are only added. -/
lemma answers_access (s : KbdSetup) : ∃ more, s.access.answers = s.answers ++ more := by
  have hsame : s.answers = s.answers ++ [] := (List.append_nil _).symm
  unfold access
  split
  · exact ⟨[], hsame⟩
  · split_ifs <;> exact ⟨[], hsame⟩
  · split_ifs <;> exact ⟨[], hsame⟩
  · exact ⟨[], hsame⟩
  · split_ifs
    · exact ⟨_, rfl⟩
    · exact ⟨[], hsame⟩

/-- **Nothing that happens sets it right.** -/
lemma Late.step (h : Late s) (answer : BYTE → BYTE) (op : Ps2Event) : Late (s.step answer op) := by
  obtain ⟨hcalls, hnil, v, hout⟩ | ⟨v, hhead⟩ := h
  · have hfull : s.chip.output ≠ none := by rw [hout]; exact Option.some_ne_none _
    cases op with
    | take => exact .inl ⟨hcalls, hnil, v, (output_take_of_full hfull).trans hout⟩
    | byte src w =>
      refine .inl ⟨hcalls, hnil, v, ?_⟩
      show (s.chip.receive src w).output = _
      rw [receive_of_full hfull, hout]
    | access =>
      show Late s.access
      obtain hcalls | hcalls := hcalls
      · rw [access_written (hcalls : s.calls = .cmd 0xAA :: kbdSetupCalls.drop 4) rfl]
        split_ifs
        · exact .inl ⟨.inr rfl, hnil, v, hout⟩
        · exact .inl ⟨.inl hcalls, hnil, v, hout⟩
      · have hr : s.chip.read.1 = (.port2, v) := by rw [I8042.read, hout]; rfl
        rw [access_read (hcalls : s.calls = .read 0x55 :: kbdSetupCalls.drop 5)]
        by_cases hp : s.polled = true
        · rw [if_pos hp, hr, hnil]
          exact .inr ⟨v, rfl⟩
        · rw [if_neg hp]
          exact .inl ⟨.inr hcalls, hnil, v, hout⟩
  · refine .inr ⟨v, ?_⟩
    cases op with
    | take => exact hhead
    | byte src w => exact hhead
    | access =>
      obtain ⟨more, hmore⟩ := s.answers_access
      show s.access.answers.head? = _
      rw [hmore, List.head?_append, hhead]
      rfl

/-- **The first byte that comes too late** is taken for the answer. -/
lemma Clean.late (h : Clean answer sent s) {op : Ps2Event} (hop : ¬ s.Quiet op) :
    Late (s.step answer op) := by
  match op, hop with
  | .access, hop | .take, hop | .byte .controller _, hop | .byte .port1 _, hop =>
    exact (hop trivial).elim
  | .byte .port2 v, hop =>
    obtain ⟨hcalls, hon⟩ : s.calls = kbdSetupCalls.drop 3 ∧ ¬ s.chip.off2 = true :=
      Classical.not_imp.mp hop
    obtain ⟨k, hk⟩ | hrefused := h
    · have hlen := congrArg List.length (hk.calls.symm.trans hcalls)
      rw [List.length_drop, List.length_drop] at hlen
      have hk3 : k = 3 := by
        have h11 : kbdSetupCalls.length = 11 := rfl
        omega
      subst hk3
      have hoff : s.chip.off2 = false := Bool.eq_false_iff.mpr hon
      refine .inl ⟨.inl hcalls, hk.passed, v, ?_⟩
      show (s.chip.receive .port2 v).output = _
      rw [receive, if_pos ⟨by rw [on, hoff]; rfl, hk.phase.2.1⟩]
    · exact absurd (hrefused.calls.symm.trans hcalls) nofun

/-! ## Until the end -/

/-- The accesses to come, with what the controller has to take. -/
def rank (s : KbdSetup) : ℕ :=
  3 * s.calls.length + (if s.polled then 0 else 1) + if s.chip.input = none then 0 else 1

/-- All calls were made, and the controller has taken all. -/
def Done (s : KbdSetup) : Prop := s.calls = [] ∧ s.chip.input = none

/-- The controller is not held up. -/
lemma Phase.input_take {c : I8042} {polled : Bool} (h : Phase answer sent k c polled) :
    (c.take answer).input = none := by
  refine I8042.input_take fun v hv htest => ?_
  match k, h with
  | 0, h | 5, h | 7, h => exact absurd (hv.symm.trans h.1) nofun
  | 4, h | 6, h =>
    obtain ⟨-, hout, -⟩ | ⟨hin, -⟩ := h.1
    · exact hout
    · exact absurd (hv.symm.trans hin) nofun
  | 1, h | 2, h | 3, h | 8, h | 9, h | 10, h | 11, h =>
    -- no test waits in the input buffer
    obtain rfl | rfl := htest
    all_goals simp [Phase, hv] at h

/-- The program gets on once the controller has taken what it wrote. -/
lemma At.rank_access (h : At answer sent k s) (hin : s.chip.input = none) (hcalls : s.calls ≠ []) :
    rank s.access < rank s := by
  have hrank : rank s = 3 * s.calls.length + (if s.polled then 0 else 1) := by
    rw [rank, if_pos hin, Nat.add_zero]
  have hpolls : ∀ {polled : Bool}, polled = true → ¬ s.polled = true →
      rank { s with polled := polled } < rank s := by
    intro polled hp hp'
    show 3 * s.calls.length + (if polled then 0 else 1) + (if s.chip.input = none then 0 else 1) < _
    rw [hrank, if_pos hp, if_neg hp', if_pos hin]
    exact Nat.lt_succ_self _
  have hwrites : ∀ {call : Ps2Call} {rest : List Ps2Call} {command : Bool} {v : BYTE},
      s.calls = call :: rest → call.written = some (command, v) → rank s.access < rank s := by
    intro call rest command v hcall hw
    rw [access_written hcall hw]
    by_cases hp : s.polled = true
    · have hfull : (s.chip.write command v).input ≠ none := Option.some_ne_none _
      rw [hrank, if_pos hp, if_pos hp, rank, if_neg hfull, if_neg Bool.false_ne_true, hcall,
        List.length_cons]
      dsimp only
      omega
    · rw [if_neg hp]
      exact hpolls (decide_eq_true hin) hp
  have hreads : ∀ {want : BYTE} {rest : List Ps2Call}, s.calls = .read want :: rest →
      s.chip.output ≠ none → rank s.access < rank s := by
    intro want rest hcall hout
    rw [access_read hcall]
    by_cases hp : s.polled = true
    · have hlen : (if s.chip.read.1.2 = want then rest else []).length ≤ rest.length := by
        split_ifs
        · exact le_rfl
        · exact Nat.zero_le _
      have hin' : s.chip.read.2.input = none := hin
      rw [hrank, if_pos hp, if_pos hp, rank, if_neg Bool.false_ne_true, if_pos hin', hcall,
        List.length_cons]
      dsimp only
      omega
    · rw [if_neg hp]
      exact hpolls (decide_eq_true hout) hp
  match k, h with
  | 0, h | 1, h | 3, h | 5, h | 7, h | 8, h | 9, h | 10, h => exact hwrites h.calls rfl
  | 2, h =>
    have hcall : s.calls = .flush :: kbdSetupCalls.drop 3 := h.calls
    have hin' : s.chip.read.2.input = none := hin
    rw [hrank, access_flush hcall, rank, if_pos hin', hcall, List.length_cons]
    dsimp only
    omega
  | 4, h | 6, h =>
    refine hreads h.calls ?_
    obtain ⟨hwaits, -⟩ | ⟨-, hout⟩ := h.phase.1
    · exact absurd (hin.symm.trans hwaits) nofun
    · rw [hout]
      exact Option.some_ne_none _
  | 11, h => exact absurd h.calls hcalls

/-- The controller takes what waits, and the program makes an access. -/
def round : List Ps2Event := [.take, .access]

/-- In a round something happens, or `kbd_setup` is at its end. -/
lemma Clean.round (h : Clean answer sent s) (hdone : ¬ s.Done) :
    Clean answer sent (Run.run (KbdSetup.step answer) s round) ∧
    rank (Run.run (KbdSetup.step answer) s round) < rank s := by
  have htake : Clean answer sent (s.step answer .take) := h.step trivial
  have haccess : Clean answer sent ((s.step answer .take).step answer .access) := htake.step trivial
  refine ⟨haccess, ?_⟩
  show rank (s.step answer .take).access < rank s
  obtain ⟨k, hk⟩ | hrefused := h
  · have hk' : At answer sent k (s.step answer .take) :=
      ⟨hk.calls, hk.running, hk.phase.take, hk.passed⟩
    have hin' : (s.step answer .take).chip.input = none := Phase.input_take hk.phase
    by_cases hin : s.chip.input = none
    · have hsame : s.step answer .take = s := by
        show { s with chip := s.chip.take answer } = s
        rw [I8042.take, hin]
      rw [hsame]
      exact hk.rank_access hin fun hcalls => hdone ⟨hcalls, hin⟩
    · have hless : rank (s.step answer .take) < rank s := by
        have hcalls : (s.step answer .take).calls = s.calls := rfl
        have hpolled : (s.step answer .take).polled = s.polled := rfl
        rw [rank, rank, if_pos hin', if_neg hin, hcalls, hpolled]
        exact Nat.lt_succ_self _
      by_cases hcalls : (s.step answer .take).calls = []
      · have hsame : (s.step answer .take).access = s.step answer .take := by
          simp only [access, hcalls]
        rw [hsame]
        exact hless
      · exact (hk'.rank_access hin' hcalls).trans hless
  · exact (hdone ⟨hrefused.calls, hrefused.input⟩).elim

end KbdSetup

end Events

open KbdSetup

/-- **When the answers are those of the controller.** Let the controller be in any state in which
nothing waits in its input buffer, and let it give any answers to the tests. Then in every run of
accesses, of the controller and of the devices at both ports: the program has taken only answers of
the controller for them iff no byte came from the second port between the read that empties the
output buffer and the controller's taking of the command that switches this port off. If none came,
`kbd_setup` goes through iff both answers are the right ones, and leaves the first port on, the
second off and the interrupts on; and from every state reached it comes to its end if the controller
and the program go on.

**Proof sketch.** Each call has a condition on the buffers, which the controller and the devices
keep (`Korolev.Phase`) and which the accesses take to that of the next. A byte that comes too late
stays in the output buffer until it is read as the answer to the first test
(`Korolev.KbdSetup.Late`). -/
theorem kbd_setup_answers_iff (answer : BYTE → BYTE) {c : I8042} (hc : c.input = none)
    (ops : List Ps2Event) :
    let s := Run.run (KbdSetup.step answer) (start c) ops
    (s.answers ≠ [] →
      ((∀ a ∈ s.answers, a.1 = .controller) ↔
        Run.Along (KbdSetup.step answer) Quiet (start c) ops)) ∧
    (Run.Along (KbdSetup.step answer) Quiet (start c) ops →
      (s.calls = [] → (s.failed = false ↔ answer 0xAA = 0x55 ∧ answer 0xAB = 0)) ∧
      (s.calls = [] → s.failed = false → s.chip.config = 0x67 ∧ s.chip.on .port1 ∧
        ¬ s.chip.on .port2 ∧ (s.chip.input = none → s.chip.sent = c.sent ++ [0xFF])) ∧
      ∃ k, (Run.run (KbdSetup.step answer) s (List.replicate k KbdSetup.round).flatten).Done) := by
  intro s
  have hstart : Clean answer c.sent (start c) := .inl ⟨0, rfl, rfl, ⟨hc, rfl⟩, rfl⟩
  have hclean : Run.Along (KbdSetup.step answer) Quiet (start c) ops → Clean answer c.sent s :=
    Run.run_invariant (fun s op hs hop => hs.step hop) hstart
  refine ⟨fun hread => ⟨fun hall => ?_, fun hquiet a ha => ?_⟩, fun hquiet => ⟨?_, ?_, ?_⟩⟩
  · by_contra hloud
    have hlate : Late s := Run.run_of_not_along (fun s op hs hop => hs.step hop)
      (fun s op hs hop => hs.late hop) (fun s op hs => hs.step answer op) hstart hloud
    obtain ⟨-, hnil, -⟩ | ⟨v, hhead⟩ := hlate
    · exact hread hnil
    · exact absurd (hall _ (List.mem_of_head? hhead)) nofun
  · exact (hclean hquiet).controller a ha
  · intro hcalls
    obtain ⟨k, hk⟩ | hrefused := hclean hquiet
    · obtain rfl := hk.eq_eleven hcalls
      exact iff_of_true hk.running hk.passed.2
    · refine iff_of_false (fun hrunning => absurd (hrefused.failed.symm.trans hrunning) nofun) ?_
      obtain ⟨-, hne⟩ | ⟨-, hne⟩ := hrefused.answers
      · exact fun hpass => hne hpass.1
      · exact fun hpass => hne hpass.2
  · intro hcalls hrunning
    obtain ⟨k, hk⟩ | hrefused := hclean hquiet
    · obtain rfl := hk.eq_eleven hcalls
      obtain ⟨hin, -, hconfig, hoff, hoff2⟩ := hk.phase
      refine ⟨hconfig, by rw [on, hoff]; rfl, by rw [on, hoff2]; exact Bool.false_ne_true,
        fun hnone => ?_⟩
      obtain ⟨hwaits, -⟩ | ⟨-, hsent⟩ := hin
      · exact absurd (hnone.symm.trans hwaits) nofun
      · exact hsent
    · exact absurd (hrefused.failed.symm.trans hrunning) nofun
  · exact Run.exists_rounds rank (fun s hs hdone => hs.round hdone) (hclean hquiet)

/-- A controller with a byte of the keyboard in its output buffer. -/
def sampleController : I8042 := ⟨none, some (.port1, 0x1C), 0x47, false, false, true, []⟩

/-- The controller is slow, and a mouse sends a byte as soon as the buffer is empty. -/
theorem kbd_setup_answers_iff_mouse :
    let answer : BYTE → BYTE := fun v => if v = 0xAA then 0x55 else 0
    let ops : List Ps2Event := [.access, .access, .take, .access, .access, .access,
      .byte .port2 8, .take, .access, .access, .access, .access]
    let s := Run.run (KbdSetup.step answer) (start sampleController) ops
    (s.answers ≠ [] →
      ((∀ a ∈ s.answers, a.1 = .controller) ↔
        Run.Along (KbdSetup.step answer) Quiet (start sampleController) ops)) ∧
    (Run.Along (KbdSetup.step answer) Quiet (start sampleController) ops →
      (s.calls = [] → (s.failed = false ↔ answer 0xAA = 0x55 ∧ answer 0xAB = 0)) ∧
      (s.calls = [] → s.failed = false → s.chip.config = 0x67 ∧ s.chip.on .port1 ∧
        ¬ s.chip.on .port2 ∧
        (s.chip.input = none → s.chip.sent = sampleController.sent ++ [0xFF])) ∧
      ∃ k, (Run.run (KbdSetup.step answer) s (List.replicate k KbdSetup.round).flatten).Done) :=
  kbd_setup_answers_iff _ rfl _

/-- The test fails there though the controller has passed it. -/
example : (Run.run (KbdSetup.step fun _ => 0x55) (start sampleController) [.access, .access, .take,
    .access, .access, .access, .byte .port2 8, .take, .access, .access, .access, .access]).answers =
      [(.port2, 8)] := by decide

end Korolev
