import Korolev.Dev.E1000
import Korolev.Library.Ring
import Mathlib.Data.List.Induction

set_option relaxedAutoImplicit false
set_option autoImplicit false

/-!
# The transmit ring of the e1000 driver

`e1000_write` fills descriptor `tx_cur`, advances `tx_cur`, and hands the descriptor to the card
by moving the tail register. It then waits for the card to set the status of the descriptor, and
gives up after 100 ticks; the descriptor stays with the card. The card completes the descriptors
from its head register on until the head has reached the tail.

`e1000_write` does not look at the head, so after enough calls that gave up it overwrites
descriptors that the card still has, and it hands over the last free descriptor, after which the
full ring looks like an empty one to the card. The ring is safe as long as no call is made while
seven descriptors are still with the card.

The driver is modelled one statement at a time, with a program counter. A run is any interleaving
of calls, statements and completions; `pending` records the descriptors that were handed over and
are not completed.

## Main definitions

* `Korolev.E1000Tx` — driver and card.
* `Korolev.E1000Tx.driver`, `Korolev.E1000Tx.complete` — a statement of `e1000_write`, and a
  completion.
* `Korolev.E1000Tx.Safe` — no descriptor of the card is written, and the tail is at the head only
  if the card has none.

## Main results

* `Korolev.e1000_write_ring` — runs are safe exactly when every call finds fewer than seven
  pending descriptors.
* `Korolev.e1000_write_ring_eight_timeouts` — eight calls that give up make the ring look empty.
-/

namespace Korolev

/-- The statements of `e1000_write`: four stores to the descriptor, advancing `tx_cur`, writing
the tail, and the test and the rest of the wait loop, `timeout` ticks before it gives up. -/
inductive TxPc
  | idle
  | addr
  | length
  | cmd
  | status
  | advance
  | writeTail
  | test (timeout : ℕ)
  | sleep (timeout : ℕ)
  deriving DecidableEq, Repr

/-- `CMD_EOP | CMD_IFCS | CMD_RS | CMD_RPS | 0x02` -/
def txCmd : BYTE := UInt8.ofNat (1 <<< 0 ||| 1 <<< 1 ||| 1 <<< 3 ||| 1 <<< 4 ||| 0x02)

/-- Driver and card. -/
structure E1000Tx where
  priv : E1000Priv
  descs : ℕ → E1000TxDesc
  nic : Nic
  pc : TxPc
  /-- the arguments of the call -/
  buf : LONG
  len : LONG
  oldCur : BYTE
  /-- the result of the last call -/
  ret : Int32
  /-- the descriptors handed over and not completed, the oldest first -/
  pending : List ℕ

/-- One step: a call of `e1000_write`, a statement of it, or a completion. -/
inductive TxOp
  | write (buf len : LONG)
  | driver
  | complete

namespace E1000Tx

/-- The index of the driver. -/
def cur (s : E1000Tx) : ℕ := s.priv.txCur.toNat

def head (s : E1000Tx) : ℕ := (s.nic.reg REG_TXDESCHEAD).toNat

def tail (s : E1000Tx) : ℕ := (s.nic.reg REG_TXDESCTAIL).toNat

/-- A store to the descriptor `tx_cur`. -/
def setDesc (s : E1000Tx) (f : E1000TxDesc → E1000TxDesc) (pc : TxPc) : E1000Tx :=
  { s with descs := Function.update s.descs s.cur (f (s.descs s.cur)), pc := pc }

/-- The next statement of `e1000_write`. -/
def driver (s : E1000Tx) : E1000Tx :=
  match s.pc with
  | .idle => s
  | .addr => s.setDesc (fun desc => { desc with addr := s.buf.toUInt64 }) .length
  | .length => s.setDesc (fun desc => { desc with length := (14 + s.len + 4).toUInt16 }) .cmd
  | .cmd => s.setDesc (fun desc => { desc with cmd := txCmd }) .status
  | .status => s.setDesc (fun desc => { desc with status := 0 }) .advance
  | .advance =>
    { s with
      oldCur := s.priv.txCur.toUInt8
      priv := { s.priv with txCur := (s.priv.txCur + 1) % 8 }
      pc := .writeTail }
  | .writeTail =>
    { s with
      nic := e1000Writecmd (Nic.bus s.priv.memory s.priv.iobase) s.priv s.nic REG_TXDESCTAIL
        s.priv.txCur
      pending := s.pending ++ [s.oldCur.toNat]
      pc := .test 100 }
  | .test timeout =>
    if (s.descs s.oldCur.toNat).status &&& 0xff = 0 then { s with pc := .sleep timeout }
    else { s with pc := .idle, ret := s.len.toInt32 }
  | .sleep timeout =>
    if timeout - 1 = 0 then { s with pc := .idle, ret := 0 }
    else { s with pc := .test (timeout - 1) }

/-- A call; there is one at a time. -/
def write (s : E1000Tx) (buf len : LONG) : E1000Tx :=
  if s.pc = .idle then { s with buf := buf, len := len, pc := .addr } else s

/-- The card completes the descriptor at its head, if it sees one. -/
def complete (s : E1000Tx) : E1000Tx :=
  if s.head = s.tail then s
  else
    { s with
      descs := Function.update s.descs s.head
        { s.descs s.head with status := (s.descs s.head).status ||| TSTA_DD }
      nic := s.nic.setReg REG_TXDESCHEAD ((s.nic.reg REG_TXDESCHEAD + 1) % 8)
      pending := s.pending.erase s.head }

/-- One step. -/
def step (s : E1000Tx) : TxOp → E1000Tx
  | .write buf len => s.write buf len
  | .driver => s.driver
  | .complete => s.complete

/-- Driver and card after `e1000_txinit`, whatever was in the private block, the card and the
descriptors before. -/
def start (p : E1000Priv) (d : Nic) (descs : ℕ → E1000TxDesc) (ptr : LONG) : E1000Tx :=
  let r := e1000Txinit (Nic.bus p.memory p.iobase) p d descs ptr
  { priv := r.1, descs := r.2.1, nic := r.2.2, pc := .idle, buf := 0, len := 0, oldCur := 0,
    ret := 0, pending := [] }

/-- The next statement stores to the descriptor `tx_cur`. -/
def Filling (s : E1000Tx) : Prop :=
  s.pc = .addr ∨ s.pc = .length ∨ s.pc = .cmd ∨ s.pc = .status

/-- A call is under way and its descriptor is not yet handed over. -/
def Busy (s : E1000Tx) : Prop := s.Filling ∨ s.pc = .advance ∨ s.pc = .writeTail

/-- The driver does not write a descriptor that is with the card, and the tail is at the head
only if no descriptor is. -/
def Safe (s : E1000Tx) : Prop :=
  (s.Filling → s.cur ∉ s.pending) ∧ (s.tail = s.head → s.pending = [])

/-- A call finds fewer than seven descriptors with the card. -/
def CallFits (s : E1000Tx) : TxOp → Prop
  | .write _ _ => s.pc = .idle → s.pending.length < 7
  | _ => True

/-! ## The invariant -/

/-- The pending descriptors are the `d` ones from the head on, up to the tail. -/
structure View (s : E1000Tx) (d : ℕ) : Prop where
  lt : s.head < 8
  le : d ≤ 7
  tail : s.tail = Ring.slot 8 s.head d
  pending : s.pending = Ring.window 8 id s.head d

/-- Where the driver is: at the tail, or one ahead when the tail is about to be written. -/
def AtTail (s : E1000Tx) : Prop :=
  if s.pc = .writeTail then s.oldCur.toNat = s.tail ∧ s.cur = (s.tail + 1) % 8
  else s.cur = s.tail

/-- The invariant of runs whose calls fit. -/
def Inv (s : E1000Tx) : Prop := s.AtTail ∧ ∃ d, s.View d ∧ (s.Busy → d ≤ 6)

/-- Everything a statement does to the ring: `tx_cur` advances, the tail is written, or indices,
registers and pending descriptors stay as they are. -/
lemma driver_cases (s : E1000Tx) :
    (s.pc = .advance ∧ s.driver.pc = .writeTail ∧ s.driver.cur = (s.cur + 1) % 8 ∧
      s.driver.oldCur.toNat = s.cur % 256 ∧ s.driver.nic = s.nic ∧
      s.driver.pending = s.pending) ∨
    (s.pc = .writeTail ∧ s.driver.pc = .test 100 ∧ s.driver.cur = s.cur ∧
      s.driver.head = s.head ∧ s.driver.tail = s.cur ∧
      s.driver.pending = s.pending ++ [s.oldCur.toNat]) ∨
    (s.pc ≠ .advance ∧ s.pc ≠ .writeTail ∧ s.driver.pc ≠ .writeTail ∧ (s.driver.Busy → s.Busy) ∧
      s.driver.cur = s.cur ∧ s.driver.nic = s.nic ∧ s.driver.pending = s.pending) := by
  cases hp : s.pc with
  | advance =>
    refine .inl ⟨rfl, ?_⟩
    rw [driver, hp]
    refine ⟨rfl, toNat_add_one_mod (n := 8) (by decide) _, UInt32.toNat_toUInt8 _, rfl, rfl⟩
  | writeTail =>
    refine .inr (.inl ⟨rfl, ?_⟩)
    rw [driver, hp]
    refine ⟨rfl, rfl, ?_, ?_, rfl⟩
    · rw [head, Nic.reg, e1000Writecmd_regs rfl rfl]
      exact congrArg UInt32.toNat (Nic.reg_setReg_of_ne _ (by decide) _)
    · rw [tail, Nic.reg, e1000Writecmd_regs rfl rfl]
      exact congrArg UInt32.toNat (Nic.reg_setReg_self ..)
  | test timeout =>
    refine .inr (.inr ⟨by simp, by simp, ?_⟩)
    rw [driver, hp]
    simp only
    split_ifs <;> exact ⟨by simp, by simp [Busy, Filling], rfl, rfl, rfl⟩
  | sleep timeout =>
    refine .inr (.inr ⟨by simp, by simp, ?_⟩)
    rw [driver, hp]
    simp only
    split_ifs <;> exact ⟨by simp, by simp [Busy, Filling], rfl, rfl, rfl⟩
  | idle =>
    refine .inr (.inr ⟨by simp, by simp, ?_⟩)
    rw [driver, hp]
    exact ⟨by simp [hp], id, rfl, rfl, rfl⟩
  | _ =>
    refine .inr (.inr ⟨by simp, by simp, ?_⟩)
    rw [driver, hp]
    exact ⟨by simp [setDesc], fun _ => by simp [Busy, Filling, hp], rfl, rfl, rfl⟩

lemma Inv.driver {s : E1000Tx} (h : s.Inv) : s.driver.Inv := by
  obtain ⟨hat, d, hview, hbusy⟩ := h
  rw [AtTail] at hat
  obtain ⟨hpc, hpc', hcur, hold, hnic, hpend⟩ | ⟨hpc, hpc', hcur, hhead, htail, hpend⟩ |
    ⟨-, hpc, hpc', hbusy', hcur, hnic, hpend⟩ := s.driver_cases
  · have hhead : s.driver.head = s.head := by rw [head, hnic, head]
    have htail : s.driver.tail = s.tail := by rw [tail, hnic, tail]
    rw [if_neg (by simp [hpc])] at hat
    have hlt : s.tail < 8 := hview.tail ▸ Ring.slot_lt hview.lt d
    refine ⟨?_, d, ⟨hhead ▸ hview.lt, hview.le, ?_, ?_⟩, fun _ => hbusy (.inr (.inl hpc))⟩
    · rw [AtTail, if_pos hpc', hold, hcur, htail, hat]
      exact ⟨Nat.mod_eq_of_lt (by omega), rfl⟩
    · rw [htail, hhead, hview.tail]
    · rw [hpend, hhead, hview.pending]
  · rw [if_pos hpc] at hat
    have hle : d ≤ 6 := hbusy (.inr (.inr hpc))
    refine ⟨?_, d + 1, ⟨hhead ▸ hview.lt, by omega, ?_, ?_⟩, fun hb => ?_⟩
    · rw [AtTail, if_neg (by simp [hpc']), hcur, htail]
    · rw [htail, hat.2, hhead, hview.tail, Ring.slot_succ]
    · rw [hpend, hat.1, hview.tail, hhead, hview.pending]
      simp [Ring.window, List.range_succ]
    · simp [Busy, Filling, hpc'] at hb
  · have hhead : s.driver.head = s.head := by rw [head, hnic, head]
    have htail : s.driver.tail = s.tail := by rw [tail, hnic, tail]
    rw [if_neg hpc] at hat
    refine ⟨?_, d, ⟨hhead ▸ hview.lt, hview.le, ?_, ?_⟩, fun hb => hbusy (hbusy' hb)⟩
    · rw [AtTail, if_neg hpc', hcur, htail, hat]
    · rw [htail, hhead, hview.tail]
    · rw [hpend, hhead, hview.pending]

/-- A completion takes the oldest pending descriptor away. -/
lemma Inv.complete {s : E1000Tx} (h : s.Inv) : s.complete.Inv := by
  obtain ⟨hat, d, hview, hbusy⟩ := h
  rw [E1000Tx.complete]
  split_ifs with hht
  · exact ⟨hat, d, hview, hbusy⟩
  · have hle := hview.le
    -- the head is not at the tail, so a descriptor is pending
    obtain ⟨e, rfl⟩ : ∃ e, d = e + 1 := by
      cases d with
      | zero => exact absurd (hview.tail.trans (Ring.slot_zero hview.lt)).symm hht
      | succ e => exact ⟨e, rfl⟩
    set t : E1000Tx := { s with
      descs := Function.update s.descs s.head
        { s.descs s.head with status := (s.descs s.head).status ||| TSTA_DD }
      nic := s.nic.setReg REG_TXDESCHEAD ((s.nic.reg REG_TXDESCHEAD + 1) % 8)
      pending := s.pending.erase s.head } with ht
    have hhead : t.head = (s.head + 1) % 8 := by
      rw [head, ht]
      simp only
      rw [Nic.reg_setReg_self, toNat_add_one_mod (n := 8) (by decide)]
      rfl
    have htail : t.tail = s.tail := by
      rw [tail, ht]
      simp only
      rw [Nic.reg_setReg_of_ne _ (by decide), tail]
    refine ⟨?_, e, ⟨?_, by omega, ?_, ?_⟩, fun hb => ?_⟩
    · rw [AtTail, htail]
      exact hat
    · rw [hhead]
      exact Nat.mod_lt _ (by omega)
    · rw [htail, hhead, hview.tail, Ring.slot_succ_left]
    · rw [hhead, ht]
      simp only
      rw [hview.pending, Ring.window_pop hview.lt]
      exact List.erase_cons_head ..
    · have := hbusy hb
      omega

/-- A call that fits starts with fewer than seven pending descriptors. -/
lemma Inv.write {s : E1000Tx} (h : s.Inv) (buf len : LONG)
    (hfits : s.pc = .idle → s.pending.length < 7) : (s.write buf len).Inv := by
  obtain ⟨hat, d, hview, hbusy⟩ := h
  rw [E1000Tx.write]
  split_ifs with hpc
  · have hlen := hfits hpc
    rw [hview.pending, Ring.window, List.length_map, List.length_range] at hlen
    rw [AtTail, if_neg (by simp [hpc])] at hat
    exact ⟨hat, d, ⟨hview.lt, hview.le, hview.tail, hview.pending⟩, fun _ => by omega⟩
  · exact ⟨hat, d, hview, hbusy⟩

lemma Inv.step {s : E1000Tx} (h : s.Inv) {op : TxOp} (hfits : s.CallFits op) :
    (s.step op).Inv := by
  cases op with
  | write buf len => exact h.write buf len hfits
  | driver => exact h.driver
  | complete => exact h.complete

/-- After `e1000_txinit` nothing is pending. -/
lemma start_inv (p : E1000Priv) (d : Nic) (descs : ℕ → E1000TxDesc) (ptr : LONG) :
    (start p d descs ptr).Inv := by
  obtain ⟨hpriv, -, hhead, htail⟩ := e1000Txinit_nic p d ptr descs
  have hcur : (start p d descs ptr).cur = 0 := by
    rw [cur, start]
    simp only [hpriv]
    rfl
  have hhead' : (start p d descs ptr).head = 0 := congrArg UInt32.toNat hhead
  have htail' : (start p d descs ptr).tail = 0 := congrArg UInt32.toNat htail
  refine ⟨hcur.trans htail'.symm, 0, ⟨by omega, by omega, ?_, rfl⟩, fun hb => by omega⟩
  rw [hhead', htail']
  rfl

/-- The invariant is safety, and more. -/
lemma Inv.safe {s : E1000Tx} (h : s.Inv) : s.Safe := by
  obtain ⟨hat, d, hview, -⟩ := h
  have hle := hview.le
  refine ⟨fun hfill => ?_, fun hht => ?_⟩
  · have hpc : s.pc ≠ .writeTail := by
      rcases hfill with h | h | h | h <;> simp [h]
    rw [AtTail, if_neg hpc] at hat
    rw [hat, hview.tail, hview.pending, Ring.window, List.mem_map]
    rintro ⟨k, hk, hslot⟩
    have hlt : k < d := List.mem_range.mp hk
    exact absurd ((Ring.slot_inj (by omega) (by omega)).mp hslot) (by omega)
  · have hzero : d = 0 := by
      have hinj := Ring.slot_inj (a := s.head) (k := d) (l := 0) (n := 8) (by omega) (by omega)
      rw [Ring.slot_zero hview.lt, ← hview.tail] at hinj
      exact hinj.mp hht
    rw [hview.pending, hzero, Ring.window_zero]

/-! ## Calls without completions -/

/-- The four stores to the descriptor, the last of which clears its status. -/
lemma driver_fill {s : E1000Tx} (hpc : s.pc = .addr) :
    ∃ descs, s.driver.driver.driver.driver = { s with descs := descs, pc := .advance } ∧
      (descs s.cur).status = 0 := by
  let a₁ := s.setDesc (fun desc => { desc with addr := s.buf.toUInt64 }) .length
  let a₂ := a₁.setDesc (fun desc => { desc with length := (14 + s.len + 4).toUInt16 }) .cmd
  let a₃ := a₂.setDesc (fun desc => { desc with cmd := txCmd }) .status
  let a₄ := a₃.setDesc (fun desc => { desc with status := 0 }) .advance
  have haddr : s.driver = a₁ := by rw [driver, hpc]
  have hrest : a₁.driver.driver.driver = a₄ := rfl
  have hstatus : (a₄.descs s.cur).status = 0 := by
    have hself : a₄.descs s.cur = { a₃.descs s.cur with status := 0 } := Function.update_self ..
    rw [hself]
  rw [haddr, hrest]
  exact ⟨a₄.descs, rfl, hstatus⟩

/-- A call up to its wait loop: the descriptor is handed over, whatever is pending. -/
lemma run_handOver {s : E1000Tx} (hpc : s.pc = .addr) (hcur : s.cur < 8) :
    ∃ t : E1000Tx, Run.run step s (List.replicate 6 .driver) = t ∧ t.pc = .test 100 ∧
      t.cur = (s.cur + 1) % 8 ∧ t.head = s.head ∧ t.tail = (s.cur + 1) % 8 ∧
      t.pending = s.pending ++ [s.cur] ∧ (t.descs t.oldCur.toNat).status = 0 := by
  obtain ⟨descs, hfill, hstatus⟩ := driver_fill hpc
  set a : E1000Tx := { s with descs := descs, pc := .advance } with ha
  have hrun : Run.run step s (List.replicate 6 .driver) = a.driver.driver := by
    rw [← hfill]
    rfl
  refine ⟨_, hrun, ?_⟩
  obtain ⟨-, hpc₁, hcur₁, hold₁, hnic₁, hpend₁⟩ | ⟨h, -⟩ | ⟨h, -⟩ := a.driver_cases
  · obtain ⟨h, -⟩ | ⟨-, hpc₂, hcur₂, hhead₂, htail₂, hpend₂⟩ | ⟨-, h, -⟩ := a.driver.driver_cases
    · simp [hpc₁] at h
    · have hlt : s.cur % 256 = s.cur := Nat.mod_eq_of_lt (by omega)
      have hold : a.driver.oldCur.toNat = s.cur := hold₁.trans hlt
      refine ⟨hpc₂, hcur₂.trans hcur₁, ?_, htail₂.trans hcur₁, ?_, ?_⟩
      · rw [hhead₂, head, hnic₁]
        rfl
      · rw [hpend₂, hpend₁, hold]
      · -- the descriptors and `old_cur` are not touched by the last two statements
        have hdescs : (a.driver.driver.descs a.driver.driver.oldCur.toNat) =
            descs a.driver.oldCur.toNat := rfl
        rw [hdescs, hold]
        exact hstatus
    · exact absurd hpc₁ h
  · simp [ha] at h
  · simp [ha] at h

/-- The wait loop gives up if the status stays clear. -/
lemma run_wait {s : E1000Tx} {timeout : ℕ} (hpc : s.pc = .test (timeout + 1))
    (hstatus : (s.descs s.oldCur.toNat).status = 0) :
    Run.run step s (List.replicate (2 * (timeout + 1)) .driver) =
      { s with pc := .idle, ret := 0 } := by
  induction timeout generalizing s with
  | zero =>
    have htest : s.driver = { s with pc := .sleep 1 } := by
      rw [driver, hpc]
      simp [hstatus]
    change s.driver.driver = _
    rw [htest]
    rfl
  | succ timeout ih =>
    have htest : s.driver = { s with pc := .sleep (timeout + 2) } := by
      rw [driver, hpc]
      simp [hstatus]
    have hsleep : s.driver.driver = { s with pc := .test (timeout + 1) } := by
      rw [htest]
      rfl
    have hrep : List.replicate (2 * (timeout + 1 + 1)) TxOp.driver =
        .driver :: .driver :: List.replicate (2 * (timeout + 1)) .driver := rfl
    rw [hrep, Run.run_cons, Run.run_cons]
    change Run.run step s.driver.driver _ = _
    rw [hsleep]
    exact ih rfl hstatus

/-- A call during which the card does nothing. -/
def timedOut (buf len : LONG) : List TxOp := .write buf len :: List.replicate 206 .driver

/-- After a call that gave up its descriptor is pending. -/
lemma run_timedOut {s : E1000Tx} (hpc : s.pc = .idle) (hcur : s.cur < 8) (buf len : LONG) :
    ∃ t : E1000Tx, Run.run step s (timedOut buf len) = t ∧ t.pc = .idle ∧
      t.cur = (s.cur + 1) % 8 ∧ t.head = s.head ∧ t.tail = (s.cur + 1) % 8 ∧
      t.pending = s.pending ++ [s.cur] := by
  have hsplit : List.replicate 206 TxOp.driver =
      List.replicate 6 .driver ++ List.replicate (2 * (99 + 1)) .driver := rfl
  set a : E1000Tx := { s with buf := buf, len := len, pc := .addr } with ha
  have hwrite : step s (.write buf len) = a := by
    rw [step, write, if_pos hpc]
  obtain ⟨t, hrun, hpc', hcur', hhead, htail, hpend, hstatus⟩ := run_handOver (s := a) rfl hcur
  refine ⟨{ t with pc := .idle, ret := 0 }, ?_, rfl, hcur', hhead, htail, hpend⟩
  rw [timedOut, Run.run_cons, hwrite, hsplit, Run.run_append, hrun, run_wait hpc' hstatus]

/-- After `n` calls that gave up `n` descriptors are pending, and the tail has moved `n` times. -/
lemma run_timedOut_flatten {s : E1000Tx} (hpc : s.pc = .idle) (hcur : s.cur < 8)
    (htail : s.tail = s.cur) (buf len : LONG) (n : ℕ) :
    ∃ t : E1000Tx, Run.run step s (List.replicate n (timedOut buf len)).flatten = t ∧
      t.head = s.head ∧ t.tail = (s.cur + n) % 8 ∧
      t.pending.length = s.pending.length + n := by
  induction n generalizing s with
  | zero => exact ⟨s, rfl, rfl, by rw [htail, Nat.add_zero, Nat.mod_eq_of_lt hcur], rfl⟩
  | succ n ih =>
    obtain ⟨t, hrun, hpc', hcur', hhead, htail', hpend⟩ := run_timedOut hpc hcur buf len
    obtain ⟨u, hrun', hhead', htail'', hlen⟩ :=
      ih hpc' (hcur' ▸ Nat.mod_lt _ (by omega)) (htail'.trans hcur'.symm)
    refine ⟨u, ?_, hhead'.trans hhead, ?_, ?_⟩
    · rw [List.replicate_succ, List.flatten_cons, Run.run_append, hrun, hrun']
    · rw [htail'', hcur', Nat.mod_add_mod, Nat.add_assoc, Nat.add_comm 1 n]
    · rw [hlen, hpend, List.length_append, List.length_singleton]
      omega

/-- A call made while seven descriptors are pending hands the last one over, unless the card
completes one in time. -/
lemma View.not_safe {s : E1000Tx} (hview : s.View 7) (hat : s.AtTail) (hpc : s.pc = .idle)
    (buf len : LONG) :
    ¬(Run.run step (s.step (.write buf len)) (List.replicate 6 .driver)).Safe := by
  rw [AtTail, if_neg (by simp [hpc])] at hat
  have hlt : s.tail < 8 := hview.tail ▸ Ring.slot_lt hview.lt 7
  have hwrite : s.step (.write buf len) = { s with buf := buf, len := len, pc := .addr } := by
    rw [step, write, if_pos hpc]
  obtain ⟨t, hrun, -, -, hhead, htail, hpend, -⟩ :=
    run_handOver (s := { s with buf := buf, len := len, pc := .addr }) rfl (hat ▸ hlt)
  rw [hwrite, hrun]
  intro hsafe
  have hfull : t.tail = t.head := by
    rw [htail, hhead]
    change (s.cur + 1) % 8 = s.head
    rw [hat, hview.tail, Ring.slot_succ, Ring.slot, Nat.add_mod_right, Nat.mod_eq_of_lt hview.lt]
  have hnil := hsafe.2 hfull
  rw [hpend] at hnil
  simp at hnil

/-- The driver keeps the invariant by itself. -/
lemma Inv.run_driver {s : E1000Tx} (h : s.Inv) (n : ℕ) :
    (Run.run E1000Tx.step s (List.replicate n .driver)).Inv := by
  induction n generalizing s with
  | zero => exact h
  | succ n ih =>
    rw [List.replicate_succ, Run.run_cons]
    exact ih h.driver

/-- A request after which the driver stays safe, even if the card completes nothing more, fits. -/
lemma Inv.callFits {s : E1000Tx} (h : s.Inv) {op : TxOp}
    (hsafe : ∀ n, (Run.run E1000Tx.step (s.step op) (List.replicate n .driver)).Safe) :
    s.CallFits op := by
  cases op with
  | driver => trivial
  | complete => trivial
  | write buf len =>
    intro hpc
    obtain ⟨hat, d, hview, -⟩ := h
    rw [hview.pending, Ring.window, List.length_map, List.length_range]
    refine lt_of_le_of_ne hview.le ?_
    rintro rfl
    exact hview.not_safe hat hpc buf len (hsafe 6)

end E1000Tx

/-- **The transmit ring.** Of every run of calls, statements and completions from `e1000_txinit`
on: every call in it is made with fewer than seven descriptors pending, iff in every state it
reaches, and in those that the driver goes on to reach if the card completes nothing more, no
pending descriptor is written and the tail is at the head only if none is pending.

**Proof sketch.** From left to right by the invariant, which holds along the run and is kept by
the driver's statements. From right to left by induction on the run: the first call that finds
seven pending descriptors goes on to hand over the last one. -/
theorem e1000_write_ring (p : E1000Priv) (nic : Nic) (descs : ℕ → E1000TxDesc) (ptr : LONG)
    (ops : List TxOp) :
    Run.Along E1000Tx.step E1000Tx.CallFits (E1000Tx.start p nic descs ptr) ops ↔
      ∀ pre post, ops = pre ++ post → ∀ n, (Run.run E1000Tx.step (E1000Tx.start p nic descs ptr)
        (pre ++ List.replicate n .driver)).Safe := by
  have hinv : ∀ ops, Run.Along E1000Tx.step E1000Tx.CallFits (E1000Tx.start p nic descs ptr) ops →
      (Run.run E1000Tx.step (E1000Tx.start p nic descs ptr) ops).Inv := fun ops hok =>
    Run.run_invariant (fun _ _ h hop => h.step hop) (E1000Tx.start_inv p nic descs ptr) hok
  constructor
  · rintro hok pre post rfl n
    rw [Run.along_append] at hok
    rw [Run.run_append]
    exact ((hinv pre hok.1).run_driver n).safe
  · intro hsafe
    induction ops using List.reverseRecOn with
    | nil => trivial
    | append_singleton ops op ih =>
      have hok := ih fun pre post h n => hsafe pre (post ++ [op]) (by rw [h, List.append_assoc]) n
      rw [Run.along_append]
      refine ⟨hok, (hinv ops hok).callFits fun n => ?_, trivial⟩
      have hrun := hsafe (ops ++ [op]) [] (List.append_nil _).symm n
      rwa [Run.run_append, Run.run_append] at hrun

/-- Eight calls that give up, the card completing nothing: all descriptors are pending and the
tail is back at the head. -/
theorem e1000_write_ring_eight_timeouts :
    ¬(Run.run E1000Tx.step
      (E1000Tx.start .zero ⟨fun _ => 0, 0⟩ (fun _ => ⟨0, 0, 0, 0⟩) 0x100000)
      (List.replicate 8 (E1000Tx.timedOut 0x200000 60)).flatten).Safe := by
  obtain ⟨t, hrun, hhead, htail, hlen⟩ := E1000Tx.run_timedOut_flatten
    (s := E1000Tx.start .zero ⟨fun _ => 0, 0⟩ (fun _ => ⟨0, 0, 0, 0⟩) 0x100000)
    rfl (by decide) (by decide) 0x200000 60 8
  rw [hrun]
  intro hsafe
  have hnil := hsafe.2 (by rw [htail, hhead]; decide)
  rw [hnil] at hlen
  simp at hlen

end Korolev
