import Korolev.Kernel.Text
import Korolev.Library.Run
import Korolev.Library.Uart
import Mathlib.Algebra.Order.BigOperators.Group.List

set_option relaxedAutoImplicit false
set_option autoImplicit false

/-!
# The serial line

`serial_write` of `dev/serial.c` waits until the queue of the transmitter is empty and writes a
byte; a line feed becomes two bytes, and the second is written without waiting again. `put` calls it
for every character. The handlers of the network card and of the disk print, too, so a call may be
interrupted between any two accesses of a port by another call, which returns before the first goes
on; and the transmitter works meanwhile at its own speed.

## Main definitions

* `Korolev.serialSetupPort` — the words that set up a port.
* `Korolev.SerialLine`, `Korolev.SerialLine.step` — the transmitter and the calls under way, access
  by access.
* `Korolev.SerialLine.Inv` — what waits and what will be written without waiting fits the queue.

## Main results

* `Korolev.puts_serialOut` — what the console sends for a text.
* `Korolev.serial_line` — every byte is sent once, and in order where calls do not interrupt calls.
-/

namespace Korolev

/-- `serial_hwport[port]`, where `behind` is found behind the table. -/
def serialHwport (behind : WORD → WORD) (port : WORD) : WORD :=
  if port = 0 then 0x3f8
  else if port = 1 then 0x2f8
  else if port = 2 then 0x3e8
  else if port = 3 then 0x2e8
  else behind port

/-- What `serial_setup_port(port)` writes. -/
def serialSetupPort (behind : WORD → WORD) (port : WORD) : List (WORD × BYTE) :=
  let hwport := serialHwport behind port
  [(hwport + 1, 0x00), (hwport + 3, 0x80), (hwport + 0, 0x01), (hwport + 1, 0x00),
    (hwport + 3, 0x03), (hwport + 2, 0xC7), (hwport + 4, 0x0B)]

/-- `outb(port, v)`, with the registers of a UART from `hwport` on. -/
def serialOutb (hwport : WORD) (u : Uart) (w : WORD × BYTE) : Uart :=
  u.write (w.1 - hwport).toNat w.2

/-- `inb(port)`, of which the line status register is covered. -/
def serialInb (hwport : WORD) (u : Uart) (port : WORD) : BYTE :=
  if port - hwport = 5 then u.lsr else 0

/-- `serial_empty(port)` -/
def serialEmpty (behind : WORD → WORD) (port : WORD) (u : Uart) : LONG :=
  let hwport := serialHwport behind port
  (serialInb hwport u (hwport + 5)).toUInt32 &&& 0x20

/-- The port after `serial_setup_port(port)`. -/
def serialAfterSetup (behind : WORD → WORD) (port : WORD) (u : Uart) : Uart :=
  (serialSetupPort behind port).foldl (serialOutb (serialHwport behind port)) u

/-- Where a call of `serial_write` is: in the loop, or before it writes a byte, with those behind
it. -/
inductive SerialCall where
  | poll (data : BYTE)
  | out (v : BYTE) (rest : List BYTE)
  deriving DecidableEq

/-- The UART and the calls under way, the one that runs first. -/
structure SerialLine where
  uart : Uart
  calls : List SerialCall

/-- What happens: `serial_write` is called, in the program or in a handler that interrupts it; the
call that runs makes its next access of a port; the shift register takes a byte, or has sent it. -/
inductive SerialEvent where
  | write (data : BYTE)
  | access
  | load
  | send
  deriving DecidableEq

namespace SerialLine

/-- One event at a port. -/
def step (behind : WORD → WORD) (port : WORD) (s : SerialLine) : SerialEvent → SerialLine
  | .write data => { s with calls := .poll data :: s.calls }
  | .access =>
    match s.calls with
    | [] => s
    | .poll data :: calls =>
      if serialEmpty behind port s.uart = 0 then s
      else if data = 10 then { s with calls := .out 13 [10] :: calls }
      else { s with calls := .out data [] :: calls }
    | .out v rest :: calls =>
      { uart := serialOutb (serialHwport behind port) s.uart (serialHwport behind port, v)
        calls := match rest with
          | [] => calls
          | v' :: rest' => .out v' rest' :: calls }
  | .load => { s with uart := s.uart.load }
  | .send => { s with uart := s.uart.send }

end SerialLine

/-! ## What is to be sent -/

/-- The bytes sent for a character. -/
def serialBytes (c : BYTE) : List BYTE := if c = 10 then [13, 10] else [c]

/-- The bytes a call has not written yet. -/
def SerialCall.left : SerialCall → List BYTE
  | .poll data => serialBytes data
  | .out v rest => v :: rest

/-- The bytes a call will write without waiting. -/
def SerialCall.unpolled : SerialCall → ℕ
  | .poll _ => 0
  | .out _ rest => rest.length + 1

/-- The character whose printing begins with an event. -/
def SerialEvent.data : SerialEvent → Option BYTE
  | .write c => some c
  | _ => none

/-- The bytes to send for an event. -/
def SerialEvent.bytes (op : SerialEvent) : List BYTE := op.data.toList.flatMap serialBytes

namespace SerialLine

/-- The bytes that the calls under way have not written yet. -/
def left (s : SerialLine) : List BYTE := s.calls.flatMap SerialCall.left

/-- The bytes that they will write without waiting. -/
def unpolled (s : SerialLine) : ℕ := (s.calls.map SerialCall.unpolled).sum

/-- Everything was sent. -/
def Done (s : SerialLine) : Prop := s.calls = [] ∧ s.uart.thr = [] ∧ s.uart.shift = none

end SerialLine

lemma length_serialBytes_le (c : BYTE) : (serialBytes c).length ≤ 2 := by
  unfold serialBytes
  split_ifs
  · exact le_rfl
  · exact Nat.le_succ 1

/-! ## The console -/

/-- What the console has of the serial port. -/
def Text.port (s : Text) : BYTE × List BYTE := (s.serialStatus, s.serialOut)

lemma outb_port (s : Text) (port : WORD) (v : BYTE) : (s.outb port v).port = s.port := by
  unfold Text.outb
  split_ifs <;> rfl

lemma updCur_port (s : Text) : (updCur s).port = s.port := by
  unfold updCur
  simp only [outb_port]

/-- `move_cur` leaves the serial port alone. -/
lemma moveCur_port (s : Text) : (moveCur s).port = s.port := by
  have hupd : ∀ s : Text, (if s.strm = 0 then updCur s else s).port = s.port := by
    intro s
    split_ifs
    · exact updCur_port s
    · rfl
  unfold moveCur
  dsimp only
  rw [hupd]
  split_ifs <;> rfl

/-- `put` sends the bytes of a character, if the port is set up. -/
lemma put_port (s : Text) (c : BYTE) (h : s.serialStatus ≠ 0) :
    (put s c).port = (s.serialStatus, s.serialOut ++ serialBytes c) := by
  have hserial : (if s.serialStatus ≠ 0 then serialWrite s c else s) =
      { s with serialOut := s.serialOut ++ serialBytes c } := by
    rw [if_pos h, serialWrite, serialBytes]
    split_ifs <;> rfl
  rw [put, hserial]
  dsimp only
  split_ifs
  · exact moveCur_port _
  · rfl
  · rfl
  · rfl
  · exact moveCur_port _

/-- **What the console sends for a text.** -/
lemma puts_serialOut (s : Text) (str : List BYTE) (h : s.serialStatus ≠ 0) :
    (puts s str).serialOut = s.serialOut ++ str.flatMap serialBytes := by
  have hrun : ∀ (str : List BYTE) (s : Text), s.serialStatus ≠ 0 →
      (str.foldl put s).serialOut = s.serialOut ++ str.flatMap serialBytes := by
    intro str
    induction str with
    | nil => exact fun s _ => (List.append_nil _).symm
    | cons c str ih =>
      intro s hs
      obtain ⟨hstatus, hout⟩ := Prod.mk.inj (put_port s c hs)
      rw [List.foldl_cons, ih _ (by rw [hstatus]; exact hs), hout, List.flatMap_cons,
        List.append_assoc]
  have hupd : ∀ s : Text, (updCur s).serialOut = s.serialOut :=
    fun s => congrArg Prod.snd (updCur_port s)
  unfold puts
  dsimp only
  rw [hupd]
  exact hrun str _ h

/-! ## One event -/

lemma serialOutb_base (hwport : WORD) (u : Uart) (v : BYTE) :
    serialOutb hwport u (hwport, v) = u.write 0 v := by
  show u.write (hwport - hwport).toNat v = _
  rw [UInt16.sub_self]
  rfl

/-- `serial_empty` says whether the queue is empty. -/
lemma serialEmpty_eq_zero_iff (behind : WORD → WORD) (port : WORD) (u : Uart) :
    serialEmpty behind port u = 0 ↔ u.thr ≠ [] := by
  have hreg : ∀ hwport : WORD, hwport + 5 - hwport = 5 :=
    fun hwport => by rw [UInt16.add_comm, UInt16.add_sub_cancel]
  have hwiden : u.lsr.toUInt32 &&& 0x20 = (u.lsr &&& 0x20).toUInt32 := by
    rw [UInt8.toUInt32_and]
    rfl
  have hzero : (u.lsr &&& 0x20).toUInt32 = 0 ↔ u.lsr &&& 0x20 = 0 := by
    rw [← UInt32.toNat_inj, ← UInt8.toNat_inj, UInt8.toNat_toUInt32]
    rfl
  rw [serialEmpty, serialInb, if_pos (hreg _), hwiden, hzero]
  exact not_iff_not.mp (u.lsr_and_iff.trans not_ne_iff.symm)

/-- **A port that was set up** sends at the full speed of the line, from an empty queue; only the
byte in the shift register is left of what was written before. Interrupts are not switched off if
the first write went to the divisor. -/
lemma serialAfterSetup_eq (behind : WORD → WORD) (port : WORD) (u : Uart) :
    serialAfterSetup behind port u =
      { u with
        lcr := 3, ier := if u.dlab then u.ier else 0, mcr := 0x0B, dll := 1, dlm := 0
        fifos := true, thr := [] } := by
  have hreg : ∀ hwport r : WORD, hwport + r - hwport = r :=
    fun hwport r => by rw [UInt16.add_comm, UInt16.add_sub_cancel]
  have hmcr : (0x0B : BYTE) &&& 0x1F = 0x0B := rfl
  simp only [serialAfterSetup, serialSetupPort, List.foldl_cons, List.foldl_nil, serialOutb, hreg]
  -- what the first write goes to depends on the state before
  cases hdlab : u.lcr.toBitVec[7] with
  | false => simp [Uart.write, Uart.fcr, Uart.dlab, hdlab, hmcr]
  | true => simp [Uart.write, Uart.fcr, Uart.dlab, hdlab, hmcr]

section Step

variable {behind : WORD → WORD} {port : WORD} {s : SerialLine}

/-- A call that has these bytes to write, if there is one. -/
def SerialCall.ofBytes : List BYTE → List SerialCall
  | [] => []
  | v :: rest => [.out v rest]

lemma SerialCall.left_ofBytes (bs : List BYTE) :
    (ofBytes bs).flatMap SerialCall.left = bs := by
  cases bs with
  | nil => rfl
  | cons v rest => exact List.append_nil _

lemma SerialCall.unpolled_ofBytes (bs : List BYTE) :
    ((ofBytes bs).map SerialCall.unpolled).sum = bs.length ∧
    (∀ c ∈ ofBytes bs, c.unpolled = bs.length) ∧ (ofBytes bs).length ≤ 1 := by
  cases bs with
  | nil => exact ⟨rfl, nofun, Nat.zero_le _⟩
  | cons v rest =>
    refine ⟨rfl, fun c hc => ?_, le_rfl⟩
    rw [List.mem_singleton.mp hc]
    rfl

/-- **What an access does**: it polls a queue that is not empty, or no call is under way; it finds
the queue empty; or it writes a byte. -/
lemma SerialLine.access_cases (behind : WORD → WORD) (port : WORD) (s : SerialLine) :
    (s.step behind port .access = s ∧ (s.calls = [] ∨ s.uart.thr ≠ [])) ∨
    (∃ data calls, s.calls = .poll data :: calls ∧ s.uart.thr = [] ∧
      s.step behind port .access =
        { s with calls := SerialCall.ofBytes (serialBytes data) ++ calls }) ∨
    ∃ v rest calls, s.calls = .out v rest :: calls ∧
      s.step behind port .access = ⟨s.uart.write 0 v, SerialCall.ofBytes rest ++ calls⟩ := by
  obtain ⟨u, calls⟩ := s
  match calls with
  | [] => exact .inl ⟨rfl, .inl rfl⟩
  | .poll data :: calls =>
    by_cases hthr : u.thr = []
    · refine .inr (.inl ⟨data, calls, rfl, hthr, ?_⟩)
      simp only [step, serialEmpty_eq_zero_iff, hthr, ne_eq, not_true_eq_false, if_false,
        serialBytes]
      split_ifs <;> rfl
    · refine .inl ⟨?_, .inr hthr⟩
      simp only [step, serialEmpty_eq_zero_iff, ne_eq, hthr, not_false_eq_true, if_true]
  | .out v rest :: calls =>
    refine .inr (.inr ⟨v, rest, calls, rfl, ?_⟩)
    simp only [step, serialOutb_base]
    cases rest <;> rfl

/-- Between events: the port is set up, no more than eight calls are under way, and what waits in
the queue and what will be written without waiting fits it. -/
structure SerialLine.Inv (s : SerialLine) : Prop where
  ready : s.uart.Ready
  depth : s.calls.length ≤ 8
  two : ∀ c ∈ s.calls, c.unpolled ≤ 2
  fits : s.uart.thr.length + s.unpolled ≤ 16

/-- **Every event keeps what waits within the queue.** -/
lemma SerialLine.Inv.step (h : s.Inv) {op : SerialEvent}
    (hop : op.data ≠ none → s.calls.length < 8) : (s.step behind port op).Inv := by
  obtain ⟨hready, hdepth, htwo, hfits⟩ := h
  cases op with
  | write data =>
    refine ⟨hready, hop (Option.some_ne_none _), fun c hc => ?_, ?_⟩
    · rcases List.mem_cons.mp hc with rfl | hc
      · exact Nat.zero_le _
      · exact htwo c hc
    · show s.uart.thr.length + (0 + s.unpolled) ≤ 16
      rw [Nat.zero_add]
      exact hfits
  | load => exact ⟨hready.load, hdepth, htwo,
      (Nat.add_le_add_right s.uart.length_thr_load_le _).trans hfits⟩
  | send =>
    refine ⟨hready.send, hdepth, htwo, ?_⟩
    show s.uart.send.thr.length + s.unpolled ≤ 16
    rw [Uart.thr_send]
    exact hfits
  | access =>
    obtain ⟨hsame, -⟩ | ⟨data, calls, hcalls, hthr, hstep⟩ | ⟨v, rest, calls, hcalls, hstep⟩ :=
      s.access_cases behind port
    · rw [hsame]
      exact ⟨hready, hdepth, htwo, hfits⟩
    · -- the queue is empty, and each of the calls has two bytes at most
      obtain ⟨-, hone, hlen⟩ := SerialCall.unpolled_ofBytes (serialBytes data)
      rw [hcalls, List.length_cons] at hdepth
      rw [hstep]
      have hdepth' : (SerialCall.ofBytes (serialBytes data) ++ calls).length ≤ 8 := by
        rw [List.length_append]
        omega
      have htwo' : ∀ c ∈ SerialCall.ofBytes (serialBytes data) ++ calls, c.unpolled ≤ 2 := by
        intro c hc
        rcases List.mem_append.mp hc with hc | hc
        · rw [hone c hc]
          exact length_serialBytes_le data
        · exact htwo c (by rw [hcalls]; exact List.mem_cons_of_mem _ hc)
      refine ⟨hready, hdepth', htwo', ?_⟩
      have hsum := List.sum_le_card_nsmul
        ((SerialCall.ofBytes (serialBytes data) ++ calls).map SerialCall.unpolled) 2
        (List.forall_mem_map.mpr htwo')
      rw [List.length_map, nsmul_eq_mul, Nat.cast_id] at hsum
      show s.uart.thr.length +
        ((SerialCall.ofBytes (serialBytes data) ++ calls).map SerialCall.unpolled).sum ≤ 16
      rw [hthr, List.length_nil]
      omega
    · obtain ⟨hsum, hone, hlen⟩ := SerialCall.unpolled_ofBytes rest
      have hunpolled : s.unpolled = rest.length + 1 + (calls.map SerialCall.unpolled).sum := by
        rw [unpolled, hcalls]
        rfl
      have hwrite := hready.write v (by omega)
      have hlast : rest.length + 1 ≤ 2 :=
        htwo (.out v rest) (by rw [hcalls]; exact List.mem_cons_self)
      rw [hcalls, List.length_cons] at hdepth
      rw [hstep, hwrite]
      refine ⟨⟨hready.dlab, hready.fifos⟩, ?_, fun c hc => ?_, ?_⟩
      · show (SerialCall.ofBytes rest ++ calls).length ≤ 8
        rw [List.length_append]
        omega
      · rcases List.mem_append.mp hc with hc | hc
        · rw [hone c hc]
          omega
        · exact htwo c (by rw [hcalls]; exact List.mem_cons_of_mem _ hc)
      · show (s.uart.thr ++ [v]).length +
          ((SerialCall.ofBytes rest ++ calls).map SerialCall.unpolled).sum ≤ 16
        rw [List.map_append, List.sum_append, hsum, List.length_append, List.length_singleton]
        omega

/-- **No event loses a byte** or changes the order: the bytes of a new call come before what was
left. -/
lemma SerialLine.Inv.line_step (h : s.Inv) (op : SerialEvent) :
    (s.step behind port op).uart.line ++ (s.step behind port op).left =
      s.uart.line ++ (op.bytes ++ s.left) := by
  cases op with
  | write data =>
    show s.uart.line ++ (serialBytes data ++ s.left) = s.uart.line ++ (serialBytes data ++ [] ++ _)
    rw [List.append_nil]
  | load => exact congrArg (· ++ s.left) s.uart.line_load
  | send => exact congrArg (· ++ s.left) s.uart.line_send
  | access =>
    show _ = s.uart.line ++ s.left
    obtain ⟨hsame, -⟩ | ⟨data, calls, hcalls, -, hstep⟩ | ⟨v, rest, calls, hcalls, hstep⟩ :=
      s.access_cases behind port
    · rw [hsame]
    · rw [hstep, left, left, hcalls, List.flatMap_append, SerialCall.left_ofBytes,
        List.flatMap_cons]
      rfl
    · have hroom : s.uart.thr.length < 16 := by
        have hfits := h.fits
        rw [unpolled, hcalls, List.map_cons, List.sum_cons, SerialCall.unpolled] at hfits
        omega
      have hline : Uart.line { s.uart with thr := s.uart.thr ++ [v] } = s.uart.line ++ [v] :=
        (List.append_assoc _ _ _).symm
      rw [hstep, h.ready.write v hroom, left, left, hcalls, List.flatMap_append,
        SerialCall.left_ofBytes, List.flatMap_cons, hline, List.append_assoc]
      rfl

/-! ## Until all is sent -/

/-- The accesses of a call still to come, and what its bytes go through then. -/
def SerialCall.rank : SerialCall → ℕ
  | .poll data => 3 * (serialBytes data).length + 1
  | .out _ rest => 3 * (rest.length + 1)

/-- The steps until all is sent, but for polls of a queue that is not empty. -/
def SerialLine.rank (s : SerialLine) : ℕ :=
  2 * s.uart.thr.length + s.uart.shift.toList.length + (s.calls.map SerialCall.rank).sum

lemma SerialCall.rank_ofBytes (bs : List BYTE) :
    ((ofBytes bs).map SerialCall.rank).sum = 3 * bs.length := by
  cases bs with
  | nil => rfl
  | cons v rest => rfl

/-- An access brings the end nearer, if a call is under way and the queue is empty. -/
lemma SerialLine.rank_access (behind : WORD → WORD) (port : WORD) (s : SerialLine) :
    (s.step behind port .access).rank ≤ s.rank ∧
      (s.calls ≠ [] → s.uart.thr = [] → (s.step behind port .access).rank < s.rank) := by
  obtain ⟨hsame, hwait⟩ | ⟨data, calls, hcalls, -, hstep⟩ | ⟨v, rest, calls, hcalls, hstep⟩ :=
    s.access_cases behind port
  · rw [hsame]
    refine ⟨le_rfl, fun hcalls hthr => ?_⟩
    exact hwait.elim (fun h => (hcalls h).elim) fun h => (h hthr).elim
  · have hrank : s.rank = 2 * s.uart.thr.length + s.uart.shift.toList.length +
        (3 * (serialBytes data).length + 1 + (calls.map SerialCall.rank).sum) := by
      rw [rank, hcalls]
      rfl
    have hrank' : (s.step behind port .access).rank = 2 * s.uart.thr.length +
        s.uart.shift.toList.length +
        (3 * (serialBytes data).length + (calls.map SerialCall.rank).sum) := by
      rw [hstep, rank, List.map_append, List.sum_append, SerialCall.rank_ofBytes]
    exact ⟨by omega, fun _ _ => by omega⟩
  · obtain ⟨hthr, hshift⟩ := s.uart.length_thr_write_zero_le v
    have hrank : s.rank = 2 * s.uart.thr.length + s.uart.shift.toList.length +
        (3 * (rest.length + 1) + (calls.map SerialCall.rank).sum) := by
      rw [rank, hcalls]
      rfl
    have hrank' : (s.step behind port .access).rank = 2 * (s.uart.write 0 v).thr.length +
        s.uart.shift.toList.length +
        (3 * rest.length + (calls.map SerialCall.rank).sum) := by
      rw [hstep, rank, List.map_append, List.sum_append, SerialCall.rank_ofBytes, hshift]
    exact ⟨by omega, fun _ _ => by omega⟩

/-- Sending a byte brings the end nearer. -/
lemma SerialLine.rank_send (behind : WORD → WORD) (port : WORD) (s : SerialLine) :
    (s.step behind port .send).rank ≤ s.rank ∧
      (s.uart.shift ≠ none → (s.step behind port .send).rank < s.rank) := by
  have hrank : (s.step behind port .send).rank = 2 * s.uart.thr.length +
      s.uart.send.shift.toList.length + (s.calls.map SerialCall.rank).sum := by
    rw [← s.uart.thr_send]
    rfl
  rw [hrank, rank, Uart.send]
  cases hshift : s.uart.shift with
  | none => exact ⟨by rw [hshift], fun h => (h rfl).elim⟩
  | some c => exact ⟨Nat.add_le_add_right (Nat.le_succ _) _, fun _ =>
      Nat.add_lt_add_right (Nat.lt_succ_self _) _⟩

/-- Taking a byte brings the end nearer. -/
lemma SerialLine.rank_load (behind : WORD → WORD) (port : WORD) (s : SerialLine) :
    (s.step behind port .load).rank ≤ s.rank ∧
      (s.uart.shift = none → s.uart.thr ≠ [] → (s.step behind port .load).rank < s.rank) := by
  have hrank : (s.step behind port .load).rank = 2 * s.uart.load.thr.length +
      s.uart.load.shift.toList.length + (s.calls.map SerialCall.rank).sum := rfl
  rw [hrank, rank, Uart.load]
  cases hshift : s.uart.shift with
  | some c => exact ⟨by rw [hshift], nofun⟩
  | none =>
    cases hthr : s.uart.thr with
    | nil => exact ⟨by rw [hshift, hthr], fun _ h => (h rfl).elim⟩
    | cons c cs =>
      have hless : 2 * cs.length + 1 + (s.calls.map SerialCall.rank).sum <
          2 * (c :: cs).length + 0 + (s.calls.map SerialCall.rank).sum := by
        rw [List.length_cons]
        omega
      exact ⟨hless.le, fun _ _ => hless⟩

/-- The transmitter gets one byte further, and so does the call that runs. -/
def SerialLine.round : List SerialEvent := [.send, .load, .access]

/-- In a round something happens, or all was sent. -/
lemma SerialLine.rank_round (behind : WORD → WORD) (port : WORD) (s : SerialLine)
    (hdone : ¬ s.Done) :
    (Run.run (step behind port) s round).rank < s.rank := by
  show (((s.step behind port .send).step behind port .load).step behind port .access).rank < s.rank
  obtain ⟨hsend, hsend'⟩ := s.rank_send behind port
  obtain ⟨hload, hload'⟩ := (s.step behind port .send).rank_load behind port
  obtain ⟨haccess, haccess'⟩ :=
    ((s.step behind port .send).step behind port .load).rank_access behind port
  by_cases hshift : s.uart.shift = none
  · have hsame : s.step behind port .send = s := by
      show { s with uart := s.uart.send } = s
      rw [Uart.send, hshift]
    rw [hsame] at hload hload' haccess haccess' ⊢
    by_cases hthr : s.uart.thr = []
    · have hsame' : s.step behind port .load = s := by
        show { s with uart := s.uart.load } = s
        rw [Uart.load, hshift, hthr]
      rw [hsame'] at haccess haccess' ⊢
      exact haccess' (fun hcalls => hdone ⟨hcalls, hthr, hshift⟩) hthr
    · exact haccess.trans_lt (hload' hshift hthr)
  · exact (haccess.trans hload).trans_lt (hsend' hshift)

/-- **Everything gets sent**: from any state, enough rounds bring all calls to their end and empty
the transmitter. -/
lemma SerialLine.drain (behind : WORD → WORD) (port : WORD) (s : SerialLine) :
    ∃ k, (Run.run (step behind port) s (List.replicate k round).flatten).Done :=
  Run.exists_rounds SerialLine.rank (I := fun _ => True)
    (fun s _ hdone => ⟨trivial, s.rank_round behind port hdone⟩) trivial

/-- After the setup no call is under way and the queue is empty. -/
lemma SerialLine.inv_setup (behind : WORD → WORD) (port : WORD) (u : Uart) :
    SerialLine.Inv ⟨serialAfterSetup behind port u, []⟩ ∧
    (serialAfterSetup behind port u).line = u.wire ++ u.shift.toList := by
  have hdlab : (3 : BYTE).toBitVec.getLsbD 7 = false := rfl
  rw [serialAfterSetup_eq]
  exact ⟨⟨⟨hdlab, rfl⟩, Nat.zero_le _, nofun, Nat.zero_le _⟩, List.append_nil _⟩

/-- Rounds put nothing new out. -/
lemma SerialLine.data_of_mem_rounds {k : ℕ} {op : SerialEvent}
    (hop : op ∈ (List.replicate k round).flatten) : op.data = none := by
  obtain ⟨l, hl, hop⟩ := List.mem_flatten.mp hop
  rw [List.eq_of_mem_replicate hl, round] at hop
  simp only [List.mem_cons, List.not_mem_nil, or_false] at hop
  rcases hop with rfl | rfl | rfl <;> rfl

lemma SerialEvent.bytes_of_data {op : SerialEvent} (hop : op.data = none) : op.bytes = [] := by
  rw [bytes, hop]
  rfl

/-- What is sent, and to be sent, where calls do not interrupt calls. -/
lemma SerialLine.Inv.line_run (h : s.Inv) {ops : List SerialEvent}
    (hone : Run.Along (SerialLine.step behind port)
      (fun s op => op.data ≠ none → s.calls = []) s ops) :
    (Run.run (SerialLine.step behind port) s ops).uart.line ++
        (Run.run (SerialLine.step behind port) s ops).left =
      s.uart.line ++ s.left ++ ops.flatMap SerialEvent.bytes := by
  refine (Run.append_run (fun s : SerialLine => s.uart.line ++ s.left)
    (fun s op (hs : s.Inv) hop => hs.step fun hdata => ?_) (fun s op hs hop => ?_) h hone).trans
    (by rw [Run.emits_eq_flatMap])
  · rw [hop hdata]
    exact Nat.zero_lt_succ 7
  · rw [hs.line_step op]
    by_cases hdata : op.data = none
    · rw [SerialEvent.bytes_of_data hdata, List.append_nil, List.nil_append]
    · rw [left, hop hdata, List.flatMap_nil, List.append_nil, List.append_nil]

end Step

/-- **Every byte is sent once.** Let a port be set up, whatever state it was in, and let characters
be printed, also by handlers that interrupt the printing of others at any access of a port, no more
than eight deep. Then in every run of calls, accesses and a transmitter of any speed, the bytes
sent, waiting in the transmitter and not yet written are those that were in the shift register and
those of the characters, each as often as it was printed; if no call interrupts another they are in
that order, and are what the console takes for sent. From every state that is reached, all bytes get
sent and all calls return if the transmitter and the program go on.

**Proof sketch.** A call that found the queue empty writes two bytes at most without looking again.
So what waits and what calls will write without looking is at most sixteen bytes with eight calls,
and as many fit the queue. Whenever the transmitter is at rest the queue is empty, so the call that
runs gets on. -/
theorem serial_line (behind : WORD → WORD) (port : WORD) (u : Uart) {ops : List SerialEvent}
    (hdepth : Run.Along (SerialLine.step behind port)
      (fun s op => op.data ≠ none → s.calls.length < 8) ⟨serialAfterSetup behind port u, []⟩ ops) :
    let start : SerialLine := ⟨serialAfterSetup behind port u, []⟩
    let s := Run.run (SerialLine.step behind port) start ops
    let sent := ops.flatMap SerialEvent.bytes
    ((s.uart.line ++ s.left : List BYTE) : Multiset BYTE) =
      ((u.wire ++ u.shift.toList ++ sent : List BYTE) : Multiset BYTE) ∧
    (Run.Along (SerialLine.step behind port) (fun s op => op.data ≠ none → s.calls = []) start ops →
      s.uart.line ++ s.left = u.wire ++ u.shift.toList ++ sent ∧
      ∀ t : Text, t.serialStatus ≠ 0 →
        (puts t (ops.filterMap SerialEvent.data)).serialOut = t.serialOut ++ sent) ∧
    ∃ k, let s' := Run.run (SerialLine.step behind port) s
            (List.replicate k SerialLine.round).flatten
      s'.Done ∧ s'.uart.wire = s.uart.line ++ s.left := by
  intro start s sent
  obtain ⟨hstart, hline⟩ := SerialLine.inv_setup behind port u
  have hstep : ∀ s op, SerialLine.Inv s → (op.data ≠ none → s.calls.length < 8) →
      (s.step behind port op).Inv := fun s op hs hop => hs.step hop
  have hleft : start.uart.line ++ start.left = u.wire ++ u.shift.toList :=
    (List.append_nil _).trans hline
  refine ⟨?_, fun hone => ⟨by rw [hstart.line_run hone, hleft], fun t ht => ?_⟩, ?_⟩
  · have hbal : ∀ s op, SerialLine.Inv s → (op.data ≠ none → s.calls.length < 8) →
        (((s.step behind port op).uart.line ++ (s.step behind port op).left : List BYTE) :
            Multiset BYTE) + (([] : List BYTE) : Multiset BYTE) =
        ((s.uart.line ++ s.left : List BYTE) : Multiset BYTE) + (op.bytes : Multiset BYTE) := by
      intro s op hs _
      rw [hs.line_step op, Multiset.coe_nil, add_zero, ← Multiset.coe_add, ← Multiset.coe_add,
        ← Multiset.coe_add, add_assoc, add_comm (s.left : Multiset BYTE)]
    have hbalance := Run.balance
      (fun s : SerialLine => ((s.uart.line ++ s.left : List BYTE) : Multiset BYTE))
      hstep hbal hstart hdepth
    have hnothing : ops.flatMap (fun _ => ([] : List BYTE)) = [] :=
      List.flatMap_eq_nil_iff.mpr fun _ _ => rfl
    rw [Run.emits_eq_flatMap, Run.emits_eq_flatMap, hnothing, Multiset.coe_nil, add_zero,
      Multiset.coe_add] at hbalance
    rw [← hleft]
    exact hbalance
  · have hbytes : (ops.filterMap SerialEvent.data).flatMap serialBytes = sent := by
      rw [List.filterMap_eq_flatMap_toList, List.flatMap_assoc]
      rfl
    rw [puts_serialOut t _ ht, hbytes]
  · obtain ⟨k, hk⟩ := s.drain behind port
    refine ⟨k, hk, ?_⟩
    have hs : s.Inv := Run.run_invariant hstep hstart hdepth
    have hquiet : ∀ op ∈ (List.replicate k SerialLine.round).flatten, op.data = none :=
      fun _ => SerialLine.data_of_mem_rounds
    have hone : Run.Along (SerialLine.step behind port)
        (fun s op => op.data ≠ none → s.calls = []) s (List.replicate k SerialLine.round).flatten :=
      Run.along_of_invariant (I := fun _ => True) (fun _ _ _ _ => trivial)
        (fun s op _ hop hdata => (hdata hop).elim) trivial (Run.along_iff_forall_mem.mpr hquiet)
    have hnothing : ((List.replicate k SerialLine.round).flatten).flatMap SerialEvent.bytes = [] :=
      List.flatMap_eq_nil_iff.mpr fun op hop => SerialEvent.bytes_of_data (hquiet op hop)
    have hrounds := hs.line_run hone
    rw [hnothing, List.append_nil] at hrounds
    obtain ⟨hcalls, hthr, hshift⟩ := hk
    rw [← hrounds, SerialLine.left, hcalls, Uart.line, hthr, hshift]
    simp

/-- A port without FIFOs that is sending a byte. -/
def sampleUart : Uart := ⟨0x83, 5, 0, 12, 0, false, [0x21], some 0x3F, []⟩

/-- A line feed is printed, and a handler prints a letter before the first access. -/
theorem serial_line_nested :
    let start : SerialLine := ⟨serialAfterSetup (fun _ => 0) 0 sampleUart, []⟩
    let ops : List SerialEvent := [.write 10, .write 65, .access, .access, .load, .access, .access]
    let s := Run.run (SerialLine.step (fun _ => 0) 0) start ops
    let sent := ops.flatMap SerialEvent.bytes
    ((s.uart.line ++ s.left : List BYTE) : Multiset BYTE) =
      ((sampleUart.wire ++ sampleUart.shift.toList ++ sent : List BYTE) : Multiset BYTE) ∧
    (Run.Along (SerialLine.step (fun _ => 0) 0)
        (fun s op => op.data ≠ none → s.calls = []) start ops →
      s.uart.line ++ s.left = sampleUart.wire ++ sampleUart.shift.toList ++ sent ∧
      ∀ t : Text, t.serialStatus ≠ 0 →
        (puts t (ops.filterMap SerialEvent.data)).serialOut = t.serialOut ++ sent) ∧
    ∃ k, let s' := Run.run (SerialLine.step (fun _ => 0) 0) s
            (List.replicate k SerialLine.round).flatten
      s'.Done ∧ s'.uart.wire = s.uart.line ++ s.left := by
  have hnone : ∀ {op : SerialEvent} {P : Prop}, op.data = none → op.data ≠ none → P :=
    fun h hdata => (hdata h).elim
  exact serial_line (fun _ => 0) 0 sampleUart ⟨fun _ => Nat.zero_lt_succ 7,
    fun _ => Nat.one_lt_succ_succ 6, hnone rfl, hnone rfl, hnone rfl, hnone rfl, hnone rfl, trivial⟩

end Korolev
