import Korolev.Dev.E1000
import Korolev.Library.Ring

set_option relaxedAutoImplicit false
set_option autoImplicit false

/-!
# The receive ring of the e1000 driver

The card stores frames in the descriptors from its head register on, as long as the head has not
reached the tail, and sets the `DD` bit of the status of each. `e1000_receive` takes them one
after the other: it looks at the status of descriptor `rx_cur`, clears it, advances `rx_cur`, and
gives the descriptor back by moving the tail to it. The card is not stopped meanwhile: it may
store frames between any two statements of the loop.

The driver is modelled one statement at a time, with a program counter, and a run is any
interleaving of its steps with frames that arrive. `stored` and `consumed` record the frames the
card has stored and those the driver has taken, with the descriptors they were in.

## Main definitions

* `Korolev.E1000Rx` — driver and card.
* `Korolev.E1000Rx.driver`, `Korolev.E1000Rx.frame` — a statement of `e1000_receive`, and a frame
  that arrives.
* `Korolev.E1000Rx.View` — the ring between two indices: the unconsumed frames are in the `d`
  descriptors from `u` on.

## Main results

* `Korolev.E1000Rx.inv_run` — the invariant.
* `Korolev.e1000_receive_ring` — the ring is a queue of at most 31 frames, in every interleaving.
-/

namespace Korolev

/-- The statements of the loop of `e1000_receive`: the test, clearing the status, advancing
`rx_cur`, and writing the tail. -/
inductive RxPc
  | test
  | clear
  | advance
  | writeTail
  deriving DecidableEq, Repr

/-- Driver and card, for frames of type `α`. -/
structure E1000Rx (α : Type*) where
  priv : E1000Priv
  descs : ℕ → E1000RxDesc
  nic : Nic
  /-- what is in the buffers of the descriptors -/
  bufs : ℕ → α
  pc : RxPc
  oldCur : WORD
  /-- the frames the card has stored, and where -/
  stored : List (ℕ × α)
  /-- the frames the driver has taken, and from where -/
  consumed : List (ℕ × α)

/-- One step: of the driver, or of the card when a frame arrives. -/
inductive RxOp (α : Type*)
  | driver
  | frame (f : α)

namespace E1000Rx

variable {α : Type*}

/-- The index of the driver. -/
def cur (s : E1000Rx α) : ℕ := s.priv.rxCur.toNat

def head (s : E1000Rx α) : ℕ := (s.nic.reg REG_RXDESCHEAD).toNat

def tail (s : E1000Rx α) : ℕ := (s.nic.reg REG_RXDESCTAIL).toNat

/-- The `DD` bit of descriptor `i` is set. -/
def Done (s : E1000Rx α) (i : ℕ) : Prop := (s.descs i).status &&& 1 ≠ 0

instance (s : E1000Rx α) (i : ℕ) : Decidable (s.Done i) := inferInstanceAs (Decidable (_ ≠ _))

/-- The frames stored and not yet consumed. -/
def unconsumed (s : E1000Rx α) : List (ℕ × α) := s.stored.drop s.consumed.length

/-- The next statement of `e1000_receive`. When the test fails the function returns; the next
call starts with the test. -/
def driver (s : E1000Rx α) : E1000Rx α :=
  match s.pc with
  | .test => if s.Done s.cur then { s with pc := .clear } else s
  | .clear =>
    { s with
      descs := Function.update s.descs s.cur { s.descs s.cur with status := 0 }
      consumed := s.consumed ++ [(s.cur, s.bufs s.cur)]
      pc := .advance }
  | .advance =>
    { s with
      oldCur := s.priv.rxCur.toUInt16
      priv := { s.priv with rxCur := (s.priv.rxCur + 1) % 32 }
      pc := .writeTail }
  | .writeTail =>
    { s with
      nic := e1000Writecmd (Nic.bus s.priv.memory s.priv.iobase) s.priv s.nic REG_RXDESCTAIL
        s.oldCur.toUInt32
      pc := .test }

/-- A frame arrives. Without a descriptor it is dropped. -/
def frame (s : E1000Rx α) (f : α) : E1000Rx α :=
  if s.head = s.tail then s
  else
    { s with
      bufs := Function.update s.bufs s.head f
      descs := Function.update s.descs s.head
        { s.descs s.head with status := (s.descs s.head).status ||| 1 }
      nic := s.nic.setReg REG_RXDESCHEAD ((s.nic.reg REG_RXDESCHEAD + 1) % 32)
      stored := s.stored ++ [(s.head, f)] }

/-- One step. -/
def step (s : E1000Rx α) : RxOp α → E1000Rx α
  | .driver => s.driver
  | .frame f => s.frame f

/-- Driver and card after `e1000_rxinit`, whatever was in the private block, the card, the
descriptors and the buffers before. -/
def start (p : E1000Priv) (d : Nic) (descs : ℕ → E1000RxDesc) (ptr : LONG) (addrs : ℕ → LONG)
    (bufs : ℕ → α) : E1000Rx α :=
  let r := e1000Rxinit (Nic.bus p.memory p.iobase) p d descs ptr addrs
  { priv := r.1, descs := r.2.1, nic := r.2.2, bufs := bufs, pc := .test, oldCur := 0,
    stored := [], consumed := [] }

/-- Setting the `DD` bit sets it. -/
lemma or_one_and_one (status : BYTE) : (status ||| 1) &&& 1 = 1 := by
  apply UInt8.toBitVec_inj.mp
  rw [UInt8.toBitVec_and, UInt8.toBitVec_or, BitVec.and_or_distrib_right, BitVec.and_self]
  ext i hi
  simp

/-! ## The ring between two indices -/

/-- The unconsumed frames are in the `d` descriptors from `u` on, and the card may fill the
descriptors up to distance `room` from `u`. -/
structure View (s : E1000Rx α) (u d room : ℕ) : Prop where
  lt : u < 32
  le : d ≤ room
  room_lt : room < 32
  head : s.head = Ring.slot 32 u d
  tail : s.tail = Ring.slot 32 u room
  done : ∀ k < 32, s.Done (Ring.slot 32 u k) ↔ k < d
  stored : s.stored = s.consumed ++ Ring.window 32 (fun i => (i, s.bufs i)) u d

namespace View

variable {s : E1000Rx α} {u d room : ℕ}

/-- The card is out of descriptors iff the unconsumed frames fill the room. -/
lemma head_eq_tail_iff (h : s.View u d room) : s.head = s.tail ↔ d = room := by
  have hle := h.le
  have hroom := h.room_lt
  rw [h.head, h.tail, Ring.slot_inj (by omega) hroom]

/-- A frame that is stored is the last of the queue. -/
lemma frame_of_lt (h : s.View u d room) (hlt : d < room) (f : α) :
    (s.frame f).View u (d + 1) room := by
  have hroom := h.room_lt
  have hne : s.head ≠ s.tail := mt h.head_eq_tail_iff.mp (by omega)
  rw [frame, if_neg hne]
  refine ⟨h.lt, hlt, hroom, ?_, ?_, fun k hk => ?_, ?_⟩
  · rw [E1000Rx.head, Nic.reg_setReg_self, toNat_add_one_mod (n := 32) (by decide)]
    exact (congrArg (fun i => (i + 1) % 32) h.head).trans (Ring.slot_succ 32 u d)
  · rw [E1000Rx.tail, Nic.reg_setReg_of_ne _ (by decide)]
    exact h.tail
  · change (Function.update s.descs s.head _ (Ring.slot 32 u k)).status &&& 1 ≠ 0 ↔ _
    rw [h.head]
    by_cases hkd : k = d
    · subst hkd
      rw [Function.update_self]
      exact iff_of_true (by simp [or_one_and_one]) (by omega)
    · rw [Function.update_of_ne (mt (Ring.slot_inj hk (by omega)).mp hkd)]
      exact (h.done k hk).trans (by omega)
  · have hbufs : (fun i => (i, Function.update s.bufs s.head f i)) =
        Function.update (fun i => (i, s.bufs i)) (Ring.slot 32 u d) (s.head, f) := by
      funext i
      rw [← h.head]
      exact Function.apply_update (fun i f => (i, f)) s.bufs s.head f i
    simp only
    rw [h.stored, hbufs, Ring.window_push (by omega), List.append_assoc]

/-- A frame that arrives is added to the queue or dropped. -/
lemma frame (h : s.View u d room) (f : α) : ∃ d', d ≤ d' ∧ (s.frame f).View u d' room := by
  rcases Nat.lt_or_eq_of_le h.le with hlt | heq
  · exact ⟨d + 1, by omega, h.frame_of_lt hlt f⟩
  · refine ⟨d, le_rfl, ?_⟩
    rwa [E1000Rx.frame, if_pos (h.head_eq_tail_iff.mpr heq)]

/-- The driver takes the first frame of the queue. -/
lemma clear (h : s.View s.cur (d + 1) 31) (hpc : s.pc = .clear) :
    s.driver.View ((s.cur + 1) % 32) d 30 := by
  have hcur : s.cur < 32 := h.lt
  have hle := h.le
  rw [driver, hpc]
  refine ⟨Nat.mod_lt _ (by omega), by omega, by omega, ?_, ?_, fun k hk => ?_, ?_⟩
  · rw [Ring.slot_succ_left]
    exact h.head
  · rw [Ring.slot_succ_left]
    exact h.tail
  · change (Function.update s.descs s.cur _ (Ring.slot 32 ((s.cur + 1) % 32) k)).status &&& 1 ≠ 0
      ↔ _
    rw [Ring.slot_succ_left]
    by_cases hlast : k = 31
    · -- the descriptor just taken is the last one seen from the next one
      have hself : Ring.slot 32 s.cur (k + 1) = s.cur := by
        rw [hlast, Ring.slot, Nat.add_mod_right, Nat.mod_eq_of_lt hcur]
      rw [hself, Function.update_self]
      exact iff_of_false (by simp) (by omega)
    · have hne : Ring.slot 32 s.cur (k + 1) ≠ s.cur := by
        have hinj := Ring.slot_inj (a := s.cur) (k := k + 1) (l := 0) (n := 32) (by omega)
          (by omega)
        rw [Ring.slot_zero hcur] at hinj
        exact mt hinj.mp (by omega)
      rw [Function.update_of_ne hne]
      exact (h.done (k + 1) (by omega)).trans (by omega)
  · simp only
    rw [h.stored, Ring.window_pop hcur, List.append_assoc]
    rfl

/-- The driver gives the descriptor behind the queue back to the card. -/
lemma writeTail (h : s.View u d 30) (hpc : s.pc = .writeTail)
    (hold : s.oldCur.toNat = Ring.slot 32 u 31) : s.driver.View u d 31 := by
  have hle := h.le
  rw [driver, hpc]
  refine ⟨h.lt, by omega, by omega, ?_, ?_, h.done, h.stored⟩
  · rw [E1000Rx.head, Nic.reg, e1000Writecmd_regs rfl rfl]
    exact (congrArg UInt32.toNat (Nic.reg_setReg_of_ne _ (by decide) _)).trans h.head
  · rw [E1000Rx.tail, Nic.reg, e1000Writecmd_regs rfl rfl]
    exact (congrArg UInt32.toNat (Nic.reg_setReg_self ..)).trans hold

end View

/-! ## The invariant -/

/-- The invariant, statement by statement. Behind the test there is a frame to take; once it is
taken the queue starts at the next descriptor, and until the tail is written the card has one
descriptor less. The loop ends after `m` more statements if no frame arrives. -/
def Inv (s : E1000Rx α) (m : ℕ) : Prop :=
  match s.pc with
  | .test => ∃ d, m = 4 * d ∧ s.View s.cur d 31
  | .clear => ∃ d, m = 4 * d + 3 ∧ s.View s.cur (d + 1) 31
  | .advance => s.cur < 32 ∧ ∃ d, m = 4 * d + 2 ∧ s.View ((s.cur + 1) % 32) d 30
  | .writeTail => s.oldCur.toNat = Ring.slot 32 s.cur 31 ∧ ∃ d, m = 4 * d + 1 ∧ s.View s.cur d 30

/-- In every state the unconsumed frames are in a range of the ring. -/
lemma Inv.view {s : E1000Rx α} {m : ℕ} (h : s.Inv m) :
    s.cur < 32 ∧ ∃ u d room, s.View u d room := by
  rw [Inv] at h
  split at h
  · obtain ⟨d, -, hd⟩ := h
    exact ⟨hd.lt, _, _, _, hd⟩
  · obtain ⟨d, -, hd⟩ := h
    exact ⟨hd.lt, _, _, _, hd⟩
  · obtain ⟨hlt, d, -, hd⟩ := h
    exact ⟨hlt, _, _, _, hd⟩
  · obtain ⟨-, d, -, hd⟩ := h
    exact ⟨hd.lt, _, _, _, hd⟩

/-- An arriving frame leaves the driver alone. -/
lemma frame_driver (s : E1000Rx α) (f : α) :
    (s.frame f).pc = s.pc ∧ (s.frame f).cur = s.cur ∧ (s.frame f).oldCur = s.oldCur := by
  rw [frame]
  split_ifs <;> exact ⟨rfl, rfl, rfl⟩

lemma Inv.frame {s : E1000Rx α} {m : ℕ} (h : s.Inv m) (f : α) : ∃ m', (s.frame f).Inv m' := by
  obtain ⟨hpc, hcur, hold⟩ := s.frame_driver f
  simp only [Inv] at h ⊢
  rw [hpc, hcur, hold]
  cases hp : s.pc with
  | test =>
    rw [hp] at h
    obtain ⟨d, -, hd⟩ := h
    obtain ⟨d', -, hd'⟩ := hd.frame f
    exact ⟨_, d', rfl, hd'⟩
  | clear =>
    rw [hp] at h
    obtain ⟨d, -, hd⟩ := h
    obtain ⟨d', hle, hd'⟩ := hd.frame f
    obtain ⟨e, rfl⟩ := Nat.exists_eq_add_of_le' (show 1 ≤ d' by omega)
    exact ⟨_, e, rfl, hd'⟩
  | advance =>
    rw [hp] at h
    obtain ⟨hlt, d, -, hd⟩ := h
    obtain ⟨d', -, hd'⟩ := hd.frame f
    exact ⟨_, hlt, d', rfl, hd'⟩
  | writeTail =>
    rw [hp] at h
    obtain ⟨hslot, d, -, hd⟩ := h
    obtain ⟨d', -, hd'⟩ := hd.frame f
    exact ⟨_, hslot, d', rfl, hd'⟩

/-- The test succeeds iff there is a frame to take. -/
lemma View.done_cur {s : E1000Rx α} {d room : ℕ} (h : s.View s.cur d room) :
    s.Done s.cur ↔ 0 < d := by
  have hdone := h.done 0 (by omega)
  rwa [Ring.slot_zero h.lt] at hdone

/-- Advancing `rx_cur`: the queue stays, the driver's index reaches its start. -/
lemma driver_advance {s : E1000Rx α} (hpc : s.pc = .advance) (hcur : s.cur < 32) :
    s.driver.pc = .writeTail ∧ s.driver.cur = (s.cur + 1) % 32 ∧
      s.driver.oldCur.toNat = s.cur ∧ ∀ u d room, s.View u d room → s.driver.View u d room := by
  rw [driver, hpc]
  refine ⟨rfl, toNat_add_one_mod (n := 32) (by decide) _, ?_, fun u d room h => ?_⟩
  · rw [UInt32.toNat_toUInt16]
    exact Nat.mod_eq_of_lt (by rw [cur] at hcur; omega)
  · exact ⟨h.lt, h.le, h.room_lt, h.head, h.tail, h.done, h.stored⟩

/-- A statement keeps the invariant, and the loop is one statement closer to its end. -/
lemma Inv.driver {s : E1000Rx α} {m : ℕ} (h : s.Inv m) : s.driver.Inv (m - 1) := by
  rw [Inv] at h
  cases hp : s.pc with
  | test =>
    rw [hp] at h
    obtain ⟨d, rfl, hd⟩ := h
    rw [E1000Rx.driver, hp]
    simp only
    split_ifs with hdone
    · obtain ⟨e, rfl⟩ := Nat.exists_eq_add_of_le' (hd.done_cur.mp hdone)
      exact ⟨e, by omega, hd.lt, hd.le, hd.room_lt, hd.head, hd.tail, hd.done, hd.stored⟩
    · have hzero : d = 0 := by simpa using mt hd.done_cur.mpr hdone
      rw [Inv, hp]
      exact ⟨d, by omega, hd⟩
  | clear =>
    rw [hp] at h
    obtain ⟨d, rfl, hd⟩ := h
    have hnext := hd.clear hp
    have hpc : s.driver.pc = .advance := by rw [E1000Rx.driver, hp]
    have hcur : s.driver.cur = s.cur := by rw [E1000Rx.driver, hp]; rfl
    rw [Inv, hpc, hcur]
    exact ⟨hd.lt, d, by omega, hnext⟩
  | advance =>
    rw [hp] at h
    obtain ⟨hlt, d, rfl, hd⟩ := h
    obtain ⟨hpc, hcur, hold, hview⟩ := driver_advance hp hlt
    rw [Inv, hpc]
    simp only
    rw [hcur, hold]
    refine ⟨?_, d, by omega, hview _ _ _ hd⟩
    rw [Ring.slot_succ_left, Ring.slot, Nat.add_mod_right, Nat.mod_eq_of_lt hlt]
  | writeTail =>
    rw [hp] at h
    obtain ⟨hold, d, rfl, hd⟩ := h
    have hnext := hd.writeTail hp hold
    have hpc : s.driver.pc = .test := by rw [E1000Rx.driver, hp]
    have hcur : s.driver.cur = s.cur := by rw [E1000Rx.driver, hp]; rfl
    rw [Inv, hpc, hcur]
    exact ⟨d, by omega, hnext⟩

lemma Inv.step {s : E1000Rx α} (h : ∃ m, s.Inv m) (op : RxOp α) : ∃ m, (s.step op).Inv m := by
  obtain ⟨m, hm⟩ := h
  cases op with
  | driver => exact ⟨_, hm.driver⟩
  | frame f => exact hm.frame f

/-- After `e1000_rxinit` the queue is empty. -/
lemma start_inv (p : E1000Priv) (d : Nic) (descs : ℕ → E1000RxDesc) (ptr : LONG)
    (addrs : ℕ → LONG) (bufs : ℕ → α) : (start p d descs ptr addrs bufs).Inv 0 := by
  obtain ⟨hpriv, hstatus, hhead, htail⟩ := e1000Rxinit_nic p d ptr descs addrs
  have hcur : (start p d descs ptr addrs bufs).cur = 0 := by
    rw [cur, start]
    simp only [hpriv]
    rfl
  refine ⟨0, rfl, ?_⟩
  rw [hcur]
  refine ⟨by omega, by omega, by omega, ?_, ?_, fun k _ => ?_, rfl⟩
  · exact congrArg UInt32.toNat hhead
  · exact congrArg UInt32.toNat htail
  · have hlt : Ring.slot 32 0 k < 32 := Ring.slot_lt (by omega) k
    refine iff_of_false (not_not.mpr ?_) (by omega)
    rw [start]
    simp only
    rw [hstatus _ hlt]
    rfl

/-- The invariant holds after every interleaving. -/
lemma inv_run (p : E1000Priv) (d : Nic) (descs : ℕ → E1000RxDesc) (ptr : LONG)
    (addrs : ℕ → LONG) (bufs : ℕ → α) (ops : List (RxOp α)) :
    ∃ m, (Run.run step (start p d descs ptr addrs bufs) ops).Inv m :=
  Run.run_invariant_of_forall (I := fun s : E1000Rx α => ∃ m, s.Inv m) (fun _ op h => Inv.step h op)
    ⟨0, start_inv p d descs ptr addrs bufs⟩ ops

/-! ## Draining the ring -/

lemma driver_stored (s : E1000Rx α) : s.driver.stored = s.stored := by
  rw [driver]
  split
  · split_ifs <;> rfl
  all_goals rfl

/-- If no frame arrives the driver takes all that are stored.

**Proof sketch.** Induction on the number of statements left; at the end the queue is empty. -/
lemma Inv.drain {s : E1000Rx α} {m : ℕ} (h : s.Inv m) :
    (Run.run E1000Rx.step s (List.replicate m RxOp.driver)).consumed = s.stored := by
  induction m generalizing s with
  | zero =>
    rw [Inv] at h
    split at h
    · obtain ⟨d, hd, hview⟩ := h
      obtain rfl : d = 0 := by omega
      simpa using hview.stored.symm
    · obtain ⟨d, hd, -⟩ := h
      omega
    · obtain ⟨-, d, hd, -⟩ := h
      omega
    · obtain ⟨-, d, hd, -⟩ := h
      omega
  | succ m ih =>
    rw [List.replicate_succ, Run.run_cons]
    exact (ih h.driver).trans s.driver_stored

end E1000Rx

/-- **The receive ring.** After every interleaving of the statements of `e1000_receive` with
frames that arrive, from `e1000_rxinit` on: between two iterations the tail is 31 descriptors
ahead of `rx_cur`, and `DD` is set exactly on the descriptors from `rx_cur` up to the head; a
descriptor the card may store into holds no unconsumed frame; the driver has consumed the stored
frames in their order, each once, and if no more arrive it consumes the rest. -/
theorem e1000_receive_ring {α : Type*} (p : E1000Priv) (nic : Nic) (descs : ℕ → E1000RxDesc)
    (ptr : LONG) (addrs : ℕ → LONG) (bufs : ℕ → α) (ops : List (RxOp α)) :
    let s := Run.run E1000Rx.step (E1000Rx.start p nic descs ptr addrs bufs) ops
    s.cur < 32 ∧
    (s.pc = .test → s.tail = (s.cur + 31) % 32 ∧
      ∀ i < 32, s.Done i ↔ Ring.dist 32 s.cur i < Ring.dist 32 s.cur s.head) ∧
    (s.head ≠ s.tail → ∀ x ∈ s.unconsumed, x.1 ≠ s.head) ∧
    s.stored = s.consumed ++ s.unconsumed ∧
    ∃ n, (Run.run E1000Rx.step s (List.replicate n .driver)).consumed = s.stored := by
  intro s
  obtain ⟨m, hm⟩ : ∃ m, s.Inv m := E1000Rx.inv_run p nic descs ptr addrs bufs ops
  obtain ⟨hcur, u, d, room, hview⟩ := hm.view
  have hle := hview.le
  have hroom := hview.room_lt
  have hrest : s.unconsumed = Ring.window 32 (fun i => (i, s.bufs i)) u d := by
    rw [E1000Rx.unconsumed, hview.stored, List.drop_left]
  refine ⟨hcur, fun hpc => ?_, fun _ x hx => ?_, ?_, m, hm.drain⟩
  · rw [E1000Rx.Inv, hpc] at hm
    obtain ⟨e, -, he⟩ := hm
    refine ⟨he.tail, fun i hi => ?_⟩
    have hdone := he.done (Ring.dist 32 s.cur i) (Ring.dist_lt he.lt i)
    rw [Ring.slot_dist he.lt hi] at hdone
    rw [hdone, he.head, Ring.dist_slot he.lt (by have := he.le; omega)]
  · rw [hrest, Ring.window, List.mem_map] at hx
    obtain ⟨k, hk, rfl⟩ := hx
    have hlt : k < d := List.mem_range.mp hk
    rw [hview.head]
    exact mt (Ring.slot_inj (by omega) (by omega)).mp (by omega)
  · rw [hrest]
    exact hview.stored

end Korolev
