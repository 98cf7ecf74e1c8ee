import Korolev.Base
import Korolev.Library.Run

set_option relaxedAutoImplicit false
set_option autoImplicit false

/-!
# The memory manager

`kernel/memory.c` picks the largest available chunk of the boot loader's memory map and hands it
out page by page: a counter of pages given out, no reuse. `malloc` and `free` of
`libc/stdlib.c` are a thin layer over it.

The allocator gives the next block as long as at least one page is left, whatever the size of the
request, and it rounds sizes up in 32-bit arithmetic. So the last block may reach behind the
chunk, and a size within a page of `2 ^ 32` is rounded to no page at all. A block at address `0`
is a block like any other to the manager, but `NULL` to its caller.

## Main definitions

* `Korolev.Mmgmt` — the globals `mmgmt_counter`, `mmgmt_start`, `mmgmt_len`.
* `Korolev.mmgmtGreatestChunk`, `Korolev.mmgmtInit`, `Korolev.mmgmtAlloc`,
  `Korolev.mmgmtFree`, `Korolev.malloc`, `Korolev.free` — the functions.
* `Korolev.Mmgmt.Fits32` — the chunk ends at or below 4 GiB.
* `Korolev.Mmgmt.Contained`, `Korolev.Mmgmt.RequestFits` — a block inside the chunk, and a
  request no larger than what is left of it.
* `Korolev.Mmgmt.Sound` — the allocator's promises over a whole run.

## Main results

* `Korolev.Mmgmt.call_cases` — everything an allocation or release can do.
* `Korolev.mmgmt_containment` — all blocks of a run lie in the chunk exactly when all requests
  fit.
* `Korolev.mmgmt_disjointness` — the allocator's promises hold of a run exactly when no request
  is served from address `0`.
-/

namespace Korolev

/-! ## The functions -/

/-- `struct multiboot_mmap_entry`, without its reserved word. -/
structure MmapEntry where
  addr : QWORD
  len : QWORD
  type : LONG

/-- The type of memory that may be used. -/
def MULTIBOOT_MEMORY_AVAILABLE : LONG := 1

/-- The globals of `kernel/memory.c`: pages given out, first byte and number of pages of the
chunk. -/
structure Mmgmt where
  counter : LONG
  start : LONG
  len : LONG
deriving DecidableEq

/-- The loop of `mmgmt_greatest_chunk` with `k` entries left, from entry `i` on, `max` and `maxi`
being the longest chunk so far and its index. The comparison is made in 64 bits, the assignment
to `max` cuts to 32. -/
def mmgmtScan (mmap : ℕ → MmapEntry) : (k i : ℕ) → (max maxi : LONG) → LONG × LONG
  | 0, _, max, maxi => (maxi, max)
  | k + 1, i, max, maxi =>
    if max.toUInt64 < (mmap i).len ∧ (mmap i).type = MULTIBOOT_MEMORY_AVAILABLE then
      mmgmtScan mmap k (i + 1) (mmap i).len.toUInt32 (UInt32.ofNat i)
    else mmgmtScan mmap k (i + 1) max maxi

/-- `mmgmt_greatest_chunk(mmap, n, &index, &len)`: the index and the length found. -/
def mmgmtGreatestChunk (mmap : ℕ → MmapEntry) (n : Int32) : LONG × LONG :=
  mmgmtScan mmap n.toNatClampNeg 0 0 0

/-- `mmgmt_init(mmap, n)`. Without a usable entry it takes the address of entry `0`, with
length `0`. -/
def mmgmtInit (mmap : ℕ → MmapEntry) (n : Int32) : Mmgmt :=
  let r := mmgmtGreatestChunk mmap n
  { counter := 0
    start := (mmap r.1.toNat).addr.toUInt32
    len := r.2 >>> 12 }

/-- The pages a request is rounded up to:
`size = size + (4096 - size % 4096); LONG n = size >> 12;` -/
def mmgmtPages (size : LONG) : LONG := (size + (4096 - size % 4096)) >>> 12

/-- `mmgmt_alloc(size)`: the address returned, and the globals. -/
def mmgmtAlloc (s : Mmgmt) (size : LONG) : LONG × Mmgmt :=
  if s.len ≤ s.counter then (0, s)
  else if size = 0 then (0, s)
  else (s.start + s.counter * 4096, { s with counter := s.counter + mmgmtPages size })

/-- `mmgmt_free(ptr)` -/
def mmgmtFree (s : Mmgmt) (_ptr : LONG) : Mmgmt := s

/-- `malloc(size)` -/
def malloc (s : Mmgmt) (size : LONG) : LONG × Mmgmt :=
  if size ≤ 0 then (0, s) else mmgmtAlloc s size

/-- `free(ptr)` -/
def free (s : Mmgmt) (ptr : LONG) : Mmgmt :=
  if ptr = 0 then s else mmgmtFree s ptr

/-! ## Calls -/

/-- A call of the allocator. -/
inductive AllocOp where
  | malloc (size : LONG)
  | mmgmtAlloc (size : LONG)
  | free (ptr : LONG)

/-- The size asked for; a release asks for nothing. -/
def AllocOp.size : AllocOp → LONG
  | .malloc size => size
  | .mmgmtAlloc size => size
  | .free _ => 0

namespace Mmgmt

/-- The address a call returns (`0` for a release, which returns nothing) and the globals after
it. -/
def call (s : Mmgmt) : AllocOp → LONG × Mmgmt
  | .malloc size => Korolev.malloc s size
  | .mmgmtAlloc size => Korolev.mmgmtAlloc s size
  | .free ptr => (0, Korolev.free s ptr)

/-- The globals after a call. -/
def step (s : Mmgmt) (op : AllocOp) : Mmgmt := (s.call op).2

/-- The blocks handed out along a run, in order, with the sizes asked for. -/
def blocks : Mmgmt → List AllocOp → List (ℕ × ℕ)
  | _, [] => []
  | s, op :: ops =>
    if (s.call op).1 = 0 then blocks (s.step op) ops
    else ((s.call op).1.toNat, op.size.toNat) :: blocks (s.step op) ops

/-- The chunk ends at or below 4 GiB. -/
def Fits32 (s : Mmgmt) : Prop := s.start.toNat + 4096 * s.len.toNat ≤ 2 ^ 32

instance (s : Mmgmt) : Decidable s.Fits32 := inferInstanceAs (Decidable (_ ≤ _))

/-- The block a call returns, if any, lies inside the chunk. -/
def Contained (s : Mmgmt) (op : AllocOp) : Prop :=
  (s.call op).1 ≠ 0 →
    s.start.toNat ≤ (s.call op).1.toNat ∧
    (s.call op).1.toNat + op.size.toNat ≤ s.start.toNat + 4096 * s.len.toNat

/-- The request is for no more bytes than are left of the chunk. Nothing is asked of requests
that are refused or whose block starts at address `0`. -/
def RequestFits (s : Mmgmt) (op : AllocOp) : Prop :=
  op.size ≠ 0 → s.counter < s.len → ¬(s.start = 0 ∧ s.counter = 0) →
    op.size.toNat ≤ 4096 * (s.len.toNat - s.counter.toNat)

/-- The allocator's promises over the run of `ops`: the counter never wraps, blocks are disjoint,
all blocks but the last lie inside the chunk, and a call that returns `NULL` changes nothing. -/
structure Sound (s : Mmgmt) (ops : List AllocOp) : Prop where
  counter : Run.Along step (fun s op => s.counter ≤ (s.step op).counter) s ops
  disjoint : (s.blocks ops).Pairwise fun b c => b.1 + b.2 ≤ c.1 ∨ c.1 + c.2 ≤ b.1
  inside : ∀ b ∈ (s.blocks ops).dropLast,
    s.start.toNat ≤ b.1 ∧ b.1 + b.2 ≤ s.start.toNat + 4096 * s.len.toNat
  null : Run.Along step (fun s op => (s.call op).1 = 0 → s.step op = s) s ops

end Mmgmt

/-! ## What a call can do -/

/-- The number of whole pages. -/
lemma toNat_shiftRight_twelve (x : LONG) : (x >>> 12).toNat = x.toNat / 4096 := by
  have htwelve : (12 : LONG).toNat % 32 = 12 := rfl
  rw [UInt32.toNat_shiftRight, htwelve, Nat.shiftRight_eq_div_pow]

/-- The round-up in exact arithmetic: one page more than the whole pages of the size, modulo the
`2 ^ 20` pages of the address space. -/
lemma mmgmtPages_toNat (size : LONG) :
    (mmgmtPages size).toNat = (size.toNat / 4096 + 1) % 2 ^ 20 := by
  have h := size.toNat_lt
  have hmod : (size % 4096).toNat = size.toNat % 4096 := UInt32.toNat_mod size 4096
  have hsub : (4096 - size % 4096).toNat = 4096 - size.toNat % 4096 := by
    rw [UInt32.toNat_sub_of_le, hmod]
    · rfl
    · rw [UInt32.le_iff_toNat_le, hmod]
      exact (Nat.mod_lt _ (by decide)).le
  rw [mmgmtPages, toNat_shiftRight_twelve, UInt32.toNat_add, hsub]
  omega

namespace Mmgmt

variable {s : Mmgmt}

/-- Everything a call can do: refuse, because no page is left or nothing is asked for, and change
nothing; or return the address of the next page and advance the counter. -/
lemma call_cases (s : Mmgmt) (op : AllocOp) :
    ((s.len ≤ s.counter ∨ op.size = 0) ∧ s.call op = (0, s)) ∨
    (s.counter < s.len ∧ op.size ≠ 0 ∧ s.call op =
      (s.start + s.counter * 4096, { s with counter := s.counter + mmgmtPages op.size })) := by
  have halloc : ∀ size : LONG, ((s.len ≤ s.counter ∨ size = 0) ∧ mmgmtAlloc s size = (0, s)) ∨
      (s.counter < s.len ∧ size ≠ 0 ∧ mmgmtAlloc s size =
        (s.start + s.counter * 4096, { s with counter := s.counter + mmgmtPages size })) := by
    intro size
    unfold mmgmtAlloc
    by_cases hfull : s.len ≤ s.counter
    · exact .inl ⟨.inl hfull, if_pos hfull⟩
    by_cases hsize : size = 0
    · exact .inl ⟨.inr hsize, by rw [if_neg hfull, if_pos hsize]⟩
    · exact .inr ⟨UInt32.not_le.mp hfull, hsize, by rw [if_neg hfull, if_neg hsize]⟩
  cases op with
  | malloc size =>
    rw [call, malloc]
    by_cases hsize : size ≤ 0
    · exact .inl ⟨.inr (UInt32.le_zero_iff.mp hsize), if_pos hsize⟩
    · rw [if_neg hsize]
      exact halloc size
  | mmgmtAlloc size => exact halloc size
  | free ptr =>
    refine .inl ⟨.inr rfl, ?_⟩
    rw [call, free, mmgmtFree, ite_self]

@[simp] lemma step_start (s : Mmgmt) (op : AllocOp) : (s.step op).start = s.start := by
  rcases call_cases s op with ⟨-, h⟩ | ⟨-, -, h⟩ <;> rw [step, h]

@[simp] lemma step_len (s : Mmgmt) (op : AllocOp) : (s.step op).len = s.len := by
  rcases call_cases s op with ⟨-, h⟩ | ⟨-, -, h⟩ <;> rw [step, h]

lemma Fits32.step (h : s.Fits32) (op : AllocOp) : (s.step op).Fits32 := by
  rw [Fits32, step_start, step_len]
  exact h

/-- The address of the next page does not wrap. -/
lemma Fits32.addr (h : s.Fits32) (hlt : s.counter < s.len) :
    (s.start + s.counter * 4096).toNat = s.start.toNat + 4096 * s.counter.toNat := by
  rw [UInt32.lt_iff_toNat_lt] at hlt
  rw [Fits32] at h
  simp only [UInt32.toNat_add, UInt32.toNat_mul, UInt32.toNat_ofNat]
  omega

/-- The counter does not wrap. -/
lemma Fits32.counter (h : s.Fits32) (hlt : s.counter < s.len) (size : LONG) :
    (s.counter + mmgmtPages size).toNat = s.counter.toNat + (size.toNat / 4096 + 1) % 2 ^ 20 := by
  have hpages := mmgmtPages_toNat size
  rw [UInt32.lt_iff_toNat_lt] at hlt
  rw [Fits32] at h
  rw [UInt32.toNat_add, hpages]
  omega

end Mmgmt

/-! ## The chunk -/

/-- The scan returns the 32-bit length of the entry whose index it returns, unless it found no
entry at all. -/
lemma mmgmtScan_spec (mmap : ℕ → MmapEntry) (k : ℕ) : ∀ (i : ℕ) (max maxi : LONG),
    i + k ≤ 2 ^ 31 →
    (max = 0 ∨ maxi.toNat < i ∧ max = (mmap maxi.toNat).len.toUInt32) →
    (mmgmtScan mmap k i max maxi).2 = 0 ∨
      (mmgmtScan mmap k i max maxi).1.toNat < i + k ∧
      (mmgmtScan mmap k i max maxi).2 =
        (mmap (mmgmtScan mmap k i max maxi).1.toNat).len.toUInt32 := by
  induction k with
  | zero => exact fun i max maxi _ h => h
  | succ k ih =>
    intro i max maxi hik h
    have hidx : (UInt32.ofNat i).toNat = i := toNat_ofNat_of_lt (by omega)
    rw [mmgmtScan, show i + (k + 1) = i + 1 + k by omega]
    split_ifs
    · exact ih (i + 1) _ _ (by omega) (.inr ⟨by rw [hidx]; omega, by rw [hidx]⟩)
    · exact ih (i + 1) _ _ (by omega) (h.imp_right fun h' => ⟨by omega, h'.2⟩)

lemma mmgmtInit_len (mmap : ℕ → MmapEntry) (n : Int32) :
    (mmgmtInit mmap n).len.toNat = (mmgmtGreatestChunk mmap n).2.toNat / 4096 :=
  toNat_shiftRight_twelve _

lemma mmgmtInit_start (mmap : ℕ → MmapEntry) (n : Int32) : (mmgmtInit mmap n).start.toNat =
    (mmap (mmgmtGreatestChunk mmap n).1.toNat).addr.toNat % 2 ^ 32 :=
  UInt64.toNat_toUInt32 _

/-- If every entry of the map ends at or below 4 GiB, so does the chunk. -/
lemma mmgmtInit_fits32 {mmap : ℕ → MmapEntry} {n : Int32}
    (hmap : ∀ i < n.toNatClampNeg, (mmap i).addr.toNat + (mmap i).len.toNat ≤ 2 ^ 32) :
    (mmgmtInit mmap n).Fits32 := by
  rw [Mmgmt.Fits32, mmgmtInit_start, mmgmtInit_len]
  rcases mmgmtScan_spec mmap n.toNatClampNeg 0 0 0
    (by have := n.toNatClampNeg_lt; omega) (.inl rfl) with h | ⟨hi, h⟩
  · rw [mmgmtGreatestChunk, h]
    simp only [UInt32.toNat_zero]
    omega
  · rw [mmgmtGreatestChunk, h, UInt64.toNat_toUInt32]
    have := hmap _ (by simpa using hi)
    omega

/-! ## Containment -/

/-- A block lies inside the chunk exactly when its request fits. -/
lemma Mmgmt.contained_iff {s : Mmgmt} (h : s.Fits32) (op : AllocOp) :
    s.Contained op ↔ s.RequestFits op := by
  rw [Contained, RequestFits]
  rcases call_cases s op with ⟨href, hc⟩ | ⟨hlt, hsize, hc⟩
  · rw [hc]
    refine ⟨fun _ hs hl => ?_, fun _ hne => absurd rfl hne⟩
    rcases href with hfull | hzero
    · exact absurd hl (UInt32.not_lt.mpr hfull)
    · exact absurd hzero hs
  · have haddr := h.addr hlt
    have hnull : s.start + s.counter * 4096 = 0 ↔ s.start = 0 ∧ s.counter = 0 := by
      rw [← UInt32.toNat_inj, haddr, ← UInt32.toNat_inj, ← UInt32.toNat_inj]
      simp only [UInt32.toNat_zero]
      omega
    have hlt' := UInt32.lt_iff_toNat_lt.mp hlt
    rw [hc, Ne, hnull, haddr]
    constructor
    · intro hin _ _ hne
      have := hin hne
      omega
    · intro hfit hne
      have := hfit hsize hlt hne
      omega

/-- **When blocks stay inside the chunk.** For every memory map whose entries end at or below
4 GiB and every sequence of calls after `mmgmt_init`: all blocks lie inside the chunk exactly
when every request fits into what is left of it. -/
theorem mmgmt_containment (mmap : ℕ → MmapEntry) (n : Int32)
    (hmap : ∀ i < n.toNatClampNeg, (mmap i).addr.toNat + (mmap i).len.toNat ≤ 2 ^ 32)
    (ops : List AllocOp) :
    Run.Along Mmgmt.step Mmgmt.Contained (mmgmtInit mmap n) ops ↔
      Run.Along Mmgmt.step Mmgmt.RequestFits (mmgmtInit mmap n) ops :=
  Run.along_congr (fun _ op h => h.step op) (fun _ op h => Mmgmt.contained_iff h op)
    (mmgmtInit_fits32 hmap)

/-- A memory map with one usable entry: two pages from 1 MiB on. -/
def mmapTwoPages : ℕ → MmapEntry := fun _ => ⟨0x100000, 0x2000, 1⟩

/-- Two one-page requests fit into two pages, and their blocks lie inside. -/
theorem mmgmt_containment_two_pages :
    Run.Along Mmgmt.step Mmgmt.Contained (mmgmtInit mmapTwoPages 1)
      [.malloc 100, .free 0x100000, .mmgmtAlloc 4095] :=
  (mmgmt_containment mmapTwoPages 1 (by decide) _).mpr
    ⟨fun _ _ _ => by decide, fun h => absurd rfl h, fun _ _ _ => by decide, trivial⟩

/-- A request for three pages is served from a chunk of two, and so is one whose round-up
wraps. -/
theorem mmgmt_containment_overrun :
    (∀ i < (1 : Int32).toNatClampNeg,
      (mmapTwoPages i).addr.toNat + (mmapTwoPages i).len.toNat ≤ 2 ^ 32) ∧
    ¬Run.Along Mmgmt.step Mmgmt.Contained (mmgmtInit mmapTwoPages 1) [.malloc 12288] ∧
    ¬Run.Along Mmgmt.step Mmgmt.Contained (mmgmtInit mmapTwoPages 1) [.malloc 0xffffffff] := by
  refine ⟨by decide, fun h => ?_, fun h => ?_⟩
  · exact absurd (h.1 (by decide)) (by decide)
  · exact absurd (h.1 (by decide)) (by decide)

/-! ## Disjointness -/

namespace Mmgmt

variable {s : Mmgmt}

/-- The counter never decreases. -/
lemma Fits32.counter_le_step (h : s.Fits32) (op : AllocOp) :
    s.counter ≤ (s.step op).counter := by
  rcases call_cases s op with ⟨-, hc⟩ | ⟨hlt, -, hc⟩
  · rw [Mmgmt.step, hc]
    exact UInt32.le_refl _
  · rw [Mmgmt.step, hc, UInt32.le_iff_toNat_le, h.counter hlt]
    omega

/-- Blocks are given out from the counter upwards. -/
lemma Fits32.le_of_mem_blocks (h : s.Fits32) (ops : List AllocOp) :
    ∀ b ∈ s.blocks ops, s.start.toNat + 4096 * s.counter.toNat ≤ b.1 := by
  induction ops generalizing s with
  | nil => simp [blocks]
  | cons op ops ih =>
    have hrest : ∀ b ∈ (s.step op).blocks ops,
        s.start.toNat + 4096 * s.counter.toNat ≤ b.1 := by
      intro b hb
      have hle := UInt32.le_iff_toNat_le.mp (h.counter_le_step op)
      have := ih (h.step op) b hb
      rw [step_start] at this
      omega
    intro b hb
    rw [blocks] at hb
    split_ifs at hb with hnull
    · exact hrest b hb
    · rcases List.mem_cons.mp hb with rfl | hb
      · rcases call_cases s op with ⟨-, hc⟩ | ⟨hlt, -, hc⟩
        · exact absurd (by rw [hc]) hnull
        · rw [hc]
          exact (h.addr hlt).ge
      · exact hrest b hb

/-- Blocks are given out only while pages are left. -/
lemma Fits32.counter_lt_of_blocks (h : s.Fits32) (ops : List AllocOp)
    (hne : s.blocks ops ≠ []) : s.counter < s.len := by
  induction ops generalizing s with
  | nil => exact absurd rfl hne
  | cons op ops ih =>
    rcases call_cases s op with ⟨-, hc⟩ | ⟨hlt, -, -⟩
    · rw [blocks, if_pos (by rw [hc])] at hne
      have hlt := ih (h.step op) hne
      rw [Mmgmt.step, hc] at hlt
      exact hlt
    · exact hlt

/-- The end of a block given out by `op` is at or below the address of the next page. -/
lemma Fits32.block_end (h : s.Fits32) {op : AllocOp} (hsize : op.size.toNat < 2 ^ 32 - 4096)
    (hnull : (s.call op).1 ≠ 0) :
    (s.call op).1.toNat + op.size.toNat ≤
      s.start.toNat + 4096 * (s.step op).counter.toNat := by
  rcases call_cases s op with ⟨-, hc⟩ | ⟨hlt, -, hc⟩
  · exact absurd (by rw [hc]) hnull
  · rw [Mmgmt.step, hc, h.addr hlt, h.counter hlt]
    omega

/-- **Blocks are disjoint, and all but the last lie inside the chunk.**

**Proof sketch.** Induction on the calls. A block ends at or below the address of the page the
counter names next (`block_end`), and all later blocks start at or above it. If there is a later
block, that page is still inside the chunk (`counter_lt_of_blocks`). -/
lemma Fits32.blocks_spec (h : s.Fits32) (ops : List AllocOp)
    (hsize : ∀ op ∈ ops, op.size.toNat < 2 ^ 32 - 4096) :
    (s.blocks ops).Pairwise (fun b c => b.1 + b.2 ≤ c.1 ∨ c.1 + c.2 ≤ b.1) ∧
    ∀ b ∈ (s.blocks ops).dropLast,
      s.start.toNat ≤ b.1 ∧ b.1 + b.2 ≤ s.start.toNat + 4096 * s.len.toNat := by
  induction ops generalizing s with
  | nil => simp [blocks]
  | cons op ops ih =>
    obtain ⟨hdis, hin⟩ := ih (h.step op) fun op' h' => hsize op' (by simp [h'])
    rw [step_start, step_len] at hin
    rw [blocks]
    split_ifs with hnull
    · exact ⟨hdis, hin⟩
    · have hend := h.block_end (hsize op (by simp)) hnull
      refine ⟨List.pairwise_cons.mpr ⟨fun c hc => .inl ?_, hdis⟩, fun b hb => ?_⟩
      · have := (h.step op).le_of_mem_blocks ops c hc
        rw [step_start] at this
        exact hend.trans this
      · by_cases hlast : (s.step op).blocks ops = []
        · simp [hlast] at hb
        · rw [List.dropLast_cons_of_ne_nil hlast] at hb
          rcases List.mem_cons.mp hb with rfl | hb
          · have hleft := UInt32.lt_iff_toNat_lt.mp ((h.step op).counter_lt_of_blocks ops hlast)
            rw [step_len] at hleft
            have hstart := h.le_of_mem_blocks [op] ((s.call op).1.toNat, op.size.toNat)
              (by simp [blocks, hnull])
            dsimp only at hstart ⊢
            omega
          · exact hin b hb

/-- A call that returns `NULL` changes nothing, unless the chunk starts at address `0`. -/
lemma Fits32.step_eq_of_null (h : s.Fits32) {op : AllocOp}
    (hcond : s.start ≠ 0 ∨ s.len = 0 ∨ op.size = 0) (hnull : (s.call op).1 = 0) :
    s.step op = s := by
  rcases call_cases s op with ⟨-, hc⟩ | ⟨hlt, hsize, hc⟩
  · rw [Mmgmt.step, hc]
  · rcases hcond with hstart | hlen | hzero
    · have haddr := h.addr hlt
      have hpos := toNat_ne_zero.mpr hstart
      rw [hc] at hnull
      dsimp only at hnull
      rw [hnull, UInt32.toNat_zero] at haddr
      omega
    · rw [hlen] at hlt
      exact absurd hlt (UInt32.not_lt_zero)
    · exact absurd hzero hsize

/-- If a block may start at address `0`, the calls that return `NULL` change nothing only if
nothing is ever asked for: the first request that is served returns `NULL`. -/
lemma size_eq_zero_of_null (hstart : s.start = 0) (hcounter : s.counter = 0) (hlen : s.len ≠ 0)
    (ops : List AllocOp)
    (hnull : Run.Along step (fun s op => (s.call op).1 = 0 → s.step op = s) s ops)
    (hsize : ∀ op ∈ ops, op.size.toNat < 2 ^ 32 - 4096) : ∀ op ∈ ops, op.size = 0 := by
  induction ops with
  | nil => simp
  | cons op ops ih =>
    have hop : op.size = 0 := by
      by_contra hne
      have hlt : s.counter < s.len := by
        rw [UInt32.lt_iff_toNat_lt, hcounter]
        exact Nat.pos_of_ne_zero (toNat_ne_zero.mpr hlen)
      rcases call_cases s op with ⟨hfull | hzero, -⟩ | ⟨-, -, hc⟩
      · exact absurd hlt (UInt32.not_lt.mpr hfull)
      · exact hne hzero
      · have hsame := congrArg Mmgmt.counter (hnull.1 (by rw [hc, hstart, hcounter]; rfl))
        rw [Mmgmt.step, hc, hcounter, UInt32.zero_add, ← UInt32.toNat_inj,
          mmgmtPages_toNat] at hsame
        have := hsize op (by simp)
        rw [UInt32.toNat_zero] at hsame
        omega
    have hstep : s.step op = s := by
      rcases call_cases s op with ⟨-, hc⟩ | ⟨-, hne, -⟩
      · rw [Mmgmt.step, hc]
      · exact absurd hop hne
    have hrest := hnull.2
    rw [hstep] at hrest
    intro op' hmem
    rcases List.mem_cons.mp hmem with rfl | hmem
    · exact hop
    · exact ih hrest (fun op'' h'' => hsize op'' (by simp [h''])) op' hmem

end Mmgmt

/-- **When the allocator keeps its promises.** For every memory map whose chunk ends at or below
4 GiB and every sequence of calls with sizes below `2 ^ 32 - 4096` after `mmgmt_init`: the counter
never wraps, blocks are disjoint, all but the last lie inside the chunk and calls that return
`NULL` change nothing, exactly when no block is served from address `0`: the chunk starts
elsewhere or is empty, or nothing is asked for.

**Proof sketch.** The first three promises always hold (`Fits32.counter_le_step`,
`Fits32.blocks_spec`). A call that returns `NULL` without refusing does so because the address it
serves is `0`, which is the first page of a chunk that starts at `0`; and the first request to
such a chunk is of that kind (`size_eq_zero_of_null`). -/
theorem mmgmt_disjointness (mmap : ℕ → MmapEntry) (n : Int32) (hfits : (mmgmtInit mmap n).Fits32)
    (ops : List AllocOp) (hsize : ∀ op ∈ ops, op.size.toNat < 2 ^ 32 - 4096) :
    (mmgmtInit mmap n).Sound ops ↔
      (mmgmtInit mmap n).start ≠ 0 ∨ (mmgmtInit mmap n).len = 0 ∨ ∀ op ∈ ops, op.size = 0 := by
  constructor
  · intro hsound
    by_contra hcon
    rw [not_or, not_or, not_not] at hcon
    obtain ⟨hstart, hlen, hreq⟩ := hcon
    exact hreq (Mmgmt.size_eq_zero_of_null hstart rfl hlen ops hsound.null hsize)
  · intro hcond
    obtain ⟨hdis, hin⟩ := hfits.blocks_spec ops hsize
    refine ⟨?_, hdis, hin, ?_⟩
    · exact Run.along_of_invariant_of_forall (fun _ op h => h.step op)
        (fun _ op h => h.counter_le_step op) hfits ops
    · have hmem : Run.Along Mmgmt.step (fun _ op => op ∈ ops) (mmgmtInit mmap n) ops :=
        Run.along_iff_forall_mem.mpr fun _ h => h
      -- the chunk does not change along the run
      refine Run.along_of_invariant (I := fun t => t.Fits32 ∧ t.start = (mmgmtInit mmap n).start ∧
        t.len = (mmgmtInit mmap n).len) (fun t op ht _ => ?_) (fun t op ht hop => ?_)
        ⟨hfits, rfl, rfl⟩ hmem
      · exact ⟨ht.1.step op, by rw [Mmgmt.step_start, ht.2.1], by rw [Mmgmt.step_len, ht.2.2]⟩
      · refine ht.1.step_eq_of_null ?_
        rw [ht.2.1, ht.2.2]
        exact hcond.imp_right (Or.imp_right fun h => h op hop)

/-- Three requests, one of them refused because nothing is left. -/
theorem mmgmt_disjointness_two_pages :
    (mmgmtInit mmapTwoPages 1).Sound [.malloc 4095, .free 0x100000, .mmgmtAlloc 5000, .malloc 1] :=
  (mmgmt_disjointness mmapTwoPages 1 (by decide) _ (by decide)).mpr (.inl (by decide))

/-- A memory map whose only usable entry is conventional memory, from address `0` on. -/
def mmapLowMemory : ℕ → MmapEntry := fun _ => ⟨0, 0x9fc00, 1⟩

/-- The first block of that chunk is returned as `NULL`, and its page is gone. -/
theorem mmgmt_disjointness_null :
    (mmgmtInit mmapLowMemory 1).Fits32 ∧ ¬(mmgmtInit mmapLowMemory 1).Sound [.malloc 1] := by
  refine ⟨by decide, fun h => ?_⟩
  exact absurd (h.null.1 (by decide)) (by decide)

end Korolev
