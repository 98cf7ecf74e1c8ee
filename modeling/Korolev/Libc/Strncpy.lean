import Korolev.Libc.String
import Korolev.Library.Loop

set_option relaxedAutoImplicit false
set_option autoImplicit false

/-!
# `strncpy` and `strncat`, access by access

`strncpy` and `strncat` of `libc/stdlib.c` count `n` down in the condition of their loops, so that
it is one less, or wraps, on every way out; and they move both pointers in the assignment that
copies a byte. Here they work on one memory of 32-bit addresses, which records every read and every
store in order.

Both copy bytes until `n` is used up or a terminator has been copied. `strncpy` returns in the first
case and fills up with `0` in the second; `strncat`, which first looks for the terminator of `dest`,
stores a terminator in the first case and returns in the second.

## Main definitions

* `Korolev.Mem` — a memory with its accesses.
* `Korolev.copyBody` — the copying loop of both functions.
* `Korolev.Mem.strncpy`, `Korolev.Mem.strncat` — the functions.

## Main results

* `Korolev.returns_copyBody` — what the copying loop does.
* `Korolev.Mem.strncpy_returns`, `Korolev.Mem.strncat_returns` — what the functions do, as
  sequences of accesses.
* `Korolev.strncpy_strncat_exact` — the cells that are read and stored to, and what they hold then.
* `Korolev.Mem.region_strncpy` — the function on regions of `Korolev.Libc.String` has the same
  effect.
-/

namespace Korolev

open Bytes CStr

/-! ## Memory -/

/-- A memory, with the addresses of all reads and all stores so far. -/
structure Mem where
  cell : LONG → BYTE
  reads : List LONG
  writes : List LONG

namespace Mem

/-- A read of `*p`. -/
def read (mem : Mem) (p : LONG) : BYTE × Mem :=
  (mem.cell p, { mem with reads := mem.reads ++ [p] })

/-- `*p = v` -/
def store (mem : Mem) (p : LONG) (v : BYTE) : Mem :=
  { mem with cell := Function.update mem.cell p v, writes := mem.writes ++ [p] }

/-- The memory behind a pointer. -/
def region (mem : Mem) (p : LONG) : ℕ → BYTE := fun i => mem.cell (p + UInt32.ofNat i)

end Mem

/-! ## The functions -/

/-- The variables of `strncpy` and `strncat`. -/
structure CopyState where
  mem : Mem
  dest : LONG
  src : LONG
  n : LONG

/-- The ways out of the copying loop. -/
inductive CopyExit where
  | counted (st : CopyState)
  | terminated (st : CopyState)

/-- The copying loop: `do { if (!n--) return ret; } while ((*dest++ = *src++));` in `strncpy`,
`while (n--) if (!(*dest++ = *src++)) return ret;` in `strncat`. -/
def copyBody (st : CopyState) : CopyState ⊕ CopyExit :=
  let n := st.n
  let st := { st with n := st.n - 1 }
  if n = 0 then .inr (.counted st)
  else
    let r := st.mem.read st.src
    let st := { st with mem := r.2.store st.dest r.1, dest := st.dest + 1, src := st.src + 1 }
    if r.1 = 0 then .inr (.terminated st) else .inl st

/-- The loop `while (n--) *dest++ = 0;` of `strncpy`. -/
def fillBody (st : CopyState) : CopyState ⊕ Mem :=
  let n := st.n
  let st := { st with n := st.n - 1 }
  if n = 0 then .inr st.mem
  else .inl { st with mem := st.mem.store st.dest 0, dest := st.dest + 1 }

/-- The loop `while (*dest) dest++;` of `strncat`. -/
def scanBody (st : CopyState) : CopyState ⊕ CopyState :=
  let r := st.mem.read st.dest
  let st := { st with mem := r.2 }
  if r.1 = 0 then .inr st else .inl { st with dest := st.dest + 1 }

namespace Mem

/-- `strncpy(dest, src, n)`, with the fuel for its loops: the memory and the pointer returned. -/
def strncpy (mem : Mem) (fuel : ℕ) (dest src n : LONG) : Option (Mem × LONG) :=
  let ret := dest
  match Loop.run copyBody fuel ⟨mem, dest, src, n⟩ with
  | none => none
  | some (.counted st) => some (st.mem, ret)
  | some (.terminated st) => (Loop.run fillBody fuel st).map fun mem => (mem, ret)

/-- `strncat(dest, src, n)`, with the fuel for its loops. -/
def strncat (mem : Mem) (fuel : ℕ) (dest src n : LONG) : Option (Mem × LONG) :=
  let ret := dest
  match Loop.run scanBody fuel ⟨mem, dest, src, n⟩ with
  | none => none
  | some st =>
    match Loop.run copyBody fuel st with
    | none => none
    | some (.terminated st) => some (st.mem, ret)
    | some (.counted st) => some (st.mem.store st.dest 0, ret)

end Mem

/-! ## Addresses -/

/-- The `k` addresses from `p` on. -/
def addresses (p : LONG) (k : ℕ) : List LONG := (List.range k).map fun i => p + UInt32.ofNat i

lemma addresses_succ (p : LONG) (k : ℕ) : addresses p (k + 1) = p :: addresses (p + 1) k := by
  rw [addresses, addresses, List.range_succ_eq_map, List.map_cons, List.map_map]
  refine congrArg₂ _ (add_ofNat_zero p) (List.map_congr_left fun i _ => ?_)
  exact (add_one_add_ofNat p i).symm

lemma mem_addresses {p a : LONG} {k : ℕ} : a ∈ addresses p k ↔ ∃ i < k, a = p + UInt32.ofNat i := by
  simp only [addresses, List.mem_map, List.mem_range, eq_comm]

/-- Different positions are at different addresses. -/
lemma add_ofNat_inj {p : LONG} {i j : ℕ} (hi : i < 2 ^ 32) (hj : j < 2 ^ 32) :
    p + UInt32.ofNat i = p + UInt32.ofNat j ↔ i = j := by
  rw [UInt32.add_right_inj, ← UInt32.toNat_inj, toNat_ofNat_of_lt hi, toNat_ofNat_of_lt hj]

/-- An address is not among those behind it. -/
lemma notMem_addresses {p : LONG} {k : ℕ} (hk : k < 2 ^ 32) : p ∉ addresses (p + 1) k := by
  intro h
  obtain ⟨i, hi, heq⟩ := mem_addresses.mp h
  rw [add_one_add_ofNat] at heq
  have hzero : p + UInt32.ofNat 0 = p + UInt32.ofNat (i + 1) := (add_ofNat_zero p).trans heq
  exact absurd ((add_ofNat_inj (by omega) (by omega)).mp hzero) (Nat.succ_ne_zero i).symm

/-- The positions of two stretches one behind the other. -/
lemma addresses_append (p : LONG) (j k : ℕ) :
    addresses p j ++ addresses (p + UInt32.ofNat j) k = addresses p (j + k) := by
  rw [addresses, addresses, addresses, List.range_add, List.map_append, List.map_map]
  refine congrArg _ (List.map_congr_left fun i _ => ?_)
  rw [Function.comp_apply, UInt32.ofNat_add, UInt32.add_assoc]

/-! ## Sequences of accesses -/

namespace Mem

/-- `k` times `*dest++ = *src++`. -/
def copyN (mem : Mem) (dest src : LONG) : (k : ℕ) → Mem
  | 0 => mem
  | k + 1 => ((mem.read src).2.store dest (mem.cell src)).copyN (dest + 1) (src + 1) k

/-- `k` times `*dest++ = 0`. -/
def fillN (mem : Mem) (dest : LONG) : (k : ℕ) → Mem
  | 0 => mem
  | k + 1 => (mem.store dest 0).fillN (dest + 1) k

/-- `k` times a read of `*p++`. -/
def readN (mem : Mem) (p : LONG) : (k : ℕ) → Mem
  | 0 => mem
  | k + 1 => (mem.read p).2.readN (p + 1) k

lemma store_self (mem : Mem) (p : LONG) (v : BYTE) : (mem.store p v).cell p = v :=
  Function.update_self _ _ _

lemma store_of_ne (mem : Mem) {p a : LONG} (v : BYTE) (h : a ≠ p) :
    (mem.store p v).cell a = mem.cell a :=
  Function.update_of_ne h _ _

lemma region_zero (mem : Mem) (p : LONG) : mem.region p 0 = mem.cell p :=
  congrArg mem.cell (add_ofNat_zero p)

lemma region_succ (mem : Mem) (p : LONG) (i : ℕ) : mem.region p (i + 1) = mem.region (p + 1) i :=
  congrArg mem.cell (add_one_add_ofNat p i).symm

section CopyN

variable (mem : Mem) (dest src : LONG)

lemma copyN_log (k : ℕ) : (mem.copyN dest src k).reads = mem.reads ++ addresses src k ∧
    (mem.copyN dest src k).writes = mem.writes ++ addresses dest k := by
  induction k generalizing mem dest src with
  | zero => exact ⟨(List.append_nil _).symm, (List.append_nil _).symm⟩
  | succ k ih =>
    rw [copyN, addresses_succ, addresses_succ]
    obtain ⟨hreads, hwrites⟩ := ih ((mem.read src).2.store dest (mem.cell src)) (dest + 1) (src + 1)
    exact ⟨by rw [hreads]; simp [read, store], by rw [hwrites]; simp [read, store]⟩

/-- Copying changes no other cell. -/
lemma copyN_frame {k : ℕ} {a : LONG} (ha : a ∉ addresses dest k) :
    (mem.copyN dest src k).cell a = mem.cell a := by
  induction k generalizing mem dest src with
  | zero => rfl
  | succ k ih =>
    rw [addresses_succ, List.mem_cons, not_or] at ha
    rw [copyN, ih _ _ _ ha.2, store_of_ne _ _ ha.1]
    rfl

/-- A cell of the copy, if no store meets a cell that is still to be read. -/
lemma copyN_cell {k : ℕ} (hk : k ≤ 2 ^ 32)
    (hapart : ∀ i < k, ∀ j < k, dest + UInt32.ofNat i ≠ src + UInt32.ofNat j) :
    ∀ i < k, (mem.copyN dest src k).region dest i = mem.region src i := by
  induction k generalizing mem dest src with
  | zero => exact fun i hi => absurd hi (Nat.not_lt_zero i)
  | succ k ih =>
    intro i hi
    rw [copyN]
    cases i with
    | zero =>
      rw [region_zero, region_zero, copyN_frame _ _ _ (notMem_addresses (by omega)), store_self]
    | succ i =>
      rw [region_succ, region_succ]
      have hrest := ih ((mem.read src).2.store dest (mem.cell src)) (dest + 1) (src + 1) (by omega)
        (fun i hi j hj => by
          rw [add_one_add_ofNat, add_one_add_ofNat]
          exact hapart _ (by omega) _ (by omega)) i (by omega)
      have hne : src + 1 + UInt32.ofNat i ≠ dest := by
        have h := hapart 0 (by omega) (i + 1) (by omega)
        rw [← add_one_add_ofNat] at h
        exact fun heq => h ((add_ofNat_zero dest).trans heq.symm)
      exact hrest.trans (store_of_ne _ _ hne)

end CopyN

section FillN

variable (mem : Mem) (dest : LONG)

lemma fillN_log (k : ℕ) : (mem.fillN dest k).reads = mem.reads ∧
    (mem.fillN dest k).writes = mem.writes ++ addresses dest k := by
  induction k generalizing mem dest with
  | zero => exact ⟨rfl, (List.append_nil _).symm⟩
  | succ k ih =>
    rw [fillN, addresses_succ]
    obtain ⟨hreads, hwrites⟩ := ih (mem.store dest 0) (dest + 1)
    exact ⟨hreads, by rw [hwrites]; simp [store]⟩

/-- Filling changes no other cell. -/
lemma fillN_frame {k : ℕ} {a : LONG} (ha : a ∉ addresses dest k) :
    (mem.fillN dest k).cell a = mem.cell a := by
  induction k generalizing mem dest with
  | zero => rfl
  | succ k ih =>
    rw [addresses_succ, List.mem_cons, not_or] at ha
    rw [fillN, ih _ _ ha.2, store_of_ne _ _ ha.1]

lemma fillN_cell {k : ℕ} {a : LONG} (ha : a ∈ addresses dest k) :
    (mem.fillN dest k).cell a = 0 := by
  induction k generalizing mem dest with
  | zero => exact absurd ha List.not_mem_nil
  | succ k ih =>
    rw [fillN]
    by_cases hrest : a ∈ addresses (dest + 1) k
    · exact ih _ _ hrest
    · rw [addresses_succ] at ha
      obtain rfl := (List.mem_cons.mp ha).resolve_right hrest
      rw [fillN_frame _ _ hrest, store_self]

end FillN

/-- Reading changes the record only. -/
lemma readN_eq (mem : Mem) (p : LONG) (k : ℕ) :
    mem.readN p k = { mem with reads := mem.reads ++ addresses p k } := by
  induction k generalizing mem p with
  | zero => simp [readN, addresses]
  | succ k ih =>
    rw [readN, ih, addresses_succ]
    simp [read]

lemma readN_region (mem : Mem) (p : LONG) (k : ℕ) (q : LONG) :
    (mem.readN p k).region q = mem.region q := by
  rw [readN_eq]
  rfl

/-- The last of several copies. -/
lemma copyN_succ_last (mem : Mem) (dest src : LONG) (k : ℕ) :
    mem.copyN dest src (k + 1) =
      (mem.copyN dest src k).copyN (dest + UInt32.ofNat k) (src + UInt32.ofNat k) 1 := by
  induction k generalizing mem dest src with
  | zero =>
    rw [add_ofNat_zero, add_ofNat_zero]
    rfl
  | succ k ih =>
    rw [copyN, ih, add_one_add_ofNat, add_one_add_ofNat]
    rfl

/-- The bytes of the string at `src` below `n`, with its terminator, are apart from the `count`
cells from `dest` on. -/
def Apart (mem : Mem) (dest : LONG) (count : ℕ) (src : LONG) (n : ℕ) : Prop :=
  ∀ i < count, ∀ j < n, (∀ l < j, mem.region src l ≠ 0) →
    dest + UInt32.ofNat i ≠ src + UInt32.ofNat j

/-- Reads change nothing about it. -/
lemma Apart.readN {mem : Mem} {dest src : LONG} {count n : ℕ} (h : mem.Apart dest count src n)
    (p : LONG) (k : ℕ) : (mem.readN p k).Apart dest count src n := by
  rw [Apart, readN_region]
  exact h

end Mem

/-! ## The loops -/

/-- An iteration of the copying loop that copies a byte. -/
lemma copyBody_succ (mem : Mem) (dest src : LONG) {n : ℕ} (hn : n + 1 < 2 ^ 32) :
    copyBody ⟨mem, dest, src, UInt32.ofNat (n + 1)⟩ =
      if mem.cell src = 0 then
        .inr (.terminated ⟨mem.copyN dest src 1, dest + 1, src + 1, UInt32.ofNat n⟩)
      else .inl ⟨mem.copyN dest src 1, dest + 1, src + 1, UInt32.ofNat n⟩ := by
  rw [copyBody]
  dsimp only
  rw [if_neg (ofNat_succ_ne_zero hn), ofNat_succ_sub_one]
  rfl

/-- Bytes that are not `0` are copied, and the loop goes on. -/
lemma returns_copyBody_iff {mem : Mem} {dest src : LONG} {n k : ℕ} (hk : k + n < 2 ^ 32)
    (hne : ∀ j < k, (mem.copyN dest src j).region src j ≠ 0) (e : CopyExit) :
    Loop.Returns copyBody ⟨mem, dest, src, UInt32.ofNat (k + n)⟩ e ↔
      Loop.Returns copyBody ⟨mem.copyN dest src k, dest + UInt32.ofNat k, src + UInt32.ofNat k,
        UInt32.ofNat n⟩ e := by
  induction k generalizing n with
  | zero =>
    rw [add_ofNat_zero, add_ofNat_zero, Nat.zero_add]
    rfl
  | succ k ih =>
    have hbyte := hne k (Nat.lt_succ_self k)
    rw [Nat.add_right_comm, Nat.add_assoc, ih (by omega) fun j hj => hne j (by omega),
      Loop.returns_next_iff ((copyBody_succ _ _ _ (by omega)).trans (if_neg hbyte)),
      ← Mem.copyN_succ_last, UInt32.add_assoc, UInt32.add_assoc, ofNat_add_one]

section Apart

variable {mem : Mem} {dest src : LONG} {count n : ℕ} (happart : mem.Apart dest count src n)
include happart

/-- The bytes before the terminator and below `n` stay as they are until they are read. -/
lemma Mem.Apart.region_copyN {j : ℕ} (hcount : j ≤ count) (hj : j < n)
    (hne : ∀ l < j, mem.region src l ≠ 0) :
    (mem.copyN dest src j).region src j = mem.region src j := by
  apply Mem.copyN_frame
  intro hmem
  obtain ⟨i, hi, heq⟩ := mem_addresses.mp hmem
  exact happart i (by omega) j hj hne heq.symm

/-- The copy of the bytes up to the terminator. -/
lemma Mem.Apart.copyN_cell {k : ℕ} (hk : k ≤ 2 ^ 32) (hcount : k ≤ count) (hn : k ≤ n)
    (hne : ∀ j, j + 1 < k → mem.region src j ≠ 0) :
    ∀ i < k, (mem.copyN dest src k).region dest i = mem.region src i :=
  Mem.copyN_cell mem dest src hk fun i hi j hj =>
    happart i (by omega) j (by omega) fun l hl => hne l (by omega)

/-- **The copying loop** copies the bytes before the terminator, and then ends: with the count used
up, or with one more copy, of the terminator. -/
lemma returns_copyBody (hn : n < 2 ^ 32) (hcount : strnlen (mem.region src) n ≤ count) :
    Loop.Returns copyBody ⟨mem, dest, src, UInt32.ofNat n⟩
      (if strnlen (mem.region src) n = n then
        .counted ⟨mem.copyN dest src n, dest + UInt32.ofNat n, src + UInt32.ofNat n, 0 - 1⟩
      else .terminated ⟨mem.copyN dest src (strnlen (mem.region src) n + 1),
        dest + UInt32.ofNat (strnlen (mem.region src) n + 1),
        src + UInt32.ofNat (strnlen (mem.region src) n + 1),
        UInt32.ofNat (n - (strnlen (mem.region src) n + 1))⟩) := by
  obtain ⟨hle, hne, hend⟩ := strnlen_spec n (mem.region src)
  generalize strnlen (mem.region src) n = k at hle hne hend hcount ⊢
  -- the bytes that the iterations see are those at the start
  have hseen : ∀ j ≤ k, j < n → (mem.copyN dest src j).region src j = mem.region src j :=
    fun j hj hjn => happart.region_copyN (by omega) hjn fun l hl => hne l (by omega)
  obtain ⟨m, rfl⟩ : ∃ m, n = k + m := ⟨n - k, by omega⟩
  rw [returns_copyBody_iff hn fun j hj => by rw [hseen j (by omega) (by omega)]; exact hne j hj]
  cases m with
  | zero =>
    rw [if_pos (Nat.add_zero k).symm]
    apply Loop.Returns.exit
    rfl
  | succ m =>
    have hzero : (mem.copyN dest src k).region src k = 0 := by
      rw [hseen k le_rfl (by omega)]
      exact hend (by omega)
    rw [if_neg (by omega)]
    apply Loop.Returns.exit
    rw [copyBody_succ _ _ _ (by omega)]
    have hleft : k + (m + 1) - (k + 1) = m := by omega
    rw [hleft, ← Mem.copyN_succ_last, UInt32.add_assoc, UInt32.add_assoc, ofNat_add_one]
    exact if_pos hzero

end Apart

/-- The filling loop. -/
lemma returns_fillBody (mem : Mem) (dest src : LONG) {n : ℕ} (hn : n < 2 ^ 32) :
    Loop.Returns fillBody ⟨mem, dest, src, UInt32.ofNat n⟩ (mem.fillN dest n) := by
  induction n generalizing mem dest with
  | zero =>
    apply Loop.Returns.exit
    rfl
  | succ n ih =>
    have hbody : fillBody ⟨mem, dest, src, UInt32.ofNat (n + 1)⟩ =
        .inl ⟨mem.store dest 0, dest + 1, src, UInt32.ofNat n⟩ := by
      rw [fillBody]
      dsimp only
      rw [if_neg (ofNat_succ_ne_zero hn), ofNat_succ_sub_one]
    exact Loop.Returns.next hbody (ih _ _ (by omega))

/-- The loop that looks for the terminator of `dest`. -/
lemma returns_scanBody (mem : Mem) (dest src n : LONG) {d : ℕ}
    (hne : ∀ i < d, mem.region dest i ≠ 0) (hend : mem.region dest d = 0) :
    Loop.Returns scanBody ⟨mem, dest, src, n⟩
      ⟨mem.readN dest (d + 1), dest + UInt32.ofNat d, src, n⟩ := by
  induction d generalizing mem dest with
  | zero =>
    rw [Mem.region_zero] at hend
    rw [add_ofNat_zero]
    apply Loop.Returns.exit
    exact if_pos hend
  | succ d ih =>
    have hbyte := hne 0 (Nat.succ_pos d)
    rw [Mem.region_zero] at hbyte
    have hbody : scanBody ⟨mem, dest, src, n⟩ = .inl ⟨(mem.read dest).2, dest + 1, src, n⟩ :=
      if_neg hbyte
    rw [← add_one_add_ofNat]
    apply Loop.Returns.next hbody
    apply ih
    · intro i hi
      have := hne (i + 1) (by omega)
      rwa [Mem.region_succ] at this
    · rwa [Mem.region_succ] at hend

/-! ## What the functions do -/

namespace Mem

/-- The bytes of `src` that are read: those up to the terminator and below `n`. -/
def readCount (mem : Mem) (src n : LONG) : ℕ := min n.toNat (strnlen (mem.region src) n.toNat + 1)

/-- A byte of `src` is read iff no terminator is before it. -/
lemma lt_readCount_iff {mem : Mem} {src n : LONG} {i : ℕ} (hi : i < n.toNat) :
    i < mem.readCount src n ↔ ∀ j < i, mem.region src j ≠ 0 := by
  obtain ⟨-, hne, hend⟩ := strnlen_spec n.toNat (mem.region src)
  rw [readCount]
  constructor
  · intro hlt j hj
    exact hne j (by omega)
  · intro hbefore
    by_contra hge
    exact hbefore (strnlen (mem.region src) n.toNat) (by omega) (hend (by omega))

/-- No byte that is read, but the last one, is a terminator. -/
lemma readCount_spec (mem : Mem) (src n : LONG) : mem.readCount src n ≤ n.toNat ∧
    ∀ j, j + 1 < mem.readCount src n → mem.region src j ≠ 0 := by
  have hle : mem.readCount src n ≤ n.toNat := Nat.min_le_left _ _
  exact ⟨hle, fun j hj => (lt_readCount_iff (by omega)).mp hj j (Nat.lt_succ_self j)⟩

/-- **`strncpy`** copies the bytes it reads and fills up with `0`. -/
lemma strncpy_returns {mem : Mem} {dest src n : LONG}
    (happart : mem.Apart dest n.toNat src n.toNat) :
    ∃ fuel, mem.strncpy fuel dest src n =
      some ((mem.copyN dest src (mem.readCount src n)).fillN
        (dest + UInt32.ofNat (mem.readCount src n)) (n.toNat - mem.readCount src n), dest) := by
  have hle := (strnlen_spec n.toNat (mem.region src)).1
  obtain ⟨fuel, hcopy⟩ := returns_copyBody happart n.toNat_lt hle
  rw [UInt32.ofNat_toNat] at hcopy
  by_cases hfull : strnlen (mem.region src) n.toNat = n.toNat
  · have hcount : mem.readCount src n = n.toNat := by
      rw [readCount]
      omega
    rw [if_pos hfull] at hcopy
    refine ⟨fuel, ?_⟩
    rw [strncpy, hcopy, hcount, Nat.sub_self]
    rfl
  · have hcount : mem.readCount src n = strnlen (mem.region src) n.toNat + 1 := by
      rw [readCount]
      omega
    rw [if_neg hfull, ← hcount] at hcopy
    have hlt := n.toNat_lt
    obtain ⟨fuel', hfill⟩ := returns_fillBody (mem.copyN dest src (mem.readCount src n))
      (dest + UInt32.ofNat (mem.readCount src n)) (src + UInt32.ofNat (mem.readCount src n))
      (show n.toNat - mem.readCount src n < 2 ^ 32 by omega)
    refine ⟨max fuel fuel', ?_⟩
    rw [strncpy, Loop.run_mono (Nat.le_max_left _ _) hcopy]
    dsimp only
    rw [Loop.run_mono (Nat.le_max_right _ _) hfill]
    rfl

/-- **`strncat`** reads the string at `dest`, copies the bytes it reads from its terminator on, and
stores a terminator behind them if it has not copied one. -/
lemma strncat_returns {mem : Mem} {dest src n : LONG} {dstr : List BYTE}
    (hdest : IsString (mem.region dest) dstr)
    (happart : mem.Apart (dest + UInt32.ofNat dstr.length)
      (strnlen (mem.region src) n.toNat + 1) src n.toNat) :
    ∃ fuel, mem.strncat fuel dest src n =
      some (if strnlen (mem.region src) n.toNat = n.toNat then
        ((mem.readN dest (dstr.length + 1)).copyN (dest + UInt32.ofNat dstr.length) src
          n.toNat).store (dest + UInt32.ofNat dstr.length + n) 0
      else (mem.readN dest (dstr.length + 1)).copyN (dest + UInt32.ofNat dstr.length) src
        (strnlen (mem.region src) n.toNat + 1), dest) := by
  have hle := (strnlen_spec n.toNat (mem.region src)).1
  obtain ⟨fuel, hscan⟩ := returns_scanBody mem dest src n (fun i hi => hdest.ne_zero hi)
    hdest.terminator
  obtain ⟨fuel', hcopy⟩ := returns_copyBody (happart.readN dest (dstr.length + 1)) n.toNat_lt
    (by rw [readN_region]; omega)
  rw [UInt32.ofNat_toNat, readN_region] at hcopy
  refine ⟨max fuel fuel', ?_⟩
  rw [strncat, Loop.run_mono (Nat.le_max_left _ _) hscan]
  dsimp only
  rw [Loop.run_mono (Nat.le_max_right _ _) hcopy]
  by_cases hfull : strnlen (mem.region src) n.toNat = n.toNat
  · rw [if_pos hfull, if_pos hfull]
  · rw [if_neg hfull, if_neg hfull]

/-- What `strncpy` has stored. -/
lemma strncpy_region {mem : Mem} {dest src n : LONG} (happart : mem.Apart dest n.toNat src n.toNat)
    {i : ℕ} (hi : i < n.toNat) :
    ((mem.copyN dest src (mem.readCount src n)).fillN (dest + UInt32.ofNat (mem.readCount src n))
      (n.toNat - mem.readCount src n)).region dest i =
        if ∀ j < i, mem.region src j ≠ 0 then mem.region src i else 0 := by
  obtain ⟨hle, hne⟩ := mem.readCount_spec src n
  have hlt := n.toNat_lt
  by_cases hread : i < mem.readCount src n
  · rw [if_pos ((lt_readCount_iff hi).mp hread),
      ← happart.copyN_cell (by omega) hle hle hne i hread]
    -- the filling loop starts behind it
    apply fillN_frame
    intro hmem
    obtain ⟨m, hm, heq⟩ := mem_addresses.mp hmem
    rw [UInt32.add_assoc, ← UInt32.ofNat_add] at heq
    have := (add_ofNat_inj (by omega) (by omega)).mp heq
    omega
  · rw [if_neg (mt (lt_readCount_iff hi).mpr hread)]
    apply fillN_cell
    apply mem_addresses.mpr
    refine ⟨i - mem.readCount src n, by omega, ?_⟩
    rw [UInt32.add_assoc, ← UInt32.ofNat_add, Nat.add_sub_cancel' (by omega)]

/-- The string that `strncat` has appended. -/
lemma strncat_region {mem : Mem} {dest src n : LONG} {k : ℕ}
    (hk : k = strnlen (mem.region src) n.toNat) (happart : mem.Apart dest (k + 1) src n.toNat) :
    let mem' := if k = n.toNat then (mem.copyN dest src n.toNat).store (dest + n) 0
      else mem.copyN dest src (k + 1)
    mem'.writes = mem.writes ++ addresses dest (k + 1) ∧
      mem'.reads = mem.reads ++ addresses src (mem.readCount src n) ∧
      (∀ i < k, mem'.region dest i = mem.region src i) ∧ mem'.region dest k = 0 ∧
      ∀ a, a ∉ addresses dest (k + 1) → mem'.cell a = mem.cell a := by
  intro mem'
  obtain ⟨hle, hne, hend⟩ := strnlen_spec n.toNat (mem.region src)
  rw [← hk] at hle hne hend
  have hlt := n.toNat_lt
  by_cases hfull : k = n.toNat
  · have hmem' : mem' = (mem.copyN dest src k).store (dest + UInt32.ofNat k) 0 := by
      rw [hfull, UInt32.ofNat_toNat]
      exact if_pos hfull
    have hcount : mem.readCount src n = k := by
      rw [readCount, ← hk]
      omega
    obtain ⟨hreads, hwrites⟩ := mem.copyN_log dest src k
    have hsplit := addresses_append dest k 1
    rw [hmem', hcount]
    refine ⟨?_, hreads, fun i hi => ?_, store_self _ _ _, fun a ha => ?_⟩
    · rw [← hsplit, ← List.append_assoc, ← hwrites]
      simp [store, addresses]
    · rw [← happart.copyN_cell (by omega) (by omega) (by omega) (fun j hj => hne j (by omega)) i hi]
      exact store_of_ne _ _ (mt (add_ofNat_inj (by omega) (by omega)).mp (by omega))
    · rw [← hsplit, List.mem_append, not_or] at ha
      rw [store_of_ne, copyN_frame _ _ _ ha.1]
      rintro rfl
      exact ha.2 (by simp [addresses])
  · have hmem' : mem' = mem.copyN dest src (k + 1) := if_neg hfull
    have hcount : mem.readCount src n = k + 1 := by
      rw [readCount, ← hk]
      omega
    obtain ⟨hreads, hwrites⟩ := mem.copyN_log dest src (k + 1)
    have hcell := happart.copyN_cell (by omega) le_rfl (by omega) fun j hj => hne j (by omega)
    rw [hmem', hcount]
    refine ⟨hwrites, hreads, fun i hi => hcell i (by omega), ?_, fun a ha => copyN_frame _ _ _ ha⟩
    rw [hcell k (Nat.lt_succ_self k)]
    exact hend (by omega)

/-- The accesses of `strncpy`, and what they leave. -/
lemma strncpy_accesses {mem : Mem} {dest src n : LONG}
    (happart : mem.Apart dest n.toNat src n.toNat) :
    ∃ fuel mem', mem.strncpy fuel dest src n = some (mem', dest) ∧
      mem'.writes = mem.writes ++ addresses dest n.toNat ∧
      (∀ i < n.toNat, mem'.region dest i =
        if ∀ j < i, mem.region src j ≠ 0 then mem.region src i else 0) ∧
      (∀ a, a ∉ addresses dest n.toNat → mem'.cell a = mem.cell a) ∧
      mem'.reads = mem.reads ++ addresses src (mem.readCount src n) := by
  obtain ⟨fuel, hrun⟩ := strncpy_returns happart
  obtain ⟨hreads, hwrites⟩ := mem.copyN_log dest src (mem.readCount src n)
  obtain ⟨hfreads, hfwrites⟩ := (mem.copyN dest src (mem.readCount src n)).fillN_log
    (dest + UInt32.ofNat (mem.readCount src n)) (n.toNat - mem.readCount src n)
  have hsplit := addresses_append dest (mem.readCount src n) (n.toNat - mem.readCount src n)
  rw [Nat.add_sub_cancel' (mem.readCount_spec src n).1] at hsplit
  refine ⟨fuel, _, hrun, ?_, fun i hi => strncpy_region happart hi, fun a ha => ?_,
    hfreads.trans hreads⟩
  · rw [hfwrites, hwrites, List.append_assoc, hsplit]
  · rw [← hsplit, List.mem_append, not_or] at ha
    rw [fillN_frame _ _ ha.2, copyN_frame _ _ _ ha.1]

/-- On regions, the function of `Korolev.Libc.String` is the same. -/
lemma region_strncpy {mem : Mem} {dest src n : LONG}
    (happart : mem.Apart dest n.toNat src n.toNat) :
    ∃ fuel mem', mem.strncpy fuel dest src n = some (mem', dest) ∧ ∀ i < 2 ^ 32,
      mem'.region dest i = Korolev.strncpy (mem.region dest) 0 (mem.region src) 0 n.toNat i := by
  obtain ⟨fuel, mem', hrun, -, hcells, hframe, -⟩ := strncpy_accesses happart
  refine ⟨fuel, mem', hrun, fun i hi => ?_⟩
  rw [strncpy_eq_blit]
  by_cases hin : i < n.toNat
  · rw [hcells i hin, blit_of_mem (Nat.zero_le i) (by omega)]
    simp only [Nat.sub_zero, Nat.zero_add]
  · rw [blit_of_not_mem (by omega)]
    apply hframe
    intro hmem
    obtain ⟨j, hj, heq⟩ := mem_addresses.mp hmem
    have := (add_ofNat_inj hi (by omega)).mp heq
    omega

/-- The accesses of `strncat`, and what they leave. -/
lemma strncat_accesses {mem : Mem} {dest src n : LONG} {dstr : List BYTE} {k : ℕ}
    (hdest : IsString (mem.region dest) dstr) (hk : k = strnlen (mem.region src) n.toNat)
    (happart : mem.Apart (dest + UInt32.ofNat dstr.length) (k + 1) src n.toNat) :
    ∃ fuel mem', mem.strncat fuel dest src n = some (mem', dest) ∧
      mem'.writes = mem.writes ++ addresses (dest + UInt32.ofNat dstr.length) (k + 1) ∧
      (∀ i < k, mem'.region dest (dstr.length + i) = mem.region src i) ∧
      mem'.region dest (dstr.length + k) = 0 ∧
      (∀ a, a ∉ addresses (dest + UInt32.ofNat dstr.length) (k + 1) → mem'.cell a = mem.cell a) ∧
      mem'.reads = mem.reads ++ addresses dest (dstr.length + 1) ++
        addresses src (mem.readCount src n) := by
  obtain ⟨fuel, hrun⟩ := strncat_returns hdest (hk ▸ happart)
  have hread := mem.readN_eq dest (dstr.length + 1)
  have hk' : k = strnlen ((mem.readN dest (dstr.length + 1)).region src) n.toNat := by
    rw [readN_region]
    exact hk
  obtain ⟨hwrites, hreads, hcells, hend, hframe⟩ :=
    strncat_region hk' (happart.readN dest (dstr.length + 1))
  rw [hread] at hwrites hreads hcells hend hframe hrun
  rw [← hk] at hrun
  have hpos : ∀ (m : Mem) i, m.region (dest + UInt32.ofNat dstr.length) i =
      m.region dest (dstr.length + i) := fun m i => by
    rw [region, UInt32.add_assoc, ← UInt32.ofNat_add]
    rfl
  refine ⟨fuel, _, hrun, hwrites, fun i hi => ?_, ?_, hframe, hreads⟩
  · rw [← hpos]
    exact hcells i hi
  · rw [← hpos]
    exact hend

end Mem

/-- **`strncpy` and `strncat`, access by access.** For every memory, every `n`, and every `dest` and
`src` that are apart:

`strncpy` returns `dest`. It stores once to each of the cells `0` to `n - 1` of `dest`, in this
order, and to no other one; they then hold the bytes of `src` up to the first terminator, and `0`
behind it.

`strncat`, for a string at `dest` of length `d` and `k` the number of bytes of `src` before the
first terminator and below `n`, returns `dest`. It stores once to each of the cells `d` to `d + k`
of `dest`, in this order, and to no other one; they then hold `k` bytes of `src` and a terminator.

Both read the bytes of `src` one after the other, not more than `n` of them and none behind the
first terminator. -/
theorem strncpy_strncat_exact (mem : Mem) (dest src n : LONG) :
    (mem.Apart dest n.toNat src n.toNat →
      ∃ fuel mem' r, mem.strncpy fuel dest src n = some (mem', dest) ∧
        mem'.writes = mem.writes ++ addresses dest n.toNat ∧
        (∀ i < n.toNat, mem'.region dest i =
          if ∀ j < i, mem.region src j ≠ 0 then mem.region src i else 0) ∧
        (∀ a, a ∉ addresses dest n.toNat → mem'.cell a = mem.cell a) ∧
        mem'.reads = mem.reads ++ addresses src r ∧ r ≤ n.toNat ∧
        ∀ j, j + 1 < r → mem.region src j ≠ 0) ∧
    ∀ dstr d k, IsString (mem.region dest) dstr → d = dstr.length →
      k = strnlen (mem.region src) n.toNat →
      mem.Apart (dest + UInt32.ofNat d) (k + 1) src n.toNat →
      (∀ str, IsString (mem.region src) str → k = min n.toNat str.length) ∧
      ∃ fuel mem' r, mem.strncat fuel dest src n = some (mem', dest) ∧
        mem'.writes = mem.writes ++ addresses (dest + UInt32.ofNat d) (k + 1) ∧
        (∀ i < k, mem'.region dest (d + i) = mem.region src i) ∧ mem'.region dest (d + k) = 0 ∧
        (∀ a, a ∉ addresses (dest + UInt32.ofNat d) (k + 1) → mem'.cell a = mem.cell a) ∧
        mem'.reads = mem.reads ++ addresses dest (d + 1) ++ addresses src r ∧ r ≤ n.toNat ∧
        ∀ j, j + 1 < r → mem.region src j ≠ 0 := by
  obtain ⟨hle, hne⟩ := mem.readCount_spec src n
  constructor
  · intro happart
    obtain ⟨fuel, mem', hrun, hwrites, hcells, hframe, hreads⟩ := Mem.strncpy_accesses happart
    exact ⟨fuel, mem', _, hrun, hwrites, hcells, hframe, hreads, hle, hne⟩
  · rintro dstr d k hdest rfl hk happart
    obtain ⟨fuel, mem', hrun, hwrites, hcells, hend, hframe, hreads⟩ :=
      Mem.strncat_accesses hdest hk happart
    exact ⟨fun str hstr => hk.trans (hstr.strnlen_eq _), fuel, mem', _, hrun, hwrites, hcells, hend,
      hframe, hreads, hle, hne⟩

/-- A memory with the strings `x` and `ab`. -/
def twoStrings : Mem where
  cell a :=
    if a = 0x1000 then 0x78 else if a = 0x2000 then 0x61 else if a = 0x2001 then 0x62 else 0
  reads := []
  writes := []

/-- Two letters, copied with a padding of two, and appended to another one. -/
theorem strncpy_strncat_two :
    (∃ fuel mem', twoStrings.strncpy fuel 0x1000 0x2000 4 = some (mem', 0x1000) ∧
      mem'.writes = addresses 0x1000 4 ∧
      ∀ i < 4, mem'.region 0x1000 i = [0x61, 0x62, 0, 0].getD i 0) ∧
    ∃ fuel mem', twoStrings.strncat fuel 0x1000 0x2000 4 = some (mem', 0x1000) ∧
      mem'.writes = addresses 0x1001 3 ∧
      (∀ i < 2, mem'.region 0x1000 (1 + i) = [0x61, 0x62].getD i 0) ∧
      mem'.region 0x1000 3 = 0 := by
  obtain ⟨hcpy, hcat⟩ := strncpy_strncat_exact twoStrings 0x1000 0x2000 4
  have hdest : IsString (twoStrings.region 0x1000) [0x78] := ⟨by decide, by decide, by decide⟩
  have hfar : ∀ i < 4, ∀ j < 4,
      (0x1000 : LONG) + UInt32.ofNat i ≠ 0x2000 + UInt32.ofNat j := by decide
  have hfar' : ∀ i < 3, ∀ j < 4,
      (0x1000 : LONG) + UInt32.ofNat 1 + UInt32.ofNat i ≠ 0x2000 + UInt32.ofNat j := by decide
  obtain ⟨fuel, mem', r, hrun, hwrites, hcells, -⟩ := hcpy fun i hi j hj _ => hfar i hi j hj
  obtain ⟨-, fuel', mem'', r', hrun', hwrites', hcells', hend', -⟩ :=
    hcat [0x78] 1 2 hdest rfl (by decide) fun i hi j hj _ => hfar' i hi j hj
  refine ⟨⟨fuel, mem', hrun, hwrites, fun i hi => ?_⟩, fuel', mem'', hrun', hwrites',
    fun i hi => ?_, hend'⟩
  · rw [hcells i hi]
    revert i
    decide
  · rw [hcells' i hi]
    revert i
    decide

end Korolev
