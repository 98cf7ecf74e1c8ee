import Korolev.Kernel.Cmdline
import Korolev.Library.Traced

set_option relaxedAutoImplicit false
set_option autoImplicit false

/-!
# The bounds of the command line and of its buffer

The loops of `multiboot_process` over the command line and of `cmdline_process` over a token test
for the terminator after they have advanced, and tokens are copied to a buffer of 256 bytes. This
file follows every access to the two: the functions of `Kernel/Cmdline.lean`, with the accesses they
make, in their order. Not followed are the accesses of the handlers, which get a pointer of their
own, and those to the names in the table.

An empty token, as there is one in the empty line, behind a leading or a trailing space and between
two spaces, makes one of the loops pass the terminator; a token of 256 bytes or more does not fit
the buffer. Nothing else goes wrong.

## Main definitions

* `Korolev.CmdAccess` — an access; `Korolev.CmdAccess.InBounds` — it is in bounds.
* `Korolev.cmdlineStringTrace` — the case of the command line with its accesses.

## Main results

* `Korolev.cmdlineStringTrace_result` — it computes what `Korolev.cmdlineString` does.
* `Korolev.cmdline_bounds_iff` — when all accesses are in bounds.
-/

namespace Korolev

open Bytes

/-! ## The bytes that `strncmp` looks at -/

/-- The positions a loop looks at that stops at the first one with `stop`, or after `n`. -/
def readsUntil (stop : ℕ → Prop) [DecidablePred stop] : (n pos : ℕ) → List ℕ
  | 0, _ => []
  | n + 1, pos => pos :: if stop pos then [] else readsUntil stop n (pos + 1)

/-- The positions the inner loop of `strncmp` looks at. -/
def strncmpScanReads (ptr0 ptr1 : ℕ → BYTE) (n pos : ℕ) : List ℕ :=
  readsUntil (fun pos => (ptr0 pos ^^^ ptr1 pos) ≠ 0 ∨ ptr0 pos = 0 ∨ ptr1 pos = 0) n pos

/-- The positions the word loop of `strncmp` looks at. -/
def strncmpFastReads (ptr0 ptr1 : ℕ → BYTE) (len : ℕ) : (n currentBlock : ℕ) → List ℕ
  | 0, _ => []
  | n + 1, currentBlock =>
    List.range' (currentBlock * 4) 4 ++
      if (le32 ptr0 (currentBlock * 4) ^^^ le32 ptr1 (currentBlock * 4)) ≠ 0 then
        strncmpScanReads ptr0 ptr1 (len - currentBlock * 4) (currentBlock * 4) ++
          match strncmpScan ptr0 ptr1 (len - currentBlock * 4) (currentBlock * 4) with
          | some _ => []
          | none => strncmpFastReads ptr0 ptr1 len n (currentBlock + 1)
      else strncmpFastReads ptr0 ptr1 len n (currentBlock + 1)

/-- The positions the last loop of `strncmp` looks at. -/
def strncmpTailReads (ptr0 ptr1 : ℕ → BYTE) (n offset : ℕ) : List ℕ :=
  readsUntil (fun offset => (ptr0 offset ^^^ ptr1 offset) ≠ 0) n offset

/-- The positions `strncmp(ptr0, ptr1, len)` looks at. -/
def strncmpReads (ptr0 ptr1 : ℕ → BYTE) (len : ℕ) : List ℕ :=
  let fast := len / 4 + 1
  let offset := (fast - 1) * 4
  let fast := if len ≤ 4 then 0 else fast
  strncmpFastReads ptr0 ptr1 len fast 0 ++
    match strncmpFast ptr0 ptr1 len fast 0 with
    | some _ => []
    | none => strncmpTailReads ptr0 ptr1 (len - offset) offset

lemma readsUntil_lt (stop : ℕ → Prop) [DecidablePred stop] (n : ℕ) : ∀ pos,
    ∀ i ∈ readsUntil stop n pos, i < pos + n := by
  induction n with
  | zero => simp [readsUntil]
  | succ n ih =>
    intro pos i hi
    rw [readsUntil, List.mem_cons] at hi
    rcases hi with rfl | hi
    · omega
    · split_ifs at hi with hstop
      · simp at hi
      · have hlt := ih (pos + 1) i hi
        omega

section StrncmpReads

variable (ptr0 ptr1 : ℕ → BYTE)

lemma strncmpFastReads_lt {len m : ℕ} (hlen : len ≤ m * 4) (n : ℕ) : ∀ currentBlock,
    currentBlock + n ≤ m → ∀ i ∈ strncmpFastReads ptr0 ptr1 len n currentBlock, i < m * 4 := by
  induction n with
  | zero => simp [strncmpFastReads]
  | succ n ih =>
    intro b hb i hi
    have hrest : i ∈ strncmpFastReads ptr0 ptr1 len n (b + 1) → i < m * 4 :=
      ih (b + 1) (by omega) i
    rw [strncmpFastReads, List.mem_append, List.mem_range'_1] at hi
    rcases hi with hi | hi
    · omega
    · split_ifs at hi with hword
      · rw [List.mem_append] at hi
        rcases hi with hi | hi
        · have hlt := readsUntil_lt _ _ _ i hi
          omega
        · cases hscan : strncmpScan ptr0 ptr1 (len - b * 4) (b * 4) with
          | none => exact hrest (by simpa [hscan] using hi)
          | some r => simp [hscan] at hi
      · exact hrest hi

/-- `strncmp` reads whole words, and no byte behind the word its bound is in. -/
lemma strncmpReads_lt (len : ℕ) : ∀ i ∈ strncmpReads ptr0 ptr1 len, i < (len / 4 + 1) * 4 := by
  intro i hi
  rw [strncmpReads, List.mem_append] at hi
  rcases hi with hi | hi
  · refine strncmpFastReads_lt ptr0 ptr1 (by omega) _ 0 ?_ i hi
    split_ifs <;> omega
  · split at hi
    · simp at hi
    · have hlt := readsUntil_lt _ _ _ i hi
      omega

end StrncmpReads

/-! ## Accesses -/

/-- An access to the string, or to the buffer. Of a read in search of a colon, `len` is the position
of the terminator of the token. -/
inductive CmdAccess
  | readString (i : ℕ)
  | readBuf (i : ℕ)
  | writeBuf (i : ℕ)
  | readColon (i len : ℕ)
  deriving DecidableEq

/-- The access is in bounds, with a string of `n` bytes before its terminator. -/
def CmdAccess.InBounds (n : ℕ) : CmdAccess → Prop
  | readString i => i ≤ n
  | readBuf i => i < 256
  | writeBuf i => i < 256
  | readColon i len => i < 256 ∧ i ≤ len

namespace CmdAccess

variable {n i len : ℕ}

@[simp] lemma inBounds_readString : InBounds n (readString i) ↔ i ≤ n := Iff.rfl

@[simp] lemma inBounds_readBuf : InBounds n (readBuf i) ↔ i < 256 := Iff.rfl

@[simp] lemma inBounds_writeBuf : InBounds n (writeBuf i) ↔ i < 256 := Iff.rfl

@[simp] lemma inBounds_readColon : InBounds n (readColon i len) ↔ i < 256 ∧ i ≤ len := Iff.rfl

end CmdAccess

section Trace

/-- The loop of `puts` over the string, from position `i` on. -/
def putsTrace (str : ℕ → BYTE) : (fuel i : ℕ) → Traced CmdAccess Unit
  | 0, _ => .stop
  | fuel + 1, i => do
    Traced.tell [.readString i]
    if str i ≠ 0 then do
      Traced.tell [.readString i]
      putsTrace str fuel (i + 1)
    else pure ()

/-- What an iteration of the search for the colon leaves. -/
def cutAt (cmd : ℕ → BYTE) (cc : ℕ) (arg : Option ℕ) : (ℕ → BYTE) × Option ℕ :=
  if cmd cc = 0x3a then (Function.update cmd cc 0, some (cc + 1)) else (cmd, arg)

/-- `cmdlineSplit`, for a token whose terminator is at `len`. -/
def cmdlineSplitTrace (len : ℕ) : (fuel : ℕ) → (cmd : ℕ → BYTE) → (cc : ℕ) → (arg : Option ℕ) →
    Traced CmdAccess ((ℕ → BYTE) × Option ℕ)
  | 0, _, _, _ => .stop
  | fuel + 1, cmd, cc, arg => do
    Traced.tell [.readColon cc len]
    Traced.tell (if cmd cc = 0x3a then [.writeBuf cc] else [])
    let r := cutAt cmd cc arg
    Traced.tell [.readColon (cc + 1) len]
    if r.1 (cc + 1) ≠ 0 then cmdlineSplitTrace len fuel r.1 (cc + 1) r.2 else pure r

/-- `cmdlineLookup` -/
def cmdlineLookupTrace (cmd : ℕ → BYTE) :
    List CmdlineCmd → Traced CmdAccess (Option CmdlineFunc)
  | [] => pure none
  | c :: cs =>
    if c.cmd 0 = 0 then pure none
    else do
      Traced.tell ((strncmpReads cmd c.cmd 128).map .readBuf)
      if strncmp cmd c.cmd 128 = 0 then pure c.func else cmdlineLookupTrace cmd cs

variable (cmds : List CmdlineCmd) (fuel : ℕ) (str : ℕ → BYTE)

/-- `cmdlineProcess`, for a token whose terminator is at `len`. -/
def cmdlineProcessTrace (len : ℕ) (cmd : ℕ → BYTE) :
    Traced CmdAccess ((ℕ → BYTE) × List CmdlineCall) := do
  let r ← cmdlineSplitTrace len fuel cmd 0 none
  let f ← cmdlineLookupTrace r.1 cmds
  return (r.1, (f.map fun f => (f, r.2.map fun arg k => r.1 (arg + k))).toList)

/-- `cmdlineToken` -/
def cmdlineTokenTrace (sc cc : ℕ) (s : BootState) : Traced CmdAccess BootState := do
  Traced.tell ((List.range (cc - sc)).flatMap fun k => [.readString (sc + k), .writeBuf k])
  let buf := memcpy s.buf 0 str sc (cc - sc)
  Traced.tell [.writeBuf (cc - sc)]
  let buf := Function.update buf (cc - sc) 0
  let r ← cmdlineProcessTrace cmds fuel (cc - sc) buf
  return { s with buf := r.1, calls := s.calls ++ r.2 }

/-- `cmdlineScan` -/
def cmdlineScanTrace : (n : ℕ) → (sc cc : ℕ) → BootState →
    Traced CmdAccess (ℕ × ℕ × BootState)
  | 0, _, _, _ => .stop
  | n + 1, sc, cc, s => do
    Traced.tell [.readString cc]
    let r ← (if str cc = 0x20 then
        cmdlineTokenTrace cmds fuel str sc cc s >>= fun s => pure (cc + 1, s)
      else pure (sc, s))
    Traced.tell [.readString (cc + 1)]
    if str (cc + 1) ≠ 0 then cmdlineScanTrace n r.1 (cc + 1) r.2 else pure (r.1, cc + 1, r.2)

/-- `cmdlineString`, which shows the string first. -/
def cmdlineStringTrace (s : BootState) : Traced CmdAccess BootState := do
  putsTrace str fuel 0
  let r ← cmdlineScanTrace cmds fuel str fuel 0 0 s
  cmdlineTokenTrace cmds fuel str r.1 r.2.1 r.2.2

end Trace

/-! ## The results -/

lemma cmdlineSplit_succ (fuel : ℕ) (cmd : ℕ → BYTE) (cc : ℕ) (arg : Option ℕ) :
    cmdlineSplit (fuel + 1) cmd cc arg =
      if (cutAt cmd cc arg).1 (cc + 1) ≠ 0 then
        cmdlineSplit fuel (cutAt cmd cc arg).1 (cc + 1) (cutAt cmd cc arg).2
      else some (cutAt cmd cc arg) := rfl

lemma cmdlineSplitTrace_result (len : ℕ) (fuel : ℕ) : ∀ (cmd : ℕ → BYTE) (cc : ℕ) (arg : Option ℕ),
    (cmdlineSplitTrace len fuel cmd cc arg).result = cmdlineSplit fuel cmd cc arg := by
  induction fuel with
  | zero => intros; rfl
  | succ fuel ih =>
    intro cmd cc arg
    rw [cmdlineSplitTrace, cmdlineSplit_succ]
    simp [ih]

lemma cmdlineLookupTrace_result (cmd : ℕ → BYTE) (cmds : List CmdlineCmd) :
    (cmdlineLookupTrace cmd cmds).result = some (cmdlineLookup cmd cmds) := by
  induction cmds with
  | nil => rfl
  | cons c cs ih =>
    rw [cmdlineLookupTrace, cmdlineLookup]
    by_cases hend : c.cmd 0 = 0
    · simp [hend]
    · by_cases hcmp : strncmp cmd c.cmd 128 = 0
      · simp [hend, hcmp]
      · simp [hend, hcmp, ih]

section Results

variable (cmds : List CmdlineCmd) (fuel : ℕ) (str : ℕ → BYTE)

lemma cmdlineTokenTrace_result (sc cc : ℕ) (s : BootState) :
    (cmdlineTokenTrace cmds fuel str sc cc s).result = cmdlineToken cmds fuel str sc cc s := by
  rw [cmdlineTokenTrace, cmdlineToken]
  simp [cmdlineProcessTrace, cmdlineProcess, cmdlineSplitTrace_result, cmdlineLookupTrace_result,
    Option.bind_assoc]

lemma cmdlineScanTrace_result (n : ℕ) : ∀ (sc cc : ℕ) (s : BootState),
    (cmdlineScanTrace cmds fuel str n sc cc s).result = cmdlineScan cmds fuel str n sc cc s := by
  induction n with
  | zero => intros; rfl
  | succ n ih =>
    intro sc cc s
    rw [cmdlineScanTrace, cmdlineScan]
    by_cases hspace : str cc = 0x20
    · simp [hspace, ih, cmdlineTokenTrace_result, Option.bind_map, Option.bind_assoc]
    · simp [hspace, ih]

end Results

/-! ## One token -/

section Token

variable {n len : ℕ}

/-- An iteration before the terminator leaves the terminator. -/
lemma cutAt_terminator {cmd : ℕ → BYTE} {cc : ℕ} (hcc : cc < len) (hnul : cmd len = 0)
    (arg : Option ℕ) : (cutAt cmd cc arg).1 len = 0 := by
  rw [cutAt]
  split_ifs
  · exact (Function.update_of_ne (by omega) _ _).trans hnul
  · exact hnul

/-- What an iteration of the search has to meet. -/
lemma cmdlineSplitTrace_safe_succ (fuel : ℕ) (cmd : ℕ → BYTE) (cc : ℕ) (arg : Option ℕ)
    (P : CmdAccess → Prop) (Q : (ℕ → BYTE) × Option ℕ → Prop) :
    Traced.Safe P (cmdlineSplitTrace len (fuel + 1) cmd cc arg) Q ↔
      P (.readColon cc len) ∧ (cmd cc = 0x3a → P (.writeBuf cc)) ∧ P (.readColon (cc + 1) len) ∧
        if (cutAt cmd cc arg).1 (cc + 1) ≠ 0 then
          Traced.Safe P
            (cmdlineSplitTrace len fuel (cutAt cmd cc arg).1 (cc + 1) (cutAt cmd cc arg).2) Q
        else Q (cutAt cmd cc arg) := by
  rw [cmdlineSplitTrace]
  by_cases hcolon : cmd cc = 0x3a
  · simp [hcolon]
  · simp [hcolon]

/-- The search for the colon stays in a token that is not empty and fits the buffer. -/
lemma cmdlineSplitTrace_safe (hlen : len < 256) : ∀ (fuel : ℕ) (cmd : ℕ → BYTE) (cc : ℕ)
    (arg : Option ℕ), cmd len = 0 → cc < len →
      Traced.Safe (CmdAccess.InBounds n) (cmdlineSplitTrace len fuel cmd cc arg) fun _ => True
  | 0, _, _, _, _, _ => Traced.safe_stop _ _
  | fuel + 1, cmd, cc, arg, hnul, hcc => by
    have hcut := cutAt_terminator hcc hnul arg
    rw [cmdlineSplitTrace_safe_succ]
    refine ⟨⟨by omega, by omega⟩, fun _ => hcc.trans hlen, ⟨by omega, by omega⟩, ?_⟩
    split_ifs with hnext
    · -- the loop goes on only before the terminator
      have hlast : cc + 1 ≠ len := fun h => hnext (h ▸ hcut)
      exact cmdlineSplitTrace_safe hlen fuel _ (cc + 1) _ hcut (by omega)

/-- It ends. -/
lemma cmdlineSplit_ends : ∀ (fuel : ℕ) (cmd : ℕ → BYTE) (cc : ℕ) (arg : Option ℕ), cmd len = 0 →
    cc < len → len ≤ cc + fuel → ∃ r, cmdlineSplit fuel cmd cc arg = some r
  | 0, _, _, _, _, _, _ => by omega
  | fuel + 1, cmd, cc, arg, hnul, hcc, hfuel => by
    have hcut := cutAt_terminator hcc hnul arg
    rw [cmdlineSplit_succ]
    split_ifs with hnext
    · have hlast : cc + 1 ≠ len := fun h => hnext (h ▸ hcut)
      exact cmdlineSplit_ends fuel _ (cc + 1) _ hcut (by omega) (by omega)
    · exact ⟨_, rfl⟩

/-- The comparisons with the names of the table stay in the buffer. -/
lemma cmdlineLookupTrace_safe (cmd : ℕ → BYTE) (cmds : List CmdlineCmd) :
    Traced.Safe (CmdAccess.InBounds n) (cmdlineLookupTrace cmd cmds) fun _ => True := by
  induction cmds with
  | nil => simp [cmdlineLookupTrace]
  | cons c cs ih =>
    have hreads : ∀ i ∈ strncmpReads cmd c.cmd 128, i < 256 := fun i hi =>
      (strncmpReads_lt cmd c.cmd 128 i hi).trans (by decide)
    rw [cmdlineLookupTrace]
    by_cases hend : c.cmd 0 = 0
    · simp [hend]
    · simpa [hend, ih] using hreads

section Line

variable (cmds : List CmdlineCmd) (fuel : ℕ) (str : ℕ → BYTE)

/-- **One token.** Its accesses are in bounds iff it is not empty and fits the buffer. -/
lemma cmdlineTokenTrace_safe_iff (sc : ℕ) {cc : ℕ} (hcc : cc ≤ n + 1) (s : BootState) :
    Traced.Safe (CmdAccess.InBounds n) (cmdlineTokenTrace cmds (fuel + 1) str sc cc s)
      (fun _ => True) ↔ sc < cc ∧ cc - sc ≤ 255 := by
  rw [cmdlineTokenTrace]
  simp only [Traced.safe_bind, Traced.safe_tell, cmdlineProcessTrace, Traced.safe_pure]
  constructor
  · rintro ⟨-, hnul, hsplit⟩
    rw [cmdlineSplitTrace_safe_succ] at hsplit
    have hend : cc - sc < 256 := hnul (.writeBuf (cc - sc)) (by simp)
    have hread : 0 + 1 ≤ cc - sc := hsplit.2.2.1.2
    omega
  · rintro ⟨hpos, hlen⟩
    refine ⟨fun e he => ?_, fun e he => ?_, ?_⟩
    · obtain ⟨k, hk, he⟩ := List.mem_flatMap.mp he
      rw [List.mem_range] at hk
      simp only [List.mem_cons, List.not_mem_nil, or_false] at he
      rcases he with rfl | rfl
      · rw [CmdAccess.inBounds_readString]
        omega
      · rw [CmdAccess.inBounds_writeBuf]
        omega
    · obtain rfl := List.mem_singleton.mp he
      rw [CmdAccess.inBounds_writeBuf]
      omega
    · have hsplit := cmdlineSplitTrace_safe (n := n) (show cc - sc < 256 by omega) (fuel + 1)
        (Function.update (memcpy s.buf 0 str sc (cc - sc)) (cc - sc) 0) 0 none
        (Function.update_self ..) (by omega)
      exact hsplit.mono fun r _ => cmdlineLookupTrace_safe r.1 cmds

/-- A token that is not empty is processed in as many iterations as it has bytes. -/
lemma cmdlineToken_ends {sc cc : ℕ} (hpos : sc < cc) (hfuel : cc - sc ≤ fuel) (s : BootState) :
    ∃ s', cmdlineToken cmds fuel str sc cc s = some s' := by
  have hnul : Function.update (memcpy s.buf 0 str sc (cc - sc)) (cc - sc) 0 (cc - sc) = 0 :=
    Function.update_self ..
  obtain ⟨r, hr⟩ := cmdlineSplit_ends fuel _ 0 none hnul (by omega) (by omega)
  rw [cmdlineToken, cmdlineProcess, hr]
  exact ⟨_, rfl⟩

end Line

end Token

/-! ## The line -/

section Line

variable (cmds : List CmdlineCmd) (fuel : ℕ) (str : ℕ → BYTE) {n : ℕ}

/-- What an iteration over the string has to meet. -/
lemma cmdlineScanTrace_safe_succ (m sc cc : ℕ) (s : BootState) (P : CmdAccess → Prop)
    (Q : ℕ × ℕ × BootState → Prop) :
    Traced.Safe P (cmdlineScanTrace cmds fuel str (m + 1) sc cc s) Q ↔
      P (.readString cc) ∧
        if str cc = 0x20 then
          Traced.Safe P (cmdlineTokenTrace cmds fuel str sc cc s) fun s' =>
            P (.readString (cc + 1)) ∧
              if str (cc + 1) ≠ 0 then
                Traced.Safe P (cmdlineScanTrace cmds fuel str m (cc + 1) (cc + 1) s') Q
              else Q (cc + 1, cc + 1, s')
        else
          P (.readString (cc + 1)) ∧
            if str (cc + 1) ≠ 0 then
              Traced.Safe P (cmdlineScanTrace cmds fuel str m sc (cc + 1) s) Q
            else Q (sc, cc + 1, s) := by
  rw [cmdlineScanTrace]
  by_cases hspace : str cc = 0x20
  · simp [hspace]
  · simp [hspace]

/-- Inside a token the loop only reads on. -/
lemma cmdlineScanTrace_safe_skip (sc : ℕ) (s : BootState) (m : ℕ) (Q : ℕ × ℕ × BootState → Prop) :
    ∀ (k cc : ℕ), (∀ j, cc ≤ j → j < cc + k → str j ≠ 0x20) →
      (∀ j, cc < j → j ≤ cc + k → str j ≠ 0) → cc + k ≤ n →
      (Traced.Safe (CmdAccess.InBounds n) (cmdlineScanTrace cmds fuel str (m + k) sc cc s) Q ↔
        Traced.Safe (CmdAccess.InBounds n) (cmdlineScanTrace cmds fuel str m sc (cc + k) s) Q)
  | 0, _, _, _, _ => Iff.rfl
  | k + 1, cc, hspace, hnz, hle => by
    have hcc : cc + 1 + k = cc + (k + 1) := by omega
    rw [← Nat.add_assoc, cmdlineScanTrace_safe_succ, if_neg (hspace cc le_rfl (by omega)),
      if_pos (hnz (cc + 1) (by omega) (by omega)),
      cmdlineScanTrace_safe_skip sc s m Q k (cc + 1) (fun j h₁ h₂ => hspace j (by omega) (by omega))
        (fun j h₁ h₂ => hnz j (by omega) (by omega)) (by omega), hcc, CmdAccess.inBounds_readString,
      CmdAccess.inBounds_readString]
    exact (and_iff_right (by omega)).trans (and_iff_right (by omega))

/-- From the start `sc` of a token on, the accesses are in bounds. -/
def SafeFrom (n m sc : ℕ) (s : BootState) : Prop :=
  let last := fun r : ℕ × ℕ × BootState =>
    Traced.Safe (CmdAccess.InBounds n) (cmdlineTokenTrace cmds fuel str r.1 r.2.1 r.2.2)
      fun _ => True
  if str sc ≠ 0 then
    Traced.Safe (CmdAccess.InBounds n) (cmdlineScanTrace cmds fuel str m sc sc s) last
  else last (sc, sc, s)

/-- A token that is processed without leaving the bounds: not empty, and at most 255 bytes. -/
def FitsBuffer (t : List BYTE) : Prop := t ≠ [] ∧ t.length ≤ 255

variable {cmds fuel str}

/-- The bytes of a token of the string. -/
lemma str_of_token {t : List BYTE} {sc : ℕ} (ht : Holds str sc t) (hnul : 0 ∉ t)
    (hspace : 0x20 ∉ t) : ∀ j, sc ≤ j → j < sc + t.length → str j ≠ 0 ∧ str j ≠ 0x20 := by
  intro j h₁ h₂
  have hmem := ht.mem h₁ h₂
  exact ⟨fun h => hnul (h ▸ hmem), fun h => hspace (h ▸ hmem)⟩

/-- The last token of the line. -/
lemma safeFrom_last {t : List BYTE} {sc m : ℕ} {s : BootState} (hstr : Holds str sc (t ++ [0]))
    (hnul : 0 ∉ t) (hspace : 0x20 ∉ t) (hn : sc + t.length = n) (hm : t.length ≤ m) :
    SafeFrom cmds (fuel + 1) str n m sc s ↔ FitsBuffer t := by
  obtain ⟨ht, hend⟩ := holds_append.mp hstr
  have hend : str (sc + t.length) = 0 := hend 0 (by simp)
  rw [SafeFrom, FitsBuffer]
  cases hlen : t.length with
  | zero =>
    rw [hlen, Nat.add_zero] at hend
    have hnil : t = [] := List.length_eq_zero_iff.mp hlen
    simp only [hend, ne_eq, not_true_eq_false, if_false]
    rw [cmdlineTokenTrace_safe_iff cmds fuel str _ (by omega)]
    simp [hnil]
  | succ k =>
    have hbyte := str_of_token ht hnul hspace
    rw [hlen] at hend hn hm hbyte
    obtain ⟨m, rfl⟩ : ∃ m', m = m' + 1 + k := ⟨m - 1 - k, by omega⟩
    have hlast : sc + k + 1 = sc + (k + 1) := by omega
    simp only [if_pos (hbyte sc le_rfl (by omega)).1]
    rw [cmdlineScanTrace_safe_skip cmds (fuel + 1) str sc s (m + 1) _ k sc
        (fun j h₁ h₂ => (hbyte j h₁ (by omega)).2)
        (fun j h₁ h₂ => (hbyte j (by omega) (by omega)).1) (by omega),
      cmdlineScanTrace_safe_succ, if_neg (hbyte (sc + k) (by omega) (by omega)).2, hlast,
      if_neg (not_not.mpr hend),
      cmdlineTokenTrace_safe_iff cmds fuel str _ (show sc + (k + 1) ≤ n + 1 by omega)]
    simp only [CmdAccess.inBounds_readString]
    have hnil : t ≠ [] := fun h => by simp [h] at hlen
    simp only [hnil, ne_eq, not_false_eq_true, true_and]
    omega

/-- A token with a space behind it. -/
lemma safeFrom_space {t rest : List BYTE} {sc m : ℕ} {s : BootState}
    (hstr : Holds str sc (t ++ 0x20 :: rest)) (hnul : 0 ∉ t) (hspace : 0x20 ∉ t)
    (hn : sc + t.length < n) :
    SafeFrom cmds (fuel + 1) str n (m + 1 + t.length) sc s ↔
      FitsBuffer t ∧ ∀ s', cmdlineToken cmds (fuel + 1) str sc (sc + t.length) s = some s' →
        SafeFrom cmds (fuel + 1) str n m (sc + t.length + 1) s' := by
  obtain ⟨ht, hrest⟩ := holds_append.mp hstr
  have hsp : str (sc + t.length) = 0x20 := hrest 0 (by simp)
  have hbyte := str_of_token ht hnul hspace
  have hne : ∀ j, sc ≤ j → j ≤ sc + t.length → str j ≠ 0 := by
    intro j h₁ h₂
    obtain rfl | hlt := eq_or_lt_of_le h₂
    · rw [hsp]
      decide
    · exact (hbyte j h₁ hlt).1
  have hfits : FitsBuffer t ↔ sc < sc + t.length ∧ sc + t.length - sc ≤ 255 := by
    rw [FitsBuffer, ← List.length_pos_iff]
    omega
  have hcc : sc + t.length ≤ n + 1 := by omega
  have htoken := cmdlineTokenTrace_safe_iff cmds fuel str sc hcc s
  rw [SafeFrom]
  simp only [if_pos (hne sc le_rfl (by omega))]
  rw [cmdlineScanTrace_safe_skip cmds (fuel + 1) str sc s (m + 1) _ t.length sc
      (fun j h₁ h₂ => (hbyte j h₁ h₂).2) (fun j h₁ h₂ => hne j h₁.le h₂) hn.le,
    cmdlineScanTrace_safe_succ, if_pos hsp, hfits, ← htoken, CmdAccess.inBounds_readString,
    and_iff_right hn.le]
  simp only [CmdAccess.inBounds_readString, and_iff_right (show sc + t.length + 1 ≤ n from hn)]
  rw [Traced.Safe, Traced.Safe, cmdlineTokenTrace_result]
  simp [SafeFrom]

/-- **The line**, from the start of a token on.

**Proof sketch.** Induction on the length of the rest of the line, which is a token, or a token, a
space and a shorter rest. A token that fits the buffer is processed, whatever it leaves there. -/
lemma safeFrom_iff : ∀ (rest : List BYTE) (sc m : ℕ) (s : BootState),
    Holds str sc (rest ++ [0]) → 0 ∉ rest → sc + rest.length = n → rest.length ≤ m →
    rest.length ≤ fuel →
    (SafeFrom cmds (fuel + 1) str n m sc s ↔ ∀ t ∈ rest.splitOn 0x20, FitsBuffer t) := by
  intro rest
  induction hk : rest.length using Nat.strong_induction_on generalizing rest with
  | _ k ih =>
    intro sc m s hstr hnul hn hm hfuel
    by_cases hspace : 0x20 ∈ rest
    · obtain ⟨t, rest', rfl, ht⟩ := List.eq_append_cons_of_mem hspace
      rw [List.length_append, List.length_cons] at hk
      rw [List.append_assoc, List.cons_append] at hstr
      have hrest : Holds str (sc + t.length + 1) (rest' ++ [0]) :=
        (holds_append (l := [0x20])).mp (holds_append.mp hstr).2 |>.2
      obtain ⟨m, rfl⟩ : ∃ m', m = m' + 1 + t.length := ⟨m - t.length - 1, by omega⟩
      have hnul' : 0 ∉ rest' := fun h => hnul (by simp [h])
      have hih := fun s' => ih rest'.length (by omega) rest' rfl (sc + t.length + 1) m s' hrest
        hnul' (by omega) (by omega) (by omega)
      rw [safeFrom_space hstr (fun h => hnul (by simp [h])) ht (by omega),
        List.splitOn_append_cons_self_of_not_mem ht, List.forall_mem_cons]
      refine and_congr_right fun hfits => ?_
      simp only [hih]
      have hpos : sc < sc + t.length := Nat.lt_add_of_pos_right (List.length_pos_iff.mpr hfits.1)
      obtain ⟨s', hs'⟩ := cmdlineToken_ends cmds (fuel + 1) str hpos (by omega) s
      exact ⟨fun h => h s' hs', fun h _ _ => h⟩
    · rw [List.splitOn_eq_singleton hspace, List.forall_mem_singleton]
      exact safeFrom_last hstr hnul hspace (by omega) (by omega)

end Line

/-! ## Fuel -/

lemma putsTrace_le (str : ℕ → BYTE) : ∀ {fuel fuel' : ℕ}, fuel ≤ fuel' → ∀ i,
    Traced.Le (putsTrace str fuel i) (putsTrace str fuel' i)
  | 0, _, _, _ => Traced.stop_le _
  | fuel + 1, fuel' + 1, h, i => by
    refine (Traced.Le.refl _).bind fun _ => Traced.Le.ite ?_ (.refl _)
    exact (Traced.Le.refl _).bind fun _ => putsTrace_le str (by omega) (i + 1)

lemma cmdlineSplitTrace_le (len : ℕ) : ∀ {fuel fuel' : ℕ}, fuel ≤ fuel' → ∀ cmd cc arg,
    Traced.Le (cmdlineSplitTrace len fuel cmd cc arg) (cmdlineSplitTrace len fuel' cmd cc arg)
  | 0, _, _, _, _, _ => Traced.stop_le _
  | fuel + 1, fuel' + 1, h, cmd, cc, arg => by
    refine (Traced.Le.refl _).bind fun _ => (Traced.Le.refl _).bind fun _ => ?_
    refine (Traced.Le.refl _).bind fun _ => Traced.Le.ite ?_ (.refl _)
    exact cmdlineSplitTrace_le len (by omega) _ (cc + 1) _

section Fuel

variable (cmds : List CmdlineCmd) (str : ℕ → BYTE) {fuel fuel' : ℕ}

lemma cmdlineTokenTrace_le (h : fuel ≤ fuel') (sc cc : ℕ) (s : BootState) :
    Traced.Le (cmdlineTokenTrace cmds fuel str sc cc s)
      (cmdlineTokenTrace cmds fuel' str sc cc s) := by
  refine (Traced.Le.refl _).bind fun _ => (Traced.Le.refl _).bind fun _ => ?_
  refine Traced.Le.bind ?_ fun _ => .refl _
  exact (cmdlineSplitTrace_le _ h _ _ _).bind fun _ => .refl _

lemma cmdlineScanTrace_le (h : fuel ≤ fuel') : ∀ {n n' : ℕ}, n ≤ n' → ∀ sc cc s,
    Traced.Le (cmdlineScanTrace cmds fuel str n sc cc s)
      (cmdlineScanTrace cmds fuel' str n' sc cc s)
  | 0, _, _, _, _, _ => Traced.stop_le _
  | n + 1, n' + 1, hn, sc, cc, s => by
    refine (Traced.Le.refl _).bind fun _ => Traced.Le.bind ?_ fun r => ?_
    · refine Traced.Le.ite ?_ (.refl _)
      exact (cmdlineTokenTrace_le cmds str h sc cc s).bind fun _ => .refl _
    · refine (Traced.Le.refl _).bind fun _ => Traced.Le.ite ?_ (.refl _)
      exact cmdlineScanTrace_le h (by omega) r.1 (cc + 1) r.2

/-- More fuel, more accesses. -/
lemma cmdlineStringTrace_le (h : fuel ≤ fuel') (s : BootState) :
    Traced.Le (cmdlineStringTrace cmds fuel str s) (cmdlineStringTrace cmds fuel' str s) :=
  (putsTrace_le str h 0).bind fun _ => (cmdlineScanTrace_le cmds str h h 0 0 s).bind fun _ =>
    cmdlineTokenTrace_le cmds str h _ _ _

end Fuel

/-! ## Bounds -/

/-- `puts` reads the string up to its terminator. -/
lemma putsTrace_safe {str : ℕ → BYTE} {n : ℕ} (hend : str n = 0) : ∀ (fuel i : ℕ), i ≤ n →
    n < i + fuel → (∀ j, i ≤ j → j < n → str j ≠ 0) →
      Traced.Safe (CmdAccess.InBounds n) (putsTrace str fuel i) (fun _ => True) ∧
        (putsTrace str fuel i).result = some ()
  | 0, i, _, _, _ => by omega
  | fuel + 1, i, hi, hfuel, hne => by
    rw [putsTrace]
    by_cases hin : i = n
    · simp [hin, hend]
    · have hrest := putsTrace_safe hend fuel (i + 1) (by omega) (by omega)
        fun j h₁ h₂ => hne j (by omega) h₂
      simp [hne i le_rfl (by omega), hi, hrest.1, hrest.2]

section Bounds

variable (cmds : List CmdlineCmd) {str : ℕ → BYTE} {cl : List BYTE}

/-- The string up to its terminator. -/
lemma str_of_holds (hstr : Holds str 0 (cl ++ [0])) (hcl : 0 ∉ cl) :
    str cl.length = 0 ∧ ∀ j < cl.length, str j ≠ 0 := by
  obtain ⟨hline, hend⟩ := holds_append.mp hstr
  refine ⟨by simpa using hend 0 (by simp), fun j hj h => hcl ?_⟩
  rw [← h]
  exact hline.mem (Nat.zero_le j) (by omega)

/-- The case of the command line, followed, computes what it does. -/
lemma cmdlineStringTrace_result (hstr : Holds str 0 (cl ++ [0])) (hcl : 0 ∉ cl) {fuel : ℕ}
    (hfuel : cl.length < fuel) (s : BootState) :
    (cmdlineStringTrace cmds fuel str s).result = cmdlineString cmds fuel str s := by
  obtain ⟨hend, hne⟩ := str_of_holds hstr hcl
  have hputs := putsTrace_safe hend fuel 0 (by omega) (by omega) fun j _ hj => hne j hj
  simp [cmdlineStringTrace, cmdlineString, hputs.2, cmdlineScanTrace_result,
    cmdlineTokenTrace_result]

/-- With enough fuel, the accesses are in bounds iff every token fits the buffer. -/
lemma cmdlineStringTrace_safe_iff (hstr : Holds str 0 (cl ++ [0])) (hcl : 0 ∉ cl) {fuel : ℕ}
    (hfuel : cl.length ≤ fuel) (s : BootState) :
    Traced.Safe (CmdAccess.InBounds cl.length) (cmdlineStringTrace cmds (fuel + 1) str s)
      (fun _ => True) ↔ ∀ t ∈ cl.splitOn 0x20, FitsBuffer t := by
  obtain ⟨hend, hne⟩ := str_of_holds hstr hcl
  obtain ⟨hputs, hresult⟩ :=
    putsTrace_safe hend (fuel + 1) 0 (by omega) (by omega) fun j _ hj => hne j hj
  rw [cmdlineStringTrace, Traced.safe_bind, hputs.iff_of_result hresult, Traced.safe_bind]
  cases cl with
  | nil =>
    -- the empty line is read behind its terminator
    refine iff_of_false (fun h => ?_) fun h => (h [] (by simp)).1 rfl
    have hspace : str 0 ≠ 0x20 := by
      rw [show str 0 = 0 from hend]
      decide
    rw [cmdlineScanTrace_safe_succ, if_neg hspace] at h
    exact absurd h.2.1 (by simp)
  | cons b cl =>
    have hiff : SafeFrom cmds (fuel + 1) str _ (fuel + 1) 0 s ↔ _ :=
      safeFrom_iff (b :: cl) 0 (fuel + 1) s hstr hcl (Nat.zero_add _)
        (hfuel.trans (Nat.le_succ _)) hfuel
    rw [← hiff, SafeFrom]
    simp only [if_pos (hne 0 (by simp))]

/-- **The bounds of the command line.** For every command line, every table and whatever is on the
stack, all accesses of the case of the command line to the string and to its buffer are in bounds,
however long it runs, iff every token between its spaces is not empty and has at most 255 bytes. The
accesses that the handlers in the table make through their argument are not counted. -/
theorem cmdline_bounds_iff (hstr : Holds str 0 (cl ++ [0])) (hcl : 0 ∉ cl) (s : BootState) :
    (∀ fuel, ∀ e ∈ (cmdlineStringTrace cmds fuel str s).log, e.InBounds cl.length) ↔
      ∀ t ∈ cl.splitOn 0x20, t ≠ [] ∧ t.length ≤ 255 := by
  have hsafe := fun fuel (h : cl.length ≤ fuel) => cmdlineStringTrace_safe_iff cmds hstr hcl h s
  constructor
  · intro h
    exact (hsafe cl.length le_rfl).mp ⟨h _, fun _ _ => trivial⟩
  · intro h fuel
    have hmore := (hsafe (cl.length + fuel) (by omega)).mpr h
    exact (hmore.of_le (cmdlineStringTrace_le cmds str (by omega) s)).1

end Bounds

/-- The line `serial:true` is one token, and the accesses for it are in bounds. -/
theorem cmdline_bounds_iff_serial_true :
    serialTrue.bytes.splitOn 0x20 = [serialTrue.bytes] ∧
    ∀ fuel, ∀ e ∈ (cmdlineStringTrace (cmdlineCmds fun _ _ => 0) fuel
      (ofList (serialTrue.bytes ++ [0])) freshBootState).log, e.InBounds serialTrue.bytes.length :=
  ⟨by decide, (cmdline_bounds_iff (cmdlineCmds fun _ _ => 0)
    (holds_ofList (serialTrue.bytes ++ [0]) 0) (by decide) freshBootState).mpr (by decide)⟩

/-- The empty command line is read behind its terminator, and for a space the token buffer is read
behind the terminator of the empty token. -/
theorem cmdline_bounds_left :
    (∃ e ∈ (cmdlineStringTrace (cmdlineCmds fun _ _ => 0) 1 (ofList [0]) freshBootState).log,
      ¬e.InBounds 0) ∧
    ∃ e ∈ (cmdlineStringTrace (cmdlineCmds fun _ _ => 0) 2 (ofList [0x20, 0]) freshBootState).log,
      ¬e.InBounds 1 :=
  ⟨⟨.readString 1, by decide, by simp⟩, ⟨.readColon 1 0, by decide, by simp⟩⟩

end Korolev
