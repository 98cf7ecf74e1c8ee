import Korolev.Kernel.Multiboot
import Korolev.Libc.String
import Korolev.Library.Run

set_option relaxedAutoImplicit false
set_option autoImplicit false

/-!
# The kernel command line

The boot loader's command line is a string of tokens `<command>:<argument>`, separated by spaces.
`multiboot_process` copies one token after the other into a buffer on the stack, and
`cmdline_process` cuts it at the colon and calls the handler that `cmdline_cmds` has for the
command, with a pointer to the argument.

The table is searched with the kernel's `strncmp`, which compares words. What is behind the
terminator of the command in the buffer can make it miss the name: the argument, if the command
ends with its word, as `network` does; or, behind a token without an argument, what earlier tokens
and the stack left there, since only the first 32 bytes of the buffer are cleared, and only once.

The loops over strings have no bound in the source; they have fuel here.

## Main definitions

* `Korolev.cmdlineSplit`, `Korolev.cmdlineLookup`, `Korolev.cmdlineProcess` — one token.
* `Korolev.cmdlineScan`, `Korolev.cmdlineString` — the case of `multiboot_process`.
* `Korolev.CmdToken`, `Korolev.cmdLine` — well-formed command lines.

## Main results

* `Korolev.cmdlineScan_eq` — the tokens are processed one after the other.
* `Korolev.cmdline_dispatch` — when exactly the right handlers are called.
-/

namespace Korolev

open Bytes

/-! ## The table -/

/-- The functions in the table: `_cmdline_serial` and `_cmdline_network`. -/
inductive CmdlineFunc
  | serial
  | network
  deriving DecidableEq, Repr

/-- `cmdline_cmd`: the memory from its name on, and its function. -/
structure CmdlineCmd where
  cmd : ℕ → BYTE
  func : Option CmdlineFunc

/-- `"serial"` -/
def serialName : List BYTE := [0x73, 0x65, 0x72, 0x69, 0x61, 0x6c]

/-- `"network"` -/
def networkName : List BYTE := [0x6e, 0x65, 0x74, 0x77, 0x6f, 0x72, 0x6b]

/-- The memory from a name of the table on: 128 bytes, filled with `0`, and what is behind. -/
def cmdRegion (name : List BYTE) (behind : ℕ → BYTE) : ℕ → BYTE := fun k =>
  if k < 128 then ofList name k else behind (k - 128)

/-- `cmdline_cmds`; `behind` is the memory behind each of the names. -/
def cmdlineCmds (behind : ℕ → ℕ → BYTE) : List CmdlineCmd :=
  [⟨cmdRegion serialName (behind 0), some .serial⟩,
    ⟨cmdRegion networkName (behind 1), some .network⟩, ⟨cmdRegion [] (behind 2), none⟩]

/-! ## The functions -/

/-- The first loop of `cmdline_process`, with `cc` an index into `cmd`. -/
def cmdlineSplit : (fuel : ℕ) → (cmd : ℕ → BYTE) → (cc : ℕ) → (arg : Option ℕ) →
    Option ((ℕ → BYTE) × Option ℕ)
  | 0, _, _, _ => none
  | fuel + 1, cmd, cc, arg =>
    let r := if cmd cc = 0x3a then (Function.update cmd cc 0, some (cc + 1)) else (cmd, arg)
    if r.1 (cc + 1) ≠ 0 then cmdlineSplit fuel r.1 (cc + 1) r.2 else some r

/-- The second loop of `cmdline_process`: the function found for `cmd`. -/
def cmdlineLookup (cmd : ℕ → BYTE) : List CmdlineCmd → Option CmdlineFunc
  | [] => none
  | c :: cs =>
    if c.cmd 0 = 0 then none
    else if strncmp cmd c.cmd 128 = 0 then c.func
    else cmdlineLookup cmd cs

/-- A call of a function of the table: the function, and the memory at its argument, unless that
is `NULL`. -/
abbrev CmdlineCall := CmdlineFunc × Option (ℕ → BYTE)

/-- `cmdline_process(cmd)`: the memory at `cmd` afterwards, and the call made, if any. -/
def cmdlineProcess (cmds : List CmdlineCmd) (fuel : ℕ) (cmd : ℕ → BYTE) :
    Option ((ℕ → BYTE) × List CmdlineCall) := do
  let r ← cmdlineSplit fuel cmd 0 none
  let call := (cmdlineLookup r.1 cmds).map fun f => (f, r.2.map fun arg k => r.1 (arg + k))
  return (r.1, call.toList)

/-- What `multiboot_process` works on: its buffer, the calls made so far, and the memory
manager. -/
structure BootState where
  buf : ℕ → BYTE
  calls : List CmdlineCall
  mm : Mmgmt

section CmdlineCase

variable (cmds : List CmdlineCmd) (fuel : ℕ) (str : ℕ → BYTE)

/-- The token between the indices `sc` and `cc` of the string is copied to the buffer and
processed. -/
def cmdlineToken (sc cc : ℕ) (s : BootState) : Option BootState := do
  let buf := memcpy s.buf 0 str sc (cc - sc)
  let buf := Function.update buf (cc - sc) 0
  let r ← cmdlineProcess cmds fuel buf
  return { s with buf := r.1, calls := s.calls ++ r.2 }

/-- The loop over the string: `sc`, `cc` and the state at its end. -/
def cmdlineScan : (n : ℕ) → (sc cc : ℕ) → BootState → Option (ℕ × ℕ × BootState)
  | 0, _, _, _ => none
  | n + 1, sc, cc, s => do
    let r ← if str cc = 0x20 then (cmdlineToken cmds fuel str sc cc s).map fun s => (cc + 1, s)
      else some (sc, s)
    if str (cc + 1) ≠ 0 then cmdlineScan n r.1 (cc + 1) r.2 else some (r.1, cc + 1, r.2)

/-- The case of the command line in `multiboot_process`. -/
def cmdlineString (s : BootState) : Option BootState := do
  let r ← cmdlineScan cmds fuel str fuel 0 0 s
  cmdlineToken cmds fuel str r.1 r.2.1 r.2.2

end CmdlineCase

/-- The handlers of the kernel; `none` is a handler that has not ended. -/
def kernelHandlers (cmds : List CmdlineCmd) (fuel : ℕ) (mem : ℕ → BYTE) :
    TagHandlers (Option BootState) where
  clear := Option.map fun s => { s with buf := kmemset s.buf 0 0 32 }
  cmdline a s := s.bind (cmdlineString cmds fuel fun k => mem (a.toNat + k))
  mmgmtInit mmap n := Option.map fun s => { s with mm := mmgmtInit mmap n }

/-! ## Tokens -/

/-- A token `<command>:<argument>`: one colon, no NUL and no space, at most 255 bytes. -/
structure CmdToken where
  command : List BYTE
  argument : List BYTE
  plain : ∀ b ∈ command ++ argument, b ≠ 0 ∧ b ≠ 0x20 ∧ b ≠ 0x3a
  length_le : command.length + 1 + argument.length ≤ 255

namespace CmdToken

variable (t : CmdToken)

/-- The length of the token. -/
def length : ℕ := t.command.length + 1 + t.argument.length

lemma length_pos : 0 < t.length := by
  rw [length]
  omega

/-- The bytes of the token. -/
def bytes : List BYTE := t.command ++ 0x3a :: t.argument

@[simp] lemma length_bytes : t.bytes.length = t.length := by
  simp only [bytes, length, List.length_append, List.length_cons]
  omega

/-- The buffer after the token was processed: command and argument, with their terminators. -/
def place (buf : ℕ → BYTE) : ℕ → BYTE :=
  blit buf 0 (t.length + 1) (ofList (t.command ++ 0 :: t.argument))

end CmdToken

/-- A byte of a list. -/
lemma ofList_mem {l : List BYTE} {k : ℕ} (hk : k < l.length) : ofList l k ∈ l := by
  rw [ofList, List.getD_eq_getElem _ _ hk]
  exact List.getElem_mem _

/-- The bytes of two lists around a byte. -/
lemma ofList_append_cons (c a : List BYTE) (x : BYTE) (k : ℕ) :
    ofList (c ++ x :: a) k =
      if k < c.length then ofList c k else if k = c.length then x
      else ofList a (k - (c.length + 1)) := by
  rw [ofList]
  split_ifs with hlt heq
  · rw [List.getD_append _ _ _ _ hlt]
    rfl
  · rw [heq, List.getD_append_right _ _ _ _ le_rfl, Nat.sub_self, List.getD_cons_zero]
  · obtain ⟨j, rfl⟩ : ∃ j, k = c.length + 1 + j := ⟨k - (c.length + 1), by omega⟩
    have hidx : c.length + 1 + j - c.length = j + 1 := by omega
    rw [List.getD_append_right _ _ _ _ (by omega), hidx, List.getD_cons_succ,
      Nat.add_sub_cancel_left]
    rfl

namespace CmdToken

variable (t : CmdToken)

/-- The bytes of a token are plain, but for the colon. -/
lemma ofList_bytes {k : ℕ} (hk : k < t.length) (hne : k ≠ t.command.length) :
    ofList t.bytes k ≠ 0 ∧ ofList t.bytes k ≠ 0x20 ∧ ofList t.bytes k ≠ 0x3a := by
  rw [length] at hk
  rw [bytes, ofList_append_cons]
  split_ifs with hlt
  · exact t.plain _ (List.mem_append_left _ (ofList_mem hlt))
  · exact t.plain _ (List.mem_append_right _ (ofList_mem (by omega)))

lemma ofList_bytes_colon : ofList t.bytes t.command.length = 0x3a := by
  rw [bytes, ofList_append_cons, if_neg (by omega), if_pos rfl]

lemma ofList_bytes_ne_zero {k : ℕ} (hk : k < t.length) : ofList t.bytes k ≠ 0 := by
  by_cases hne : k = t.command.length
  · rw [hne, ofList_bytes_colon]
    decide
  · exact (t.ofList_bytes hk hne).1

lemma ofList_bytes_length : ofList t.bytes t.length = 0 :=
  List.getD_eq_default _ _ (by simp)

/-! The buffer after the token was processed. -/

section Place

variable (buf : ℕ → BYTE)

lemma place_command : t.place buf t.command.length = 0 := by
  have hlen : t.length = t.command.length + 1 + t.argument.length := rfl
  rw [place, blit_of_mem (by omega) (by omega), Nat.sub_zero, ofList_append_cons,
    if_neg (by omega), if_pos rfl]

/-- But for the colon, it has the bytes of the token. -/
lemma place_of_ne {k : ℕ} (hk : k ≤ t.length) (hne : k ≠ t.command.length) :
    t.place buf k = ofList t.bytes k := by
  rw [place, blit_of_mem (by omega) (by omega), Nat.sub_zero, bytes, ofList_append_cons,
    ofList_append_cons, if_neg hne, if_neg hne]

lemma place_of_lt {k : ℕ} (hk : t.length < k) : t.place buf k = buf k :=
  blit_of_not_mem (by omega)

/-- It is the token copied to the buffer, with a terminator for the colon. -/
lemma update_blit_bytes :
    Function.update (blit buf 0 (t.length + 1) (ofList t.bytes)) t.command.length 0 =
      t.place buf := by
  funext j
  by_cases hj : j = t.command.length
  · rw [hj, Function.update_self, t.place_command]
  · rw [Function.update_of_ne hj]
    by_cases hle : j ≤ t.length
    · rw [t.place_of_ne buf hle hj, blit_of_mem (by omega) (by omega), Nat.sub_zero]
    · rw [t.place_of_lt buf (by omega), blit_of_not_mem (by omega)]

lemma place_length : t.place buf t.length = 0 := by
  have hlen : t.length = t.command.length + 1 + t.argument.length := rfl
  rw [t.place_of_ne buf le_rfl (by omega), t.ofList_bytes_length]

/-- Between the terminators are the bytes of the argument. -/
lemma place_argument {k : ℕ} (hcmd : t.command.length < k) (hk : k < t.length) :
    t.place buf k ≠ 0 ∧ t.place buf k ≠ 0x3a := by
  have hbyte := t.ofList_bytes hk hcmd.ne'
  rw [t.place_of_ne buf hk.le hcmd.ne']
  exact ⟨hbyte.1, hbyte.2.2⟩

end Place

end CmdToken

/-! ## Cutting a token -/

/-- Behind the colon the loop runs to the terminator. -/
lemma cmdlineSplit_after {cmd : ℕ → BYTE} {arg : Option ℕ} : ∀ (n fuel cc : ℕ), n < fuel →
    (∀ j, cc ≤ j → j ≤ cc + n → cmd j ≠ 0x3a) → (∀ j, cc < j → j ≤ cc + n → cmd j ≠ 0) →
    cmd (cc + n + 1) = 0 → cmdlineSplit fuel cmd cc arg = some (cmd, arg)
  | n, 0, _, hfuel, _, _, _ => by omega
  | 0, fuel + 1, cc, _, hcolon, _, hnul => by
    rw [cmdlineSplit, if_neg (hcolon cc le_rfl (by omega))]
    exact if_neg (not_not.mpr hnul)
  | n + 1, fuel + 1, cc, hfuel, hcolon, hnz, hnul => by
    rw [cmdlineSplit, if_neg (hcolon cc le_rfl (by omega))]
    simp only
    rw [if_pos (hnz (cc + 1) (by omega) (by omega))]
    refine cmdlineSplit_after n fuel (cc + 1) (by omega)
      (fun j h₁ h₂ => hcolon j (by omega) (by omega))
      (fun j h₁ h₂ => hnz j (by omega) (by omega)) ?_
    rw [← hnul]
    congr 1
    omega

/-- Before the colon the loop changes nothing. -/
lemma cmdlineSplit_before (cmd : ℕ → BYTE) (arg : Option ℕ) (fuel : ℕ) : ∀ (n cc : ℕ),
    (∀ j, cc ≤ j → j < cc + n → cmd j ≠ 0x3a) → (∀ j, cc < j → j ≤ cc + n → cmd j ≠ 0) →
    cmdlineSplit (fuel + n) cmd cc arg = cmdlineSplit fuel cmd (cc + n) arg
  | 0, _, _, _ => rfl
  | n + 1, cc, hcolon, hnz => by
    rw [← Nat.add_assoc, cmdlineSplit, if_neg (hcolon cc le_rfl (by omega))]
    simp only
    rw [if_pos (hnz (cc + 1) (by omega) (by omega)),
      cmdlineSplit_before cmd arg fuel n (cc + 1) (fun j h₁ h₂ => hcolon j (by omega) (by omega))
        fun j h₁ h₂ => hnz j (by omega) (by omega)]
    congr 1
    omega

/-- **Cutting a token.** On a token in the buffer the first loop of `cmdline_process` puts the
terminator of the command in the place of the colon, and finds the argument behind it. -/
lemma cmdlineSplit_token (t : CmdToken) (buf : ℕ → BYTE) {fuel : ℕ} (hfuel : t.length < fuel) :
    cmdlineSplit fuel (blit buf 0 (t.length + 1) (ofList t.bytes)) 0 none =
      some (t.place buf, some (t.command.length + 1)) := by
  set cmd := blit buf 0 (t.length + 1) (ofList t.bytes) with hcmd
  have hlen : t.length = t.command.length + 1 + t.argument.length := rfl
  have hbyte : ∀ j ≤ t.length, cmd j = ofList t.bytes j := fun j hj => by
    rw [hcmd, blit_of_mem (by omega) (by omega), Nat.sub_zero]
  obtain ⟨rest, rfl⟩ : ∃ rest, fuel = rest + 1 + t.command.length :=
    ⟨fuel - 1 - t.command.length, by omega⟩
  have hcolon : cmd t.command.length = 0x3a := by
    rw [hbyte _ (by omega), t.ofList_bytes_colon]
  have hbefore := cmdlineSplit_before cmd none (rest + 1) t.command.length 0
    (fun j _ hj => by
      rw [hbyte j (by omega)]
      exact (t.ofList_bytes (by omega) (by omega)).2.2)
    (fun j _ hj => by
      rw [hbyte j (by omega)]
      exact t.ofList_bytes_ne_zero (by omega))
  rw [hbefore, Nat.zero_add, cmdlineSplit, if_pos hcolon]
  simp only
  rw [hcmd, t.update_blit_bytes]
  -- behind the colon: the argument, or already the end of the token
  cases hn : t.argument.length with
  | zero =>
    have hlast : t.command.length + 1 = t.length := by omega
    rw [hlast, if_neg (not_not.mpr (t.place_length buf)), ← hlast]
  | succ n =>
    rw [if_pos (t.place_argument buf (Nat.lt_succ_self _) (by omega)).1]
    refine cmdlineSplit_after n rest _ (by omega)
      (fun j h₁ h₂ => (t.place_argument buf (by omega) (by omega)).2)
      (fun j h₁ h₂ => (t.place_argument buf (by omega) (by omega)).1) ?_
    rw [← t.place_length buf]
    congr 1
    omega

/-! ## Processing a token -/

/-- The call made for a token: the function found, and the argument in the buffer. -/
def CmdToken.calls (cmds : List CmdlineCmd) (t : CmdToken) (buf : ℕ → BYTE) : List CmdlineCall :=
  ((cmdlineLookup (t.place buf) cmds).map fun f =>
    (f, some fun k => t.place buf (t.command.length + 1 + k))).toList

/-- The state after a token. -/
def BootState.token (cmds : List CmdlineCmd) (s : BootState) (t : CmdToken) : BootState :=
  { s with buf := t.place s.buf, calls := s.calls ++ t.calls cmds s.buf }

section Line

variable {cmds : List CmdlineCmd} {fuel : ℕ} {str : ℕ → BYTE}

/-- A token of the string is copied and processed. -/
lemma cmdlineToken_eq {sc : ℕ} {t : CmdToken} (h : Holds str sc t.bytes) (hfuel : t.length < fuel)
    (s : BootState) : cmdlineToken cmds fuel str sc (sc + t.length) s = some (s.token cmds t) := by
  have hbuf : Function.update (memcpy s.buf 0 str sc t.length) t.length 0 =
      blit s.buf 0 (t.length + 1) (ofList t.bytes) := by
    funext j
    rw [memcpy_eq_blit]
    rcases Nat.lt_trichotomy j t.length with hj | hj | hj
    · rw [Function.update_of_ne hj.ne, blit_of_mem (by omega) (by omega),
        blit_of_mem (by omega) (by omega), Nat.sub_zero, h j (by simpa using hj), ofList,
        List.getD_eq_getElem _ _ (by simpa using hj)]
    · rw [hj, Function.update_self, blit_of_mem (by omega) (by omega), Nat.sub_zero,
        t.ofList_bytes_length]
    · rw [Function.update_of_ne hj.ne', blit_of_not_mem (by omega), blit_of_not_mem (by omega)]
  rw [cmdlineToken, Nat.add_sub_cancel_left, hbuf, cmdlineProcess, cmdlineSplit_token t s.buf hfuel]
  rfl

/-- One iteration inside a token. -/
lemma cmdlineScan_inside {cc : ℕ} (hspace : str cc ≠ 0x20) (m sc : ℕ) (s : BootState) :
    cmdlineScan cmds fuel str (m + 1) sc cc s =
      if str (cc + 1) ≠ 0 then cmdlineScan cmds fuel str m sc (cc + 1) s
      else some (sc, cc + 1, s) := by
  rw [cmdlineScan, if_neg hspace]
  rfl

/-- One iteration at the end of a token. -/
lemma cmdlineScan_space {sc cc : ℕ} (hspace : str cc = 0x20) {s s' : BootState}
    (htoken : cmdlineToken cmds fuel str sc cc s = some s') (m : ℕ) :
    cmdlineScan cmds fuel str (m + 1) sc cc s =
      if str (cc + 1) ≠ 0 then cmdlineScan cmds fuel str m (cc + 1) (cc + 1) s'
      else some (cc + 1, cc + 1, s') := by
  rw [cmdlineScan, if_pos hspace, htoken]
  rfl

/-- Inside a token the loop changes nothing. -/
lemma cmdlineScan_skip (sc : ℕ) (s : BootState) (m : ℕ) : ∀ (n cc : ℕ),
    (∀ j, cc ≤ j → j < cc + n → str j ≠ 0x20) → (∀ j, cc < j → j ≤ cc + n → str j ≠ 0) →
    cmdlineScan cmds fuel str (m + n) sc cc s = cmdlineScan cmds fuel str m sc (cc + n) s
  | 0, _, _, _ => rfl
  | n + 1, cc, hspace, hnz => by
    rw [← Nat.add_assoc, cmdlineScan_inside (hspace cc le_rfl (by omega)),
      if_pos (hnz (cc + 1) (by omega) (by omega)),
      cmdlineScan_skip sc s m n (cc + 1) (fun j h₁ h₂ => hspace j (by omega) (by omega))
        fun j h₁ h₂ => hnz j (by omega) (by omega)]
    congr 1
    omega

end Line

/-! ## Command lines -/

/-- The command line of the tokens `t`, `ts`, separated by single spaces. -/
def cmdLine (t : CmdToken) : List CmdToken → List BYTE
  | [] => t.bytes
  | u :: us => t.bytes ++ 0x20 :: cmdLine u us

section Line

variable {cmds : List CmdlineCmd} {fuel : ℕ} {str : ℕ → BYTE}

/-- The bytes of a token of the string. -/
lemma CmdToken.str_eq {sc : ℕ} {t : CmdToken} (h : Holds str sc t.bytes) {j : ℕ} (hle : sc ≤ j)
    (hlt : j < sc + t.length) : str j ≠ 0 ∧ str j ≠ 0x20 := by
  have hbyte : str j = ofList t.bytes (j - sc) := by
    have hcell := h (j - sc) (by rw [t.length_bytes]; omega)
    rw [Nat.add_sub_of_le hle] at hcell
    rw [hcell, ofList, List.getD_eq_getElem _ _ (by rw [t.length_bytes]; omega)]
  rw [hbyte]
  refine ⟨t.ofList_bytes_ne_zero (by omega), ?_⟩
  by_cases hne : j - sc = t.command.length
  · rw [hne, t.ofList_bytes_colon]
    decide
  · exact (t.ofList_bytes (by omega) hne).2.1

/-- A command line starts with its first token. -/
lemma holds_cmdLine {sc : ℕ} {t : CmdToken} {ts : List CmdToken} {rest : List BYTE}
    (h : Holds str sc (cmdLine t ts ++ rest)) : Holds str sc t.bytes := by
  cases ts with
  | nil => exact (holds_append.mp h).1
  | cons u us =>
    rw [cmdLine, List.append_assoc] at h
    exact (holds_append.mp h).1

/-- **Command lines.** The case of the command line processes the tokens one after the other.

**Proof sketch.** Induction on the tokens behind the first one, for every place in the string and
every state. Up to the space or the end of the string nothing happens; then the token is
processed, and the loop goes on behind the space. -/
lemma cmdlineScan_eq : ∀ (ts : List CmdToken) (t : CmdToken) (sc m : ℕ) (s : BootState),
    Holds str sc (cmdLine t ts ++ [0]) → (cmdLine t ts).length ≤ m →
    (∀ u ∈ t :: ts, u.length < fuel) →
    ((cmdlineScan cmds fuel str m sc sc s).bind fun r =>
      cmdlineToken cmds fuel str r.1 r.2.1 r.2.2) =
      some ((t :: ts).foldl (BootState.token cmds) s)
  | [], t, sc, m, s, hstr, hm, hfuel => by
    have hpos := t.length_pos
    rw [cmdLine, holds_append, t.length_bytes] at hstr
    rw [cmdLine, t.length_bytes] at hm
    obtain ⟨ht, hnul⟩ := hstr
    obtain ⟨m, rfl⟩ : ∃ k, m = k + 1 + (t.length - 1) := ⟨m - t.length, by omega⟩
    have hidx : sc + (t.length - 1) + 1 = sc + t.length := by omega
    have hend : str (sc + t.length) = 0 := hnul 0 (by simp)
    rw [cmdlineScan_skip sc s (m + 1) (t.length - 1) sc
        (fun j h₁ h₂ => (t.str_eq ht h₁ (by omega)).2)
        (fun j h₁ h₂ => (t.str_eq ht h₁.le (by omega)).1),
      cmdlineScan_inside (t.str_eq ht (by omega) (by omega)).2, hidx,
      if_neg (not_not.mpr hend), Option.bind_some]
    exact cmdlineToken_eq ht (hfuel t (by simp)) s
  | u :: us, t, sc, m, s, hstr, hm, hfuel => by
    rw [cmdLine, List.append_assoc, List.cons_append, holds_append, t.length_bytes] at hstr
    rw [cmdLine, List.length_append, t.length_bytes, List.length_cons] at hm
    obtain ⟨ht, hrest⟩ := hstr
    have hspace : str (sc + t.length) = 0x20 := hrest 0 (by simp)
    have hline : Holds str (sc + t.length + 1) (cmdLine u us ++ [0]) :=
      (holds_append (l := [0x20])).mp hrest |>.2
    have hnext : str (sc + t.length + 1) ≠ 0 := (u.str_eq (holds_cmdLine hline) le_rfl (by
      have := u.length_pos
      omega)).1
    obtain ⟨m, rfl⟩ : ∃ k, m = k + 1 + t.length := ⟨m - t.length - 1, by omega⟩
    rw [cmdlineScan_skip sc s (m + 1) t.length sc
        (fun j h₁ h₂ => (t.str_eq ht h₁ (by omega)).2)
        (fun j h₁ h₂ => by
          obtain rfl | hlt := eq_or_lt_of_le h₂
          · rw [hspace]
            decide
          · exact (t.str_eq ht h₁.le hlt).1),
      cmdlineScan_space hspace (cmdlineToken_eq ht (hfuel t (by simp)) s), if_pos hnext]
    exact cmdlineScan_eq us u _ m _ hline (by omega) fun v hv => hfuel v (by simp [hv])

end Line

/-! ## Looking a command up -/

/-- The function the table has for the command of a token. -/
def CmdToken.handler (t : CmdToken) : Option CmdlineFunc :=
  if t.command = serialName then some .serial
  else if t.command = networkName then some .network
  else none

/-- What is behind the command in the buffer lets the comparison with its name succeed. Behind
`serial` a non-empty argument does. Otherwise the first nonzero byte of the buffer from byte 8 on,
below 128, must not be the first one of a word; behind `network` a non-empty argument is. -/
def CmdToken.Dispatched (t : CmdToken) (buf : ℕ → BYTE) : Prop :=
  (t.command = serialName → t.argument ≠ [] ∨ QuietFrom (t.place buf) 128 2) ∧
    (t.command = networkName → t.argument = [] ∧ QuietFrom (t.place buf) 128 2)

section Lookup

variable {t : CmdToken} {name : List BYTE} {behind : ℕ → BYTE}

lemma cmdRegion_of_lt {k : ℕ} (hk : k < 128) : cmdRegion name behind k = ofList name k := if_pos hk

/-- The command in the buffer. -/
lemma CmdToken.place_of_lt_command (t : CmdToken) (buf : ℕ → BYTE) {k : ℕ}
    (hk : k < t.command.length) : t.place buf k = ofList t.command k ∧ t.place buf k ≠ 0 := by
  have hlen : t.length = t.command.length + 1 + t.argument.length := rfl
  have hbyte : t.place buf k = ofList t.command k := by
    rw [place, blit_of_mem (by omega) (by omega), Nat.sub_zero, ofList_append_cons, if_pos hk]
  rw [hbyte]
  exact ⟨rfl, (t.plain _ (List.mem_append_left _ (ofList_mem hk))).1⟩

/-- A command is not taken for another one. -/
lemma command_eq_of_strncmp (hname : 0 ∉ name) (hlen : name.length < 128) {buf : ℕ → BYTE}
    (h : strncmp (t.place buf) (cmdRegion name behind) 128 = 0) : t.command = name := by
  have heq := eqUpTo_of_strncmp_eq_zero (by omega) h
  have hnz : ∀ k, ∀ j < k, k ≤ t.command.length → t.place buf j ≠ 0 := fun k j hj hk =>
    (t.place_of_lt_command buf (by omega)).2
  rcases Nat.lt_trichotomy t.command.length name.length with hlt | hll | hlt
  · have hbyte := heq t.command.length (by omega) fun j hj => hnz _ j hj le_rfl
    rw [t.place_command, cmdRegion_of_lt (by omega)] at hbyte
    exact absurd (hbyte ▸ ofList_mem hlt) hname
  · refine List.ext_getElem hll fun k hk hk' => ?_
    have hbyte := heq k (by omega) fun j hj => hnz k j hj hk.le
    rwa [(t.place_of_lt_command buf hk).1, cmdRegion_of_lt (by omega), ofList, ofList,
      List.getD_eq_getElem _ _ hk, List.getD_eq_getElem _ _ hk'] at hbyte
  · have hbyte := heq name.length hlen fun j hj => hnz _ j hj hlt.le
    rw [cmdRegion_of_lt hlen, ofList, List.getD_eq_default _ _ le_rfl] at hbyte
    exact absurd hbyte (t.place_of_lt_command buf hlt).2

/-- A command is found iff what is behind it does not hide it. -/
lemma strncmp_command_iff (hlen : t.command.length < 128) (buf : ℕ → BYTE) :
    strncmp (t.place buf) (cmdRegion t.command behind) 128 = 0 ↔
      (∃ k, t.command.length < k ∧ k < (t.command.length / 4 + 1) * 4 ∧ t.place buf k ≠ 0) ∨
        QuietFrom (t.place buf) 128 (t.command.length / 4 + 1) := by
  refine strncmp_eq_zero_iff_of_terminator (w := 32) (by omega) (by omega) (fun j hj => ?_)
    (t.place_command buf) fun k hk hlt => ?_
  · obtain ⟨hbyte, hne⟩ := t.place_of_lt_command buf hj
    exact ⟨by rw [hbyte, cmdRegion_of_lt (by omega)], hne⟩
  · rw [cmdRegion_of_lt (by omega), ofList, List.getD_eq_default _ _ hk]

/-- The byte behind the command: the argument, or the end of the token. -/
lemma place_argument_ne_zero_iff (buf : ℕ → BYTE) :
    t.place buf (t.command.length + 1) ≠ 0 ↔ t.argument ≠ [] := by
  have hlen : t.length = t.command.length + 1 + t.argument.length := rfl
  cases harg : t.argument with
  | nil =>
    have hend : t.command.length + 1 = t.length := by simp [hlen, harg]
    rw [hend, t.place_length]
    simp
  | cons b l =>
    have hpos : t.command.length + 1 < t.length := by simp [hlen, harg]
    exact iff_of_true (t.place_argument buf (Nat.lt_succ_self _) hpos).1 (by simp)

/-- `serial` is found iff it has an argument or nothing behind it hides it. -/
lemma strncmp_serial_iff (buf : ℕ → BYTE) :
    strncmp (t.place buf) (cmdRegion serialName behind) 128 = 0 ↔
      t.command = serialName ∧ (t.argument ≠ [] ∨ QuietFrom (t.place buf) 128 2) := by
  constructor
  · intro h
    have hcmd := command_eq_of_strncmp (by decide) (by decide) h
    have hlen : t.command.length = 6 := by rw [hcmd]; rfl
    rw [← hcmd, strncmp_command_iff (by omega), hlen] at h
    refine ⟨hcmd, h.imp_left ?_⟩
    rintro ⟨k, h₁, h₂, hne⟩
    obtain rfl : k = t.command.length + 1 := by omega
    exact (place_argument_ne_zero_iff buf).mp hne
  · rintro ⟨hcmd, h⟩
    have hlen : t.command.length = 6 := by rw [hcmd]; rfl
    rw [← hcmd, strncmp_command_iff (by omega), hlen]
    refine h.imp_left fun harg => ⟨t.command.length + 1, by omega, by omega, ?_⟩
    exact (place_argument_ne_zero_iff buf).mpr harg

/-- `network` is found iff it has no argument and nothing behind it hides it. -/
lemma strncmp_network_iff (buf : ℕ → BYTE) :
    strncmp (t.place buf) (cmdRegion networkName behind) 128 = 0 ↔
      t.command = networkName ∧ (t.argument = [] ∧ QuietFrom (t.place buf) 128 2) := by
  constructor
  · intro h
    have hcmd := command_eq_of_strncmp (by decide) (by decide) h
    have hlen : t.command.length = 7 := by rw [hcmd]; rfl
    rw [← hcmd, strncmp_command_iff (by omega), hlen] at h
    have hquiet : QuietFrom (t.place buf) 128 2 := h.resolve_left fun ⟨k, h₁, h₂, _⟩ => by omega
    refine ⟨hcmd, not_not.mp fun harg => ?_, hquiet⟩
    -- the argument starts a word
    refine (place_argument_ne_zero_iff buf).mpr harg ?_
    rw [hlen]
    exact hquiet 2 le_rfl (by omega) fun j h₁ h₂ => by omega
  · rintro ⟨hcmd, -, hquiet⟩
    have hlen : t.command.length = 7 := by rw [hcmd]; rfl
    rw [← hcmd, strncmp_command_iff (by omega), hlen]
    exact .inr hquiet

/-- The search, over the two names of the table. -/
lemma cmdlineLookup_cmds (cmd : ℕ → BYTE) (behind : ℕ → ℕ → BYTE) :
    cmdlineLookup cmd (cmdlineCmds behind) =
      if strncmp cmd (cmdRegion serialName (behind 0)) 128 = 0 then some .serial
      else if strncmp cmd (cmdRegion networkName (behind 1)) 128 = 0 then some .network
      else none := by
  have hserial : cmdRegion serialName (behind 0) 0 ≠ 0 := by
    rw [cmdRegion_of_lt (by omega)]
    decide
  have hnetwork : cmdRegion networkName (behind 1) 0 ≠ 0 := by
    rw [cmdRegion_of_lt (by omega)]
    decide
  have hend : cmdRegion [] (behind 2) 0 = 0 := rfl
  simp only [cmdlineCmds, cmdlineLookup]
  rw [if_neg hserial, if_neg hnetwork, if_pos hend]

/-- The table has the command of a token iff it is one of its names, and finds it iff nothing
hides it. -/
lemma cmdlineLookup_eq (t : CmdToken) (buf : ℕ → BYTE) (behind : ℕ → ℕ → BYTE) :
    (t.Dispatched buf → cmdlineLookup (t.place buf) (cmdlineCmds behind) = t.handler) ∧
    (¬t.Dispatched buf →
      cmdlineLookup (t.place buf) (cmdlineCmds behind) = none ∧ t.handler ≠ none) := by
  have hserial : strncmp (t.place buf) (cmdRegion serialName (behind 0)) 128 = 0 ↔ _ :=
    strncmp_serial_iff buf
  have hnetwork : strncmp (t.place buf) (cmdRegion networkName (behind 1)) 128 = 0 ↔ _ :=
    strncmp_network_iff buf
  have hnames : serialName ≠ networkName := by decide
  rw [cmdlineLookup_cmds, CmdToken.handler, CmdToken.Dispatched]
  by_cases hs : t.command = serialName
  · have hn : t.command ≠ networkName := hs ▸ hnames
    have hmiss := mt hnetwork.mp fun h => hn h.1
    by_cases hd : t.argument ≠ [] ∨ QuietFrom (t.place buf) 128 2
    · have hfind := hserial.mpr ⟨hs, hd⟩
      exact ⟨fun _ => by rw [if_pos hfind, if_pos hs],
        fun h => absurd ⟨fun _ => hd, fun h => absurd h hn⟩ h⟩
    · have hlost := mt hserial.mp fun h => hd h.2
      refine ⟨fun h => absurd (h.1 hs) hd, fun _ => ⟨?_, ?_⟩⟩
      · rw [if_neg hlost, if_neg hmiss]
      · rw [if_pos hs]
        simp
  · have hmiss := mt hserial.mp fun h => hs h.1
    by_cases hn : t.command = networkName
    · by_cases hd : t.argument = [] ∧ QuietFrom (t.place buf) 128 2
      · have hfind := hnetwork.mpr ⟨hn, hd⟩
        exact ⟨fun _ => by rw [if_neg hmiss, if_pos hfind, if_neg hs, if_pos hn],
          fun h => absurd ⟨fun h => absurd h hs, fun _ => hd⟩ h⟩
      · have hlost := mt hnetwork.mp fun h => hd h.2
        refine ⟨fun h => absurd (h.2 hn) hd, fun _ => ⟨?_, ?_⟩⟩
        · rw [if_neg hmiss, if_neg hlost]
        · rw [if_neg hs, if_pos hn]
          simp
    · have hmiss' := mt hnetwork.mp fun h => hn h.1
      exact ⟨fun _ => by rw [if_neg hmiss, if_neg hmiss', if_neg hs, if_neg hn],
        fun h => absurd ⟨fun h => absurd h hs, fun h => absurd h hn⟩ h⟩

end Lookup

/-! ## Dispatch -/

/-- The calls that the tokens ask for. -/
def expectedCalls (ts : List CmdToken) : List (CmdlineFunc × List BYTE) :=
  ts.filterMap fun t => t.handler.map fun f => (f, t.argument)

/-- A call is the one asked for: the function is, and its argument is the string. -/
def IsCall (call : CmdlineCall) (e : CmdlineFunc × List BYTE) : Prop :=
  call.1 = e.1 ∧ ∃ arg, call.2 = some arg ∧ Holds arg 0 (e.2 ++ [0])

/-- The buffer after a token. -/
def bufStep (buf : ℕ → BYTE) (t : CmdToken) : ℕ → BYTE := t.place buf

section Dispatch

variable (behind : ℕ → ℕ → BYTE)

/-- The calls made for a list of tokens. -/
def madeCalls (buf : ℕ → BYTE) (ts : List CmdToken) : List CmdlineCall :=
  Run.emits bufStep (fun buf t => t.calls (cmdlineCmds behind) buf) buf ts

/-- The argument in the buffer is a string. -/
lemma holds_argument (t : CmdToken) (buf : ℕ → BYTE) :
    Holds (fun k => t.place buf (t.command.length + 1 + k)) 0 (t.argument ++ [0]) := by
  have hlen : t.length = t.command.length + 1 + t.argument.length := rfl
  intro k hk
  rw [List.length_append, List.length_singleton] at hk
  have hbyte : t.place buf (t.command.length + 1 + k) = ofList t.argument k := by
    rw [CmdToken.place, blit_of_mem (by omega) (by omega), Nat.sub_zero, ofList_append_cons,
      if_neg (by omega), if_neg (by omega), Nat.add_sub_cancel_left]
  rw [Nat.zero_add]
  refine hbyte.trans ?_
  rw [ofList]
  by_cases hlt : k < t.argument.length
  · rw [List.getD_eq_getElem _ _ hlt, List.getElem_append_left hlt]
  · rw [List.getD_eq_default _ _ (by omega), List.getElem_append_right (by omega)]
    simp

/-- There are never more calls than asked for. -/
lemma length_madeCalls_le (ts : List CmdToken) : ∀ buf : ℕ → BYTE,
    (madeCalls behind buf ts).length ≤ (expectedCalls ts).length := by
  induction ts with
  | nil => exact fun _ => le_rfl
  | cons t ts ih =>
    intro buf
    have hrest := ih (t.place buf)
    rw [madeCalls, Run.emits_cons, List.length_append, expectedCalls, List.filterMap_cons]
    change (t.calls (cmdlineCmds behind) buf).length +
      (madeCalls behind (t.place buf) ts).length ≤ _
    obtain ⟨hyes, hno⟩ := cmdlineLookup_eq t buf behind
    by_cases hd : t.Dispatched buf
    · rw [CmdToken.calls, hyes hd]
      cases t.handler with
      | none => simpa [expectedCalls] using hrest
      | some f =>
        simp only [Option.map_some, Option.toList_some, List.length_cons, List.length_nil]
        rw [expectedCalls] at hrest
        omega
    · rw [CmdToken.calls, (hno hd).1]
      obtain ⟨f, hf⟩ := Option.ne_none_iff_exists'.mp (hno hd).2
      rw [hf]
      simp only [Option.map_none, Option.toList_none, Option.map_some, List.length_cons,
        List.length_nil]
      rw [expectedCalls] at hrest
      omega

/-- The calls made are those asked for iff every token is dispatched.

**Proof sketch.** Induction on the tokens, for every content of the buffer. A token that is not
dispatched leaves the rest one call short. -/
lemma forall₂_isCall_iff (ts : List CmdToken) : ∀ buf : ℕ → BYTE,
    List.Forall₂ IsCall (madeCalls behind buf ts) (expectedCalls ts) ↔
      Run.Along bufStep (fun buf t => t.Dispatched buf) buf ts := by
  induction ts with
  | nil => exact fun _ => iff_of_true .nil trivial
  | cons t ts ih =>
    intro buf
    have hcalls : madeCalls behind buf (t :: ts) =
        t.calls (cmdlineCmds behind) buf ++ madeCalls behind (t.place buf) ts := rfl
    rw [hcalls, Run.along_cons, ← ih, expectedCalls, List.filterMap_cons, CmdToken.calls]
    obtain ⟨hyes, hno⟩ := cmdlineLookup_eq t buf behind
    by_cases hd : t.Dispatched buf
    · rw [hyes hd]
      cases t.handler with
      | none => simp [hd, expectedCalls, bufStep]
      | some f =>
        have hcall : IsCall (f, some fun k => t.place buf (t.command.length + 1 + k))
          (f, t.argument) := ⟨rfl, _, rfl, holds_argument t buf⟩
        simp [hd, expectedCalls, bufStep, hcall]
    · rw [(hno hd).1]
      obtain ⟨f, hf⟩ := Option.ne_none_iff_exists'.mp (hno hd).2
      refine iff_of_false (fun h => ?_) fun h => hd h.1
      have hlen := h.length_eq
      have hle := length_madeCalls_le behind ts (t.place buf)
      rw [hf] at hlen
      simp only [Option.map_none, Option.toList_none, List.nil_append, Option.map_some,
        List.length_cons] at hlen
      rw [expectedCalls] at hle
      omega

/-- The state after a list of tokens. -/
lemma foldl_token_calls (ts : List CmdToken) : ∀ s : BootState,
    (ts.foldl (BootState.token (cmdlineCmds behind)) s).calls =
      s.calls ++ madeCalls behind s.buf ts := by
  induction ts with
  | nil => exact fun s => (List.append_nil _).symm
  | cons t ts ih =>
    intro s
    rw [List.foldl_cons, ih, BootState.token, List.append_assoc]
    rfl

end Dispatch

/-- No token is longer than the line. -/
lemma length_le_cmdLine : ∀ (ts : List CmdToken) (t u : CmdToken), u ∈ t :: ts →
    u.length ≤ (cmdLine t ts).length
  | [], t, u, hu => by
    obtain rfl : u = t := by simpa using hu
    rw [cmdLine, CmdToken.length_bytes]
  | v :: vs, t, u, hu => by
    rw [cmdLine, List.length_append, List.length_cons, t.length_bytes]
    rcases List.mem_cons.mp hu with rfl | hu
    · omega
    · have hle := length_le_cmdLine vs v u hu
      omega

/-- The tag is the command line of the tokens `t`, `ts`. -/
def Mb2Tag.IsCmdline (tg : Mb2Tag) (t : CmdToken) (ts : List CmdToken) : Prop :=
  tg.type = MULTIBOOT_TAG_TYPE_CMDLINE ∧
    ∃ rest : List BYTE, tg.payload = cmdLine t ts ++ ([0] ++ rest)

/-- **A command line tag**: what the kernel's handlers do with it. -/
lemma multibootTag_cmdline (behind : ℕ → ℕ → BYTE) {mem : ℕ → BYTE} {tag : LONG} {tg : Mb2Tag}
    (htag : Holds mem tag.toNat tg.bytes) (hfits : tag.toNat + tg.bytes.length ≤ 2 ^ 32)
    {t : CmdToken} {ts : List CmdToken} (hline : tg.IsCmdline t ts) {fuel : ℕ}
    (hfuel : (cmdLine t ts).length < fuel) (s : BootState) :
    ∃ s', multibootTag mem (kernelHandlers (cmdlineCmds behind) fuel mem) tag (some s) = some s' ∧
      s'.calls = s.calls ++ madeCalls behind (kmemset s.buf 0 0 32) (t :: ts) := by
  obtain ⟨htype, rest, hpayload⟩ := hline
  have hword := (tag_words htag tag.toNat_lt).1
  rw [UInt32.ofNat_toNat] at hword
  simp only [Mb2Tag.bytes, hpayload, holds_append, length_word32] at htag
  simp only [Mb2Tag.bytes, hpayload, List.length_append, length_word32] at hfits
  have haddr : (tag + 8).toNat = tag.toNat + 4 + 4 := by
    have height : (8 : LONG).toNat = 8 := rfl
    rw [UInt32.toNat_add, height, Nat.mod_eq_of_lt (by simp at hfits; omega)]
  have hstr : Holds (fun k => mem ((tag + 8).toNat + k)) 0 (cmdLine t ts ++ [0]) := by
    have hmem : Holds mem (tag.toNat + 4 + 4) (cmdLine t ts ++ [0]) :=
      holds_append.mpr ⟨htag.2.2.1.1, htag.2.2.1.2.1⟩
    intro k hk
    rw [Nat.zero_add, ← hmem k hk]
    exact congrArg (fun a => mem (a + k)) haddr
  refine ⟨_, ?_, foldl_token_calls behind (t :: ts) { s with buf := kmemset s.buf 0 0 32 }⟩
  rw [multibootTag, if_pos (hword.trans htype)]
  exact cmdlineScan_eq ts t 0 fuel _ hstr hfuel.le fun u hu =>
    (length_le_cmdLine ts t u hu).trans_lt hfuel

/-- **Dispatch.** For every command line of tokens `<command>:<argument>`, whatever was on the
stack, the case of the command line ends, and the calls it makes are those the tokens ask for, in
order and with their arguments, iff every token is dispatched with the buffer its predecessors
left. -/
theorem cmdline_dispatch (behind : ℕ → ℕ → BYTE) {mem : ℕ → BYTE} {tag : LONG} {tg : Mb2Tag}
    (htag : Holds mem tag.toNat tg.bytes) (hfits : tag.toNat + tg.bytes.length ≤ 2 ^ 32)
    {t : CmdToken} {ts : List CmdToken} (hline : tg.IsCmdline t ts) {fuel : ℕ}
    (hfuel : (cmdLine t ts).length < fuel) (s : BootState) :
    ∃ s', multibootTag mem (kernelHandlers (cmdlineCmds behind) fuel mem) tag (some s) = some s' ∧
      ∃ calls, s'.calls = s.calls ++ calls ∧
        (List.Forall₂ IsCall calls (expectedCalls (t :: ts)) ↔
          Run.Along bufStep (fun buf t => t.Dispatched buf) (kmemset s.buf 0 0 32) (t :: ts)) := by
  obtain ⟨s', hrun, hcalls⟩ := multibootTag_cmdline behind htag hfits hline hfuel s
  exact ⟨s', hrun, _, hcalls, forall₂_isCall_iff behind (t :: ts) _⟩

/-- `serial:true` -/
def serialTrue : CmdToken where
  command := serialName
  argument := [0x74, 0x72, 0x75, 0x65]
  plain := by simp [serialName]
  length_le := by decide

/-- `network:false` -/
def networkFalse : CmdToken where
  command := networkName
  argument := [0x66, 0x61, 0x6c, 0x73, 0x65]
  plain := by simp [networkName]
  length_le := by decide

/-- `debug:on`, which is not in the table. -/
def debugOn : CmdToken where
  command := [0x64, 0x65, 0x62, 0x75, 0x67]
  argument := [0x6f, 0x6e]
  plain := by simp
  length_le := by decide

/-- `network:` -/
def networkEmpty : CmdToken where
  command := networkName
  argument := []
  plain := by simp [networkName]
  length_le := by decide

/-- A command line tag with the tokens `debug:on`, `serial:true` and `network:`. -/
def threeTokensTag : Mb2Tag where
  type := MULTIBOOT_TAG_TYPE_CMDLINE
  payload := cmdLine debugOn [serialTrue, networkEmpty] ++ ([0] ++ [])
  padding := List.replicate 2 0
  type_ne := cmdline_ne_end
  padded := by decide

/-- A command line tag with the token `network:false`. -/
def networkFalseTag : Mb2Tag where
  type := MULTIBOOT_TAG_TYPE_CMDLINE
  payload := cmdLine networkFalse [] ++ ([0] ++ [])
  padding := List.replicate 2 0
  type_ne := cmdline_ne_end
  padded := by decide

/-- The kernel before its command line is processed, with a cleared stack. -/
def freshBootState : BootState := ⟨fun _ => 0, [], ⟨0, 0, 0⟩⟩

/-- `debug:on serial:true network:` calls the handlers of the last two tokens. What `serial:true`
leaves in the buffer keeps the comparison of `network` from a word that starts with a nonzero
byte. -/
theorem cmdline_dispatch_three_tokens :
    ∃ s', multibootTag (fun a => ofList threeTokensTag.bytes (a - (0x9000 : LONG).toNat))
        (kernelHandlers (cmdlineCmds fun _ _ => 0) 32
          (fun a => ofList threeTokensTag.bytes (a - (0x9000 : LONG).toNat)))
        0x9000 (some freshBootState) = some s' ∧
      List.Forall₂ IsCall s'.calls
        [(.serial, [0x74, 0x72, 0x75, 0x65]), (.network, [])] := by
  obtain ⟨s', hrun, calls, hcalls, hiff⟩ := cmdline_dispatch (fun _ _ => 0)
    (holds_ofList threeTokensTag.bytes (0x9000 : LONG).toNat) (by decide)
    (⟨rfl, [], rfl⟩ : threeTokensTag.IsCmdline debugOn [serialTrue, networkEmpty])
    (show _ < 32 by decide) freshBootState
  refine ⟨s', hrun, ?_⟩
  rw [hcalls]
  refine hiff.mpr ⟨⟨fun h => absurd h (by decide), fun h => absurd h (by decide)⟩,
    ⟨fun _ => .inl (by decide), fun h => absurd h (by decide)⟩,
    ⟨fun h => absurd h (by decide), fun _ => ⟨rfl, fun c hc _ hzero => ?_⟩⟩, trivial⟩
  rcases hc.eq_or_lt with rfl | hlt
  · decide
  · exact absurd (hzero 9 (by decide) (by omega)) (by decide)

/-- `network:false` does not call its handler. -/
theorem cmdline_network_false_lost :
    ∃ s', multibootTag (fun a => ofList networkFalseTag.bytes (a - (0x9000 : LONG).toNat))
        (kernelHandlers (cmdlineCmds fun _ _ => 0) 32
          (fun a => ofList networkFalseTag.bytes (a - (0x9000 : LONG).toNat)))
        0x9000 (some freshBootState) = some s' ∧
      ¬List.Forall₂ IsCall s'.calls (expectedCalls [networkFalse]) := by
  obtain ⟨s', hrun, hcalls⟩ := multibootTag_cmdline (fun _ _ => 0)
    (holds_ofList networkFalseTag.bytes (0x9000 : LONG).toNat) (by decide)
    (⟨rfl, [], rfl⟩ : networkFalseTag.IsCmdline networkFalse []) (show _ < 32 by decide)
    freshBootState
  refine ⟨s', hrun, ?_⟩
  rw [hcalls, freshBootState, List.nil_append, forall₂_isCall_iff]
  rintro ⟨⟨-, hnetwork⟩, -⟩
  exact absurd (hnetwork rfl).1 (by decide)

end Korolev
