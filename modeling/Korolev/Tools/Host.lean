import Korolev.Base
import Korolev.Library.CString

set_option relaxedAutoImplicit false
set_option autoImplicit false

/-!
# The C library of the host

The tools of the repository (`tools/`) run on the host and use its C library, not the kernel's.
These are the functions they use, as the C standard defines them: string functions, and streams,
which are byte arrays with a position.

## Main definitions

* `Korolev.Host.strncpy`, `Korolev.Host.strncmp` — `strncpy` and `strncmp`.
* `Korolev.Host.File`, `Korolev.Host.Stream` — a file, and an open one.
* `Korolev.Host.fseek`, `Korolev.Host.fread`, `Korolev.Host.fwrite` — the stream functions.

## Main results

* `Korolev.Host.strncmp_eq_zero_iff` — `strncmp` returns `0` iff the strings agree up to `n`.
* `Korolev.Host.eqUpTo_cut` — what `strncpy` stores equals the source up to `n`.
* `Korolev.Host.File.write_byte` — the bytes of a file after a write inside of it.
-/

namespace Korolev.Host

open Bytes CStr

/-- The bytes `strncpy` stores: those of the source up to its terminator, then `0`. -/
def cut (src : ℕ → BYTE) : ℕ → BYTE := fun k => if ∀ j < k, src j ≠ 0 then src k else 0

/-- `strncpy(p, src, n)` for the pointer `p` to offset `d` of the region `dst`. -/
def strncpy (dst : ℕ → BYTE) (d : ℕ) (src : ℕ → BYTE) (n : ℕ) : ℕ → BYTE := blit dst d n (cut src)

/-- `strncmp(p, q, n)` -/
def strncmp (p q : ℕ → BYTE) : (n : ℕ) → ℤ
  | 0 => 0
  | n + 1 =>
    if p 0 ≠ q 0 then (p 0).toNat - (q 0).toNat
    else if p 0 = 0 then 0
    else strncmp (fun k => p (k + 1)) (fun k => q (k + 1)) n

/-- Bounded equality of strings, by their first bytes. -/
lemma eqUpTo_succ {p q : ℕ → BYTE} {n : ℕ} :
    EqUpTo (n + 1) p q ↔ p 0 = q 0 ∧
      (p 0 ≠ 0 → EqUpTo n (fun k => p (k + 1)) fun k => q (k + 1)) := by
  constructor
  · refine fun h => ⟨h 0 (by omega) fun j hj => by omega, fun h0 k hk hj => ?_⟩
    refine h (k + 1) (by omega) fun j hjk => ?_
    cases j with
    | zero => exact h0
    | succ j => exact hj j (by omega)
  · rintro ⟨h0, hrest⟩ k hk hj
    cases k with
    | zero => exact h0
    | succ k => exact hrest (hj 0 (by omega)) k (by omega) fun j hjk => hj (j + 1) (by omega)

/-- **`strncmp` returns `0` iff the strings agree up to `n`.** -/
lemma strncmp_eq_zero_iff (n : ℕ) : ∀ p q : ℕ → BYTE, strncmp p q n = 0 ↔ EqUpTo n p q := by
  induction n with
  | zero => exact fun p q => ⟨fun _ k hk => by omega, fun _ => rfl⟩
  | succ n ih =>
    intro p q
    rw [strncmp, eqUpTo_succ]
    by_cases hne : p 0 = q 0
    · rw [if_neg (not_not.mpr hne)]
      by_cases h0 : p 0 = 0
      · rw [if_pos h0]
        exact iff_of_true rfl ⟨hne, fun h => absurd h0 h⟩
      · rw [if_neg h0, ih]
        exact ⟨fun h => ⟨hne, fun _ => h⟩, fun h => h.2 h0⟩
    · have hdiff : ((p 0).toNat : ℤ) - (q 0).toNat ≠ 0 := by
        have hnat : (p 0).toNat ≠ (q 0).toNat := fun h => hne (UInt8.toNat_inj.mp h)
        omega
      rw [if_pos hne]
      exact iff_of_false hdiff fun h => hne h.1

/-- What `strncpy` stores is the source as a string. -/
lemma eqUpTo_cut (n : ℕ) (src : ℕ → BYTE) : EqUpTo n src (cut src) :=
  fun _ _ hj => (if_pos hj).symm

/-- What `strncpy` stores is padded with `0`. -/
lemma padded_cut (n : ℕ) (src : ℕ → BYTE) : Padded n (cut src) := by
  intro j k hjk _ h0
  by_cases hk : ∀ i < k, src i ≠ 0
  · have hj : ∀ i < j, src i ≠ 0 := fun i hi => hk i (by omega)
    have hsrc : src j = 0 := by
      rw [← h0]
      exact (if_pos hj).symm
    obtain rfl | hlt : j = k ∨ j < k := by omega
    · exact h0
    · exact absurd hsrc (hk j hlt)
  · exact if_neg hk

/-! ## Streams -/

/-- A file: its size, and its bytes. -/
structure File where
  size : ℕ
  byte : ℕ → BYTE

/-- An open file with a position. -/
structure Stream where
  file : File
  pos : ℕ

/-- Writing `n` bytes at offset `off`. A gap behind the old end is filled with `0`. -/
def File.write (f : File) (off n : ℕ) (src : ℕ → BYTE) : File where
  size := max f.size (off + n)
  byte := blit (fun a => if a < f.size then f.byte a else 0) off n src

/-- `fseek(f, off, SEEK_SET)` -/
def fseek (f : Stream) (off : ℕ) : Stream := { f with pos := off }

/-- `fread` of `n` bytes in all to `buf`. Behind the end of the file nothing is stored. -/
def fread (f : Stream) (buf : ℕ → BYTE) (n : ℕ) : Stream × (ℕ → BYTE) :=
  let k := min n (f.file.size - f.pos)
  ({ f with pos := f.pos + k }, blit buf 0 k fun a => f.file.byte (f.pos + a))

/-- `fwrite` of `n` bytes in all from `buf`. -/
def fwrite (f : Stream) (buf : ℕ → BYTE) (n : ℕ) : Stream where
  file := f.file.write f.pos n buf
  pos := f.pos + n

/-- The bytes of a file after a write inside of it. -/
lemma File.write_byte {f : File} {off n a : ℕ} (ha : a < f.size) (src : ℕ → BYTE) :
    (f.write off n src).byte a = if off ≤ a ∧ a < off + n then src (a - off) else f.byte a := by
  simp only [File.write]
  by_cases h : off ≤ a ∧ a < off + n
  · rw [if_pos h, blit_of_mem h.1 h.2]
  · rw [if_neg h, blit_of_not_mem (by omega), if_pos ha]

end Korolev.Host
