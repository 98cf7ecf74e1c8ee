import Korolev.Libc.Itoa
import Korolev.Library.Loop

set_option relaxedAutoImplicit false
set_option autoImplicit false

/-!
# `atoi`

`atoi` of `libc/stdlib.c` is to read what `itoa` writes. Its loop runs while the byte at `s` is not
the terminator, and adds a digit to the number; but nothing in it changes `s`. So the loop sees the
first byte again and again.

## Main definitions

* `Korolev.atoi`, with its loop `Korolev.atoiBody`.

## Main results

* `Korolev.not_returns_atoiBody` — the loop does not end.
* `Korolev.atoi_returns_iff` — `atoi` returns for the empty string only, and so for no string that
  `itoa` writes.
-/

namespace Korolev

open Bytes CStr Numeral

/-- The variables of `atoi`. -/
structure AtoiState where
  n : Int32
  s : ℕ

/-- The loop `while(*s)` of `atoi`. A `char` is signed. -/
def atoiBody (mem : ℕ → BYTE) (st : AtoiState) : AtoiState ⊕ Int32 :=
  if mem st.s ≠ 0 then
    let st := { st with n := st.n * 10 }
    let st := { st with n := st.n + ((mem st.s).toInt8.toInt32 - 48) }
    .inl st
  else .inr st.n

/-- `atoi(s)`, with the fuel for its loop. -/
def atoi (mem : ℕ → BYTE) (fuel s : ℕ) : Option Int32 :=
  if mem s = 0 then some 0 else Loop.run (atoiBody mem) fuel ⟨0, s⟩

/-- **The loop does not end**: an iteration leaves `s` as it is, and so the byte it looks at. -/
lemma not_returns_atoiBody {mem : ℕ → BYTE} {s : ℕ} (h : mem s ≠ 0) (n r : Int32) :
    ¬Loop.Returns (atoiBody mem) ⟨n, s⟩ r := by
  apply Loop.not_returns fun st => st.s = s
  · rintro ⟨n, s'⟩ rfl
    exact ⟨_, if_pos h, rfl⟩
  · rfl

/-- The base that `atoi` reads. -/
lemma base_ten : 2 ≤ (10 : Int32).toUInt32.toNat ∧ (10 : Int32).toUInt32.toNat ≤ 36 := by decide

lemma atoi_eq_none {mem : ℕ → BYTE} {s : ℕ} (h : mem s ≠ 0) (fuel : ℕ) :
    atoi mem fuel s = none := by
  rw [atoi, if_neg h, Option.eq_none_iff_forall_ne_some]
  intro r hrun
  exact not_returns_atoiBody h 0 r ⟨fuel, hrun⟩

/-- What the string at `s` is decides. -/
lemma exists_atoi_eq_some_iff {mem : ℕ → BYTE} {s : ℕ} {str : List BYTE}
    (hstr : IsString (fun k => mem (s + k)) str) (r : Int32) :
    (∃ fuel, atoi mem fuel s = some r) ↔ str = [] ∧ r = 0 := by
  rw [hstr.eq_nil_iff, Nat.add_zero]
  constructor
  · rintro ⟨fuel, hrun⟩
    by_cases h : mem s = 0
    · rw [atoi, if_pos h] at hrun
      exact ⟨h, (Option.some.inj hrun).symm⟩
    · rw [atoi_eq_none h] at hrun
      exact absurd hrun (by simp)
  · rintro ⟨h, rfl⟩
    exact ⟨0, if_pos h⟩

/-- **When `atoi` returns.** On a string of decimal digits it returns iff the string is empty, and
then it returns `0`. On the string that `itoa` writes for a number that is not negative it never
returns, whatever the number. -/
theorem atoi_returns_iff (mem tmp : ℕ → BYTE) (s : ℕ) :
    (∀ str, IsString (fun k => mem (s + k)) str → (∀ c ∈ str, ∃ d < 10, c = digit d) →
      ∀ r, (∃ fuel, atoi mem fuel s = some r) ↔ str = [] ∧ r = 0) ∧
    ∀ n : Int32, 0 ≤ n → ∃ mem' str, itoa mem tmp n s 10 = .ok (mem', s) ∧
      IsString (fun k => mem' (s + k)) str ∧ ∀ fuel, atoi mem' fuel s = none := by
  refine ⟨fun str hstr _ => exists_atoi_eq_some_iff hstr, fun n _ => ?_⟩
  have hstr := isString_itoaString mem n s base_ten.1 base_ten.2
  refine ⟨_, _, itoa_eq mem tmp n s base_ten.1 base_ten.2, hstr, fun fuel => ?_⟩
  -- a numeral has a digit
  have hne : itoaString n 10 ≠ [] := by
    rw [itoaString]
    apply List.append_ne_nil_of_right_ne_nil
    exact (isNumeral_numeral (by decide) (by decide) _).ne_nil
  exact atoi_eq_none (mt hstr.eq_nil_iff.mpr hne) fuel

/-- The empty string, and the string for `7`. -/
theorem atoi_returns_empty :
    (∃ fuel, atoi (fun _ => 0) fuel 0x1000 = some 0) ∧
      ∃ mem' str, itoa (fun _ => 0) (fun _ => 0) 7 0x1000 10 = .ok (mem', 0x1000) ∧
        IsString (fun k => mem' (0x1000 + k)) str ∧ ∀ fuel, atoi mem' fuel 0x1000 = none := by
  obtain ⟨hdigits, hitoa⟩ := atoi_returns_iff (fun _ => 0) (fun _ => 0) 0x1000
  have hempty : IsString (fun _ => 0) [] := ⟨fun k hk => (nomatch hk), by decide, rfl⟩
  exact ⟨(hdigits [] hempty (fun c hc => nomatch hc) 0).mpr ⟨rfl, rfl⟩, hitoa 7 (by decide)⟩

/-- `atoi` does not return `7` for it. -/
theorem atoi_not_returns_seven : ∃ mem',
    itoa (fun _ => 0) (fun _ => 0) 7 0x1000 10 = .ok (mem', 0x1000) ∧
      IsString (fun k => mem' (0x1000 + k)) [0x37] ∧ ∀ fuel, atoi mem' fuel 0x1000 = none := by
  have heq : itoaString 7 10 = [0x37] := by
    rw [itoaString_unsigned (by decide)]
    symm
    apply (isNumeral_iff (by decide) (by decide)).mp
    refine ⟨by decide, fun c hc => ?_, by decide, by decide⟩
    exact ⟨7, by decide, List.mem_singleton.mp hc⟩
  have hitoa := itoa_eq (fun _ => 0) (fun _ => 0) 7 0x1000 base_ten.1 base_ten.2
  have hstr := isString_itoaString (fun _ => 0) 7 0x1000 base_ten.1 base_ten.2
  rw [heq] at hitoa hstr
  exact ⟨_, hitoa, hstr, atoi_eq_none (mt hstr.eq_nil_iff.mpr (by decide))⟩

end Korolev
