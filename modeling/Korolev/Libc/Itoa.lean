import Korolev.Libc.String
import Korolev.Library.Numeral

set_option relaxedAutoImplicit false
set_option autoImplicit false

/-!
# `itoa`

`itoa` of `libc/stdlib.c` writes a number as a string. It finds the digits by division, the least
significant one first, in an array of 33 bytes, and copies them back in reverse. Only in base 10 is
the number signed.

The first loop is modelled with the room that is left in the array, so that a store behind its end
is an error and not a store. A division by zero is the other error. `len` is computed but not used,
and left out.

## Main definitions

* `Korolev.itoa`, with its loops `Korolev.itoaDigits` and `Korolev.itoaCopy`.

## Main results

* `Korolev.itoaDigits_spec` — the first loop stores the digits.
* `Korolev.itoaCopy_eq` — the second loop stores them in reverse.
* `Korolev.itoa_numeral` — the string is the numeral of the number.
-/

namespace Korolev

open Bytes CStr Numeral

/-- What can go wrong in `itoa`. -/
inductive ItoaFault where
  | overrun
  | divide
  deriving DecidableEq

/-- The character for the remainder `i`, `i + '0'` or `i + 'a' - 10`. -/
def itoaChar (i : Int32) : BYTE :=
  if i < 10 then (i + 0x30).toUInt32.toUInt8 else (i + 0x61 - 10).toUInt32.toUInt8

/-- The loop `while (v || tp == tmp)`, with `tp` the index of the pointer in `tmp` and `room` bytes
of the array from there on. -/
def itoaDigits (base : Int32) (room : ℕ) (tmp : ℕ → BYTE) (tp : ℕ) (v : LONG) :
    Except ItoaFault ((ℕ → BYTE) × ℕ) :=
  if v ≠ 0 ∨ tp = 0 then
    if base = 0 then .error .divide
    else
      match room with
      | 0 => .error .overrun
      | room + 1 =>
        let i := (v % base.toUInt32).toInt32
        itoaDigits base room (Function.update tmp tp (itoaChar i)) (tp + 1) (v / base.toUInt32)
  else .ok (tmp, tp)

/-- The loop `while (tp > tmp) *s++ = *--tp;`: the memory and the pointer behind it. -/
def itoaCopy (tmp : ℕ → BYTE) : (tp : ℕ) → (mem : ℕ → BYTE) → (s : ℕ) → (ℕ → BYTE) × ℕ
  | 0, mem, s => (mem, s)
  | tp + 1, mem, s => itoaCopy tmp tp (Function.update mem s (tmp tp)) (s + 1)

/-- `itoa(n, s, base)`: the memory and the pointer returned. `tmp` is what the array holds at
first. -/
def itoa (mem tmp : ℕ → BYTE) (n : Int32) (s : ℕ) (base : Int32) :
    Except ItoaFault ((ℕ → BYTE) × ℕ) :=
  let orig := s
  let tmp := kmemset tmp 0 0 33
  let sign : Bool := base = 10 ∧ n < 0
  let v : LONG := if sign then (-n).toUInt32 else n.toUInt32
  match itoaDigits base 33 tmp 0 v with
  | .error e => .error e
  | .ok (tmp, tp) =>
    let r := if sign then (Function.update mem s 0x2d, s + 1) else (mem, s)
    let r := itoaCopy tmp tp r.1 r.2
    .ok (Function.update r.1 r.2 0, orig)

/-! ## The loops -/

lemma itoaChar_eq_digit {d : ℕ} (hd : d < 36) : itoaChar (UInt32.ofNat d).toInt32 = digit d := by
  revert d
  decide

/-- The digits that the first loop has still to store. -/
def digitsLeft (base : Int32) (tp : ℕ) (v : LONG) : List ℕ :=
  if v ≠ 0 ∨ tp = 0 then lowDigits base.toUInt32.toNat v.toNat else []

section Base

variable {base : Int32} (h2 : 2 ≤ base.toUInt32.toNat)
include h2

/-- An iteration stores the first of them. -/
lemma digitsLeft_eq {tp : ℕ} {v : LONG} (hrun : v ≠ 0 ∨ tp = 0) :
    digitsLeft base tp v =
      v.toNat % base.toUInt32.toNat :: digitsLeft base (tp + 1) (v / base.toUInt32) := by
  have hquot : v / base.toUInt32 = 0 ↔ v.toNat / base.toUInt32.toNat = 0 := by
    rw [← UInt32.toNat_inj, UInt32.toNat_div]
    rfl
  rw [digitsLeft, digitsLeft, if_pos hrun, lowDigits_eq h2]
  refine congrArg _ ?_
  by_cases hlast : v.toNat / base.toUInt32.toNat = 0
  · rw [if_pos hlast, if_neg]
    rintro (hne | hfirst)
    · exact hne (hquot.mpr hlast)
    · exact Nat.succ_ne_zero tp hfirst
  · rw [if_neg hlast, if_pos (.inl (mt hquot.mp hlast)), UInt32.toNat_div]

/-- **The first loop** stores the digits behind those that are there, the least significant one
first. -/
lemma itoaDigits_spec (h36 : base.toUInt32.toNat ≤ 36) : ∀ (room : ℕ) (tmp : ℕ → BYTE) (tp : ℕ)
    (v : LONG), (digitsLeft base tp v).length ≤ room →
    ∃ tmp', itoaDigits base room tmp tp v = .ok (tmp', tp + (digitsLeft base tp v).length) ∧
      toList tmp' 0 (tp + (digitsLeft base tp v).length) =
        toList tmp 0 tp ++ (digitsLeft base tp v).map digit
  | room, tmp, tp, v, hroom => by
    have hbase : base ≠ 0 := by
      rintro rfl
      exact absurd h2 (by decide)
    rw [itoaDigits.eq_def]
    by_cases hrun : v ≠ 0 ∨ tp = 0
    · rw [digitsLeft_eq h2 hrun, List.length_cons] at hroom ⊢
      rw [if_pos hrun, if_neg hbase]
      cases room with
      | zero => exact absurd hroom (Nat.not_succ_le_zero _)
      | succ room =>
        have hlt : v.toNat % base.toUInt32.toNat < base.toUInt32.toNat := Nat.mod_lt _ (by omega)
        have hrem : v % base.toUInt32 = UInt32.ofNat (v.toNat % base.toUInt32.toNat) := by
          rw [← UInt32.toNat_inj, UInt32.toNat_mod, toNat_ofNat_of_lt (by omega)]
        dsimp only
        rw [hrem, itoaChar_eq_digit (by omega)]
        obtain ⟨tmp', hloop, hlist⟩ := itoaDigits_spec h36 room
          (Function.update tmp tp (digit (v.toNat % base.toUInt32.toNat))) (tp + 1)
          (v / base.toUInt32) (by omega)
        -- the digits that are there are below `tp`
        have hkeep : toList (Function.update tmp tp (digit (v.toNat % base.toUInt32.toNat))) 0 tp =
            toList tmp 0 tp :=
          toList_congr fun k hk => Function.update_of_ne (by omega) _ _
        rw [toList_succ_last, hkeep, Nat.zero_add, Function.update_self, List.append_assoc,
          List.singleton_append] at hlist
        have hlen : tp + ((digitsLeft base (tp + 1) (v / base.toUInt32)).length + 1) =
            tp + 1 + (digitsLeft base (tp + 1) (v / base.toUInt32)).length := by omega
        rw [hlen, List.map_cons]
        exact ⟨tmp', hloop, hlist⟩
    · have hnone : digitsLeft base tp v = [] := if_neg hrun
      rw [if_neg hrun, hnone]
      exact ⟨tmp, rfl, (List.append_nil _).symm⟩

/-- The array has room for the digits of every number. -/
lemma itoaDigits_eq (h36 : base.toUInt32.toNat ≤ 36) (tmp : ℕ → BYTE) (v : LONG) :
    ∃ tmp', itoaDigits base 33 tmp 0 v = .ok (tmp', (numeral base.toUInt32.toNat v.toNat).length) ∧
      (toList tmp' 0 (numeral base.toUInt32.toNat v.toNat).length).reverse =
        numeral base.toUInt32.toNat v.toNat := by
  have hleft : digitsLeft base 0 v = lowDigits base.toUInt32.toNat v.toNat := if_pos (.inr rfl)
  have hlen : (lowDigits base.toUInt32.toNat v.toNat).length ≤ 32 :=
    length_lowDigits_le h2 (by omega) (v.toNat_lt.trans_le (Nat.pow_le_pow_left h2 32))
  obtain ⟨tmp', hloop, hlist⟩ := itoaDigits_spec h2 h36 33 tmp 0 v (by rw [hleft]; omega)
  rw [hleft, Nat.zero_add] at hloop hlist
  rw [numeral, List.length_reverse, List.length_map]
  exact ⟨tmp', hloop, congrArg List.reverse hlist⟩

end Base

/-- **The second loop** stores the digits in reverse. -/
lemma itoaCopy_eq (tmp : ℕ → BYTE) : ∀ (tp : ℕ) (mem : ℕ → BYTE) (s : ℕ),
    itoaCopy tmp tp mem s = (blit mem s tp (ofList (toList tmp 0 tp).reverse), s + tp)
  | 0, mem, s => by simp [itoaCopy]
  | tp + 1, mem, s => by
    rw [itoaCopy, itoaCopy_eq, toList_succ_last, List.reverse_append, List.reverse_singleton,
      Nat.zero_add, Nat.add_right_comm]
    refine Prod.ext ?_ rfl
    exact blit_update (ofList ([tmp tp] ++ (toList tmp 0 tp).reverse)) mem s tp

/-! ## The string -/

/-- A string in front of which a character is stored. -/
lemma blit_ofList_cons (mem : ℕ → BYTE) (s : ℕ) (c : BYTE) (l : List BYTE) :
    blit (Function.update mem s c) (s + 1) l.length (ofList l) =
      blit mem s (l.length + 1) (ofList (c :: l)) :=
  blit_update (ofList (c :: l)) mem s l.length

/-- A string with the terminator behind it. -/
lemma blit_ofList_terminate (mem : ℕ → BYTE) (s : ℕ) (l : List BYTE) :
    Function.update (blit mem s l.length (ofList l)) (s + l.length) 0 =
      blit mem s (l.length + 1) (ofList l) := by
  funext a
  by_cases ha : a = s + l.length
  · rw [ha, Function.update_self, blit_add (by omega), ofList, List.getD_eq_default _ _ le_rfl]
  · rw [Function.update_of_ne ha]
    by_cases hin : s ≤ a ∧ a < s + l.length
    · rw [blit_of_mem hin.1 hin.2, blit_of_mem hin.1 (by omega)]
    · rw [blit_of_not_mem (by omega), blit_of_not_mem (by omega)]

/-- The characters of a string in memory. -/
lemma toList_blit_ofList (mem : ℕ → BYTE) (s : ℕ) (l : List BYTE) :
    toList (blit mem s (l.length + 1) (ofList l)) s l.length = l := by
  refine List.ext_getElem (length_toList _ _ _) fun k hk hk' => ?_
  have hcell : blit mem s (l.length + 1) (ofList l) (s + k) = l[k] := by
    rw [blit_add (by omega), ofList, List.getD_eq_getElem _ _ hk']
  simpa [toList] using hcell

/-! ## Numbers -/

/-- An `int`, converted to `unsigned`. -/
lemma natCast_toUInt32 (x : Int32) : (x.toUInt32.toNat : ℤ) = x.toInt % 2 ^ 32 := by
  have hbmod : x.toInt = (x.toUInt32.toNat : ℤ).bmod (2 ^ 32) := BitVec.toInt_eq_toNat_bmod _
  have hlt := x.toUInt32.toNat_lt
  have hmod := Int.bmod_emod (x := (x.toUInt32.toNat : ℤ)) (m := 2 ^ 32)
  rw [← hbmod] at hmod
  push_cast at hmod
  omega

/-- A negative number, negated and converted to `unsigned`. -/
lemma natCast_toUInt32_neg {x : Int32} (hx : x.toInt < 0) :
    ((-x).toUInt32.toNat : ℤ) = -x.toInt := by
  have hcast := natCast_toUInt32 x
  have hlow := x.le_toInt
  have hlt := x.toUInt32.toNat_lt
  have hsize : UInt32.size = 2 ^ 32 := rfl
  rw [Int32.toUInt32_neg, UInt32.toNat_neg, hsize]
  omega

/-- `v`, the number whose digits are written. -/
def itoaAbs (n base : Int32) : LONG := if base = 10 ∧ n < 0 then (-n).toUInt32 else n.toUInt32

/-- With the minus sign it makes up the number that is shown. -/
lemma itoaAbs_signed (n base : Int32) :
    (if base = 10 ∧ n < 0 then -((itoaAbs n base).toNat : ℤ) else (itoaAbs n base).toNat) =
      if base = 10 then n.toInt else n.toInt % 2 ^ 32 := by
  have hcast := natCast_toUInt32 n
  have hlt := n.toInt_lt
  rw [itoaAbs]
  by_cases hsign : base = 10 ∧ n < 0
  · have hneg : n.toInt < 0 := Int32.lt_iff_toInt_lt.mp hsign.2
    rw [if_pos hsign, if_pos hsign, if_pos hsign.1, natCast_toUInt32_neg hneg, neg_neg]
  · rw [if_neg hsign, if_neg hsign, hcast]
    split_ifs with hten
    · have hpos : 0 ≤ n.toInt := by
        have hge := fun h => hsign ⟨hten, h⟩
        rw [Int32.lt_iff_toInt_lt] at hge
        exact not_lt.mp hge
      omega
    · rfl

/-- The string that `itoa` writes. -/
def itoaString (n base : Int32) : List BYTE :=
  (if base = 10 ∧ n < 0 then [0x2d] else []) ++
    numeral base.toUInt32.toNat (itoaAbs n base).toNat

/-- Without a sign, the string is the numeral of the number, taken as unsigned. -/
lemma itoaString_unsigned {n base : Int32} (h : ¬(base = 10 ∧ n < 0)) :
    itoaString n base = numeral base.toUInt32.toNat n.toUInt32.toNat := by
  rw [itoaString, itoaAbs, if_neg h, if_neg h, List.nil_append]

/-- `itoa` stores the string and its terminator, and the array is large enough for the digits. -/
lemma itoa_eq (mem tmp : ℕ → BYTE) (n : Int32) (s : ℕ) {base : Int32}
    (h2 : 2 ≤ base.toUInt32.toNat) (h36 : base.toUInt32.toNat ≤ 36) :
    itoa mem tmp n s base =
      .ok (blit mem s ((itoaString n base).length + 1) (ofList (itoaString n base)), s) := by
  obtain ⟨tmp', hloop, hdigits⟩ :=
    itoaDigits_eq h2 h36 (kmemset tmp 0 0 33) (itoaAbs n base)
  have hv : (if decide (base = 10 ∧ n < 0) = true then (-n).toUInt32 else n.toUInt32) =
      itoaAbs n base := by
    simp only [decide_eq_true_eq]
    rfl
  rw [itoa]
  dsimp only
  rw [hv, hloop]
  dsimp only
  rw [itoaCopy_eq, hdigits, itoaString]
  by_cases hsign : base = 10 ∧ n < 0
  · simp only [decide_eq_true hsign, if_true, if_pos hsign]
    rw [blit_ofList_cons, Nat.add_right_comm, Nat.add_assoc s, ← List.length_cons (a := 0x2d),
      blit_ofList_terminate]
    rfl
  · simp only [decide_eq_false hsign, if_neg hsign, Bool.false_eq_true, if_false]
    rw [blit_ofList_terminate]
    rfl

/-- The C string that stands at `s` then. -/
lemma isString_itoaString (mem : ℕ → BYTE) (n : Int32) (s : ℕ) {base : Int32}
    (h2 : 2 ≤ base.toUInt32.toNat) (h36 : base.toUInt32.toNat ≤ 36) :
    IsString
      (fun k => blit mem s ((itoaString n base).length + 1) (ofList (itoaString n base)) (s + k))
      (itoaString n base) where
  cell k hk := by
    rw [blit_add (by omega), ofList, List.getD_eq_getElem _ _ hk]
  notMem := by
    intro hmem
    rcases List.mem_append.mp hmem with hc | hc
    · split_ifs at hc
      · exact absurd (List.mem_singleton.mp hc) (by decide)
      · exact absurd hc List.not_mem_nil
    · obtain ⟨d, hd, h0⟩ := (isNumeral_numeral h2 h36 _).digits 0 hc
      exact digit_ne_nul (by omega) h0.symm
  terminator := by
    rw [blit_add (Nat.lt_succ_self _)]
    exact List.getD_eq_default _ _ le_rfl

/-- **`itoa` writes the numeral.** For every number and every base from 2 to 36: it returns `s`, and
a string stands there with a terminator behind it, and nothing else has changed. The string is a
minus sign, in base 10 for a negative number, and the numeral of a number `m`, without zeros in
front and of at most 32 digits; with its sign, `m` is the number itself in base 10, and the number
modulo `2 ^ 32` in any other base. -/
theorem itoa_numeral (mem tmp : ℕ → BYTE) (n : Int32) (s : ℕ) (base : Int32)
    (hbase : 2 ≤ base ∧ base ≤ 36) :
    ∃ mem' digits m, itoa mem tmp n s base = .ok (mem', s) ∧
      IsNumeral base.toInt.toNat m digits ∧ digits.length ≤ 32 ∧
      (if base = 10 ∧ n < 0 then -(m : ℤ) else m) =
        (if base = 10 then n.toInt else n.toInt % 2 ^ 32) ∧
      let str := (if base = 10 ∧ n < 0 then [0x2d] else []) ++ digits
      toList mem' s str.length = str ∧ mem' (s + str.length) = 0 ∧ (∀ c ∈ str, c ≠ 0) ∧
      ∀ a, a < s ∨ s + str.length < a → mem' a = mem a := by
  have hlow : 2 ≤ base.toInt := Int32.le_iff_toInt_le.mp hbase.1
  have hhigh : base.toInt ≤ 36 := Int32.le_iff_toInt_le.mp hbase.2
  have hcast := natCast_toUInt32 base
  have hb : base.toInt.toNat = base.toUInt32.toNat := by omega
  have h2 : 2 ≤ base.toUInt32.toNat := by omega
  have h36 : base.toUInt32.toNat ≤ 36 := by omega
  have hnum := isNumeral_numeral h2 h36 (itoaAbs n base).toNat
  have hstring := isString_itoaString mem n s h2 h36
  refine ⟨_, numeral base.toUInt32.toNat (itoaAbs n base).toNat, (itoaAbs n base).toNat,
    itoa_eq mem tmp n s h2 h36, by rw [hb]; exact hnum, ?_, itoaAbs_signed n base, ?_⟩
  · exact hnum.length_le h2 h36 (by omega)
      ((itoaAbs n base).toNat_lt.trans_le (Nat.pow_le_pow_left h2 32))
  · intro str
    have hstr : str = itoaString n base := rfl
    rw [hstr]
    refine ⟨toList_blit_ofList mem s _, hstring.terminator, ?_, ?_⟩
    · rintro c hc rfl
      exact hstring.notMem hc
    · intro a ha
      exact blit_of_not_mem (by omega)

/-- The least number, whose negation wraps. -/
theorem itoa_numeral_min :
    ∃ mem' digits, itoa (fun _ => 0) (fun _ => 0) (-2147483648) 0x1000 10 = .ok (mem', 0x1000) ∧
      IsNumeral 10 2147483648 digits ∧
      toList mem' 0x1000 (digits.length + 1) = 0x2d :: digits ∧
      mem' (0x1000 + (digits.length + 1)) = 0 := by
  obtain ⟨mem', digits, m, hitoa, hnum, -, hval, hstr, hend, -⟩ :=
    itoa_numeral (fun _ => 0) (fun _ => 0) (-2147483648) 0x1000 10 ⟨by decide, by decide⟩
  have hsign : (10 : Int32) = 10 ∧ (-2147483648 : Int32) < 0 := ⟨rfl, by decide⟩
  have hmin : (-2147483648 : Int32).toInt = -2147483648 := by decide
  rw [if_pos hsign, if_pos rfl, hmin] at hval
  obtain rfl : m = 2147483648 := by omega
  rw [if_pos hsign] at hstr hend
  exact ⟨mem', digits, hitoa, hnum, hstr, hend⟩

end Korolev
