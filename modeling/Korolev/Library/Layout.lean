import Korolev.Library.Bytes

set_option relaxedAutoImplicit false
set_option autoImplicit false

/-!
# Data laid out in memory

A data structure that is handed over in memory is a list of bytes at an address. This file has
the predicate "the region holds these bytes from this offset on", how it splits along the parts
of a structure, and what is then loaded from there.

## Main definitions

* `Bytes.Holds` — a list of cells is in a region.
* `Bytes.le64` — a 64-bit load.
* `Bytes.word32`, `Bytes.word64` — the bytes of a word.

## Main results

* `Bytes.holds_append` — a concatenation is in a region iff its parts are, one behind the other.
* `Bytes.Holds.flatMap_get` — records of one length are at multiples of it.
* `Bytes.le32_of_holds`, `Bytes.le64_of_holds` — loading a word that is there.
-/

namespace Bytes

variable {β : Type*}

/-- The region has the cells of `l` from offset `off` on. -/
def Holds (m : ℕ → β) (off : ℕ) (l : List β) : Prop :=
  ∀ k (hk : k < l.length), m (off + k) = l[k]

/-- A concatenation is in a region iff its parts are, one behind the other. -/
lemma holds_append {m : ℕ → β} {off : ℕ} {l l' : List β} :
    Holds m off (l ++ l') ↔ Holds m off l ∧ Holds m (off + l.length) l' := by
  constructor
  · intro h
    refine ⟨fun k hk => ?_, fun k hk => ?_⟩
    · rw [h k (by rw [List.length_append]; omega), List.getElem_append_left hk]
    · have hcell := h (l.length + k) (by rw [List.length_append]; omega)
      rw [List.getElem_append_right (by omega)] at hcell
      simpa [Nat.add_assoc] using hcell
  · rintro ⟨h, h'⟩ k hk
    by_cases hlt : k < l.length
    · rw [h k hlt, List.getElem_append_left hlt]
    · rw [List.length_append] at hk
      have hcell := h' (k - l.length) (by omega)
      rw [List.getElem_append_right (by omega), ← hcell]
      congr 1
      omega

/-- A stretch of another region. -/
lemma holds_toList {m m' : ℕ → β} {off a n : ℕ} :
    Holds m off (toList m' a n) ↔ ∀ k < n, m (off + k) = m' (a + k) := by
  constructor
  · intro h k hk
    rw [h k (by simpa using hk)]
    simp [toList]
  · intro h k hk
    rw [h k (by simpa using hk)]
    simp [toList]

/-- A list of bytes, moved to an offset. -/
lemma holds_ofList (l : List UInt8) (off : ℕ) : Holds (fun a => ofList l (a - off)) off l := by
  intro k hk
  simp [ofList, hk]

/-- A cell of a stored list. -/
lemma Holds.mem {m : ℕ → β} {off : ℕ} {l : List β} (h : Holds m off l) {a : ℕ} (hle : off ≤ a)
    (hlt : a < off + l.length) : m a ∈ l := by
  obtain ⟨k, rfl⟩ := Nat.exists_eq_add_of_le hle
  rw [h k (by omega)]
  exact List.getElem_mem _

/-- Records of one length, together. -/
lemma length_flatMap_of_forall {γ : Type*} {f : γ → List β} {n : ℕ}
    (hlen : ∀ x, (f x).length = n) (xs : List γ) : (xs.flatMap f).length = n * xs.length := by
  rw [List.flatMap_def, length_flatten_of_forall, List.length_map]
  intro c hc
  obtain ⟨x, -, rfl⟩ := List.mem_map.mp hc
  exact hlen x

/-- Records of one length are at multiples of it.

**Proof sketch.** Induction on the list of records, for every offset. -/
lemma Holds.flatMap_get {γ : Type*} {m : ℕ → β} {f : γ → List β} {n : ℕ}
    (hlen : ∀ x, (f x).length = n) : ∀ {xs : List γ} {off : ℕ}, Holds m off (xs.flatMap f) →
      ∀ i (hi : i < xs.length), Holds m (off + n * i) (f xs[i])
  | [], _, _, i, hi => by simp at hi
  | x :: xs, off, h, i, hi => by
    rw [List.flatMap_cons, holds_append, hlen] at h
    cases i with
    | zero => exact h.1
    | succ i =>
      have hrest := h.2.flatMap_get hlen i (by simpa using hi)
      have hoff : off + n + n * i = off + n * (i + 1) := by
        rw [Nat.mul_succ]
        omega
      rwa [hoff] at hrest

/-! ## Words -/

/-- The four bytes of a word, least significant first. -/
def word32 (v : UInt32) : List UInt8 := toList (bytes32 v) 0 4

@[simp] lemma length_word32 (v : UInt32) : (word32 v).length = 4 := length_toList ..

/-- Loading a word that is there. -/
lemma le32_of_holds {m : ℕ → UInt8} {a : ℕ} {v : UInt32} (h : Holds m a (word32 v)) :
    le32 m a = v := by
  rw [← le32_bytes32 v]
  exact le32_congr fun k hk => holds_toList.mp h k hk

/-- The 64-bit word at offset `a`. -/
def le64 (m : ℕ → UInt8) (a : ℕ) : UInt64 :=
  UInt64.ofNat ((le32 m a).toNat + 2 ^ 32 * (le32 m (a + 4)).toNat)

/-- The eight bytes of a 64-bit word, least significant first. -/
def word64 (v : UInt64) : List UInt8 :=
  word32 (UInt32.ofNat v.toNat) ++ word32 (UInt32.ofNat (v.toNat / 2 ^ 32))

@[simp] lemma length_word64 (v : UInt64) : (word64 v).length = 8 := by simp [word64]

/-- Loading a 64-bit word that is there. -/
lemma le64_of_holds {m : ℕ → UInt8} {a : ℕ} {v : UInt64} (h : Holds m a (word64 v)) :
    le64 m a = v := by
  rw [word64, holds_append, length_word32] at h
  have hv := v.toNat_lt
  rw [← UInt64.toNat_inj, le64, le32_of_holds h.1, le32_of_holds h.2, UInt64.toNat_ofNat',
    UInt32.toNat_ofNat', UInt32.toNat_ofNat']
  omega

end Bytes
