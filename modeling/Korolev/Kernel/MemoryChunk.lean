import Korolev.Kernel.Memory

set_option relaxedAutoImplicit false
set_option autoImplicit false

/-!
# The choice of the chunk

`mmgmt_greatest_chunk` looks for the longest available entry of the memory map. Lengths have 64
bits, but the longest so far is kept in 32. So an entry of 4 GiB or more is taken whatever was found
before, and counts by the low half of its length from then on. What is found in the end is the first
longest, by the low halves of the lengths, of the entries behind which no such entry comes.

`mmgmt_init` cuts the address of the chunk as well: a chunk from above 4 GiB is used at the address
of its low half.

## Main definitions

* `Korolev.Counted`, `Korolev.Taken` — the entries that count in the end, and the one of them that
  is taken.
* `Korolev.ChunkRight` — what the choice has to be.

## Main results

* `Korolev.mmgmtGreatestChunk_taken` — what is found.
* `Korolev.mmgmt_chunk_iff` — when the choice is right.
-/

namespace Korolev

/-! ## The entries -/

/-- The entry is memory that may be used. -/
def MmapEntry.Available (e : MmapEntry) : Prop := e.type = MULTIBOOT_MEMORY_AVAILABLE

/-- The entry lies below 4 GiB. -/
def MmapEntry.Below4G (e : MmapEntry) : Prop := e.addr.toNat + e.len.toNat ≤ 2 ^ 32

/-- The low half of the length of an entry. -/
def MmapEntry.lowLen (e : MmapEntry) : ℕ := e.len.toNat % 2 ^ 32

lemma MmapEntry.lowLen_of_lt {e : MmapEntry} (h : e.len.toNat < 2 ^ 32) :
    e.lowLen = e.len.toNat := Nat.mod_eq_of_lt h

section Chunk

variable (mmap : ℕ → MmapEntry)

/-- Entry `i` is available, and no available entry of 4 GiB or more comes after it, among the first
`n`. -/
structure Counted (n i : ℕ) : Prop where
  lt : i < n
  available : (mmap i).Available
  short : ∀ t, i < t → t < n → (mmap t).Available → (mmap t).len.toNat < 2 ^ 32

/-- Entry `j` is the first longest of those that count, by the low half of the length. -/
structure Taken (n j : ℕ) : Prop where
  counted : Counted mmap n j
  longest : ∀ i, Counted mmap n i → (mmap i).lowLen ≤ (mmap j).lowLen
  first : ∀ i < j, Counted mmap n i → (mmap i).lowLen < (mmap j).lowLen

/-- What the choice has to be: an available entry; none that is available and below 4 GiB is longer
than the length reported; and the chunk is empty or lies in the entry. -/
structure ChunkRight (n : Int32) : Prop where
  lt : (mmgmtGreatestChunk mmap n).1.toNat < n.toNatClampNeg
  available : (mmap (mmgmtGreatestChunk mmap n).1.toNat).Available
  longest : ∀ i < n.toNatClampNeg, (mmap i).Available → (mmap i).Below4G →
    (mmap i).len.toNat ≤ (mmgmtGreatestChunk mmap n).2.toNat
  inside : (mmgmtInit mmap n).len = 0 ∨
    (mmap (mmgmtGreatestChunk mmap n).1.toNat).addr.toNat ≤ (mmgmtInit mmap n).start.toNat ∧
    (mmgmtInit mmap n).start.toNat + 4096 * (mmgmtInit mmap n).len.toNat ≤
      (mmap (mmgmtGreatestChunk mmap n).1.toNat).addr.toNat +
        (mmap (mmgmtGreatestChunk mmap n).1.toNat).len.toNat

variable {mmap} {n i j : ℕ}

/-- An entry counts among one more iff it is the new one, or counted before and the new one is not
an available one of 4 GiB. -/
lemma counted_succ : Counted mmap (n + 1) i ↔
    (i = n ∧ (mmap n).Available) ∨
    (Counted mmap n i ∧ ((mmap n).Available → (mmap n).len.toNat < 2 ^ 32)) := by
  constructor
  · rintro ⟨hlt, havail, hshort⟩
    obtain rfl | hlt : i = n ∨ i < n := by omega
    · exact .inl ⟨rfl, havail⟩
    · exact .inr ⟨⟨hlt, havail, fun t hit htn => hshort t hit (by omega)⟩,
        hshort n hlt (by omega)⟩
  · rintro (⟨rfl, havail⟩ | ⟨h, hnew⟩)
    · exact ⟨by omega, havail, fun t hit htn => by omega⟩
    · refine ⟨Nat.lt_succ_of_lt h.lt, h.available, fun t hit htn => ?_⟩
      obtain rfl | htn : t = n ∨ t < n := by omega
      · exact hnew
      · exact h.short t hit htn

/-- Only one entry is taken. -/
lemma Taken.unique (h : Taken mmap n i) (h' : Taken mmap n j) : i = j := by
  have hle := h.longest j h'.counted
  have hge := h'.longest i h.counted
  rcases Nat.lt_trichotomy i j with hlt | heq | hlt
  · have := h'.first i hlt h.counted
    omega
  · exact heq
  · have := h.first j hlt h'.counted
    omega

/-! ## The scan -/

variable {max maxi : LONG}

/-- What the scan has found among the first `n` entries: nothing, as all available ones are empty,
or the one that is taken, with the low half of its length. -/
def Found (mmap : ℕ → MmapEntry) (n : ℕ) (max maxi : LONG) : Prop :=
  (max = 0 ∧ ∀ i < n, (mmap i).Available → (mmap i).len.toNat = 0) ∨
  (Taken mmap n maxi.toNat ∧ max.toNat = (mmap maxi.toNat).lowLen)

/-- What counted is no longer than what is found. -/
lemma Found.lowLen_le (h : Found mmap n max maxi) (hi : Counted mmap n i) :
    (mmap i).lowLen ≤ max.toNat := by
  rcases h with ⟨rfl, hempty⟩ | ⟨htaken, hmax⟩
  · rw [MmapEntry.lowLen, hempty i hi.lt hi.available]
    exact Nat.zero_le _
  · rw [hmax]
    exact htaken.longest i hi

/-- An available entry that is longer than what was found is taken. -/
lemma Found.take (h : Found mmap n max maxi) (havail : (mmap n).Available)
    (hlt : max.toNat < (mmap n).len.toNat) : Taken mmap (n + 1) n := by
  have hshorter : ∀ i, Counted mmap (n + 1) i → i ≠ n → (mmap i).lowLen < (mmap n).lowLen := by
    intro i hi hne
    obtain ⟨heq, -⟩ | ⟨hi, hshort⟩ := counted_succ.mp hi
    · exact absurd heq hne
    · have hle := h.lowLen_le hi
      rw [(mmap n).lowLen_of_lt (hshort havail)]
      omega
  refine ⟨counted_succ.mpr (.inl ⟨rfl, havail⟩), fun i hi => ?_, fun i hin hi => ?_⟩
  · rcases eq_or_ne i n with rfl | hne
    · exact le_rfl
    · exact (hshorter i hi hne).le
  · exact hshorter i hi hin.ne

/-- An entry that is not available, or not longer than what was found, is passed over. -/
lemma Found.skip (h : Found mmap n max maxi)
    (hskip : (mmap n).Available → (mmap n).len.toNat ≤ max.toNat) :
    Found mmap (n + 1) max maxi := by
  have hmax := max.toNat_lt
  have hshort : (mmap n).Available → (mmap n).len.toNat < 2 ^ 32 := fun havail =>
    (hskip havail).trans_lt hmax
  rcases h with ⟨rfl, hempty⟩ | ⟨htaken, heq⟩
  · refine .inl ⟨rfl, fun i hi havail => ?_⟩
    obtain rfl | hi : i = n ∨ i < n := by omega
    · exact Nat.le_zero.mp (hskip havail)
    · exact hempty i hi havail
  · refine .inr ⟨⟨?_, fun i hi => ?_, fun i hij hi => ?_⟩, heq⟩
    · exact counted_succ.mpr (.inr ⟨htaken.counted, hshort⟩)
    · obtain ⟨rfl, havail⟩ | ⟨hi, -⟩ := counted_succ.mp hi
      · rw [(mmap i).lowLen_of_lt (hshort havail), ← heq]
        exact hskip havail
      · exact htaken.longest i hi
    · obtain ⟨rfl, -⟩ | ⟨hi, -⟩ := counted_succ.mp hi
      · have := htaken.counted.lt
        omega
      · exact htaken.first i hij hi

/-- **The scan.**

**Proof sketch.** Induction on the number of entries left: each is taken (`Found.take`) or passed
over (`Found.skip`). -/
lemma mmgmtScan_found (k : ℕ) : ∀ (n : ℕ) (max maxi : LONG), n + k ≤ 2 ^ 31 →
    Found mmap n max maxi →
    Found mmap (n + k) (mmgmtScan mmap k n max maxi).2 (mmgmtScan mmap k n max maxi).1 := by
  induction k with
  | zero => exact fun n max maxi _ h => h
  | succ k ih =>
    intro n max maxi hnk h
    have hcond : max.toUInt64 < (mmap n).len ↔ max.toNat < (mmap n).len.toNat := by
      rw [UInt64.lt_iff_toNat_lt, UInt32.toNat_toUInt64]
    have hidx : (UInt32.ofNat n).toNat = n := toNat_ofNat_of_lt (by omega)
    rw [mmgmtScan, ← Nat.add_assoc, Nat.add_right_comm]
    split_ifs with hlonger
    · refine ih (n + 1) _ _ (by omega) (.inr ⟨?_, ?_⟩)
      · rw [hidx]
        exact h.take hlonger.2 (hcond.mp hlonger.1)
      · rw [hidx, UInt64.toNat_toUInt32]
        rfl
    · refine ih (n + 1) _ _ (by omega) (h.skip fun havail => ?_)
      by_contra hlt
      exact hlonger ⟨hcond.mpr (by omega), havail⟩

/-- **What is found** in a map with an available entry that is not empty: the entry that is taken,
and the low half of its length. -/
lemma mmgmtGreatestChunk_taken {n : Int32}
    (hsome : ∃ i < n.toNatClampNeg, (mmap i).Available ∧ (mmap i).len ≠ 0) :
    Taken mmap n.toNatClampNeg (mmgmtGreatestChunk mmap n).1.toNat ∧
    (mmgmtGreatestChunk mmap n).2.toNat =
      (mmap (mmgmtGreatestChunk mmap n).1.toNat).lowLen := by
  have hstart : Found mmap 0 0 0 := .inl ⟨rfl, fun i hi => absurd hi (Nat.not_lt_zero i)⟩
  have hn := n.toNatClampNeg_lt
  have hfound := mmgmtScan_found n.toNatClampNeg 0 0 0 (by omega) hstart
  rw [Nat.zero_add] at hfound
  rcases hfound with ⟨-, hempty⟩ | htaken
  · obtain ⟨i, hi, havail, hne⟩ := hsome
    exact absurd (UInt64.toNat_inj.mp (hempty i hi havail)) hne
  · exact htaken

end Chunk

/-! ## The choice -/

/-- **When the choice of the chunk is right.** For every memory map with an available entry that is
not empty: the entry chosen is available, no available entry below 4 GiB is longer than the length
reported, and the chunk that `mmgmt_init` sets up is empty or lies in the entry, iff, for the entry
that is taken, no available entry below 4 GiB is longer than the low half of its length, and it
starts below 4 GiB or that half is less than a page. -/
theorem mmgmt_chunk_iff (mmap : ℕ → MmapEntry) (n : Int32)
    (hsome : ∃ i < n.toNatClampNeg, (mmap i).Available ∧ (mmap i).len ≠ 0) :
    ChunkRight mmap n ↔ ∃ j, Taken mmap n.toNatClampNeg j ∧
      (∀ i < n.toNatClampNeg, (mmap i).Available → (mmap i).Below4G →
        (mmap i).len.toNat ≤ (mmap j).lowLen) ∧
      ((mmap j).addr.toNat < 2 ^ 32 ∨ (mmap j).lowLen < 4096) := by
  obtain ⟨htaken, hlen⟩ := mmgmtGreatestChunk_taken hsome
  have hempty : (mmgmtInit mmap n).len = 0 ↔
      (mmap (mmgmtGreatestChunk mmap n).1.toNat).lowLen < 4096 := by
    rw [← UInt32.toNat_inj, mmgmtInit_len, hlen, UInt32.toNat_zero, Nat.div_eq_zero_iff]
    omega
  have hcut : (mmap (mmgmtGreatestChunk mmap n).1.toNat).lowLen ≤
      (mmap (mmgmtGreatestChunk mmap n).1.toNat).len.toNat := Nat.mod_le _ _
  constructor
  · intro h
    refine ⟨_, htaken, fun i hi havail hbelow => hlen ▸ h.longest i hi havail hbelow, ?_⟩
    rcases h.inside with hzero | ⟨hle, -⟩
    · exact .inr (hempty.mp hzero)
    · rw [mmgmtInit_start] at hle
      exact .inl (hle.trans_lt (Nat.mod_lt _ (by decide)))
  · rintro ⟨j, hj, hlongest, hinside⟩
    obtain rfl := hj.unique htaken
    refine ⟨htaken.counted.lt, htaken.counted.available, ?_, ?_⟩
    · rw [hlen]
      exact hlongest
    · rcases hinside with hlow | hpage
      · refine .inr ?_
        rw [mmgmtInit_start, mmgmtInit_len, hlen, Nat.mod_eq_of_lt hlow]
        exact ⟨le_rfl, by omega⟩
      · exact .inl (hempty.mpr hpage)

/-- A memory map with a longest entry that is reserved, and two available ones of 1 GiB. -/
def mmapFourEntries : ℕ → MmapEntry
  | 0 => ⟨0, 0x9FC00, 1⟩
  | 1 => ⟨0xC0000000, 0x140000000, 2⟩
  | 2 => ⟨0x100000, 0x40000000, 1⟩
  | _ => ⟨0x50000000, 0x40000000, 1⟩

/-- The first available entry of 1 GiB is the chunk. -/
theorem mmgmt_chunk_iff_four_entries : ChunkRight mmapFourEntries 4 := by
  have hcount : (4 : Int32).toNatClampNeg = 4 := rfl
  have hlongest : ∀ i < 4, (mmapFourEntries i).type = MULTIBOOT_MEMORY_AVAILABLE →
      (mmapFourEntries i).lowLen ≤ (mmapFourEntries 2).lowLen := by decide
  have hbefore : ∀ i < 2, (mmapFourEntries i).type = MULTIBOOT_MEMORY_AVAILABLE →
      (mmapFourEntries i).lowLen < (mmapFourEntries 2).lowLen := by decide
  have hshort : ∀ i < 4, (mmapFourEntries i).type = MULTIBOOT_MEMORY_AVAILABLE →
      (mmapFourEntries i).len.toNat < 2 ^ 32 := by decide
  refine (mmgmt_chunk_iff mmapFourEntries 4 ⟨2, by decide, rfl, by decide⟩).mpr
    ⟨2, ⟨⟨by decide, rfl, fun t _ ht => hshort t ht⟩,
      fun i hi => hlongest i hi.lt hi.available, fun i hi hc => hbefore i hi hc.available⟩,
      fun i hi havail _ => ?_, .inl (by decide)⟩
  rw [hcount] at hi
  rw [← MmapEntry.lowLen_of_lt (hshort i hi havail)]
  exact hlongest i hi havail

/-- A memory map with 1 GiB below 4 GiB and 4 GiB above. -/
def mmapHighMemory : ℕ → MmapEntry := fun i =>
  if i = 0 then ⟨0x100000, 0x40000000, 1⟩ else ⟨0x100000000, 0x100000000, 1⟩

/-- The second entry is chosen, with a length of `0`. -/
theorem mmgmt_chunk_cut :
    mmgmtGreatestChunk mmapHighMemory 2 = (1, 0) ∧ ¬ChunkRight mmapHighMemory 2 := by
  have hchunk : mmgmtGreatestChunk mmapHighMemory 2 = (1, 0) := by decide
  refine ⟨hchunk, fun h => ?_⟩
  have havail : (mmapHighMemory 0).Available := rfl
  have hbelow : (mmapHighMemory 0).addr.toNat + (mmapHighMemory 0).len.toNat ≤ 2 ^ 32 := by decide
  have hlong := h.longest 0 (by decide) havail hbelow
  rw [hchunk] at hlong
  exact absurd hlong (by decide)

end Korolev
