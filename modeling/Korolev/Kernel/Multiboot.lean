import Korolev.Kernel.Memory
import Korolev.Library.Layout
import Mathlib.Data.List.Forall2

set_option relaxedAutoImplicit false
set_option autoImplicit false

/-!
# The boot information

A Multiboot2 boot loader hands over a block of tags: each has a type, a size, a payload, and is
padded to a multiple of 8 bytes; an end tag of type `0` is the last one. `kernel/multiboot.c`
walks over the tags with a pointer, and has cases for the command line and for the memory map.

What the cases do is a parameter here: `Korolev.TagHandlers` are callbacks on a state of any type.
They cannot write the block, which is a fixed region of memory. The loop has fuel, and `none` is a
walk that has not ended.

## Main definitions

* `Korolev.multibootTag`, `Korolev.multibootLoop`, `Korolev.multibootProcess` — the walk.
* `Korolev.Mb2Tag`, `Korolev.mb2Block` — tags, and the block the boot loader lays out.
* `Korolev.tagAddrs` — where the tags of a block are.

## Main results

* `Korolev.multibootLoop_eq` — the walk visits the tags of a block, in order.
* `Korolev.multibootTag_mmap` — a memory map tag hands its entries to `mmgmt_init`.
* `Korolev.multiboot_walk` — both, for whole blocks.
-/

namespace Korolev

open Bytes

/-! ## The walk -/

def MULTIBOOT_TAG_TYPE_END : LONG := 0

def MULTIBOOT_TAG_TYPE_CMDLINE : LONG := 1

def MULTIBOOT_TAG_TYPE_MMAP : LONG := 6

/-- `tag->type` -/
def tagType (mem : ℕ → BYTE) (tag : LONG) : LONG := le32 mem tag.toNat

/-- `tag->size` -/
def tagSize (mem : ℕ → BYTE) (tag : LONG) : LONG := le32 mem (tag.toNat + 4)

/-- `entries[i]` of a memory map, `entries` being at address `a`. -/
def mmapEntries (mem : ℕ → BYTE) (a : LONG) (i : ℕ) : MmapEntry :=
  ⟨le64 mem (a.toNat + 24 * i), le64 mem (a.toNat + 24 * i + 8),
    le32 mem (a.toNat + 24 * i + 16)⟩

/-- What is done with a tag: `kmemset(buf, 0, 32)` at every tag, the case of the command line,
for the address of the string, and `mmgmt_init` for the entries and their number. -/
structure TagHandlers (σ : Type*) where
  clear : σ → σ
  cmdline : LONG → σ → σ
  mmgmtInit : (ℕ → MmapEntry) → Int32 → σ → σ

section Walk

variable {σ : Type*} (mem : ℕ → BYTE) (h : TagHandlers σ)

/-- The body of the loop of `multiboot_process`. -/
def multibootTag (tag : LONG) (s : σ) : σ :=
  let s := h.clear s
  if tagType mem tag = MULTIBOOT_TAG_TYPE_CMDLINE then h.cmdline (tag + 8) s
  else if tagType mem tag = MULTIBOOT_TAG_TYPE_MMAP then
    h.mmgmtInit (mmapEntries mem (tag + 16)) ((tagSize mem tag - 16) / 24).toInt32 s
  else s

/-- The loop of `multiboot_process`, with `tag` the current tag. -/
def multibootLoop : (fuel : ℕ) → (tag : LONG) → σ → Option σ
  | 0, _, _ => none
  | fuel + 1, tag, s =>
    if tagType mem tag = MULTIBOOT_TAG_TYPE_END then some s
    else multibootLoop fuel (tag + ((tagSize mem tag + 7) &&& ~~~7)) (multibootTag mem h tag s)

/-- `multiboot_process(address)` -/
def multibootProcess (fuel : ℕ) (address : LONG) (s : σ) : Option σ :=
  multibootLoop mem h fuel (address + 8) s

end Walk

/-! ## Blocks of tags -/

/-- A tag of a block: its size is that of the payload and of the two words before it, and the
padding after it may be anything. -/
structure Mb2Tag where
  type : LONG
  payload : List BYTE
  padding : List BYTE
  type_ne : type ≠ MULTIBOOT_TAG_TYPE_END
  padded : padding.length = (8 - (8 + payload.length) % 8) % 8

namespace Mb2Tag

/-- The value of its size field. -/
def size (t : Mb2Tag) : ℕ := 8 + t.payload.length

/-- The bytes of a tag. -/
def bytes (t : Mb2Tag) : List BYTE :=
  word32 t.type ++ (word32 (UInt32.ofNat t.size) ++ (t.payload ++ t.padding))

/-- A tag takes its size, rounded up to a multiple of 8. -/
lemma length_bytes (t : Mb2Tag) : t.bytes.length = (t.size + 7) / 8 * 8 := by
  have hpad := t.padded
  simp only [bytes, List.length_append, length_word32, size]
  omega

end Mb2Tag

/-- The end tag. -/
def mb2End : List BYTE := word32 MULTIBOOT_TAG_TYPE_END ++ word32 8

/-- The block for a list of tags, behind the 8 bytes of its header. -/
def mb2Block (hdr : List BYTE) (tags : List Mb2Tag) : List BYTE :=
  hdr ++ (tags.flatMap Mb2Tag.bytes ++ mb2End)

/-- The addresses of tags that are laid out from address `a` on. -/
def tagAddrs : (a : ℕ) → List Mb2Tag → List LONG
  | _, [] => []
  | a, t :: tags => UInt32.ofNat a :: tagAddrs (a + t.bytes.length) tags

/-! ## Visiting the tags -/

/-- Clearing the three low bits rounds down to a multiple of 8. -/
lemma toNat_and_not_seven (x : LONG) : (x &&& ~~~7).toNat = x.toNat / 8 * 8 := by
  have hx := x.toNat_lt
  have hmask : x.toNat &&& (~~~7 : LONG).toNat = x.toNat / 8 % 2 ^ 29 * 8 := and_field x.toNat 3 29
  rw [UInt32.toNat_and, hmask]
  omega

section Tag

variable {σ : Type*} {mem : ℕ → BYTE} {a : ℕ} {t : Mb2Tag}

/-- The two words of a tag, read back. -/
lemma tag_words (ht : Holds mem a t.bytes) (ha : a < 2 ^ 32) :
    tagType mem (UInt32.ofNat a) = t.type ∧
      tagSize mem (UInt32.ofNat a) = UInt32.ofNat t.size := by
  rw [Mb2Tag.bytes, holds_append, holds_append, length_word32] at ht
  rw [tagType, tagSize, toNat_ofNat_of_lt ha]
  exact ⟨le32_of_holds ht.1, le32_of_holds ht.2.1⟩

/-- The step of the walk: from a tag to what is behind its padding. -/
lemma tag_add_size (ht : Holds mem a t.bytes) (hfits : a + t.bytes.length + 8 ≤ 2 ^ 32) :
    UInt32.ofNat a + ((tagSize mem (UInt32.ofNat a) + 7) &&& ~~~7) =
      UInt32.ofNat (a + t.bytes.length) := by
  have hlen := t.length_bytes
  have hsize := (tag_words ht (by omega)).2
  have hsum : (UInt32.ofNat t.size + 7).toNat = t.size + 7 := by
    have hseven : (7 : LONG).toNat = 7 := rfl
    rw [UInt32.toNat_add, toNat_ofNat_of_lt (by omega), hseven, Nat.mod_eq_of_lt (by omega)]
  rw [← UInt32.toNat_inj, hsize, UInt32.toNat_add, toNat_and_not_seven, hsum, ← hlen,
    toNat_ofNat_of_lt (by omega), toNat_ofNat_of_lt (by omega), Nat.mod_eq_of_lt (by omega)]

/-- The first tag of a layout, and the rest, which has an end tag at least. -/
lemma holds_tags_cons {tags : List Mb2Tag}
    (hmem : Holds mem a ((t :: tags).flatMap Mb2Tag.bytes ++ mb2End))
    (hfits : a + ((t :: tags).flatMap Mb2Tag.bytes ++ mb2End).length ≤ 2 ^ 32) :
    (Holds mem a t.bytes ∧ a + t.bytes.length + 8 ≤ 2 ^ 32) ∧
      Holds mem (a + t.bytes.length) (tags.flatMap Mb2Tag.bytes ++ mb2End) ∧
      a + t.bytes.length + (tags.flatMap Mb2Tag.bytes ++ mb2End).length ≤ 2 ^ 32 := by
  rw [List.flatMap_cons, List.append_assoc] at hmem hfits
  rw [List.length_append] at hfits
  obtain ⟨ht, hrest⟩ := holds_append.mp hmem
  have hend : 8 ≤ (tags.flatMap Mb2Tag.bytes ++ mb2End).length := by
    simp [mb2End]
  exact ⟨⟨ht, by omega⟩, hrest, by omega⟩

/-- **The walk.** Over tags that are laid out from `a` on, the loop ends, having visited the tags
one after the other.

**Proof sketch.** Induction on the list of tags, for every address. The first tag is not an end
tag, and the step leads to the next one; behind the last tag there is an end tag. -/
lemma multibootLoop_eq (h : TagHandlers σ) : ∀ (tags : List Mb2Tag) (a : ℕ),
    Holds mem a (tags.flatMap Mb2Tag.bytes ++ mb2End) →
    a + (tags.flatMap Mb2Tag.bytes ++ mb2End).length ≤ 2 ^ 32 →
    ∀ fuel, tags.length < fuel → ∀ s : σ, multibootLoop mem h fuel (UInt32.ofNat a) s =
      some ((tagAddrs a tags).foldl (fun s tag => multibootTag mem h tag s) s)
  | [], a, hmem, hfits, fuel, hfuel, s => by
    obtain ⟨fuel, rfl⟩ := Nat.exists_eq_add_of_le' hfuel
    have hend : tagType mem (UInt32.ofNat a) = MULTIBOOT_TAG_TYPE_END := by
      simp only [List.flatMap_nil, List.nil_append, mb2End, List.length_append,
        length_word32] at hmem hfits
      rw [tagType, toNat_ofNat_of_lt (by omega)]
      exact le32_of_holds (holds_append.mp hmem).1
    exact if_pos hend
  | t :: tags, a, hmem, hfits, fuel, hfuel, s => by
    obtain ⟨fuel, rfl⟩ := Nat.exists_eq_add_of_le' (Nat.zero_lt_of_lt hfuel)
    obtain ⟨⟨ht, hlast⟩, hrest, hfits'⟩ := holds_tags_cons hmem hfits
    have htype : tagType mem (UInt32.ofNat a) ≠ MULTIBOOT_TAG_TYPE_END := by
      rw [(tag_words ht (by omega)).1]
      exact t.type_ne
    rw [multibootLoop, if_neg htype, tag_add_size ht hlast]
    exact multibootLoop_eq h tags _ hrest hfits' fuel (by simpa using hfuel) _

/-- The tags are where the walk finds them. -/
lemma forall₂_tagAddrs : ∀ (tags : List Mb2Tag) (a : ℕ),
    Holds mem a (tags.flatMap Mb2Tag.bytes ++ mb2End) →
    a + (tags.flatMap Mb2Tag.bytes ++ mb2End).length ≤ 2 ^ 32 →
    List.Forall₂ (fun tag t => Holds mem tag.toNat t.bytes ∧
      tag.toNat + t.bytes.length + 8 ≤ 2 ^ 32) (tagAddrs a tags) tags
  | [], _, _, _ => .nil
  | t :: tags, a, hmem, hfits => by
    obtain ⟨hfirst, hrest, hfits'⟩ := holds_tags_cons hmem hfits
    refine .cons ?_ (forall₂_tagAddrs tags _ hrest hfits')
    rw [toNat_ofNat_of_lt (by omega)]
    exact hfirst

end Tag

/-! ## The memory map -/

/-- The bytes of an entry of a memory map, with its reserved word. -/
def mmapEntryBytes (e : MmapEntry × LONG) : List BYTE :=
  word64 e.1.addr ++ (word64 e.1.len ++ (word32 e.1.type ++ word32 e.2))

@[simp] lemma length_mmapEntryBytes (e : MmapEntry × LONG) : (mmapEntryBytes e).length = 24 := by
  simp [mmapEntryBytes]

/-- The tag is a memory map with these entries, behind two words that are not looked at. -/
def Mb2Tag.IsMmap (t : Mb2Tag) (entries : List (MmapEntry × LONG)) : Prop :=
  t.type = MULTIBOOT_TAG_TYPE_MMAP ∧
    ∃ hdr : List BYTE, hdr.length = 8 ∧ t.payload = hdr ++ entries.flatMap mmapEntryBytes

/-- An entry, read back. -/
lemma mmapEntries_eq {mem : ℕ → BYTE} {a : LONG} {entries : List (MmapEntry × LONG)}
    (h : Holds mem a.toNat (entries.flatMap mmapEntryBytes)) (i : ℕ) (hi : i < entries.length) :
    mmapEntries mem a i = entries[i].1 := by
  have hentry := h.flatMap_get length_mmapEntryBytes i hi
  simp only [mmapEntryBytes, holds_append, length_word64, length_word32] at hentry
  obtain ⟨haddr, hlen, htype, -⟩ := hentry
  rw [mmapEntries, le64_of_holds haddr, le64_of_holds hlen, le32_of_holds htype]

/-- A small unsigned number as an `int`. -/
lemma toInt_toInt32_of_lt {n : LONG} (h : n.toNat < 2 ^ 31) : n.toInt32.toInt = n.toNat := by
  rw [← Int32.toInt_toBitVec, UInt32.toBitVec_toInt32]
  exact BitVec.toInt_eq_toNat_of_lt (by simpa using (show 2 * n.toNat < 2 ^ 32 by omega))

/-- **A memory map tag** hands exactly its entries to `mmgmt_init`. -/
lemma multibootTag_mmap {σ : Type*} {mem : ℕ → BYTE} (h : TagHandlers σ) {tag : LONG} {t : Mb2Tag}
    {entries : List (MmapEntry × LONG)} (ht : Holds mem tag.toNat t.bytes)
    (hfits : tag.toNat + t.bytes.length + 8 ≤ 2 ^ 32) (hmmap : t.IsMmap entries) :
    ∃ (mmap : ℕ → MmapEntry) (n : Int32), n.toInt = entries.length ∧
      (∀ i (hi : i < entries.length), mmap i = entries[i].1) ∧
      ∀ s, multibootTag mem h tag s = h.mmgmtInit mmap n (h.clear s) := by
  obtain ⟨htype, hdr, hhdr, hpayload⟩ := hmmap
  obtain ⟨hword, hsizeWord⟩ := tag_words ht tag.toNat_lt
  rw [UInt32.ofNat_toNat] at hword hsizeWord
  have hsize : t.size = 16 + 24 * entries.length := by
    rw [Mb2Tag.size, hpayload, List.length_append, hhdr,
      length_flatMap_of_forall length_mmapEntryBytes]
    omega
  have hlen := t.length_bytes
  have hcount : ((tagSize mem tag - 16) / 24).toNat = entries.length := by
    have h16 : (16 : LONG).toNat = 16 := rfl
    have h24 : (24 : LONG).toNat = 24 := rfl
    rw [hsizeWord, UInt32.toNat_div, UInt32.toNat_sub, toNat_ofNat_of_lt (by omega), h16, h24]
    omega
  refine ⟨mmapEntries mem (tag + 16), ((tagSize mem tag - 16) / 24).toInt32, ?_, ?_, fun s => ?_⟩
  · rw [toInt_toInt32_of_lt (by omega), hcount]
  · have haddr : (tag + 16).toNat = tag.toNat + 4 + 4 + hdr.length := by
      have h16 : (16 : LONG).toNat = 16 := rfl
      rw [UInt32.toNat_add, h16, hhdr, Nat.mod_eq_of_lt (by omega)]
    simp only [Mb2Tag.bytes, hpayload, holds_append, length_word32] at ht
    refine mmapEntries_eq ?_
    rw [haddr]
    exact ht.2.2.1.2
  · have hcmdline : tagType mem tag ≠ MULTIBOOT_TAG_TYPE_CMDLINE := by
      rw [hword, htype]
      decide
    rw [multibootTag, if_neg hcmdline, if_pos (hword.trans htype)]

/-! ## Whole blocks -/

/-- **The walk over a block of tags.** For every block that the boot loader lays out below 4 GiB,
and for any handlers, `multiboot_process` ends, having visited its tags, each once and in order;
a tag that is visited is found with its type and its size, and if it is a memory map, exactly its
entries are handed to `mmgmt_init`. -/
theorem multiboot_walk {σ : Type*} (h : TagHandlers σ) {mem : ℕ → BYTE} {address : LONG}
    {hdr : List BYTE} {tags : List Mb2Tag} (hhdr : hdr.length = 8)
    (hfits : address.toNat + (mb2Block hdr tags).length ≤ 2 ^ 32)
    (hmem : Holds mem address.toNat (mb2Block hdr tags)) :
    (∀ fuel, tags.length < fuel → ∀ s, multibootProcess mem h fuel address s =
      some ((tagAddrs (address.toNat + 8) tags).foldl (fun s tag => multibootTag mem h tag s) s)) ∧
    List.Forall₂ (fun tag t =>
        Holds mem tag.toNat t.bytes ∧ tagType mem tag = t.type ∧ (tagSize mem tag).toNat = t.size ∧
        ∀ entries, t.IsMmap entries → ∃ (mmap : ℕ → MmapEntry) (n : Int32),
          n.toInt = entries.length ∧ (∀ i (hi : i < entries.length), mmap i = entries[i].1) ∧
          ∀ s, multibootTag mem h tag s = h.mmgmtInit mmap n (h.clear s))
      (tagAddrs (address.toNat + 8) tags) tags := by
  rw [mb2Block, List.length_append, hhdr] at hfits
  rw [mb2Block, holds_append, hhdr] at hmem
  have hstart : address + 8 = UInt32.ofNat (address.toNat + 8) := by
    rw [UInt32.ofNat_add, UInt32.ofNat_toNat]
    rfl
  refine ⟨fun fuel hfuel s => ?_, ?_⟩
  · rw [multibootProcess, hstart]
    exact multibootLoop_eq h tags _ hmem.2 (by omega) fuel hfuel s
  · refine (forall₂_tagAddrs tags _ hmem.2 (by omega)).imp ?_
    rintro tag t ⟨ht, hend⟩
    obtain ⟨hword, hsize⟩ := tag_words ht tag.toNat_lt
    rw [UInt32.ofNat_toNat] at hword hsize
    have hlen := t.length_bytes
    refine ⟨ht, hword, ?_, fun entries hmmap => multibootTag_mmap h ht hend hmmap⟩
    rw [hsize, toNat_ofNat_of_lt]
    have hpos : 0 < t.size := by
      rw [Mb2Tag.size]
      omega
    omega

/-- A memory map tag with one entry. -/
def sampleMmapTag : Mb2Tag where
  type := MULTIBOOT_TAG_TYPE_MMAP
  payload := word32 24 ++ word32 0 ++ [(⟨0x100000, 0x200000, 1⟩, 0)].flatMap mmapEntryBytes
  padding := []
  type_ne := by decide
  padded := by simp

lemma cmdline_ne_end : MULTIBOOT_TAG_TYPE_CMDLINE ≠ MULTIBOOT_TAG_TYPE_END := by decide

/-- A tag of the command line, with padding behind its string. -/
def sampleCmdlineTag : Mb2Tag where
  type := MULTIBOOT_TAG_TYPE_CMDLINE
  payload := [0x73, 0x31, 0]
  padding := [0xFF, 0xFF, 0xFF, 0xFF, 0xFF]
  type_ne := cmdline_ne_end
  padded := by simp

/-- Handlers that write down the strings and the first entry of the memory map. -/
def recordTags : TagHandlers (List LONG × Option MmapEntry) where
  clear s := s
  cmdline str s := (s.1 ++ [str], s.2)
  mmgmtInit mmap n s := (s.1, if n.toInt = 1 then some (mmap 0) else none)

/-- The walk over a block with a command line, which is padded, and a memory map. -/
theorem multiboot_walk_two_tags :
    multibootProcess
      (fun a => ofList (mb2Block (List.replicate 8 0) [sampleCmdlineTag, sampleMmapTag])
        (a - (0x9000 : LONG).toNat))
      recordTags 3 0x9000 ([], none) = some ([0x9010], some ⟨0x100000, 0x200000, 1⟩) := by
  have hlen : (mb2Block (List.replicate 8 0) [sampleCmdlineTag, sampleMmapTag]).length = 72 := by
    simp [mb2Block, Mb2Tag.length_bytes, Mb2Tag.size, sampleCmdlineTag, sampleMmapTag, mb2End]
  have h9000 : (0x9000 : LONG).toNat = 0x9000 := rfl
  have hfits : (0x9000 : LONG).toNat +
      (mb2Block (List.replicate 8 0) [sampleCmdlineTag, sampleMmapTag]).length ≤ 2 ^ 32 := by
    rw [hlen, h9000]
    omega
  obtain ⟨hrun, htags⟩ := multiboot_walk recordTags (List.length_replicate (n := 8) (a := 0)) hfits
    (holds_ofList _ _)
  rw [tagAddrs, tagAddrs, tagAddrs, List.forall₂_cons, List.forall₂_cons] at htags
  obtain ⟨⟨-, hcmdline, -, -⟩, ⟨-, -, -, hmmap⟩, -⟩ := htags
  rw [show sampleCmdlineTag.type = MULTIBOOT_TAG_TYPE_CMDLINE from rfl] at hcmdline
  obtain ⟨mmap, n, hn, hentries, htag⟩ :=
    hmmap [(⟨0x100000, 0x200000, 1⟩, 0)] ⟨rfl, word32 24 ++ word32 0, by simp, rfl⟩
  rw [hrun 3 (by simp), tagAddrs, tagAddrs, tagAddrs, List.foldl_cons, List.foldl_cons,
    List.foldl_nil, htag, multibootTag, if_pos hcmdline]
  have hfirst : mmap 0 = ⟨0x100000, 0x200000, 1⟩ := hentries 0 (by simp)
  have hone : n.toInt = 1 := hn
  simp only [recordTags, hone, if_true, hfirst, List.nil_append]
  rfl

end Korolev
