import Korolev.Fs.Volume
import Korolev.Library.Run
import Korolev.Tools.KssfsFuse

set_option relaxedAutoImplicit false
set_option autoImplicit false

/-!
# The mounted image as a volume

The file system of `tools/kssfs_fuse.c`, all operations taken together, should be a volume
(`Korolev.Volume`): an image represents a volume, every operation replies what the volume says, and
the image it leaves represents the volume after the operation.

Two operations fall short of it. `kssfs_unlink` looks for the path with its slash, and
`kssfs_rename` changes the name in the buffer without writing it back. They leave an image that
represents a volume, but in general not the right one; the others are right without exception.

The replies of attribute queries rest on more than the query looks at: it takes the first cluster
with the name, free or not, which is right because the name of a free cluster is empty.

## Main definitions

* `Korolev.Fuse.Path` — a path below the root.
* `Korolev.Fuse.SlotAt`, `Korolev.Fuse.Represents` — a cluster holds a slot, an image a volume.
* `Korolev.Fuse.VolumeOp`, `Korolev.Fuse.Reply` — the operations, and what they reply.
* `Korolev.Fuse.Mount.volumeStep`, `Korolev.Fuse.Mount.reply` — one operation on the image.
* `Korolev.Volume.step`, `Korolev.Volume.reply` — one operation on the volume.
* `Korolev.Fuse.VolumeOp.Served` — the operations that do to the image what they should.

## Main results

* `Korolev.Fuse.Mounts.scan` — the loop over the clusters is a search of the slots.
* `Korolev.Fuse.Mounts.step_iff` — which operations keep image and volume in step.
* `Korolev.Fuse.Mounts.run_iff` — which runs do.
* `Korolev.Fuse.Mounts.exists_run` — after every run the image represents some volume.
-/

namespace Korolev.Fuse

open Bytes CStr

/-! ## Paths -/

/-- A path below the root: the memory it stands in, and the name behind the slash. -/
structure Path where
  mem : ℕ → BYTE
  name : FileName
  name_ne : name.bytes ≠ []
  isString : IsString mem (47 :: name.bytes)

namespace Path

variable (p : Path)

/-- `path + 1` is the name. -/
lemma isString_tail : IsString (tail p.mem) p.name.bytes := by
  obtain ⟨hcell, hnul, hend⟩ := p.isString
  refine ⟨fun k hk => ?_, p.name.nul, hend⟩
  exact hcell (k + 1) (by simpa using hk)

/-- It is not the root. -/
lemma isRoot_eq : isRoot p.mem = false := by
  have h1 : p.mem 1 ≠ 0 := by
    refine p.isString.ne_zero (k := 1) ?_
    have := List.length_pos_of_ne_nil p.name_ne
    simp only [List.length_cons]
    omega
  simp [isRoot, h1]

end Path

/-- The bytes of a string that is shorter than the bound, zero-filled, and the bytes of a name that
is stored so: they are equal as strings iff the texts are equal. -/
lemma eqUpTo_iff_eq {p q : ℕ → BYTE} {str name : List BYTE} (hp : IsString p str)
    (hlen : str.length ≤ 256) (hname : name.length ≤ 255) (hnul : 0 ∉ name)
    (hq : ∀ k < 256, q k = ofList name k) : EqUpTo 256 p q ↔ name = str := by
  have hend : q name.length = 0 := by
    rw [hq _ (by omega), ofList, List.getD_eq_default _ _ le_rfl]
  have hcell : ∀ k (hk : k < name.length), q k = name[k] := by
    intro k hk
    rw [hq k (by omega), ofList, List.getD_eq_getElem _ _ hk]
  have hqs : IsString q name := ⟨hcell, hnul, hend⟩
  constructor
  · intro h
    have hps : IsString p name := by
      have hsymm := h.symm
      have hbytes : ∀ k ≤ name.length, p k = q k := fun k hk =>
        (hsymm k (by omega) fun j hj => hqs.ne_zero (by omega)).symm
      refine ⟨fun k hk => ?_, hnul, ?_⟩
      · rw [hbytes k hk.le, hcell k hk]
      · rw [hbytes _ le_rfl, hend]
    exact hps.unique hp
  · rintro rfl
    refine .of_terminator (k := name.length) (fun j hj => ?_) hp.terminator
    obtain hlt | rfl : j < name.length ∨ j = name.length := by omega
    · rw [hp.cell j hlt, hcell j hlt]
    · rw [hp.terminator, hend]

/-! ## What an image represents -/

/-- A cluster holds a slot: it has the type of a free cluster iff the slot is free, and the fields
and the data of the slot. -/
structure SlotAt (m : ℕ → BYTE) (t : Slot) : Prop where
  type_iff : kssfsType m = KSSFS_CLSTR_FREE ↔ t.Free
  name : ∀ k < 256, kssfsFilename m k = ofList t.name.bytes k
  len : (kssfsLen m).toNat = t.len
  uid : kssfsUid m = t.uid
  gid : kssfsGid m = t.gid
  data : ∀ k < 7680, m (512 + k) = t.data k

/-- What a cluster holds depends on its bytes. -/
lemma SlotAt.congr {m m' : ℕ → BYTE} {t : Slot} (h : SlotAt m t) (heq : ∀ a < 8192, m' a = m a) :
    SlotAt m' t := by
  obtain ⟨htype, hname, hlen, huid, hgid, hdata⟩ := h
  refine ⟨?_, fun k hk => ?_, ?_, ?_, ?_, fun k hk => ?_⟩
  · rwa [kssfsType_congr heq]
  · rw [← hname k hk]
    exact heq (6 + k) (by omega)
  · rw [← hlen]
    exact congrArg _ (le16_congr fun k hk => heq (4 + k) (by omega))
  · rw [← huid]
    exact le32_congr fun k hk => heq (262 + k) (by omega)
  · rw [← hgid]
    exact le32_congr fun k hk => heq (266 + k) (by omega)
  · rw [heq _ (by omega), hdata k hk]

/-- A cluster of zeros holds a blank slot. -/
lemma blank_slotAt : SlotAt (fun _ => 0) .blank :=
  ⟨by decide, fun k _ => rfl, rfl, rfl, rfl, fun k _ => rfl⟩

/-- An image represents a volume: it starts with the header of a file system with the number of
slots, its clusters are there and hold the slots, and their offsets fit in 32 bits. -/
structure Represents (f : Host.File) (v : Volume) : Prop where
  signature : le32 f.byte 0 = KSSFS_SIGNATURE
  count : (le32 f.byte 4).toNat = v.length
  length_le : v.length ≤ 2 ^ 19
  size : 512 + 8192 * v.length ≤ f.size
  slot : ∀ i (hi : i < v.length), SlotAt (cluster f i) v[i]

/-- The image is mounted and represents the volume. -/
structure Mounts (s : Mount) (v : Volume) : Prop where
  represents : Represents s.stream.file v
  clusterN_eq : s.clusterN.toNat = v.length

/-- What is mounted depends on the image. -/
lemma Mounts.of_same {s s' : Mount} {v : Volume} (h : Mounts s v) (hsame : SameImage s s') :
    Mounts s' v := by
  refine ⟨?_, ?_⟩
  · rw [hsame.file_eq]
    exact h.represents
  · rw [hsame.clusterN_eq]
    exact h.clusterN_eq

lemma Mounts.complete {s : Mount} {v : Volume} (h : Mounts s v) : Complete s := by
  refine ⟨?_, ?_⟩
  · rw [h.clusterN_eq]
    exact h.represents.length_le
  · rw [h.clusterN_eq]
    exact h.represents.size

/-- Mounting an image that represents a volume. -/
lemma kssfsCheckdisk_mounts {s : Mount} {v : Volume} (h : Represents s.stream.file v) :
    (kssfsCheckdisk s).1 = 0 ∧ Mounts (kssfsCheckdisk s).2 v := by
  have hload : ∀ o ≤ 508, le32 (Host.fread (Host.fseek s.stream 0) s.buf 512).2 o =
      le32 s.stream.file.byte o := by
    intro o ho
    refine le32_congr fun k hk => ?_
    have hsize := h.size
    simp only [Host.fread, Host.fseek]
    rw [blit_of_mem (by omega) (by omega), Nat.zero_add, Nat.sub_zero]
  have hsig := (hload 0 (by omega)).trans h.signature
  have hcount := hload 4 (by omega)
  rw [kssfsCheckdisk]
  dsimp only
  rw [if_neg (not_not.mpr hsig)]
  refine ⟨rfl, h, ?_⟩
  show (le32 (Host.fread (Host.fseek s.stream 0) s.buf 512).2 4).toNat = _
  rw [hcount, h.count]

/-! ## Lookups -/

section Scan

variable {s : Mount} {v : Volume}

/-- **The loop over the clusters is a search of the slots**, for a test of clusters that is a test
of slots. What is found is in the buffer. -/
lemma Mounts.scan (h : Mounts s v) {p : (ℕ → BYTE) → Bool} (hp : OfCluster p) {q : Slot → Bool}
    (hpq : ∀ m t, SlotAt m t → p m = q t) :
    ∃ s', scan p s.clusterN.toNat 0 s = ((v.findIdx? q).map UInt32.ofNat, s') ∧
      SameImage s s' ∧ ∀ j, v.findIdx? q = some j →
        ∀ a < 8192, s'.buf a = cluster s.stream.file j a := by
  have hslot : ∀ c (hc : c < v.length), p (cluster s.stream.file c) = q v[c] := fun c hc =>
    hpq _ _ (h.represents.slot c hc)
  obtain ⟨s', heq, hsame, hall⟩ | ⟨j, s', heq, hsame, hj, hpj, hbefore, hbuf⟩ :=
    scan_cases hp h.complete
  · have hnone : v.findIdx? q = none := by
      rw [List.findIdx?_eq_none_iff]
      intro t ht
      obtain ⟨c, hc, rfl⟩ := List.mem_iff_getElem.mp ht
      rw [← hslot c hc]
      exact hall c (by rw [h.clusterN_eq]; exact hc)
    refine ⟨s', ?_, hsame, fun j hj => ?_⟩
    · rw [heq, hnone]
      rfl
    · rw [hnone] at hj
      exact absurd hj (by simp)
  · rw [h.clusterN_eq] at hj
    have hfirst : v.findIdx? q = some j := by
      rw [List.findIdx?_eq_some_iff_getElem]
      refine ⟨hj, ?_, fun c hc => ?_⟩
      · rw [← hslot j hj, hpj]
      · rw [← hslot c (by omega), hbefore c hc]
        exact Bool.false_ne_true
    refine ⟨s', ?_, hsame, fun i hi => ?_⟩
    · rw [heq, hfirst]
      rfl
    · rw [hfirst] at hi
      obtain rfl := Option.some.inj hi
      exact hbuf

end Scan

/-- The name of a cluster, compared with a string: it is that of the slot. -/
lemma SlotAt.nameIs_eq {m : ℕ → BYTE} {t : Slot} (h : SlotAt m t) {p : ℕ → BYTE} {str : List BYTE}
    (hp : IsString p str) (hlen : str.length ≤ 256) :
    nameIs p m = decide (t.name.bytes = str) := by
  rw [Bool.eq_iff_iff, nameIs_iff, decide_eq_true_iff]
  exact eqUpTo_iff_eq hp hlen t.name.length_le t.name.nul h.name

/-- For a name that is not empty, it does not matter whether the type is looked at. -/
lemma SlotAt.inUseAs_eq {m : ℕ → BYTE} {t : Slot} (h : SlotAt m t) {p : ℕ → BYTE} {str : List BYTE}
    (hp : IsString p str) (hlen : str.length ≤ 256) (hne : str ≠ []) :
    inUseAs p m = decide (t.name.bytes = str) := by
  rw [inUseAs, h.nameIs_eq hp hlen, Bool.eq_iff_iff, Bool.and_eq_true, decide_eq_true_iff,
    decide_eq_true_iff]
  refine ⟨fun hboth => hboth.2, fun hname => ⟨fun hfree => hne ?_, hname⟩⟩
  rw [← hname]
  exact h.type_iff.mp hfree

/-- A cluster is free iff its slot is. -/
lemma SlotAt.free_eq {m : ℕ → BYTE} {t : Slot} (h : SlotAt m t) :
    decide (kssfsType m = KSSFS_CLSTR_FREE) = decide (t.name.bytes = []) :=
  decide_eq_decide.mpr h.type_iff

/-! ## Operations -/

/-- `kssfs_fgetattr(path, stbuf, fi)` -/
def kssfsFgetattr (e : Env) (s : Mount) (path : ℕ → BYTE) : ℤ × Stat × Mount :=
  kssfsGetattr e s path

/-- `kssfs_truncate(path, offset)` -/
def kssfsTruncate (s : Mount) : ℤ × Mount := (0, s)

/-- `kssfs_release(path, fi)`. What was written is in the image already. -/
def kssfsRelease (s : Mount) : ℤ × Mount := (0, s)

/-- The operations of `kssfs_oper`, on the root and on paths below it. -/
inductive VolumeOp where
  | getroot (e : Env)
  | getattr (e : Env) (p : Path)
  | fgetattr (e : Env) (p : Path)
  | readdir
  | openFile (p : Path) (fh : QWORD)
  | create (p : Path) (fh : QWORD)
  | read (fh : QWORD) (dest : ℕ → BYTE) (size offset : QWORD)
  | write (fh : QWORD) (fbuf : ℕ → BYTE) (size offset : QWORD)
  | unlink (p : Path)
  | rename (p p' : Path)
  | truncate
  | release

/-- Transfers are for the handle of one of `n` slots, and inside of it. -/
def VolumeOp.Valid (n : ℕ) : VolumeOp → Prop
  | .read fh _ size offset => fh.toNat < n ∧ offset.toNat + size.toNat ≤ 7680
  | .write fh _ size offset => fh.toNat < n ∧ offset.toNat + size.toNat ≤ 7680
  | _ => True

/-- What an operation gives back: its result, with the attributes, the names listed, the handle or
the memory that was read to. -/
inductive Reply where
  | stat (res : ℤ) (stbuf : Stat)
  | names (res : ℤ) (list : List (List BYTE))
  | handle (res : ℤ) (fh : QWORD)
  | bytes (res : ℤ) (dest : ℕ → BYTE)
  | result (res : ℤ)

/-- `"/"` -/
def rootPath : ℕ → BYTE := ofList [47]

/-- The string at the name of the cluster in the buffer, as it is given out: at most the 8186 bytes
to the end of the buffer. -/
def nameText (p : ℕ → BYTE) : List BYTE := toList p 0 (CStr.strnlen p 8186)

/-- The mounted image after an operation. -/
def Mount.volumeStep (s : Mount) : VolumeOp → Mount
  | .getroot e => (kssfsGetattr e s rootPath).2.2
  | .getattr e p => (kssfsGetattr e s p.mem).2.2
  | .fgetattr e p => (kssfsFgetattr e s p.mem).2.2
  | .readdir => (kssfsReaddir s rootPath).2.2
  | .openFile p fh => (kssfsOpen s p.mem fh).2.2
  | .create p fh => (kssfsCreate s p.mem fh).2.2
  | .read fh dest size offset => (kssfsRead s fh dest size offset).2.2
  | .write fh fbuf size offset => (kssfsWrite s fh fbuf size offset).2
  | .unlink p => (kssfsUnlink s p.mem).2
  | .rename p p' => (kssfsRename s p.mem p'.mem).2
  | .truncate => (kssfsTruncate s).2
  | .release => (kssfsRelease s).2

/-- What the mounted image replies to an operation. -/
def Mount.reply (s : Mount) : VolumeOp → Reply
  | .getroot e => .stat (kssfsGetattr e s rootPath).1 (kssfsGetattr e s rootPath).2.1
  | .getattr e p => .stat (kssfsGetattr e s p.mem).1 (kssfsGetattr e s p.mem).2.1
  | .fgetattr e p => .stat (kssfsFgetattr e s p.mem).1 (kssfsFgetattr e s p.mem).2.1
  | .readdir => .names (kssfsReaddir s rootPath).1 ((kssfsReaddir s rootPath).2.1.map nameText)
  | .openFile p fh => .handle (kssfsOpen s p.mem fh).1 (kssfsOpen s p.mem fh).2.1
  | .create p fh => .handle (kssfsCreate s p.mem fh).1 (kssfsCreate s p.mem fh).2.1
  | .read fh dest size offset =>
    .bytes (kssfsRead s fh dest size offset).1 (kssfsRead s fh dest size offset).2.1
  | .write fh fbuf size offset => .result (kssfsWrite s fh fbuf size offset).1
  | .unlink p => .result (kssfsUnlink s p.mem).1
  | .rename p p' => .result (kssfsRename s p.mem p'.mem).1
  | .truncate => .result (kssfsTruncate s).1
  | .release => .result (kssfsRelease s).1

end Korolev.Fuse

namespace Korolev.Volume

open Fuse Bytes

/-- Slot `i`; behind the last one there is nothing. -/
def slot (v : Volume) (i : ℕ) : Slot := v.getD i .blank

/-- The attributes of the file in a slot. -/
def fileStat (e : Env) (t : Slot) : Stat :=
  ⟨0o100755, t.uid, t.gid, 0, t.len, e.now, e.now, e.now⟩

/-- What the volume replies to an attribute query. -/
def statReply (v : Volume) (e : Env) (name : List BYTE) : Reply :=
  match v.lookup name with
  | some i => .stat 0 (fileStat e (v.slot i))
  | none => .stat (-ENOENT.toNat) ⟨0, 0, 0, 0, 0, 0, 0, 0⟩

/-- What the volume replies when a file is created. -/
def createReply (v : Volume) (name : FileName) (fh : QWORD) : Reply :=
  match v.create name with
  | some (i, _) => .handle 0 (UInt64.ofNat i)
  | none => .handle (-ENOSPC.toNat) fh

/-- The volume after a file was created, if there was a free slot. -/
def createD (v : Volume) (name : FileName) : Volume := (v.create name).elim v Prod.snd

/-- The volume after an operation. Opening a file that is not there creates it. -/
def step (v : Volume) : VolumeOp → Volume
  | .openFile p _ => if (v.lookup p.name.bytes).isSome then v else v.createD p.name
  | .create p _ => v.createD p.name
  | .write fh fbuf size offset => v.write fh.toNat offset.toNat size.toNat fbuf
  | .unlink p => (v.remove p.name.bytes).getD v
  | .rename p p' => (v.rename p.name.bytes p'.name).getD v
  | _ => v

/-- What the volume replies to an operation. -/
def reply (v : Volume) : VolumeOp → Reply
  | .getroot e => .stat 0 ⟨0o40755, e.uid, e.gid, 2, 0, 0, 0, 0⟩
  | .getattr e p => v.statReply e p.name.bytes
  | .fgetattr e p => v.statReply e p.name.bytes
  | .readdir => .names 0 ([46] :: [46, 46] :: v.names)
  | .openFile p fh =>
    match v.lookup p.name.bytes with
    | some i => .handle 0 (UInt64.ofNat i)
    | none => v.createReply p.name fh
  | .create p fh => v.createReply p.name fh
  | .read fh dest size offset =>
    .bytes size.toNat (blit dest 0 size.toNat fun k => (v.slot fh.toNat).data (offset.toNat + k))
  | .write _ _ size _ => .result size.toNat
  | .unlink p => .result (if (v.lookup p.name.bytes).isSome then 0 else -ENOENT.toNat)
  | .rename p _ => .result (if (v.lookup p.name.bytes).isSome then 0 else -ENOENT.toNat)
  | .truncate => .result 0
  | .release => .result 0

/-- Removing a file keeps the number of slots. -/
lemma length_remove (v : Volume) (name : List BYTE) :
    ((v.remove name).getD v).length = v.length := by
  rw [remove]
  cases v.lookup name with
  | none => rfl
  | some i => exact List.length_modify ..

/-- A volume keeps its number of slots. -/
lemma length_step (v : Volume) (op : VolumeOp) : (v.step op).length = v.length := by
  have hcreate : ∀ name, (v.createD name).length = v.length := by
    intro name
    unfold createD create
    cases v.lookup [] with
    | none => rfl
    | some i => exact List.length_modify ..
  cases op with
  | openFile p fh =>
    rw [step]
    split_ifs
    · rfl
    · exact hcreate p.name
  | create p fh => exact hcreate p.name
  | write fh fbuf size offset => exact List.length_modify ..
  | unlink p => exact length_remove v p.name.bytes
  | rename p p' =>
    rw [step, rename]
    cases v.lookup p.name.bytes with
    | none => rfl
    | some i => exact List.length_modify ..
  | _ => rfl

lemma slot_of_lt {v : Volume} {i : ℕ} (hi : i < v.length) : v.slot i = v[i] :=
  List.getD_eq_getElem _ _ hi

end Korolev.Volume

namespace Korolev.Fuse

open Bytes CStr

/-! ## One operation -/

section Step

variable {s : Mount} {v : Volume}

/-- An attribute query. -/
lemma Mounts.getattr (h : Mounts s v) (e : Env) (p : Path) :
    Reply.stat (kssfsGetattr e s p.mem).1 (kssfsGetattr e s p.mem).2.1 =
      v.statReply e p.name.bytes ∧ SameImage s (kssfsGetattr e s p.mem).2.2 := by
  obtain ⟨s', heq, hsame, hbuf⟩ := h.scan (nameIs_ofCluster (tail p.mem)) fun m t hm =>
    hm.nameIs_eq p.isString_tail (by have := p.name.length_le; omega)
  unfold kssfsGetattr Volume.statReply
  dsimp only
  rw [p.isRoot_eq, if_neg Bool.false_ne_true, heq, Volume.lookup]
  cases hfind : v.findIdx? fun t => decide (t.name.bytes = p.name.bytes) with
  | none => exact ⟨rfl, hsame⟩
  | some j =>
    have hj : j < v.length := Volume.lookup_lt hfind
    have hslot : SlotAt s'.buf v[j] := (h.represents.slot j hj).congr (hbuf j hfind)
    refine ⟨?_, hsame⟩
    simp only [Option.map_some, Volume.fileStat, Volume.slot_of_lt hj, hslot.uid, hslot.gid,
      hslot.len]

/-- The string at the name of a cluster. -/
lemma SlotAt.nameText_eq {m : ℕ → BYTE} {t : Slot} (h : SlotAt m t) :
    nameText (kssfsFilename m) = t.name.bytes := by
  have hlen := t.name.length_le
  have hstring : IsString (kssfsFilename m) t.name.bytes := by
    refine ⟨fun k hk => ?_, t.name.nul, ?_⟩
    · rw [h.name k (by omega), ofList, List.getD_eq_getElem _ _ hk]
    · rw [h.name _ (by omega), ofList, List.getD_eq_default _ _ le_rfl]
  rw [nameText, hstring.strnlen_eq, Nat.min_eq_right (by omega)]
  refine List.ext_getElem (length_toList _ _ _) fun k hk hk' => ?_
  rw [← hstring.cell k hk']
  simp only [toList, List.getElem_map, List.getElem_range, Nat.zero_add]

/-- The loop of `kssfs_readdir` from slot `i` on, for the induction in `Mounts.readdir`. -/
lemma readdirLoop_names (n : ℕ) : ∀ (i : ℕ) (s : Mount), Mounts s v → i + n = v.length →
    (readdirLoop n (UInt32.ofNat i) s).1.map nameText = Volume.names (v.drop i) := by
  induction n with
  | zero =>
    intro i s _ hin
    have hnil : v.drop i = [] := List.drop_eq_nil_of_le (by omega)
    rw [hnil]
    rfl
  | succ n ih =>
    intro i s h hin
    have hi : i < v.length := by omega
    have hval : (UInt32.ofNat i).toNat = i :=
      toNat_ofNat_of_lt (by have := h.represents.length_le; omega)
    have hwrap : (UInt32.ofNat i).toNat % 2 ^ 19 = i := by
      have := h.represents.length_le
      rw [hval, Nat.mod_eq_of_lt (by omega)]
    have hslot : SlotAt (kssfsReadCluster s (UInt32.ofNat i)).buf v[i] := by
      refine (h.represents.slot i hi).congr fun a ha => ?_
      rw [kssfsReadCluster_buf h.complete (by rw [hwrap, h.clusterN_eq]; exact hi) ha, hwrap]
    have htype : kssfsType (kssfsReadCluster s (UInt32.ofNat i)).buf = 0 ↔ v[i].Free :=
      hslot.type_iff
    have hrest := ih (i + 1) _ (h.of_same (kssfsReadCluster_same s (UInt32.ofNat i))) (by omega)
    rw [readdirLoop, ofNat_add_one, List.drop_eq_getElem_cons hi, Volume.names, List.filter_cons]
    by_cases hfree : v[i].Free
    · rw [if_neg (not_not.mpr (htype.mpr hfree)), if_neg (by simpa using hfree)]
      exact hrest
    · rw [if_pos (mt htype.mp hfree), if_pos (by simpa using hfree), List.map_cons,
        List.map_cons, hslot.nameText_eq, hrest]
      rfl

/-- Listing the root directory. -/
lemma Mounts.readdir (h : Mounts s v) : s.reply .readdir = v.reply .readdir := by
  have hloop := readdirLoop_names s.clusterN.toNat 0 s h (by rw [h.clusterN_eq, Nat.zero_add])
  have hroot : isRoot rootPath = true := rfl
  rw [Mount.reply, kssfsReaddir, hroot]
  show Reply.names 0 ([46] :: [46, 46] ::
    (readdirLoop s.clusterN.toNat (UInt32.ofNat 0) s).1.map nameText) = _
  rw [hloop]
  rfl

/-- **Writing a cluster changes one slot**: the image represents the volume in which that slot is
what the buffer holds. -/
lemma Mounts.writeCluster (h : Mounts s v) {j : ℕ} (hj : j < v.length) {i : LONG}
    (hi : i.toNat % 2 ^ 19 = j) {buf : ℕ → BYTE} {g : Slot → Slot} (hbuf : SlotAt buf (g v[j])) :
    Mounts (kssfsWriteCluster { s with buf := buf } i buf) (v.modify j g) := by
  have hcomplete := h.complete.withBuf buf
  have hhdr : ∀ a < 512, (kssfsWriteCluster { s with buf := buf } i buf).stream.file.byte a =
      s.stream.file.byte a := by
    intro a ha
    have hsize := h.complete.size
    simp only [kssfsWriteCluster, Host.fwrite, Host.fseek]
    rw [Host.File.write_byte (by omega), offset_toNat, if_neg (by omega)]
  have hword : ∀ o ≤ 508, le32 (kssfsWriteCluster { s with buf := buf } i buf).stream.file.byte o =
      le32 s.stream.file.byte o := fun o ho => le32_congr fun k hk => hhdr _ (by omega)
  obtain ⟨hsig, hcount, hle, hsize, hslot⟩ := h.represents
  refine ⟨⟨?_, ?_, ?_, ?_, fun c hc => ?_⟩, ?_⟩
  · rw [hword 0 (by omega), hsig]
  · rw [hword 4 (by omega), hcount, List.length_modify]
  · rwa [List.length_modify]
  · rw [List.length_modify]
    exact hsize.trans (le_max_left _ _)
  · rw [List.length_modify] at hc
    have hwritten : ∀ a < 8192,
        cluster (kssfsWriteCluster { s with buf := buf } i buf).stream.file c a =
          if c = j then buf a else cluster s.stream.file c a := by
      intro a ha
      rw [kssfsWriteCluster_cluster hcomplete _ _ (by rw [h.clusterN_eq]; exact hc) ha, hi]
    rw [List.getElem_modify]
    by_cases hcj : j = c
    · subst hcj
      rw [if_pos rfl]
      exact hbuf.congr fun a ha => by rw [hwritten a ha, if_pos rfl]
    · rw [if_neg hcj]
      exact (hslot c hc).congr fun a ha => by rw [hwritten a ha, if_neg (Ne.symm hcj)]
  · rw [List.length_modify]
    exact h.clusterN_eq

/-- The number of a slot, stored in 32 bits. -/
lemma Mounts.toNat_ofNat (h : Mounts s v) {j : ℕ} (hj : j < v.length) :
    (UInt32.ofNat j).toNat = j ∧ (UInt32.ofNat j).toNat % 2 ^ 19 = j := by
  have hle := h.represents.length_le
  have hval : (UInt32.ofNat j).toNat = j := toNat_ofNat_of_lt (by omega)
  exact ⟨hval, by rw [hval, Nat.mod_eq_of_lt (by omega)]⟩

/-- The number of a slot as a handle. -/
lemma Mounts.toUInt64_ofNat (h : Mounts s v) {j : ℕ} (hj : j < v.length) :
    (UInt32.ofNat j).toUInt64 = UInt64.ofNat j := by
  have hle := h.represents.length_le
  rw [← UInt64.toNat_inj, UInt32.toNat_toUInt64, (h.toNat_ofNat hj).1, UInt64.toNat_ofNat',
    Nat.mod_eq_of_lt (by omega)]

/-- What `strncpy` stores of a path is its name, zero-filled. -/
lemma Path.cut_tail (p : Path) (k : ℕ) : Host.cut (tail p.mem) k = ofList p.name.bytes k := by
  rcases Nat.lt_or_ge k p.name.bytes.length with hlt | hge
  · have hbefore : ∀ j < k, tail p.mem j ≠ 0 := fun j hj => p.isString_tail.ne_zero (by omega)
    rw [Host.cut, if_pos hbefore, p.isString_tail.cell k hlt, ofList, List.getD_eq_getElem _ _ hlt]
  · have hend : Host.cut (tail p.mem) p.name.bytes.length = 0 := by
      rw [Host.cut, p.isString_tail.terminator, ite_self]
    rw [Host.padded_cut (k + 1) (tail p.mem) _ k hge (by omega) hend, ofList,
      List.getD_eq_default _ _ hge]

/-- A cluster after a file was created in it holds the slot with the name. -/
lemma SlotAt.createIn {m : ℕ → BYTE} {t : Slot} (h : SlotAt m t) (p : Path) :
    SlotAt (Host.strncpy (blit m 0 4 (bytes32 KSSFS_CLSTR_COM)) 6 (tail p.mem) 256)
      (t.named p.name) := by
  have hkeep : ∀ a, 4 ≤ a → a < 6 ∨ 262 ≤ a →
      Host.strncpy (blit m 0 4 (bytes32 KSSFS_CLSTR_COM)) 6 (tail p.mem) 256 a = m a := by
    intro a ha hout
    rw [Host.strncpy, blit_of_not_mem (by omega), blit_of_not_mem (by omega)]
  refine ⟨?_, fun k hk => ?_, ?_, ?_, ?_, fun k hk => ?_⟩
  · rw [kssfsType, Host.strncpy, le32_blit_of_disjoint (by omega), le32_blit_bytes32]
    exact iff_of_false (by decide) p.name_ne
  · rw [kssfsFilename, Host.strncpy, blit_add hk, p.cut_tail]
    rfl
  · refine Eq.trans ?_ h.len
    exact congrArg _ (le16_congr fun k hk => hkeep (4 + k) (by omega) (by omega))
  · refine Eq.trans ?_ h.uid
    exact le32_congr fun k hk => hkeep (262 + k) (by omega) (by omega)
  · refine Eq.trans ?_ h.gid
    exact le32_congr fun k hk => hkeep (266 + k) (by omega) (by omega)
  · rw [hkeep _ (by omega) (by omega), h.data k hk]
    rfl

/-- Creating a file. -/
lemma Mounts.create (h : Mounts s v) (p : Path) (fh : QWORD) :
    Reply.handle (kssfsCreate s p.mem fh).1 (kssfsCreate s p.mem fh).2.1 =
      v.createReply p.name fh ∧ Mounts (kssfsCreate s p.mem fh).2.2 (v.createD p.name) := by
  have hfree : OfCluster fun m => decide (kssfsType m = KSSFS_CLSTR_FREE) := by
    intro m m' hm
    simp only [kssfsType_congr hm]
  obtain ⟨s', heq, hsame, hbuf⟩ := h.scan hfree fun m t hm => hm.free_eq
  have hs' : Mounts s' v := h.of_same hsame
  unfold kssfsCreate Volume.createReply Volume.createD Volume.create Volume.lookup
  rw [heq]
  cases hfind : v.findIdx? fun t => decide (t.name.bytes = []) with
  | none => exact ⟨rfl, hs'⟩
  | some j =>
    have hj : j < v.length := Volume.lookup_lt hfind
    have hnew : SlotAt (Host.strncpy (blit s'.buf 0 4 (bytes32 KSSFS_CLSTR_COM)) 6
        (tail p.mem) 256) (v[j].named p.name) :=
      ((h.represents.slot j hj).congr (hbuf j hfind)).createIn p
    exact ⟨congrArg (Reply.handle 0) (h.toUInt64_ofNat hj),
      hs'.writeCluster hj (h.toNat_ofNat hj).2 (g := fun t => t.named p.name) hnew⟩

/-- Opening a file. -/
lemma Mounts.openFile (h : Mounts s v) (p : Path) (fh : QWORD) :
    s.reply (.openFile p fh) = v.reply (.openFile p fh) ∧
    Mounts (kssfsOpen s p.mem fh).2.2 (v.step (.openFile p fh)) := by
  obtain ⟨s', heq, hsame, -⟩ := h.scan (inUseAs_ofCluster (tail p.mem)) fun m t hm =>
    hm.inUseAs_eq p.isString_tail (by have := p.name.length_le; omega) p.name_ne
  have hs' : Mounts s' v := h.of_same hsame
  unfold Mount.reply Volume.reply Volume.step kssfsOpen Volume.lookup
  dsimp only
  rw [heq]
  cases hfind : v.findIdx? fun t => decide (t.name.bytes = p.name.bytes) with
  | none => exact hs'.create p fh
  | some j => exact ⟨congrArg (Reply.handle 0) (h.toUInt64_ofNat (Volume.lookup_lt hfind)), hs'⟩

/-- Unlinking a path removes the file whose name is the path, with the slash. -/
lemma Mounts.unlink (h : Mounts s v) (p : Path) :
    (kssfsUnlink s p.mem).1 =
      (if (v.lookup (47 :: p.name.bytes)).isSome then 0 else (-ENOENT.toNat : ℤ)) ∧
    Mounts (kssfsUnlink s p.mem).2 ((v.remove (47 :: p.name.bytes)).getD v) := by
  have hlen : (47 :: p.name.bytes).length ≤ 256 := Nat.succ_le_succ p.name.length_le
  obtain ⟨s', heq, hsame, -⟩ := h.scan (inUseAs_ofCluster p.mem) fun m t hm =>
    hm.inUseAs_eq p.isString hlen (by simp)
  have hs' : Mounts s' v := h.of_same hsame
  have hblank : SlotAt (blit s'.buf 0 8192 fun _ => 0) .blank :=
    blank_slotAt.congr fun a ha => blit_of_mem (Nat.zero_le a) (by omega)
  have hscan : Fuse.scan (fun buf => decide (kssfsType buf ≠ KSSFS_CLSTR_FREE) && nameIs p.mem buf)
      s.clusterN.toNat 0 s = _ := heq
  unfold Volume.remove kssfsUnlink Volume.lookup
  dsimp only
  rw [hscan]
  cases hfind : v.findIdx? fun t => decide (t.name.bytes = 47 :: p.name.bytes) with
  | none => exact ⟨rfl, hs'⟩
  | some j =>
    have hj : j < v.length := Volume.lookup_lt hfind
    exact ⟨rfl, hs'.writeCluster hj (h.toNat_ofNat hj).2 (g := fun _ => .blank) hblank⟩

/-- Renaming a file: it is only looked for. -/
lemma Mounts.rename (h : Mounts s v) (p p' : Path) :
    (kssfsRename s p.mem p'.mem).1 =
      (if (v.lookup p.name.bytes).isSome then 0 else (-ENOENT.toNat : ℤ)) ∧
    Mounts (kssfsRename s p.mem p'.mem).2 v := by
  obtain ⟨s', heq, hsame, -⟩ := h.scan (inUseAs_ofCluster (tail p.mem)) fun m t hm =>
    hm.inUseAs_eq p.isString_tail (by have := p.name.length_le; omega) p.name_ne
  have hs' : Mounts s' v := h.of_same hsame
  unfold kssfsRename Volume.lookup
  rw [heq]
  cases v.findIdx? fun t => decide (t.name.bytes = p.name.bytes) with
  | none => exact ⟨rfl, hs'⟩
  | some j => exact ⟨rfl, hs'.represents, hs'.clusterN_eq⟩

/-- The cluster of a handle, in the buffer. -/
lemma Mounts.readCluster (h : Mounts s v) {fh : QWORD} (hfh : fh.toNat < v.length) :
    fh.toUInt32.toNat % 2 ^ 19 = fh.toNat ∧
    SlotAt (kssfsReadCluster s fh.toUInt32).buf v[fh.toNat] := by
  have hle := h.represents.length_le
  have hidx : fh.toUInt32.toNat % 2 ^ 19 = fh.toNat := by
    rw [UInt64.toNat_toUInt32, Nat.mod_eq_of_lt (by omega), Nat.mod_eq_of_lt (by omega)]
  refine ⟨hidx, (h.represents.slot _ hfh).congr fun a ha => ?_⟩
  rw [kssfsReadCluster_buf h.complete (by rw [hidx, h.clusterN_eq]; exact hfh) ha, hidx]

/-- Reading inside of a slot. -/
lemma Mounts.read (h : Mounts s v) {fh : QWORD} (hfh : fh.toNat < v.length) (dest : ℕ → BYTE)
    {size offset : QWORD} (hin : offset.toNat + size.toNat ≤ 7680) :
    s.reply (.read fh dest size offset) = v.reply (.read fh dest size offset) := by
  obtain ⟨-, hslot⟩ := h.readCluster hfh
  simp only [Mount.reply, Volume.reply, kssfsRead, transferSize_of_le hin]
  refine congrArg (Reply.bytes _) (blit_congr fun k hk => ?_)
  rw [Nat.add_assoc, hslot.data _ (by omega), Volume.slot_of_lt hfh]

/-- A cluster after a write holds the slot after the write. -/
lemma SlotAt.written {m : ℕ → BYTE} {t : Slot} (h : SlotAt m t) (fbuf : ℕ → BYTE)
    {size offset : QWORD} (hin : offset.toNat + size.toNat ≤ 7680) :
    SlotAt (blit (blit m (512 + offset.toNat) size.toNat fbuf) 4 2
      (bytes16 (offset + (transferSize size offset).toUInt64).toUInt16))
      (t.written offset.toNat size.toNat fbuf) := by
  have hkeep : ∀ a < 512, a < 4 ∨ 6 ≤ a → blit (blit m (512 + offset.toNat) size.toNat fbuf) 4 2
      (bytes16 (offset + (transferSize size offset).toUInt64).toUInt16) a = m a := by
    intro a ha hout
    rw [blit_of_not_mem (by omega), blit_of_not_mem (by omega)]
  have hcut : (transferSize size offset).toNat = size.toNat := by
    have hsum : (offset + size).toNat = offset.toNat + size.toNat := by
      rw [UInt64.toNat_add, Nat.mod_eq_of_lt (by omega)]
    have hnot : ¬7680 < offset + size := by
      rw [UInt64.lt_iff_toNat_lt, hsum]
      simp only [UInt64.toNat_ofNat]
      omega
    rw [transferSize, if_neg hnot, UInt64.toNat_toUInt32, Nat.mod_eq_of_lt (by omega)]
  rw [Slot.written_of_le t hin]
  refine ⟨?_, fun k hk => ?_, ?_, ?_, ?_, fun k hk => ?_⟩
  · refine Iff.trans (Eq.congr_left ?_) h.type_iff
    exact le32_congr fun k hk => hkeep (0 + k) (by omega) (by omega)
  · rw [← h.name k hk]
    exact hkeep (6 + k) (by omega) (by omega)
  · have hlen : ∀ m' : ℕ → BYTE, ∀ w : WORD, kssfsLen (blit m' 4 2 (bytes16 w)) = w := by
      intro m' w
      refine Eq.trans (le16_congr fun k hk => ?_) (le16_bytes16 w)
      rw [blit_add hk, Nat.zero_add]
    rw [hlen, UInt64.toNat_toUInt16, UInt64.toNat_add, UInt32.toNat_toUInt64, hcut]
    dsimp only
    omega
  · refine Eq.trans ?_ h.uid
    exact le32_congr fun k hk => hkeep (262 + k) (by omega) (by omega)
  · refine Eq.trans ?_ h.gid
    exact le32_congr fun k hk => hkeep (266 + k) (by omega) (by omega)
  · rw [blit_of_not_mem (by omega)]
    dsimp only
    by_cases hmem : offset.toNat ≤ k ∧ k < offset.toNat + size.toNat
    · rw [blit_of_mem (by omega) (by omega), blit_of_mem hmem.1 hmem.2]
      congr 1
      omega
    · rw [blit_of_not_mem (by omega), blit_of_not_mem (by omega), h.data k hk]

/-- Writing inside of a slot. -/
lemma Mounts.write (h : Mounts s v) {fh : QWORD} (hfh : fh.toNat < v.length) (fbuf : ℕ → BYTE)
    {size offset : QWORD} (hin : offset.toNat + size.toNat ≤ 7680) :
    s.reply (.write fh fbuf size offset) = v.reply (.write fh fbuf size offset) ∧
    Mounts (kssfsWrite s fh fbuf size offset).2 (v.step (.write fh fbuf size offset)) := by
  obtain ⟨hidx, hslot⟩ := h.readCluster hfh
  have hread : Mounts (kssfsReadCluster s fh.toUInt32) v :=
    h.of_same (kssfsReadCluster_same s _)
  refine ⟨congrArg Reply.result (transferSize_of_le hin), ?_⟩
  exact hread.writeCluster hfh hidx (g := fun t => t.written offset.toNat size.toNat fbuf)
    (hslot.written fbuf hin)

/-- The operation does to the image what it should do to the volume. A path can be unlinked if it is
there neither as a name nor, with its slash, as one, and renamed if it is not there or keeps its
name. -/
def VolumeOp.Served (v : Volume) : VolumeOp → Prop
  | .unlink p => v.lookup p.name.bytes = none ∧ v.lookup (47 :: p.name.bytes) = none
  | .rename p p' => v.lookup p.name.bytes = none ∨ p'.name = p.name
  | _ => True

/-- The image replies what the volume says, and represents the volume after the operation. -/
def Agrees (sv : Mount × Volume) (op : VolumeOp) : Prop :=
  sv.1.reply op = sv.2.reply op ∧ Mounts (sv.1.volumeStep op) (sv.2.step op)

/-- What an image represents has one name for each slot. -/
lemma Mounts.name_eq {v' : Volume} (h : Mounts s v) (h' : Mounts s v') {i : ℕ} (hi : i < v.length)
    (hi' : i < v'.length) : v[i].name.bytes = v'[i].name.bytes := by
  rw [← (h.represents.slot i hi).nameText_eq, (h'.represents.slot i hi').nameText_eq]

/-- **When unlinking is right**: when nothing is there to be unlinked. -/
lemma Mounts.unlink_iff (h : Mounts s v) (p : Path) :
    Agrees (s, v) (.unlink p) ↔ (VolumeOp.unlink p).Served v := by
  obtain ⟨hres, hnext⟩ := h.unlink p
  have hneg : (-ENOENT.toNat : ℤ) ≠ 0 := by decide
  unfold Agrees
  simp only [Mount.reply, Volume.reply, Reply.result.injEq, Mount.volumeStep, Volume.step,
    VolumeOp.Served, hres]
  constructor
  · rintro ⟨hreply, hvolume⟩
    cases hname : v.lookup p.name.bytes with
    | none =>
      cases hpath : v.lookup (47 :: p.name.bytes) with
      | none => exact ⟨rfl, rfl⟩
      | some j =>
        rw [hname, hpath] at hreply
        exact absurd hreply.symm hneg
    | some i =>
      cases hpath : v.lookup (47 :: p.name.bytes) with
      | none =>
        rw [hname, hpath] at hreply
        exact absurd hreply hneg
      | some j =>
        -- the file is still there
        obtain ⟨hi, hiname, -⟩ := Volume.lookup_eq_some_iff.mp hname
        obtain ⟨hj, hjname, -⟩ := Volume.lookup_eq_some_iff.mp hpath
        have hne : j ≠ i := by
          rintro rfl
          exact List.cons_ne_self _ _ (hjname.symm.trans hiname)
        simp only [Volume.remove, hname, hpath, Option.map_some, Option.getD_some] at hnext hvolume
        have hsame := hnext.name_eq hvolume (i := i) (by rwa [List.length_modify])
          (by rwa [List.length_modify])
        rw [List.getElem_modify, if_neg hne, List.getElem_modify, if_pos rfl, hiname] at hsame
        exact absurd hsame p.name_ne
  · rintro ⟨hname, hpath⟩
    simp only [Volume.remove, hname, hpath, Option.map_none, Option.getD_none, true_and] at hnext ⊢
    exact hnext

/-- **When renaming is right**: when there is nothing to rename. -/
lemma Mounts.rename_iff (h : Mounts s v) (p p' : Path) :
    Agrees (s, v) (.rename p p') ↔ (VolumeOp.rename p p').Served v := by
  obtain ⟨hres, hnext⟩ := h.rename p p'
  unfold Agrees
  simp only [Mount.reply, Volume.reply, Mount.volumeStep, Volume.step,
    VolumeOp.Served, hres, true_and, Volume.rename]
  cases hname : v.lookup p.name.bytes with
  | none => exact iff_of_true hnext (.inl rfl)
  | some i =>
    obtain ⟨hi, hiname, -⟩ := Volume.lookup_eq_some_iff.mp hname
    simp only [Option.map_some, Option.getD_some, reduceCtorEq, false_or]
    constructor
    · intro hvolume
      have hsame := hnext.name_eq hvolume hi (by rwa [List.length_modify])
      rw [List.getElem_modify, if_pos rfl, hiname] at hsame
      exact FileName.ext hsame.symm
    · intro hkeep
      have hslot : v[i].named p'.name = v[i] := by
        have hown : v[i].name = p'.name := FileName.ext (by rw [hiname, hkeep])
        rw [Slot.named, ← hown]
      have hmodify : (v.modify i fun t => t.named p'.name) = v := by
        refine List.ext_getElem (List.length_modify ..) fun k hk hk' => ?_
        rw [List.getElem_modify]
        split_ifs with hik
        · subst hik
          exact hslot
        · rfl
      rw [hmodify]
      exact hnext

/-- **Which operations keep image and volume in step**, with transfers inside of their slot. -/
lemma Mounts.step_iff (h : Mounts s v) {op : VolumeOp} (hop : op.Valid v.length) :
    Agrees (s, v) op ↔ op.Served v := by
  cases op with
  | unlink p => exact h.unlink_iff p
  | rename p p' => exact h.rename_iff p p'
  | getroot e => exact iff_of_true ⟨rfl, h⟩ trivial
  | getattr e p =>
    obtain ⟨hreply, hsame⟩ := h.getattr e p
    exact iff_of_true ⟨hreply, h.of_same hsame⟩ trivial
  | fgetattr e p =>
    obtain ⟨hreply, hsame⟩ := h.getattr e p
    exact iff_of_true ⟨hreply, h.of_same hsame⟩ trivial
  | readdir => exact iff_of_true ⟨h.readdir, h.of_same (kssfsReaddir_same s _)⟩ trivial
  | openFile p fh => exact iff_of_true (h.openFile p fh) trivial
  | create p fh => exact iff_of_true (h.create p fh) trivial
  | read fh dest size offset =>
    exact iff_of_true ⟨h.read hop.1 dest hop.2, h.of_same (kssfsReadCluster_same s _)⟩ trivial
  | write fh fbuf size offset => exact iff_of_true (h.write hop.1 fbuf hop.2) trivial
  | truncate => exact iff_of_true ⟨rfl, h⟩ trivial
  | release => exact iff_of_true ⟨rfl, h⟩ trivial

/-- Whatever the operation does, the image represents a volume with as many slots. -/
lemma Mounts.exists_step (h : Mounts s v) {op : VolumeOp} (hop : op.Valid v.length) :
    ∃ v', v'.length = v.length ∧ (op.Served v → v' = v.step op) ∧
      Mounts (s.volumeStep op) v' := by
  by_cases hserved : op.Served v
  · exact ⟨v.step op, v.length_step op, fun _ => rfl, ((h.step_iff hop).mpr hserved).2⟩
  · cases op with
    | unlink p => exact ⟨_, v.length_remove _, fun hp => absurd hp hserved, (h.unlink p).2⟩
    | rename p p' => exact ⟨v, rfl, fun hp => absurd hp hserved, (h.rename p p').2⟩
    | _ => exact absurd trivial hserved

end Step

/-! ## Runs -/

/-- An operation on the image and on the volume beside it. -/
def volumePairStep (sv : Mount × Volume) (op : VolumeOp) : Mount × Volume :=
  (sv.1.volumeStep op, sv.2.step op)

/-- **The mounted image refines the volume** in exactly those runs whose operations are all served:
in them every operation replies what the volume says, and the image represents the volume behind
it. -/
lemma Mounts.run_iff {s : Mount} {v : Volume} (h : Mounts s v) {ops : List VolumeOp}
    (hops : ∀ op ∈ ops, op.Valid v.length) :
    Run.Along volumePairStep Agrees (s, v) ops ↔
      Run.Along Volume.step (fun v op => op.Served v) v ops := by
  induction ops generalizing s v with
  | nil => rfl
  | cons op ops ih =>
    obtain ⟨hop, hrest⟩ := List.forall_mem_cons.mp hops
    rw [Run.along_cons, Run.along_cons, h.step_iff hop]
    refine and_congr_right fun hserved => ?_
    refine ih ((h.step_iff hop).mpr hserved).2 fun op' hop' => ?_
    rw [v.length_step op]
    exact hrest op' hop'

/-- After every run the image represents a volume with as many slots. If all the operations do what
they should, it is the volume after the run. -/
lemma Mounts.exists_run {s : Mount} {v : Volume} (h : Mounts s v) {ops : List VolumeOp}
    (hops : ∀ op ∈ ops, op.Valid v.length) :
    ∃ v', v'.length = v.length ∧
      (Run.Along Volume.step (fun v op => op.Served v) v ops → v' = Run.run Volume.step v ops) ∧
      Mounts (Run.run Mount.volumeStep s ops) v' := by
  induction ops generalizing s v with
  | nil => exact ⟨v, rfl, fun _ => rfl, h⟩
  | cons op ops ih =>
    obtain ⟨hop, hrest⟩ := List.forall_mem_cons.mp hops
    obtain ⟨v₁, hlen₁, hstep, h₁⟩ := h.exists_step hop
    obtain ⟨v', hlen, hrun, h'⟩ := ih h₁ (by rw [hlen₁]; exact hrest)
    refine ⟨v', hlen.trans hlen₁, fun ⟨hserved, halong⟩ => ?_, h'⟩
    obtain rfl := hstep hserved
    exact hrun halong

end Korolev.Fuse
