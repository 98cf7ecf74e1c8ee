import Korolev.Net.Network

set_option relaxedAutoImplicit false
set_option autoImplicit false

/-!
# The address lists of the interfaces

`netdev_add_ip6_address` puts a new address behind the last one of an interface, and `netdev_free`
releases the addresses of one, the last one first. As long as `malloc` succeeds, the lists of the
interfaces are separate (`NodeList.Separate`): a new block is in no list, so that linking it into
one of them changes no other.

## Main definitions

* `Korolev.Network.Linked` — the lists of some interfaces are separate, and made of blocks.
* `Korolev.Network.Added` — what an address that is added does not change.
* `Korolev.netdevAddAll` — a sequence of calls.

## Main results

* `Korolev.netdevAddIp6Address_spec` — adding an address.
* `Korolev.netdevFree_spec` — releasing the addresses of an interface.
* `Korolev.netdev_address_lists` — the lists after every sequence of calls.
-/

namespace Korolev

open Bytes NodeList

/-- An address without its link. -/
def NetNode.data (addr : NetNode) : NetNode := { addr with next := 0 }

/-- The lists of the interfaces in `D` are separate, and made of blocks that `malloc` returned. -/
structure Network.Linked (net : Network) (block : ℕ → LONG) (D : Set ℕ) (nodes : ℕ → List LONG) :
    Prop where
  lists : Separate net.next 0 D (fun d => (net.ifs d).addresses) nodes
  blocks : ∀ d ∈ D, ∀ q ∈ nodes d, ∃ k < net.mallocs, block k = q

/-- The state after `addr` was added to interface `d` in block `a`: one more block, and else only
links and the first address of the interface changed. -/
structure Network.Added (net net' : Network) (d : ℕ) (a : LONG) (addr : NetNode) : Prop where
  mallocs : net'.mallocs = net.mallocs + 1
  new : (net'.heap a).data = addr.data
  old : ∀ q, q ≠ a → (net'.heap q).data = (net.heap q).data
  ifs : ∃ p, net'.ifs = Function.update net.ifs d { net.ifs d with addresses := p }
  disable : net'.disable = net.disable
  polls : net'.polls = net.polls
  out : net'.out = net.out

section Added

variable {net net' : Network} {d : ℕ} {a : LONG} {addr : NetNode}

lemma Network.Added.ifs_of_ne (h : net.Added net' d a addr) {c : ℕ} (hc : c ≠ d) :
    net'.ifs c = net.ifs c := by
  obtain ⟨p, hifs⟩ := h.ifs
  rw [hifs, Function.update_of_ne hc]

lemma Network.Added.ifs_self (h : net.Added net' d a addr) :
    ∃ p, net'.ifs d = { net.ifs d with addresses := p } := by
  obtain ⟨p, hifs⟩ := h.ifs
  exact ⟨p, by rw [hifs, Function.update_self]⟩

end Added

section Add

variable {block : ℕ → LONG} {fuel : ℕ} {net : Network} {D : Set ℕ} {nodes : ℕ → List LONG}

/-- Without addresses. -/
lemma Network.linked_of_empty (h : ∀ d ∈ D, (net.ifs d).addresses = 0) :
    net.Linked block D fun _ => [] :=
  ⟨⟨h, fun _ _ _ _ _ => List.disjoint_nil_left _⟩, fun _ _ _ hq => absurd hq List.not_mem_nil⟩

/-- The links are part of the blocks. -/
lemma Network.next_congr {net' : Network} (hheap : net'.heap = net.heap) :
    net'.next = net.next := by
  funext q
  rw [Network.next, hheap, Network.next]

/-- The lists do not depend on anything else of the state. -/
lemma Network.Linked.congr (h : net.Linked block D nodes) {net' : Network}
    (hheap : net'.heap = net.heap) (hmallocs : net'.mallocs = net.mallocs)
    (haddr : ∀ d ∈ D, (net'.ifs d).addresses = (net.ifs d).addresses) :
    net'.Linked block D nodes := by
  refine ⟨?_, by rw [hmallocs]; exact h.blocks⟩
  rw [Network.next_congr hheap]
  exact h.lists.mono (fun d hd => hd) haddr

/-- The next block is in no list. -/
lemma Network.Linked.fresh (h : net.Linked block D nodes)
    (hm : MallocSucceeds block (net.mallocs + 1)) : ∀ d ∈ D, block net.mallocs ∉ nodes d := by
  intro d hd hmem
  obtain ⟨k, hk, heq⟩ := h.blocks d hd _ hmem
  exact hm.ne (by omega) hk heq

/-- The links after a store to a block. -/
lemma next_update (net : Network) (p : LONG) (addr : NetNode) :
    Network.next { net with heap := Function.update net.heap p addr } =
      Function.update net.next p addr.next := by
  funext q
  by_cases hq : q = p
  · subst hq
    simp [Network.next]
  · simp [Network.next, hq]

/-- A new block is filled in: the lists are as before, and the block has no link. -/
lemma Network.Linked.newAddr (h : net.Linked block D nodes)
    (hm : MallocSucceeds block (net.mallocs + 1)) (d : ℕ) (addr : NetNode)
    (haddr : addr.next = 0) :
    (net.newAddr block addr).Linked block D nodes ∧
    (net.newAddr block addr).next (block net.mallocs) = 0 ∧
    net.Added (net.newAddr block addr) d (block net.mallocs) addr := by
  have hnext : (net.newAddr block addr).next = Function.update net.next (block net.mallocs) 0 := by
    rw [← haddr]
    exact next_update { net with mallocs := net.mallocs + 1 } (block net.mallocs) addr
  refine ⟨⟨?_, fun d hd q hq => ?_⟩, ?_, ?_⟩
  · refine h.lists.congr fun c hc q hq => ?_
    have hne : q ≠ block net.mallocs := fun heq => h.fresh hm c hc (heq ▸ hq)
    rw [hnext, Function.update_of_ne hne]
  · obtain ⟨k, hk, heq⟩ := h.blocks d hd q hq
    exact ⟨k, Nat.lt_succ_of_lt hk, heq⟩
  · rw [hnext, Function.update_self]
  · refine ⟨rfl, ?_, fun q hq => ?_, ⟨_, (Function.update_eq_self d net.ifs).symm⟩, rfl, rfl, rfl⟩
    · simp only [Network.newAddr, Function.update_self]
    · simp only [Network.newAddr, Function.update_of_ne hq]

/-- A block that is in no list is linked behind the last node of one.

**Proof sketch.** If the list is empty the block becomes its head (`Separate.push_nil`). Otherwise
the walk ends at the last node (`last_eq`), whose link is set (`Separate.push`). -/
lemma netdevLink_spec (h : Separate net.next 0 D (fun d => (net.ifs d).addresses) nodes) {d : ℕ}
    (hd : d ∈ D) (hfuel : (nodes d).length ≤ fuel) {a : LONG} (hnull : a ≠ 0)
    (hfresh : ∀ d ∈ D, a ∉ nodes d) (hend : net.next a = 0) :
    ∃ net', netdevLink fuel net d a = .ok net' ∧
      Separate net'.next 0 D (fun d => (net'.ifs d).addresses)
        (Function.update nodes d (nodes d ++ [a])) ∧
      (∀ q, (net'.heap q).data = (net.heap q).data) ∧
      (∃ p, net'.ifs = Function.update net.ifs d { net.ifs d with addresses := p }) ∧
      net' = { net with heap := net'.heap, ifs := net'.ifs } := by
  have hempty := (h.chain d hd).eq_nil_iff
  rw [netdevLink]
  by_cases hnil : nodes d = []
  · rw [if_neg (not_not.mpr (hempty.mp hnil))]
    refine ⟨_, rfl, ?_, fun q => rfl, ⟨a, rfl⟩, rfl⟩
    have hhead : (fun c => ((net.setIf d { net.ifs d with addresses := a }).ifs c).addresses) =
        Function.update (fun c => (net.ifs c).addresses) d a := by
      funext c
      by_cases hcd : c = d
      · subst hcd
        simp
      · simp [Network.setIf_ifs_of_ne net hcd, hcd]
    rw [hhead]
    exact h.push_nil hnil hnull hfresh hend
  · obtain ⟨l, e, hlast⟩ : ∃ l e, nodes d = l ++ [e] := by
      rcases List.eq_nil_or_concat (nodes d) with hnil' | ⟨l, e, hle⟩
      · exact absurd hnil' hnil
      · exact ⟨l, e, by rw [hle, List.concat_eq_append]⟩
    have hchain := h.chain d hd
    rw [hlast] at hchain
    rw [hlast, List.length_append, List.length_singleton] at hfuel
    rw [if_pos (mt hempty.mpr hnil), last_eq hchain (by omega)]
    refine ⟨_, rfl, ?_, fun q => ?_, ⟨_, (Function.update_eq_self d net.ifs).symm⟩, rfl⟩
    · rw [next_update net e { net.heap e with next := a }]
      exact h.push hd hlast hnull hfresh hend
    · by_cases hqe : q = e
      · subst hqe
        simp only [Function.update_self]
        rfl
      · simp only [Function.update_of_ne hqe]

/-- **Adding an address.** The call returns the new block, which is behind the last node of the
list. -/
lemma netdevAddIp6Address_spec (fuel : ℕ) (h : net.Linked block D nodes) {d : ℕ} (hd : d ∈ D)
    (hm : MallocSucceeds block (net.mallocs + 1)) (hfuel : (nodes d).length ≤ fuel)
    (address : ℕ → BYTE) (len attr : LONG) :
    ∃ net', netdevAddIp6Address block fuel net d address len attr =
        .ok (block net.mallocs, net') ∧
      net'.Linked block D (Function.update nodes d (nodes d ++ [block net.mallocs])) ∧
      net.Added net' d (block net.mallocs) (netNode address len attr) := by
  have hnull : block net.mallocs ≠ 0 := (hm _ (by omega)).1
  obtain ⟨hlinked, hend, hadded⟩ := h.newAddr hm d (netNode address len attr) rfl
  obtain ⟨net', hlink, hlists, hdata, hifs, hnet'⟩ :=
    netdevLink_spec hlinked.lists hd hfuel hnull (h.fresh hm) hend
  have hmallocs : net'.mallocs = net.mallocs + 1 := by
    rw [hnet']
    rfl
  refine ⟨net', ?_, ⟨hlists, fun c hc q hq => ?_⟩, ⟨hmallocs, ?_, fun q hq => ?_, hifs, ?_, ?_,
    ?_⟩⟩
  · rw [netdevAddIp6Address, hlink]
    rfl
  · have hold : q ∈ nodes c → ∃ k < net'.mallocs, block k = q := by
      rw [hmallocs]
      exact hlinked.blocks c hc q
    by_cases hcd : c = d
    · subst hcd
      rw [Function.update_self, List.mem_append, List.mem_singleton] at hq
      rcases hq with hq | rfl
      · exact hold hq
      · exact ⟨net.mallocs, by omega, rfl⟩
    · rw [Function.update_of_ne hcd] at hq
      exact hold hq
  · rw [hdata, hadded.new]
  · rw [hdata, hadded.old q hq]
  · rw [hnet']
    rfl
  · rw [hnet']
    rfl
  · rw [hnet']
    rfl

/-- **Releasing the addresses of an interface.** Every node of its list is passed to `free` once,
and the other lists are as before. -/
lemma netdevFree_spec (h : net.Linked block D nodes) {d : ℕ} (hd : d ∈ D)
    (hfuel : (nodes d).length ≤ fuel) :
    ∃ net', netdevFree fuel net d = .ok ((nodes d).reverse, net') ∧ net'.heap = net.heap ∧
      ∀ c, c ≠ d → net'.ifs c = net.ifs c := by
  have hchain := h.lists.chain d hd
  have hempty := hchain.eq_nil_iff
  rw [netdevFree]
  by_cases hnil : nodes d = []
  · rw [if_neg (not_not.mpr (hempty.mp hnil)), hnil]
    exact ⟨_, rfl, rfl, fun c hc => Function.update_of_ne hc _ _⟩
  · rw [if_pos (mt hempty.mpr hnil), release_eq hchain hnil hfuel]
    exact ⟨_, rfl, rfl, fun c hc => Function.update_of_ne hc _ _⟩

end Add

/-! ## Sequences of calls -/

/-- A call of `netdev_add_ip6_address`. -/
structure AddCall where
  dev : ℕ
  address : ℕ → BYTE
  len : LONG
  attr : LONG

/-- The calls, one after the other. -/
def netdevAddAll (block : ℕ → LONG) (fuel : ℕ) (net : Network) (calls : List AddCall) :
    Except NetFault Network :=
  calls.foldlM (fun net c => do
    let r ← netdevAddIp6Address block fuel net c.dev c.address c.len c.attr
    return r.2) net

/-- The bytes and the attribute of an address. -/
def NetNode.entry (addr : NetNode) : List BYTE × LONG := (toList addr.addr 0 16, addr.attr)

/-- What a call asks to be added. -/
def AddCall.entry (c : AddCall) : List BYTE × LONG := (toList c.address 0 16, c.attr)

lemma entry_netNode (address : ℕ → BYTE) (len attr : LONG) :
    (netNode address len attr).entry = (toList address 0 16, attr) := by
  refine Prod.ext (List.map_congr_left fun k hk => ?_) rfl
  have hk := List.mem_range.mp hk
  have hcopy : (netNode address len attr).addr = blit (fun _ => 0) 0 16 fun k => address (0 + k) :=
    memcpy_eq_blit address 16 _ 0 0
  rw [hcopy, blit_add hk, Nat.zero_add]

/-- The link is no part of what was added. -/
lemma entry_congr {addr addr' : NetNode} (h : addr.data = addr'.data) :
    addr.entry = addr'.entry := by
  have hentry : addr.data.entry = addr'.data.entry := congrArg NetNode.entry h
  exact hentry

/-- `fb` and `rb` -/
lemma mask_fields (len : LONG) :
    (len / 8).toNat = len.toNat / 8 ∧ (len - len / 8 * 8).toNat = len.toNat % 8 := by
  have hlen := len.toNat_lt
  have hdiv : (len / 8).toNat = len.toNat / 8 := UInt32.toNat_div len 8
  have hmul : (len / 8 * 8).toNat = len.toNat / 8 * 8 := by
    rw [UInt32.toNat_mul, hdiv]
    exact Nat.mod_eq_of_lt (by simp; omega)
  refine ⟨hdiv, ?_⟩
  rw [UInt32.toNat_sub_of_le _ _ (UInt32.le_iff_toNat_le.mpr (by omega)), hmul]
  omega

/-- The stores to a mask of at most 128 bits are inside of it. -/
lemma lt_of_mem_maskStores {len : LONG} (hlen : len ≤ 128) : ∀ st ∈ maskStores len, st.1 < 16 := by
  obtain ⟨hfb, hrb⟩ := mask_fields len
  have hlen : len.toNat ≤ 128 := UInt32.le_iff_toNat_le.mp hlen
  intro st hst
  rw [maskStores, hfb, List.mem_append] at hst
  rcases hst with hst | hst
  · obtain ⟨i, hi, rfl⟩ := List.mem_map.mp hst
    have hi := List.mem_range.mp hi
    dsimp only
    omega
  · split_ifs at hst with hbits
    · rw [List.mem_singleton.mp hst]
      have hne : (len - len / 8 * 8).toNat ≠ 0 := toNat_ne_zero.mpr hbits
      dsimp only
      omega
    · exact absurd hst List.not_mem_nil

section Calls

variable {block : ℕ → LONG} {net : Network} {D : Set ℕ} {nodes : ℕ → List LONG}

lemma MallocSucceeds.mono {n m : ℕ} (h : MallocSucceeds block n) (hmn : m ≤ n) :
    MallocSucceeds block m := fun k hk => h k (by omega)

/-- An address is added to what a list has. -/
lemma Network.Added.map_entry {net' : Network} {address : ℕ → BYTE} {len attr : LONG}
    {c : ℕ} (h : net.Added net' c (block net.mallocs) (netNode address len attr))
    (hfresh : ∀ d ∈ D, block net.mallocs ∉ nodes d) {d : ℕ} (hd : d ∈ D) :
    (Function.update nodes c (nodes c ++ [block net.mallocs]) d).map
        (fun q => (net'.heap q).entry) =
      (nodes d).map (fun q => (net.heap q).entry) ++
        if c = d then [(toList address 0 16, attr)] else [] := by
  have hold : (nodes d).map (fun q => (net'.heap q).entry) =
      (nodes d).map fun q => (net.heap q).entry := by
    refine List.map_congr_left fun q hq => entry_congr (h.old q fun heq => ?_)
    exact hfresh d hd (heq ▸ hq)
  by_cases hcd : c = d
  · subst hcd
    rw [Function.update_self, List.map_append, hold, if_pos rfl, List.map_singleton,
      entry_congr h.new, entry_netNode]
  · rw [Function.update_of_ne (Ne.symm hcd), hold, if_neg hcd, List.append_nil]

/-- **A sequence of calls** adds to every list what was asked for it, in order. -/
lemma netdevAddAll_spec (h : net.Linked block D nodes) (fuel : ℕ) (calls : List AddCall)
    (hcalls : ∀ c ∈ calls, c.dev ∈ D) (hm : MallocSucceeds block (net.mallocs + calls.length))
    (hfuel : ∀ d ∈ D, (nodes d).length + calls.length ≤ fuel) :
    ∃ net' nodes', netdevAddAll block fuel net calls = .ok net' ∧ net'.Linked block D nodes' ∧
      ∀ d ∈ D, (nodes' d).length ≤ fuel ∧ (nodes' d).map (fun q => (net'.heap q).entry) =
        (nodes d).map (fun q => (net.heap q).entry) ++
          (calls.filter fun c => c.dev = d).map AddCall.entry := by
  induction calls generalizing net nodes with
  | nil => exact ⟨net, nodes, rfl, h, fun d hd => ⟨hfuel d hd, by simp⟩⟩
  | cons c calls ih =>
    rw [List.length_cons] at hm hfuel
    obtain ⟨hc, hcalls⟩ := List.forall_mem_cons.mp hcalls
    have hm₁ := hm.mono (m := net.mallocs + 1) (by omega)
    obtain ⟨net₁, hadd, hlinked, hadded⟩ := netdevAddIp6Address_spec fuel h hc hm₁
      (le_of_add_le_left (hfuel c.dev hc)) c.address c.len c.attr
    obtain ⟨net', nodes', hrun, hlinked', hlists⟩ := ih hlinked hcalls
      (by rw [hadded.mallocs]; exact hm.mono (by omega)) fun d hd => by
        have hd := hfuel d hd
        by_cases hcd : d = c.dev
        · subst hcd
          rw [Function.update_self, List.length_append, List.length_singleton]
          omega
        · rw [Function.update_of_ne hcd]
          omega
    refine ⟨net', nodes', ?_, hlinked', fun d hd => ⟨(hlists d hd).1, ?_⟩⟩
    · rw [netdevAddAll, List.foldlM_cons, hadd]
      exact hrun
    · rw [(hlists d hd).2, hadded.map_entry (h.fresh hm₁) hd, List.append_assoc, List.filter_cons]
      by_cases hcd : c.dev = d
      · simp [hcd, AddCall.entry]
      · simp [hcd]

end Calls

/-- **The address lists of the interfaces.** After every sequence of calls that add addresses, with
`malloc` succeeding, the list of every interface is finite and acyclic, has the addresses that were
added to the interface, in order, and has no node in common with another list. Releasing one of them
passes every node of it to `free` once, and leaves the others as they were. -/
theorem netdev_address_lists (block : ℕ → LONG) (fuel : ℕ) (net : Network) (D : Set ℕ)
    (calls : List AddCall) (hempty : ∀ d ∈ D, (net.ifs d).addresses = 0)
    (hcalls : ∀ c ∈ calls, c.dev ∈ D ∧ c.len ≤ 128)
    (hm : MallocSucceeds block (net.mallocs + calls.length)) (hfuel : calls.length ≤ fuel) :
    ∃ (net' : Network) (nodes : ℕ → List LONG), netdevAddAll block fuel net calls = .ok net' ∧
      (∀ c ∈ calls, ∀ st ∈ maskStores c.len, st.1 < 16) ∧
      (∀ d ∈ D, Nodes net'.next 0 (net'.ifs d).addresses (nodes d) ∧ (nodes d).Nodup ∧
        (nodes d).map (fun q => (net'.heap q).entry) =
          (calls.filter fun c => c.dev = d).map AddCall.entry) ∧
      (∀ d ∈ D, ∀ d' ∈ D, d ≠ d' → (nodes d).Disjoint (nodes d')) ∧
      ∀ d ∈ D, ∃ freed net'', netdevFree fuel net' d = .ok (freed, net'') ∧
        freed.Perm (nodes d) ∧
        ∀ d' ∈ D, d' ≠ d → Nodes net''.next 0 (net''.ifs d').addresses (nodes d') ∧
          ∀ q ∈ nodes d', net''.heap q = net'.heap q := by
  have hstart : net.Linked block D fun _ => [] := Network.linked_of_empty hempty
  obtain ⟨net', nodes, hrun, hlinked, hlists⟩ := netdevAddAll_spec hstart fuel calls
    (fun c hc => (hcalls c hc).1) hm fun d _ => by simpa using hfuel
  refine ⟨net', nodes, hrun, fun c hc => lt_of_mem_maskStores (hcalls c hc).2, fun d hd => ?_,
    hlinked.lists.disjoint, fun d hd => ?_⟩
  · have hchain := hlinked.lists.chain d hd
    exact ⟨hchain, hchain.nodup, (hlists d hd).2⟩
  · obtain ⟨net'', hfree, hheap, hifs⟩ := netdevFree_spec hlinked hd (hlists d hd).1
    refine ⟨_, net'', hfree, List.reverse_perm _, fun d' hd' hne => ⟨?_, fun q _ => by rw [hheap]⟩⟩
    rw [Network.next_congr hheap, hifs d' hne]
    exact hlinked.lists.chain d' hd'

/-- One page for every call of `malloc`. -/
def pageBlock (k : ℕ) : LONG := UInt32.ofNat (4096 * (k + 1))

lemma pageBlock_succeeds {n : ℕ} (hn : n ≤ 1000) : MallocSucceeds pageBlock n := by
  have hpage : ∀ k < n, (pageBlock k).toNat = 4096 * (k + 1) := fun k hk =>
    toNat_ofNat_of_lt (by omega)
  refine fun k hk => ⟨?_, fun j hj => ?_⟩
  · rw [← toNat_ne_zero, hpage k hk]
    omega
  · rw [hpage j (by omega), hpage k hk]
    omega

/-- Two addresses for the first interface, with one for the second in between. -/
theorem netdev_address_lists_two :
    ∃ (net' : Network) (nodes : ℕ → List LONG),
      netdevAddAll pageBlock 3 .boot [⟨0, loopback, 64, 2⟩, ⟨1, loopback, 128, 0⟩,
        ⟨0, linklocal fun _ => 0, 61, 1⟩] = .ok net' ∧
      Nodes net'.next 0 (net'.ifs 0).addresses (nodes 0) ∧ (nodes 0).length = 2 ∧
      Nodes net'.next 0 (net'.ifs 1).addresses (nodes 1) ∧ (nodes 1).length = 1 := by
  obtain ⟨net', nodes, hrun, -, hlists, -⟩ := netdev_address_lists pageBlock 3 .boot Set.univ
    [⟨0, loopback, 64, 2⟩, ⟨1, loopback, 128, 0⟩, ⟨0, linklocal fun _ => 0, 61, 1⟩]
    (fun _ _ => rfl) (fun c hc => ⟨trivial, by revert c; simp⟩)
    (pageBlock_succeeds (by simp [Network.boot])) le_rfl
  obtain ⟨hchain₀, -, hmap₀⟩ := hlists 0 trivial
  obtain ⟨hchain₁, -, hmap₁⟩ := hlists 1 trivial
  have hlen₀ := congrArg List.length hmap₀
  have hlen₁ := congrArg List.length hmap₁
  rw [List.length_map] at hlen₀ hlen₁
  exact ⟨net', nodes, hrun, hchain₀, hlen₀, hchain₁, hlen₁⟩

end Korolev
