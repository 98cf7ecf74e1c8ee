import Korolev.Net.Addresses
import Mathlib.Data.Nat.Count

set_option relaxedAutoImplicit false
set_option autoImplicit false

/-!
# Setting up the interfaces

`network_setup` takes the first entry of the table of network interfaces for the loopback interface
and the next ones for the Ethernet devices, in order: device `i` gets the entry behind those of the
devices before it. Both tables have 16 entries, so that the entries do not suffice if there are 16
devices; the last one is then set up at the null pointer.

For every device the link is polled. The countdown that ends the loop is tested behind the call of
`is_up`, and only decremented inside of the loop, so that it ends at `0` when the link stays down.
The test for a timeout is one for `0xffffffff`: it never holds, and a device whose link stays down
is treated as one that is up.

## Main definitions

* `Korolev.EthIfs.slot` — the entry for an Ethernet device.
* `Korolev.networkRounds` — the loop over the devices, up to some device.
* `Korolev.SetUp` — the state behind some iterations of it.
* `Korolev.Network.Covers` — every Ethernet device has its interface.
* `Korolev.LinkRight` — a device gets a link-local address iff its link is up.

## Main results

* `Korolev.networkSetupDev_spec` — an iteration of the loop.
* `Korolev.networkRounds_spec` — the loop.
* `Korolev.network_setup_covers_iff` — when every device gets an interface.
* `Korolev.network_setup_link_iff` — when link-local addresses are right.
-/

namespace Korolev

open Bytes NodeList

/-! ## Entries -/

namespace EthIfs

variable (e : EthIfs)

/-- The entry of the table is in use. -/
def Taken (i : ℕ) : Prop := (e.ifs i).allocated ≠ 0

instance : DecidablePred e.Taken := fun i => inferInstanceAs (Decidable ((e.ifs i).allocated ≠ 0))

/-- The number of devices. -/
def count : ℕ := Nat.count e.Taken 16

/-- The entry that `network_setup` takes for device `i`: the first one is that of the loopback
interface. -/
def slot (i : ℕ) : ℕ := 1 + Nat.count e.Taken i

variable {e}

lemma slot_succ_of_taken {i : ℕ} (h : e.Taken i) : e.slot (i + 1) = e.slot i + 1 := by
  rw [slot, slot, Nat.count_succ, if_pos h, Nat.add_assoc]

lemma slot_succ_of_not_taken {i : ℕ} (h : ¬e.Taken i) : e.slot (i + 1) = e.slot i := by
  rw [slot, slot, Nat.count_succ, if_neg h, Nat.add_zero]

lemma slot_lt_slot {i n : ℕ} (h : e.Taken i) (hi : i < n) : e.slot i < e.slot n :=
  Nat.add_lt_add_left (Nat.count_strict_mono h hi) 1

/-- The entries before that of device `n` are those of the devices before it. -/
lemma exists_slot {n j : ℕ} (hpos : 0 < j) (hj : j < e.slot n) :
    ∃ i < n, e.Taken i ∧ e.slot i = j := by
  induction n with
  | zero =>
    rw [slot, Nat.count_zero] at hj
    omega
  | succ n ih =>
    by_cases hn : e.Taken n
    · rw [slot_succ_of_taken hn] at hj
      by_cases hlast : j = e.slot n
      · exact ⟨n, by omega, hn, hlast.symm⟩
      · obtain ⟨i, hi, h⟩ := ih (by omega)
        exact ⟨i, by omega, h⟩
    · rw [slot_succ_of_not_taken hn] at hj
      obtain ⟨i, hi, h⟩ := ih hj
      exact ⟨i, by omega, h⟩

/-- With at most 15 devices there is an entry for each of them. -/
lemma slot_lt_of_count (h : e.count ≤ 15) {i : ℕ} (hi : i < 16) (ht : e.Taken i) :
    e.slot i < 16 := by
  have hlt : Nat.count e.Taken i < Nat.count e.Taken 16 := Nat.count_strict_mono ht hi
  rw [count] at h
  rw [slot]
  omega

/-- With more of them all entries are in use, and there is one for each of the first 15. -/
lemma taken_of_count (h : ¬e.count ≤ 15) : e.Taken 15 ∧ e.slot 15 = 16 := by
  have hle : Nat.count e.Taken 15 ≤ 15 := Nat.count_le _
  rw [count, Nat.count_succ] at h
  rw [slot]
  split_ifs at h with hlast
  · exact ⟨hlast, by omega⟩
  · omega

end EthIfs

/-! ## Allocating -/

section Allocate

variable {net : Network}

lemma netdevAllocate_eq {j : ℕ} (hj : j < 16) (hfree : (net.ifs j).allocated = 0)
    (hbefore : ∀ k < j, (net.ifs k).allocated ≠ 0) :
    netdevAllocate net = (some j, net.setIf j { net.ifs j with allocated := 1 }) := by
  rw [netdevAllocate]
  obtain ⟨i, -, hi, hbefore', hfind⟩ | ⟨hfull, -⟩ :=
    Slots.find?_range_cases 16 fun i => (net.ifs i).allocated = 0
  · have hij : i = j := by
      rcases Nat.lt_trichotomy i j with hlt | heq | hlt
      · exact absurd hi (hbefore i hlt)
      · exact heq
      · exact absurd hfree (hbefore' j hlt)
    rw [hfind, hij]
  · exact absurd hfree (hfull j hj)

lemma netdevAllocate_full (hfull : ∀ k < 16, (net.ifs k).allocated ≠ 0) :
    netdevAllocate net = (none, net) := by
  rw [netdevAllocate]
  obtain ⟨i, hi, hzero, -⟩ | ⟨-, hfind⟩ :=
    Slots.find?_range_cases 16 fun i => (net.ifs i).allocated = 0
  · exact absurd hzero (hfull i hi)
  · rw [hfind]

end Allocate

/-! ## Waiting for the link -/

section Wait

variable (isUp : ℕ → LONG)

/-- The countdown ends at a value it had. -/
lemma networkWait_fst_le : ∀ (s k : ℕ), s < 2 ^ 32 → (networkWait isUp s k).1.toNat ≤ s
  | 0, k, _ => le_rfl
  | s + 1, k, hs => by
    rw [networkWait]
    split_ifs
    · exact (networkWait_fst_le s (k + 1) (by omega)).trans (Nat.le_succ s)
    · rw [toNat_ofNat_of_lt hs]

/-- One of the calls of `is_up` that are made answers that the link is up iff one of the first
`s + 1` would. -/
lemma networkWait_polled : ∀ s k : ℕ,
    (∃ i, k ≤ i ∧ i < (networkWait isUp s k).2 ∧ isUp i ≠ 0) ↔ ∃ m ≤ s, isUp (k + m) ≠ 0
  | 0, k => by
    rw [networkWait]
    constructor
    · rintro ⟨i, hki, hi, hup⟩
      obtain rfl : i = k := by omega
      exact ⟨0, le_rfl, hup⟩
    · rintro ⟨m, hm, hup⟩
      obtain rfl : m = 0 := by omega
      exact ⟨k, le_rfl, by omega, hup⟩
  | s + 1, k => by
    rw [networkWait]
    by_cases hdown : isUp k = 0
    · rw [if_pos hdown]
      constructor
      · rintro ⟨i, hki, hi, hup⟩
        have hne : i ≠ k := fun h => hup (h ▸ hdown)
        obtain ⟨m, hm, hup⟩ := (networkWait_polled s (k + 1)).mp ⟨i, by omega, hi, hup⟩
        exact ⟨m + 1, by omega, by rwa [Nat.add_comm m, ← Nat.add_assoc]⟩
      · rintro ⟨m, hm, hup⟩
        obtain ⟨m, rfl⟩ : ∃ m', m = m' + 1 := Nat.exists_eq_succ_of_ne_zero fun h => by
          rw [h, Nat.add_zero] at hup
          exact hup hdown
        rw [Nat.add_comm m, ← Nat.add_assoc] at hup
        obtain ⟨i, hki, hi, hup⟩ := (networkWait_polled s (k + 1)).mpr ⟨m, by omega, hup⟩
        exact ⟨i, by omega, hi, hup⟩
    · rw [if_neg hdown]
      exact iff_of_true ⟨k, le_rfl, Nat.lt_succ_self k, hdown⟩ ⟨0, Nat.zero_le _, hdown⟩

/-- **The test for a timeout never holds.** -/
lemma networkWait_ne (k : ℕ) : (networkWait isUp 3 k).1 ≠ 0xffffffff := by
  intro h
  have hle := networkWait_fst_le isUp 3 k (by omega)
  rw [h] at hle
  exact absurd hle (by decide)

end Wait

/-! ## The loop over the devices -/

/-- The address a device gets. -/
def linklocalEntry (dev : Ethdev) : List BYTE × LONG :=
  (toList (linklocal dev.addr) 0 16, NET_ADDR_IPV6_LOCAL)

/-- The state behind the iterations for the devices before `n`, from the state `net₀`: the first
entry is that of the loopback interface, the next ones are those of the devices, and the others are
clear. -/
structure SetUp (block : ℕ → LONG) (e : EthIfs) (net₀ net : Network) (nodes : ℕ → List LONG)
    (n : ℕ) : Prop where
  linked : net.Linked block {j | j < 16} nodes
  short : ∀ j < 16, (nodes j).length ≤ 1
  mallocs : net.mallocs = net₀.mallocs + 1 + e.slot n
  polls : ∀ i, n ≤ i → i < 16 → net.polls (e.ptr i) = net₀.polls (e.ptr i)
  lo : (net.ifs 0).allocated = 1 ∧ (net.ifs 0).iftype = NET_IF_LOOPBACK
  eth : ∀ i < n, e.Taken i →
    (net.ifs (e.slot i)).allocated = 1 ∧ (net.ifs (e.slot i)).iftype = NET_IF_ETHERNET ∧
    (net.ifs (e.slot i)).physical = e.ptr i ∧
    (nodes (e.slot i)).map (fun q => (net.heap q).entry) = [linklocalEntry (e.ifs i)]
  free : ∀ j, e.slot n ≤ j → j < 16 → net.ifs j = .zero

section Rounds

variable {block : ℕ → LONG} {fuel : ℕ} {e : EthIfs} {net₀ net : Network} {nodes : ℕ → List LONG}

/-- The loopback interface, before it has an address. -/
def loNetdev : Netdev :=
  { Netdev.zero with
    allocated := 1
    name := strncpy (fun _ => 0) 0 (ofList (text "lo")) 0 32
    up := 1
    iftype := NET_IF_LOOPBACK }

lemma networkCreateLoopback_eq (hclear : net.ifs 0 = .zero) :
    networkCreateLoopback block fuel net = (netdevAddIp6Address block fuel
      ((net.puts (text "[network] creating loopback\n")).setIf 0 loNetdev) 0 loopback 64
      NET_ADDR_IPV6_LOOP).map Prod.snd := by
  have halloc : netdevAllocate (net.puts (text "[network] creating loopback\n")) = (some 0, _) :=
    netdevAllocate_eq (by omega) (congrArg Netdev.allocated hclear) fun k hk => by omega
  rw [networkCreateLoopback]
  dsimp only
  rw [halloc]
  simp only [netdevSet, Network.setIf_ifs_self, Network.setIf_setIf, Network.puts_ifs, hclear]
  rfl

/-- The state before the loop over the devices. -/
lemma networkCreateLoopback_spec (fuel : ℕ) (e : EthIfs) (hclear : ∀ j < 16, net.ifs j = .zero)
    (hmallocs : net.mallocs = net₀.mallocs + 1) (hpolls : net.polls = net₀.polls)
    (hm : MallocSucceeds block (net.mallocs + 1)) :
    ∃ net' nodes, networkCreateLoopback block fuel net = .ok net' ∧
      SetUp block e net₀ net' nodes 0 := by
  set net₁ := (net.puts (text "[network] creating loopback\n")).setIf 0 loNetdev with hnet₁
  have hifs : ∀ j < 16, j ≠ 0 → net₁.ifs j = .zero := fun j hj hne =>
    (Network.setIf_ifs_of_ne _ hne _).trans (hclear j hj)
  have hself : net₁.ifs 0 = loNetdev := Network.setIf_ifs_self _ _ _
  have hempty : net₁.Linked block {j | j < 16} fun _ => [] := by
    refine Network.linked_of_empty fun j hj => ?_
    by_cases hzero : j = 0
    · rw [hzero, hself]
      rfl
    · rw [hifs j hj hzero]
      rfl
  obtain ⟨net', hadd, hlinked, hadded⟩ := netdevAddIp6Address_spec fuel hempty
    (show 0 < 16 by omega) hm (Nat.zero_le fuel) loopback 64 NET_ADDR_IPV6_LOOP
  refine ⟨net', _, ?_, hlinked, fun j _ => ?_, ?_, fun i _ _ => ?_, ?_, fun i hi => by omega,
    fun j hj hj16 => ?_⟩
  · rw [networkCreateLoopback_eq (hclear 0 (by omega)), hadd]
    rfl
  · by_cases hzero : j = 0
    · rw [hzero, Function.update_self]
      exact le_rfl
    · rw [Function.update_of_ne hzero]
      exact Nat.zero_le _
  · rw [hadded.mallocs, EthIfs.slot, Nat.count_zero]
    exact congrArg (· + 1) hmallocs
  · rw [hadded.polls]
    exact congrFun hpolls _
  · obtain ⟨p, hp⟩ := hadded.ifs_self
    rw [hp, hself]
    exact ⟨rfl, rfl⟩
  · have hne : j ≠ 0 := by
      rw [EthIfs.slot] at hj
      omega
    rw [hadded.ifs_of_ne hne, hifs j hj16 hne]

/-- The interface of a device, before it has an address. -/
def ethNetdev (pdev : LONG) : Netdev :=
  { Netdev.zero with
    allocated := 1
    name := strncpy (fun _ => 0) 0 (ofList (text "eth")) 0 32
    up := 1
    iftype := NET_IF_ETHERNET
    physical := pdev }

/-- The state when the wait for the link of a device is over. -/
def Network.waited (F : EthFns) (net : Network) (dev : ℕ) (pdev : LONG) : Network :=
  { net.setIf dev (ethNetdev pdev) with
    polls := Function.update net.polls pdev (networkWait (F.isUp pdev) 3 (net.polls pdev)).2
    out := net.out ++ text "[" ++ (ethNetdev pdev).shownName ++ text "] waiting for link..." ++
      text "online\n" }

variable {F : EthFns} {i : ℕ}

@[simp] lemma Network.waited_ifs_self (net : Network) (j : ℕ) (p : LONG) :
    (net.waited F j p).ifs j = ethNetdev p := Network.setIf_ifs_self _ _ _

lemma Network.waited_ifs_of_ne (net : Network) {j k : ℕ} (hk : k ≠ j) (p : LONG) :
    (net.waited F j p).ifs k = net.ifs k := Network.setIf_ifs_of_ne _ hk _

lemma networkSetupDev_skip (hi : i < 16) (ht : ¬e.Taken i) :
    networkSetupDev block fuel F e net i = .ok net := by
  rw [networkSetupDev, ethernetGetdev_eq e hi, if_pos (not_not.mp ht)]
  exact if_pos rfl

lemma networkSetupDev_full (hi : i < 16) (ht : e.Taken i)
    (hfull : ∀ k < 16, (net.ifs k).allocated ≠ 0) :
    networkSetupDev block fuel F e net i = .error .nullDevice := by
  rw [networkSetupDev, ethernetGetdev_eq e hi, if_neg ht]
  dsimp only
  rw [if_neg (e.ptr_ne_zero hi), netdevAllocate_full hfull]

/-- An iteration of the loop: whatever `is_up` answers, an address is added. -/
lemma networkSetupDev_eq (hi : i < 16) (ht : e.Taken i) (hup : (e.ifs i).isUp ≠ 0) {j : ℕ}
    (hj : j < 16) (hfree : net.ifs j = .zero) (hbefore : ∀ k < j, (net.ifs k).allocated ≠ 0) :
    networkSetupDev block fuel F e net i =
      netdevAddLinklocal block fuel e (net.waited F j (e.ptr i)) j := by
  have halloc := netdevAllocate_eq hj (congrArg Netdev.allocated hfree) hbefore
  rw [networkSetupDev, ethernetGetdev_eq e hi, if_neg ht]
  dsimp only
  rw [if_neg (e.ptr_ne_zero hi), halloc, e.deref_ptr hi]
  dsimp only
  rw [if_neg hup, if_neg (networkWait_ne _ _)]
  simp only [netdevSet, Network.setIf_ifs_self, Network.setIf_setIf, Network.puts_ifs, hfree]
  rfl

variable {n : ℕ}

/-- The entries before that of device `n` are in use. -/
lemma SetUp.allocated (h : SetUp block e net₀ net nodes n) :
    ∀ k < e.slot n, (net.ifs k).allocated ≠ 0 := by
  intro k hk
  rcases Nat.eq_zero_or_pos k with rfl | hpos
  · rw [h.lo.1]
    decide
  · obtain ⟨i, hi, ht, rfl⟩ := EthIfs.exists_slot hpos hk
    rw [(h.eth i hi ht).1]
    decide

/-- A device that is not in use. -/
lemma SetUp.skip (h : SetUp block e net₀ net nodes n) (ht : ¬e.Taken n) :
    SetUp block e net₀ net nodes (n + 1) := by
  have hslot := EthIfs.slot_succ_of_not_taken ht
  refine ⟨h.linked, h.short, hslot ▸ h.mallocs, fun i hi => h.polls i (by omega), h.lo,
    fun i hi hti => h.eth i ?_ hti, hslot ▸ h.free⟩
  have hne : i ≠ n := fun heq => ht (heq ▸ hti)
  omega

/-- The wait changes no list. -/
lemma SetUp.linked_waited (h : SetUp block e net₀ net nodes n) (hslot : e.slot n < 16) (p : LONG) :
    (net.waited F (e.slot n) p).Linked block {j | j < 16} nodes := by
  refine h.linked.congr rfl rfl fun j hj => ?_
  by_cases hjn : j = e.slot n
  · rw [hjn, h.free _ le_rfl hslot, Network.waited_ifs_self]
    rfl
  · rw [Network.waited_ifs_of_ne _ hjn]

lemma SetUp.nodes_nil (h : SetUp block e net₀ net nodes n) (hslot : e.slot n < 16) :
    nodes (e.slot n) = [] := by
  rw [(h.linked.lists.chain _ hslot).eq_nil_iff, h.free _ le_rfl hslot]
  rfl

/-- A device whose interface got its link-local address. -/
lemma SetUp.added (h : SetUp block e net₀ net nodes n) (hn : n < 16) (ht : e.Taken n)
    (hslot : e.slot n < 16) {net' : Network}
    (hm : MallocSucceeds block ((net.waited F (e.slot n) (e.ptr n)).mallocs + 1))
    (hlinked : net'.Linked block {j | j < 16} (Function.update nodes (e.slot n)
      (nodes (e.slot n) ++ [block (net.waited F (e.slot n) (e.ptr n)).mallocs])))
    (hadded : (net.waited F (e.slot n) (e.ptr n)).Added net' (e.slot n)
      (block (net.waited F (e.slot n) (e.ptr n)).mallocs)
      (netNode (linklocal (e.ifs n).addr) 64 NET_ADDR_IPV6_LOCAL)) :
    SetUp block e net₀ net' (Function.update nodes (e.slot n)
      (nodes (e.slot n) ++ [block (net.waited F (e.slot n) (e.ptr n)).mallocs])) (n + 1) := by
  have hnil := h.nodes_nil hslot
  have hother : ∀ j, j ≠ e.slot n → net'.ifs j = net.ifs j := fun j hj => by
    rw [hadded.ifs_of_ne hj]
    exact Network.waited_ifs_of_ne _ hj _
  have hfresh := (h.linked_waited (F := F) hslot (e.ptr n)).fresh hm
  have hentry : ∀ j, j < 16 → _ := fun j hj => hadded.map_entry hfresh hj
  refine ⟨hlinked, fun j hj => ?_, ?_, fun i hi hi16 => ?_, ?_, fun i hi hti => ?_,
    fun j hj hj16 => ?_⟩
  · by_cases hjn : j = e.slot n
    · rw [hjn, Function.update_self, hnil]
      exact le_rfl
    · rw [Function.update_of_ne hjn]
      exact h.short j hj
  · rw [hadded.mallocs, EthIfs.slot_succ_of_taken ht]
    exact congrArg (· + 1) h.mallocs
  · have hne : e.ptr i ≠ e.ptr n := by
      rw [Ne, e.ptr_inj hi16 hn]
      omega
    rw [hadded.polls, ← h.polls i (by omega) hi16]
    exact Function.update_of_ne hne _ _
  · rw [hother 0 (by rw [EthIfs.slot]; omega)]
    exact h.lo
  · by_cases hin : i = n
    · subst hin
      obtain ⟨p, hp⟩ := hadded.ifs_self
      rw [hp, Network.waited_ifs_self, hentry _ hslot, hnil, if_pos rfl]
      exact ⟨rfl, rfl, rfl, rfl⟩
    · have hlt : e.slot i < e.slot n := EthIfs.slot_lt_slot hti (by omega)
      obtain ⟨h₁, h₂, h₃, h₄⟩ := h.eth i (by omega) hti
      rw [hother _ hlt.ne, hentry _ (hlt.trans hslot), if_neg hlt.ne', List.append_nil]
      exact ⟨h₁, h₂, h₃, h₄⟩
  · rw [EthIfs.slot_succ_of_taken ht] at hj
    rw [hother j (by omega)]
    exact h.free j (by omega) hj16

/-- **An iteration of the loop** for a device, while there is an entry for it. -/
lemma networkSetupDev_spec (h : SetUp block e net₀ net nodes n) (hn : n < 16) (ht : e.Taken n)
    (hup : (e.ifs n).isUp ≠ 0) (hslot : e.slot n < 16)
    (hm : MallocSucceeds block (net₀.mallocs + 18)) :
    ∃ net' nodes', networkSetupDev block fuel F e net n = .ok net' ∧
      SetUp block e net₀ net' nodes' (n + 1) ∧
      net'.polls (e.ptr n) = (networkWait (F.isUp (e.ptr n)) 3 (net₀.polls (e.ptr n))).2 ∧
      text "online\n" <:+ net'.out := by
  have hmallocs := h.mallocs
  have hm₁ : MallocSucceeds block ((net.waited F (e.slot n) (e.ptr n)).mallocs + 1) :=
    hm.mono (show net.mallocs + 1 ≤ _ by omega)
  obtain ⟨net', hadd, hlinked, hadded⟩ := netdevAddIp6Address_spec fuel
    (h.linked_waited (F := F) hslot (e.ptr n)) hslot hm₁
    (by rw [h.nodes_nil hslot]; exact Nat.zero_le _) (linklocal (e.ifs n).addr) 64
    NET_ADDR_IPV6_LOCAL
  refine ⟨net', _, ?_, h.added hn ht hslot hm₁ hlinked hadded, ?_, ?_⟩
  · rw [networkSetupDev_eq hn ht hup hslot (h.free _ le_rfl hslot) h.allocated, netdevAddLinklocal,
      Network.waited_ifs_self, show (ethNetdev (e.ptr n)).physical = e.ptr n from rfl,
      e.deref_ptr hn, hadd]
    rfl
  · rw [hadded.polls, ← h.polls n le_rfl hn]
    exact Function.update_self _ _ _
  · rw [hadded.out]
    exact List.suffix_append _ _

end Rounds

/-! ## The loop -/

/-- The state before the loopback interface is made. -/
def Network.cleared (net : Network) : Network :=
  { net.puts (text "[network] setup\n") with
    mallocs := net.mallocs + 1
    ifs := fun i => if i < 16 then .zero else net.ifs i }

section Loop

variable (block : ℕ → LONG) (fuel : ℕ) (F : EthFns) (e : EthIfs) (net : Network)

/-- `network_setup` up to the iteration for device `n`. -/
def networkRounds (n : ℕ) : Except NetFault Network := do
  let net ← networkCreateLoopback block fuel net.cleared
  (List.range n).foldlM (networkSetupDev block fuel F e) net

/-- The listing of the interfaces. -/
def networkList (net : Network) (l : List ℕ) : Except NetFault Network :=
  l.foldlM (fun net i =>
    if (net.ifs i).allocated ≠ 0 then netdevPrint fuel F e net i else .ok net) net

lemma networkRounds_succ (n : ℕ) :
    networkRounds block fuel F e net (n + 1) =
      networkRounds block fuel F e net n >>= fun net => networkSetupDev block fuel F e net n := by
  rw [networkRounds, networkRounds, bind_assoc]
  refine congrArg _ (funext fun net => ?_)
  rw [List.range_succ, List.foldlM_append]
  refine congrArg _ (funext fun net => ?_)
  rw [List.foldlM_cons]
  simp

lemma networkSetup_eq (h : net.disable = 0) :
    networkSetup block fuel F e net =
      networkRounds block fuel F e net 16 >>=
        fun net => networkList fuel F e net (List.range 16) := by
  rw [networkSetup, if_neg (not_not.mpr h), networkRounds, bind_assoc]
  rfl

variable {block e net}

/-- **The loop over the devices**, as long as there are entries for them. -/
lemma networkRounds_spec (hup : ∀ i < 16, e.Taken i → (e.ifs i).isUp ≠ 0)
    (hm : MallocSucceeds block (net.mallocs + 18)) : ∀ n ≤ 16,
      (∀ i < n, e.Taken i → e.slot i < 16) →
      ∃ net' nodes, networkRounds block fuel F e net n = .ok net' ∧
        SetUp block e net net' nodes n
  | 0, _, _ => by
    have hclear : ∀ j < 16, net.cleared.ifs j = .zero := fun j hj => if_pos hj
    have hmallocs : net.cleared.mallocs = net.mallocs + 1 := rfl
    have hpolls : net.cleared.polls = net.polls := rfl
    obtain ⟨net', nodes, hloop, hset⟩ := networkCreateLoopback_spec fuel e hclear hmallocs hpolls
      (hm.mono (by omega))
    refine ⟨net', nodes, ?_, hset⟩
    rw [networkRounds, hloop]
    rfl
  | n + 1, hn, hslot => by
    obtain ⟨net', nodes, hrounds, hset⟩ :=
      networkRounds_spec hup hm n (by omega) fun i hi => hslot i (by omega)
    rw [networkRounds_succ, hrounds]
    by_cases ht : e.Taken n
    · obtain ⟨net'', nodes', hdev, hset', -⟩ := networkSetupDev_spec hset (by omega) ht
        (hup n (by omega) ht) (hslot n (by omega) ht) hm
      exact ⟨net'', nodes', hdev, hset'⟩
    · exact ⟨net', nodes, networkSetupDev_skip (by omega) ht, hset.skip ht⟩

/-- Without a free entry the null pointer is used as an interface. -/
lemma networkRounds_full (hup : ∀ i < 16, e.Taken i → (e.ifs i).isUp ≠ 0)
    (hm : MallocSucceeds block (net.mallocs + 18)) (hcount : ¬e.count ≤ 15) :
    networkRounds block fuel F e net 16 = .error .nullDevice := by
  obtain ⟨ht, hslot⟩ := EthIfs.taken_of_count hcount
  obtain ⟨net', nodes, hrounds, hset⟩ := networkRounds_spec fuel F hup hm 15 (by omega)
    fun i hi hti => hslot ▸ EthIfs.slot_lt_slot hti hi
  have hfull : ∀ k < 16, (net'.ifs k).allocated ≠ 0 := fun k hk => hset.allocated k (hslot ▸ hk)
  rw [networkRounds_succ, hrounds]
  exact networkSetupDev_full (by omega) ht hfull

/-! ## The listing -/

/-- The addresses of a list are shown. -/
lemma exists_shownAddrs {net : Network} {p : LONG} {l : List LONG} (h : Nodes net.next 0 p l) :
    ∀ {n : ℕ}, l.length < n → ∃ s, shownAddrs net.heap n p = some s := by
  induction l generalizing p with
  | nil =>
    intro n hn
    obtain ⟨n, rfl⟩ : ∃ m, n = m + 1 := Nat.exists_eq_succ_of_ne_zero (by omega)
    rw [shownAddrs, if_pos (nodes_nil.mp h)]
    exact ⟨_, rfl⟩
  | cons q l ih =>
    intro n hn
    rw [List.length_cons] at hn
    obtain ⟨n, rfl⟩ : ∃ m, n = m + 1 := Nat.exists_eq_succ_of_ne_zero (by omega)
    obtain ⟨rfl, hne, hrest⟩ := h
    obtain ⟨s, hs⟩ := ih hrest (n := n) (by omega)
    rw [Network.next] at hs
    rw [shownAddrs, if_neg hne, hs]
    exact ⟨_, rfl⟩

/-- Asking for the status changes the number of calls only. -/
lemma netdevGetStatus_frame (net : Network) (dev : Netdev) :
    (netdevGetStatus F e net dev).2.ifs = net.ifs ∧
    (netdevGetStatus F e net dev).2.heap = net.heap := by
  rw [netdevGetStatus]
  dsimp only
  split_ifs
  · exact ⟨rfl, rfl⟩
  · exact ⟨rfl, rfl⟩

lemma netdevPrint_frame {net : Network} {j : ℕ} {l : List LONG}
    (h : Nodes net.next 0 (net.ifs j).addresses l) (hl : l.length < fuel) :
    ∃ net', netdevPrint fuel F e net j = .ok net' ∧ net'.ifs = net.ifs ∧ net'.heap = net.heap := by
  obtain ⟨hifs, hheap⟩ := netdevGetStatus_frame F (e := e) net (net.ifs j)
  obtain ⟨s, hs⟩ := exists_shownAddrs h hl
  rw [netdevPrint]
  simp only [Network.puts, hheap, hs]
  exact ⟨_, rfl, hifs, rfl⟩

/-- The listing changes no interface and no address. -/
lemma networkList_frame : ∀ (l : List ℕ) (net : Network) (nodes : ℕ → List LONG),
    (∀ j ∈ l, Nodes net.next 0 (net.ifs j).addresses (nodes j) ∧ (nodes j).length < fuel) →
    ∃ net', networkList fuel F e net l = .ok net' ∧ net'.ifs = net.ifs ∧ net'.heap = net.heap
  | [], net, _, _ => ⟨net, rfl, rfl, rfl⟩
  | j :: l, net, nodes, h => by
    obtain ⟨⟨hchain, hlen⟩, hrest⟩ := List.forall_mem_cons.mp h
    rw [networkList, List.foldlM_cons]
    by_cases halloc : (net.ifs j).allocated = 0
    · rw [if_neg (not_not.mpr halloc)]
      exact networkList_frame l net nodes hrest
    · obtain ⟨net₁, hprint, hifs, hheap⟩ := netdevPrint_frame fuel F (e := e) hchain hlen
      obtain ⟨net', hlist, hifs', hheap'⟩ := networkList_frame l net₁ nodes (by
        rwa [hifs, Network.next_congr hheap])
      rw [if_pos halloc, hprint]
      exact ⟨net', hlist, hifs'.trans hifs, hheap'.trans hheap⟩

end Loop

/-! ## Every device -/

/-- Interface `j` is that of device `i`. -/
def Network.IfOf (net : Network) (e : EthIfs) (i j : ℕ) : Prop :=
  j < 16 ∧ (net.ifs j).allocated ≠ 0 ∧ (net.ifs j).iftype = NET_IF_ETHERNET ∧
    (net.ifs j).physical = e.ptr i

/-- There is a loopback interface, and every device has one interface, which is that of no other
device. -/
structure Network.Covers (net : Network) (e : EthIfs) : Prop where
  lo : ∃ j < 16, (net.ifs j).allocated ≠ 0 ∧ (net.ifs j).iftype = NET_IF_LOOPBACK
  eth : ∃ f : ℕ → ℕ, Set.InjOn f {i | i < 16 ∧ e.Taken i} ∧
    ∀ i < 16, e.Taken i → ∀ j, net.IfOf e i j ↔ j = f i

section Setup

variable {block : ℕ → LONG} {e : EthIfs} {net : Network}

/-- The interface of a device is at its entry. -/
lemma SetUp.ifOf_iff {net₀ : Network} {nodes : ℕ → List LONG}
    (h : SetUp block e net₀ net nodes 16) {i : ℕ} (hi : i < 16) (ht : e.Taken i)
    (hslot : e.slot i < 16) (j : ℕ) : net.IfOf e i j ↔ j = e.slot i := by
  constructor
  · rintro ⟨hj, halloc, htype, hphys⟩
    rcases Nat.eq_zero_or_pos j with rfl | hpos
    · rw [h.lo.2] at htype
      exact absurd htype (by decide)
    · by_cases hlt : j < e.slot 16
      · obtain ⟨k, hk, htk, rfl⟩ := EthIfs.exists_slot hpos hlt
        rw [(h.eth k hk htk).2.2.1, e.ptr_inj hk hi] at hphys
        rw [hphys]
      · rw [h.free j (by omega) hj] at halloc
        exact absurd rfl halloc
  · rintro rfl
    obtain ⟨halloc, htype, hphys, -⟩ := h.eth i hi ht
    refine ⟨hslot, ?_, htype, hphys⟩
    rw [halloc]
    decide

/-- **A run of `network_setup`** with at most 15 devices. -/
lemma networkSetup_spec {fuel : ℕ} (F : EthFns) (hdisable : net.disable = 0)
    (hup : ∀ i < 16, e.Taken i → (e.ifs i).isUp ≠ 0)
    (hm : MallocSucceeds block (net.mallocs + 18)) (hfuel : 2 ≤ fuel) (hcount : e.count ≤ 15) :
    ∃ net₁ nodes net', SetUp block e net net₁ nodes 16 ∧
      networkSetup block fuel F e net = .ok net' ∧ net'.ifs = net₁.ifs ∧ net'.heap = net₁.heap := by
  obtain ⟨net₁, nodes, hrounds, hset⟩ := networkRounds_spec fuel F hup hm 16 le_rfl
    fun i hi => EthIfs.slot_lt_of_count hcount hi
  obtain ⟨net', hlist, hifs, hheap⟩ := networkList_frame fuel F (e := e) (List.range 16) net₁ nodes
    fun j hj => by
      have hj := List.mem_range.mp hj
      exact ⟨hset.linked.lists.chain j hj, (hset.short j hj).trans_lt (by omega)⟩
  refine ⟨net₁, nodes, net', hset, ?_, hifs, hheap⟩
  rw [networkSetup_eq _ _ _ _ _ hdisable, hrounds]
  exact hlist

/-- **Every Ethernet device gets an interface**, and the null pointer is not used as one, iff there
are at most 15 devices. -/
theorem network_setup_covers_iff (block : ℕ → LONG) (fuel : ℕ) (F : EthFns) (e : EthIfs)
    (net : Network) (hdisable : net.disable = 0)
    (hup : ∀ i < 16, (e.ifs i).allocated ≠ 0 → (e.ifs i).isUp ≠ 0)
    (hm : MallocSucceeds block (net.mallocs + 18)) (hfuel : 2 ≤ fuel) :
    (∃ net', networkSetup block fuel F e net = .ok net' ∧ net'.Covers e) ↔ e.count ≤ 15 := by
  constructor
  · rintro ⟨net', hrun, -⟩
    by_contra hcount
    rw [networkSetup_eq _ _ _ _ _ hdisable, networkRounds_full fuel F hup hm hcount] at hrun
    cases hrun
  · intro hcount
    obtain ⟨net₁, nodes, net', hset, hrun, hifs, -⟩ :=
      networkSetup_spec F hdisable hup hm hfuel hcount
    refine ⟨net', hrun, ⟨0, by omega, ?_⟩, e.slot, ?_, fun i hi ht j => ?_⟩
    · rw [hifs, hset.lo.1, hset.lo.2]
      exact ⟨by decide, rfl⟩
    · rintro i ⟨-, ht⟩ k ⟨-, htk⟩ heq
      rcases Nat.lt_trichotomy i k with hlt | rfl | hlt
      · exact absurd heq (EthIfs.slot_lt_slot ht hlt).ne
      · rfl
      · exact absurd heq (EthIfs.slot_lt_slot htk hlt).ne'
    · rw [← hset.ifOf_iff hi ht (EthIfs.slot_lt_of_count hcount hi ht), Network.IfOf, hifs]
      rfl

/-- A table with the given devices in use, whose `is_up` functions are at address `1`. -/
def ethTable (used : ℕ → Bool) : EthIfs where
  base := 0x1000
  ifs := fun i => { Ethdev.zero with allocated := if used i then 1 else 0, isUp := 1 }
  base_ne_zero := by decide
  fits := by decide

/-- Devices whose link comes up at poll `up`. -/
def linkUpAt (up : ℕ) : EthFns where
  isUp := fun _ k => if k = up then 1 else 0
  isBroadcast := fun _ => 1
  isMulticast := fun _ => 1
  isPromisc := fun _ => 0

/-- Two devices. -/
theorem network_setup_covers_iff_two :
    ∃ net', networkSetup pageBlock 2 (linkUpAt 0) (ethTable fun i => i < 2) .boot = .ok net' ∧
      net'.Covers (ethTable fun i => i < 2) :=
  (network_setup_covers_iff pageBlock 2 (linkUpAt 0) (ethTable fun i => i < 2) .boot rfl
    (fun _ _ _ => by simp [ethTable]) (pageBlock_succeeds (by simp [Network.boot])) le_rfl).mpr
    (by decide)

/-- Sixteen devices: the last one is set up at the null pointer. -/
theorem network_setup_sixteen :
    networkSetup pageBlock 2 (linkUpAt 0) (ethTable fun _ => true) .boot = .error .nullDevice := by
  have hm : MallocSucceeds pageBlock (Network.boot.mallocs + 18) :=
    pageBlock_succeeds (by simp [Network.boot])
  rw [networkSetup_eq _ _ _ _ _ rfl,
    networkRounds_full 2 (linkUpAt 0) (fun _ _ _ => by simp [ethTable]) hm (by decide)]
  rfl

/-! ## Links -/

/-- Between two states, `is_up` was called for the device at `p` and answered that the link is
up. -/
def PolledUp (F : EthFns) (p : LONG) (net net' : Network) : Prop :=
  ∃ k, net.polls p ≤ k ∧ k < net'.polls p ∧ F.isUp p k ≠ 0

/-- The addresses of interface `j`. -/
def Network.Has (net : Network) (j : ℕ) (l : List (List BYTE × LONG)) : Prop :=
  ∃ nodes, Nodes net.next 0 (net.ifs j).addresses nodes ∧
    nodes.map (fun q => (net.heap q).entry) = l

/-- What the link of device `i`, with interface `j`, is polled for; `net₀` and `net₁` are the states
before and behind the iteration for the device, and `net'` is the one at the end. -/
structure LinkRight (F : EthFns) (e : EthIfs) (i j : ℕ) (net₀ net₁ net' : Network) : Prop where
  up : net'.Has j [linklocalEntry (e.ifs i)] ↔ PolledUp F (e.ptr i) net₀ net₁
  down : ¬PolledUp F (e.ptr i) net₀ net₁ → net'.Has j [] ∧ text "timed out\n" <:+ net₁.out

/-- Every device gets a link-local address and is reported to be online, whatever it answered. -/
lemma networkSetup_link {fuel : ℕ} (F : EthFns) (hdisable : net.disable = 0)
    (hup : ∀ i < 16, e.Taken i → (e.ifs i).isUp ≠ 0)
    (hm : MallocSucceeds block (net.mallocs + 18)) (hfuel : 2 ≤ fuel) (hcount : e.count ≤ 15) :
    ∃ net', networkSetup block fuel F e net = .ok net' ∧ ∀ i < 16, e.Taken i → ∃ net₀ net₁,
      networkRounds block fuel F e net i = .ok net₀ ∧
      networkSetupDev block fuel F e net₀ i = .ok net₁ ∧
      (∀ k, net'.IfOf e i k ↔ k = e.slot i) ∧
      net'.Has (e.slot i) [linklocalEntry (e.ifs i)] ∧ text "online\n" <:+ net₁.out ∧
      (PolledUp F (e.ptr i) net₀ net₁ ↔
        ∃ m < 4, F.isUp (e.ptr i) (net.polls (e.ptr i) + m) ≠ 0) := by
  obtain ⟨net₂, nodes, net', hset, hrun, hifs, hheap⟩ :=
    networkSetup_spec F hdisable hup hm hfuel hcount
  refine ⟨net', hrun, fun i hi ht => ?_⟩
  have hslot : ∀ k < 16, e.Taken k → e.slot k < 16 := fun k hk => EthIfs.slot_lt_of_count hcount hk
  obtain ⟨net₀, nodes₀, hrounds, hset₀⟩ := networkRounds_spec fuel F hup hm i (by omega)
    fun k hk => hslot k (by omega)
  obtain ⟨net₁, -, hdev, -, hpolls, hout⟩ := networkSetupDev_spec hset₀ hi ht (hup i hi ht)
    (hslot i hi ht) hm
  refine ⟨net₀, net₁, hrounds, hdev, fun k => ?_, ⟨nodes (e.slot i), ?_, ?_⟩, hout, ?_⟩
  · rw [← hset.ifOf_iff hi ht (hslot i hi ht), Network.IfOf, hifs]
    rfl
  · rw [Network.next_congr hheap, hifs]
    exact hset.linked.lists.chain _ (hslot i hi ht)
  · rw [hheap]
    exact (hset.eth i hi ht).2.2.2
  · rw [PolledUp, hpolls, hset₀.polls i le_rfl hi, networkWait_polled]
    exact exists_congr fun m => and_congr_left fun _ => by omega

/-- **Link-local addresses.** With at most 15 devices, a device gets a link-local address iff its
link was found up, and a timeout is reported otherwise, iff the link is up at one of the first four
polls. -/
theorem network_setup_link_iff (block : ℕ → LONG) (fuel : ℕ) (F : EthFns) (e : EthIfs)
    (net : Network) (hdisable : net.disable = 0) (hcount : e.count ≤ 15)
    (hup : ∀ i < 16, (e.ifs i).allocated ≠ 0 → (e.ifs i).isUp ≠ 0)
    (hm : MallocSucceeds block (net.mallocs + 18)) (hfuel : 2 ≤ fuel) :
    ∃ net', networkSetup block fuel F e net = .ok net' ∧
      ∀ i < 16, (e.ifs i).allocated ≠ 0 → ∃ net₀ net₁ j,
        networkRounds block fuel F e net i = .ok net₀ ∧
        networkSetupDev block fuel F e net₀ i = .ok net₁ ∧ (∀ k, net'.IfOf e i k ↔ k = j) ∧
        (LinkRight F e i j net₀ net₁ net' ↔
          ∃ m < 4, F.isUp (e.ptr i) (net.polls (e.ptr i) + m) ≠ 0) := by
  obtain ⟨net', hrun, hdevs⟩ := networkSetup_link F hdisable hup hm hfuel hcount
  refine ⟨net', hrun, fun i hi ht => ?_⟩
  obtain ⟨net₀, net₁, hrounds, hdev, hif, hhas, -, hpolled⟩ := hdevs i hi ht
  refine ⟨net₀, net₁, e.slot i, hrounds, hdev, hif, ?_⟩
  rw [← hpolled]
  constructor
  · exact fun h => h.up.mp hhas
  · exact fun h => ⟨iff_of_true hhas h, fun hnot => absurd h hnot⟩

/-- A device whose link comes up at the fourth poll. -/
theorem network_setup_link_iff_last_poll :
    ∃ net₀ net₁ net' j,
      networkRounds pageBlock 2 (linkUpAt 3) (ethTable fun i => i = 7) .boot 7 = .ok net₀ ∧
      networkSetupDev pageBlock 2 (linkUpAt 3) (ethTable fun i => i = 7) net₀ 7 = .ok net₁ ∧
      networkSetup pageBlock 2 (linkUpAt 3) (ethTable fun i => i = 7) .boot = .ok net' ∧
      LinkRight (linkUpAt 3) (ethTable fun i => i = 7) 7 j net₀ net₁ net' := by
  obtain ⟨net', hrun, hdevs⟩ := network_setup_link_iff pageBlock 2 (linkUpAt 3)
    (ethTable fun i => i = 7) .boot rfl (by decide) (fun _ _ _ => by simp [ethTable])
    (pageBlock_succeeds (by simp [Network.boot])) le_rfl
  obtain ⟨net₀, net₁, j, hrounds, hdev, -, hiff⟩ := hdevs 7 (by omega) (by decide)
  exact ⟨net₀, net₁, net', j, hrounds, hdev, hrun, hiff.mpr ⟨3, by omega, by decide⟩⟩

/-- A device whose link is down at all four polls: it is reported to be online, and gets a
link-local address. -/
theorem network_setup_link_down :
    ∃ net₀ net₁ net',
      networkRounds pageBlock 2 (linkUpAt 4) (ethTable fun i => i = 7) .boot 7 = .ok net₀ ∧
      networkSetupDev pageBlock 2 (linkUpAt 4) (ethTable fun i => i = 7) net₀ 7 = .ok net₁ ∧
      networkSetup pageBlock 2 (linkUpAt 4) (ethTable fun i => i = 7) .boot = .ok net' ∧
      ¬PolledUp (linkUpAt 4) ((ethTable fun i => i = 7).ptr 7) net₀ net₁ ∧
      text "online\n" <:+ net₁.out ∧
      net'.Has 1 [linklocalEntry ((ethTable fun i => i = 7).ifs 7)] ∧
      ¬LinkRight (linkUpAt 4) (ethTable fun i => i = 7) 7 1 net₀ net₁ net' := by
  have hm : MallocSucceeds pageBlock (Network.boot.mallocs + 18) :=
    pageBlock_succeeds (by simp [Network.boot])
  obtain ⟨net', hrun, hdevs⟩ := networkSetup_link (e := ethTable fun i => i = 7) (linkUpAt 4) rfl
    (fun _ _ _ => by simp [ethTable]) hm le_rfl (by decide)
  obtain ⟨net₀, net₁, hrounds, hdev, -, hhas, hout, hpolled⟩ := hdevs 7 (by omega) (by decide)
  have hslot : (ethTable fun i => i = 7).slot 7 = 1 := by decide
  rw [hslot] at hhas
  have hdown : ¬PolledUp (linkUpAt 4) ((ethTable fun i => i = 7).ptr 7) net₀ net₁ := by
    rw [hpolled]
    decide
  exact ⟨net₀, net₁, net', hrounds, hdev, hrun, hdown, hout, hhas, fun h => hdown (h.up.mp hhas)⟩

end Setup

end Korolev
