import Korolev.Libc.String
import Korolev.Library.NodeList
import Korolev.Net.Ethernet
import Korolev.Net.Ipv6

set_option relaxedAutoImplicit false
set_option autoImplicit false

/-!
# Network interfaces

`net/network.c` has a table of 16 network interfaces. An interface has a list of addresses, which
are blocks of their own, linked through `next`. `network_setup` makes the loopback interface and one
interface for every Ethernet device, waits for the link of the device, gives it a link-local
address, and lists the interfaces at the end.

The address lists are followed without a bound. The functions that follow them take one, and report
it if the list did not end within it. What `malloc` returns is a parameter: `block k` is the address
that call number `k` returns, counted from the start of the system. So are the answers of the
functions of the Ethernet devices. `sleep` changes nothing of the state, and is left out.

## Main definitions

* `Korolev.NetNode`, `Korolev.Netdev`, `Korolev.Network` — an address, an interface, and the state.
* `Korolev.NetFault` — what keeps a function from returning.
* `Korolev.MallocSucceeds` — what is asked of `malloc`.
* `Korolev.netdevAddIp6Address`, `Korolev.netdevAddLinklocal`, `Korolev.netdevAllocate`,
  `Korolev.netdevFree`, `Korolev.netdevPrint`, `Korolev.networkCreateLoopback`,
  `Korolev.networkSetup` — the functions.
-/

namespace Korolev

open Bytes

/-! ## The state -/

def NET_ADDR_IPV6 : LONG := 1

def NET_ADDR_IPV6_UNI : LONG := 0

def NET_ADDR_IPV6_LOCAL : LONG := 1

def NET_ADDR_IPV6_LOOP : LONG := 2

def NET_IF_ETHERNET : LONG := 1

def NET_IF_VSWITCH : LONG := 2

def NET_IF_LOOPBACK : LONG := 3

/-- `netdev_addr` -/
structure NetNode extends NetdevAddr where
  addrtype : LONG
  attr : LONG
  next : LONG

/-- An address as `kmemset` leaves it. -/
def NetNode.zero : NetNode := ⟨⟨fun _ => 0, fun _ => 0⟩, 0, 0, 0⟩

/-- `netdev` -/
structure Netdev where
  allocated : LONG
  name : ℕ → BYTE
  up : LONG
  iftype : LONG
  addresses : LONG
  physical : LONG
  master : LONG

/-- An interface as `kmemset` leaves it. -/
def Netdev.zero : Netdev := ⟨0, fun _ => 0, 0, 0, 0, 0, 0⟩

/-- The globals of `net/network.c` with the entries of `net_ifs`, the addresses by the blocks they
are in, the number of calls of `malloc` so far and the number of calls of `is_up` for every device,
and what was put to the console. -/
structure Network where
  disable : LONG
  ifs : ℕ → Netdev
  heap : LONG → NetNode
  mallocs : ℕ
  polls : LONG → ℕ
  out : List BYTE

/-- What keeps a function from returning: it uses the null pointer as an interface, or calls it, or
it follows a list that does not end within the bound. -/
inductive NetFault where
  | nullDevice
  | nullFunction
  | unfinished
  deriving DecidableEq

/-- What the functions of the device at an address answer; `is_up` is asked more than once. -/
structure EthFns where
  isUp : LONG → ℕ → LONG
  isBroadcast : LONG → LONG
  isMulticast : LONG → LONG
  isPromisc : LONG → LONG

/-- The first `n` calls of `malloc` return blocks: none is at address `0`, and no two of them have
one of their first 44 bytes, the size of an address, in common. -/
def MallocSucceeds (block : ℕ → LONG) (n : ℕ) : Prop :=
  ∀ k < n, block k ≠ 0 ∧ ∀ j < k,
    (block j).toNat + 44 ≤ (block k).toNat ∨ (block k).toNat + 44 ≤ (block j).toNat

/-- Blocks of different calls are different. -/
lemma MallocSucceeds.ne {block : ℕ → LONG} {n j k : ℕ} (h : MallocSucceeds block n) (hk : k < n)
    (hjk : j < k) : block j ≠ block k := by
  intro heq
  rcases (h k hk).2 j hjk with h | h
  · rw [heq] at h
    omega
  · rw [heq] at h
    omega

namespace Network

/-- The state before `network_setup`. -/
def boot : Network where
  disable := 0
  ifs := fun _ => .zero
  heap := fun _ => .zero
  mallocs := 0
  polls := fun _ => 0
  out := []

/-- The link of the address in a block. -/
def next (net : Network) (p : LONG) : LONG := (net.heap p).next

/-- The state with a changed interface. -/
def setIf (net : Network) (i : ℕ) (dev : Netdev) : Network :=
  { net with ifs := Function.update net.ifs i dev }

/-- `puts(s)` -/
def puts (net : Network) (s : List BYTE) : Network := { net with out := net.out ++ s }

@[simp] lemma puts_ifs (net : Network) (s : List BYTE) : (net.puts s).ifs = net.ifs := rfl

@[simp] lemma setIf_ifs_self (net : Network) (i : ℕ) (dev : Netdev) :
    (net.setIf i dev).ifs i = dev := Function.update_self _ _ _

lemma setIf_ifs_of_ne (net : Network) {i j : ℕ} (h : j ≠ i) (dev : Netdev) :
    (net.setIf i dev).ifs j = net.ifs j := Function.update_of_ne h _ _

@[simp] lemma setIf_setIf (net : Network) (i : ℕ) (dev dev' : Netdev) :
    (net.setIf i dev).setIf i dev' = net.setIf i dev' := by
  simp [setIf]

end Network

/-- The bytes of a string literal. -/
def text (s : String) : List BYTE := s.toList.map fun c => c.toNat.toUInt8

/-- The name of an interface, as `puts` shows it. -/
def Netdev.shownName (dev : Netdev) : List BYTE := (toList dev.name 0 32).takeWhile fun c => c ≠ 0

/-! ## Addresses -/

/-- The stores to the mask: the index and the byte. -/
def maskStores (len : LONG) : List (ℕ × BYTE) :=
  let fb := len / 8
  let rb := len - fb * 8
  ((List.range fb.toNat).map fun i => (i, (0xff : BYTE))) ++
    if rb ≠ 0 then [(fb.toNat, (((1 : LONG) <<< (8 - rb)) - 1).toUInt8)] else []

/-- The block of a new address, as `netdev_add_ip6_address` fills it. -/
def netNode (address : ℕ → BYTE) (len attr : LONG) : NetNode :=
  let addr := NetNode.zero
  let addr := { addr with addr := memcpy addr.addr 0 address 0 16 }
  let addr := { addr with
    mask := (maskStores len).foldl (fun mask (st : ℕ × BYTE) => Function.update mask st.1 st.2)
      addr.mask }
  { addr with addrtype := NET_ADDR_IPV6, attr := attr }

section Functions

variable (block : ℕ → LONG) (fuel : ℕ)

/-- The part of `netdev_add_ip6_address` that fills a new block. -/
def Network.newAddr (net : Network) (addr : NetNode) : Network :=
  { net with
    mallocs := net.mallocs + 1
    heap := Function.update net.heap (block net.mallocs) addr }

/-- The part of `netdev_add_ip6_address` that links a block into the list of an interface. -/
def netdevLink (net : Network) (dev : ℕ) (addr : LONG) : Except NetFault Network :=
  if (net.ifs dev).addresses ≠ 0 then
    match NodeList.last net.next 0 fuel (net.ifs dev).addresses with
    | none => .error .unfinished
    | some lastAddr => .ok { net with
        heap := Function.update net.heap lastAddr { net.heap lastAddr with next := addr } }
  else .ok (net.setIf dev { net.ifs dev with addresses := addr })

/-- `netdev_add_ip6_address(net_ifs + dev, address, len, attr)`: the block, and the state. -/
def netdevAddIp6Address (net : Network) (dev : ℕ) (address : ℕ → BYTE) (len attr : LONG) :
    Except NetFault (LONG × Network) := do
  let addr := block net.mallocs
  let net ← netdevLink fuel (net.newAddr block (netNode address len attr)) dev addr
  return (addr, net)

/-- The address `netdev_add_linklocal` makes from that of a device, with the bytes of a word
swapped. -/
def linklocal (mac : Fin 6 → BYTE) : ℕ → BYTE
  | 0 => 0x80
  | 1 => 0xfe
  | 10 => mac ⟨1, by decide⟩
  | 11 => mac ⟨0, by decide⟩
  | 12 => mac ⟨3, by decide⟩
  | 13 => mac ⟨2, by decide⟩
  | 14 => mac ⟨5, by decide⟩
  | 15 => mac ⟨4, by decide⟩
  | _ => 0

/-- `netdev_add_linklocal(net_ifs + dev)` -/
def netdevAddLinklocal (e : EthIfs) (net : Network) (dev : ℕ) : Except NetFault Network := do
  let ethdev := e.deref (net.ifs dev).physical
  let r ← netdevAddIp6Address block fuel net dev (linklocal ethdev.addr) 64 NET_ADDR_IPV6_LOCAL
  return r.2

/-- `netdev_free(net_ifs + dev)`: the blocks passed to `free`, in order, and the state. `free` does
not change them. -/
def netdevFree (net : Network) (dev : ℕ) : Except NetFault (List LONG × Network) :=
  if (net.ifs dev).addresses ≠ 0 then
    match NodeList.release net.next 0 fuel (net.ifs dev).addresses with
    | none => .error .unfinished
    | some freed => .ok (freed, net.setIf dev .zero)
  else .ok ([], net.setIf dev .zero)

/-! ## Interfaces -/

/-- `netdev_allocate()`: the index of the entry and the state; `none` is `NULL`. -/
def netdevAllocate (net : Network) : Option ℕ × Network :=
  match (List.range 16).find? fun i => (net.ifs i).allocated = 0 with
  | some i => (some i, net.setIf i { net.ifs i with allocated := 1 })
  | none => (none, net)

/-- `netdev_set(net_ifs + dev, state)` -/
def netdevSet (net : Network) (dev : ℕ) (state : LONG) : Network :=
  net.setIf dev { net.ifs dev with up := state }

/-- The address of the loopback interface, with the bytes of a word swapped. -/
def loopback : ℕ → BYTE := Function.update (fun _ => 0) 14 1

/-- `network_create_loopback()` -/
def networkCreateLoopback (net : Network) : Except NetFault Network :=
  let net := net.puts (text "[network] creating loopback\n")
  match netdevAllocate net with
  | (none, _) => .error .nullDevice
  | (some dev, net) => do
    let name := strncpy (net.ifs dev).name 0 (ofList (text "lo")) 0 32
    let net := net.setIf dev { net.ifs dev with name := name }
    let net := netdevSet net dev 1
    let net := net.setIf dev { net.ifs dev with iftype := NET_IF_LOOPBACK }
    let r ← netdevAddIp6Address block fuel net dev loopback 64 NET_ADDR_IPV6_LOOP
    return r.2

/-- The loop `while(!pdev->is_up(pdev) && s)`, with `k` the number of calls of `is_up` so far: the
value of `s` behind it, and the number of calls. -/
def networkWait (isUp : ℕ → LONG) : (s k : ℕ) → LONG × ℕ
  | 0, k => (0, k + 1)
  | s + 1, k =>
    if isUp k = 0 then networkWait isUp s (k + 1) else (UInt32.ofNat (s + 1), k + 1)

/-- The body of the loop of `network_setup` over the Ethernet devices. -/
def networkSetupDev (F : EthFns) (e : EthIfs) (net : Network) (i : ℕ) : Except NetFault Network :=
  let pdev := ethernetGetdev e i
  if pdev = 0 then .ok net
  else
    match netdevAllocate net with
    | (none, _) => .error .nullDevice
    | (some dev, net) =>
      let name := strncpy (net.ifs dev).name 0 (ofList (text "eth")) 0 32
      let net := net.setIf dev { net.ifs dev with
        name := name, iftype := NET_IF_ETHERNET, physical := pdev }
      let net := netdevSet net dev 1
      let net := net.puts (text "[")
      let net := net.puts (net.ifs dev).shownName
      let net := net.puts (text "] waiting for link...")
      if (e.deref pdev).isUp = 0 then .error .nullFunction
      else
        let r := networkWait (F.isUp pdev) 3 (net.polls pdev)
        let net := { net with polls := Function.update net.polls pdev r.2 }
        if r.1 = 0xffffffff then .ok (net.puts (text "timed out\n"))
        else netdevAddLinklocal block fuel e (net.puts (text "online\n")) dev

/-! ## The listing -/

def NET_IF_STA_UP : LONG := (1 : LONG) <<< 0

def NET_IF_STA_BROADCAST : LONG := (1 : LONG) <<< 1

def NET_IF_STA_MULTICAST : LONG := (1 : LONG) <<< 2

def NET_IF_STA_PROMISC : LONG := (1 : LONG) <<< 3

def NET_IF_STA_SLAVE : LONG := (1 : LONG) <<< 4

def NET_IF_STA_LOWER_UP : LONG := (1 : LONG) <<< 5

/-- The interface has an Ethernet device behind it. -/
def Netdev.IsEth (dev : Netdev) : Prop :=
  dev.iftype = NET_IF_ETHERNET ∨ dev.iftype = NET_IF_VSWITCH

instance (dev : Netdev) : Decidable dev.IsEth := inferInstanceAs (Decidable (_ ∨ _))

/-- `netdev_get_mtu(dev)` -/
def netdevGetMtu (e : EthIfs) (dev : Netdev) : LONG :=
  if dev.IsEth then (e.deref dev.physical).mtu else 0

/-- `if(f) if(f(phys)) status |= bit;` for the function at address `f` -/
def statusBit (status f answer bit : LONG) : LONG :=
  if f ≠ 0 ∧ answer ≠ 0 then status ||| bit else status

/-- `netdev_get_status(dev)`: the status, and the state with the call of `is_up`. -/
def netdevGetStatus (F : EthFns) (e : EthIfs) (net : Network) (dev : Netdev) : LONG × Network :=
  let phys := dev.physical
  let p := e.deref phys
  let status : LONG :=
    if dev.IsEth then
      let status := statusBit 0 p.isUp (F.isUp phys (net.polls phys)) NET_IF_STA_LOWER_UP
      let status := statusBit status p.isBroadcast (F.isBroadcast phys) NET_IF_STA_BROADCAST
      let status := statusBit status p.isMulticast (F.isMulticast phys) NET_IF_STA_MULTICAST
      statusBit status p.isPromisc (F.isPromisc phys) NET_IF_STA_PROMISC
    else 0
  let net :=
    if dev.IsEth ∧ p.isUp ≠ 0 then
      { net with polls := Function.update net.polls phys (net.polls phys + 1) }
    else net
  let status := if dev.up ≠ 0 then status ||| NET_IF_STA_UP else status
  let status := if dev.master ≠ 0 then status ||| NET_IF_STA_SLAVE else status
  (status, net)

/-- `put_hwaddr(b)` -/
def putHwaddr (b : Fin 6 → BYTE) : List BYTE :=
  (List.finRange 6).flatMap fun i =>
    (if b i = 0 then [0x30] else []) ++ putn16 (b i).toUInt32 ++ if i.val ≠ 5 then [0x3a] else []

/-- What `netdev_print` shows of an address. -/
def shownAddr (addr : NetNode) : List BYTE :=
  if addr.addrtype = NET_ADDR_IPV6 then
    text "\n    inet6 " ++ networkPrintIpv6 addr.toNetdevAddr ++ text " scope " ++
      if addr.attr = NET_ADDR_IPV6_UNI then text "global\n"
      else if addr.attr = NET_ADDR_IPV6_LOCAL then text "local\n"
      else if addr.attr = NET_ADDR_IPV6_LOOP then text "host\n"
      else []
  else []

/-- `while(addr) { …; addr = addr->next; }`, if it ends within `n` tests. -/
def shownAddrs (heap : LONG → NetNode) : (n : ℕ) → LONG → Option (List BYTE)
  | 0, _ => none
  | n + 1, addr =>
    if addr = 0 then some []
    else (shownAddrs heap n (heap addr).next).map (shownAddr (heap addr) ++ ·)

/-- `netdev_print(net_ifs + dev)` -/
def netdevPrint (F : EthFns) (e : EthIfs) (net : Network) (dev : ℕ) : Except NetFault Network :=
  let d := net.ifs dev
  let r := netdevGetStatus F e net d
  let status := r.1
  let on (bit : LONG) (s : List BYTE) : List BYTE := if status &&& bit ≠ 0 then s else []
  let net := r.2
  let net := net.puts (d.shownName ++ text ": <" ++ on NET_IF_STA_UP (text "UP") ++
    on NET_IF_STA_BROADCAST (text ",BROADCAST") ++ on NET_IF_STA_MULTICAST (text ",MULTICAST") ++
    on NET_IF_STA_PROMISC (text ",PROMISC") ++ on NET_IF_STA_SLAVE (text ",SLAVE") ++
    on NET_IF_STA_LOWER_UP (text ",LOWER_UP"))
  let net := net.puts (text "> mtu " ++ putn10 (netdevGetMtu e d) ++ text " state " ++
    if status &&& NET_IF_STA_UP ≠ 0 then text "UP" else text "DOWN")
  let net := net.puts (text "\n    link/" ++
    if d.IsEth then text "ether " ++ putHwaddr (e.deref d.physical).addr else text "unknown")
  match shownAddrs net.heap fuel d.addresses with
  | none => .error .unfinished
  | some addrs => .ok (net.puts (addrs ++ text "\n"))

/-- `network_setup()` -/
def networkSetup (F : EthFns) (e : EthIfs) (net : Network) : Except NetFault Network :=
  if net.disable ≠ 0 then .ok net
  else do
    let net := net.puts (text "[network] setup\n")
    -- the table is a new block, cleared
    let net := { net with
      mallocs := net.mallocs + 1
      ifs := fun i => if i < 16 then .zero else net.ifs i }
    let net ← networkCreateLoopback block fuel net
    let net ← (List.range 16).foldlM (networkSetupDev block fuel F e) net
    (List.range 16).foldlM (fun net i =>
      if (net.ifs i).allocated ≠ 0 then netdevPrint fuel F e net i else .ok net) net

end Functions

end Korolev
