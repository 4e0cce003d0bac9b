import Mathlib.Data.Nat.Bitwise
import Mathlib.Data.UInt

/-!
# Bringing up the network

`lwip_comm_init` of `user/bsp/bsp_enet.c` with what it uses of lwIP : `netif_add`,
`netif_set_up` and the DHCP client of `core/ipv4/dhcp.c`, as far as received frames drive it.
The timers of the client do not run during the wait, because the main loop has not started
yet, so they are not modelled, and memory for a client and its messages is always found.

The interface is not up when `dhcp_start` is called, which therefore refuses it. No message
is sent, and every server waits in vain (`not_initialises`). Setting the interface up first
would not be enough : the client checks an acknowledged address by ARP and binds it when a
timer fires (`wait_ipAddr`).
-/

namespace Gd32Firmware

/-! ## The stack -/

/-- The states of the DHCP client that occur. -/
inductive DhcpState where
  | off
  | requesting
  | init
  | rebooting
  | rebinding
  | renewing
  | selecting
  | checking
  | bound
  | backingOff
  deriving DecidableEq, Repr

/-- A `struct dhcp`, without its timers. -/
structure Dhcp where
  xid : UInt32
  state : DhcpState
  tries : UInt8
  serverIpAddr : UInt32
  offeredIpAddr : UInt32
  offeredSnMask : UInt32
  offeredGwAddr : UInt32
  subnetMaskGiven : Bool

/-- A `struct netif`, with the client attached to it. -/
structure Netif where
  ipAddr : UInt32
  netmask : UInt32
  gw : UInt32
  mtu : UInt16
  flags : UInt8
  dhcp : Option Dhcp

def netifFlagUp : UInt8 := 0x01
def netifFlagBroadcast : UInt8 := 0x02
def netifFlagLinkUp : UInt8 := 0x04
def netifFlagEtharp : UInt8 := 0x08

def Netif.isUp (netif : Netif) : Bool :=
  netif.flags &&& netifFlagUp ≠ 0

def Netif.isLinkUp (netif : Netif) : Bool :=
  netif.flags &&& netifFlagLinkUp ≠ 0

/-- What the client sends. -/
inductive DhcpSent where
  | discover (xid : UInt32)
  | request (xid requestedIp serverId : UInt32)
  | decline (xid requestedIp : UInt32)
  deriving DecidableEq, Repr

/-- A reply to this client, with the options that it reads. -/
inductive DhcpReply where
  | offer (xid yiaddr : UInt32) (serverId : Option UInt32)
  | ack (xid yiaddr : UInt32) (subnetMask router : Option UInt32)
  | nak (xid : UInt32)
  deriving DecidableEq, Repr

/-- A frame that arrives. -/
inductive Frame where
  | dhcp (reply : DhcpReply)
  | arpReply (addr : UInt32)
  | other
  deriving DecidableEq, Repr

/-- The interface, the last transaction identifier, and what was sent. -/
structure Stack where
  netif : Netif
  xid : UInt32
  sent : List DhcpSent

/-- `err_t`. -/
inductive ErrT where
  | ok
  | mem
  | buf
  | timeout
  | rte
  | inProgress
  | val
  | wouldBlock
  | use
  | already
  | isConn
  | conn
  | ifErr
  | abrt
  | rst
  | clsd
  | arg
  deriving DecidableEq, Repr

/-! ## The DHCP client -/

/-- `netif_set_addr`. -/
def Netif.setAddr (netif : Netif) (ipAddr netmask gw : UInt32) : Netif :=
  { netif with ipAddr := ipAddr, netmask := netmask, gw := gw }

/-- `dhcp_set_state`. -/
def Dhcp.setState (dhcp : Dhcp) (newState : DhcpState) : Dhcp :=
  if newState ≠ dhcp.state then { dhcp with state := newState, tries := 0 } else dhcp

/-- Every attempt is counted, up to 255. -/
def Dhcp.countTry (dhcp : Dhcp) : Dhcp :=
  if dhcp.tries < 255 then { dhcp with tries := dhcp.tries + 1 } else dhcp

/-- `dhcp_create_msg` for a message that is not a request : a first try gets a new identifier. -/
def Stack.createMsg (s : Stack) (dhcp : Dhcp) : Stack × Dhcp :=
  let xid := if dhcp.tries = 0 then s.xid + 1 else s.xid
  ({ s with xid := xid }, { dhcp with xid := xid })

/-- Attach the client. -/
def Stack.setDhcp (s : Stack) (dhcp : Dhcp) : Stack :=
  { s with netif := { s.netif with dhcp := some dhcp } }

def Stack.send (s : Stack) (message : DhcpSent) : Stack :=
  { s with sent := s.sent ++ [message] }

def dhcpDiscover (s : Stack) (dhcp : Dhcp) : Stack :=
  let dhcp := ({ dhcp with offeredIpAddr := 0 } : Dhcp).setState .selecting
  let (s, dhcp) := s.createMsg dhcp
  (s.send (.discover dhcp.xid)).setDhcp dhcp.countTry

/-- `dhcp_select` reuses the identifier of the offer. -/
def dhcpSelect (s : Stack) (dhcp : Dhcp) : Stack :=
  let dhcp := dhcp.setState .requesting
  (s.send (.request dhcp.xid dhcp.offeredIpAddr dhcp.serverIpAddr)).setDhcp dhcp.countTry

def dhcpHandleOffer (s : Stack) (dhcp : Dhcp) (yiaddr : UInt32) : Option UInt32 → Stack
  | some serverId =>
    dhcpSelect s { dhcp with serverIpAddr := serverId, offeredIpAddr := yiaddr }
  | none => s

def dhcpHandleAck (dhcp : Dhcp) (yiaddr : UInt32) (subnetMask router : Option UInt32) : Dhcp :=
  { dhcp with
    offeredIpAddr := yiaddr
    offeredSnMask := subnetMask.getD 0
    subnetMaskGiven := subnetMask.isSome
    offeredGwAddr := router.getD 0 }

/-- `dhcp_check` asks by ARP whether the address is in use. -/
def dhcpCheck (s : Stack) (dhcp : Dhcp) : Stack :=
  s.setDhcp (dhcp.setState .checking).countTry

/-- The mask of a network class, for a server that gives none. -/
def classMask (ipAddr : UInt32) : UInt32 :=
  let firstOctet := ipAddr.toUInt8
  if firstOctet ≤ 127 then 0x000000FF else if firstOctet ≥ 192 then 0x00FFFFFF else 0x0000FFFF

def dhcpBind (s : Stack) (dhcp : Dhcp) : Stack :=
  let snMask := if dhcp.subnetMaskGiven then dhcp.offeredSnMask else classMask dhcp.offeredIpAddr
  let s := s.setDhcp (dhcp.setState .bound)
  { s with netif := s.netif.setAddr dhcp.offeredIpAddr snMask dhcp.offeredGwAddr }

def dhcpHandleNak (s : Stack) (dhcp : Dhcp) : Stack :=
  dhcpDiscover { s with netif := s.netif.setAddr 0 0 0 } (dhcp.setState .backingOff)

def dhcpDecline (s : Stack) (dhcp : Dhcp) : Stack :=
  let (s, dhcp) := s.createMsg (dhcp.setState .backingOff)
  (s.send (.decline dhcp.xid dhcp.offeredIpAddr)).setDhcp dhcp.countTry

/-- `dhcp_recv`, after its checks of the header. -/
def dhcpRecv (s : Stack) (dhcp : Dhcp) : DhcpReply → Stack
  | .ack xid yiaddr subnetMask router =>
    if xid ≠ dhcp.xid then s
    else
      let acked := dhcpHandleAck dhcp yiaddr subnetMask router
      match dhcp.state with
      | .requesting =>
        if s.netif.flags &&& netifFlagEtharp ≠ 0 then dhcpCheck s acked else dhcpBind s acked
      | .rebooting | .rebinding | .renewing => dhcpBind s acked
      | _ => s
  | .nak xid =>
    if xid ≠ dhcp.xid then s
    else
      match dhcp.state with
      | .rebooting | .requesting | .rebinding | .renewing => dhcpHandleNak s dhcp
      | _ => s
  | .offer xid yiaddr serverId =>
    if xid ≠ dhcp.xid then s
    else if dhcp.state = .selecting then dhcpHandleOffer s dhcp yiaddr serverId
    else s

def dhcpArpReply (s : Stack) (dhcp : Dhcp) (addr : UInt32) : Stack :=
  if dhcp.state = .checking ∧ addr = dhcp.offeredIpAddr then dhcpDecline s dhcp else s

/-- What a frame does : nothing to an interface without a client. -/
def Stack.input (s : Stack) (frame : Frame) : Stack :=
  match s.netif.dhcp, frame with
  | none, _ | _, .other => s
  | some dhcp, .dhcp reply => dhcpRecv s dhcp reply
  | some dhcp, .arpReply addr => dhcpArpReply s dhcp addr

/-- `dhcp_start`. -/
def dhcpStart (s : Stack) : Stack × ErrT :=
  if ¬ s.netif.isUp then (s, .arg)
  else if s.netif.mtu < 576 then (s, .mem)
  else
    let dhcp : Dhcp := ⟨0, .off, 0, 0, 0, 0, 0, false⟩
    if ¬ s.netif.isLinkUp then (s.setDhcp (dhcp.setState .init), .ok)
    else (dhcpDiscover s dhcp, .ok)

/-! ## The initialisation -/

/-- `low_level_init`, which `ethernetif_init` calls. -/
def lowLevelInit (netif : Netif) : Netif :=
  { netif with
    mtu := 1500
    flags := netifFlagBroadcast ||| netifFlagEtharp ||| netifFlagLinkUp }

/-- `netif_add` with `ethernetif_init`. -/
def netifAdd (netif : Netif) (ipAddr netmask gw : UInt32) : Netif :=
  lowLevelInit
    (({ netif with mtu := 0, flags := 0, dhcp := none } : Netif).setAddr ipAddr netmask gw)

def netifSetUp (netif : Netif) : Netif :=
  { netif with flags := netif.flags ||| netifFlagUp }

/-- Four bytes of an address. -/
structure Octets where
  b₀ : UInt8
  b₁ : UInt8
  b₂ : UInt8
  b₃ : UInt8
  deriving DecidableEq, Repr

/-- `IP4_ADDR` : the first byte is the lowest one in memory. -/
def ip4Addr (o : Octets) : UInt32 :=
  o.b₀.toUInt32 ||| o.b₁.toUInt32 <<< 8 ||| o.b₂.toUInt32 <<< 16 ||| o.b₃.toUInt32 <<< 24

/-- The bytes of an address, as `lwip_comm_init` takes them apart. -/
def octets (addr : UInt32) : Octets :=
  ⟨addr.toUInt8, (addr >>> 8).toUInt8, (addr >>> 16).toUInt8, (addr >>> 24).toUInt8⟩

/-- The addresses in `lwipdev`. -/
structure LwipDev where
  ip : Octets
  netmask : Octets
  gateway : Octets
  deriving DecidableEq, Repr

/-- `lwip_comm_default_ip_set`. -/
def lwipCommDefaultIpSet : LwipDev :=
  { ip := ⟨192, 168, 1, 123⟩, netmask := ⟨255, 255, 255, 0⟩, gateway := ⟨192, 168, 1, 1⟩ }

/-- The frames that arrive in each of the waits of 10 ms, given what was sent before. -/
abbrev Network := ℕ → List DhcpSent → List Frame

/-- The loop that waits for an address. -/
def waitLoop (network : Network) : ℕ → ℕ → Stack → Stack
  | 0, _, s => s
  | n + 1, jj, s =>
    let s := (network jj s.sent).foldl Stack.input s
    if s.netif.ipAddr ≠ 0 then s else waitLoop network n (jj + 1) s

/-- The end of `lwip_comm_init` : take over the leased address or the static one. -/
def adoptAddress (s : Stack) (lwipdev : LwipDev) : Stack × LwipDev :=
  let adopted : Netif × LwipDev :=
    if s.netif.ipAddr ≠ 0 then
      (s.netif, { lwipdev with
        ip := octets s.netif.ipAddr
        netmask := octets s.netif.netmask
        gateway := octets s.netif.gw })
    else
      ({ s.netif with
         ipAddr := ip4Addr lwipdev.ip
         netmask := ip4Addr lwipdev.netmask
         gw := ip4Addr lwipdev.gateway }, lwipdev)
  ({ s with netif := netifSetUp adopted.1 }, adopted.2)

/-- `lwip_comm_init` up to the end of the wait. -/
def afterWait (network : Network) (s : Stack) : Stack :=
  let s := { s with netif := netifAdd s.netif 0 0 0 }
  waitLoop network 3000 0 (dhcpStart s).1

def lwipCommInit (network : Network) (s : Stack) : Stack × LwipDev :=
  adoptAddress (afterWait network s) lwipCommDefaultIpSet

/-! ## What the initialisation promises -/

/-- What a server leases. -/
structure Lease where
  ip : UInt32
  netmask : UInt32
  gw : UInt32

/-- The server answers a DISCOVER with an offer and a REQUEST with an acknowledgement, in the
next wait. -/
def Prompt (network : Network) (server : UInt32) (lease : Lease) : Prop :=
  ∀ jj sent,
    (∀ xid, sent.getLast? = some (.discover xid) →
      .dhcp (.offer xid lease.ip (some server)) ∈ network jj sent) ∧
    (∀ xid ip id, sent.getLast? = some (.request xid ip id) →
      .dhcp (.ack xid lease.ip (some lease.netmask) (some lease.gw)) ∈ network jj sent)

/-- The client is bound, to the address, mask and gateway of the lease. -/
def HoldsLease (netif : Netif) (lease : Lease) : Prop :=
  (∃ dhcp, netif.dhcp = some dhcp ∧ dhcp.state = .bound) ∧
    netif.ipAddr = lease.ip ∧ netif.netmask = lease.netmask ∧ netif.gw = lease.gw

/-- The interface has the addresses of `lwipdev`. -/
def Matches (netif : Netif) (lwipdev : LwipDev) : Prop :=
  netif.ipAddr = ip4Addr lwipdev.ip ∧ netif.netmask = ip4Addr lwipdev.netmask ∧
    netif.gw = ip4Addr lwipdev.gateway

/-- The lease is installed, static addresses only if none arrived, and `lwipdev` agrees. -/
structure Initialises (network : Network) (start : Stack) (lease : Lease) : Prop where
  lease : HoldsLease (lwipCommInit network start).1.netif lease
  defaults : Matches (lwipCommInit network start).1.netif lwipCommDefaultIpSet →
    (afterWait network start).netif.ipAddr = 0
  device : Matches (lwipCommInit network start).1.netif (lwipCommInit network start).2

/-! ## The end of the wait -/

/-- An address is put together from its bytes. -/
theorem ip4Addr_octets (addr : UInt32) : ip4Addr (octets addr) = addr := by
  apply UInt32.toNat_inj.1
  apply Nat.eq_of_testBit_eq
  intro i
  have hhigh (hi : 32 ≤ i) : addr.toNat.testBit i = false :=
    Nat.testBit_lt_two_pow (addr.toNat_lt.trans_le (Nat.pow_le_pow_right (by omega) hi))
  simp only [ip4Addr, octets, UInt32.toNat_or, UInt32.toNat_shiftLeft, UInt8.toNat_toUInt32,
    UInt32.toNat_toUInt8, UInt32.toNat_shiftRight, Nat.testBit_or, Nat.testBit_mod_two_pow,
    Nat.testBit_shiftLeft, Nat.testBit_shiftRight, UInt32.reduceToNat, Nat.reduceMod]
  -- the bit is in one of the four bytes, or in none
  obtain h | ⟨h, h'⟩ | ⟨h, h'⟩ | ⟨h, h'⟩ | h : i < 8 ∨ (8 ≤ i ∧ i < 16) ∨ (16 ≤ i ∧ i < 24) ∨
      (24 ≤ i ∧ i < 32) ∨ 32 ≤ i := by omega
  case' inr.inr.inr.inr => rw [hhigh h]
  all_goals simp (disch := omega) [decide_eq_false, decide_eq_true]

/-- Whatever arrived during the wait, the interface and `lwipdev` agree in the end. -/
theorem adoptAddress_matches (s : Stack) (lwipdev : LwipDev) :
    Matches (adoptAddress s lwipdev).1.netif (adoptAddress s lwipdev).2 := by
  unfold adoptAddress
  split_ifs with h
  · exact ⟨(ip4Addr_octets _).symm, (ip4Addr_octets _).symm, (ip4Addr_octets _).symm⟩
  · exact ⟨rfl, rfl, rfl⟩

/-! ## The wait without a client -/

theorem input_of_none {s : Stack} (hs : s.netif.dhcp = none) (frame : Frame) :
    s.input frame = s := by
  simp [Stack.input, hs]

/-- Nothing that arrives changes an interface without a client. -/
theorem waitLoop_of_none (network : Network) {s : Stack} (hs : s.netif.dhcp = none) (n jj : ℕ) :
    waitLoop network n jj s = s := by
  have hinput (frames : List Frame) : frames.foldl Stack.input s = s := by
    induction frames with
    | nil => rfl
    | cons frame frames ih => rw [List.foldl_cons, input_of_none hs, ih]
  induction n generalizing jj with
  | zero => rfl
  | succ n ih => simp [waitLoop, hinput, ih]

/-- A new interface is not up, -/
theorem netifAdd_isUp (netif : Netif) (ipAddr netmask gw : UInt32) :
    (netifAdd netif ipAddr netmask gw).isUp = false := by
  show decide ((netifFlagBroadcast ||| netifFlagEtharp ||| netifFlagLinkUp) &&& netifFlagUp ≠ 0) =
    false
  decide

/-- so the client is refused. -/
theorem dhcpStart_of_not_isUp {s : Stack} (hs : s.netif.isUp = false) :
    dhcpStart s = (s, .arg) := by
  simp [dhcpStart, hs]

theorem afterWait_eq (network : Network) (s : Stack) :
    afterWait network s = { s with netif := netifAdd s.netif 0 0 0 } := by
  let added : Stack := { s with netif := netifAdd s.netif 0 0 0 }
  have hstart : dhcpStart added = (added, .arg) :=
    dhcpStart_of_not_isUp (netifAdd_isUp s.netif 0 0 0)
  have hnone : added.netif.dhcp = none := rfl
  show waitLoop network 3000 0 (dhcpStart added).1 = added
  rw [hstart, waitLoop_of_none network hnone]

/-! ## The wait with a client

The interface answers ARP, so an acknowledged address is checked, and only a timer ends the
check. -/

/-- The client has not come to use an address. -/
def DhcpState.Waits (state : DhcpState) : Prop :=
  state = .off ∨ state = .init ∨ state = .selecting ∨ state = .requesting ∨ state = .checking ∨
    state = .backingOff

/-- The interface has no address, and its client waits. -/
structure Unbound (netif : Netif) : Prop where
  ipAddr : netif.ipAddr = 0
  etharp : netif.flags &&& netifFlagEtharp ≠ 0
  waits : ∀ dhcp, netif.dhcp = some dhcp → dhcp.state.Waits

@[simp] theorem Dhcp.setState_state (dhcp : Dhcp) (state : DhcpState) :
    (dhcp.setState state).state = state := by
  unfold Dhcp.setState
  split_ifs with h <;> simp_all

@[simp] theorem Dhcp.countTry_state (dhcp : Dhcp) : dhcp.countTry.state = dhcp.state := by
  unfold Dhcp.countTry
  split_ifs <;> rfl

/-- Attaching a client that waits keeps the interface unbound. -/
theorem Unbound.attach {netif : Netif} (h : Unbound netif) {dhcp : Dhcp}
    (hdhcp : dhcp.state.Waits) : Unbound { netif with dhcp := some dhcp } :=
  ⟨h.ipAddr, h.etharp, fun _ hsome => Option.some.inj hsome ▸ hdhcp⟩

theorem Unbound.discover {s : Stack} (hs : Unbound s.netif) (dhcp : Dhcp) :
    Unbound (dhcpDiscover s dhcp).netif := by
  exact hs.attach (by simp [DhcpState.Waits])

/-- No reply binds an address. -/
theorem Unbound.recv {s : Stack} (hs : Unbound s.netif) {dhcp : Dhcp} (hdhcp : dhcp.state.Waits)
    (reply : DhcpReply) : Unbound (dhcpRecv s dhcp reply).netif := by
  cases reply with
  | offer xid yiaddr serverId =>
    simp only [dhcpRecv]
    split_ifs
    · exact hs
    · cases serverId with
      | none => exact hs
      | some serverId =>
        exact hs.attach (by simp [DhcpState.Waits])
    · exact hs
  | ack xid yiaddr subnetMask router =>
    simp only [dhcpRecv, if_pos hs.etharp]
    split_ifs
    · exact hs
    · rcases hdhcp with h | h | h | h | h | h <;> simp only [h]
      any_goals exact hs
      exact hs.attach (by simp [DhcpState.Waits])
  | nak xid =>
    simp only [dhcpRecv]
    split_ifs
    · exact hs
    · rcases hdhcp with h | h | h | h | h | h <;> simp only [h]
      any_goals exact hs
      have hcleared : Unbound (s.netif.setAddr 0 0 0) := ⟨rfl, hs.etharp, hs.waits⟩
      exact Unbound.discover (s := { s with netif := s.netif.setAddr 0 0 0 }) hcleared _

/-- No frame does. -/
theorem Unbound.input {s : Stack} (hs : Unbound s.netif) (frame : Frame) :
    Unbound (s.input frame).netif := by
  cases hdhcp : s.netif.dhcp with
  | none => rwa [input_of_none hdhcp]
  | some dhcp =>
    have hwaits := hs.waits dhcp hdhcp
    simp only [Stack.input, hdhcp]
    cases frame with
    | other => exact hs
    | dhcp reply => exact hs.recv hwaits reply
    | arpReply addr =>
      simp only [dhcpArpReply]
      split_ifs
      · exact hs.attach (by simp [DhcpState.Waits])
      · exact hs

/-- The wait ends without an address, whatever the server answers. -/
theorem wait_ipAddr (network : Network) (n jj : ℕ) {s : Stack} (hs : Unbound s.netif) :
    (waitLoop network n jj s).netif.ipAddr = 0 := by
  have hinput (frames : List Frame) {s : Stack} (hs : Unbound s.netif) :
      Unbound (frames.foldl Stack.input s).netif := by
    induction frames generalizing s with
    | nil => exact hs
    | cons frame frames ih => exact ih (hs.input frame)
  induction n generalizing jj s with
  | zero => exact hs.ipAddr
  | succ n ih =>
    have hs' := hinput (network jj s.sent) hs
    rw [waitLoop, if_neg (by simp [hs'.ipAddr])]
    exact ih (jj + 1) hs'

/-- A client that was started waits. -/
theorem Unbound.start {s : Stack} (hs : Unbound s.netif) : Unbound (dhcpStart s).1.netif := by
  simp only [dhcpStart]
  split_ifs
  · exact hs
  · exact hs.discover _
  · exact hs.attach (by simp [DhcpState.Waits])
  · exact hs

/-- An interface that is set up before `dhcp_start` waits in vain, too. -/
theorem wait_of_isUp (network : Network) (s : Stack) :
    let up := { s with netif := netifSetUp (netifAdd s.netif 0 0 0) }
    (waitLoop network 3000 0 (dhcpStart up).1).netif.ipAddr = 0 := by
  intro up
  have hup : Unbound up.netif := ⟨rfl, by
    show (netifFlagBroadcast ||| netifFlagEtharp ||| netifFlagLinkUp ||| netifFlagUp) &&&
      netifFlagEtharp ≠ 0
    decide, fun _ h => nomatch h⟩
  exact wait_ipAddr network 3000 0 hup.start

/-! ## The result -/

/-- No server ever leases an address : nothing is sent to it, and the static addresses are
installed. -/
theorem not_initialises (network : Network) (start : Stack) (lease : Lease) :
    ¬ Initialises network start lease ∧
      (lwipCommInit network start).1.sent = start.sent ∧
      Matches (lwipCommInit network start).1.netif lwipCommDefaultIpSet ∧
      Matches (lwipCommInit network start).1.netif (lwipCommInit network start).2 := by
  have hdhcp : (lwipCommInit network start).1.netif.dhcp = none := by
    rw [lwipCommInit, afterWait_eq]
    rfl
  refine ⟨fun h => ?_, ?_, ?_, adoptAddress_matches _ _⟩
  · obtain ⟨dhcp, hsome, -⟩ := h.lease.1
    rw [hdhcp] at hsome
    simp at hsome
  · rw [lwipCommInit, afterWait_eq]
    rfl
  · rw [lwipCommInit, afterWait_eq]
    exact ⟨rfl, rfl, rfl⟩

/-- A server that answers every message at once. -/
def promptServer (server : UInt32) (lease : Lease) : Network := fun _ sent =>
  match sent.getLast? with
  | some (.discover xid) => [.dhcp (.offer xid lease.ip (some server))]
  | some (.request xid _ _) =>
    [.dhcp (.ack xid lease.ip (some lease.netmask) (some lease.gw))]
  | _ => []

/-- It does not lease its address, to an interface that starts from zero. -/
theorem not_initialises_promptServer :
    let lease : Lease := ⟨0x0501A8C0, 0x00FFFFFF, 0x0101A8C0⟩
    let start : Stack := ⟨⟨0, 0, 0, 0, 0, none⟩, 0xABCD0000, []⟩
    Prompt (promptServer 0x0101A8C0 lease) 0x0101A8C0 lease ∧
      ¬ Initialises (promptServer 0x0101A8C0 lease) start lease := by
  intro lease start
  constructor
  · intro jj sent
    constructor
    · intro xid hlast
      simp [promptServer, hlast]
    · intro xid ip id hlast
      simp [promptServer, hlast]
  · intro h
    obtain ⟨dhcp, hsome, -⟩ := h.lease.1
    rw [lwipCommInit, afterWait_eq] at hsome
    exact nomatch hsome

end Gd32Firmware
