import Setka.Lib.NetworkOrder
import Setka.Net.AddressText

/-!
# Addresses for the sockets

`tcp_socket::open` and `udp_socket::send` write an address into a `sockaddr_storage`,
`make_ip_address` and `udp_socket::recieve` read it back.  An IPv6 host is written byte by byte or
as four words, as the operating system declares `in6_addr`.

* `s6Addr`, `u6Addr32`       the two ways to write a host, `ofS6Addr`, `ofU6Addr32` to read it;
* `openTarget`, `sendTarget`, `makeIpAddress`, `recieveAddress`   the functions;
* `get_s6Addr`, `get_toBytes_u6Addr32`   both ways write the bytes of the quads, the highest first;
* `sockaddr_exact`           what is written is read back, and the bytes of a text are written as
                             they were parsed.
-/

namespace Setka
open Word

/-! ## hosts in `in6_addr` -/

/-- `M_OS` and `M_OS_NAME`, as far as they are told apart -/
inductive Os where
  | macosx
  | windows
  | android
  | linux
deriving DecidableEq, Repr

namespace Os

/-- `in6_addr` is accessed by its bytes -/
def bytewise : Os → Bool
  | macosx | windows | android => true
  | linux => false

/-- `udp_socket::send` looks at the flag `ipv4` -/
def checksIpv4 : Os → Bool
  | macosx | windows => true
  | android | linux => false

end Os

namespace Ip

/-- `sin6_addr.s6_addr[0] = quad[0] >> 24`, and so on -/
def s6Addr (h : Ip) : Vector UInt8 16 :=
  #v[(h.q0 >>> 24).toUInt8, (h.q0 >>> 16 &&& 0xff).toUInt8, (h.q0 >>> 8 &&& 0xff).toUInt8,
    (h.q0 &&& 0xff).toUInt8,
    (h.q1 >>> 24).toUInt8, (h.q1 >>> 16 &&& 0xff).toUInt8, (h.q1 >>> 8 &&& 0xff).toUInt8,
    (h.q1 &&& 0xff).toUInt8,
    (h.q2 >>> 24).toUInt8, (h.q2 >>> 16 &&& 0xff).toUInt8, (h.q2 >>> 8 &&& 0xff).toUInt8,
    (h.q2 &&& 0xff).toUInt8,
    (h.q3 >>> 24).toUInt8, (h.q3 >>> 16 &&& 0xff).toUInt8, (h.q3 >>> 8 &&& 0xff).toUInt8,
    (h.q3 &&& 0xff).toUInt8]

def ofS6Addr (a : Vector UInt8 16) : Ip where
  q0 := a[0].toUInt32 <<< 24 ||| a[1].toUInt32 <<< 16 ||| a[2].toUInt32 <<< 8 ||| a[3].toUInt32
  q1 := a[4].toUInt32 <<< 24 ||| a[5].toUInt32 <<< 16 ||| a[6].toUInt32 <<< 8 ||| a[7].toUInt32
  q2 := a[8].toUInt32 <<< 24 ||| a[9].toUInt32 <<< 16 ||| a[10].toUInt32 <<< 8 ||| a[11].toUInt32
  q3 := a[12].toUInt32 <<< 24 ||| a[13].toUInt32 <<< 16 ||| a[14].toUInt32 <<< 8 ||| a[15].toUInt32

section
variable (net : NetworkOrder)

/-- `sin6_addr.__in6_u.__u6_addr32[0] = htonl(quad[0])`, and so on -/
def u6Addr32 (h : Ip) : Vector UInt32 4 :=
  #v[net.htonl h.q0, net.htonl h.q1, net.htonl h.q2, net.htonl h.q3]

def ofU6Addr32 (a : Vector UInt32 4) : Ip where
  q0 := net.ntohl a[0]
  q1 := net.ntohl a[1]
  q2 := net.ntohl a[2]
  q3 := net.ntohl a[3]

variable (os : Os)

/-- the bytes of `sin6_addr` -/
def sin6Addr (h : Ip) : Vector UInt8 16 :=
  if os.bytewise then h.s6Addr else net.toBytes (h.u6Addr32 net)

/-- the host in the bytes of `sin6_addr` -/
def ofSin6Addr (a : Vector UInt8 16) : Ip :=
  if os.bytewise then ofS6Addr a else ofU6Addr32 net (net.toWords a)

end
end Ip

/-! ## addresses in `sockaddr_storage` -/

/-- a `sockaddr_storage` filled as `sockaddr_in` or as `sockaddr_in6`, the other fields zero -/
inductive SockaddrStorage where
  | inet (sinPort : UInt16) (sAddr : UInt32)
  | inet6 (sin6Port : UInt16) (sin6Addr : Vector UInt8 16)
deriving DecidableEq

/-- `sizeof(sockaddr_in)` and `sizeof(sockaddr_in6)` -/
inductive SockaddrSize where
  | sockaddrIn
  | sockaddrIn6
deriving DecidableEq, Repr

/-- the size of the structure that is filled -/
def SockaddrStorage.size : SockaddrStorage → SockaddrSize
  | inet .. => .sockaddrIn
  | inet6 .. => .sockaddrIn6

/-- what is given to `connect` and to `sendto` -/
structure Target where
  sockAddr : SockaddrStorage
  sockAddrLen : SockaddrSize

section
variable (net : NetworkOrder) (os : Os)

def sockaddrIn (a : Address) : SockaddrStorage :=
  .inet (net.htons a.port) (net.htonl a.host.getV4)

def sockaddrIn6 (a : Address) : SockaddrStorage :=
  .inet6 (net.htons a.port) (a.host.sin6Addr net os)

/-- `tcp_socket::open` -/
def openTarget (ip : Address) : Target where
  sockAddr := if ip.host.isV4 then sockaddrIn net ip else sockaddrIn6 net os ip
  sockAddrLen := if ip.host.isV4 then .sockaddrIn else .sockaddrIn6

/-- `udp_socket::send` -/
def sendTarget (ipv4 : Bool) (destinationAddress : Address) : Target :=
  if (!os.checksIpv4 || ipv4) && destinationAddress.host.isV4 then
    ⟨sockaddrIn net destinationAddress, .sockaddrIn⟩
  else
    ⟨sockaddrIn6 net os destinationAddress, .sockaddrIn6⟩

def addressOfSockaddr : SockaddrStorage → Address
  | .inet sinPort sAddr => ⟨.ofV4 (net.ntohl sAddr), net.ntohs sinPort⟩
  | .inet6 sin6Port sin6Addr => ⟨.ofSin6Addr net os sin6Addr, net.ntohs sin6Port⟩

def makeIpAddress (addr : SockaddrStorage) : Address := addressOfSockaddr net os addr

/-- `out_sender_address` of `udp_socket::recieve` -/
def recieveAddress (sockAddr : SockaddrStorage) : Address := addressOfSockaddr net os sockAddr

end

/-! ## the bytes of a host -/

theorem toUInt8_and (x : UInt32) : (x &&& 0xff).toUInt8 = x.toUInt8 := by
  rw [← UInt8.toNat_inj, UInt32.toNat_toUInt8, UInt32.toNat_toUInt8, UInt32.toNat_and]
  change (x.toNat &&& 2 ^ 8 - 1) % 2 ^ 8 = _
  rw [Nat.and_two_pow_sub_one_eq_mod, Nat.mod_mod]

namespace Ip

def quads (h : Ip) : Vector UInt32 4 := #v[h.q0, h.q1, h.q2, h.q3]

/-- the bytes of a quad, the highest first -/
def bytes (h : Ip) (k : Fin 4) : Fin 4 → UInt8 := bytesBE (h.quads.get k)

variable (net : NetworkOrder) (os : Os) (h : Ip)

/-- Written byte by byte, the quads lie one after the other with their highest bytes first. -/
theorem get_s6Addr (k j : Fin 4) : h.s6Addr.get (Fin.mkDivMod k j) = h.bytes k j := by
  unfold s6Addr
  simp only [toUInt8_and]
  match k with
  | 0 | 1 | 2 | 3 =>
    match j with
    | 0 | 1 | 2 | 3 => rfl

/-- Written as words, they lie in the same way on every machine. -/
theorem get_toBytes_u6Addr32 (k j : Fin 4) :
    (net.toBytes (h.u6Addr32 net)).get (Fin.mkDivMod k j) = h.bytes k j := by
  have hword : (h.u6Addr32 net).get k = net.htonl (h.quads.get k) := by
    match k with
    | 0 | 1 | 2 | 3 => rfl
  rw [net.get_toBytes, hword, net.store_htonl]
  rfl

theorem toBytes_u6Addr32 : net.toBytes (h.u6Addr32 net) = h.s6Addr :=
  blocks_ext (m := 4) (n := 4) fun k j =>
    (h.get_toBytes_u6Addr32 net k j).trans (h.get_s6Addr k j).symm

theorem sin6Addr_eq : h.sin6Addr net os = h.s6Addr := by
  unfold sin6Addr
  rw [toBytes_u6Addr32, ite_self]

/-- Reading byte by byte gives back the words whose bytes were written. -/
theorem ofS6Addr_s6Addr : ofS6Addr h.s6Addr = h := by
  let word := fun b : Fin 4 → UInt8 => (b 0).toUInt32 <<< 24 ||| (b 1).toUInt32 <<< 16 |||
    (b 2).toUInt32 <<< 8 ||| (b 3).toUInt32
  have hword : ∀ k : Fin 4, word (fun j => h.s6Addr.get (Fin.mkDivMod k j)) = h.quads.get k := by
    intro k
    rw [funext (h.get_s6Addr k)]
    exact (wordBE_shifts _).trans (wordBE_bytesBE _)
  exact (Ip.mk.injEq _ _ _ _ _ _ _ _).mpr ⟨hword 0, hword 1, hword 2, hword 3⟩

theorem ofSin6Addr_sin6Addr : ofSin6Addr net os (h.sin6Addr net os) = h := by
  unfold ofSin6Addr sin6Addr
  cases os.bytewise with
  | true => exact ofS6Addr_s6Addr h
  | false =>
    change ofU6Addr32 net (net.toWords (net.toBytes (h.u6Addr32 net))) = h
    rw [net.toWords_toBytes]
    change Ip.mk (net.ntohl (net.htonl h.q0)) (net.ntohl (net.htonl h.q1))
      (net.ntohl (net.htonl h.q2)) (net.ntohl (net.htonl h.q3)) = h
    rw [net.ntohl_htonl, net.ntohl_htonl, net.ntohl_htonl, net.ntohl_htonl]

/-- The constructor from sixteen bytes puts the highest byte of each quad first. -/
theorem bytes_ofBytes (b : Fin 16 → UInt8) (k j : Fin 4) :
    (ofBytes b).bytes k j = b (Fin.mkDivMod k j) := by
  have hquad : ∀ c : Fin 4 → UInt8, bytesBE (((c 0).toUInt16 <<< 8 ||| (c 1).toUInt16).toUInt32 <<<
      16 ||| ((c 2).toUInt16 <<< 8 ||| (c 3).toUInt16).toUInt32) = c := by
    intro c
    rw [← bytesBE_wordBE c]
    refine congrArg bytesBE (UInt32.toNat_inj.mp ?_)
    rw [bytesBE_wordBE, toNat_wordBE, quad_of_groups, group_of_bytes, group_of_bytes]
    omega
  match k with
  | 0 => exact congrFun (hquad fun j => b (Fin.mkDivMod (0 : Fin 4) j)) j
  | 1 => exact congrFun (hquad fun j => b (Fin.mkDivMod (1 : Fin 4) j)) j
  | 2 => exact congrFun (hquad fun j => b (Fin.mkDivMod (2 : Fin 4) j)) j
  | 3 => exact congrFun (hquad fun j => b (Fin.mkDivMod (3 : Fin 4) j)) j

theorem s6Addr_ofBytes (b : Fin 16 → UInt8) : (ofBytes b).s6Addr = Vector.ofFn b :=
  blocks_ext (m := 4) (n := 4) fun k j => by
    rw [get_s6Addr, bytes_ofBytes]
    exact (Vector.getElem_ofFn _).symm

end Ip

/-! ## what is read back -/

section
variable (net : NetworkOrder) (os : Os) (a : Address)

theorem addressOfSockaddr_sockaddrIn6 : addressOfSockaddr net os (sockaddrIn6 net os a) = a := by
  change Address.mk (.ofSin6Addr net os (a.host.sin6Addr net os)) (net.ntohs (net.htons a.port)) = a
  rw [Ip.ofSin6Addr_sin6Addr, net.ntohs_htons]

/-- An IPv4 address loses nothing but the prefix of the mapped addresses. -/
theorem addressOfSockaddr_sockaddrIn (hv : a.host.isV4 = true) :
    addressOfSockaddr net os (sockaddrIn net a) = a := by
  change Address.mk (.ofV4 (net.ntohl (net.htonl a.host.getV4))) (net.ntohs (net.htons a.port)) = a
  rw [net.ntohl_htonl, net.ntohs_htons, Ip.ofV4_getV4 hv]

theorem addressOfSockaddr_openTarget :
    addressOfSockaddr net os (openTarget net os a).sockAddr = a := by
  unfold openTarget
  dsimp only
  split_ifs with hv
  · exact addressOfSockaddr_sockaddrIn net os a hv
  · exact addressOfSockaddr_sockaddrIn6 net os a

theorem addressOfSockaddr_sendTarget (ipv4 : Bool) :
    addressOfSockaddr net os (sendTarget net os ipv4 a).sockAddr = a := by
  unfold sendTarget
  split_ifs with hv
  · exact addressOfSockaddr_sockaddrIn net os a (Bool.and_eq_true_iff.mp hv).2
  · exact addressOfSockaddr_sockaddrIn6 net os a

end

/-- **Addresses and the kernel:** what is written for an address is read back as that address, both
ways to write a host give the same bytes, and the bytes that a text stands for are the bytes that
are written for the host parsed from it. -/
theorem sockaddr_exact (net : NetworkOrder) (os : Os) :
    (∀ a : Address, makeIpAddress net os (openTarget net os a).sockAddr = a ∧
      recieveAddress net os (openTarget net os a).sockAddr = a ∧ ∀ ipv4,
        makeIpAddress net os (sendTarget net os ipv4 a).sockAddr = a ∧
        recieveAddress net os (sendTarget net os ipv4 a).sockAddr = a) ∧
      (∀ h : Ip, h.s6Addr = net.toBytes (h.u6Addr32 net)) ∧
      ∀ (pton : InetPton) (str : List Char) (port : UInt16),
        (Ip.parseV6 pton str).map (fun h => sockaddrIn6 net os ⟨h, port⟩) =
          (pton.v6 str).map fun b => .inet6 (net.htons port) (Vector.ofFn b) := by
  refine ⟨fun a => ?_, fun h => (h.toBytes_u6Addr32 net).symm, fun pton str port => ?_⟩
  · have hopen := addressOfSockaddr_openTarget net os a
    have hsend := addressOfSockaddr_sendTarget net os a
    exact ⟨hopen, hopen, fun ipv4 => ⟨hsend ipv4, hsend ipv4⟩⟩
  · have hhost : ∀ b, sockaddrIn6 net os ⟨.ofBytes b, port⟩ =
        .inet6 (net.htons port) (Vector.ofFn b) := by
      intro b
      unfold sockaddrIn6
      rw [Ip.sin6Addr_eq, Ip.s6Addr_ofBytes]
    unfold Ip.parseV6
    rw [Option.map_map]
    exact congrArg (fun f => (pton.v6 str).map f) (funext hhost)

/-- the address 127.0.0.1, port 80, on a machine that stores the lowest byte first -/
theorem sockaddr_exact_loopback : recieveAddress .littleEndian .linux
    (sendTarget .littleEndian .linux true ⟨.ofV4 0x7f000001, 80⟩).sockAddr =
      ⟨.ofV4 0x7f000001, 80⟩ :=
  (((sockaddr_exact .littleEndian .linux).1 ⟨.ofV4 0x7f000001, 80⟩).2.2 true).2

example : (openTarget .bigEndian .linux ⟨.ofV4 0x7f000001, 80⟩).sockAddr = .inet 80 0x7f000001 ∧
    (openTarget .littleEndian .linux ⟨.ofV4 0x7f000001, 80⟩).sockAddr = .inet 0x5000 0x0100007f :=
  ⟨rfl, rfl⟩

end Setka
