import Mathlib.Data.Nat.Notation

/-!
# IP addresses

`setka::address::ip` holds an IPv6 address as four 32-bit quads; an IPv4 address is stored as
IPv4 mapped to IPv6.  `setka::address` is a host with a port.
-/

namespace Setka

/-- `address::ip`: the quads of the IPv6 address -/
structure Ip where
  q0 : UInt32
  q1 : UInt32
  q2 : UInt32
  q3 : UInt32
deriving DecidableEq, Repr

namespace Ip

/-- `address::ip(uint32_t h)`: IPv4 mapped to IPv6 -/
def ofV4 (h : UInt32) : Ip := ⟨0, 0, 0xffff, h⟩

def isV4 (h : Ip) : Bool := h.q2 == 0xffff && h.q1 == 0 && h.q0 == 0

def getV4 (h : Ip) : UInt32 := h.q3

def isValid (h : Ip) : Bool :=
  if h.isV4 then h.getV4 != 0
  else h.q3 != 0 || h.q2 != 0 || h.q1 != 0 || h.q0 != 0

end Ip

structure Address where
  host : Ip
  port : UInt16
deriving DecidableEq, Repr

/-- `address(uint32_t(0), 0)`: the address that stands for "not given" -/
def Address.unset : Address := ⟨Ip.ofV4 0, 0⟩

end Setka
