import Mathlib.Algebra.Group.Nat.Defs
import Setka.Net.Sockets

/-!
# Sending and receiving without blocking

What `send` and `recieve` of `tcp_socket` and `udp_socket` have in common: the test that the socket
is open, the readiness flag that is cleared, the loop around the system call, and the length the
system call is given.  A call in progress is a state of the socket object, so that the rest of the
world can move between two turns of the loop.

* `beginSend`, `beginRecieveTcp`, `beginRecieveUdp`   the functions up to their loops;
* `turn`             one turn of the loop, by what the system call returned;
* `askedLength`      `int(buf.size())` as the system call gets it, and when it is inside of the
                     buffer.
-/

namespace Setka

/-- `readiness_flags` of the socket -/
structure Ready where
  read : Bool := false
  write : Bool := false
  error : Bool := false
deriving DecidableEq, Repr

/-! ## socket objects -/

/-- The call in progress, `dest` for where it sends.  `beyond` is what lies in memory behind the
buffer.  `ready` is the readiness flag at the start of the call; the code does not keep it. -/
inductive SocketCall (τ : Type) where
  | idle
  | sending (buf beyond : List UInt8) (dest : τ) (ready : Bool)
  | receiving (size : ℕ) (ready : Bool)
deriving DecidableEq

/-- the members of a socket object that `send` and `recieve` use, and its call in progress -/
structure Endpoint (τ : Type) where
  sock : ℤ := invalidSocket
  flags : Ready := {}
  call : SocketCall τ := .idle
deriving DecidableEq

/-- `std::logic_error` of a socket that is not open, and `std::system_error` -/
inductive TransferError where
  | notOpen
  | system
deriving DecidableEq, Repr

namespace Endpoint
variable {τ : Type}

def isOpen (x : Endpoint τ) : Bool := x.sock ≠ invalidSocket

def clearRead (x : Endpoint τ) : Endpoint τ := { x with flags := { x.flags with read := false } }

def clearWrite (x : Endpoint τ) : Endpoint τ := { x with flags := { x.flags with write := false } }

def withCall (x : Endpoint τ) (c : SocketCall τ) : Endpoint τ := { x with call := c }

/-- `socket::close` -/
def close (x : Endpoint τ) : Endpoint τ := { x with flags := {}, sock := invalidSocket }

/-- The wait set sets flags; none is cleared. -/
def mark (x : Endpoint τ) (f : Ready) : Endpoint τ :=
  { x with flags := ⟨x.flags.read || f.read, x.flags.write || f.write, x.flags.error || f.error⟩ }

end Endpoint

/-! ## the functions up to their loops -/

section
variable {τ : Type}

def ensureOpen : EStateM TransferError (Endpoint τ) Unit := do
  if (← get).isOpen then pure () else throw .notOpen

/-- `tcp_socket::send` and `udp_socket::send` up to the loop -/
def beginSend (buf beyond : List UInt8) (dest : τ) : EStateM TransferError (Endpoint τ) Unit := do
  let ready := (← get).flags.write
  ensureOpen
  modify Endpoint.clearWrite
  modify (Endpoint.withCall · (.sending buf beyond dest ready))

/-- `tcp_socket::recieve` up to the loop: the flag is cleared even if the socket is not open -/
def beginRecieveTcp (size : ℕ) : EStateM TransferError (Endpoint τ) Unit := do
  let ready := (← get).flags.read
  modify Endpoint.clearRead
  ensureOpen
  modify (Endpoint.withCall · (.receiving size ready))

/-- `udp_socket::recieve` up to the loop -/
def beginRecieveUdp (size : ℕ) : EStateM TransferError (Endpoint τ) Unit := do
  let ready := (← get).flags.read
  ensureOpen
  modify Endpoint.clearRead
  modify (Endpoint.withCall · (.receiving size ready))

variable {x : Endpoint τ} {buf beyond : List UInt8} {dest : τ} {size : ℕ}

theorem ensureOpen_open (h : x.isOpen = true) : ensureOpen x = .ok () x := by
  show (if x.isOpen = true then _ else _ : EStateM _ _ _) x = _
  rw [h]
  rfl

theorem ensureOpen_closed (h : x.isOpen = false) : ensureOpen x = .error .notOpen x := by
  show (if x.isOpen = true then _ else _ : EStateM _ _ _) x = _
  rw [h]
  rfl

theorem beginSend_open (h : x.isOpen = true) : beginSend buf beyond dest x =
    .ok () (x.clearWrite.withCall (.sending buf beyond dest x.flags.write)) :=
  EStateM.bind_of_ok (x := get) rfl |>.trans (EStateM.bind_of_ok (ensureOpen_open h))

theorem beginSend_closed (h : x.isOpen = false) :
    beginSend buf beyond dest x = .error .notOpen x :=
  EStateM.bind_of_ok (x := get) rfl |>.trans (EStateM.bind_of_error (ensureOpen_closed h))

theorem beginRecieveTcp_open (h : x.isOpen = true) : beginRecieveTcp size x =
    .ok () (x.clearRead.withCall (.receiving size x.flags.read)) :=
  EStateM.bind_of_ok (x := get) rfl |>.trans (EStateM.bind_of_ok (x := modify _) rfl |>.trans
    (EStateM.bind_of_ok (ensureOpen_open h)))

theorem beginRecieveTcp_closed (h : x.isOpen = false) :
    beginRecieveTcp size x = .error .notOpen x.clearRead :=
  EStateM.bind_of_ok (x := get) rfl |>.trans (EStateM.bind_of_ok (x := modify _) rfl |>.trans
    (EStateM.bind_of_error (ensureOpen_closed h)))

theorem beginRecieveUdp_open (h : x.isOpen = true) : beginRecieveUdp size x =
    .ok () (x.clearRead.withCall (.receiving size x.flags.read)) :=
  EStateM.bind_of_ok (x := get) rfl |>.trans (EStateM.bind_of_ok (ensureOpen_open h))

theorem beginRecieveUdp_closed (h : x.isOpen = false) :
    beginRecieveUdp size x = .error .notOpen x :=
  EStateM.bind_of_ok (x := get) rfl |>.trans (EStateM.bind_of_error (ensureOpen_closed h))

end

/-! ## the flags of a socket object -/

namespace Endpoint
variable {τ : Type} {x : Endpoint τ} {r w r' w' : Prop}

/-- The flags that are set are true, and so was the flag that the call in progress has cleared. -/
structure Fresh (x : Endpoint τ) (readable writable : Prop) : Prop where
  read : x.flags.read = true → readable
  write : x.flags.write = true → writable
  sending : ∀ {buf beyond dest ready}, x.call = .sending buf beyond dest ready →
    x.isOpen = true ∧ x.flags.write = false ∧ (ready = true → writable)
  receiving : ∀ {size ready}, x.call = .receiving size ready →
    x.isOpen = true ∧ x.flags.read = false ∧ (ready = true → readable)

theorem Fresh.mono (h : x.Fresh r w) (hr : r → r') (hw : w → w') : x.Fresh r' w' where
  read hf := hr (h.read hf)
  write hf := hw (h.write hf)
  sending hc := (h.sending hc).imp_right (And.imp_right fun hready hf => hw (hready hf))
  receiving hc := (h.receiving hc).imp_right (And.imp_right fun hready hf => hr (hready hf))

theorem fresh_idle (hc : x.call = .idle) (hr : x.flags.read = true → r)
    (hw : x.flags.write = true → w) : x.Fresh r w where
  read := hr
  write := hw
  sending h := nomatch hc.symm.trans h
  receiving h := nomatch hc.symm.trans h

theorem Fresh.beginSend {buf beyond : List UInt8} {dest : τ} (h : x.Fresh r w)
    (ho : x.isOpen = true) :
    (x.clearWrite.withCall (.sending buf beyond dest x.flags.write)).Fresh r w where
  read := h.read
  write := nofun
  sending hc := by
    cases hc
    exact ⟨ho, rfl, h.write⟩
  receiving := nofun

theorem Fresh.beginRecieve {size : ℕ} (h : x.Fresh r w) (ho : x.isOpen = true) :
    (x.clearRead.withCall (.receiving size x.flags.read)).Fresh r w where
  read := nofun
  write := h.write
  sending := nofun
  receiving hc := by
    cases hc
    exact ⟨ho, rfl, h.read⟩

/-- The call ends without having done anything. -/
theorem Fresh.leave (h : x.Fresh r w) : (x.withCall .idle).Fresh r w :=
  fresh_idle rfl h.read h.write

/-- A call of `send` may have used up what the flag stood for. -/
theorem Fresh.leaveSend {buf beyond : List UInt8} {dest : τ} {ready : Bool} (h : x.Fresh r w)
    (hc : x.call = .sending buf beyond dest ready) : (x.withCall .idle).Fresh r w' :=
  fresh_idle rfl h.read fun hf => nomatch (h.sending hc).2.1.symm.trans hf

theorem Fresh.leaveRecieve {size : ℕ} {ready : Bool} (h : x.Fresh r w)
    (hc : x.call = .receiving size ready) : (x.withCall .idle).Fresh r' w :=
  fresh_idle rfl (fun hf => nomatch (h.receiving hc).2.1.symm.trans hf) h.write

theorem Fresh.mark {f : Ready} (h : x.Fresh r w) (hc : x.call = .idle) (hr : f.read = true → r)
    (hw : f.write = true → w) : (x.mark f).Fresh r w :=
  fresh_idle hc (fun hf => (Bool.or_eq_true_iff.mp hf).elim h.read hr)
    fun hf => (Bool.or_eq_true_iff.mp hf).elim h.write hw

theorem fresh_close (hc : x.call = .idle) : x.close.Fresh r w := fresh_idle hc nofun nofun

end Endpoint

/-! ## the loop -/

/-- what a system call returns: a count, or -1 with `EINTR`, `EAGAIN` or another error -/
inductive SysResult where
  | done (n : ℕ)
  | interrupted
  | again
  | failed
deriving DecidableEq, Repr

/-- What the loop does: it calls again, leaves with nothing transferred, leaves with a count, or
throws `std::system_error`. -/
inductive Turn where
  | retry
  | nothing
  | moved (n : ℕ)
  | throws
deriving DecidableEq, Repr

def turn : SysResult → Turn
  | .interrupted => .retry
  | .again => .nothing
  | .failed => .throws
  | .done n => .moved n

/-! ## the length of the buffer -/

/-- `int(buf.size())`, converted to the `size_t` of the system call -/
def askedLength (size : ℕ) : ℕ := ((BitVec.ofNat 32 size).signExtend 64).toNat

theorem askedLength_eq (size : ℕ) : askedLength size =
    if size % 2 ^ 32 < 2 ^ 31 then size % 2 ^ 32 else 2 ^ 64 - 2 ^ 32 + size % 2 ^ 32 := by
  unfold askedLength
  rw [BitVec.toNat_signExtend, BitVec.msb_eq_decide]
  simp only [BitVec.toNat_setWidth, BitVec.toNat_ofNat]
  split_ifs <;> simp_all <;> omega

end Setka
