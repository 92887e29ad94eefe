import Setka.Lib.Effects
import Setka.Lib.Machine
import Setka.Net.Address

/-!
# Sockets and their descriptors

`socket`, `tcp_socket`, `udp_socket` and `tcp_server_socket` in the POSIX build.  A method is a
program over the `World`: the socket objects, by their addresses, and the descriptors the operating
system has handed out.  The outcomes of the calls to the operating system, and the exceptions of
`waitable::operator=()`, are arguments.

`sockets` is the machine whose steps are the calls of a program on any collection of socket objects.
-/

namespace Setka

/-- the class of a socket object, with its own members -/
inductive SocketKind where
  | tcp
  | udp (ipv4 : Bool)
  | tcpServer (disableNaggle : Bool)
deriving DecidableEq, Repr

structure Socket where
  kind : SocketKind
  sock : ℤ
deriving DecidableEq, Repr

def invalidSocket : ℤ := -1

structure World where
  /-- the objects by their addresses; `none` is a destroyed one -/
  objects : List (Option Socket) := []
  /-- the descriptors handed out and not passed to `::close()` -/
  descriptors : List ℤ := []
  /-- `::close()` was called with a descriptor that is not open -/
  badClose : Bool := false
  /-- the descriptors put into the non-blocking mode since they were handed out -/
  nonblocking : List ℤ := []
deriving DecidableEq

inductive SocketError where
  | alreadyOpen
  | notOpen
  | addedToWaitSet
  | socketFailed
  | bindFailed
  | listenFailed
  | fcntlFailed
  | broadcastFailed
  | connectFailed
deriving DecidableEq, Repr

/-- a method of a socket object -/
abbrev Method (α : Type) := EStateM SocketError World α

/-! ## the members and the system calls -/

namespace World

def object (w : World) (x : ℕ) : Option Socket := (w.objects[x]?).join

def sock (w : World) (x : ℕ) : ℤ := (w.object x).elim invalidSocket Socket.sock

def update (w : World) (x : ℕ) (f : Socket → Socket) : World :=
  match w.object x with
  | some s => { w with objects := w.objects.set x (some (f s)) }
  | none => w

/-- the system hands out a descriptor that is not open, or -1 -/
def handOut (w : World) : Option ℕ → ℤ × World
  | none => (invalidSocket, w)
  | some n =>
    if (n : ℤ) ∈ w.descriptors then (invalidSocket, w)
    else ((n : ℤ), { w with
      descriptors := (n : ℤ) :: w.descriptors
      nonblocking := w.nonblocking.filter (· ≠ (n : ℤ)) })

/-- the system takes a descriptor back -/
def giveBack (w : World) (fd : ℤ) : World :=
  if fd ∈ w.descriptors then { w with descriptors := w.descriptors.erase fd }
  else { w with badClose := true }

end World

def sock (x : ℕ) : Method ℤ := do return (← get).sock x

def setSock (x : ℕ) (fd : ℤ) : Method Unit := modify (·.update x fun s => { s with sock := fd })

def setKind (x : ℕ) (kind : SocketKind) : Method Unit :=
  modify (·.update x fun s => { s with kind := kind })

/-- `::socket()` and `::accept()` -/
def osSocket (answer : Option ℕ) : Method ℤ := modifyGet (·.handOut answer)

/-- `::close()`; the descriptor is given back whatever the call returns -/
def osClose (fd : ℤ) : Method Unit := modify (·.giveBack fd)

/-- `fcntl(fd, F_SETFL, flags | O_NONBLOCK)` that succeeds -/
def osNonblock (fd : ℤ) : Method Unit := modify fun w =>
  { w with nonblocking := fd :: w.nonblocking }

/-- `if(!ok) throw e` -/
def ensure (ok : Bool) (e : SocketError) : Method Unit := if ok then pure () else throw e

/-! ## `socket` -/

/-- a constructor: the object gets an address that was not used before -/
def construct (kind : SocketKind) : Method ℕ := modifyGet fun w =>
  (w.objects.length, { w with objects := w.objects ++ [some ⟨kind, invalidSocket⟩] })

/-- `if(this->is_open()) ::close(this->sock)` -/
def closeDescriptor (x : ℕ) : Method Unit := do
  let fd ← sock x
  if fd ≠ invalidSocket then osClose fd else pure ()

/-- `socket::close` -/
def closeSocket (x : ℕ) : Method Unit := do
  closeDescriptor x
  setSock x invalidSocket

/-- the destructor -/
def destroy (x : ℕ) : Method Unit := do
  closeSocket x
  modify fun w => { w with objects := w.objects.set x none }

/-- `if(!ok){ this->close(); throw e; }` -/
def ensureClosing (x : ℕ) (ok : Bool) (e : SocketError) : Method Unit :=
  if ok then pure () else do
    closeSocket x
    throw e

/-- `socket::operator=(socket&&)`; `added`: one of the two is added to a wait set -/
def assignSocket (x s : ℕ) (added : Bool) : Method Unit :=
  if x = s then pure ()
  else do
    ensure (!added) .addedToWaitSet
    closeSocket x
    setSock x (← sock s)
    setSock s invalidSocket

/-- `socket::disable_naggle`, if it is asked for; the result of `setsockopt()` is not looked at -/
def disableNaggle (asked : Bool) (x : ℕ) : Method Unit := do
  ensure (!asked || (← sock x) ≠ invalidSocket) .notOpen

/-- the results of the system calls of one method -/
structure Calls where
  socket6 : Option ℕ := none
  socket4 : Option ℕ := none
  accepted : Option ℕ := none
  v6only : Bool := true
  bound : Bool := true
  listening : Bool := true
  getFlags : Bool := true
  setFlags : Bool := true
  broadcast : Bool := true
  /-- `connect()` succeeds, is interrupted or is in progress -/
  connecting : Bool := true

def setNonblockingMode (x : ℕ) (c : Calls) : Method Unit := do
  let fd ← sock x
  ensure (fd ≠ invalidSocket) .notOpen
  ensure c.getFlags .fcntlFailed
  ensure c.setFlags .fcntlFailed
  osNonblock fd

/-! ## `open` -/

/-- `this->sock = ::socket(..)`, and the exception if it failed -/
def openSocket (x : ℕ) (answer : Option ℕ) : Method Unit := do
  setSock x (← osSocket answer)
  ensure ((← sock x) ≠ invalidSocket) .socketFailed

/-- the socket of `udp_socket::open` and `tcp_server_socket::open`: IPv6 with IPv4, or IPv4 only if
the system has no IPv6 or no dual stack; the result is `ipv4` -/
def openDual (x : ℕ) (c : Calls) : Method Bool := do
  setSock x (← osSocket c.socket6)
  if (← sock x) = invalidSocket then do
    openSocket x c.socket4
    return true
  else if c.v6only then return false
  else do
    closeSocket x
    openSocket x c.socket4
    return true

/-- `udp_socket::open` -/
def openUdp (x : ℕ) (port : UInt16) (c : Calls) : Method Unit := do
  ensure ((← sock x) = invalidSocket) .alreadyOpen
  setKind x (.udp false)
  let ipv4 ← openDual x c
  setKind x (.udp ipv4)
  ensureClosing x (port = 0 || c.bound) .bindFailed
  setNonblockingMode x c
  ensureClosing x c.broadcast .broadcastFailed

/-- `tcp_server_socket::open` -/
def openServer (x : ℕ) (naggle : Bool) (c : Calls) : Method Unit := do
  ensure ((← sock x) = invalidSocket) .alreadyOpen
  setKind x (.tcpServer naggle)
  let _ ← openDual x c
  ensureClosing x c.bound .bindFailed
  ensureClosing x c.listening .listenFailed
  setNonblockingMode x c

/-- `tcp_socket::open` -/
def openTcp (x : ℕ) (ip : Address) (naggle : Bool) (c : Calls) : Method Unit := do
  ensure ((← sock x) = invalidSocket) .alreadyOpen
  openSocket x (if ip.host.isV4 then c.socket4 else c.socket6)
  disableNaggle naggle x
  setNonblockingMode x c
  ensureClosing x c.connecting .connectFailed

/-! ## moves -/

/-- the members of a class that a move constructor takes over; `ipv4` is not, and holds anything -/
def SocketKind.moved (ipv4 : Bool) : SocketKind → SocketKind
  | .udp _ => .udp ipv4
  | kind => kind

/-- the move constructors: the base is constructed without a descriptor first, so that its
destructor runs when the assignment throws -/
def moveConstruct (s : ℕ) (ipv4 added : Bool) : Method ℕ := do
  let w ← get
  let x ← construct (((w.object s).elim .tcp Socket.kind).moved ipv4)
  tryCatch (assignSocket x s added) fun e => do
    destroy x
    throw e
  return x

/-- the move assignments of the three classes -/
def moveAssign (x s : ℕ) (added : Bool) : Method Unit := do
  let w ← get
  match (w.object s).elim .tcp Socket.kind with
  | .tcp => assignSocket x s added
  | .udp ipv4 => do
    assignSocket x s added
    setKind x (.udp ipv4)
  | .tcpServer naggle => do
    setKind x (.tcpServer naggle)
    assignSocket x s added

/-! ## `accept` -/

/-- `return s` of a local object: it is the result itself, or moved to the result and destroyed -/
def returnLocal (s : ℕ) (elided added : Bool) : Method ℕ :=
  if elided then pure s
  else do
    let r ← moveConstruct s false added
    destroy s
    return r

/-- `tcp_server_socket::accept` between the construction of the local `s` and its return -/
def acceptInto (x s : ℕ) (c : Calls) (elided added : Bool) : Method ℕ := do
  setSock s (← osSocket c.accepted)
  if (← sock s) = invalidSocket then returnLocal s elided added
  else do
    setNonblockingMode s c
    let w ← get
    disableNaggle ((w.object x).map Socket.kind = some (.tcpServer true)) s
    returnLocal s elided added

/-- `tcp_server_socket::accept`; an exception destroys the local `s` -/
def accept (x : ℕ) (c : Calls) (elided added : Bool) : Method ℕ := do
  ensure ((← sock x) ≠ invalidSocket) .notOpen
  let s ← construct .tcp
  tryCatch (acceptInto x s c elided added) fun e => do
    destroy s
    throw e

/-! ## the calls of a program -/

inductive SocketOp where
  | construct (kind : SocketKind)
  | openUdp (x : ℕ) (port : UInt16) (c : Calls)
  | openServer (x : ℕ) (naggle : Bool) (c : Calls)
  | openTcp (x : ℕ) (ip : Address) (naggle : Bool) (c : Calls)
  | close (x : ℕ)
  | accept (x : ℕ) (c : Calls) (elided added : Bool)
  | moveConstruct (s : ℕ) (ipv4 added : Bool)
  | moveAssign (x s : ℕ) (added : Bool)
  | destroy (x : ℕ)

def SocketOp.method : SocketOp → Method Unit
  | .construct kind => do let _ ← Setka.construct kind
  | .openUdp x port c => Setka.openUdp x port c
  | .openServer x naggle c => Setka.openServer x naggle c
  | .openTcp x ip naggle c => Setka.openTcp x ip naggle c
  | .close x => closeSocket x
  | .accept x c elided added => do let _ ← Setka.accept x c elided added
  | .moveConstruct s ipv4 added => do let _ ← Setka.moveConstruct s ipv4 added
  | .moveAssign x s added => Setka.moveAssign x s added
  | .destroy x => Setka.destroy x

def SocketKind.sameClass : SocketKind → SocketKind → Bool
  | .tcp, .tcp => true
  | .udp _, .udp _ => true
  | .tcpServer _, .tcpServer _ => true
  | _, _ => false

/-- the object at `x` is alive and of the class of `kind` -/
def World.hasClass (w : World) (x : ℕ) (kind : SocketKind) : Bool :=
  (w.object x).any fun s => s.kind.sameClass kind

/-- the objects of a call are alive, and of the classes it is for -/
def SocketOp.possible (w : World) : SocketOp → Bool
  | .construct kind => kind ≠ .tcpServer true
  | .openUdp x _ _ => w.hasClass x (.udp false)
  | .openServer x _ _ => w.hasClass x (.tcpServer false)
  | .openTcp x _ _ _ => w.hasClass x .tcp
  | .close x => (w.object x).isSome
  | .accept x _ _ _ => w.hasClass x (.tcpServer false)
  | .moveConstruct s _ _ => (w.object s).isSome
  | .moveAssign x s _ => (w.object s).any fun b => w.hasClass x b.kind
  | .destroy x => (w.object x).isSome

def sockets : Machine World SocketOp where
  init w := w = {}
  step op w := if op.possible w then some (op.method w).state else none

end Setka
