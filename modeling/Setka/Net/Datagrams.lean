import Setka.Lib.Machine
import Setka.Net.WireAddress
import Mathlib.Logic.Function.Basic

/-!
# Datagrams

Any number of `udp_socket` objects, on computers with any byte order and operating system: their
`send`, `recieve` and `close`, the flags a wait set sets, and a network that may lose, repeat and
reorder datagrams.

The kernel is what POSIX says of it: `SendtoAnswers` and `RecvfromAnswers` are the results a system
call may have.

* `Place`                          where a socket is;
* `datagrams`                      the machine;
* `DatagramMove`, `datagramMove`   what a step can do.
-/

namespace Setka

/-! ## sockets and packets -/

/-- where a socket is: the computer, `ipv4` of the object, and its addresses in the network -/
structure Place where
  net : NetworkOrder
  os : Os
  ipv4 : Bool
  owns : WireAddress → Bool

structure Packet where
  source : WireAddress
  dest : WireAddress
  payload : List UInt8
deriving DecidableEq

/-- What a call did.  `nothing` is a call of `recieve` that returned 0 as there was no datagram,
with the readiness flag at its start. -/
inductive DatagramEvent where
  | sent (x : ℕ) (buf : List UInt8) (dest : Address) (n : ℕ)
  | received (x size : ℕ) (bytes : List UInt8) (sender : Address)
  | nothing (x : ℕ) (ready : Bool)
  | threw (x : ℕ) (err : TransferError)
  | assertFailed
deriving DecidableEq

/-- `packets` are all that were sent; `pending x` is the error the kernel keeps for `x`. -/
structure Network where
  sockets : ℕ → Endpoint Address
  packets : List Packet := []
  inbox : ℕ → List Packet := fun _ => []
  pending : ℕ → Bool := fun _ => false
  log : List DatagramEvent := []

inductive DatagramAction where
  | send (x : ℕ) (buf beyond : List UInt8) (dest : Address)
  | recieve (x size : ℕ)
  /-- the system call in the loop returns; `source` is the address it sends from -/
  | answer (x : ℕ) (a : SysResult) (source : WireAddress)
  /-- the wait set sets flags -/
  | wait (x : ℕ) (f : Ready)
  | close (x : ℕ)
  /-- the network delivers a packet, for the first time or again -/
  | deliver (x : ℕ) (p : Packet)
  /-- the network reports an error to the socket -/
  | fault (x : ℕ)

/-! ## the kernel -/

/-- The results of `::sendto()`: a datagram is sent as a whole, and the length field of its header
counts the 8 bytes of the header too. -/
def SendtoAnswers (ipv4 : Bool) (target : Target) (asked mapped : ℕ) : SysResult → Prop
  | .done n => n = asked ∧ asked ≤ mapped ∧ asked ≤ 65527 ∧
      target.sockAddrLen = target.sockAddr.size ∧
      (ipv4 = true → target.sockAddr.size = .sockaddrIn)
  | .interrupted | .again | .failed => True

/-- The results of `::recvfrom()`: the rest of a datagram that does not fit is lost. -/
def RecvfromAnswers (inbox : List Packet) (pending : Bool) (asked : ℕ) : SysResult → Prop
  | .done n => inbox.head?.any fun p => n = min asked p.payload.length
  | .again => inbox = [] ∧ pending = false
  | .interrupted | .failed => True

instance (ipv4 : Bool) (target : Target) (asked mapped : ℕ) (a : SysResult) :
    Decidable (SendtoAnswers ipv4 target asked mapped a) := by
  apply @SysResult.casesOn _ a <;> intros <;> dsimp only [SendtoAnswers] <;> infer_instance

instance (inbox : List Packet) (pending : Bool) (asked : ℕ) (a : SysResult) :
    Decidable (RecvfromAnswers inbox pending asked a) := by
  apply @SysResult.casesOn _ a <;> intros <;> dsimp only [RecvfromAnswers] <;> infer_instance

/-! ## steps -/

/-- `int(buf.size())` -/
def intSize (size : ℕ) : ℤ := (BitVec.ofNat 32 size).toInt

/-- `ASSERT(buf.size() <= INT_MAX)`, and those of the length -/
def sendAsserts (size len : ℕ) : List DatagramEvent :=
  if size ≤ 2 ^ 31 - 1 ∧ (len : ℤ) ≤ intSize size ∧ ((len : ℤ) = intSize size ∨ len = 0) then []
  else [.assertFailed]

def recieveAsserts (size len : ℕ) : List DatagramEvent :=
  if size ≤ 2 ^ 31 - 1 ∧ (len : ℤ) ≤ intSize size then [] else [.assertFailed]

namespace Network
variable (place : ℕ → Place) (s : Network) (x : ℕ)

def setSocket (y : Endpoint Address) : Network :=
  { s with sockets := Function.update s.sockets x y }

/-- a call starts, or throws before its loop -/
def start (m : EStateM TransferError (Endpoint Address) Unit) : Network :=
  match m (s.sockets x) with
  | .ok _ y => s.setSocket x y
  | .error err y => { s.setSocket x y with log := .threw x err :: s.log }

/-- the call ends -/
def leave (es : List DatagramEvent) : Network :=
  { s.setSocket x ((s.sockets x).withCall .idle) with log := es ++ s.log }

def takeError : Network := { s with pending := Function.update s.pending x false }

/-- `sockAddr` and `sockAddrLen` of `udp_socket::send` -/
def target (dest : Address) : Target :=
  sendTarget (place x).net (place x).os (place x).ipv4 dest

/-- `out_sender_address` of `udp_socket::recieve` -/
def sender (p : Packet) : Address :=
  recieveAddress (place x).net (place x).os (sourceSockaddr (place x).net (place x).ipv4 p.source)

/-- one turn of the loop of `udp_socket::send` -/
def sendTurn (buf beyond : List UInt8) (dest : Address) (source : WireAddress) :
    Turn → Option Network
  | .retry => some s
  | .nothing => some (s.leave x (.sent x buf dest 0 :: sendAsserts buf.length 0))
  | .throws => some ((s.takeError x).leave x [.threw x .system])
  | .moved n =>
    if (place x).owns source = true then
      some ({ s with packets :=
          ⟨source, wireOf (place x).net (target place x dest).sockAddr, (buf ++ beyond).take n⟩ ::
            s.packets }.leave x (.sent x buf dest n :: sendAsserts buf.length n))
    else none

/-- one turn of the loop of `udp_socket::recieve` -/
def recieveTurn (size : ℕ) (ready : Bool) : Turn → Option Network
  | .retry => some s
  | .nothing => some (s.leave x [.nothing x ready])
  | .throws => some ((s.takeError x).leave x [.threw x .system])
  | .moved n =>
    match s.inbox x with
    | [] => none
    | p :: rest => some ({ s with inbox := Function.update s.inbox x rest }.leave x
        (.received x size (p.payload.take n) (sender place x p) :: recieveAsserts size n))

def answer (a : SysResult) (source : WireAddress) : Option Network :=
  match (s.sockets x).call with
  | .idle => none
  | .sending buf beyond dest _ =>
    if SendtoAnswers (place x).ipv4 (target place x dest) (askedLength buf.length)
        (buf ++ beyond).length a then
      s.sendTurn place x buf beyond dest source (turn a)
    else none
  | .receiving size ready =>
    if RecvfromAnswers (s.inbox x) (s.pending x) (askedLength size) a then
      s.recieveTurn place x size ready (turn a)
    else none

/-- the socket is reported as ready for reading -/
def Readable : Prop := s.inbox x ≠ [] ∨ s.pending x = true

instance : Decidable (s.Readable x) := inferInstanceAs (Decidable (_ ∨ _))

/-- `socket::close`; what the kernel has for the socket is gone -/
def closeSocket : Network :=
  { s.setSocket x (s.sockets x).close with
    inbox := Function.update s.inbox x []
    pending := Function.update s.pending x false }

def idle : Prop := (s.sockets x).call = .idle

instance : Decidable (s.idle x) := inferInstanceAs (Decidable (_ = _))

def step : DatagramAction → Network → Option Network
  | .send x buf beyond dest, s =>
    if s.idle x then some (s.start x (beginSend buf beyond dest)) else none
  | .recieve x size, s => if s.idle x then some (s.start x (beginRecieveUdp size)) else none
  | .answer x a source, s => s.answer place x a source
  | .wait x f, s =>
    if s.idle x ∧ (s.sockets x).isOpen = true ∧ (f.read = true → s.Readable x) then
      some (s.setSocket x ((s.sockets x).mark f))
    else none
  | .close x, s => if s.idle x then some (s.closeSocket x) else none
  | .deliver x p, s =>
    if p ∈ s.packets ∧ (place x).owns p.dest = true ∧ ((place x).ipv4 = true → p.source.IsMapped)
    then some { s with inbox := Function.update s.inbox x (s.inbox x ++ [p]) }
    else none
  | .fault x, s => some { s with pending := Function.update s.pending x true }

/-- no call was made yet -/
structure Initial : Prop where
  flags : ∀ x, (s.sockets x).flags = {}
  idle : ∀ x, s.idle x
  packets : s.packets = []
  inbox : ∀ x, s.inbox x = []
  log : s.log = []

end Network

def datagrams (place : ℕ → Place) : Machine Network DatagramAction where
  init := Network.Initial
  step := Network.step place

/-! ## what a step can do -/

namespace Network
variable {s : Network} {x y : ℕ} {z : Endpoint Address} {es : List DatagramEvent}

@[simp] theorem setSocket_sockets : (s.setSocket x z).sockets x = z := Function.update_self ..

theorem setSocket_sockets_ne (h : y ≠ x) : (s.setSocket x z).sockets y = s.sockets y :=
  Function.update_of_ne h ..

@[simp] theorem leave_sockets : (s.leave x es).sockets x = (s.sockets x).withCall .idle :=
  setSocket_sockets

theorem leave_sockets_ne (h : y ≠ x) : (s.leave x es).sockets y = s.sockets y :=
  setSocket_sockets_ne h

theorem setSocket_self : s.setSocket x (s.sockets x) = s := by
  unfold setSocket
  rw [Function.update_eq_self]

end Network

inductive DatagramMove (place : ℕ → Place) (s : Network) : DatagramAction → Network → Prop
  | sendBegin (x : ℕ) (buf beyond : List UInt8) (dest : Address) : s.idle x →
      (s.sockets x).isOpen = true →
      DatagramMove place s (.send x buf beyond dest) (s.setSocket x
        ((s.sockets x).clearWrite.withCall (.sending buf beyond dest (s.sockets x).flags.write)))
  | sendClosed (x : ℕ) (buf beyond : List UInt8) (dest : Address) :
      DatagramMove place s (.send x buf beyond dest) { s with log := .threw x .notOpen :: s.log }
  | recieveBegin (x size : ℕ) : s.idle x → (s.sockets x).isOpen = true →
      DatagramMove place s (.recieve x size) (s.setSocket x
        ((s.sockets x).clearRead.withCall (.receiving size (s.sockets x).flags.read)))
  | recieveClosed (x size : ℕ) :
      DatagramMove place s (.recieve x size) { s with log := .threw x .notOpen :: s.log }
  | retry (x : ℕ) (source : WireAddress) : DatagramMove place s (.answer x .interrupted source) s
  | sent (x : ℕ) (buf beyond : List UInt8) (dest : Address) (ready : Bool) (n : ℕ)
      (source : WireAddress) : (s.sockets x).call = .sending buf beyond dest ready →
      SendtoAnswers (place x).ipv4 (Network.target place x dest) (askedLength buf.length)
        (buf ++ beyond).length (.done n) → (place x).owns source = true →
      DatagramMove place s (.answer x (.done n) source)
        ({ s with packets := ⟨source, wireOf (place x).net (Network.target place x dest).sockAddr,
            (buf ++ beyond).take n⟩ :: s.packets }.leave x
          (.sent x buf dest n :: sendAsserts buf.length n))
  | sentNothing (x : ℕ) (buf beyond : List UInt8) (dest : Address) (ready : Bool)
      (source : WireAddress) : (s.sockets x).call = .sending buf beyond dest ready →
      DatagramMove place s (.answer x .again source)
        (s.leave x (.sent x buf dest 0 :: sendAsserts buf.length 0))
  | received (x size : ℕ) (ready : Bool) (n : ℕ) (source : WireAddress) (p : Packet)
      (rest : List Packet) : (s.sockets x).call = .receiving size ready → s.inbox x = p :: rest →
      n = min (askedLength size) p.payload.length →
      DatagramMove place s (.answer x (.done n) source)
        ({ s with inbox := Function.update s.inbox x rest }.leave x
          (.received x size (p.payload.take n) (Network.sender place x p) ::
            recieveAsserts size n))
  | receivedNothing (x size : ℕ) (ready : Bool) (source : WireAddress) :
      (s.sockets x).call = .receiving size ready → ¬ s.Readable x →
      DatagramMove place s (.answer x .again source) (s.leave x [.nothing x ready])
  | failed (x : ℕ) (source : WireAddress) : ¬ s.idle x →
      DatagramMove place s (.answer x .failed source) ((s.takeError x).leave x [.threw x .system])
  | wait (x : ℕ) (f : Ready) : s.idle x → (f.read = true → s.Readable x) →
      DatagramMove place s (.wait x f) (s.setSocket x ((s.sockets x).mark f))
  | close (x : ℕ) : s.idle x → DatagramMove place s (.close x) (s.closeSocket x)
  | deliver (x : ℕ) (p : Packet) : p ∈ s.packets → (place x).owns p.dest = true →
      ((place x).ipv4 = true → p.source.IsMapped) →
      DatagramMove place s (.deliver x p)
        { s with inbox := Function.update s.inbox x (s.inbox x ++ [p]) }
  | fault (x : ℕ) :
      DatagramMove place s (.fault x) { s with pending := Function.update s.pending x true }

namespace Network
variable {place : ℕ → Place} {s s' : Network} {x : ℕ} {act : DatagramAction}

theorem start_ok {m : EStateM TransferError (Endpoint Address) Unit} {z : Endpoint Address}
    (h : m (s.sockets x) = .ok () z) : s.start x m = s.setSocket x z := by
  unfold start
  rw [h]

theorem start_closed {m : EStateM TransferError (Endpoint Address) Unit}
    (h : m (s.sockets x) = .error .notOpen (s.sockets x)) :
    s.start x m = { s with log := .threw x .notOpen :: s.log } := by
  unfold start
  rw [h]
  dsimp only
  rw [setSocket_self]

/-- what the return of a system call does -/
theorem answer_move {a : SysResult} {source : WireAddress}
    (hs : s.answer place x a source = some s') : DatagramMove place s (.answer x a source) s' := by
  unfold answer at hs
  cases hcall : (s.sockets x).call with
  | idle =>
    rw [hcall] at hs
    cases hs
  | sending buf beyond dest ready =>
    rw [hcall] at hs
    dsimp only at hs
    have hbusy : ¬ s.idle x := fun h => nomatch hcall.symm.trans h
    obtain ⟨ha, hs⟩ := Option.ite_none_right_eq_some.mp hs
    cases a with
    | interrupted =>
      cases hs
      exact .retry x source
    | again =>
      cases hs
      exact .sentNothing x buf beyond dest ready source hcall
    | failed =>
      cases hs
      exact .failed x source hbusy
    | done n =>
      obtain ⟨hown, hs⟩ := Option.ite_none_right_eq_some.mp hs
      cases hs
      exact .sent x buf beyond dest ready n source hcall ha hown
  | receiving size ready =>
    rw [hcall] at hs
    dsimp only at hs
    have hbusy : ¬ s.idle x := fun h => nomatch hcall.symm.trans h
    obtain ⟨ha, hs⟩ := Option.ite_none_right_eq_some.mp hs
    cases a with
    | interrupted =>
      cases hs
      exact .retry x source
    | again =>
      cases hs
      refine .receivedNothing x size ready source hcall fun hr => hr.elim (absurd ha.1) fun hp => ?_
      exact absurd (hp.symm.trans ha.2) (by decide)
    | failed =>
      cases hs
      exact .failed x source hbusy
    | done n =>
      cases hin : s.inbox x with
      | nil =>
        rw [hin] at ha
        cases ha
      | cons p rest =>
        rw [hin] at ha
        unfold turn recieveTurn at hs
        rw [hin] at hs
        cases hs
        exact .received x size ready n source p rest hcall hin (of_decide_eq_true ha)

/-- **Every step is one of the moves.** -/
theorem datagramMove (hs : (datagrams place).step act s = some s') :
    DatagramMove place s act s' := by
  change step place act s = some s' at hs
  cases act with
  | send x buf beyond dest =>
    obtain ⟨hidle, hs⟩ := Option.ite_none_right_eq_some.mp hs
    cases hs
    cases ho : (s.sockets x).isOpen with
    | true =>
      rw [start_ok (beginSend_open ho)]
      exact .sendBegin x buf beyond dest hidle ho
    | false =>
      rw [start_closed (beginSend_closed ho)]
      exact .sendClosed x buf beyond dest
  | recieve x size =>
    obtain ⟨hidle, hs⟩ := Option.ite_none_right_eq_some.mp hs
    cases hs
    cases ho : (s.sockets x).isOpen with
    | true =>
      rw [start_ok (beginRecieveUdp_open ho)]
      exact .recieveBegin x size hidle ho
    | false =>
      rw [start_closed (beginRecieveUdp_closed ho)]
      exact .recieveClosed x size
  | answer x a source => exact answer_move hs
  | wait x f =>
    obtain ⟨⟨hidle, _, hf⟩, hs⟩ := Option.ite_none_right_eq_some.mp hs
    cases hs
    exact .wait x f hidle hf
  | close x =>
    obtain ⟨hidle, hs⟩ := Option.ite_none_right_eq_some.mp hs
    cases hs
    exact .close x hidle
  | deliver x p =>
    obtain ⟨⟨hp, hown, hmap⟩, hs⟩ := Option.ite_none_right_eq_some.mp hs
    cases hs
    exact .deliver x p hp hown hmap
  | fault x =>
    cases hs
    exact .fault x

end Network

end Setka
