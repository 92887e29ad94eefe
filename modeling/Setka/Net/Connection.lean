import Setka.Lib.Machine
import Setka.Lib.Pipe
import Setka.Net.NonBlocking
import Mathlib.Logic.Function.Basic

/-!
# A TCP connection

Two `tcp_socket` objects that are connected to each other: their `send`, `recieve` and `close`, the
flags a wait set sets, and the network between them.  The bytes of each direction are in a `Pipe`.

The kernel is what POSIX says of it: `SendAnswers` and `RecvAnswers` are the results a system call
may have.  When a connection breaks, each side learns of it at a time of its own, by the pending
error of the socket; what has arrived there may be kept or dropped.  After the error `send()` fails,
and `recv()` returns 0 when nothing is left.  The other side goes on until it learns of it too.

* `stream`                       the machine of a connection, with the sizes of the send buffers;
* `sentBytes`, `receivedBytes`   what the calls reported, as the log has it;
* `Fits`                         the buffers are such that the system calls stay inside of them;
* `StreamMove`, `streamMove`     what a step can do.
-/

namespace Setka

inductive Side where
  | near
  | far
deriving DecidableEq, Repr

def Side.peer : Side → Side
  | .near => .far
  | .far => .near

/-- What a call did.  `ready` is the readiness flag at the start of the call. -/
inductive StreamEvent where
  | sent (e : Side) (buf : List UInt8) (ready : Bool) (n : ℕ)
  | received (e : Side) (size : ℕ) (ready : Bool) (bytes : List UInt8)
  | threw (e : Side) (err : TransferError)
  | closed (e : Side)
deriving DecidableEq

/-- `pipes e` goes from `e` to its peer, `pending e` is the error the kernel keeps for `e`. -/
structure Connection where
  ends : Side → Endpoint Unit
  pipes : Side → Pipe UInt8 := fun _ => {}
  pending : Side → Bool := fun _ => false
  log : List StreamEvent := []

inductive StreamAction where
  | send (e : Side) (buf beyond : List UInt8)
  | recieve (e : Side) (size : ℕ)
  /-- the system call in the loop returns -/
  | answer (e : Side) (a : SysResult)
  /-- the wait set sets flags -/
  | wait (e : Side) (f : Ready)
  | close (e : Side)
  /-- the network carries bytes from `e` to its peer -/
  | carry (e : Side) (n : ℕ)
  /-- the network tells the peer that `e` has closed -/
  | finish (e : Side)
  /-- `e` learns that the connection is broken; the next `n` bytes that have arrived are kept -/
  | reset (e : Side) (n : ℕ)

/-! ## the kernel -/

/-- The results of `::send()` with the length `asked`, of which `mapped` bytes can be read. -/
def SendAnswers (p : Pipe UInt8) (capacity asked mapped : ℕ) : SysResult → Prop
  | .done n => p.refused = false ∧ n ≤ mapped ∧
      (asked = 0 ∧ n = 0 ∨ 0 < n ∧ n ≤ asked ∧ p.onWay.length + n ≤ capacity)
  | .interrupted => True
  | .again => p.refused = false ∧ asked ≠ 0 ∧ capacity ≤ p.onWay.length
  | .failed => True

/-- The results of `::recv()` with the length `asked`. -/
def RecvAnswers (p : Pipe UInt8) (pending : Bool) (asked : ℕ) : SysResult → Prop
  | .done n => asked = 0 ∧ n = 0 ∨ 0 < n ∧ n ≤ asked ∧ n ≤ p.arrived.length ∨
      n = 0 ∧ p.arrived = [] ∧ if p.broken then pending = false else p.ended = true
  | .interrupted => True
  | .again => asked ≠ 0 ∧ p.arrived = [] ∧ p.ended = false ∧ p.broken = false
  | .failed => True

instance (p : Pipe UInt8) (capacity asked mapped : ℕ) (a : SysResult) :
    Decidable (SendAnswers p capacity asked mapped a) := by
  apply @SysResult.casesOn _ a <;> intros <;> dsimp only [SendAnswers] <;> infer_instance

instance (p : Pipe UInt8) (pending : Bool) (asked : ℕ) (a : SysResult) :
    Decidable (RecvAnswers p pending asked a) := by
  apply @SysResult.casesOn _ a <;> intros <;> dsimp only [RecvAnswers] <;> infer_instance

/-! ## steps -/

namespace Connection
variable (s : Connection) (e : Side)

def setEnd (x : Endpoint Unit) : Connection := { s with ends := Function.update s.ends e x }

def setPipe (p : Pipe UInt8) : Connection := { s with pipes := Function.update s.pipes e p }

/-- a call starts, or throws before its loop -/
def start (m : EStateM TransferError (Endpoint Unit) Unit) : Connection :=
  match m (s.ends e) with
  | .ok _ x => s.setEnd e x
  | .error err x => { s.setEnd e x with log := .threw e err :: s.log }

/-- the call ends -/
def leave (ev : StreamEvent) : Connection :=
  { s.setEnd e ((s.ends e).withCall .idle) with log := ev :: s.log }

/-- The error that is kept for `e` is taken. -/
def takeError : Connection := { s with pending := Function.update s.pending e false }

/-- one turn of the loop of `tcp_socket::send` -/
def sendTurn (buf beyond : List UInt8) (ready : Bool) : Turn → Option Connection
  | .retry => some s
  | .nothing => some (s.leave e (.sent e buf ready 0))
  | .throws => some ((s.takeError e).leave e (.threw e .system))
  | .moved n =>
    if h : (s.pipes e).refused = false ∧ (s.pipes e).closed = false then
      some ((s.setPipe e ((s.pipes e).push ((buf ++ beyond).take n) h)).leave e
        (.sent e buf ready n))
    else none

/-- one turn of the loop of `tcp_socket::recieve` -/
def recieveTurn (size : ℕ) (ready : Bool) : Turn → Option Connection
  | .retry => some s
  | .nothing => some (s.leave e (.received e size ready []))
  | .throws => some ((s.takeError e).leave e (.threw e .system))
  | .moved n => some ((s.setPipe e.peer ((s.pipes e.peer).pull n)).leave e
      (.received e size ready ((s.pipes e.peer).arrived.take n)))

def answer (capacity : Side → ℕ) (a : SysResult) : Option Connection :=
  match (s.ends e).call with
  | .idle => none
  | .sending buf beyond _ ready =>
    if SendAnswers (s.pipes e) (capacity e) (askedLength buf.length) (buf ++ beyond).length a then
      s.sendTurn e buf beyond ready (turn a)
    else none
  | .receiving size ready =>
    if RecvAnswers (s.pipes e.peer) (s.pending e) (askedLength size) a then
      s.recieveTurn e size ready (turn a)
    else none

/-- The flags a wait set may set. -/
def MayMark (capacity : Side → ℕ) (f : Ready) : Prop :=
  (f.read = true → (s.pipes e.peer).Readable) ∧
    (f.write = true → (s.pipes e).Writable (capacity e)) ∧
    (f.error = true → (s.pipes e.peer).broken = true)

instance (capacity : Side → ℕ) (f : Ready) : Decidable (s.MayMark e capacity f) :=
  inferInstanceAs (Decidable (_ ∧ _ ∧ _))

/-- `socket::close`, and what the kernel does if the socket was open -/
def closeEnd : Connection :=
  if (s.ends e).isOpen then
    { (s.setEnd e (s.ends e).close).setPipe e (s.pipes e).close with log := .closed e :: s.log }
  else s.setEnd e (s.ends e).close

/-- The side `e` learns that the connection is broken. -/
def resetEnd (n : ℕ) : Connection :=
  { (s.setPipe e (s.pipes e).refuse).setPipe e.peer ((s.pipes e.peer).breakOff n) with
    pending := Function.update s.pending e true }

def idle : Prop := (s.ends e).call = .idle

instance : Decidable (s.idle e) := inferInstanceAs (Decidable (_ = _))

def step (capacity : Side → ℕ) : StreamAction → Connection → Option Connection
  | .send e buf beyond, s => if s.idle e then some (s.start e (beginSend buf beyond ())) else none
  | .recieve e size, s => if s.idle e then some (s.start e (beginRecieveTcp size)) else none
  | .answer e a, s => s.answer e capacity a
  | .wait e f, s =>
    if s.idle e ∧ (s.ends e).isOpen = true ∧ s.MayMark e capacity f then
      some (s.setEnd e ((s.ends e).mark f))
    else none
  | .close e, s => if s.idle e then some (s.closeEnd e) else none
  | .carry e n, s =>
    if h : (s.pipes e).broken = false then some (s.setPipe e ((s.pipes e).carry n h)) else none
  | .finish e, s =>
    if h : (s.pipes e).closed = true ∧ (s.pipes e).onWay = [] ∧ (s.pipes e).broken = false then
      some (s.setPipe e ((s.pipes e).finish h))
    else none
  | .reset e n, s => if (s.pipes e.peer).broken = false then some (s.resetEnd e n) else none

/-- a connection that was just established -/
structure Established : Prop where
  isOpen : ∀ e, (s.ends e).isOpen = true
  flags : ∀ e, (s.ends e).flags = {}
  idle : ∀ e, s.idle e
  pipes : ∀ e, s.pipes e = {}
  pending : ∀ e, s.pending e = false
  log : s.log = []

end Connection

def stream (capacity : Side → ℕ) : Machine Connection StreamAction where
  init := Connection.Established
  step := Connection.step capacity

/-! ## what a step can do -/

namespace Side

@[simp] theorem peer_peer (e : Side) : e.peer.peer = e := by
  cases e <;> rfl

@[simp] theorem peer_ne (e : Side) : e.peer ≠ e := by
  cases e <;> nofun

@[simp] theorem ne_peer (e : Side) : e ≠ e.peer := e.peer_ne.symm

theorem eq_or_peer (e x : Side) : x = e ∨ x = e.peer := by
  cases e <;> cases x <;> simp [peer]

/-- What holds of a side and of its peer holds of both sides. -/
theorem all {P : Side → Prop} (e : Side) (h : P e) (h' : P e.peer) (x : Side) : P x := by
  cases e <;> cases x <;> assumption

end Side

namespace Connection
variable {s : Connection} {e : Side} {x : Endpoint Unit} {p : Pipe UInt8} {ev : StreamEvent}

@[simp] theorem setEnd_ends : (s.setEnd e x).ends e = x := Function.update_self ..

@[simp] theorem setEnd_ends_peer : (s.setEnd e x).ends e.peer = s.ends e.peer :=
  Function.update_of_ne e.peer_ne ..

@[simp] theorem setEnd_pipes : (s.setEnd e x).pipes = s.pipes := rfl
@[simp] theorem setEnd_pending : (s.setEnd e x).pending = s.pending := rfl
@[simp] theorem setEnd_log : (s.setEnd e x).log = s.log := rfl

@[simp] theorem setPipe_pipes : (s.setPipe e p).pipes e = p := Function.update_self ..

@[simp] theorem setPipe_pipes_peer : (s.setPipe e p).pipes e.peer = s.pipes e.peer :=
  Function.update_of_ne e.peer_ne ..

@[simp] theorem setPipe_peer_pipes : (s.setPipe e.peer p).pipes e = s.pipes e :=
  Function.update_of_ne e.peer_ne.symm ..

@[simp] theorem setPipe_ends : (s.setPipe e p).ends = s.ends := rfl
@[simp] theorem setPipe_pending : (s.setPipe e p).pending = s.pending := rfl
@[simp] theorem setPipe_log : (s.setPipe e p).log = s.log := rfl

@[simp] theorem leave_ends : (s.leave e ev).ends e = (s.ends e).withCall .idle :=
  setEnd_ends

@[simp] theorem leave_ends_peer : (s.leave e ev).ends e.peer = s.ends e.peer := setEnd_ends_peer

@[simp] theorem leave_pipes : (s.leave e ev).pipes = s.pipes := rfl
@[simp] theorem leave_pending : (s.leave e ev).pending = s.pending := rfl
@[simp] theorem leave_log : (s.leave e ev).log = ev :: s.log := rfl

@[simp] theorem takeError_ends : (s.takeError e).ends = s.ends := rfl
@[simp] theorem takeError_pipes : (s.takeError e).pipes = s.pipes := rfl
@[simp] theorem takeError_log : (s.takeError e).log = s.log := rfl
@[simp] theorem resetEnd_ends {n : ℕ} : (s.resetEnd e n).ends = s.ends := rfl
@[simp] theorem resetEnd_log {n : ℕ} : (s.resetEnd e n).log = s.log := rfl

@[simp] theorem resetEnd_pipes {n : ℕ} : (s.resetEnd e n).pipes e = (s.pipes e).refuse :=
  (Function.update_of_ne e.ne_peer ..).trans (Function.update_self ..)

@[simp] theorem resetEnd_pipes_peer {n : ℕ} :
    (s.resetEnd e n).pipes e.peer = (s.pipes e.peer).breakOff n := Function.update_self ..

@[simp] theorem resetEnd_pending {n : ℕ} : (s.resetEnd e n).pending e = true :=
  Function.update_self ..

@[simp] theorem resetEnd_pending_peer {n : ℕ} :
    (s.resetEnd e n).pending e.peer = s.pending e.peer := Function.update_of_ne e.peer_ne ..

@[simp] theorem takeError_pending_peer : (s.takeError e).pending e.peer = s.pending e.peer :=
  Function.update_of_ne e.peer_ne ..

end Connection

inductive StreamMove (capacity : Side → ℕ) (s : Connection) : StreamAction → Connection → Prop
  | sendBegin (e : Side) (buf beyond : List UInt8) : s.idle e → (s.ends e).isOpen = true →
      StreamMove capacity s (.send e buf beyond) (s.setEnd e
        ((s.ends e).clearWrite.withCall (.sending buf beyond () (s.ends e).flags.write)))
  | sendClosed (e : Side) (buf beyond : List UInt8) : s.idle e → (s.ends e).isOpen = false →
      StreamMove capacity s (.send e buf beyond)
        { s.setEnd e (s.ends e) with log := .threw e .notOpen :: s.log }
  | recieveBegin (e : Side) (size : ℕ) : s.idle e → (s.ends e).isOpen = true →
      StreamMove capacity s (.recieve e size) (s.setEnd e
        ((s.ends e).clearRead.withCall (.receiving size (s.ends e).flags.read)))
  | recieveClosed (e : Side) (size : ℕ) : s.idle e → (s.ends e).isOpen = false →
      StreamMove capacity s (.recieve e size)
        { s.setEnd e (s.ends e).clearRead with log := .threw e .notOpen :: s.log }
  | retry (e : Side) : StreamMove capacity s (.answer e .interrupted) s
  | sent (e : Side) (buf beyond : List UInt8) (ready : Bool) (n : ℕ) (h) :
      (s.ends e).call = .sending buf beyond () ready →
      SendAnswers (s.pipes e) (capacity e) (askedLength buf.length) (buf ++ beyond).length
        (.done n) →
      StreamMove capacity s (.answer e (.done n))
        ((s.setPipe e ((s.pipes e).push ((buf ++ beyond).take n) h)).leave e
          (.sent e buf ready n))
  | sentNothing (e : Side) (buf beyond : List UInt8) (ready : Bool) :
      (s.ends e).call = .sending buf beyond () ready →
      SendAnswers (s.pipes e) (capacity e) (askedLength buf.length) (buf ++ beyond).length
        .again →
      StreamMove capacity s (.answer e .again) (s.leave e (.sent e buf ready 0))
  | received (e : Side) (size : ℕ) (ready : Bool) (n : ℕ) :
      (s.ends e).call = .receiving size ready →
      RecvAnswers (s.pipes e.peer) (s.pending e) (askedLength size) (.done n) →
      StreamMove capacity s (.answer e (.done n))
        ((s.setPipe e.peer ((s.pipes e.peer).pull n)).leave e
          (.received e size ready ((s.pipes e.peer).arrived.take n)))
  | receivedNothing (e : Side) (size : ℕ) (ready : Bool) :
      (s.ends e).call = .receiving size ready →
      RecvAnswers (s.pipes e.peer) (s.pending e) (askedLength size) .again →
      StreamMove capacity s (.answer e .again) (s.leave e (.received e size ready []))
  | failed (e : Side) : ¬ s.idle e →
      StreamMove capacity s (.answer e .failed) ((s.takeError e).leave e (.threw e .system))
  | wait (e : Side) (f : Ready) : s.idle e → (s.ends e).isOpen = true → s.MayMark e capacity f →
      StreamMove capacity s (.wait e f) (s.setEnd e ((s.ends e).mark f))
  | close (e : Side) : s.idle e → (s.ends e).isOpen = true →
      StreamMove capacity s (.close e)
        { (s.setEnd e (s.ends e).close).setPipe e (s.pipes e).close with
          log := .closed e :: s.log }
  | closeAgain (e : Side) : s.idle e → (s.ends e).isOpen = false →
      StreamMove capacity s (.close e) (s.setEnd e (s.ends e).close)
  | carry (e : Side) (n : ℕ) (h) :
      StreamMove capacity s (.carry e n) (s.setPipe e ((s.pipes e).carry n h))
  | finish (e : Side) (h) :
      StreamMove capacity s (.finish e) (s.setPipe e ((s.pipes e).finish h))
  | reset (e : Side) (n : ℕ) : (s.pipes e.peer).broken = false →
      StreamMove capacity s (.reset e n) (s.resetEnd e n)

namespace Connection
variable {capacity : Side → ℕ} {s s' : Connection} {e : Side} {act : StreamAction}

theorem start_ok {m : EStateM TransferError (Endpoint Unit) Unit} {x : Endpoint Unit}
    (h : m (s.ends e) = .ok () x) : s.start e m = s.setEnd e x := by
  unfold start
  rw [h]

theorem start_error {m : EStateM TransferError (Endpoint Unit) Unit} {x : Endpoint Unit}
    {err : TransferError} (h : m (s.ends e) = .error err x) :
    s.start e m = { s.setEnd e x with log := .threw e err :: s.log } := by
  unfold start
  rw [h]

/-- what the return of a system call does -/
theorem answer_move {a : SysResult} (hs : s.answer e capacity a = some s') :
    StreamMove capacity s (.answer e a) s' := by
  unfold answer at hs
  cases hcall : (s.ends e).call with
  | idle =>
    rw [hcall] at hs
    cases hs
  | sending buf beyond dest ready =>
    rw [hcall] at hs
    dsimp only at hs
    have hbusy : ¬ s.idle e := fun h => nomatch hcall.symm.trans h
    split at hs
    case isFalse => cases hs
    case isTrue ha =>
      cases a with
      | interrupted =>
        cases hs
        exact .retry e
      | again =>
        cases hs
        exact .sentNothing e buf beyond ready hcall ha
      | failed =>
        cases hs
        exact .failed e hbusy
      | done n =>
        unfold sendTurn turn at hs
        dsimp only at hs
        split at hs
        · cases hs
          exact .sent e buf beyond ready n _ hcall ha
        · cases hs
  | receiving size ready =>
    rw [hcall] at hs
    dsimp only at hs
    have hbusy : ¬ s.idle e := fun h => nomatch hcall.symm.trans h
    split at hs
    case isFalse => cases hs
    case isTrue ha =>
      cases a with
      | interrupted =>
        cases hs
        exact .retry e
      | again =>
        cases hs
        exact .receivedNothing e size ready hcall ha
      | failed =>
        cases hs
        exact .failed e hbusy
      | done n =>
        cases hs
        exact .received e size ready n hcall ha

/-- **Every step is one of the moves.** -/
theorem streamMove (hs : (stream capacity).step act s = some s') :
    StreamMove capacity s act s' := by
  change step capacity act s = some s' at hs
  cases act with
  | send e buf beyond =>
    obtain ⟨hidle, hs⟩ := Option.ite_none_right_eq_some.mp hs
    cases hs
    cases ho : (s.ends e).isOpen with
    | true =>
      rw [start_ok (beginSend_open ho)]
      exact .sendBegin e buf beyond hidle ho
    | false =>
      rw [start_error (beginSend_closed ho)]
      exact .sendClosed e buf beyond hidle ho
  | recieve e size =>
    obtain ⟨hidle, hs⟩ := Option.ite_none_right_eq_some.mp hs
    cases hs
    cases ho : (s.ends e).isOpen with
    | true =>
      rw [start_ok (beginRecieveTcp_open ho)]
      exact .recieveBegin e size hidle ho
    | false =>
      rw [start_error (beginRecieveTcp_closed ho)]
      exact .recieveClosed e size hidle ho
  | answer e a => exact answer_move hs
  | wait e f =>
    obtain ⟨⟨hidle, ho, hf⟩, hs⟩ := Option.ite_none_right_eq_some.mp hs
    cases hs
    exact .wait e f hidle ho hf
  | close e =>
    obtain ⟨hidle, hs⟩ := Option.ite_none_right_eq_some.mp hs
    cases hs
    unfold closeEnd
    cases ho : (s.ends e).isOpen with
    | true => exact .close e hidle ho
    | false => exact .closeAgain e hidle ho
  | carry e n =>
    dsimp only [step] at hs
    split at hs
    · cases hs
      exact .carry e n _
    · cases hs
  | finish e =>
    dsimp only [step] at hs
    split at hs
    · cases hs
      exact .finish e _
    · cases hs
  | reset e n =>
    obtain ⟨hb, hs⟩ := Option.ite_none_right_eq_some.mp hs
    cases hs
    exact .reset e n hb

end Connection

/-! ## what the calls reported -/

/-- the bytes of the buffers of `e` that `send` reported as sent -/
def sentBytes (e : Side) : List StreamEvent → List UInt8
  | [] => []
  | .sent e' buf _ n :: log => if e' = e then sentBytes e log ++ buf.take n else sentBytes e log
  | _ :: log => sentBytes e log

/-- the bytes that `recieve` returned to `e` -/
def receivedBytes (e : Side) : List StreamEvent → List UInt8
  | [] => []
  | .received e' _ _ bytes :: log =>
    if e' = e then receivedBytes e log ++ bytes else receivedBytes e log
  | _ :: log => receivedBytes e log

section
variable {e e' : Side} {buf bytes : List UInt8} {ready : Bool} {size n : ℕ}
  {err : TransferError} {log : List StreamEvent}

@[simp] theorem sentBytes_sent :
    sentBytes e (.sent e buf ready n :: log) = sentBytes e log ++ buf.take n := if_pos rfl

@[simp] theorem sentBytes_sent_peer :
    sentBytes e.peer (.sent e buf ready n :: log) = sentBytes e.peer log := if_neg e.ne_peer

@[simp] theorem sentBytes_received :
    sentBytes e (.received e' size ready bytes :: log) = sentBytes e log := rfl

@[simp] theorem sentBytes_threw : sentBytes e (.threw e' err :: log) = sentBytes e log := rfl
@[simp] theorem sentBytes_closed : sentBytes e (.closed e' :: log) = sentBytes e log := rfl

@[simp] theorem receivedBytes_received :
    receivedBytes e (.received e size ready bytes :: log) = receivedBytes e log ++ bytes :=
  if_pos rfl

@[simp] theorem receivedBytes_received_peer :
    receivedBytes e.peer (.received e size ready bytes :: log) = receivedBytes e.peer log :=
  if_neg e.ne_peer

@[simp] theorem receivedBytes_sent :
    receivedBytes e (.sent e' buf ready n :: log) = receivedBytes e log := rfl

@[simp] theorem receivedBytes_threw :
    receivedBytes e (.threw e' err :: log) = receivedBytes e log := rfl

@[simp] theorem receivedBytes_closed :
    receivedBytes e (.closed e' :: log) = receivedBytes e log := rfl

end

/-- The system calls stay inside of the buffers. -/
def Fits (_ : Connection) : StreamAction → Prop
  | .send _ buf _ => askedLength buf.length ≤ buf.length
  | .recieve _ size => askedLength size ≤ size
  | _ => True

instance (s : Connection) (act : StreamAction) : Decidable (Fits s act) := by
  apply @StreamAction.casesOn _ act <;> intros <;> dsimp only [Fits] <;> infer_instance

end Setka
