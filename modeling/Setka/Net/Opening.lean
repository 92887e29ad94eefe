import Setka.Net.Descriptors

/-!
# The `open` functions

Each of the three `open` functions returns with an open socket in the non-blocking mode, or throws
and leaves the socket closed, but for one way out: when `fcntl()` fails, `set_nonblocking_mode()`
throws, and nobody closes the socket.

* `Holds`              the member `sock` of an object, and the open descriptors;
* `OpensOrCloses`      what `open` is for;
* `FcntlFails`         the system calls in front of `fcntl()` succeed, and `fcntl()` does not;
* `opensOrCloses_iff`  `open` does what it is for if and only if this is not so.
-/

namespace Setka

/-- The object at `x` is alive and holds `fd`, and the open descriptors are those of `l`. -/
def Holds (x : ℕ) (fd : ℤ) (l : List ℤ) (w : World) : Prop :=
  (∃ s, w.object x = some s ∧ s.sock = fd) ∧ w.descriptors = l

/-- The object holds a descriptor that was handed out after those of `D`. -/
def Opened (x : ℕ) (D : List ℤ) (w : World) : Prop :=
  ∃ fd, fd ≠ invalidSocket ∧ Holds x fd (fd :: D) w

/-- The descriptor is in the non-blocking mode too. -/
def OpenedNonblocking (x : ℕ) (D : List ℤ) (w : World) : Prop :=
  Opened x D w ∧ w.sock x ∈ w.nonblocking

/-- `::socket()` succeeds -/
def handsOut (D : List ℤ) : Option ℕ → Bool
  | none => false
  | some n => (n : ℤ) ∉ D

/-- One of the calls of `::socket()` of `openDual` gives the socket that is used. -/
def Calls.givesSocket (c : Calls) (D : List ℤ) : Bool :=
  (handsOut D c.socket6 && c.v6only) || handsOut D c.socket4

section
variable {x : ℕ} {fd : ℤ} {l D : List ℤ} {w : World} {E : SocketError → World → Prop}

theorem Holds.sock (h : Holds x fd l w) : w.sock x = fd := by
  obtain ⟨⟨s, hs, rfl⟩, _⟩ := h
  exact World.sock_of_object hs

theorem Opened.open (h : Opened x D w) : w.sock x ≠ invalidSocket := by
  obtain ⟨fd, hfd, h⟩ := h
  rwa [h.sock]

/-! ## the parts -/

theorem osSocket_holds {answer : Option ℕ} :
    Triple (Holds x fd D) (osSocket answer) (fun fd' w =>
      Holds x fd (if handsOut D answer then fd' :: D else D) w ∧
        (fd' ≠ invalidSocket ↔ handsOut D answer = true)) E := by
  rintro w ⟨hx, rfl⟩
  show Holds x fd (if handsOut w.descriptors answer then (w.handOut answer).1 :: w.descriptors
    else w.descriptors) (w.handOut answer).2 ∧ _
  unfold handsOut World.handOut
  cases answer with
  | none => exact ⟨⟨hx, rfl⟩, iff_of_false (not_not_intro rfl) Bool.false_ne_true⟩
  | some n =>
    dsimp only
    by_cases hmem : (n : ℤ) ∈ w.descriptors
    · rw [if_pos hmem, if_neg (by simpa using hmem)]
      exact ⟨⟨hx, rfl⟩, iff_of_false (not_not_intro rfl) (by simpa using hmem)⟩
    · have hvalid : (n : ℤ) ≠ invalidSocket := by
        unfold invalidSocket
        omega
      rw [if_neg hmem, if_pos (by simpa using hmem)]
      exact ⟨⟨hx, rfl⟩, iff_of_true hvalid (by simpa using hmem)⟩

theorem setSock_holds {fd' : ℤ} :
    Triple (Holds x fd l) (setSock x fd') (fun _ => Holds x fd' l) E := by
  rintro w ⟨⟨s, hs, _⟩, hl⟩
  show Holds x fd' l (w.update x fun s => { s with sock := fd' })
  rw [World.update_of_object hs]
  exact ⟨⟨_, World.object_put_self hs, rfl⟩, hl⟩

theorem setKind_holds {kind : SocketKind} :
    Triple (Holds x fd l) (setKind x kind) (fun _ => Holds x fd l) E := by
  rintro w ⟨⟨s, hs, hfd⟩, hl⟩
  show Holds x fd l (w.update x fun s => { s with kind := kind })
  rw [World.update_of_object hs]
  exact ⟨⟨_, World.object_put_self hs, hfd⟩, hl⟩

theorem sock_holds : Triple (Holds x fd l) (sock x) (fun fd' w => Holds x fd l w ∧ fd' = fd) E :=
  fun _ h => ⟨h, h.sock⟩

theorem setKind_opened {kind : SocketKind} :
    Triple (Opened x D) (setKind x kind) (fun _ => Opened x D) E := by
  rintro w ⟨fd, hfd, h⟩
  exact ⟨fd, hfd, setKind_holds (E := E) w h⟩

/-- `close()` gives the descriptor back. -/
theorem closeSocket_opened :
    Triple (Opened x D) (closeSocket x) (fun _ => Holds x invalidSocket D) E := by
  have hclose : Triple (Opened x D) (closeDescriptor x) (fun _ w => ∃ fd, Holds x fd D w) E := by
    refine .bind (R := fun fd w => Holds x fd (fd :: D) w ∧ fd ≠ invalidSocket) ?_ fun fd => ?_
    · rintro w ⟨fd, hfd, h⟩
      show Holds x (w.sock x) (w.sock x :: D) w ∧ w.sock x ≠ invalidSocket
      rw [h.sock]
      exact ⟨h, hfd⟩
    · refine .fact fun hfd => ?_
      rw [if_pos hfd]
      rintro w ⟨hx, hl⟩
      refine ⟨fd, ?_⟩
      show Holds x fd D (w.giveBack fd)
      unfold World.giveBack
      rw [hl, if_pos List.mem_cons_self, List.erase_cons_head]
      exact ⟨hx, rfl⟩
  refine .bind hclose fun _ => ?_
  rintro w ⟨fd, h⟩
  exact setSock_holds (E := E) w h

/-- `this->close()` in front of an exception -/
theorem ensureClosing_opened {P : World → Prop} {ok : Bool} {e : SocketError}
    (hP : ∀ w, P w → Opened x D w) :
    Triple P (ensureClosing x ok e) (fun _ w => P w ∧ ok = true)
      fun _ w => w.sock x = invalidSocket ∧ ok = false := by
  refine .ite (fun hok => .pure fun _ h => ⟨h, hok⟩) fun hok => ?_
  refine .bind (closeSocket_opened.pre hP) fun _ => .throw fun _ h => ⟨h.sock, ?_⟩
  exact Bool.not_eq_true _ ▸ hok

/-- the descriptor an open socket reads from its member -/
theorem sock_opened : Triple (Opened x D) (sock x) (fun fd w =>
    (Opened x D w ∧ w.sock x = fd) ∧ fd ≠ invalidSocket) E :=
  fun _ h => ⟨⟨h, rfl⟩, h.open⟩

theorem disableNaggle_opened {asked : Bool} :
    Triple (Opened x D) (disableNaggle asked x) (fun _ => Opened x D) E := by
  refine .bind sock_opened fun fd => .fact fun hfd => .ite (fun _ => ?_) fun hno => ?_
  · exact .pure fun _ h => h.1
  · rw [decide_eq_true hfd, Bool.or_true] at hno
    exact absurd rfl hno

/-- **`set_nonblocking_mode()`** throws if `fcntl()` fails, and the socket stays open. -/
theorem setNonblockingMode_opened {c : Calls} :
    Triple (Opened x D) (setNonblockingMode x c)
      (fun _ w => OpenedNonblocking x D w ∧ c.getFlags = true ∧ c.setFlags = true)
      fun _ w => Opened x D w ∧ ¬ (c.getFlags = true ∧ c.setFlags = true) := by
  refine .bind sock_opened fun fd => .fact fun hfd => ?_
  rw [decide_eq_true hfd]
  refine .bind (R := fun _ w => Opened x D w ∧ w.sock x = fd) (.pure fun _ h => h) fun _ => ?_
  refine .bind (R := fun _ w => (Opened x D w ∧ w.sock x = fd) ∧ c.getFlags = true) ?_ fun _ => ?_
  · exact .ite (fun hok => .pure fun _ h => ⟨h, hok⟩) fun hno => .throw fun _ h =>
      ⟨h.1, fun hok => hno hok.1⟩
  refine .fact fun hget => ?_
  refine .bind (R := fun _ w => (Opened x D w ∧ w.sock x = fd) ∧ c.setFlags = true) ?_ fun _ => ?_
  · exact .ite (fun hok => .pure fun _ h => ⟨h, hok⟩) fun hno => .throw fun _ h =>
      ⟨h.1, fun hok => hno hok.2⟩
  rintro w ⟨⟨h, hsock⟩, hset⟩
  refine ⟨⟨h, ?_⟩, hget, hset⟩
  show w.sock x ∈ fd :: w.nonblocking
  rw [hsock]
  exact List.mem_cons_self

/-! ## the socket -/

theorem openSocket_holds {answer : Option ℕ} :
    Triple (Holds x invalidSocket D) (openSocket x answer)
      (fun _ w => Opened x D w ∧ handsOut D answer = true)
      fun _ w => w.sock x = invalidSocket ∧ handsOut D answer = false := by
  refine .bind osSocket_holds fun fd => .fact fun hfd => ?_
  refine .bind setSock_holds fun _ => .bind sock_holds fun fd' => .fact ?_
  rintro rfl
  refine .ite (fun hok => .pure fun w h => ?_) fun hno => .throw fun w h => ?_
  · have hvalid := of_decide_eq_true hok
    rw [if_pos (hfd.mp hvalid)] at h
    exact ⟨⟨fd', hvalid, h⟩, hfd.mp hvalid⟩
  · have hinvalid : fd' = invalidSocket := by simpa using hno
    refine ⟨h.sock.trans hinvalid, ?_⟩
    by_contra hgives
    exact hfd.mpr (by simpa using hgives) hinvalid

theorem openDual_holds {c : Calls} :
    Triple (Holds x invalidSocket D) (openDual x c)
      (fun _ w => Opened x D w ∧ c.givesSocket D = true)
      fun _ w => w.sock x = invalidSocket ∧ c.givesSocket D = false := by
  have hopen4 : ∀ (h6 : (handsOut D c.socket6 && c.v6only) = false),
      Triple (Holds x invalidSocket D) (do openSocket x c.socket4; return true)
        (fun (_ : Bool) w => Opened x D w ∧ c.givesSocket D = true)
        fun _ w => w.sock x = invalidSocket ∧ c.givesSocket D = false := by
    intro h6
    unfold Calls.givesSocket
    rw [h6, Bool.false_or]
    exact .bind openSocket_holds fun _ => .pure fun _ h => h
  refine .bind osSocket_holds fun fd => .fact fun hfd => ?_
  refine .bind setSock_holds fun _ => .bind sock_holds fun fd' => .fact ?_
  rintro rfl
  refine .ite (fun hinvalid => ?_) fun hvalid => ?_
  · -- no IPv6
    have hno : handsOut D c.socket6 = false := by
      by_contra hgives
      exact hfd.mpr (by simpa using hgives) hinvalid
    rw [hno, if_neg Bool.false_ne_true, hinvalid]
    exact hopen4 (by rw [hno, Bool.false_and])
  · have hgives := hfd.mp hvalid
    rw [if_pos hgives]
    refine .ite (fun hdual => .pure fun w h => ?_) fun hdual => ?_
    · refine ⟨⟨fd', hvalid, h⟩, ?_⟩
      unfold Calls.givesSocket
      rw [hgives, hdual]
      rfl
    · -- no dual stack
      refine .bind (closeSocket_opened.pre fun w h => ⟨fd', hvalid, h⟩) fun _ => hopen4 ?_
      rw [hgives, Bool.true_and]
      exact Bool.not_eq_true _ ▸ hdual

end

/-! ## the `open` functions -/

/-- a call of `open` of one of the three classes, with its arguments -/
inductive OpenCall where
  | udp (port : UInt16)
  | server (naggle : Bool)
  | tcp (ip : Address) (naggle : Bool)

namespace OpenCall

def method (x : ℕ) (c : Calls) : OpenCall → Method Unit
  | .udp port => openUdp x port c
  | .server naggle => openServer x naggle c
  | .tcp ip naggle => openTcp x ip naggle c

/-- The calls in front of `fcntl()` succeed, where `D` are the open descriptors. -/
def reachesFcntl (D : List ℤ) (c : Calls) : OpenCall → Bool
  | .udp port => c.givesSocket D && (port = 0 || c.bound)
  | .server _ => c.givesSocket D && c.bound && c.listening
  | .tcp ip _ => handsOut D (if ip.host.isV4 then c.socket4 else c.socket6)

/-- `fcntl()` is called, and one of its two calls fails. -/
def FcntlFails (o : OpenCall) (D : List ℤ) (c : Calls) : Prop :=
  o.reachesFcntl D c = true ∧ ¬ (c.getFlags = true ∧ c.setFlags = true)

/-- What `open` of the object at `x` is for: it returns with an open socket in the non-blocking
mode, or throws with the socket closed. -/
def OpensOrCloses (o : OpenCall) (x : ℕ) (c : Calls) (w : World) : Prop :=
  match o.method x c w with
  | .ok _ w' => w'.sock x ≠ invalidSocket ∧ w'.sock x ∈ w'.nonblocking
  | .error _ w' => w'.sock x = invalidSocket

variable {x : ℕ} {D : List ℤ} {c : Calls} {F : Prop}

/-- how `open` ends, where `F` says that `fcntl()` fails -/
def Ends (x : ℕ) (D : List ℤ) (F : Prop) (m : Method Unit) : Prop :=
  Triple (Holds x invalidSocket D) m (fun _ w => OpenedNonblocking x D w ∧ ¬ F)
    fun _ w => (w.sock x = invalidSocket ∧ ¬ F) ∨ (Opened x D w ∧ F)

/-- the guard in front of the `open` functions -/
theorem ends_guarded {m : Method Unit} {e : SocketError} (h : Ends x D F m) :
    Ends x D F (do ensure ((← sock x) = invalidSocket) e; m) := by
  refine .bind sock_holds fun fd => .fact ?_
  rintro rfl
  exact h

/-- the rest of `open` behind the socket -/
theorem ends_behind {α : Type} {m : Method α} {f : α → Method Unit} {gives : Bool}
    (hm : Triple (Holds x invalidSocket D) m (fun _ w => Opened x D w ∧ gives = true)
      fun _ w => w.sock x = invalidSocket ∧ gives = false)
    (hF : F → gives = true)
    (hf : gives = true → ∀ a, Triple (Opened x D) (f a) (fun _ w => OpenedNonblocking x D w ∧ ¬ F)
      fun _ w => (w.sock x = invalidSocket ∧ ¬ F) ∨ (Opened x D w ∧ F)) :
    Ends x D F (m >>= f) := by
  refine .bind (hm.postError fun _ w h => .inl ⟨h.1, fun hfails => ?_⟩)
    fun a => .fact fun hg => hf hg a
  rw [hF hfails] at h
  cases h.2

variable {o : OpenCall}

/-- a call in front of `fcntl()` that closes the socket if it fails -/
theorem ensureClosing_before {ok : Bool} {e : SocketError}
    (hreach : o.reachesFcntl D c = true → ok = true) :
    Triple (Opened x D) (ensureClosing x ok e) (fun _ w => Opened x D w ∧ ok = true)
      fun _ w => (w.sock x = invalidSocket ∧ ¬ o.FcntlFails D c) ∨
        (Opened x D w ∧ o.FcntlFails D c) := by
  refine (ensureClosing_opened fun _ h => h).postError fun _ w h => .inl ⟨h.1, fun hF => ?_⟩
  rw [hreach hF.1] at h
  cases h.2

theorem setNonblockingMode_ends (hreach : o.reachesFcntl D c = true) :
    Triple (Opened x D) (setNonblockingMode x c)
      (fun _ w => OpenedNonblocking x D w ∧ ¬ o.FcntlFails D c)
      fun _ w => (w.sock x = invalidSocket ∧ ¬ o.FcntlFails D c) ∨
        (Opened x D w ∧ o.FcntlFails D c) :=
  setNonblockingMode_opened.conseq (fun _ h => h)
    (fun _ _ h => ⟨h.1, fun hF => hF.2 h.2⟩) fun _ _ h => .inr ⟨h.1, hreach, h.2⟩

/-- a call behind `fcntl()` that closes the socket if it fails -/
theorem ensureClosing_behind {ok : Bool} {e : SocketError} (hF : ¬ F) :
    Triple (OpenedNonblocking x D) (ensureClosing x ok e)
      (fun _ w => OpenedNonblocking x D w ∧ ¬ F)
      fun _ w => (w.sock x = invalidSocket ∧ ¬ F) ∨ (Opened x D w ∧ F) :=
  (ensureClosing_opened (D := D) fun _ h => h.1).conseq (fun _ h => h)
    (fun _ _ h => ⟨h.1, hF⟩) fun _ _ h => .inl ⟨h.1, hF⟩

theorem openUdp_ends (port : UInt16) :
    Ends x D ((udp port).FcntlFails D c) (openUdp x port c) := by
  refine ends_guarded (.bind setKind_holds fun _ => ?_)
  refine ends_behind openDual_holds (fun hF => (Bool.and_eq_true _ _ ▸ hF.1).1)
    fun hgives ipv4 => ?_
  have hreach : (udp port).reachesFcntl D c = (decide (port = 0) || c.bound) := by
    show (c.givesSocket D && _) = _
    rw [hgives, Bool.true_and]
  refine .bind setKind_opened fun _ => ?_
  refine .bind (ensureClosing_before (o := udp port) (c := c) fun h => hreach ▸ h) fun _ => ?_
  refine .fact fun hbound => ?_
  refine .bind (setNonblockingMode_ends (hreach.trans hbound)) fun _ => .fact fun hF => ?_
  exact ensureClosing_behind hF

theorem openServer_ends (naggle : Bool) :
    Ends x D ((server naggle).FcntlFails D c) (openServer x naggle c) := by
  have hparts : (server naggle).reachesFcntl D c = true →
      c.givesSocket D = true ∧ c.bound = true ∧ c.listening = true := by
    intro h
    have hand : (c.givesSocket D && c.bound && c.listening) = true := h
    rw [Bool.and_eq_true, Bool.and_eq_true, and_assoc] at hand
    exact hand
  refine ends_guarded (.bind setKind_holds fun _ => ?_)
  refine ends_behind openDual_holds (fun hF => (hparts hF.1).1) fun hgives _ => ?_
  refine .bind (ensureClosing_before (o := server naggle) (c := c) fun h => (hparts h).2.1)
    fun _ => .fact fun hbound => ?_
  refine .bind (ensureClosing_before (o := server naggle) (c := c) fun h => (hparts h).2.2)
    fun _ => .fact fun hlistening => ?_
  refine setNonblockingMode_ends ?_
  show (c.givesSocket D && c.bound && c.listening) = true
  rw [hgives, hbound, hlistening]
  rfl

theorem openTcp_ends (ip : Address) (naggle : Bool) :
    Ends x D ((tcp ip naggle).FcntlFails D c) (openTcp x ip naggle c) := by
  refine ends_guarded (ends_behind openSocket_holds (fun hF => hF.1) fun hgives _ => ?_)
  refine .bind disableNaggle_opened fun _ => ?_
  refine .bind (setNonblockingMode_ends hgives) fun _ => .fact fun hF => ?_
  exact ensureClosing_behind hF

theorem ends (o : OpenCall) (x : ℕ) (D : List ℤ) (c : Calls) :
    Ends x D (o.FcntlFails D c) (o.method x c) := by
  cases o with
  | udp port => exact openUdp_ends port
  | server naggle => exact openServer_ends naggle
  | tcp ip naggle => exact openTcp_ends ip naggle

end OpenCall

/-- **`open` opens the socket or leaves it closed** if and only if `fcntl()` does not fail. -/
theorem opensOrCloses_iff (o : OpenCall) {x : ℕ} {c : Calls} {w : World} {s : Socket}
    (hx : w.object x = some s) (hclosed : s.sock = invalidSocket) :
    o.OpensOrCloses x c w ↔ ¬ o.FcntlFails w.descriptors c := by
  have h := o.ends x w.descriptors c w ⟨⟨s, hx, hclosed⟩, rfl⟩
  unfold OpenCall.OpensOrCloses
  cases hr : o.method x c w with
  | ok a w' =>
    rw [hr] at h
    obtain ⟨⟨hopened, hmode⟩, hF⟩ := h
    exact iff_of_true ⟨hopened.open, hmode⟩ hF
  | error e w' =>
    rw [hr] at h
    rcases h with ⟨hsock, hF⟩ | ⟨hopened, hF⟩
    · exact iff_of_true hsock hF
    · exact iff_of_false hopened.open (not_not_intro hF)

/-- a UDP socket that is not open -/
def closedUdp : World := { objects := [some ⟨.udp false, invalidSocket⟩] }

/-- On a system without IPv6, with the port in use, the socket is closed again. -/
theorem opensOrCloses_iff_portInUse :
    (OpenCall.udp 53).OpensOrCloses 0 { socket4 := some 3, bound := false } closedUdp :=
  (opensOrCloses_iff (.udp 53) rfl rfl).mpr fun h => h.2 ⟨rfl, rfl⟩

/-- When `fcntl()` fails, `open` throws and the socket stays open. -/
theorem fcntl_leaves_open : ¬ ∀ (o : OpenCall) (x : ℕ) (c : Calls) (w : World) (s : Socket),
    w.object x = some s → s.sock = invalidSocket → o.OpensOrCloses x c w := by
  intro hall
  have hsock : (3 : ℤ) = invalidSocket :=
    hall (.udp 53) 0 { socket6 := some 3, getFlags := false } closedUdp _ rfl rfl
  exact absurd hsock (by decide)

end Setka
