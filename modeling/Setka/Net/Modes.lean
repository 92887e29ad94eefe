import Setka.Net.Descriptors

/-!
# Sockets that do not block

`send`, `recieve` and `accept` are for sockets that are in the non-blocking mode, which `open` and
`accept` set with `fcntl()`.  Between two calls of a program every open descriptor is in this mode;
inside of a call it is all but the one that is being opened.

* `NoneBlocking`, `BlockingOnly fd`   these assertions;
* `Setting x`, `Closed x`             the object at `x` has this descriptor, or none blocks;
* `open_nonblocking`                  every open socket is in the non-blocking mode.
-/

namespace Setka

def NoneBlocking (w : World) : Prop :=
  w.descriptors.Nodup ∧ ∀ d ∈ w.descriptors, d ∈ w.nonblocking

/-- Only `fd` may block. -/
def BlockingOnly (fd : ℤ) (w : World) : Prop :=
  w.descriptors.Nodup ∧ ∀ d ∈ w.descriptors, d ∉ w.nonblocking → d = fd ∧ fd ≠ invalidSocket

def Live (x : ℕ) (w : World) : Prop := ∃ s, w.object x = some s

/-- The object has the descriptor that is being opened. -/
def Setting (x : ℕ) (w : World) : Prop := BlockingOnly (w.sock x) w ∧ Live x w

def Closed (x : ℕ) (w : World) : Prop := NoneBlocking w ∧ Live x w

/-- `fcntl()` succeeds. -/
def Calls.setsMode (c : Calls) : Prop := c.getFlags = true ∧ c.setFlags = true

instance (c : Calls) : Decidable c.setsMode := inferInstanceAs (Decidable (_ ∧ _))

/-! ## descriptors -/

section
variable {w : World} {x y : ℕ} {fd : ℤ} {f : Socket → Socket}

theorem NoneBlocking.only (h : NoneBlocking w) (fd : ℤ) : BlockingOnly fd w :=
  ⟨h.1, fun d hd hno => absurd (h.2 d hd) hno⟩

theorem BlockingOnly.none (h : BlockingOnly fd w) (hfd : fd = invalidSocket) : NoneBlocking w :=
  ⟨h.1, fun d hd => by_contra fun hno => (h.2 d hd hno).2 hfd⟩

theorem Closed.setting (h : Closed x w) : Setting x w := ⟨h.1.only _, h.2⟩

@[simp] theorem World.update_descriptors : (w.update x f).descriptors = w.descriptors := by
  unfold update
  split <;> rfl

@[simp] theorem World.update_nonblocking : (w.update x f).nonblocking = w.nonblocking := by
  unfold update
  split <;> rfl

theorem NoneBlocking.update (h : NoneBlocking w) : NoneBlocking (w.update x f) := by
  simpa [NoneBlocking] using h

theorem BlockingOnly.update (h : BlockingOnly fd w) : BlockingOnly fd (w.update x f) := by
  simpa [BlockingOnly] using h

theorem Live.update (h : Live y w) : Live y (w.update x f) := by
  obtain ⟨s, hs⟩ := h
  cases hx : w.object x with
  | none =>
    unfold World.update
    rw [hx]
    exact ⟨s, hs⟩
  | some t =>
    rw [World.update_of_object hx]
    rcases eq_or_ne y x with rfl | hne
    · exact ⟨f t, World.object_put_self hx⟩
    · exact ⟨s, (World.object_put_ne hne).trans hs⟩

theorem Live.giveBack (h : Live y w) : Live y (w.giveBack fd) := by
  obtain ⟨s, hs⟩ := h
  unfold World.giveBack
  split
  · exact ⟨s, hs⟩
  · exact ⟨s, hs⟩

theorem Live.sock_update {g : ℤ} (h : Live x w) (hf : ∀ s, (f s).sock = g) :
    (w.update x f).sock x = g := by
  obtain ⟨s, hs⟩ := h
  rw [World.update_of_object hs, World.sock_of_object (World.object_put_self hs)]
  exact hf s

theorem Live.sock_kind {kind : SocketKind} (h : Live x w) :
    (w.update x fun s => { s with kind := kind }).sock x = w.sock x := by
  obtain ⟨s, hs⟩ := h
  rw [World.update_of_object hs, World.sock_of_object (World.object_put_self hs),
    World.sock_of_object hs]

/-- A descriptor that is handed out blocks, and is the only one. -/
theorem NoneBlocking.handOut (h : NoneBlocking w) (answer : Option ℕ) :
    BlockingOnly (w.handOut answer).1 (w.handOut answer).2 := by
  cases answer with
  | none => exact h.only _
  | some n =>
    unfold World.handOut
    by_cases hmem : (n : ℤ) ∈ w.descriptors
    · simp only [if_pos hmem]
      exact h.only _
    · simp only [if_neg hmem]
      refine ⟨List.nodup_cons.mpr ⟨hmem, h.1⟩, fun d hd hno => ?_⟩
      have hvalid : (n : ℤ) ≠ invalidSocket := by
        unfold invalidSocket
        omega
      rcases List.mem_cons.mp hd with rfl | hd
      · exact ⟨rfl, hvalid⟩
      · refine absurd (List.mem_filter.mpr ⟨h.2 d hd, ?_⟩) hno
        rw [decide_eq_true_iff]
        rintro rfl
        exact hmem hd

/-- A descriptor that is given back does not block any more. -/
theorem BlockingOnly.giveBack (h : BlockingOnly fd w) : NoneBlocking (w.giveBack fd) := by
  unfold World.giveBack
  by_cases hmem : fd ∈ w.descriptors
  · rw [if_pos hmem]
    refine ⟨h.1.erase fd, fun d hd => by_contra fun hno => ?_⟩
    obtain ⟨hne, hd⟩ := h.1.mem_erase_iff.mp hd
    exact hne (h.2 d hd hno).1
  · rw [if_neg hmem]
    refine ⟨h.1, fun d hd => by_contra fun hno => ?_⟩
    exact hmem ((h.2 d hd hno).1 ▸ hd)

theorem BlockingOnly.nonblock (h : BlockingOnly fd w) :
    NoneBlocking { w with nonblocking := fd :: w.nonblocking } := by
  refine ⟨h.1, fun d hd => ?_⟩
  by_cases hno : d ∈ w.nonblocking
  · exact List.mem_cons_of_mem fd hno
  · rw [(h.2 d hd hno).1]
    exact List.mem_cons_self

end

/-! ## the parts of `open` and `accept` -/

section
variable {P : World → Prop} {E : SocketError → World → Prop} {x y s : ℕ} {fd : ℤ} {c : Calls}
  {kind : SocketKind}

theorem osSocket_modes {answer : Option ℕ} :
    Triple (Closed x) (osSocket answer) (fun fd w => BlockingOnly fd w ∧ Live x w) E := by
  rintro w ⟨h, hlive⟩
  refine ⟨h.handOut answer, ?_⟩
  obtain ⟨s, hs⟩ := hlive
  show Live x (w.handOut answer).2
  unfold World.handOut
  cases answer with
  | none => exact ⟨s, hs⟩
  | some n =>
    dsimp only
    split
    · exact ⟨s, hs⟩
    · exact ⟨s, hs⟩

theorem setSock_modes :
    Triple (fun w => BlockingOnly fd w ∧ Live x w) (setSock x fd) (fun _ => Setting x) E := by
  rintro w ⟨h, hlive⟩
  have hsock : (w.update x fun s => { s with sock := fd }).sock x = fd :=
    hlive.sock_update fun _ => rfl
  refine ⟨?_, hlive.update⟩
  show BlockingOnly ((w.update x fun s => { s with sock := fd }).sock x) _
  rw [hsock]
  exact h.update

theorem setSock_none : Triple NoneBlocking (setSock x fd) (fun _ => NoneBlocking) E :=
  fun _ h => h.update

theorem setKind_none : Triple NoneBlocking (setKind x kind) (fun _ => NoneBlocking) E :=
  fun _ h => h.update

theorem setKind_closed : Triple (Closed x) (setKind x kind) (fun _ => Closed x) E :=
  fun _ h => ⟨h.1.update, h.2.update⟩

theorem setKind_setting : Triple (Setting x) (setKind x kind) (fun _ => Setting x) E := by
  rintro w ⟨h, hlive⟩
  refine ⟨?_, hlive.update⟩
  show BlockingOnly ((w.update x fun s => { s with kind := kind }).sock x) _
  rw [hlive.sock_kind]
  exact h.update

/-- Whatever descriptor the object has, none blocks behind `close()`. -/
theorem closeSocket_modes :
    Triple (fun w => BlockingOnly (w.sock x) w) (closeSocket x) (fun _ => NoneBlocking) E := by
  refine .bind (R := fun _ => NoneBlocking) ?_ fun _ => setSock_none
  refine .bind sock_spec fun fd => .ite (fun _ => ?_) fun hfd => .pure ?_
  · rintro w ⟨h, rfl⟩
    exact h.giveBack
  · rintro w ⟨h, rfl⟩
    exact h.none (not_not.mp hfd)

theorem closeSocket_live : Triple (Live y) (closeSocket x) (fun _ => Live y) E := by
  refine .bind (R := fun _ => Live y) ?_ fun _ _ h => h.update
  refine .bind sock_spec fun fd => .ite (fun _ _ h => h.1.giveBack) fun _ => ?_
  exact .pure fun _ h => h.1

theorem closeSocket_setting : Triple (Setting x) (closeSocket x) (fun _ => Closed x) E :=
  (closeSocket_modes.and (closeSocket_live (E := E))).postError fun _ _ h => h.1

theorem closeSocket_none : Triple NoneBlocking (closeSocket x) (fun _ => NoneBlocking) E :=
  closeSocket_modes.pre fun _ h => h.only _

theorem ensure_modes {ok : Bool} {e : SocketError} (hE : ok = false → ∀ w, P w → E e w) :
    Triple P (ensure ok e) (fun _ w => P w ∧ ok = true) E :=
  .ite (fun hok => .pure fun _ h => ⟨h, hok⟩) fun hno =>
    .throw (hE (Bool.not_eq_true _ ▸ hno))

theorem ensureClosing_modes {ok : Bool} {e : SocketError} (hP : ∀ w, P w → Setting x w) :
    Triple P (ensureClosing x ok e) (fun _ => P) fun _ => NoneBlocking :=
  .ite (fun _ => .pure fun _ h => h) fun _ =>
    .bind (closeSocket_setting.pre hP) fun _ => .throw fun _ h => h.1

theorem openSocket_modes {answer : Option ℕ} :
    Triple (Closed x) (openSocket x answer) (fun _ => Setting x) fun _ => NoneBlocking := by
  refine .bind osSocket_modes fun fd => .bind setSock_modes fun _ => .bind sock_spec fun fd => ?_
  refine (ensure_modes fun hno w h => ?_).post fun _ _ h => h.1.1
  exact h.1.1.none (h.2.trans (by simpa using hno))

/-- the socket that an IPv6 or an IPv4 `open` uses -/
theorem openDual_modes :
    Triple (Closed x) (openDual x c) (fun _ => Setting x) fun _ => NoneBlocking := by
  refine .bind osSocket_modes fun fd => .bind setSock_modes fun _ => .bind sock_spec fun fd => ?_
  refine .ite (fun hfd => ?_) fun _ => .ite (fun _ => .pure fun _ h => h.1) fun _ => ?_
  · -- no IPv6: the member holds nothing
    refine .bind (openSocket_modes.pre fun w h => ?_) fun _ => .pure fun _ h => h
    exact ⟨h.1.1.none (h.2.trans hfd), h.1.2⟩
  · -- no dual stack: the member is closed first
    refine .bind (closeSocket_setting.pre fun _ h => h.1) fun _ => ?_
    exact .bind openSocket_modes fun _ => .pure fun _ h => h

/-- **`set_nonblocking_mode()`** leaves nothing that blocks if `fcntl()` succeeds. -/
theorem setNonblockingMode_modes :
    Triple (Setting x) (setNonblockingMode x c) (fun _ => Closed x)
      fun _ w => Setting x w ∧ (c.setsMode → NoneBlocking w) := by
  refine .bind sock_spec fun fd => .bind (ensure_modes fun hno w h => ?_) fun _ =>
    .bind (ensure_modes fun hno w h => ?_) fun _ =>
      .bind (ensure_modes fun hno w h => ?_) fun _ => ?_
  · exact ⟨h.1, fun _ => h.1.1.none (h.2.trans (by simpa using hno))⟩
  · exact ⟨h.1.1, fun hc => absurd (hno.symm.trans hc.1) (by decide)⟩
  · exact ⟨h.1.1.1, fun hc => absurd (hno.symm.trans hc.2) (by decide)⟩
  · rintro w ⟨⟨⟨⟨⟨h, hlive⟩, rfl⟩, _⟩, _⟩, _⟩
    exact ⟨h.nonblock, hlive⟩

theorem disableNaggle_modes {asked : Bool} (hP : ∀ w, P w → Setting x w) :
    Triple P (disableNaggle asked x) (fun _ => P) fun _ => NoneBlocking := by
  refine .bind sock_spec fun fd => (ensure_modes fun hno w h => ?_).post fun _ _ h => h.1.1
  have hfd : fd = invalidSocket := by
    rw [Bool.or_eq_false_iff] at hno
    simpa using hno.2
  exact (hP w h.1).1.none (h.2.trans hfd)

/-! ## `open` -/

theorem guard_modes {e : SocketError} {f : Method Unit}
    (hf : Triple (Closed x) f (fun _ => NoneBlocking) fun _ => NoneBlocking) :
    Triple (Closed x) (do ensure ((← sock x) = invalidSocket) e; f) (fun _ => NoneBlocking)
      fun _ => NoneBlocking :=
  .bind sock_spec fun _ => .bind (ensure_modes fun _ _ h => h.1.1) fun _ =>
    hf.pre fun _ h => h.1.1

/-- The mode is set, and `open` goes on with `f`. -/
theorem modeSet {f : Unit → Method Unit} (hc : c.setsMode)
    (hf : Triple (Closed x) (f ()) (fun _ => NoneBlocking) fun _ => NoneBlocking) :
    Triple (Setting x) (setNonblockingMode x c >>= f) (fun _ => NoneBlocking)
      fun _ => NoneBlocking :=
  .bind (setNonblockingMode_modes.postError fun _ _ h => h.2 hc) fun _ => hf

theorem closing_none {ok : Bool} {e : SocketError} :
    Triple (Closed x) (ensureClosing x ok e) (fun _ => NoneBlocking) fun _ => NoneBlocking :=
  (ensureClosing_modes fun _ h => h.setting).post fun _ _ h => h.1

theorem openUdp_modes {port : UInt16} (hc : c.setsMode) :
    Triple (Closed x) (openUdp x port c) (fun _ => NoneBlocking) fun _ => NoneBlocking :=
  guard_modes <| .bind setKind_closed fun _ => .bind openDual_modes fun _ =>
    .bind setKind_setting fun _ => .bind (ensureClosing_modes fun _ h => h) fun _ =>
      modeSet hc closing_none

theorem openServer_modes {naggle : Bool} (hc : c.setsMode) :
    Triple (Closed x) (openServer x naggle c) (fun _ => NoneBlocking) fun _ => NoneBlocking :=
  guard_modes <| .bind setKind_closed fun _ => .bind openDual_modes fun _ =>
    .bind (ensureClosing_modes fun _ h => h) fun _ =>
      .bind (ensureClosing_modes fun _ h => h) fun _ =>
        setNonblockingMode_modes.conseq (fun _ h => h) (fun _ _ h => h.1) fun _ _ h => h.2 hc

theorem openTcp_modes {ip : Address} {naggle : Bool} (hc : c.setsMode) :
    Triple (Closed x) (openTcp x ip naggle c) (fun _ => NoneBlocking) fun _ => NoneBlocking :=
  guard_modes <| .bind openSocket_modes fun _ => .bind (disableNaggle_modes fun _ h => h) fun _ =>
    modeSet hc closing_none

/-! ## moves -/

theorem construct_modes : Triple NoneBlocking (construct kind) (fun x => Closed x) E := by
  intro w h
  refine ⟨h, ⟨kind, invalidSocket⟩, ?_⟩
  show ((w.objects ++ [some ⟨kind, invalidSocket⟩])[w.objects.length]?).join = _
  rw [List.getElem?_concat_length]
  rfl

theorem destroy_modes :
    Triple (fun w => BlockingOnly (w.sock x) w) (destroy x) (fun _ => NoneBlocking) E :=
  .bind closeSocket_modes fun _ _ h => h

theorem assignSocket_modes {added : Bool} :
    Triple NoneBlocking (assignSocket x s added) (fun _ => NoneBlocking) fun _ => NoneBlocking :=
  .ite (fun _ => .pure fun _ h => h) fun _ => .bind (ensure_modes fun _ _ h => h) fun _ =>
    .bind (closeSocket_none.pre fun _ h => h.1) fun _ => .bind sock_spec fun _ =>
      .bind (setSock_none.pre fun _ h => h.1) fun _ => setSock_none

theorem moveConstruct_modes {ipv4 added : Bool} :
    Triple NoneBlocking (moveConstruct s ipv4 added) (fun _ => NoneBlocking)
      fun _ => NoneBlocking := by
  refine .bind get_spec fun _ => .bind construct_modes fun x => ?_
  refine .bind (R := fun _ => NoneBlocking) ?_ fun _ => .pure fun _ h => h
  refine .tryCatch (assignSocket_modes.pre fun _ h => h.1) fun e => ?_
  exact .bind (destroy_modes.pre fun _ h => h.only _) fun _ => .throw fun _ h => h

theorem moveAssign_modes {added : Bool} :
    Triple NoneBlocking (moveAssign x s added) (fun _ => NoneBlocking) fun _ => NoneBlocking := by
  refine .bind get_spec fun w => ?_
  cases (w.object s).elim .tcp Socket.kind with
  | tcp => exact assignSocket_modes
  | udp ipv4 => exact .bind assignSocket_modes fun _ => setKind_none
  | tcpServer naggle => exact .bind setKind_none fun _ => assignSocket_modes

/-! ## `accept` -/

theorem returnLocal_modes {elided added : Bool} :
    Triple NoneBlocking (returnLocal s elided added) (fun _ => NoneBlocking)
      fun _ => NoneBlocking := by
  refine .ite (fun _ => .pure fun _ h => h) fun _ => .bind moveConstruct_modes fun r => ?_
  exact .bind (destroy_modes.pre fun _ h => h.only _) fun _ => .pure fun _ h => h

/-- An exception leaves the local object with a descriptor that may block. -/
theorem acceptInto_modes {elided added : Bool} :
    Triple (Closed s) (acceptInto x s c elided added) (fun _ => NoneBlocking)
      fun _ w => BlockingOnly (w.sock s) w := by
  have hreturn : Triple NoneBlocking (returnLocal s elided added) (fun _ => NoneBlocking)
      fun _ w => BlockingOnly (w.sock s) w := returnLocal_modes.postError fun _ _ h => h.only _
  refine .bind osSocket_modes fun fd => .bind setSock_modes fun _ => .bind sock_spec fun fd =>
    .ite (fun hfd => hreturn.pre fun w h => h.1.1.none (h.2.trans hfd)) fun _ => ?_
  refine .bind ((setNonblockingMode_modes.pre fun _ h => h.1).postError fun _ _ h => h.1.1)
    fun _ => .bind get_spec fun w => ?_
  exact .bind ((disableNaggle_modes fun _ h => h.setting).postError fun _ _ h => h.only _)
    fun _ => hreturn.pre fun _ h => h.1

theorem accept_modes {elided added : Bool} :
    Triple NoneBlocking (accept x c elided added) (fun _ => NoneBlocking)
      fun _ => NoneBlocking := by
  refine .bind sock_spec fun _ => .bind (ensure_modes fun _ _ h => h.1) fun _ => ?_
  refine .bind (construct_modes.pre fun _ h => h.1.1) fun s => ?_
  refine .tryCatch acceptInto_modes fun e => ?_
  exact .bind destroy_modes fun _ => .throw fun _ h => h

end

/-! ## all runs -/

/-- `fcntl()` does not fail in a call of `open`; in one of `accept` it may. -/
def SetsMode (_ : World) : SocketOp → Prop
  | .openUdp _ _ c | .openServer _ _ c | .openTcp _ _ _ c => c.setsMode
  | _ => True

instance (w : World) (op : SocketOp) : Decidable (SetsMode w op) := by
  apply @SocketOp.casesOn _ op <;> intros <;> dsimp only [SetsMode] <;> infer_instance

theorem method_modes {w : World} {op : SocketOp} (hg : SetsMode w op) :
    Triple (fun w => NoneBlocking w ∧ ∀ x ∈ op.operands, Live x w) op.method
      (fun _ => NoneBlocking) fun _ => NoneBlocking := by
  cases op with
  | construct kind =>
    exact .bind (construct_modes.pre fun _ h => h.1) fun _ => .pure fun _ h => h.1
  | openUdp x port c =>
    exact (openUdp_modes hg).pre fun _ h => ⟨h.1, h.2 x List.mem_cons_self⟩
  | openServer x naggle c =>
    exact (openServer_modes hg).pre fun _ h => ⟨h.1, h.2 x List.mem_cons_self⟩
  | openTcp x ip naggle c =>
    exact (openTcp_modes hg).pre fun _ h => ⟨h.1, h.2 x List.mem_cons_self⟩
  | close x => exact closeSocket_none.pre fun _ h => h.1
  | accept x c elided added =>
    exact .bind (accept_modes.pre fun _ h => h.1) fun _ => .pure fun _ h => h
  | moveConstruct s ipv4 added =>
    exact .bind (moveConstruct_modes.pre fun _ h => h.1) fun _ => .pure fun _ h => h
  | moveAssign x s added => exact moveAssign_modes.pre fun _ h => h.1
  | destroy x => exact destroy_modes.pre fun _ h => h.1.only _

theorem noneBlocking_reach {w : World} (h : sockets.Reach SetsMode w) : NoneBlocking w := by
  refine h.invariant ?_ ?_
  · rintro w rfl
    exact ⟨List.nodup_nil, fun d hd => absurd hd List.not_mem_nil⟩
  · intro w op w' _ hw hg hs
    obtain ⟨hpos, hw'⟩ := Option.ite_none_right_eq_some.mp hs
    obtain rfl := Option.some.inj hw'
    exact (method_modes hg).final ⟨hw, live_of_possible hpos⟩

/-- **No call blocks:** in every run in which `fcntl()` does not fail in a call of `open`, every
open socket is in the non-blocking mode, however it was opened, accepted or moved. -/
theorem open_nonblocking {w : World} (hr : sockets.Reach SetsMode w) {x : ℕ} {s : Socket}
    (hx : w.object x = some s) (hopen : s.sock ≠ invalidSocket) : s.sock ∈ w.nonblocking := by
  have hbalanced := balanced_reach (hr.mono fun _ _ _ => trivial)
  refine (noneBlocking_reach hr).2 _ (Multiset.mem_coe.mp ?_)
  rw [hbalanced.eq, zero_add]
  exact Tokens.mem_sum_map.mpr ⟨x, some s, World.getElem_of_object hx, mem_heldBy.mpr hopen⟩

/-- One connection is accepted and moved, for another one `fcntl()` fails, and the server goes on
with its descriptor. -/
def acceptTwo : List SocketOp :=
  [.construct (.tcpServer false), .construct .tcp,
    .openServer 0 true { socket6 := some 3, socket4 := some 3, v6only := false },
    .accept 0 { accepted := some 4, setFlags := false } true false,
    .accept 0 { accepted := some 4 } false false, .moveAssign 1 4 false]

theorem open_nonblocking_accepted : ∃ (w : World) (s : Socket), w.object 1 = some s ∧ s.sock = 4 ∧
    w.descriptors = [4, 3] ∧ s.sock ∈ w.nonblocking := by
  obtain ⟨w, hr, hp⟩ := Machine.exists_reach (M := sockets) SetsMode acceptTwo
    (fun w => w.object 1 = some ⟨.tcp, 4⟩ ∧ w.descriptors = [4, 3]) rfl (by decide)
  obtain ⟨hobject, hopen⟩ := of_decide_eq_true hp
  exact ⟨w, _, hobject, rfl, hopen, open_nonblocking hr hobject (by decide)⟩

end Setka
