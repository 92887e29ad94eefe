import Setka.Lib.Tokens
import Setka.Net.Sockets

/-!
# Who holds the descriptors

The descriptors that are open are those in the hands of the socket objects, and those that a method
in the middle of a call has not stored yet.

* `Balanced`           the open descriptors are the held and the pending ones, none twice;
* `Good pending L w`   `w` is balanced and the objects in `L` are alive: the assertion in front of
                       and behind each part of a method;
* `descriptors_owned`  in every run each open descriptor has one holder.
-/

namespace Setka

/-- the descriptor in the member `sock`, if there is one -/
def holding (fd : ℤ) : Multiset ℤ := if fd = invalidSocket then 0 else {fd}

def heldBy (o : Option Socket) : Multiset ℤ := o.elim 0 fun s => holding s.sock

namespace World

/-- the descriptors in the hands of the objects -/
def held (w : World) : Multiset ℤ := (w.objects.map heldBy).sum

end World

namespace World
variable {w : World} {x y : ℕ} {s : Socket} {o : Option Socket} {f : Socket → Socket}

theorem getElem_of_object (h : w.object x = some s) : w.objects[x]? = some (some s) :=
  Option.join_eq_some_iff.mp h

theorem lt_of_object (h : w.object x = some s) : x < w.objects.length :=
  (List.getElem?_eq_some_iff.mp (getElem_of_object h)).1

theorem sock_of_object (h : w.object x = some s) : w.sock x = s.sock := by
  unfold sock
  rw [h]
  rfl

/-- putting another object, or none, at the address of an object -/
def put (w : World) (x : ℕ) (o : Option Socket) : World := { w with objects := w.objects.set x o }

theorem update_of_object (h : w.object x = some s) : w.update x f = w.put x (some (f s)) := by
  unfold update
  rw [h]
  rfl

theorem object_put_self (h : w.object x = some s) : (w.put x o).object x = o := by
  show ((w.objects.set x o)[x]?).join = o
  rw [List.getElem?_set_self (lt_of_object h)]
  rfl

theorem object_put_ne (h : y ≠ x) : (w.put x o).object y = w.object y := by
  show ((w.objects.set x o)[y]?).join = _
  rw [List.getElem?_set_ne (Ne.symm h)]
  rfl

theorem held_put (h : w.object x = some s) :
    (w.put x o).held + holding s.sock = w.held + heldBy o :=
  Tokens.sum_map_set heldBy (getElem_of_object h)

end World

/-! ## the assertions -/

structure Balanced (pending : Multiset ℤ) (w : World) : Prop where
  eq : (w.descriptors : Multiset ℤ) = pending + w.held
  nodup : w.descriptors.Nodup
  noBadClose : w.badClose = false

structure Good (pending : Multiset ℤ) (L : List ℕ) (w : World) : Prop where
  balanced : Balanced pending w
  live : ∀ x ∈ L, ∃ s, w.object x = some s

section
variable {w : World} {L : List ℕ} {x s : ℕ} {a : Socket} {o : Option Socket} {pending : Multiset ℤ}

/-- The objects stay alive when one of them gets other members. -/
theorem Good.live_put (hg : Good pending L w) (hx : w.object x = some a) (b : Socket) :
    ∀ y ∈ L, ∃ c, (w.put x (some b)).object y = some c := by
  intro y hy
  by_cases hyx : y = x
  · subst hyx
    exact ⟨b, World.object_put_self hx⟩
  · rw [World.object_put_ne hyx]
    exact hg.live y hy

/-- A descriptor is stored, from what is pending, in an object that holds none. -/
theorem Good.store {fd : ℤ} (hg : Good (pending + holding fd) L w) (hx : w.object x = some a)
    (hsock : a.sock = invalidSocket) (b : Socket) (hb : b.sock = fd) :
    Good pending L (w.put x (some b)) := by
  have hheld := World.held_put (o := some b) hx
  have hnone : holding a.sock = 0 := if_pos hsock
  rw [hnone, add_zero] at hheld
  refine ⟨⟨?_, hg.balanced.nodup, hg.balanced.noBadClose⟩, hg.live_put hx b⟩
  rw [hheld]
  show (w.descriptors : Multiset ℤ) = pending + (w.held + holding b.sock)
  rw [hg.balanced.eq, hb, add_assoc, add_comm (holding fd)]

/-- A descriptor is taken out of an object. -/
theorem Good.take (hg : Good pending L w) (hx : w.object x = some a) (b : Socket)
    (hb : b.sock = invalidSocket) : Good (pending + holding a.sock) L (w.put x (some b)) := by
  have hheld := World.held_put (o := some b) hx
  have hnone : heldBy (some b) = 0 := if_pos hb
  rw [hnone, add_zero] at hheld
  refine ⟨⟨?_, hg.balanced.nodup, hg.balanced.noBadClose⟩, hg.live_put hx b⟩
  show (w.descriptors : Multiset ℤ) = _
  rw [hg.balanced.eq, ← hheld, add_assoc, add_comm (holding a.sock)]

/-- An object without a descriptor is destroyed. -/
theorem Good.destroy (hg : Good pending (x :: L) w) (hL : x ∉ L) (hx : w.object x = some a)
    (hsock : a.sock = invalidSocket) : Good pending L (w.put x none) := by
  have hheld := World.held_put (o := none) hx
  have hnone : holding a.sock = 0 := if_pos hsock
  rw [hnone, add_zero] at hheld
  refine ⟨⟨?_, hg.balanced.nodup, hg.balanced.noBadClose⟩, fun y hy => ?_⟩
  · rw [hheld]
    show (w.descriptors : Multiset ℤ) = pending + (w.held + 0)
    rw [add_zero]
    exact hg.balanced.eq
  · have hyx : y ≠ x := by
      rintro rfl
      exact hL hy
    rw [World.object_put_ne hyx]
    exact hg.live y (List.mem_cons_of_mem x hy)

/-- An object without a descriptor is constructed. -/
theorem Good.construct (hg : Good pending L w) (kind : SocketKind) :
    Good pending (w.objects.length :: L)
      { w with objects := w.objects ++ [some ⟨kind, invalidSocket⟩] } := by
  refine ⟨⟨?_, hg.balanced.nodup, hg.balanced.noBadClose⟩, fun y hy => ?_⟩
  · have hheld :
        World.held { w with objects := w.objects ++ [some ⟨kind, invalidSocket⟩] } = w.held := by
      unfold World.held
      rw [List.map_append, List.sum_append]
      exact add_zero _
    rw [hheld]
    exact hg.balanced.eq
  · rcases List.mem_cons.mp hy with rfl | hy
    · refine ⟨⟨kind, invalidSocket⟩, ?_⟩
      show ((w.objects ++ [some ⟨kind, invalidSocket⟩])[w.objects.length]?).join = _
      rw [List.getElem?_concat_length]
      rfl
    · obtain ⟨c, hc⟩ := hg.live y hy
      refine ⟨c, ?_⟩
      show ((w.objects ++ [some ⟨kind, invalidSocket⟩])[y]?).join = _
      rw [List.getElem?_append_left (World.lt_of_object hc)]
      exact hc

/-- A descriptor that is not open is handed out. -/
theorem Good.handOut (hg : Good 0 L w) (answer : Option ℕ) :
    Good (holding (w.handOut answer).1) L (w.handOut answer).2 := by
  cases answer with
  | none => exact hg
  | some n =>
    unfold World.handOut
    by_cases hmem : (n : ℤ) ∈ w.descriptors
    · simp only [if_pos hmem]
      exact hg
    · have hheld : holding (n : ℤ) = {(n : ℤ)} := if_neg (by unfold invalidSocket; omega)
      simp only [if_neg hmem]
      refine ⟨⟨?_, List.nodup_cons.mpr ⟨hmem, hg.balanced.nodup⟩, hg.balanced.noBadClose⟩, hg.live⟩
      show (((n : ℤ) :: w.descriptors : List ℤ) : Multiset ℤ) = holding (n : ℤ) + w.held
      rw [hheld, ← Multiset.cons_coe, hg.balanced.eq, zero_add, Multiset.singleton_add]

/-- A descriptor that no object holds any more is given back. -/
theorem Good.giveBack {fd : ℤ} (hg : Good {fd} L (w.put x o)) :
    Good 0 L ((w.giveBack fd).put x o) := by
  have hmem : fd ∈ w.descriptors := by
    have h : fd ∈ ((w.put x o).descriptors : Multiset ℤ) := by
      rw [hg.balanced.eq]
      exact Multiset.mem_add.mpr (Or.inl (Multiset.mem_singleton_self fd))
    exact Multiset.mem_coe.mp h
  unfold World.giveBack
  rw [if_pos hmem]
  refine ⟨⟨?_, hg.balanced.nodup.erase fd, hg.balanced.noBadClose⟩, hg.live⟩
  show ((w.descriptors.erase fd : List ℤ) : Multiset ℤ) = 0 + (w.put x o).held
  rw [← Multiset.coe_erase, show (w.descriptors : Multiset ℤ) = {fd} + (w.put x o).held from
    hg.balanced.eq, zero_add, Multiset.singleton_add, Multiset.erase_cons_head]

end

/-! ## the methods -/

section
variable {P : World → Prop} {E : SocketError → World → Prop} {L : List ℕ} {x s : ℕ} {fd : ℤ}

theorem sock_spec : Triple P (sock x) (fun fd w => P w ∧ w.sock x = fd) E := fun _ h => ⟨h, rfl⟩

theorem get_spec : Triple P (get : Method World) (fun _ => P) E := fun _ h => h

theorem ensure_spec {ok : Bool} {e : SocketError} (hE : ∀ w, P w → E e w) :
    Triple P (ensure ok e) (fun _ w => P w ∧ ok = true) E :=
  Triple.ite (fun hok => .pure fun _ h => ⟨h, hok⟩) fun _ => .throw hE

theorem setKind_spec {kind : SocketKind} (hx : x ∈ L) :
    Triple (Good 0 L) (setKind x kind) (fun _ => Good 0 L) E := by
  intro w hg
  obtain ⟨a, ha⟩ := hg.live x hx
  show Good 0 L (w.update x fun s => { s with kind := kind })
  rw [World.update_of_object ha]
  refine ⟨⟨?_, hg.balanced.nodup, hg.balanced.noBadClose⟩, hg.live_put ha _⟩
  have hheld := World.held_put (o := some { a with kind := kind }) ha
  rw [add_right_cancel hheld]
  exact hg.balanced.eq

theorem osSocket_spec {answer : Option ℕ} :
    Triple (fun w => Good 0 L w ∧ w.sock x = invalidSocket) (osSocket answer)
      (fun fd w => Good (holding fd) L w ∧ w.sock x = invalidSocket) E := by
  rintro w ⟨hg, hs⟩
  refine ⟨hg.handOut answer, ?_⟩
  have hsame : (w.handOut answer).2.objects = w.objects := by
    cases answer with
    | none => rfl
    | some n =>
      unfold World.handOut
      by_cases hmem : (n : ℤ) ∈ w.descriptors
      · simp only [if_pos hmem]
      · simp only [if_neg hmem]
  have hsock : (w.handOut answer).2.sock x = w.sock x :=
    congrArg (fun objects => ((objects[x]?).join).elim invalidSocket Socket.sock) hsame
  exact hsock.trans hs

theorem setSock_spec (hx : x ∈ L) :
    Triple (fun w => Good (holding fd) L w ∧ w.sock x = invalidSocket) (setSock x fd)
      (fun _ => Good 0 L) E := by
  rintro w ⟨hg, hs⟩
  obtain ⟨a, ha⟩ := hg.live x hx
  show Good 0 L (w.update x fun s => { s with sock := fd })
  rw [World.update_of_object ha]
  rw [World.sock_of_object ha] at hs
  exact Good.store (by rwa [zero_add]) ha hs _ rfl

/-- After `close()` the object holds nothing, and the descriptor is given back. -/
theorem closeSocket_spec (hx : x ∈ L) : Triple (Good 0 L) (closeSocket x)
    (fun _ w => Good 0 L w ∧ w.sock x = invalidSocket) E := by
  refine .bind (R := fun _ w => ∃ a, w.object x = some a ∧
    Good 0 L (w.put x (some { a with sock := invalidSocket }))) ?_ fun _ => ?_
  · refine .bind sock_spec fun fd => .ite (fun hfd => ?_) fun hfd => .pure ?_
    · rintro w ⟨hg, hsock⟩
      obtain ⟨a, ha⟩ := hg.live x hx
      have htake := hg.take ha { a with sock := invalidSocket } rfl
      rw [World.sock_of_object ha] at hsock
      rw [zero_add, hsock, show holding fd = {fd} from if_neg hfd] at htake
      have hobject : (w.giveBack fd).object x = some a := by
        rw [← ha]
        unfold World.giveBack
        split <;> rfl
      exact ⟨a, hobject, htake.giveBack⟩
    · rintro w ⟨hg, hsock⟩
      obtain ⟨a, ha⟩ := hg.live x hx
      have htake := hg.take ha { a with sock := invalidSocket } rfl
      rw [World.sock_of_object ha] at hsock
      rw [zero_add, hsock, show holding fd = 0 from if_pos (not_not.mp hfd)] at htake
      exact ⟨a, ha, htake⟩
  · rintro w ⟨a, ha, hg⟩
    show Good 0 L (w.update x fun s => { s with sock := invalidSocket }) ∧
      (w.update x fun s => { s with sock := invalidSocket }).sock x = invalidSocket
    rw [World.update_of_object ha]
    exact ⟨hg, World.sock_of_object (World.object_put_self ha)⟩

theorem ensureClosing_spec {ok : Bool} {e : SocketError} (hx : x ∈ L) :
    Triple (Good 0 L) (ensureClosing x ok e) (fun _ => Good 0 L) fun _ => Good 0 L :=
  .ite (fun _ => .pure fun _ h => h) fun _ =>
    .bind (closeSocket_spec hx) fun _ => .throw fun _ h => h.1

theorem osNonblock_spec : Triple (Good 0 L) (osNonblock fd) (fun _ => Good 0 L) E :=
  fun _ h => ⟨⟨h.balanced.eq, h.balanced.nodup, h.balanced.noBadClose⟩, h.live⟩

theorem setNonblockingMode_spec {c : Calls} :
    Triple (Good 0 L) (setNonblockingMode x c) (fun _ => Good 0 L) fun _ => Good 0 L :=
  .bind sock_spec fun _ => .bind (ensure_spec fun _ h => h.1) fun _ =>
    .bind (ensure_spec fun _ h => h.1.1) fun _ => .bind (ensure_spec fun _ h => h.1.1.1) fun _ =>
      osNonblock_spec.pre fun _ h => h.1.1.1.1

theorem disableNaggle_spec {asked : Bool} :
    Triple (Good 0 L) (disableNaggle asked x) (fun _ => Good 0 L) fun _ => Good 0 L :=
  .bind sock_spec fun _ => (ensure_spec fun _ h => h.1).post fun _ _ h => h.1.1

/-- the objects of `L` are alive and the one at `x` holds nothing -/
def Empty (L : List ℕ) (x : ℕ) (w : World) : Prop := Good 0 L w ∧ w.sock x = invalidSocket

theorem openSocket_spec {answer : Option ℕ} (hx : x ∈ L) :
    Triple (Empty L x) (openSocket x answer) (fun _ => Good 0 L) fun _ => Good 0 L :=
  .bind osSocket_spec fun _ => .bind (setSock_spec hx) fun _ => .bind sock_spec fun _ =>
    (ensure_spec fun _ h => h.1).post fun _ _ h => h.1.1

theorem openDual_spec {c : Calls} (hx : x ∈ L) :
    Triple (Empty L x) (openDual x c) (fun _ => Good 0 L) fun _ => Good 0 L := by
  refine .bind osSocket_spec fun fd => .bind (setSock_spec hx) fun _ => .bind sock_spec fun fd => ?_
  refine .ite (fun hfd => ?_) fun _ => .ite (fun _ => .pure fun _ h => h.1) fun _ => ?_
  · -- no IPv6: the member holds nothing
    refine .bind ((openSocket_spec hx).pre fun w h => ⟨h.1, h.2.trans hfd⟩) fun _ => ?_
    exact .pure fun _ h => h
  · -- no dual stack: the member is closed first
    refine .bind ((closeSocket_spec hx).pre fun _ h => h.1) fun _ => ?_
    exact .bind (openSocket_spec hx) fun _ => .pure fun _ h => h

/-- the guard in front of the `open` functions -/
theorem guard_spec {e : SocketError} {α : Type} {f : Method α} {Q : α → World → Prop}
    (hf : Triple (Empty L x) f Q fun _ => Good 0 L) :
    Triple (Good 0 L) (do ensure ((← sock x) = invalidSocket) e; f) Q fun _ => Good 0 L :=
  .bind sock_spec fun _ => .bind (ensure_spec fun _ h => h.1) fun _ =>
    hf.pre fun _ h => ⟨h.1.1, h.1.2.trans (of_decide_eq_true h.2)⟩

theorem setKind_empty {kind : SocketKind} (hx : x ∈ L) :
    Triple (Empty L x) (setKind x kind) (fun _ => Empty L x) E := by
  rintro w ⟨hg, hs⟩
  refine ⟨setKind_spec (E := E) hx w hg, ?_⟩
  obtain ⟨a, ha⟩ := hg.live x hx
  show (w.update x fun s => { s with kind := kind }).sock x = invalidSocket
  rw [World.update_of_object ha, World.sock_of_object (World.object_put_self ha),
    ← World.sock_of_object ha, hs]

theorem openUdp_spec {port : UInt16} {c : Calls} (hx : x ∈ L) :
    Triple (Good 0 L) (openUdp x port c) (fun _ => Good 0 L) fun _ => Good 0 L :=
  guard_spec <| .bind (setKind_empty hx) fun _ => .bind (openDual_spec hx) fun _ =>
    .bind (setKind_spec hx) fun _ => .bind (ensureClosing_spec hx) fun _ =>
      .bind setNonblockingMode_spec fun _ => ensureClosing_spec hx

theorem openServer_spec {naggle : Bool} {c : Calls} (hx : x ∈ L) :
    Triple (Good 0 L) (openServer x naggle c) (fun _ => Good 0 L) fun _ => Good 0 L :=
  guard_spec <| .bind (setKind_empty hx) fun _ => .bind (openDual_spec hx) fun _ =>
    .bind (ensureClosing_spec hx) fun _ => .bind (ensureClosing_spec hx) fun _ =>
      setNonblockingMode_spec

theorem openTcp_spec {ip : Address} {naggle : Bool} {c : Calls} (hx : x ∈ L) :
    Triple (Good 0 L) (openTcp x ip naggle c) (fun _ => Good 0 L) fun _ => Good 0 L :=
  guard_spec <| .bind (openSocket_spec hx) fun _ => .bind disableNaggle_spec fun _ =>
    .bind setNonblockingMode_spec fun _ => ensureClosing_spec hx

/-! ## construction, destruction and moves -/

theorem construct_spec {kind : SocketKind} :
    Triple (Good 0 L) (construct kind) (fun x w => Empty (x :: L) x w ∧ x ∉ L) E := by
  intro w hg
  refine ⟨⟨hg.construct kind, ?_⟩, fun hmem => ?_⟩
  · show (((w.objects ++ [some ⟨kind, invalidSocket⟩])[w.objects.length]?).join).elim _ _ = _
    rw [List.getElem?_concat_length]
    rfl
  · obtain ⟨a, ha⟩ := hg.live _ hmem
    exact Nat.lt_irrefl _ (World.lt_of_object ha)

theorem destroy_spec (hL : x ∉ L) :
    Triple (Good 0 (x :: L)) (destroy x) (fun _ => Good 0 L) E := by
  refine .bind (closeSocket_spec List.mem_cons_self) fun _ => ?_
  rintro w ⟨hg, hs⟩
  obtain ⟨a, ha⟩ := hg.live x List.mem_cons_self
  rw [World.sock_of_object ha] at hs
  exact hg.destroy hL ha hs

/-- **The move assignment** hands the descriptor over. -/
theorem assignSocket_spec {added : Bool} (hx : x ∈ L) (hs : s ∈ L) :
    Triple (Good 0 L) (assignSocket x s added) (fun _ => Good 0 L) fun _ => Good 0 L := by
  refine .ite (fun _ => .pure fun _ h => h) fun hne => ?_
  refine .bind (ensure_spec fun _ h => h) fun _ => ?_
  refine .bind ((closeSocket_spec hx).pre fun _ h => h.1) fun _ => ?_
  rintro w ⟨hg, hempty⟩
  obtain ⟨a, ha⟩ := hg.live x hx
  obtain ⟨b, hb⟩ := hg.live s hs
  -- the descriptor of `s` is taken first here: the member of `s` is cleared last in the code
  have htake := hg.take hb { b with sock := invalidSocket } rfl
  have ha' : (w.put s (some { b with sock := invalidSocket })).object x = some a := by
    rw [World.object_put_ne hne]
    exact ha
  rw [World.sock_of_object ha] at hempty
  have hstore := htake.store ha' hempty { a with sock := b.sock } rfl
  show Good 0 L ((w.update x fun t => { t with sock := w.sock s }).update s
    fun t => { t with sock := invalidSocket })
  have hb' : (w.put x (some { a with sock := w.sock s })).object s = some b := by
    rw [World.object_put_ne (Ne.symm hne)]
    exact hb
  rw [World.update_of_object ha, World.update_of_object hb', World.sock_of_object hb]
  unfold World.put at hstore ⊢
  rw [List.set_comm _ _ hne]
  exact hstore

theorem moveConstruct_spec {ipv4 added : Bool} (hs : s ∈ L) :
    Triple (Good 0 L) (moveConstruct s ipv4 added) (fun x w => Good 0 (x :: L) w ∧ x ∉ L)
      fun _ => Good 0 L := by
  refine .bind get_spec fun _ => .bind construct_spec fun x => ?_
  by_cases hx : x ∈ L
  · exact fun w h => absurd hx h.2
  · refine .bind (R := fun _ => Good 0 (x :: L)) ?_ fun _ => .pure fun _ h => ⟨h, hx⟩
    refine .tryCatch ((assignSocket_spec List.mem_cons_self (List.mem_cons_of_mem x hs)).pre
      fun _ h => h.1.1) fun e => ?_
    exact .bind (destroy_spec hx) fun _ => .throw fun _ h => h

theorem moveAssign_spec {added : Bool} (hx : x ∈ L) (hs : s ∈ L) :
    Triple (Good 0 L) (moveAssign x s added) (fun _ => Good 0 L) fun _ => Good 0 L := by
  refine .bind get_spec fun w => ?_
  cases (w.object s).elim .tcp Socket.kind with
  | tcp => exact assignSocket_spec hx hs
  | udp ipv4 => exact .bind (assignSocket_spec hx hs) fun _ => setKind_spec hx
  | tcpServer naggle => exact .bind (setKind_spec hx) fun _ => assignSocket_spec hx hs

/-! ## `accept` -/

/-- The local object is the result, or is destroyed after the move. -/
theorem returnLocal_spec {elided added : Bool} (hL : s ∉ L) :
    Triple (Good 0 (s :: L)) (returnLocal s elided added) (fun _ => Good 0 L)
      fun _ => Good 0 (s :: L) := by
  refine .ite
    (fun _ => .pure fun w h => ⟨h.balanced, fun y hy => h.live y (List.mem_cons_of_mem s hy)⟩)
    fun _ => ?_
  refine .bind (moveConstruct_spec List.mem_cons_self) fun r => .bind (R := fun _ => Good 0 L) ?_
    fun _ => .pure fun _ h => h
  exact (destroy_spec hL).pre fun w h =>
    ⟨h.1.balanced, fun y hy => h.1.live y (List.mem_cons_of_mem r hy)⟩

theorem acceptInto_spec {c : Calls} {elided added : Bool} (hL : s ∉ L) :
    Triple (Empty (s :: L) s) (acceptInto x s c elided added) (fun _ => Good 0 L)
      fun _ => Good 0 (s :: L) := by
  refine .bind osSocket_spec fun fd => .bind (setSock_spec List.mem_cons_self) fun _ =>
    .bind sock_spec fun _ => .ite (fun _ => (returnLocal_spec hL).pre fun _ h => h.1) fun _ => ?_
  exact .bind (setNonblockingMode_spec.pre fun _ h => h.1) fun _ => .bind get_spec fun _ =>
    .bind disableNaggle_spec fun _ => returnLocal_spec hL

theorem accept_spec {c : Calls} {elided added : Bool} :
    Triple (Good 0 L) (accept x c elided added) (fun _ => Good 0 L) fun _ => Good 0 L := by
  refine .bind sock_spec fun _ => .bind (ensure_spec fun _ h => h.1) fun _ => ?_
  refine .bind (construct_spec.pre fun _ h => h.1.1) fun s => ?_
  by_cases hs : s ∈ L
  · exact fun w h => absurd hs h.2
  · refine .tryCatch ((acceptInto_spec hs).pre fun _ h => h.1) fun e => ?_
    exact .bind (destroy_spec hs) fun _ => .throw fun _ h => h

end

/-! ## all runs -/

section
variable {w : World} {x : ℕ} {op : SocketOp}

/-- the objects a call is made on -/
def SocketOp.operands : SocketOp → List ℕ
  | .construct _ => []
  | .openUdp x _ _ | .openServer x _ _ | .openTcp x _ _ _ | .close x | .accept x _ _ _ => [x]
  | .moveConstruct s _ _ => [s]
  | .moveAssign x s _ => [x, s]
  | .destroy x => [x]

theorem live_of_hasClass {kind : SocketKind} (h : w.hasClass x kind = true) :
    ∃ s, w.object x = some s := by
  obtain ⟨s, hs, -⟩ := (Option.any_eq_true _ _).mp h
  exact ⟨s, hs⟩

theorem live_of_possible (h : op.possible w = true) :
    ∀ x ∈ op.operands, ∃ s, w.object x = some s := by
  cases op with
  | construct kind => exact fun x hx => absurd hx List.not_mem_nil
  | openUdp | openServer | openTcp | accept =>
    intro y hy
    rw [List.mem_singleton.mp hy]
    exact live_of_hasClass h
  | close | moveConstruct | destroy =>
    intro y hy
    rw [List.mem_singleton.mp hy]
    exact Option.isSome_iff_exists.mp h
  | moveAssign x s added =>
    obtain ⟨b, hb, hclass⟩ := (Option.any_eq_true _ _).mp h
    intro y hy
    rcases List.mem_cons.mp hy with rfl | hy
    · exact live_of_hasClass hclass
    · rw [List.mem_singleton.mp hy]
      exact ⟨b, hb⟩

theorem method_spec (op : SocketOp) :
    Triple (Good 0 op.operands) op.method (fun _ => Balanced 0) fun _ => Balanced 0 := by
  have hfinal : ∀ {α : Type} {m : Method α} {L : α → List ℕ},
      Triple (Good 0 op.operands) m (fun x => Good 0 (L x)) (fun _ => Good 0 op.operands) →
        Triple (Good 0 op.operands) m (fun _ => Balanced 0) fun _ => Balanced 0 := fun h =>
    h.conseq (fun _ h => h) (fun _ _ h => h.balanced) fun _ _ h => h.balanced
  cases op with
  | construct kind =>
    exact .bind (hfinal (construct_spec.post fun _ _ h => h.1.1)) fun _ => .pure fun _ h => h
  | openUdp x port c => exact hfinal (openUdp_spec List.mem_cons_self)
  | openServer x naggle c => exact hfinal (openServer_spec List.mem_cons_self)
  | openTcp x ip naggle c => exact hfinal (openTcp_spec List.mem_cons_self)
  | close x => exact hfinal ((closeSocket_spec List.mem_cons_self).post fun _ _ h => h.1)
  | accept x c elided added => exact .bind (hfinal accept_spec) fun _ => .pure fun _ h => h
  | moveConstruct s ipv4 added =>
    exact .bind (hfinal ((moveConstruct_spec List.mem_cons_self).post fun _ _ h => h.1))
      fun _ => .pure fun _ h => h
  | moveAssign x s added =>
    exact hfinal (moveAssign_spec List.mem_cons_self (List.mem_cons_of_mem x List.mem_cons_self))
  | destroy x => exact hfinal (destroy_spec List.not_mem_nil)

/-- **Each call keeps the balance.** -/
theorem balanced_step {w' : World} (hw : Balanced 0 w) (h : sockets.step op w = some w') :
    Balanced 0 w' := by
  obtain ⟨hpos, hw'⟩ := Option.ite_none_right_eq_some.mp h
  obtain rfl := Option.some.inj hw'
  exact (method_spec op).final ⟨hw, live_of_possible hpos⟩

theorem balanced_reach (h : sockets.Reach (fun _ _ => True) w) : Balanced 0 w := by
  refine h.invariant ?_ fun w op w' _ hw _ hs => balanced_step hw hs
  rintro w rfl
  exact ⟨rfl, List.nodup_nil, rfl⟩

theorem mem_heldBy {s : Socket} : s.sock ∈ heldBy (some s) ↔ s.sock ≠ invalidSocket := by
  show s.sock ∈ holding s.sock ↔ _
  unfold holding
  split
  · rename_i h
    exact iff_of_false (Multiset.notMem_zero _) (not_not_intro h)
  · rename_i h
    exact iff_of_true (Multiset.mem_singleton_self _) h

theorem eq_of_mem_heldBy {fd : ℤ} {s : Socket} (h : fd ∈ heldBy (some s)) : s.sock = fd := by
  have hmem : fd ∈ holding s.sock := h
  unfold holding at hmem
  split at hmem
  · exact absurd hmem (Multiset.notMem_zero _)
  · exact (Multiset.mem_singleton.mp hmem).symm

/-- **Each open descriptor is in the hands of one object,** none is closed twice, and none is left
when all objects are destroyed. -/
theorem descriptors_owned (h : sockets.Reach (fun _ _ => True) w) :
    (∀ fd ∈ w.descriptors, ∃! x, ∃ s, w.object x = some s ∧ s.sock = fd) ∧
      w.badClose = false ∧ ((∀ x, w.object x = none) → w.descriptors = []) := by
  have hw := balanced_reach h
  have hheld : (w.descriptors : Multiset ℤ) = (w.objects.map heldBy).sum := hw.eq.trans (zero_add _)
  have hnodup : (w.objects.map heldBy).sum.Nodup := by
    rw [← hheld]
    exact Multiset.coe_nodup.mpr hw.nodup
  have hholder : ∀ fd ∈ w.descriptors, ∃ x s, w.object x = some s ∧ fd ∈ heldBy (some s) := by
    intro fd hfd
    have hmem : fd ∈ (w.objects.map heldBy).sum := by
      rw [← hheld]
      exact Multiset.mem_coe.mpr hfd
    obtain ⟨x, o, ho, hmem⟩ := Tokens.mem_sum_map.mp hmem
    cases o with
    | none => exact absurd hmem (Multiset.notMem_zero fd)
    | some s => exact ⟨x, s, Option.join_eq_some_iff.mpr ho, hmem⟩
  refine ⟨fun fd hfd => ?_, hw.noBadClose, fun hall => List.eq_nil_iff_forall_not_mem.mpr ?_⟩
  · obtain ⟨x, s, hs, hmem⟩ := hholder fd hfd
    refine ⟨x, ⟨s, hs, eq_of_mem_heldBy hmem⟩, ?_⟩
    rintro y ⟨t, ht, htfd⟩
    have hvalid : s.sock ≠ invalidSocket := mem_heldBy.mp (by rwa [eq_of_mem_heldBy hmem])
    have hmem' : fd ∈ heldBy (some t) := by
      rw [← htfd, mem_heldBy, htfd, ← eq_of_mem_heldBy hmem]
      exact hvalid
    exact Tokens.holder_unique hnodup (World.getElem_of_object ht) (World.getElem_of_object hs)
      hmem' hmem
  · intro fd hfd
    obtain ⟨x, s, hs, -⟩ := hholder fd hfd
    rw [hall x] at hs
    cases hs

/-- A UDP socket is opened without dual stack, moved into a second one, and destroyed. -/
theorem descriptors_owned_moved : ∃ w, sockets.run (fun _ _ => True)
      [.construct (.udp true), .construct (.udp true),
        .openUdp 0 53 { socket6 := some 3, socket4 := some 3, v6only := false },
        .moveAssign 1 0 false, .destroy 0] {} = some w ∧
    w.descriptors = [3] ∧ w.badClose = false ∧ ∃! x, ∃ s, w.object x = some s ∧ s.sock = 3 := by
  obtain ⟨w, hw, hp⟩ := Machine.exists_run sockets (fun _ _ => True)
    [.construct (.udp true), .construct (.udp true),
      .openUdp 0 53 { socket6 := some 3, socket4 := some 3, v6only := false },
      .moveAssign 1 0 false, .destroy 0] {} (fun w => w.descriptors = [3]) (by decide)
  have hd := of_decide_eq_true hp
  obtain ⟨hone, hbad, -⟩ := descriptors_owned ((Machine.Reach.init rfl).run hw)
  exact ⟨w, hw, hd, hbad, hone 3 (hd ▸ List.mem_singleton_self 3)⟩

end

end Setka
