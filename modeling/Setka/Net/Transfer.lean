import Setka.Net.Descriptors

/-!
# Moves between sockets

A move of a socket hands over the descriptor and the mode of the class, or throws and changes
nothing.

* `View f`             the objects of the world, as a function of their addresses;
* `assignSocket_view`  what `socket::operator=()` does to them;
* `HandsOver`          what a move is for;
* `handsOver_iff`      the moves of the three classes are such, but for two: the move constructor of
                       `udp_socket` does not copy `ipv4`, and the move assignment of
                       `tcp_server_socket` has copied `disable_naggle` when the base throws.
-/

namespace Setka

/-- The object at the address `y` is `f y`. -/
def View (f : ℕ → Option Socket) (w : World) : Prop := ∀ y, w.object y = f y

def Socket.closed (a : Socket) : Socket := { a with sock := invalidSocket }

section
variable {f : ℕ → Option Socket} {x s : ℕ} {a b : Socket} {w : World}
  {E : SocketError → World → Prop}

theorem View.sock (h : View f w) (hx : f x = some a) : w.sock x = a.sock :=
  World.sock_of_object ((h x).trans hx)

/-- One object gets other members, or is destroyed. -/
theorem View.put (h : View f w) (hx : f x = some a) (o : Option Socket) :
    View (Function.update f x o) (w.put x o) := by
  intro y
  by_cases hy : y = x
  · rw [hy, World.object_put_self ((h x).trans hx), Function.update_self]
  · rw [World.object_put_ne hy, h y, Function.update_of_ne hy]

/-- A member of one object is written. -/
theorem View.update (h : View f w) (hx : f x = some a) (g : Socket → Socket) :
    View (Function.update f x (some (g a))) (w.update x g) := by
  rw [World.update_of_object ((h x).trans hx)]
  exact h.put hx _

/-! ## the parts -/

theorem sock_view (hx : f x = some a) :
    Triple (View f) (sock x) (fun fd w => View f w ∧ fd = a.sock) E :=
  fun _ h => ⟨h, h.sock hx⟩

theorem setSock_view {fd : ℤ} (hx : f x = some a) : Triple (View f) (setSock x fd)
    (fun _ => View (Function.update f x (some { a with sock := fd }))) E :=
  fun _ h => h.update hx fun s => { s with sock := fd }

theorem setKind_view {kind : SocketKind} (hx : f x = some a) : Triple (View f) (setKind x kind)
    (fun _ => View (Function.update f x (some { a with kind := kind }))) E :=
  fun _ h => h.update hx fun s => { s with kind := kind }

theorem closeSocket_view (hx : f x = some a) : Triple (View f) (closeSocket x)
    (fun _ => View (Function.update f x (some a.closed))) E := by
  have hclose : Triple (View f) (closeDescriptor x) (fun _ => View f) E := by
    refine .bind (sock_view hx) fun fd => .fact fun _ => .ite (fun _ => ?_) fun _ => ?_
    · intro w h y
      have hobject : (w.giveBack fd).object y = w.object y := by
        unfold World.giveBack
        split <;> rfl
      exact hobject.trans (h y)
    · exact .pure fun _ h => h
  exact .bind hclose fun _ => setSock_view hx

/-- **`socket::operator=()`** hands the descriptor over, or throws and changes nothing. -/
theorem assignSocket_view {added : Bool} (hne : x ≠ s) (hx : f x = some a) (hs : f s = some b) :
    Triple (View f) (assignSocket x s added)
      (fun _ w => View (Function.update (Function.update f x (some { a with sock := b.sock })) s
        (some b.closed)) w ∧ added = false)
      fun _ w => View f w ∧ added = true := by
  refine .ite (fun heq => absurd heq hne) fun _ => ?_
  refine .bind (R := fun _ w => View f w ∧ added = false) ?_ fun _ => .fact fun hadded => ?_
  · cases added with
    | false => exact .pure fun _ h => ⟨h, rfl⟩
    | true => exact .throw fun _ h => ⟨h, rfl⟩
  refine .bind (closeSocket_view hx) fun _ => ?_
  have hs' : Function.update f x (some a.closed) s = some b := by
    rw [Function.update_of_ne (Ne.symm hne), hs]
  refine .bind (sock_view hs') fun fd => .fact ?_
  rintro rfl
  refine .bind (setSock_view (Function.update_self _ _ _)) fun _ => ?_
  rw [Function.update_idem]
  have hs'' : Function.update f x (some { a.closed with sock := b.sock }) s = some b := by
    rw [Function.update_of_ne (Ne.symm hne), hs]
  exact (setSock_view hs'').post fun _ _ h => ⟨h, hadded⟩

theorem construct_view {kind : SocketKind} (hs : f s = some b) :
    Triple (View f) (construct kind)
      (fun x w => View (Function.update f x (some ⟨kind, invalidSocket⟩)) w ∧ f x = none ∧ x ≠ s)
      E := by
  intro w h
  have hnone : f w.objects.length = none := by
    rw [← h]
    show (w.objects[w.objects.length]?).join = none
    rw [List.getElem?_eq_none (Nat.le_refl _)]
    rfl
  refine ⟨fun y => ?_, hnone, fun heq => ?_⟩
  · show ((w.objects ++ [some ⟨kind, invalidSocket⟩])[y]?).join = _
    by_cases hy : y = w.objects.length
    · rw [hy, List.getElem?_concat_length, Function.update_self]
      rfl
    · rw [Function.update_of_ne hy, ← h y]
      show _ = (w.objects[y]?).join
      rcases Nat.lt_or_gt_of_ne hy with hlt | hgt
      · rw [List.getElem?_append_left hlt]
      · rw [List.getElem?_eq_none (by rw [List.length_append, List.length_singleton]; omega),
          List.getElem?_eq_none (by omega)]
  · rw [heq] at hnone
    rw [hnone] at hs
    cases hs

theorem destroy_view (hx : f x = some a) :
    Triple (View f) (destroy x) (fun _ => View (Function.update f x none)) E := by
  refine .bind (closeSocket_view hx) fun _ w h => ?_
  have hput := h.put (Function.update_self _ _ _) none
  rw [Function.update_idem] at hput
  exact hput

end

/-! ## the moves -/

/-- the objects behind a move from `s` to `x` -/
def handedOver (f : ℕ → Option Socket) (x s : ℕ) (b target : Socket) : ℕ → Option Socket :=
  Function.update (Function.update f x (some target)) s (some b.closed)

section
variable {f : ℕ → Option Socket} {x s : ℕ} {a b target : Socket} {added : Bool}

theorem handedOver_target (hne : x ≠ s) : handedOver f x s b target x = some target := by
  unfold handedOver
  rw [Function.update_of_ne hne, Function.update_self]

theorem handedOver_source : handedOver f x s b target s = some b.closed :=
  Function.update_self _ _ _

theorem get_view {E : SocketError → World → Prop} :
    Triple (View f) (get : Method World) (fun w' w => View f w ∧ View f w') E :=
  fun _ h => ⟨h, h⟩

/-- the class and the mode of the source -/
theorem View.kind {w : World} (h : View f w) (hs : f s = some b) :
    (w.object s).elim .tcp Socket.kind = b.kind := by
  rw [h, hs]
  rfl

/-- **The move constructors** make an object with the descriptor of the source, and throw only if it
is added to a wait set. -/
theorem moveConstruct_view {ipv4 : Bool} (hs : f s = some b) :
    Triple (View f) (moveConstruct s ipv4 added)
      (fun x w => View (handedOver f x s b ⟨b.kind.moved ipv4, b.sock⟩) w ∧ added = false ∧ x ≠ s)
      fun _ w => View f w ∧ added = true := by
  refine .bind get_view fun w' => .fact fun hw' => ?_
  rw [hw'.kind hs]
  refine .bind (construct_view hs) fun x => .fact fun ⟨hnone, hne⟩ => ?_
  have hx : Function.update f x (some ⟨b.kind.moved ipv4, invalidSocket⟩) x =
    some ⟨b.kind.moved ipv4, invalidSocket⟩ := Function.update_self _ _ _
  have hs' : Function.update f x (some ⟨b.kind.moved ipv4, invalidSocket⟩) s = some b := by
    rw [Function.update_of_ne (Ne.symm hne), hs]
  refine .bind (R := fun _ w =>
    View (handedOver f x s b ⟨b.kind.moved ipv4, b.sock⟩) w ∧ added = false) ?_
    fun _ => .pure fun _ h => ⟨h.1, h.2, hne⟩
  refine .tryCatch ((assignSocket_view hne hx hs').post fun _ w h => ?_) fun e => ?_
  · rw [Function.update_idem] at h
    exact h
  · -- the object is destroyed again
    refine .fact fun hadded => .bind (destroy_view hx) fun _ => .throw fun w h => ⟨?_, hadded⟩
    rw [Function.update_idem, ← hnone, Function.update_eq_self] at h
    exact h

/-- the target of a move assignment that throws: `tcp_server_socket` has copied its flag before -/
def Socket.afterThrow (a b : Socket) : Socket :=
  match b.kind with
  | .tcpServer naggle => { a with kind := .tcpServer naggle }
  | _ => a

/-- **The move assignments** make the target what the source was, and throw only if one of the two
is added to a wait set. -/
theorem moveAssign_view (hne : x ≠ s) (hx : f x = some a) (hs : f s = some b)
    (hclass : a.kind.sameClass b.kind = true) :
    Triple (View f) (moveAssign x s added)
      (fun _ w => View (handedOver f x s b b) w ∧ added = false)
      fun _ w => View (Function.update f x (some (a.afterThrow b))) w ∧ added = true := by
  have hself : Function.update f x (some a) = f := by rw [← hx, Function.update_eq_self]
  refine .bind get_view fun w' => .fact fun hw' => ?_
  rw [hw'.kind hs]
  unfold Socket.afterThrow
  obtain ⟨kind, fd⟩ := b
  cases kind with
  | tcp =>
    have htcp : a.kind = .tcp := by
      cases hk : a.kind with
      | tcp => rfl
      | udp | tcpServer =>
        rw [hk] at hclass
        cases hclass
    refine (assignSocket_view hne hx hs).conseq (fun _ h => h) (fun _ w h => ?_) fun _ w h => ?_
    · rw [htcp] at h
      exact h
    · dsimp only
      rw [hself]
      exact h
  | udp ipv4 =>
    refine .bind ((assignSocket_view hne hx hs).postError fun _ w h => ?_) fun _ => ?_
    · dsimp only
      rw [hself]
      exact h
    · refine .fact fun hadded => ?_
      refine (setKind_view (handedOver_target hne)).post fun _ w h => ⟨?_, hadded⟩
      unfold handedOver at h ⊢
      rw [Function.update_comm (Ne.symm hne), Function.update_idem] at h
      exact h
  | tcpServer naggle =>
    refine .bind (setKind_view hx) fun _ => ?_
    have hs' : Function.update f x (some { a with kind := .tcpServer naggle }) s =
        some ⟨.tcpServer naggle, fd⟩ := by
      rw [Function.update_of_ne (Ne.symm hne), hs]
    refine (assignSocket_view hne (Function.update_self _ _ _) hs').post fun _ w h => ?_
    rw [Function.update_idem] at h
    exact h

end

/-! ## the result -/

/-- What a move from `s` is for: the target is what the source was, and the source is closed; or the
move throws, and all objects are as they were. -/
def HandsOver (s : ℕ) (m : Method ℕ) (w : World) : Prop :=
  match m w with
  | .ok x w' => w'.object x = w.object s ∧ w'.sock s = invalidSocket
  | .error _ w' => ∀ y, w'.object y = w.object y

/-- a move assignment, as a method that gives the target -/
def assigned (x s : ℕ) (added : Bool) : Method ℕ := do
  moveAssign x s added
  return x

section
variable {x s : ℕ} {a b target : Socket} {added : Bool} {w : World} {m : Method ℕ}

/-- A move whose target becomes `target` if it returns, and that leaves `f` if it throws. -/
theorem handsOver_iff_of_views {f : ℕ → Option Socket} (hs : w.object s = some b)
    (hm : Triple (View w.object) m
      (fun x w' => View (handedOver w.object x s b target) w' ∧ added = false ∧ x ≠ s)
      fun _ w' => View f w' ∧ added = true) :
    HandsOver s m w ↔ if added = true then f = w.object else target = b := by
  have hrun := hm w fun _ => rfl
  unfold HandsOver
  cases hw : m w with
  | ok x w' =>
    rw [hw] at hrun
    obtain ⟨hview, rfl, hne⟩ := hrun
    have htarget : w'.object x = some target := (hview x).trans (handedOver_target hne)
    have hsource : w'.sock s = invalidSocket := hview.sock handedOver_source
    show (w'.object x = w.object s ∧ w'.sock s = invalidSocket) ↔ target = b
    rw [htarget, hs, Option.some_inj, and_iff_left hsource]
  | error e w' =>
    rw [hw] at hrun
    obtain ⟨hview, rfl⟩ := hrun
    show (∀ y, w'.object y = w.object y) ↔ f = w.object
    constructor
    · exact fun h => funext fun y => (hview y).symm.trans (h y)
    · rintro rfl y
      exact hview y

theorem SocketKind.moved_eq_iff {kind : SocketKind} {ipv4 : Bool} :
    kind.moved ipv4 = kind ↔ ∀ flag, kind = .udp flag → ipv4 = flag := by
  cases kind with
  | tcp | tcpServer naggle => exact iff_of_true rfl fun _ h => nomatch h
  | udp flag =>
    constructor
    · rintro h flag' ⟨⟩
      exact SocketKind.udp.inj h
    · intro h
      rw [h flag rfl]
      rfl

theorem Socket.afterThrow_eq_iff :
    a.afterThrow b = a ↔ ∀ naggle, b.kind = .tcpServer naggle → a.kind = b.kind := by
  unfold Socket.afterThrow
  obtain ⟨kind, fd⟩ := b
  cases kind with
  | tcp | udp => exact iff_of_true rfl fun _ h => nomatch h
  | tcpServer naggle =>
    constructor
    · rintro h naggle' -
      exact (congrArg Socket.kind h).symm
    · intro h
      exact congrArg (Socket.mk · a.sock) (h naggle rfl).symm

theorem moveConstruct_handsOver (hs : w.object s = some b) (ipv4 : Bool) :
    HandsOver s (moveConstruct s ipv4 added) w ↔
      added = true ∨ ∀ flag, b.kind = .udp flag → ipv4 = flag := by
  rw [handsOver_iff_of_views hs (moveConstruct_view hs), ← SocketKind.moved_eq_iff]
  cases added with
  | true => exact iff_of_true rfl (.inl rfl)
  | false =>
    rw [if_neg Bool.false_ne_true, or_iff_right Bool.false_ne_true]
    constructor
    · exact congrArg Socket.kind
    · exact congrArg (Socket.mk · b.sock)

theorem moveAssign_handsOver (hs : w.object s = some b) (hne : x ≠ s) (hx : w.object x = some a)
    (hclass : a.kind.sameClass b.kind = true) :
    HandsOver s (assigned x s added) w ↔
      added = false ∨ ∀ naggle, b.kind = .tcpServer naggle → a.kind = b.kind := by
  have hm : Triple (View w.object) (assigned x s added)
      (fun x w' => View (handedOver w.object x s b b) w' ∧ added = false ∧ x ≠ s)
      fun _ w' => View (Function.update w.object x (some (a.afterThrow b))) w' ∧ added = true :=
    .bind (moveAssign_view hne hx hs hclass) fun _ => .pure fun _ h => ⟨h.1, h.2, hne⟩
  rw [handsOver_iff_of_views hs hm, ← Socket.afterThrow_eq_iff]
  cases added with
  | false => exact iff_of_true rfl (.inl rfl)
  | true =>
    rw [if_pos rfl, or_iff_right Bool.true_eq_false_eq_False]
    constructor
    · intro h
      have hxx := congrFun h x
      rw [Function.update_self, hx] at hxx
      exact Option.some_inj.mp hxx
    · intro h
      rw [h, ← hx, Function.update_eq_self]

end

/-- **A move hands over or changes nothing** if and only if a constructed `udp_socket` happens to
hold the flag of the source, and no assignment of a `tcp_server_socket` with another flag throws. -/
theorem handsOver_iff {w : World} {s : ℕ} {b : Socket} (hs : w.object s = some b) (added : Bool) :
    (∀ ipv4, HandsOver s (moveConstruct s ipv4 added) w ↔
      added = true ∨ ∀ flag, b.kind = .udp flag → ipv4 = flag) ∧
    ∀ x a, x ≠ s → w.object x = some a → a.kind.sameClass b.kind = true →
      (HandsOver s (assigned x s added) w ↔
        added = false ∨ ∀ naggle, b.kind = .tcpServer naggle → a.kind = b.kind) :=
  ⟨moveConstruct_handsOver hs, fun _ _ hne hx => moveAssign_handsOver hs hne hx⟩

/-- A `udp_socket` over IPv4, and a target of the same class. -/
theorem handsOver_iff_ipv4 :
    let w : World :=
      { objects := [some ⟨.udp true, 3⟩, some ⟨.udp false, 4⟩], descriptors := [3, 4] }
    HandsOver 0 (assigned 1 0 false) w ∧ HandsOver 0 (moveConstruct 0 true false) w ∧
      ¬ HandsOver 0 (moveConstruct 0 false false) w := by
  intro w
  have hmoves := handsOver_iff (w := w) (s := 0) (b := ⟨.udp true, 3⟩) rfl false
  refine ⟨(hmoves.2 1 ⟨.udp false, 4⟩ (by decide) rfl rfl).mpr (.inl rfl), ?_, fun h => ?_⟩
  · refine (hmoves.1 true).mpr (.inr ?_)
    rintro flag ⟨⟩
    rfl
  · rcases (hmoves.1 false).mp h with h | h
    · cases h
    · cases h true rfl

/-- A moved `udp_socket` over IPv4 takes itself for one over IPv6, and a `tcp_server_socket` in a
wait set loses its flag by an assignment that throws. -/
theorem moves_lose_mode :
    ¬ HandsOver 0 (moveConstruct 0 false false)
        { objects := [some ⟨.udp true, 3⟩], descriptors := [3] } ∧
      ¬ HandsOver 0 (assigned 1 0 true)
        { objects := [some ⟨.tcpServer false, 3⟩, some ⟨.tcpServer true, 4⟩],
          descriptors := [3, 4] } := by
  constructor
  · intro h
    exact absurd h.1 (by decide)
  · intro h
    exact absurd (h 1) (by decide)

end Setka
