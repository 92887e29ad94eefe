import Setka.Dns.Deadlock
import Setka.Dns.Replies
import Setka.Dns.Stranding
import Setka.Dns.WriteReady

/-!
# The assertions of the lookup thread

`run()` asserts that a socket that is ready for reading has a datagram with something in it, that a
request that is moved to the A record is not on the send list, and that there is something to send
in the write-ready branch; the destructor asserts that the containers are empty.

* `Careful`               the conditions on a step: those of the properties the assertions rest on;
* `receiveStep_asserts`, `LocalMove.assertFailed_mem`   the assertions of `run()`;
* `Tables.empty_of_map`   the assertions of the destructor;
* `assertions_hold`       in every run whose steps meet the conditions no assertion fails.
-/

namespace Setka

/-- `recieve()` gives a datagram with something in it, or an exception. -/
def Recv.IsSomething : Recv → Prop
  | .datagram d => d.size ≠ 0
  | .nothing => False
  | .error => True

instance (r : Recv) : Decidable r.IsSomething := by
  apply @Recv.casesOn _ r <;> intros <;> dsimp only [Recv.IsSomething] <;> infer_instance

theorem assert_true {b : Bool} (h : b = true) : assert b = [] := by
  rw [h]
  rfl

/-! ## the assertions of `run()` -/

namespace LookupThread
variable {t now : ℕ} {e : Env} {T T' : LookupThread} {es : List Event}

theorem receiveStep_asserts (h : T.receiveStep e = some (T', es))
    (hrecv : T.flags.read = true → e.recv.IsSomething)
    (hsent : ∀ d r, T.flags.read = true → e.recv = .datagram d →
      recvAction T.tables d.buf d.size = some (.requeue r) → r.sendIter = none) :
    .assertFailed ∉ es := by
  unfold receiveStep at h
  split at h
  case isFalse =>
    cases h
    exact List.not_mem_nil
  case isTrue hf =>
    have hsome := hrecv hf
    split at h
    · cases h
      exact List.not_mem_nil
    · rename_i hnothing
      rw [hnothing] at hsome
      exact hsome.elim
    · rename_i d hd
      rw [hd] at hsome
      obtain ⟨a, ha, h⟩ := Option.bind_eq_some_iff.mp h
      cases a with
      | ignore =>
        cases h
        rw [assert_true (decide_eq_true (show d.size ≠ 0 from hsome))]
        exact List.not_mem_nil
      | requeue r =>
        obtain ⟨T₂, _, h⟩ := Option.bind_eq_some_iff.mp h
        cases h
        rw [assert_true (decide_eq_true (hsent d r hf hd ha))]
        simp
      | complete r res =>
        obtain ⟨T₂, _, h⟩ := Option.bind_eq_some_iff.mp h
        cases h
        simp

/-- The other assertion of `run()` is that of the write-ready branch. -/
theorem LocalMove.assertFailed_mem (h : LocalMove t now e T T' es) (hev : .assertFailed ∈ es)
    (hpc : T.pc ≠ .receive) :
    T.pc = .checkWrite ∧ T.flags.write = true ∧ T.tables.sendList = [] := by
  cases h with
  | writable hcw hw =>
    refine ⟨hcw, hw, ?_⟩
    by_contra hne
    rw [assert_true (by simpa using hne)] at hev
    cases hev
  | receiveNothing hr | ignored _ hr | requeued _ _ _ hr | requeueFailed _ _ _ _ hr
      | replied _ _ _ _ _ hr => exact absurd hr hpc
  | cbLock => split at hev <;> simp at hev
  | _ => simp at hev

end LookupThread

/-! ## the assertions of the destructor -/

/-- Without an active request, all containers are empty. -/
theorem Tables.empty_of_map {tb : Tables} (hl : tb.Linked) (hs : tb.SendLinked)
    (hm : tb.resolversMap = []) : (tb.sendList.isEmpty && tb.resolversMap.isEmpty &&
      tb.resolversByTime1.isEmpty && tb.resolversByTime2.isEmpty && tb.idMap.isEmpty) = true := by
  have hnil : tb.resolvers = [] := by
    unfold resolvers
    rw [hm]
    rfl
  have htime : ∀ m, tb.timeMap m = [] := by
    intro m
    have hp := hl.times m
    rw [hnil] at hp
    exact List.map_eq_nil_iff.mp hp.eq_nil
  have hids : tb.idMap = [] := by
    have hp := hl.ids
    rw [hnil] at hp
    exact hp.eq_nil
  have hsend : tb.sendList = [] := by
    have hp := hs.sends
    rw [hnil] at hp
    exact hp.eq_nil
  have htime1 : tb.resolversByTime1 = [] := htime .byTime1
  have htime2 : tb.resolversByTime2 = [] := htime .byTime2
  rw [hm, hids, hsend, htime1, htime2]
  rfl

/-! ## all runs -/

namespace Sys
variable {act : Action} {s s' : Sys}

/-- A socket that is ready for reading gives something. -/
def ReadsSomething (s : Sys) : Action → Prop
  | .run t e => (s.threads t).pc = .receive → (s.threads t).flags.read = true → e.recv.IsSomething
  | _ => True

instance (s : Sys) (act : Action) : Decidable (ReadsSomething s act) := by
  apply @Action.casesOn _ act <;> intros <;> dsimp only [ReadsSomething] <;> infer_instance

/-- The conditions under which the assertions hold: `clean_up()` is not called, a request is not
registered in a thread that has decided to end, only a request that has been sent is moved to the A
record, the socket is marked as writable only with work to do, and a readable socket gives
something. -/
structure Careful (s : Sys) (act : Action) : Prop where
  noCleanUp : act.noCleanUp
  inTime : RegistersInTime s act
  requeuesSent : RequeuesSent s act
  marked : MarkedWithWork s act
  reads : ReadsSomething s act

instance (s : Sys) (act : Action) : Decidable (Careful s act) :=
  decidable_of_iff (act.noCleanUp ∧ RegistersInTime s act ∧ RequeuesSent s act ∧
    MarkedWithWork s act ∧ ReadsSomething s act)
    ⟨fun ⟨h₁, h₂, h₃, h₄, h₅⟩ => ⟨h₁, h₂, h₃, h₄, h₅⟩,
      fun ⟨h₁, h₂, h₃, h₄, h₅⟩ => ⟨h₁, h₂, h₃, h₄, h₅⟩⟩

/-- **No assertion fails in a step,** if none may in the state before it. -/
theorem asserts_step (hs : Sys.step act s = some s') (hg : Careful s act)
    (hcl : ∀ a, (s.calls a).isCleanUp = false) (hsv : ∀ t, (s.threads t).ServesThread)
    (hM : ∀ t, (s.threads t).Marked) (hl : ∀ t, (s.threads t).tables.Linked)
    (hsl : ∀ t, (s.threads t).tables.SendLinked) (h : .assertFailed ∉ s.log) :
    .assertFailed ∉ s'.log := by
  cases sysMove hs with
  | own t e T es _ _ _ hlm =>
    by_cases hpc : (s.threads t).pc = .receive
    · obtain ⟨T₂, es₂, hT₂, hlog⟩ := runStep_receive hpc hs
      rw [hlog]
      have hes := LookupThread.receiveStep_asserts hT₂ (hg.reads hpc)
        fun d r hf hd ha => hg.requeuesSent.sent rfl hpc hf hd ha
      exact fun hmem => (List.mem_append.mp hmem).elim hes h
    · intro hmem
      rcases List.mem_append.mp hmem with hmem | hmem
      · obtain ⟨hcw, hw, hnil⟩ := hlm.assertFailed_mem hmem hpc
        rcases (hM t).in_round hw (by rw [hcw]; rfl) (by rw [hcw]; rfl) with ⟨_, hS⟩ | ⟨_, hne⟩
        · rw [hcw] at hS
          cases hS
        · exact hne hnil
      · exact h hmem
  | joinPrev t p e _ _ _ hj =>
    -- a thread that can be joined has no request left
    have hmap : (s.threads p).tables.resolversMap = [] := by
      by_contra hne
      have hserves := (hsv p).serves hne
      grind [joinable]
    rw [← List.nil_append s.log] at h
    rw [← assert_true (Tables.empty_of_map (hl p) (hsl p) hmap)] at h
    exact h
  | cleanUpJoin a t _ hcall =>
    have hno := hcl a
    rw [hcall] at hno
    cases hno
  | cancelNothing | cancelDone | cancelWait | resolveRegister => simpa using h
  | _ => exact h

end Sys

/-- **No assertion of the lookup thread fails** in any run whose steps meet the conditions. -/
theorem assertions_hold {s : Sys} (hr : resolverSystem.Reach Sys.Careful s) :
    .assertFailed ∉ s.log := by
  have hI := hr.invariant (I := fun s => (∀ a, (s.calls a).isCleanUp = false) ∧
    (∀ t, (s.threads t).ServesThread) ∧ (∀ t, (s.threads t).Marked) ∧ .assertFailed ∉ s.log) ?_ ?_
  · exact hI.2.2.2
  · rintro s ⟨now, rfl⟩
    refine ⟨fun _ => rfl, fun _ => ⟨fun h => absurd rfl h, fun h => ?_⟩,
      fun _ hf => Bool.noConfusion hf, List.not_mem_nil⟩
    simp [Sys.init, Pc.removesAll] at h
  · rintro s act s' hr ⟨hcl, hsv, hM, h⟩ hg hs
    have hm := Sys.sysMove hs
    have hL := Sys.locks hr
    have hst := Sys.stored hr
    have hsl := Sys.sendLinked (hr.mono fun _ _ hg => hg.requeuesSent)
    exact ⟨Sys.noCleanUp_step hcl hm hg.noCleanUp,
      fun u => (hm.thread u).serves hL.toCalls (hsv u) hcl hg.inTime,
      Sys.marked_step hL hst hM hg.marked hs,
      Sys.asserts_step hs hg hcl hsv hM hst.linked hsl h⟩

/-- A request is sent, moved to the A record by the reply and sent again.  The thread ends after an
error of the socket, and the next thread destroys it. -/
def destroyedByNext : List Action :=
  sendFirst ++ receiveNoSuchName ++ lookupSteps 0 3 ++
  .run 0 { wake := .ready false true false } :: lookupSteps 0 9 ++
  .run 0 { wake := .ready false false true } :: lookupSteps 0 10 ++
  callSteps (.client 0) (.resolve (queryA 2)) 3 ++ lookupSteps 1 1

set_option maxRecDepth 10000 in
theorem assertions_hold_destroyed : ∃ s, resolverSystem.run Sys.Careful destroyedByNext
      (Sys.init 0) = some s ∧ .requeued 0 noSuchName ∈ s.log ∧ (s.threads 0).pc = .destroyed ∧
    .assertFailed ∉ s.log := by
  obtain ⟨s, hs, hp⟩ := Machine.exists_run resolverSystem Sys.Careful destroyedByNext (Sys.init 0)
    (fun s => .requeued 0 noSuchName ∈ s.log ∧ (s.threads 0).pc = .destroyed) (by decide)
  obtain ⟨hev, hpc⟩ := of_decide_eq_true hp
  exact ⟨s, hs, hev, hpc, assertions_hold ((reach_init _ 0).run hs)⟩

end Setka
