import Setka.Dns.WakeUp

/-!
# The assertion of the write-ready branch

When the socket is marked as ready for writing, the loop enters its send branch, which begins with
`ASSERT(sendList.size() > 0)`.  Between the mark and the branch the list can become empty, and the
mark itself can come late.

* `AssertionHolds`      the property: the list is not empty where the assertion stands;
* `Tables.onlyToSend`   a request whose removal empties the send list;
* `MayRemove`           a removal that does not leave the mark without work: something is left to
                        send, or the thread leaves the loop before it comes to the branch again;
* `MarkedWithWork`      the condition on a step: the socket is reported as writable only while there
                        is something to send or the thread was told to quit, and while the mark is
                        set, a request is removed only if it may be;
* `write_ready_assertion`   under it, the property holds in every state of every run;
* `cancel_before_branch`    without it, a `cancel()` between the return of `wait()` and the branch
                            makes the assertion fail.
-/

namespace Setka

/-! ## program counters -/

/-- past the test of `quitFlag`, with the send branch still to come -/
def Site.committed : Site → Bool
  | .receive => true
  | .send | .wrap | .expire | .drain _ => false

def Pc.committed : Pc → Bool
  | .lockMutex | .checkError | .receive | .checkWrite => true
  | .cbLock c | .cbEnter c | .cbRun c => c.site.committed
  | .cbRelock s => s.committed
  | _ => false

/-- in the loop that sends the queries -/
def Site.sending : Site → Bool
  | .send => true
  | .receive | .wrap | .expire | .drain _ => false

def Pc.sending : Pc → Bool
  | .send => true
  | .cbLock c | .cbEnter c | .cbRun c => c.site.sending
  | .cbRelock s => s.sending
  | _ => false

/-- from the return of `wait()` to the end of the send branch -/
def Pc.handling (pc : Pc) : Bool :=
  match pc with
  | .popQueue | .loopHead => true
  | _ => pc.committed || pc.sending

/-- from the send branch to the end of the round -/
def Pc.ending (pc : Pc) : Bool :=
  match pc with
  | .sample | .wrap | .expire => true
  | _ => pc.sending

/-- on the way out of `run()`, or out of it -/
def Site.leaving : Site → Bool
  | .drain _ => true
  | .receive | .send | .wrap | .expire => false

def Pc.leaving : Pc → Bool
  | .drain _ | .leave | .finished | .destroyed => true
  | .cbLock c | .cbEnter c | .cbRun c => c.site.leaving
  | .cbRelock s => s.leaving
  | _ => false

theorem Site.resume_stage (s : Site) : s.resume.committed = s.committed ∧
    s.resume.sending = s.sending ∧ s.resume.leaving = s.leaving := by
  cases s <;> exact ⟨rfl, rfl, rfl⟩

/-- At the end of a round, the mutex is free only in a callback of the send loop. -/
theorem Pc.handling_of_ending {pc : Pc} (h : pc.ending = true) (hlocked : pc.loopLocked = false) :
    pc.handling = true := by
  have hsending : pc.sending = true := by
    unfold Pc.ending at h
    split at h
    · cases hlocked
    · cases hlocked
    · cases hlocked
    · exact h
  unfold Pc.handling
  split
  · rfl
  · rfl
  · rw [hsending, Bool.or_true]

/-! ## removals -/

namespace Tables
variable {tb tb' : Tables} {x : ℕ} {r : Resolver}

/-- The request of the object is the only one in the send list. -/
def onlyToSend (tb : Tables) (x : ℕ) : Bool :=
  (tb.find x).any fun r => r.sendIter.any fun n => tb.sendList.map Cell.node == [n]

theorem setDns_onlyToSend (tb : Tables) (p : ℕ) (a : Address) (x : ℕ) :
    (tb.setDns p a).onlyToSend x = tb.onlyToSend x := by
  have hfind : (tb.setDns p a).find x =
      (tb.find x).map fun r => if r.addr = p then { r with dns := a } else r := by
    unfold setDns modify find
    rw [List.find?_map, Option.map_map, Option.map_map]
    have hkey : (fun e : ℕ × Resolver => e.1 == x) ∘
        (fun e => if e.2.addr = p then (e.1, { e.2 with dns := a }) else e) =
        fun e => e.1 == x := by
      funext e
      dsimp only [Function.comp_apply]
      split <;> rfl
    rw [hkey]
    refine congrArg (fun f => Option.map f _) (funext fun e => ?_)
    dsimp only [Function.comp_apply]
    split <;> rfl
  unfold onlyToSend
  rw [hfind, Option.any_map]
  refine congrArg (fun f => (tb.find x).any f) (funext fun r => ?_)
  split <;> rfl

/-- The last request of all leaves an empty map. -/
theorem removeResolver_last (h : tb.removeResolver x = some (tb', some r))
    (hlen : tb.resolversMap.length = 1) : tb'.resolversMap = [] := by
  obtain ⟨hfind, _, _, _, _, _, _, rfl⟩ := removeResolver_eq_some h
  obtain ⟨e, he⟩ := List.length_eq_one_iff.mp hlen
  unfold find at hfind
  rw [he] at hfind
  show tb.resolversMap.filter (fun e => e.1 ≠ x) = []
  rw [he, List.filter_eq_nil_iff]
  intro e' he'
  obtain rfl := List.mem_singleton.mp he'
  by_cases hx : e'.1 = x
  · simp [hx]
  · rw [List.find?_cons_of_neg (by simpa using hx)] at hfind
    cases hfind

/-- Another removal leaves something to send. -/
theorem removeResolver_nonempty (h : tb.removeResolver x = some (tb', some r))
    (hne : tb.sendList ≠ []) (hx : tb.onlyToSend x = false) : tb'.sendList ≠ [] := by
  obtain ⟨hfind, sends, _, _, hsends, _, _, rfl⟩ := removeResolver_eq_some h
  intro hnil
  have hnil' : sends = [] := hnil
  unfold eraseSend at hsends
  split at hsends
  · exact hne ((Option.some.inj hsends).trans hnil')
  · rename_i n hn
    rw [hnil'] at hsends
    have honly : tb.sendList.map Cell.node = [n] := Cell.nodes_of_eraseNode hsends
    unfold onlyToSend at hx
    rw [hfind, Option.any_some, hn, Option.any_some, honly, beq_self_eq_true] at hx
    cases hx

/-- A request that is removed right after it was moved to the A record leaves the list as it was. -/
theorem requeue_removed_nonempty {r' : Resolver} (hl : Linked tb)
    (hr : tb.deref r.addr = some r)
    (h : (tb.requeue r.addr).removeResolver r.hnr = some (tb', some r'))
    (hne : tb.sendList ≠ []) : tb'.sendList ≠ [] := by
  obtain rfl := removed_of_deref (requeue_linked hl r.addr)
    (deref_requeue hl (deref_eq_some hr).1) h
  obtain ⟨_, sends, _, _, hsends, _, _, rfl⟩ := removeResolver_eq_some h
  have hsends' : Cell.eraseNode (tb.sendList ++ [⟨tb.nextNode, (), r.addr⟩]) tb.nextNode =
      some sends := hsends
  intro hnil
  have hnil' : sends = [] := hnil
  rw [hnil'] at hsends'
  have hlen := congrArg List.length (Cell.nodes_of_eraseNode hsends')
  rw [List.length_map, List.length_append] at hlen
  have hpos := List.length_pos_of_ne_nil hne
  have hone : tb.sendList.length + 1 = 1 := hlen
  omega

end Tables

/-! ## the condition -/

def Wake.writable : Wake → Bool
  | .timeout => false
  | .ready _ write _ => write

namespace LookupThread

/-- the object whose request the next step of `run()` removes, in the receive or the send branch -/
def removing (T : LookupThread) (e : Env) : Option ℕ :=
  match T.pc with
  | .receive => match e.recv with
    | .datagram d => match recvAction T.tables d.buf d.size with
      | some (.complete r _) => some r.hnr
      | _ => none
    | _ => none
  | .send => match T.tables.sendList with
    | c :: _ => (T.tables.deref c.val).bind fun r =>
      if (T.server r).host.isValid then none else some r.hnr
    | [] => none
  | _ => none

def waits (T : LookupThread) : Bool :=
  match T.pc with
  | .wait _ => true
  | _ => false

/-- The removal of the request of the object leaves something to send, or the thread does not come
to the send branch again: it is on its way out, or it will test `quitFlag` first, and this is set or
is set by the removal of the last request of all. -/
def MayRemove (T : LookupThread) (x : ℕ) : Prop :=
  T.tables.onlyToSend x = false ∨ T.pc.leaving = true ∨
  (T.pc.committed = false ∧ (T.quitFlag = true ∨ T.tables.resolversMap.length = 1))

instance (T : LookupThread) (x : ℕ) : Decidable (T.MayRemove x) :=
  inferInstanceAs (Decidable (_ ∨ _))

end LookupThread

namespace Sys

/-- The socket is reported as writable only while there is something to send or the thread was told
to quit; and while it is marked as writable, a request is removed only if it may be. -/
def MarkedWithWork (s : Sys) : Action → Prop
  | .run t e =>
    ((s.threads t).waits = true → e.wake.writable = true →
      (s.threads t).quitFlag = true ∨ (s.threads t).tables.sendList ≠ []) ∧
    ((s.threads t).flags.write = true → ∀ x ∈ (s.threads t).removing e, (s.threads t).MayRemove x)
  | .api a => match s.calls a with
    | .cancelRemove x t => (s.threads t).flags.write = true → (s.threads t).MayRemove x
    | _ => True
  | _ => True

instance (s : Sys) (act : Action) : Decidable (MarkedWithWork s act) := by
  apply @Action.casesOn _ act <;> intros <;> dsimp only [MarkedWithWork] <;> try infer_instance
  generalize s.calls _ = c
  apply @Call.casesOn _ c <;> intros <;> infer_instance

end Sys

/-! ## one step of `run()` -/

namespace LookupThread
variable {t now : ℕ} {e : Env} {T T' : LookupThread} {es : List Event}

/-- The thread does not come to the send branch before it has left the loop or a request is made. -/
def Skips (T : LookupThread) : Prop :=
  T.pc.leaving = true ∨ (T.quitFlag = true ∧ T.pc.committed = false) ∨
  (T.pc.ending = true ∧ T.tables.resolversMap = [])

/-- The mark for writing stands for something to send, as long as the send branch can be entered. -/
def Marked (T : LookupThread) : Prop :=
  T.flags.write = true → T.Skips ∨ (T.pc.handling = true ∧ T.tables.sendList ≠ [])

/-- what the mark stands for in a round, before its end -/
theorem Marked.in_round (hM : T.Marked) (hf : T.flags.write = true)
    (hleaving : T.pc.leaving = false) (hending : T.pc.ending = false) :
    (T.quitFlag = true ∧ T.pc.committed = false) ∨
      (T.pc.handling = true ∧ T.tables.sendList ≠ []) := by
  rcases hM hf with (hS | hS | ⟨hS, _⟩) | hS
  · rw [hleaving] at hS
    cases hS
  · exact .inl hS
  · rw [hending] at hS
    cases hS
  · exact .inr hS

/-- the step of a thread that was told to quit -/
theorem LocalMove.quits (h : LocalMove t now e T T' es) (hq : T.quitFlag = true)
    (hpc : T.pc.committed = false) : T'.quitFlag = true ∧ T'.pc.committed = false := by
  cases h with
  | nextRound _ hn =>
    rw [hn] at hq
    cases hq
  | lock h | socketError h | noError h | notReadable h | receiveError h | receiveNothing h
      | ignored _ h | requeued _ _ _ h | requeueFailed _ _ _ _ h | replied _ _ _ _ _ h | writable h
      | notWritable h =>
    rw [h] at hpc
    cases hpc
  | cbLock c h | cbEnter c h | cbReturn c h =>
    rw [h] at hpc
    exact ⟨hq, hpc⟩
  | cbRelock s h =>
    rw [h] at hpc
    exact ⟨hq, s.resume_stage.1.trans hpc⟩
  | wakeReady =>
    refine ⟨hq, ?_⟩
    dsimp only
    split <;> rfl
  | sent =>
    exact ⟨hq, hpc⟩
  | _ => exact ⟨hq, rfl⟩

theorem LocalMove.leaves (h : LocalMove t now e T T' es) (hpc : T.pc.leaving = true) :
    T'.pc.leaving = true := by
  cases h with
  | cbLock c h | cbEnter c h | cbReturn c h =>
    rw [h] at hpc
    exact hpc
  | cbRelock s h =>
    rw [h] at hpc
    exact s.resume_stage.2.2.trans hpc
  | drained | drainedOpen | drainNext | left => exact rfl
  | initDNS h | quit h | nextRound h | lock h | socketError h | noError h | notReadable h
      | receiveError h | receiveNothing h | ignored _ h | requeued _ _ _ h | requeueFailed _ _ _ _ h
      | replied _ _ _ _ _ h | writable h | notWritable h | allSent h | sent _ _ _ h
      | sendNotReady _ _ _ h | sendError _ _ _ h | noServer _ _ _ _ _ h | sampledWrap h | sampled h
      | swapped h | wrapTimeout _ _ _ _ _ h | expireTimeout _ _ _ _ _ h | noRequests h
      | startWait _ h | wakeTimeout _ h | wakeReady _ _ h =>
    rw [h] at hpc
    cases hpc

theorem ending_of_sending {pc : Pc} (h : pc.sending = true) : pc.ending = true := by
  unfold Pc.ending
  split <;> first | rfl | exact h

/-- the step of a thread that has no request left at the end of a round -/
theorem LocalMove.ends (h : LocalMove t now e T T' es) (hpc : T.pc.ending = true)
    (hnil : T.tables.resolversMap = []) :
    T'.pc.leaving = true ∨ (T'.pc.ending = true ∧ T'.tables.resolversMap = []) := by
  have hderef : ∀ p r, T.tables.deref p ≠ some r := by
    intro p r hr
    unfold Tables.deref at hr
    rw [hnil] at hr
    cases hr
  cases h with
  | sent _ _ r _ _ hr | sendNotReady _ _ r _ _ hr | sendError _ _ r _ _ hr
      | noServer _ _ r _ _ _ _ hr | wrapTimeout _ _ r _ _ _ _ hr
      | expireTimeout _ _ r _ _ _ _ _ hr => exact absurd hr (hderef _ r)
  | startWait _ _ _ hne => exact absurd hnil hne
  | allSent | sampledWrap | sampled => exact .inr ⟨rfl, hnil⟩
  | swapped => exact .inr ⟨rfl, hnil⟩
  | noRequests => exact .inl rfl
  | cbLock c h | cbEnter c h | cbReturn c h =>
    rw [h] at hpc
    exact .inr ⟨hpc, hnil⟩
  | cbRelock s h =>
    rw [h] at hpc
    exact .inr ⟨ending_of_sending (s.resume_stage.2.1.trans hpc), hnil⟩
  | drained | drainedOpen | drainNext | left => exact .inl rfl
  | initDNS h | quit h | nextRound h | lock h | socketError h | noError h | notReadable h
      | receiveError h | receiveNothing h | ignored _ h | requeued _ _ _ h | requeueFailed _ _ _ _ h
      | replied _ _ _ _ _ h | writable h | notWritable h | wakeTimeout _ h | wakeReady _ _ h =>
    rw [h] at hpc
    cases hpc

theorem LocalMove.skips (h : LocalMove t now e T T' es) (hS : T.Skips) : T'.Skips := by
  rcases hS with hleave | ⟨hq, hpc⟩ | ⟨hpc, hnil⟩
  · exact .inl (h.leaves hleave)
  · exact .inr (.inl (h.quits hq hpc))
  · exact (h.ends hpc hnil).imp_right .inr

/-- the request that a step of the receive branch completes -/
theorem removing_receive {d : Datagram} {r : Resolver} {res : ParseResult}
    (hpc : T.pc = .receive) (hd : e.recv = .datagram d)
    (ha : recvAction T.tables d.buf d.size = some (.complete r res)) :
    r.hnr ∈ T.removing e := by
  unfold removing
  rw [hpc]
  dsimp only
  rw [hd]
  dsimp only
  rw [ha]
  exact rfl

/-- the request that the send branch gives up, as it has no valid server -/
theorem removing_send {c : Cell Unit ℕ} {rest : List (Cell Unit ℕ)} {r : Resolver}
    (hpc : T.pc = .send) (hc : T.tables.sendList = c :: rest)
    (hr : T.tables.deref c.val = some r) (hv : (T.server r).host.isValid = false) :
    r.hnr ∈ T.removing e := by
  unfold removing
  rw [hpc]
  dsimp only
  rw [hc]
  dsimp only
  rw [hr, Option.bind_some, hv]
  exact rfl

/-- Only a return of `wait()` marks the socket. -/
theorem LocalMove.mark_kept (h : LocalMove t now e T T' es) (hw : T.waits = false)
    (hf : T'.flags.write = true) : T.flags.write = true := by
  cases h with
  | wakeTimeout _ hpc | wakeReady _ _ hpc =>
    unfold waits at hw
    rw [hpc] at hw
    cases hw
  | sent | sendNotReady | sendError => cases hf
  | _ => exact hf

/-- a request that is removed where it may be -/
theorem removed_marked {tb tb' : Tables} {x : ℕ} {r : Resolver} {quitFlag : Bool}
    (hm : T.MayRemove x) (honly : tb.onlyToSend x = T.tables.onlyToSend x)
    (hlen : tb.resolversMap.length = T.tables.resolversMap.length)
    (hr : tb.removeResolver x = some (tb', some r)) (hne : tb.sendList ≠ [])
    (hquit : T.quitFlag = true → quitFlag = true) :
    tb'.sendList ≠ [] ∨ T.pc.leaving = true ∨
      (T.pc.committed = false ∧ (quitFlag = true ∨ tb'.resolversMap = [])) := by
  rcases hm with h | h | ⟨hpc, h⟩
  · exact .inl (Tables.removeResolver_nonempty hr hne (honly.trans h))
  · exact .inr (.inl h)
  · exact .inr (.inr ⟨hpc, h.imp hquit fun h => Tables.removeResolver_last hr (hlen.trans h)⟩)

/-- the step of a thread that comes to the send branch, or is in it, with something to send -/
theorem LocalMove.handles (h : LocalMove t now e T T' es) (hl : T.tables.Linked)
    (hpc : T.pc.handling = true) (hne : T.tables.sendList ≠ []) (hf : T'.flags.write = true)
    (hw : T.waits = false) (hrem : ∀ x ∈ T.removing e, T.MayRemove x) :
    T'.Skips ∨ (T'.pc.handling = true ∧ T'.tables.sendList ≠ []) := by
  cases h with
  | requeued d r mode =>
    exact .inr ⟨rfl, List.append_ne_nil_of_right_ne_nil _ (List.cons_ne_nil _ _)⟩
  | requeueFailed d r tb r' _ _ _ _ ha hr =>
    exact .inr ⟨rfl, Tables.requeue_removed_nonempty hl (Tables.deref_of_recvAction ha) hr hne⟩
  | replied d r res tb r' h _ hd ha hr =>
    have hm := hrem _ (removing_receive h hd ha)
    rcases removed_marked hm rfl rfl hr hne id with hne' | hpc' | ⟨hpc', _⟩
    · exact .inr ⟨rfl, hne'⟩
    · rw [h] at hpc'
      cases hpc'
    · rw [h] at hpc'
      cases hpc'
  | noServer c rest r tb r' h hc hr hv hrm =>
    have hm := hrem _ (removing_send h hc hr hv)
    have honly := Tables.setDns_onlyToSend T.tables r.addr (T.server r) r.hnr
    rcases removed_marked hm honly (List.length_map _) hrm hne id with hne' | hpc' | ⟨_, hend⟩
    · exact .inr ⟨rfl, hne'⟩
    · rw [h] at hpc'
      cases hpc'
    · exact .inl (.inr (hend.imp (⟨·, rfl⟩) (⟨rfl, ·⟩)))
  | allSent _ hnil => exact absurd hnil hne
  | sent | sendNotReady | sendError => cases hf
  | notWritable _ hn =>
    rw [show T.flags.write = true from hf] at hn
    cases hn
  | quit | socketError | receiveError => exact .inl (.inl rfl)
  | nextRound | lock | noError | notReadable | receiveNothing | ignored | writable =>
    exact .inr ⟨rfl, hne⟩
  | cbLock c h | cbEnter c h | cbReturn c h =>
    rw [h] at hpc
    exact .inr ⟨hpc, hne⟩
  | cbRelock s h =>
    rw [h] at hpc
    refine .inr ⟨?_, hne⟩
    cases s with
    | receive | send => exact rfl
    | wrap | expire | drain => cases hpc
  | initDNS h | sampledWrap h | sampled h | swapped h | wrapTimeout _ _ _ _ _ h
      | expireTimeout _ _ _ _ _ h | noRequests h | startWait _ h | drained h | drainedOpen h
      | drainNext _ _ _ _ _ _ h | left h =>
    rw [h] at hpc
    cases hpc
  | wakeTimeout _ h | wakeReady _ _ h =>
    unfold waits at hw
    rw [h] at hw
    cases hw

/-- **The mark stands for something to send** after a step of `run()` too. -/
theorem LocalMove.marked (h : LocalMove t now e T T' es) (hl : T.tables.Linked) (hM : T.Marked)
    (hw : T.waits = false)
    (hrem : T.flags.write = true → ∀ x ∈ T.removing e, T.MayRemove x) : T'.Marked := by
  intro hf'
  have hf := h.mark_kept hw hf'
  rcases hM hf with hS | ⟨hpc, hne⟩
  · exact .inl (h.skips hS)
  · exact h.handles hl hpc hne hf' hw (hrem hf)

/-- what a return of `wait()` does -/
theorem wakeStep_eq_some {w : Wake} (h : T.wakeStep w = some T') :
    T'.tables = T.tables ∧ T'.quitFlag = T.quitFlag ∧
      (T'.pc = .popQueue ∨ T'.pc = .loopHead) ∧
      (T'.flags.write = true → T.flags.write = true ∨ w.writable = true) := by
  unfold wakeStep at h
  split at h
  · split at h
    · cases h
      exact ⟨rfl, rfl, .inr rfl, .inl⟩
    · cases h
  · split at h
    · cases h
      refine ⟨rfl, rfl, ?_, fun hf => (Bool.or_eq_true _ _).mp hf⟩
      dsimp only
      split
      · exact .inr rfl
      · exact .inl rfl
    · cases h

theorem pc_of_waits (h : T.waits = true) : ∃ timeout, T.pc = .wait timeout := by
  unfold waits at h
  split at h
  · rename_i timeout hpc
    exact ⟨timeout, hpc⟩
  · cases h

/-- **The mark stands for something to send** after a return of `wait()`. -/
theorem wakeStep_marked {w : Wake} (h : T.wakeStep w = some T') (hM : T.Marked)
    (hw : T.waits = true)
    (hwork : w.writable = true → T.quitFlag = true ∨ T.tables.sendList ≠ []) : T'.Marked := by
  obtain ⟨htables, hquit, hpc', hflags⟩ := wakeStep_eq_some h
  obtain ⟨timeout, hpc⟩ := pc_of_waits hw
  have hcommitted : T'.pc.committed = false := by rcases hpc' with h | h <;> rw [h] <;> rfl
  have hhandling : T'.pc.handling = true := by rcases hpc' with h | h <;> rw [h] <;> rfl
  intro hf'
  rcases hflags hf' with hf | hf
  · -- a mark that was not cleared before
    rcases hM.in_round hf (by rw [hpc]; rfl) (by rw [hpc]; rfl) with ⟨hq, _⟩ | ⟨hS, _⟩
    · exact .inl (.inr (.inl ⟨hquit.trans hq, hcommitted⟩))
    · rw [hpc] at hS
      cases hS
  · rcases hwork hf with hq | hne
    · exact .inl (.inr (.inl ⟨hquit.trans hq, hcommitted⟩))
    · exact .inr ⟨hhandling, htables ▸ hne⟩

end LookupThread

/-! ## one step of the system -/

namespace LookupThread
variable {T T' : LookupThread}

/-- a step that leaves the thread where it is -/
theorem Marked.kept (hM : T.Marked) (hflags : T'.flags = T.flags) (hpc : T'.pc = T.pc)
    (hquit : T.quitFlag = true → T'.quitFlag = true) (htables : T'.tables = T.tables) :
    T'.Marked := by
  unfold Marked Skips at hM ⊢
  rw [hflags, hpc, htables]
  intro hf
  exact (hM hf).imp_left (Or.imp_right (Or.imp_left (And.imp_left hquit)))

/-- a step before the loop -/
theorem Marked.outside (hM : T.Marked) (hflags : T'.flags = T.flags)
    (hquit : T'.quitFlag = T.quitFlag) (hleaving : T.pc.leaving = false)
    (hending : T.pc.ending = false) (hhandling : T.pc.handling = false)
    (hcommitted : T'.pc.committed = false) : T'.Marked := by
  intro hf
  rw [hflags] at hf
  rcases hM.in_round hf hleaving hending with ⟨hq, _⟩ | ⟨hS, _⟩
  · exact .inl (.inr (.inl ⟨hquit.trans hq, hcommitted⟩))
  · rw [hhandling] at hS
    cases hS

/-- a request is made -/
theorem Marked.registered {now addr : ℕ} {q : Query} {id : UInt16} (hM : T.Marked)
    (hlocked : T.pc.loopLocked = false) : (Sys.registerIn T now addr q id false).Marked := by
  have hne : (Sys.registerIn T now addr q id false).tables.sendList ≠ [] :=
    List.append_ne_nil_of_right_ne_nil _ (List.cons_ne_nil _ _)
  intro hf
  rcases hM hf with (hS | hS | ⟨hS, _⟩) | ⟨hS, _⟩
  · exact .inl (.inl hS)
  · exact .inl (.inr (.inl hS))
  · exact .inr ⟨Pc.handling_of_ending hS hlocked, hne⟩
  · exact .inr ⟨hS, hne⟩

/-- a request is removed by `cancel()` -/
theorem Marked.cancelled {tb : Tables} {x : ℕ} {r : Resolver} (hM : T.Marked)
    (hr : T.tables.removeResolver x = some (tb, some r))
    (hrem : T.flags.write = true → T.MayRemove x) : (Sys.cancelled T tb).Marked := by
  obtain ⟨_, _, _, _, _, _, _, htb⟩ := Tables.removeResolver_eq_some hr
  have hflags : (Sys.cancelled T tb).flags = T.flags := by
    unfold Sys.cancelled
    split <;> rfl
  have hquit : T.quitFlag = true → (Sys.cancelled T tb).quitFlag = true := by
    unfold Sys.cancelled
    split <;> exact fun h => by first | exact h | rfl
  have hlast : tb.resolversMap = [] → (Sys.cancelled T tb).quitFlag = true := by
    intro hnil
    unfold Sys.cancelled
    rw [if_pos hnil]
  unfold Marked Skips
  rw [hflags, Sys.cancelled_pc, Sys.cancelled_tables]
  intro hf
  rcases hM hf with (hS | ⟨hq, hS⟩ | ⟨hS, hnil⟩) | ⟨hS, hne⟩
  · exact .inl (.inl hS)
  · exact .inl (.inr (.inl ⟨hquit hq, hS⟩))
  · refine .inl (.inr (.inr ⟨hS, ?_⟩))
    rw [htb]
    show T.tables.resolversMap.filter _ = []
    rw [hnil]
    rfl
  · rcases removed_marked (hrem hf) rfl rfl hr hne hquit with hne' | hpc | ⟨hpc, h⟩
    · exact .inr ⟨hS, hne'⟩
    · exact .inl (.inl hpc)
    · exact .inl (.inr (.inl ⟨h.elim id hlast, hpc⟩))

end LookupThread

namespace Sys
variable {act : Action} {s s' : Sys}

/-- the step of a thread that waits -/
theorem runStep_wait {t : ℕ} {e : Env} {timeout : UInt32}
    (hpc : (s.threads t).pc = .wait timeout) (h : s.runStep t e = some s') :
    ∃ T', (s.threads t).wakeStep e.wake = some T' ∧ s'.threads t = T' := by
  unfold runStep at h
  rw [hpc] at h
  obtain ⟨⟨T', es⟩, hT, h⟩ := Option.bind_eq_some_iff.mp h
  unfold LookupThread.localStep at hT
  rw [hpc] at hT
  obtain ⟨T₁, hwake, hT⟩ := Option.bind_eq_some_iff.mp hT
  cases hT
  cases h
  exact ⟨T', hwake, Function.update_self _ _ _⟩

theorem marked_setThread {t : ℕ} {T : LookupThread} (h : ∀ u, (s.threads u).Marked)
    (hT : T.Marked) : ∀ u, ((s.setThread t T).threads u).Marked := by
  intro u
  rw [threads_setThread]
  split
  · exact hT
  · exact h u

theorem marked_own (hst : Stored s) (h : ∀ t, (s.threads t).Marked) {t : ℕ} {e : Env}
    {T : LookupThread} {es : List Event} (hg : MarkedWithWork s (.run t e))
    (hl : LookupThread.LocalMove t s.now e (s.threads t) T es)
    (hs : Sys.step (.run t e) s = some ((s.setThread t T).addLog es)) : T.Marked := by
  cases hw : (s.threads t).waits with
  | false => exact hl.marked (hst.linked t) (h t) hw hg.2
  | true =>
    obtain ⟨timeout, hpc⟩ := LookupThread.pc_of_waits hw
    obtain ⟨T', hwake, hT'⟩ := runStep_wait hpc hs
    obtain rfl : T = T' := (Function.update_self t T s.threads).symm.trans hT'
    exact LookupThread.wakeStep_marked hwake (h t) hw (hg.1 hw)

/-- **The mark stands for something to send** after a step of the system too. -/
theorem marked_step (hL : Locks s) (hst : Stored s) (h : ∀ t, (s.threads t).Marked)
    (hg : MarkedWithWork s act) (hs : Sys.step act s = some s') :
    ∀ t, (s'.threads t).Marked := by
  have hm := sysMove hs
  cases hm with
  | resolveFirst | resolveReplace => exact marked_setThread h nofun
  | resolveRegister a q t needStart idn _ hcall hmu =>
    refine marked_setThread h ?_
    cases needStart with
    | true =>
      have hpc := hL.regNew a q t hcall
      exact (h t).outside rfl rfl (by rw [hpc]; rfl) (by rw [hpc]; rfl) (by rw [hpc]; rfl) rfl
    | false =>
      refine (h t).registered ?_
      by_contra hlocked
      rw [hL.locked t (by simpa using hlocked)] at hmu
      cases hmu
  | cancelDone a x t tb r _ hcall _ hrem =>
    refine marked_setThread h ((h t).cancelled hrem ?_)
    simpa only [MarkedWithWork, hcall] using hg
  | cancelMiss a x t tb _ hcall _ hrem =>
    refine marked_setThread h ((h t).kept ?_ (cancelled_pc _ _) ?_ ?_)
    · show (cancelled _ tb).flags = _
      unfold cancelled
      split <;> rfl
    · show _ → (cancelled _ tb).quitFlag = true
      unfold cancelled
      split <;> exact fun h => by first | exact h | rfl
    · exact (cancelled_tables _ tb).trans (Tables.removeResolver_eq_none hrem).1
  | cancelWait a x t => exact marked_setThread h ((h t).kept rfl rfl id rfl)
  | cleanUpLock a t => exact marked_setThread h ((h t).kept rfl rfl (fun _ => rfl) rfl)
  | cleanUpJoin a t => exact marked_setThread h nofun
  | noPrev t _ _ hpc =>
    refine marked_setThread h ((h t).outside rfl rfl ?_ ?_ ?_ rfl) <;> rw [hpc] <;> rfl
  | joinPrev t p e _ hpc =>
    refine marked_setThread (s := s.destroy p) (marked_setThread h nofun)
      ((h t).outside rfl rfl ?_ ?_ ?_ rfl) <;> rw [hpc] <;> rfl
  | openSocket t _ _ hpc =>
    refine marked_setThread h ((h t).outside rfl rfl ?_ ?_ ?_ rfl) <;> rw [hpc] <;> rfl
  | openFailed | drainedOpen => exact marked_setThread h fun _ => .inl (.inl rfl)
  | queueEmpty t _ _ hpc =>
    refine marked_setThread h fun hf => ?_
    rcases (h t).in_round hf (by rw [hpc]; rfl) (by rw [hpc]; rfl) with ⟨hq, _⟩ | ⟨_, hne⟩
    · exact .inl (.inr (.inl ⟨hq, rfl⟩))
    · exact .inr ⟨rfl, hne⟩
  | popNop t => exact marked_setThread h ((h t).kept rfl rfl id rfl)
  | popStartSending t c e rest threads _ _ _ _ _ hthreads =>
    intro u
    show (threads u).Marked
    rw [hthreads u]
    exact (h u).kept rfl rfl id rfl
  | own t e T es _ _ _ hl => exact marked_setThread h (marked_own hst h hg hl hs)
  | _ => exact h

end Sys

/-! ## all runs -/

/-- The assertion at the start of the send branch holds. -/
def Sys.AssertionHolds (s : Sys) : Prop := ∀ t, (s.threads t).pc = .checkWrite →
  (s.threads t).flags.write = true → (s.threads t).tables.sendList ≠ []

/-- **Where the send branch is entered, there is something to send,** in every run in which the
socket is marked as writable, and stays marked, only with work to do. -/
theorem write_ready_assertion {s : Sys} (hr : resolverSystem.Reach Sys.MarkedWithWork s) :
    s.AssertionHolds := by
  have hM : ∀ t, (s.threads t).Marked := by
    refine hr.invariant (I := fun s => ∀ t, (s.threads t).Marked) ?_ ?_
    · rintro s ⟨now, rfl⟩ t
      exact nofun
    · intro s act s' hr h hg hs
      exact Sys.marked_step (Sys.locks hr) (Sys.stored hr) h hg hs
  intro t hpc hf
  rcases (hM t).in_round hf (by rw [hpc]; rfl) (by rw [hpc]; rfl) with ⟨_, hS⟩ | ⟨_, hne⟩
  · rw [hpc] at hS
    cases hS
  · exact hne

/-- A request is made, the socket is put into the wait set for writing, and `wait()` reports it as
ready for writing. -/
def wakeToWrite : List Action :=
  callSteps (.client 0) (.resolve (queryA 1)) 2 ++ lookupSteps 0 10 ++
  .run 0 { wake := .ready false false false } :: lookupSteps 0 9 ++
  [.run 0 { wake := .ready false true false }]

set_option maxRecDepth 10000 in
/-- The send branch is entered with the query of the request to send. -/
theorem write_ready_assertion_query : ∃ s, resolverSystem.run Sys.MarkedWithWork
      (wakeToWrite ++ lookupSteps 0 4) (Sys.init 0) = some s ∧
    ((s.threads 0).pc = .checkWrite ∧ (s.threads 0).flags.write = true) ∧ s.AssertionHolds := by
  obtain ⟨s, hs, hp⟩ := Machine.exists_run resolverSystem Sys.MarkedWithWork
    (wakeToWrite ++ lookupSteps 0 4) (Sys.init 0)
    (fun s => (s.threads 0).pc = .checkWrite ∧ (s.threads 0).flags.write = true) (by decide)
  exact ⟨s, hs, of_decide_eq_true hp, write_ready_assertion ((reach_init _ 0).run hs)⟩

/-- The request is cancelled when the thread has tested `quitFlag` and waits for its mutex. -/
def cancelAtLock : List Action :=
  wakeToWrite ++ lookupSteps 0 1 ++ callSteps (.client 0) (.cancel 1) 2 ++ lookupSteps 0 3

set_option maxRecDepth 10000 in
/-- The send branch is entered with nothing to send. -/
theorem cancel_before_branch : ¬ ∀ s, Run s → s.AssertionHolds := by
  intro h
  obtain ⟨s, hs, hp⟩ := exists_run_reach (fun _ _ => True) cancelAtLock
    (fun s => (s.threads 0).pc = .checkWrite ∧ (s.threads 0).flags.write = true ∧
      (s.threads 0).tables.sendList = []) 0 (by decide)
  obtain ⟨hpc, hf, hnil⟩ := of_decide_eq_true hp
  exact h s hs 0 hpc hf hnil

end Setka
