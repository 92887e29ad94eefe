import Setka.Dns.Ids
import Setka.Dns.Stranding

/-!
# Queries to send and the wait set

The lookup thread is told that the socket can be written only while the socket is in the wait set
for reading and writing.  `resolve()` posts a `StartSending` message when the send list becomes one
request long, and the fallback to the A record changes the wait set itself.

* `Wakes`           the invariant of one thread: queries to send are in the wait set, or a message
                    in the queue will put them there;
* `RunsCurrent`     a thread in its loop is `dns::thread`, on which `StartSending` is called;
* `no_lost_wakeup`  in every run, a thread that waits is woken for the queries it has to send.
-/

namespace Setka

/-- in the main loop or on the way to it, and not on the way out -/
@[grind =]
def Pc.looping (pc : Pc) : Bool := pc.goesOn && !pc.removesAll

namespace Tables
variable {tb tb' : Tables} {r : Resolver} {x : ℕ}

/-- A removal adds nothing to the send list. -/
theorem removeResolver_sendList (h : tb.removeResolver x = some (tb', some r)) :
    tb'.sendList.Sublist tb.sendList := by
  obtain ⟨_, sends, _, _, hsends, _, _, rfl⟩ := removeResolver_eq_some h
  show sends.Sublist tb.sendList
  unfold eraseSend at hsends
  split at hsends
  · cases hsends
    exact List.Sublist.refl _
  · exact Cell.eraseNode_sublist hsends

theorem removeResolver_send_ne (h : tb.removeResolver x = some (tb', some r))
    (hne : tb'.sendList ≠ []) : tb.sendList ≠ [] :=
  fun hnil => hne (List.sublist_nil.mp (hnil ▸ removeResolver_sendList h))

/-- A request that is removed right after it was moved to the A record leaves the send list as it
was, if it was empty. -/
theorem requeue_removed {r' : Resolver} (hl : Linked tb) (hr : tb.deref r.addr = some r)
    (h : (tb.requeue r.addr).removeResolver r.hnr = some (tb', some r')) (hne : tb'.sendList ≠ []) :
    tb.sendList ≠ [] := by
  intro hnil
  obtain rfl := removed_of_deref (requeue_linked hl r.addr)
    (deref_requeue hl (deref_eq_some hr).1) h
  obtain ⟨_, sends, _, _, hsends, _, _, rfl⟩ := removeResolver_eq_some h
  have hlist : (tb.requeue r.addr).sendList = [⟨tb.nextNode, (), r.addr⟩] := by
    show tb.sendList ++ _ = _
    rw [hnil]
    rfl
  have hsends' : Cell.eraseNode (tb.requeue r.addr).sendList tb.nextNode = some sends := hsends
  rw [hlist] at hsends'
  refine hne ?_
  show sends = []
  rw [Cell.eraseNode_eq_some hsends', List.eraseP_cons_of_pos (by simp)]

end Tables

namespace LookupThread

/-- The socket is in the wait set for reading and writing, or a message will put it there. -/
def Woken (T : LookupThread) : Prop := T.waitMode = some .readWrite ∨ .startSending ∈ T.queue

structure Wakes (T : LookupThread) : Prop where
  woken : T.pc.looping = true → T.tables.sendList ≠ [] → T.Woken
  stays : T.pc.looping = true → T.isExiting = false
  closed : T.pc.opened = false → T.waitMode = none

variable {t now : ℕ} {e : Env} {T T' : LookupThread} {es : List Event}

attribute [local grind =] Site.resume_removesAll Site.resume_goesOn completing readCleared
  writeCleared serverChosen LookupThread.requeued

theorem Wakes.stays_local (hw : Wakes T) (h : LocalMove t now e T T' es) :
    T'.pc.looping = true → T'.isExiting = false := by
  have stays := hw.stays
  clear hw
  cases h <;> grind

theorem Wakes.closed_local (hw : Wakes T) (h : LocalMove t now e T T' es) :
    T'.pc.opened = false → T'.waitMode = none := by
  have closed := hw.closed
  clear hw
  cases h
  case cbRelock s hpc _ => cases s <;> grind [Site.resume]
  all_goals grind

theorem Wakes.woken_local (hw : Wakes T) (hl : T.tables.Linked) (h : LocalMove t now e T T' es)
    (hloop : T'.pc.looping = true) (hne : T'.tables.sendList ≠ []) : T'.Woken := by
  have woken := hw.woken
  clear hw
  -- what the thread was told before still counts
  have hold : T.pc.looping = true → T.tables.sendList ≠ [] → T'.waitMode = T.waitMode →
      T'.queue = T.queue → T'.Woken := by
    intro hpc hs hmode hqueue
    unfold Woken
    rw [hmode, hqueue]
    exact woken hpc hs
  cases h
  case requeued d r mode hpc hf hd ha hmode =>
    by_cases hs : T.tables.sendList = []
    · rw [if_pos (by show (T.tables.sendList ++ [_]).length = 1; rw [hs]; rfl)] at hmode
      exact .inl hmode
    · rw [if_neg fun hlen => hs ?_] at hmode
      · exact hold (by rw [hpc]; rfl) hs hmode rfl
      · have hlen' : (T.tables.sendList ++ [_]).length = 1 := hlen
        rw [List.length_append] at hlen'
        exact List.length_eq_zero_iff.mp (Nat.succ.inj hlen')
  case requeueFailed d r tb r' hpc hf hd _ ha hrem =>
    exact hold (by rw [hpc]; rfl)
      (Tables.requeue_removed hl (Tables.deref_of_recvAction ha) hrem hne) rfl rfl
  case replied hpc _ _ _ hrem | wrapTimeout hpc _ _ hrem | expireTimeout hpc _ _ _ hrem =>
    exact hold (by rw [hpc]; rfl) (Tables.removeResolver_send_ne hrem hne) rfl rfl
  case noServer c rest r tb r' hpc _ _ _ hrem =>
    have hs : (T.serverChosen r).tables.sendList ≠ [] := Tables.removeResolver_send_ne hrem hne
    exact hold (by rw [hpc]; rfl) hs rfl rfl
  case swapped hpc _ => exact hold (by rw [hpc]; rfl) hne rfl rfl
  case sent c rest r hpc hlist _ _ =>
    exact hold (by rw [hpc]; rfl) (by rw [hlist]; exact List.cons_ne_nil _ _) rfl rfl
  case allSent hnil => exact absurd hnil hne
  all_goals grind [Woken]

theorem LocalMove.exiting (h : LocalMove t now e T T' es) (hex : T'.isExiting = false) :
    T.isExiting = false := by
  cases h <;> grind

end LookupThread

namespace Sys
variable {act : Action} {s s' : Sys} {u : ℕ} {T' : LookupThread}

/-- A thread that is not exiting is `dns::thread`. -/
def RunsCurrent (s : Sys) : Prop := ∀ t, (s.threads t).isExiting = false → s.thread = some t

theorem runsCurrent_step (h : RunsCurrent s) (hc : Calls s) (hm : Move act s s') :
    RunsCurrent s' := by
  have holder := hc.holder
  clear hc
  unfold RunsCurrent at *
  cases hm
  case own t e T es hl =>
    have := hl.exiting
    grind
  all_goals grind [registerIn, cancelled]

theorem cancelled_wakes {T : LookupThread} (hw : T.Wakes) {x : ℕ} {tb : Tables}
    {r : Option Resolver} (hr : T.tables.removeResolver x = some (tb, r)) :
    (cancelled T tb).Wakes := by
  have hsend : tb.sendList ≠ [] → T.tables.sendList ≠ [] := by
    intro hne
    cases r with
    | none =>
      rw [(Tables.removeResolver_eq_none hr).1] at hne
      exact hne
    | some r => exact Tables.removeResolver_send_ne hr hne
  obtain ⟨woken, stays, closed⟩ := hw
  unfold cancelled
  constructor <;> split <;> grind [LookupThread.Woken]

/-- A registration posts the message if the send list was empty. -/
theorem registered_wakes {T : LookupThread} {now addr : ℕ} {q : Query} {id : UInt16}
    {needStart : Bool} (hw : T.Wakes)
    (hnew : needStart = true → T = { prevThread := T.prevThread }) :
    (registerIn T now addr q id needStart).Wakes := by
  obtain ⟨woken, stays, closed⟩ := hw
  have hlen : (T.tables.register addr q id (ticks now)).sendList.length =
      T.tables.sendList.length + 1 := List.length_append
  cases needStart with
  | true =>
    rw [hnew rfl]
    exact ⟨fun _ _ => .inr (List.mem_singleton_self _), fun _ => rfl, fun _ => rfl⟩
  | false =>
    refine ⟨fun hloop _ => ?_, stays, closed⟩
    unfold LookupThread.Woken registerIn
    dsimp only
    rw [hlen]
    by_cases hs : T.tables.sendList = []
    · rw [hs]
      exact .inr (List.mem_append_right _ (List.mem_singleton_self _))
    · rw [if_neg fun h => hs (List.length_eq_zero_iff.mp (Nat.succ.inj h))]
      exact woken hloop hs

theorem ThreadMove.wakes (h : ThreadMove act s s' u (s.threads u) T') (hc : Calls s)
    (hw : (s.threads u).Wakes) (hl : (s.threads u).tables.Linked)
    (hcur : (s.threads u).isExiting = false → s.thread = some u) : T'.Wakes := by
  obtain ⟨woken, stays, closed⟩ := hw
  cases h with
  | same => exact ⟨woken, stays, closed⟩
  | created | cleanedUp | joined => exact ⟨nofun, nofun, fun _ => rfl⟩
  | registered a q needStart id hcall =>
    refine registered_wakes ⟨woken, stays, closed⟩ fun hn => ?_
    rw [hn] at hcall
    exact hc.fresh u (hc.regNew a q u hcall)
  | cancelled a x tb r _ _ hr => exact cancelled_wakes ⟨woken, stays, closed⟩ hr
  | cancelMiss a x tb _ _ hr =>
    obtain ⟨h1, h2, h3⟩ := cancelled_wakes ⟨woken, stays, closed⟩ hr
    exact ⟨h1, h2, h3⟩
  | popQueue msg rest mode hpc hq hmode =>
    have hth : s.thread = some u := hcur (stays (by rw [hpc]; rfl))
    refine ⟨fun hloop hs => ?_, stays, fun ho => ?_⟩
    · cases msg with
      | startSending =>
        rw [if_pos ⟨rfl, hth⟩] at hmode
        exact .inl hmode
      | nop =>
        rw [if_neg fun h => nomatch h.1] at hmode
        refine (woken hloop hs).imp hmode.trans fun hmsg => ?_
        rw [hq] at hmsg
        exact (List.mem_cons.mp hmsg).resolve_left nofun
    · rw [show (s.threads u).pc = .popQueue from hpc] at ho
      cases ho
  | own e T' es _ _ hm =>
    exact ⟨LookupThread.Wakes.woken_local ⟨woken, stays, closed⟩ hl hm,
      LookupThread.Wakes.stays_local ⟨woken, stays, closed⟩ hm,
      LookupThread.Wakes.closed_local ⟨woken, stays, closed⟩ hm⟩
  | _ => constructor <;> grind [LookupThread.startSending, LookupThread.Woken]

end Sys

/-- **No lost wake-up:** if a thread that waits in its loop has queries to send, the socket is in
the wait set for reading and writing, or a message in the queue will put it there. -/
theorem no_lost_wakeup {s : Sys} (hr : Run s) {t : ℕ} {timeout : UInt32}
    (hpc : (s.threads t).pc = .wait timeout) (hs : (s.threads t).tables.sendList ≠ []) :
    (s.threads t).waitMode = some .readWrite ∨ .startSending ∈ (s.threads t).queue := by
  have hI := hr.invariant (I := fun s => Sys.RunsCurrent s ∧ ∀ t, (s.threads t).Wakes) ?_ ?_
  · exact (hI.2 t).woken (by rw [hpc]; rfl) hs
  · rintro s ⟨now, rfl⟩
    exact ⟨nofun, fun _ => ⟨nofun, nofun, fun _ => rfl⟩⟩
  · intro s act s' hr ⟨hcur, hw⟩ _ hstep
    have hm := Sys.sysMove hstep
    have hc := (Sys.locks hr).toCalls
    exact ⟨Sys.runsCurrent_step hcur hc hm,
      fun u => (hm.thread u).wakes hc (hw u) ((Sys.stored hr).linked u) (hcur u)⟩

set_option maxRecDepth 10000 in
/-- a thread that waits, with a query to send and the message not yet read -/
theorem no_lost_wakeup_posted : ∃ s, resolverSystem.run (fun _ _ => True)
      (callSteps (.client 0) (.resolve (queryA 1)) 2 ++ lookupSteps 0 10) (Sys.init 0) = some s ∧
    (s.threads 0).tables.sendList ≠ [] ∧
    ((s.threads 0).waitMode = some .readWrite ∨ .startSending ∈ (s.threads 0).queue) := by
  obtain ⟨s, hs, hp⟩ := Machine.exists_run resolverSystem (fun _ _ => True)
    (callSteps (.client 0) (.resolve (queryA 1)) 2 ++ lookupSteps 0 10) (Sys.init 0)
    (fun s => (s.threads 0).pc = .wait 1000 ∧ (s.threads 0).tables.sendList ≠ []) (by decide)
  obtain ⟨hpc, hsend⟩ := of_decide_eq_true hp
  exact ⟨s, hs, hsend, no_lost_wakeup ((reach_init _ 0).run hs) hpc hsend⟩

end Setka
