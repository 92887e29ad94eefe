import Setka.Dns.LocalMoves
import Setka.Dns.System

/-!
# What one step of the system can do

`Sys.Move a s s'` lists the steps of the system one by one, each with its guard and the state after
it; `sysMove` says that `Sys.step` takes no other step.
-/

namespace Setka
namespace Sys

/-- the state after the registration of `q` in the thread `t`, before `resolve()` returns -/
abbrev registered (s : Sys) (a : Actor) (q : Query) (t : ℕ) (id : UInt16) (needStart : Bool) :
    Sys :=
  { (s.setThread t (registerIn (s.threads t) s.now s.nextCall q id needStart)).addLog
      [.registered s.nextCall q s.now (s.runsCallbackOf a == some q.hnr)] with
    nextCall := s.nextCall + 1 }

/-- the thread `t` after `cancel()` has removed what there was of `x` -/
def cancelled (T : LookupThread) (tb : Tables) : LookupThread :=
  if tb.resolversMap = [] then
    { T with tables := tb, quitFlag := true, queue := T.queue ++ [Msg.nop] }
  else { T with tables := tb }

section
variable (T : LookupThread) (tb : Tables)

@[simp] theorem cancelled_tables : (cancelled T tb).tables = tb := by
  unfold cancelled
  split <;> rfl

@[simp] theorem cancelled_pc : (cancelled T tb).pc = T.pc := by
  unfold cancelled
  split <;> rfl

@[simp] theorem cancelled_mutex : (cancelled T tb).mutex = T.mutex := by
  unfold cancelled
  split <;> rfl

@[simp] theorem cancelled_completedMutex : (cancelled T tb).completedMutex = T.completedMutex := by
  unfold cancelled
  split <;> rfl

@[simp] theorem cancelled_lastTicks : (cancelled T tb).lastTicks = T.lastTicks := by
  unfold cancelled
  split <;> rfl

@[simp] theorem cancelled_curTime : (cancelled T tb).curTime = T.curTime := by
  unfold cancelled
  split <;> rfl

@[simp] theorem cancelled_firstHalf :
    (cancelled T tb).lastTicksInFirstHalf = T.lastTicksInFirstHalf := by
  unfold cancelled
  split <;> rfl

end

/-- the thread `t` after `clean_up()` has told it to quit -/
abbrev toldToQuit (s : Sys) (t : ℕ) : Sys :=
  s.setThread t { s.threads t with quitFlag := true, queue := (s.threads t).queue ++ [Msg.nop] }

inductive Move : Action → Sys → Sys → Prop
  | tick (ms : ℕ) (s : Sys) : Move (.tick ms) s { s with now := s.now + ms }
  | nameTooLong (a : Actor) (q : Query) (s : Sys) : 253 < q.hostName.length →
      Move (.call a (.resolve q)) s s
  | callResolve (a : Actor) (q : Query) (s : Sys) : s.calls a = .idle →
      (a.isClient || (s.runsCallbackOf a).isSome) = true → q.hostName.length ≤ 253 →
      Move (.call a (.resolve q)) s (s.setCall a (.resolveLock q))
  | callCancel (a : Actor) (x : ℕ) (s : Sys) : s.calls a = .idle → a.isClient = true →
      Move (.call a (.cancel x)) s (s.setCall a (.cancelLock x))
  | callCleanUp (a : Actor) (s : Sys) : s.calls a = .idle → a.isClient = true →
      Move (.call a .cleanUp) s (s.setCall a .cleanUpLock)
  | resolveFirst (a : Actor) (q : Query) (s : Sys) : s.calls a = .resolveLock q →
      s.dnsMutex = none → s.thread = none →
      Move (.api a) s (({ s with dnsMutex := some a }.newThread none).setCall a
        (.resolveRegister q s.nextThread true))
  | resolveLock (a : Actor) (q : Query) (t : ℕ) (s : Sys) : s.calls a = .resolveLock q →
      s.dnsMutex = none → s.thread = some t →
      Move (.api a) s ({ s with dnsMutex := some a }.setCall a (.resolveCheck q t))
  | resolveBusy (a : Actor) (q : Query) (t : ℕ) (s : Sys) : s.calls a = .resolveCheck q t →
      (s.threads t).mutex = none → ((s.threads t).tables.find q.hnr).isSome = true →
      Move (.api a) s (s.returnFrom a)
  | resolveReplace (a : Actor) (q : Query) (t : ℕ) (s : Sys) : s.calls a = .resolveCheck q t →
      (s.threads t).mutex = none → (s.threads t).tables.find q.hnr = none →
      (s.threads t).isExiting = true →
      Move (.api a) s ((s.newThread (some t)).setCall a (.resolveRegister q s.nextThread true))
  | resolveReuse (a : Actor) (q : Query) (t : ℕ) (s : Sys) : s.calls a = .resolveCheck q t →
      (s.threads t).mutex = none → (s.threads t).tables.find q.hnr = none →
      (s.threads t).isExiting = false →
      Move (.api a) s (s.setCall a (.resolveRegister q t false))
  | tooManyRequests (a : Actor) (q : Query) (t : ℕ) (needStart : Bool) (s : Sys) :
      s.calls a = .resolveRegister q t needStart → (s.threads t).mutex = none →
      Tables.findFreeId (s.threads t).tables.idMap = none → Move (.api a) s (s.returnFrom a)
  | resolveRegister (a : Actor) (q : Query) (t : ℕ) (needStart : Bool) (id : UInt16) (s : Sys) :
      s.calls a = .resolveRegister q t needStart → (s.threads t).mutex = none →
      Tables.findFreeId (s.threads t).tables.idMap = some id →
      Move (.api a) s ((s.registered a q t id needStart).returnFrom a)
  | cancelNothing (a : Actor) (x : ℕ) (s : Sys) : s.calls a = .cancelLock x →
      s.dnsMutex = none → s.thread = none →
      Move (.api a) s ((s.addLog [.cancelReturned x s.nextCall]).setCall a .idle)
  | cancelLock (a : Actor) (x t : ℕ) (s : Sys) : s.calls a = .cancelLock x →
      s.dnsMutex = none → s.thread = some t →
      Move (.api a) s ({ s with dnsMutex := some a }.setCall a (.cancelRemove x t))
  | cancelDone (a : Actor) (x t : ℕ) (tb : Tables) (r : Resolver) (s : Sys) :
      s.calls a = .cancelRemove x t → (s.threads t).mutex = none →
      (s.threads t).tables.removeResolver x = some (tb, some r) →
      Move (.api a) s (((s.setThread t (cancelled (s.threads t) tb)).addLog
        [.cancelReturned x s.nextCall, .cancelled r.addr]).returnFrom a)
  | cancelMiss (a : Actor) (x t : ℕ) (tb : Tables) (s : Sys) :
      s.calls a = .cancelRemove x t → (s.threads t).mutex = none →
      (s.threads t).tables.removeResolver x = some (tb, none) →
      Move (.api a) s ((s.setThread t { cancelled (s.threads t) tb with mutex := some a }).setCall a
        (.cancelWait x t))
  | cancelWait (a : Actor) (x t : ℕ) (s : Sys) : s.calls a = .cancelWait x t →
      (s.threads t).completedMutex = none →
      Move (.api a) s (((s.setThread t { s.threads t with mutex := none }).addLog
        [.cancelReturned x s.nextCall]).returnFrom a)
  | cleanUpNothing (a : Actor) (s : Sys) : s.calls a = .cleanUpLock → s.dnsMutex = none →
      s.thread = none → Move (.api a) s (s.setCall a .idle)
  | cleanUpLock (a : Actor) (t : ℕ) (s : Sys) : s.calls a = .cleanUpLock → s.dnsMutex = none →
      s.thread = some t →
      Move (.api a) s ({ s.toldToQuit t with dnsMutex := some a }.setCall a (.cleanUpJoin t))
  | cleanUpJoin (a : Actor) (t : ℕ) (s : Sys) : s.calls a = .cleanUpJoin t →
      joinable (s.threads t) = true →
      Move (.api a) s
        ({ (s.addLog (assert (s.threads t).tables.resolversMap.isEmpty)).destroy t with
            thread := none }.returnFrom a)
  | noPrev (t : ℕ) (e : Env) (s : Sys) : (s.threads t).pc = .joinPrev →
      (s.threads t).prevThread = none →
      Move (.run t e) s (s.setThread t { s.threads t with pc := .initDNS })
  | joinPrev (t p : ℕ) (e : Env) (s : Sys) : (s.threads t).pc = .joinPrev →
      (s.threads t).prevThread = some p → joinable (s.threads p) = true →
      Move (.run t e) s
        ((s.destroy p).setThread t { s.threads t with prevThread := none, pc := .initDNS })
  | openSocket (t : ℕ) (e : Env) (s : Sys) : (s.threads t).pc = .openSocket → s.dnsMutex = none →
      Move (.run t e) s (s.setThread t { s.threads t with waitMode := some .read, pc := .loopHead })
  | openFailed (t : ℕ) (e : Env) (s : Sys) : (s.threads t).pc = .openSocket → s.dnsMutex = none →
      e.openOk = false →
      Move (.run t e) s
        { s.setThread t { s.threads t with isExiting := true, pc := .drain .openFailed } with
          dnsMutex := some (.lookup t) }
  | queueEmpty (t : ℕ) (e : Env) (s : Sys) : (s.threads t).pc = .popQueue →
      (s.threads t).queue = [] →
      Move (.run t e) s (s.setThread t { s.threads t with pc := .loopHead })
  | popNop (t : ℕ) (e : Env) (rest : List Msg) (s : Sys) : (s.threads t).pc = .popQueue →
      (s.threads t).queue = .nop :: rest →
      Move (.run t e) s (s.setThread t { s.threads t with queue := rest })
  | popStartSending (t c : ℕ) (e : Env) (rest : List Msg) (threads : ℕ → LookupThread) (s : Sys) :
      (s.threads t).pc = .popQueue → (s.threads t).queue = .startSending :: rest →
      s.thread = some c → (s.threads c).waitMode ≠ none →
      (∀ u, threads u = { s.threads u with
        queue := if u = t then rest else (s.threads u).queue
        waitMode := if u = c then some .readWrite else (s.threads u).waitMode }) →
      Move (.run t e) s { s with threads := threads }
  | drainedOpen (t : ℕ) (e : Env) (s : Sys) : (s.threads t).pc = .drain .openFailed →
      (s.threads t).tables.resolversMap = [] →
      Move (.run t e) s
        { s.setThread t { s.threads t with pc := .finished } with dnsMutex := none }
  | own (t : ℕ) (e : Env) (T : LookupThread) (es : List Event) (s : Sys) :
      ((s.threads t).pc = .drain .openFailed → (s.threads t).tables.resolversMap ≠ []) →
      (∀ c, (s.threads t).pc = .cbRun c → s.calls (.lookup t) = .idle) →
      LookupThread.LocalMove t s.now e (s.threads t) T es →
      Move (.run t e) s ((s.setThread t T).addLog es)

attribute [grind =] Function.update_apply

variable {a : Actor} {t : ℕ} {e : Env} {s s' : Sys}

theorem beginCall_move {c : ApiCall} (h : s.beginCall a c = some s') : Move (.call a c) s s' := by
  unfold beginCall at h
  split at h
  case isFalse => cases h
  case isTrue hi =>
    cases c with
    | resolve q =>
      dsimp only at h
      split at h
      · rename_i hc
        split at h
        · rename_i hl
          cases h
          exact .nameTooLong a q s hl
        · rename_i hl
          cases h
          exact .callResolve a q s hi hc (not_lt.mp hl)
      · cases h
    | cancel x =>
      dsimp only at h
      split at h
      · rename_i hc
        cases h
        exact .callCancel a x s hi hc
      · cases h
    | cleanUp =>
      dsimp only at h
      split at h
      · rename_i hc
        cases h
        exact .callCleanUp a s hi hc
      · cases h

theorem resolveLockStep_move {q : Query} (hc : s.calls a = .resolveLock q)
    (h : resolveLockStep a q s = some s') : Move (.api a) s s' := by
  unfold resolveLockStep at h
  split at h
  case isFalse => cases h
  case isTrue hm =>
    dsimp only at h
    split at h
    · rename_i ht
      cases h
      exact .resolveFirst a q s hc hm ht
    · rename_i t ht
      cases h
      exact .resolveLock a q t s hc hm ht

theorem resolveCheckStep_move {q : Query} (hc : s.calls a = .resolveCheck q t)
    (h : resolveCheckStep a q t s = some s') : Move (.api a) s s' := by
  unfold resolveCheckStep at h
  dsimp only at h
  split at h
  case isFalse => cases h
  case isTrue hm =>
    split at h
    case isTrue hf =>
      cases h
      exact .resolveBusy a q t s hc hm hf
    case isFalse hf =>
      have hf' : (s.threads t).tables.find q.hnr = none := by simpa using hf
      split at h
      · rename_i he
        cases h
        exact .resolveReplace a q t s hc hm hf' he
      · rename_i he
        cases h
        exact .resolveReuse a q t s hc hm hf' (by simpa using he)

theorem resolveRegisterStep_move {q : Query} {needStart : Bool}
    (hc : s.calls a = .resolveRegister q t needStart)
    (h : resolveRegisterStep a q t needStart s = some s') : Move (.api a) s s' := by
  unfold resolveRegisterStep at h
  dsimp only at h
  split at h
  case isFalse => cases h
  case isTrue hm =>
    split at h
    · rename_i hid
      cases h
      exact .tooManyRequests a q t needStart s hc hm hid
    · rename_i id hid
      cases h
      exact .resolveRegister a q t needStart id s hc hm hid

theorem cancelLockStep_move {x : ℕ} (hc : s.calls a = .cancelLock x)
    (h : cancelLockStep a x s = some s') : Move (.api a) s s' := by
  unfold cancelLockStep at h
  split at h
  case isFalse => cases h
  case isTrue hm =>
    split at h
    · rename_i ht
      cases h
      exact .cancelNothing a x s hc hm ht
    · rename_i t ht
      cases h
      exact .cancelLock a x t s hc hm ht

theorem cancelIn_eq_some {T T' : LookupThread} {x : ℕ} {r : Option Resolver}
    (h : cancelIn T x = some (T', r)) :
    ∃ tb, T.tables.removeResolver x = some (tb, r) ∧ T' = cancelled T tb := by
  unfold cancelIn at h
  obtain ⟨⟨tb, o⟩, hr, h⟩ := Option.bind_eq_some_iff.mp h
  unfold cancelled
  dsimp only at h
  split at h
  · rename_i hm
    cases h
    exact ⟨tb, hr, by rw [if_pos hm]⟩
  · rename_i hm
    cases h
    exact ⟨tb, hr, by rw [if_neg hm]⟩

theorem cancelRemoveStep_move {x : ℕ} (hc : s.calls a = .cancelRemove x t)
    (h : cancelRemoveStep a x t s = some s') : Move (.api a) s s' := by
  unfold cancelRemoveStep at h
  split at h
  case isFalse => cases h
  case isTrue hm =>
    obtain ⟨⟨T, r⟩, hT, h⟩ := Option.bind_eq_some_iff.mp h
    obtain ⟨tb, htb, rfl⟩ := cancelIn_eq_some hT
    cases r with
    | none =>
      cases h
      exact .cancelMiss a x t tb s hc hm htb
    | some r =>
      cases h
      exact .cancelDone a x t tb r s hc hm htb

theorem cleanUpLockStep_move (hc : s.calls a = .cleanUpLock)
    (h : cleanUpLockStep a s = some s') : Move (.api a) s s' := by
  unfold cleanUpLockStep at h
  split at h
  case isFalse => cases h
  case isTrue hm =>
    split at h
    · rename_i ht
      cases h
      exact .cleanUpNothing a s hc hm ht
    · rename_i t ht
      cases h
      exact .cleanUpLock a t s hc hm ht

theorem apiStep_move (h : s.apiStep a = some s') : Move (.api a) s s' := by
  unfold apiStep at h
  split at h
  case h_1 => cases h
  case h_2 q hc => exact resolveLockStep_move hc h
  case h_3 q t hc => exact resolveCheckStep_move hc h
  case h_4 q t needStart hc => exact resolveRegisterStep_move hc h
  case h_5 x hc => exact cancelLockStep_move hc h
  case h_6 x t hc => exact cancelRemoveStep_move hc h
  case h_7 x t hc =>
    unfold cancelWaitStep at h
    split at h
    · rename_i hm
      cases h
      exact .cancelWait a x t s hc hm
    · cases h
  case h_8 hc => exact cleanUpLockStep_move hc h
  case h_9 t hc =>
    unfold cleanUpJoinStep at h
    split at h
    · rename_i hj
      cases h
      exact .cleanUpJoin a t s hc hj
    · cases h

theorem joinPrevStep_move (hpc : (s.threads t).pc = .joinPrev)
    (h : joinPrevStep t s = some s') : Move (.run t e) s s' := by
  unfold joinPrevStep at h
  dsimp only at h
  split at h
  · rename_i hp
    cases h
    exact .noPrev t e s hpc hp
  · rename_i p hp
    split at h
    · rename_i hj
      cases h
      exact .joinPrev t p e s hpc hp hj
    · cases h

theorem openSocketStep_move (hpc : (s.threads t).pc = .openSocket)
    (h : openSocketStep t e.openOk s = some s') : Move (.run t e) s s' := by
  unfold openSocketStep at h
  dsimp only at h
  split at h
  case isFalse => cases h
  case isTrue hm =>
    split at h
    · cases h
      exact .openSocket t e s hpc hm
    · rename_i ho
      cases h
      exact .openFailed t e s hpc hm (by simpa using ho)

theorem popQueueStep_move (hpc : (s.threads t).pc = .popQueue)
    (h : popQueueStep t s = some s') : Move (.run t e) s s' := by
  unfold popQueueStep at h
  dsimp only at h
  split at h
  · rename_i hq
    cases h
    exact .queueEmpty t e s hpc hq
  · rename_i rest hq
    cases h
    exact .popNop t e rest s hpc hq
  · rename_i rest hq
    split at h
    · cases h
    · rename_i c hc
      split at h
      · cases h
      · rename_i hw
        cases h
        refine .popStartSending t c e rest _ s hpc hq hc (fun hn => hw ?_) fun u => ?_
        · by_cases hct : c = t
          · subst hct
            simpa using hn
          · simpa [hct] using hn
        · dsimp only
          by_cases hut : u = t <;> by_cases huc : u = c <;> by_cases hct : c = t <;>
            simp_all [Function.update_apply, LookupThread.startSending]

theorem ownStep_eq_some (h : s.ownStep t e = some s') :
    ∃ T es, LookupThread.LocalMove t s.now e (s.threads t) T es ∧
      s' = (s.setThread t T).addLog es := by
  unfold ownStep at h
  obtain ⟨⟨T, es⟩, hT, h⟩ := Option.bind_eq_some_iff.mp h
  exact ⟨T, es, LookupThread.localMove hT, (Option.some.inj h).symm⟩

theorem runStep_move (h : s.runStep t e = some s') : Move (.run t e) s s' := by
  unfold runStep at h
  split at h
  case h_1 hpc => exact joinPrevStep_move hpc h
  case h_2 hpc => exact openSocketStep_move hpc h
  case h_3 hpc => exact popQueueStep_move hpc h
  case h_4 c hpc =>
    split at h
    · rename_i hi
      obtain ⟨T, es, hT, rfl⟩ := ownStep_eq_some h
      refine .own t e T es s (fun hd => ?_) (fun _ _ => hi) hT
      rw [hpc] at hd
      cases hd
    · cases h
  case h_5 hpc =>
    split at h
    · rename_i hm
      obtain ⟨s2, h2, rfl⟩ := Option.map_eq_some_iff.mp h
      obtain ⟨T, es, hT, rfl⟩ := ownStep_eq_some h2
      obtain ⟨rfl, rfl⟩ := hT.of_drainedOpen hpc hm
      exact .drainedOpen t e s hpc hm
    · rename_i hm
      obtain ⟨T, es, hT, rfl⟩ := ownStep_eq_some h
      refine .own t e T es s (fun _ => hm) (fun c hc => ?_) hT
      rw [hpc] at hc
      cases hc
  case h_6 h1 h2 h3 h4 h5 =>
    obtain ⟨T, es, hT, rfl⟩ := ownStep_eq_some h
    exact .own t e T es s (fun hd => absurd hd h5) (fun c hc => absurd hc (h4 c)) hT

/-- **`Sys.step` does nothing but the moves.** -/
theorem sysMove {act : Action} (h : Sys.step act s = some s') : Move act s s' := by
  cases act with
  | tick ms =>
    cases h
    exact .tick ms s
  | call a c => exact beginCall_move h
  | api a => exact apiStep_move h
  | run t e => exact runStep_move h

theorem Move.nextThread_le {act : Action} (h : Move act s s') : s.nextThread ≤ s'.nextThread := by
  cases h with
  | resolveFirst | resolveReplace => exact Nat.le_succ _
  | _ => exact Nat.le_refl _

/-! ## one thread -/

/-- what one step of the system does to the lookup thread `u` -/
inductive ThreadMove (act : Action) (s s' : Sys) (u : ℕ) (T : LookupThread) : LookupThread → Prop
  | same : ThreadMove act s s' u T T
  | created (prev : Option ℕ) : u = s.nextThread → ThreadMove act s s' u T { prevThread := prev }
  | registered (a : Actor) (q : Query) (needStart : Bool) (id : UInt16) :
      s.calls a = .resolveRegister q u needStart → T.mutex = none →
      Tables.findFreeId T.tables.idMap = some id →
      act = .api a → s' = (s.registered a q u id needStart).returnFrom a →
      ThreadMove act s s' u T (registerIn T s.now s.nextCall q id needStart)
  | cancelled (a : Actor) (x : ℕ) (tb : Tables) (r : Resolver) : s.calls a = .cancelRemove x u →
      T.mutex = none → T.tables.removeResolver x = some (tb, some r) →
      ThreadMove act s s' u T (cancelled T tb)
  | cancelMiss (a : Actor) (x : ℕ) (tb : Tables) : s.calls a = .cancelRemove x u →
      T.mutex = none → T.tables.removeResolver x = some (tb, none) →
      ThreadMove act s s' u T { Sys.cancelled T tb with mutex := some a }
  | cancelWait (a : Actor) (x : ℕ) : s.calls a = .cancelWait x u → T.completedMutex = none →
      ThreadMove act s s' u T { T with mutex := none }
  | toldToQuit (a : Actor) : s.calls a = .cleanUpLock → s.dnsMutex = none → s.thread = some u →
      ThreadMove act s s' u T { T with quitFlag := true, queue := T.queue ++ [Msg.nop] }
  | cleanedUp (a : Actor) : s.calls a = .cleanUpJoin u → joinable T = true →
      ThreadMove act s s' u T { pc := .destroyed }
  | joined (t : ℕ) : (s.threads t).pc = .joinPrev → (s.threads t).prevThread = some u →
      joinable T = true → ThreadMove act s s' u T { pc := .destroyed }
  | joinedPrev : T.pc = .joinPrev →
      ThreadMove act s s' u T { T with prevThread := none, pc := .initDNS }
  | openSocket : T.pc = .openSocket → s.dnsMutex = none →
      ThreadMove act s s' u T { T with waitMode := some .read, pc := .loopHead }
  | openFailed : T.pc = .openSocket → s.dnsMutex = none →
      ThreadMove act s s' u T { T with isExiting := true, pc := .drain .openFailed }
  | queueEmpty : T.pc = .popQueue → T.queue = [] →
      ThreadMove act s s' u T { T with pc := .loopHead }
  | popQueue (msg : Msg) (rest : List Msg) (mode : Option WaitMode) : T.pc = .popQueue →
      T.queue = msg :: rest →
      mode = (if msg = .startSending ∧ s.thread = some u then some .readWrite else T.waitMode) →
      ThreadMove act s s' u T { T with queue := rest, waitMode := mode }
  | startSending : s.thread = some u → T.waitMode ≠ none → ThreadMove act s s' u T T.startSending
  | drainedOpen : T.pc = .drain .openFailed → T.tables.resolversMap = [] →
      ThreadMove act s s' u T { T with pc := .finished }
  | own (e : Env) (T' : LookupThread) (es : List Event) :
      (T.pc = .drain .openFailed → T.tables.resolversMap ≠ []) →
      (∀ c, T.pc = .cbRun c → s.calls (.lookup u) = .idle) →
      LookupThread.LocalMove u s.now e T T' es →
      act = .run u e → s' = (s.setThread u T').addLog es → ThreadMove act s s' u T T'

theorem threads_setThread (s : Sys) (t : ℕ) (T : LookupThread) (u : ℕ) :
    (s.setThread t T).threads u = if u = t then T else s.threads u := by
  simp [Function.update_apply]

variable {act : Action}

theorem ThreadMove.of_setThread {T : LookupThread} (h : ThreadMove act s s' t (s.threads t) T)
    (u : ℕ) :
    ThreadMove act s s' u (s.threads u) ((s.setThread t T).threads u) := by
  rw [threads_setThread]
  split
  · rename_i hu
    rw [hu]
    exact h
  · exact .same

/-- **Every step of the system is, for each thread, one of these.** -/
theorem Move.thread (h : Move act s s') (u : ℕ) :
    ThreadMove act s s' u (s.threads u) (s'.threads u) := by
  cases h with
  | resolveFirst a q s hc hm ht => exact .of_setThread (.created none rfl) u
  | resolveReplace a q t s hc hm hf he => exact .of_setThread (.created (some t) rfl) u
  | resolveRegister a q t needStart id s hc hm hid =>
    exact .of_setThread (.registered a q needStart id hc hm hid rfl rfl) u
  | cancelDone a x t tb r s hc hm htb => exact .of_setThread (.cancelled a x tb r hc hm htb) u
  | cancelMiss a x t tb s hc hm htb => exact .of_setThread (.cancelMiss a x tb hc hm htb) u
  | cancelWait a x t s hc hm => exact .of_setThread (.cancelWait a x hc hm) u
  | cleanUpLock a t s hc hm ht => exact .of_setThread (.toldToQuit a hc hm ht) u
  | cleanUpJoin a t s hc hj => exact .of_setThread (.cleanedUp a hc hj) u
  | noPrev t e s hpc hp =>
    refine .of_setThread ?_ u
    have hT : ThreadMove (.run t e) s (s.setThread t { s.threads t with pc := .initDNS }) t
      (s.threads t) { s.threads t with prevThread := none, pc := .initDNS } := .joinedPrev hpc
    rw [← hp] at hT
    exact hT
  | joinPrev t p e s hpc hp hj =>
    rw [threads_setThread]
    split
    · rename_i hu
      rw [hu]
      exact .joinedPrev hpc
    · exact .of_setThread (.joined t hpc hp hj) u
  | openSocket t e s hpc hm => exact .of_setThread (.openSocket hpc hm) u
  | openFailed t e s hpc hm => exact .of_setThread (.openFailed hpc hm) u
  | queueEmpty t e s hpc hq => exact .of_setThread (.queueEmpty hpc hq) u
  | popNop t e rest s hpc hq =>
    exact .of_setThread (.popQueue .nop rest _ hpc hq (if_neg nofun).symm) u
  | popStartSending t c e rest threads s hpc hq hc hw hu =>
    show ThreadMove _ s _ u _ (threads u)
    rw [hu u]
    by_cases hut : u = t
    · subst hut
      rw [if_pos rfl]
      refine .popQueue .startSending rest _ hpc hq ?_
      rw [hc]
      by_cases huc : u = c
      · rw [if_pos huc, if_pos ⟨rfl, congrArg some huc.symm⟩]
      · rw [if_neg huc, if_neg fun h => huc (Option.some.inj h.2).symm]
    · rw [if_neg hut]
      split
      · rename_i huc
        subst huc
        exact .startSending hc hw
      · exact .same
  | drainedOpen t e s hpc hm => exact .of_setThread (.drainedOpen hpc hm) u
  | own t e T es s hd hi hl => exact .of_setThread (.own e T es hd hi hl rfl rfl) u
  | _ => exact .same

/-! ## one call -/

/-- what one step of the system does to the API call of the thread `a` -/
inductive CallMove (s s' : Sys) (a : Actor) : Call → Call → Prop
  | same (c : Call) : CallMove s s' a c c
  | resolve (q : Query) : (a.isClient || (s.runsCallbackOf a).isSome) = true →
      s'.threads = s.threads → CallMove s s' a .idle (.resolveLock q)
  | cancel (x : ℕ) : a.isClient = true → CallMove s s' a .idle (.cancelLock x)
  | cleanUp : a.isClient = true → CallMove s s' a .idle .cleanUpLock
  | creates (c : Call) (q : Query) (prev : Option ℕ) :
      (c = .resolveLock q ∨ ∃ t, c = .resolveCheck q t) →
      s'.threads s.nextThread = { prevThread := prev } →
      CallMove s s' a c (.resolveRegister q s.nextThread true)
  | checks (q : Query) (t : ℕ) : s.thread = some t →
      CallMove s s' a (.resolveLock q) (.resolveCheck q t)
  | reuses (q : Query) (t : ℕ) : (s.threads t).tables.find q.hnr = none →
      (s.threads t).isExiting = false → s'.threads = s.threads →
      CallMove s s' a (.resolveCheck q t) (.resolveRegister q t false)
  | removes (x t : ℕ) : s.thread = some t →
      CallMove s s' a (.cancelLock x) (.cancelRemove x t)
  | waits (x t : ℕ) : (s'.threads t).mutex = some a →
      CallMove s s' a (.cancelRemove x t) (.cancelWait x t)
  | joins (t : ℕ) : s.thread = some t → CallMove s s' a .cleanUpLock (.cleanUpJoin t)
  | returns (c : Call) : c ≠ .idle → CallMove s s' a c .idle

/-- The step is a part of the call of `b`. -/
theorem CallMove.of_update {b : Actor} {c : Call} (hcalls : s'.calls = Function.update s.calls b c)
    (h : CallMove s s' b (s.calls b) c) (a : Actor) : CallMove s s' a (s.calls a) (s'.calls a) := by
  rw [hcalls]
  by_cases ha : a = b
  · rw [ha, Function.update_self]
    exact h
  · rw [Function.update_of_ne ha]
    exact .same _

/-- **Every step of the system is, for each thread that calls the API, one of these.** -/
theorem Move.call (h : Move act s s') (a : Actor) : CallMove s s' a (s.calls a) (s'.calls a) := by
  cases h with
  | callResolve b q s hi hc => exact .of_update (b := b) rfl (hi ▸ .resolve q hc rfl) a
  | callCancel b x s hi hc => exact .of_update (b := b) rfl (hi ▸ .cancel x hc) a
  | callCleanUp b s hi hc => exact .of_update (b := b) rfl (hi ▸ .cleanUp hc) a
  | resolveFirst b q s hc =>
    exact .of_update (b := b) rfl (.creates _ q none (.inl hc) (Function.update_self _ _ _)) a
  | resolveLock b q t s hc _ ht => exact .of_update (b := b) rfl (hc ▸ .checks q t ht) a
  | resolveReplace b q t s hc =>
    refine .of_update (b := b) rfl (.creates _ q (some t) (.inr ⟨t, hc⟩) ?_) a
    exact Function.update_self _ _ _
  | resolveReuse b q t s hc _ hf he => exact .of_update (b := b) rfl (hc ▸ .reuses q t hf he rfl) a
  | cancelLock b x t s hc _ ht => exact .of_update (b := b) rfl (hc ▸ .removes x t ht) a
  | cancelMiss b x t tb s hc =>
    refine .of_update (b := b) rfl (hc ▸ .waits x t ?_) a
    rw [threads_setThread, if_pos rfl]
  | cleanUpLock b t s hc _ ht => exact .of_update (b := b) rfl (hc ▸ .joins t ht) a
  | resolveBusy b _ _ s hc | tooManyRequests b _ _ _ s hc | resolveRegister b _ _ _ _ s hc
      | cancelNothing b _ s hc | cancelDone b _ _ _ _ s hc | cancelWait b _ _ s hc
      | cleanUpNothing b s hc | cleanUpJoin b _ s hc =>
    exact .of_update (b := b) rfl (.returns _ (by rw [hc]; exact nofun)) a
  | _ => exact .same _

/-- A receive step is one of the thread, and adds what it reports to the log. -/
theorem runStep_receive {t : ℕ} {e : Env} (hpc : (s.threads t).pc = .receive)
    (h : s.runStep t e = some s') :
    ∃ T es, (s.threads t).receiveStep e = some (T, es) ∧ s'.log = es ++ s.log := by
  unfold runStep at h
  rw [hpc] at h
  obtain ⟨⟨T, es⟩, hT, h⟩ := Option.bind_eq_some_iff.mp h
  unfold LookupThread.localStep at hT
  rw [hpc] at hT
  cases h
  exact ⟨T, es, hT, rfl⟩

end Sys
end Setka
