import Setka.Net.Connection

/-!
# What a TCP connection guarantees

The comment of `tcp_socket::recieve` says that a socket that was reported as ready for reading and
gives nothing was closed by the peer, and the tests expect a socket that is ready for writing to
take something.  Both rest on the flags: one that is set stays true until the call that clears it.

* `fresh_step`, `eof_step`, `hasSent_step`   what one step keeps;
* `stream_in_order`   what was received is the beginning of what was sent;
* `stream_end`        at the end of the stream, it is all of it;
* `ready_sends`       a socket that is ready takes something;
* `sendAll_arrives`   a buffer that is sent in a loop arrives as a whole;
* `calls_inside_iff`  the buffers that the system calls stay inside of.
-/

namespace Setka

/-! ## the flags -/

namespace Connection
variable {capacity : Side → ℕ} {s s' : Connection} {act : StreamAction}

/-- the flags of `e` -/
def FreshAt (s : Connection) (capacity : Side → ℕ) (e : Side) : Prop :=
  (s.ends e).Fresh (s.pipes e.peer).Readable ((s.pipes e).Writable (capacity e))

/-- **A flag that is set stays true** until the call that clears it. -/
theorem fresh_step (h : ∀ e, s.FreshAt capacity e) (hm : StreamMove capacity s act s') :
    ∀ e, s'.FreshAt capacity e := by
  unfold FreshAt at h ⊢
  cases hm with
  | sendBegin e buf beyond _ ho =>
    refine Side.all e ?_ ?_
    · simpa using (h e).beginSend ho
    · simpa using h e.peer
  | recieveBegin e size _ ho =>
    refine Side.all e ?_ ?_
    · simpa using (h e).beginRecieve ho
    · simpa using h e.peer
  | sendClosed e buf beyond =>
    refine Side.all e ?_ ?_
    · simpa using h e
    · simpa using h e.peer
  | recieveClosed e size hidle =>
    refine Side.all e ?_ ?_
    · simpa using Endpoint.fresh_idle (x := (s.ends e).clearRead) hidle nofun (h e).write
    · simpa using h e.peer
  | retry => exact h
  | sent e buf beyond ready n hp hc =>
    refine Side.all e ?_ ?_
    · simpa using (h e).leaveSend hc
    · simpa using (h e.peer).mono (by simpa using Pipe.Readable.push (h := hp)) id
  | sentNothing e | receivedNothing e | failed e =>
    refine Side.all e ?_ ?_
    · simpa using (h e).leave
    · simpa using h e.peer
  | received e size ready n hc =>
    refine Side.all e ?_ ?_
    · simpa using (h e).leaveRecieve hc
    · simpa using (h e.peer).mono id Pipe.Writable.pull
  | wait e f hidle _ hf =>
    refine Side.all e ?_ ?_
    · simpa using (h e).mark hidle hf.1 hf.2.1
    · simpa using h e.peer
  | close e hidle =>
    refine Side.all e ?_ ?_
    · simpa using Endpoint.fresh_close hidle
    · simpa using (h e.peer).mono (by simpa using Pipe.Readable.close) id
  | closeAgain e hidle =>
    refine Side.all e ?_ ?_
    · simpa using Endpoint.fresh_close hidle
    · simpa using h e.peer
  | carry e n hp =>
    refine Side.all e ?_ ?_
    · simpa using (h e).mono id (Pipe.Writable.carry (h := hp))
    · simpa using (h e.peer).mono (by simpa using Pipe.Readable.carry (h := hp)) id
  | finish e hp =>
    refine Side.all e ?_ ?_
    · simpa using (h e).mono id (Pipe.Writable.finish (h := hp))
    · simpa using (h e.peer).mono (fun _ => Pipe.readable_finish (h := hp)) id
  | reset e n =>
    refine Side.all e ?_ ?_
    · simpa using (h e).mono (fun _ => Pipe.readable_breakOff) fun _ => Pipe.writable_refuse
    · simpa using (h e.peer).mono (by simpa using Pipe.Readable.refuse) Pipe.Writable.breakOff

/-! ## the two sides learn of each other -/

/-- A direction is closed by a call of `close`. -/
theorem closed_step (h : ∀ e, (s.pipes e).closed = true → .closed e ∈ s.log)
    (hm : StreamMove capacity s act s') :
    ∀ e, (s'.pipes e).closed = true → .closed e ∈ s'.log := by
  cases hm with
  | sendBegin | recieveBegin | retry | wait | closeAgain => exact h
  | sendClosed | recieveClosed | sentNothing | receivedNothing | failed =>
    exact fun e hc => List.mem_cons_of_mem _ (h e hc)
  | sent e =>
    refine Side.all e ?_ ?_
    · simp
    · simpa using h e.peer
  | received e | reset e =>
    refine Side.all e ?_ ?_
    · simpa using h e
    · simpa using h e.peer
  | close e =>
    refine Side.all e ?_ ?_
    · simp
    · simpa using h e.peer
  | carry e =>
    refine Side.all e ?_ ?_
    · simpa using h e
    · simpa using h e.peer
  | finish e hp =>
    refine Side.all e ?_ ?_
    · simpa using fun _ => h e hp.1
    · simpa using h e.peer

/-- A broken connection was reported by an exception, or the kernel still keeps the error. -/
theorem told_step (h : ∀ e, (s.pipes e.peer).broken = true → s.pending e = false →
      .threw e .system ∈ s.log) (hm : StreamMove capacity s act s') :
    ∀ e, (s'.pipes e.peer).broken = true → s'.pending e = false → .threw e .system ∈ s'.log := by
  cases hm with
  | sendBegin | recieveBegin | retry | wait | closeAgain => exact h
  | sendClosed | recieveClosed | sentNothing | receivedNothing =>
    exact fun e hb hp => List.mem_cons_of_mem _ (h e hb hp)
  | failed e =>
    refine Side.all e ?_ ?_
    · simp
    · simpa using h e.peer
  | sent e | received e =>
    refine Side.all e ?_ ?_
    · simpa using h e
    · simpa using h e.peer
  | close e =>
    refine Side.all e ?_ ?_
    · simpa using h e
    · simpa using h e.peer
  | carry e =>
    refine Side.all e ?_ ?_
    · simpa using h e
    · simp
  | finish e =>
    refine Side.all e ?_ ?_
    · simpa using h e
    · simpa using h e.peer
  | reset e =>
    refine Side.all e ?_ ?_
    · simp
    · simpa using h e.peer

end Connection

/-! ## the bytes -/

/-- The system call of the call in progress stays inside of its buffer. -/
def Endpoint.StaysInside {τ : Type} (x : Endpoint τ) : Prop :=
  match x.call with
  | .idle => True
  | .sending buf _ _ _ => askedLength buf.length ≤ buf.length
  | .receiving size _ => askedLength size ≤ size

namespace Connection
variable {capacity : Side → ℕ} {s s' : Connection} {act : StreamAction}

theorem staysInside_step (h : ∀ e, (s.ends e).StaysInside) (hg : Fits s act)
    (hm : StreamMove capacity s act s') : ∀ e, (s'.ends e).StaysInside := by
  cases hm with
  | sendBegin e | recieveBegin e =>
    refine Side.all e ?_ ?_
    · rw [setEnd_ends]
      exact hg
    · simpa using h e.peer
  | sendClosed e | recieveClosed e | wait e | close e | closeAgain e =>
    refine Side.all e ?_ ?_
    · simp only [setEnd_ends, setPipe_ends]
      exact h e
    · simpa using h e.peer
  | sent e | sentNothing e | received e | receivedNothing e | failed e =>
    refine Side.all e ?_ ?_
    · simp [Endpoint.StaysInside, Endpoint.withCall]
    · simpa using h e.peer
  | retry | carry | finish | reset => exact h

/-- Only bytes of the buffers are sent, and `send` reports as many as the kernel has taken. -/
theorem written_step (h : ∀ e, (s.pipes e).written = sentBytes e s.log)
    (hin : ∀ e, (s.ends e).StaysInside) (hm : StreamMove capacity s act s') :
    ∀ e, (s'.pipes e).written = sentBytes e s'.log := by
  cases hm with
  | sendBegin | recieveBegin | retry | wait | closeAgain => exact h
  | sendClosed | recieveClosed | receivedNothing | failed => exact h
  | sentNothing e =>
    refine Side.all e ?_ ?_
    · simpa using h e
    · simpa using h e.peer
  | sent e buf beyond ready n hp hc ha =>
    refine Side.all e ?_ ?_
    · have hle : askedLength buf.length ≤ buf.length := by
        have hin := hin e
        unfold Endpoint.StaysInside at hin
        rwa [hc] at hin
      have hn : n ≤ buf.length := by
        rcases ha.2.2 with ⟨_, hn⟩ | ⟨_, hn, _⟩ <;> omega
      simp [h e, List.take_append_of_le_length hn]
    · simpa using h e.peer
  | received e | close e | carry e | finish e | reset e =>
    refine Side.all e ?_ ?_
    · simpa using h e
    · simpa using h e.peer

/-- `recieve` returns what was taken from the kernel. -/
theorem read_step (h : ∀ e, (s.pipes e.peer).read = receivedBytes e s.log)
    (hm : StreamMove capacity s act s') :
    ∀ e, (s'.pipes e.peer).read = receivedBytes e s'.log := by
  cases hm with
  | sendBegin | recieveBegin | retry | wait | closeAgain => exact h
  | sendClosed | recieveClosed | sentNothing | failed => exact h
  | receivedNothing e =>
    refine Side.all e ?_ ?_
    · simpa using h e
    · simpa using h e.peer
  | received e =>
    refine Side.all e ?_ ?_
    · simp [h e]
    · simpa using h e.peer
  | sent e | close e | carry e | finish e | reset e =>
    refine Side.all e ?_ ?_
    · simpa using h e
    · simpa using h e.peer

end Connection

/-! ## the calls -/

/-- No call moves more than it has asked for, and `send` takes something if the flag was set. -/
def StreamEvent.Sound : StreamEvent → Prop
  | .sent _ buf ready n =>
    n ≤ askedLength buf.length ∧ (ready = true → askedLength buf.length ≠ 0 → 0 < n)
  | .received _ size _ bytes => bytes.length ≤ askedLength size
  | .threw .. | .closed .. => True

namespace Connection
variable {capacity : Side → ℕ} {s s' : Connection} {act : StreamAction}

theorem sound_step (h : ∀ ev ∈ s.log, ev.Sound) (hfresh : ∀ e, s.FreshAt capacity e)
    (hm : StreamMove capacity s act s') : ∀ ev ∈ s'.log, ev.Sound := by
  cases hm with
  | sendBegin | recieveBegin | retry | wait | closeAgain | reset | carry | finish => exact h
  | sendClosed | recieveClosed | failed | close => exact List.forall_mem_cons.mpr ⟨trivial, h⟩
  | sent e buf beyond ready n hp hc ha =>
    refine List.forall_mem_cons.mpr ⟨?_, h⟩
    rcases ha.2.2 with ⟨h0, hn⟩ | ⟨hpos, hn, _⟩
    · exact ⟨by omega, fun _ hne => absurd h0 hne⟩
    · exact ⟨hn, fun _ _ => hpos⟩
  | sentNothing e buf beyond ready hc ha =>
    refine List.forall_mem_cons.mpr ⟨⟨Nat.zero_le _, fun hready _ => ?_⟩, h⟩
    -- the flag stands for space in the send buffer
    rcases ((hfresh e).sending hc).2.2 hready with hlt | hb
    · exact absurd hlt (Nat.not_lt.mpr ha.2.2)
    · exact absurd (hb.symm.trans ha.1) (by decide)
  | received e size ready n hc ha =>
    refine List.forall_mem_cons.mpr ⟨(List.length_take_le _ _).trans ?_, h⟩
    rcases ha with ⟨_, hn⟩ | ⟨_, hn, _⟩ | ⟨hn, _⟩ <;> omega
  | receivedNothing => exact List.forall_mem_cons.mpr ⟨Nat.zero_le _, h⟩

/-! ## the end of a stream -/

theorem finished_step (hm : StreamMove capacity s act s') :
    ∀ e, (s.pipes e).Finished → (s'.pipes e).Finished := by
  cases hm with
  | sendBegin | recieveBegin | retry | wait | closeAgain | sendClosed | recieveClosed
      | sentNothing | receivedNothing | failed => exact fun _ h => h
  | reset e' =>
    refine Side.all e' ?_ ?_
    · simpa using Pipe.Finished.refuse
    · simpa using Pipe.Finished.breakOff
  | sent e' _ _ _ _ hp =>
    refine Side.all e' ?_ ?_
    · exact fun h => (h.not_push hp).elim
    · simp
  | received e' _ _ n =>
    refine Side.all e' ?_ ?_
    · simp
    · simpa using Pipe.Finished.pull
  | close e' =>
    refine Side.all e' ?_ ?_
    · simpa using Pipe.Finished.close
    · simp
  | carry e' =>
    refine Side.all e' ?_ ?_
    · simpa using Pipe.Finished.carry
    · simp
  | finish e' =>
    refine Side.all e' ?_ ?_
    · simpa using Pipe.Finished.finish
    · simp

theorem log_suffix (hm : StreamMove capacity s act s') : s.log <:+ s'.log := by
  cases hm with
  | sendBegin | recieveBegin | retry | wait | closeAgain | reset | carry | finish =>
    exact List.suffix_rfl
  | _ => exact List.suffix_cons _ _

/-- With the flag set, `recieve` returns nothing only at the end of the stream. -/
theorem eof_step (h : ∀ e size, .received e size true [] ∈ s.log → askedLength size ≠ 0 →
      (s.pipes e.peer).Finished ∨ .threw e .system ∈ s.log)
    (hfresh : ∀ e, s.FreshAt capacity e)
    (htold : ∀ e, (s.pipes e.peer).broken = true → s.pending e = false →
      .threw e .system ∈ s.log) (hm : StreamMove capacity s act s') :
    ∀ e size, .received e size true [] ∈ s'.log → askedLength size ≠ 0 →
      (s'.pipes e.peer).Finished ∨ .threw e .system ∈ s'.log := by
  have hmem : s.log ⊆ s'.log := (log_suffix hm).subset
  have hold : ∀ e size, .received e size true [] ∈ s.log → askedLength size ≠ 0 →
      (s'.pipes e.peer).Finished ∨ .threw e .system ∈ s'.log :=
    fun e size hev hask => (h e size hev hask).imp (finished_step hm _) (hmem ·)
  cases hm with
  | sendBegin | recieveBegin | retry | wait | closeAgain | reset | carry | finish => exact hold
  | sendClosed | recieveClosed | failed | close | sent | sentNothing =>
    exact fun e size hev => hold e size ((List.mem_cons.mp hev).resolve_left nofun)
  | received e size ready n hc ha =>
    intro e' size' hev hask
    rcases List.mem_cons.mp hev with hev | hev
    · obtain ⟨rfl, rfl, rfl, hnil⟩ := StreamEvent.received.inj hev
      rcases ha with ⟨h0, _⟩ | ⟨hpos, _, hn⟩ | ⟨_, hnone, ha⟩
      · exact absurd h0 hask
      · have hlen := congrArg List.length hnil
        rw [List.length_take, List.length_nil] at hlen
        omega
      · split at ha
        · rename_i hb
          exact .inr (hmem (htold e' hb ha))
        · rename_i hb
          refine .inl ?_
          simpa using (Pipe.finished (Bool.not_eq_true _ ▸ hb) ha hnone).pull
    · exact hold e' size' hev hask
  | receivedNothing e size ready hc ha =>
    intro e' size' hev hask
    rcases List.mem_cons.mp hev with hev | hev
    · obtain ⟨rfl, rfl, rfl, _⟩ := StreamEvent.received.inj hev
      -- the flag stands for something to read
      rcases ((hfresh e').receiving hc).2.2 rfl with hne | he | hb
      · exact absurd ha.2.1 hne
      · exact absurd (he.symm.trans ha.2.2.1) (by decide)
      · exact absurd (hb.symm.trans ha.2.2.2) (by decide)
    · exact hold e' size' hev hask

/-- what holds in every run -/
structure Holds (s : Connection) (capacity : Side → ℕ) : Prop where
  fresh : ∀ e, s.FreshAt capacity e
  closed : ∀ e, (s.pipes e).closed = true → .closed e ∈ s.log
  told : ∀ e, (s.pipes e.peer).broken = true → s.pending e = false → .threw e .system ∈ s.log
  read : ∀ e, (s.pipes e.peer).read = receivedBytes e s.log
  sound : ∀ ev ∈ s.log, ev.Sound
  eof : ∀ e size, .received e size true [] ∈ s.log → askedLength size ≠ 0 →
    (s.pipes e.peer).Finished ∨ .threw e .system ∈ s.log

theorem Established.holds (h : s.Established) : s.Holds capacity where
  fresh e := Endpoint.fresh_idle (h.idle e) (fun hf => by simp [h.flags e] at hf)
    fun hf => by simp [h.flags e] at hf
  closed e hc := by simp [h.pipes e] at hc
  told e hb := by simp [h.pipes] at hb
  read e := by simp [h.pipes, h.log, receivedBytes]
  sound := by simp [h.log]
  eof := by simp [h.log]

theorem Holds.step (h : s.Holds capacity) (hm : StreamMove capacity s act s') :
    s'.Holds capacity where
  fresh := fresh_step h.fresh hm
  closed := closed_step h.closed hm
  told := told_step h.told hm
  read := read_step h.read hm
  sound := sound_step h.sound h.fresh hm
  eof := eof_step h.eof h.fresh h.told hm

theorem holds {G : Connection → StreamAction → Prop} (hr : (stream capacity).Reach G s) :
    s.Holds capacity := by
  refine hr.invariant (I := fun s => s.Holds capacity) (fun s hs => ?_) ?_
  · exact Established.holds hs
  · intro s act s' _ h _ hs
    exact h.step (streamMove hs)

/-- If the system calls stay inside of the buffers, the kernel has what `send` reported. -/
theorem written (hr : (stream capacity).Reach Fits s) :
    ∀ e, (s.pipes e).written = sentBytes e s.log := by
  have hI := hr.invariant (I := fun s => (∀ e, (s.ends e).StaysInside) ∧
    ∀ e, (s.pipes e).written = sentBytes e s.log) (fun s hs => ⟨fun e => ?_, fun e => ?_⟩) ?_
  · exact hI.2
  · have hc : (s.ends e).call = .idle := Established.idle hs e
    unfold Endpoint.StaysInside
    rw [hc]
    trivial
  · rw [Established.pipes hs, Established.log hs]
    rfl
  · rintro s act s' _ ⟨hin, hw⟩ hg hs
    exact ⟨staysInside_step hin hg (streamMove hs), written_step hw hin (streamMove hs)⟩

theorem received_beginning (hr : (stream capacity).Reach Fits s) (e : Side) :
    receivedBytes e s.log <+: sentBytes e.peer s.log := by
  rw [← (holds hr).read e, ← written hr e.peer]
  exact (s.pipes e.peer).read_beginning

theorem at_end (hr : (stream capacity).Reach Fits s) {e : Side} {size : ℕ}
    (hev : .received e size true [] ∈ s.log) (hask : askedLength size ≠ 0)
    (hthrew : .threw e .system ∉ s.log) :
    .closed e.peer ∈ s.log ∧ receivedBytes e s.log = sentBytes e.peer s.log := by
  have h := holds hr
  have hf := (h.eof e size hev hask).resolve_right hthrew
  refine ⟨h.closed e.peer ((s.pipes e.peer).last hf.ended).1, ?_⟩
  rw [← h.read e, ← written hr e.peer]
  exact hf.read

end Connection

/-! ## a buffer is sent as a whole -/

/-- The side `e` sends `data` in a loop: each call of `send` is given what the calls before have
left, and the socket is closed when nothing is left. -/
def SendsAll (data : List UInt8) (e : Side) (s : Connection) : StreamAction → Prop
  | .send e' buf _ => e' = e → buf = data.drop (sentBytes e s.log).length
  | .close e' => e' = e → (sentBytes e s.log).length = data.length
  | _ => True

instance (data : List UInt8) (e : Side) (s : Connection) (act : StreamAction) :
    Decidable (SendsAll data e s act) := by
  apply @StreamAction.casesOn _ act <;> intros <;> dsimp only [SendsAll] <;> infer_instance

namespace Connection
variable {capacity : Side → ℕ} {s s' : Connection} {act : StreamAction} {data : List UInt8}
  {e : Side}

/-- How far the side `e` has come. -/
structure HasSent (s : Connection) (data : List UInt8) (e : Side) : Prop where
  sent : sentBytes e s.log <+: data
  rest : ∀ {buf beyond dest ready}, (s.ends e).call = .sending buf beyond dest ready →
    buf = data.drop (sentBytes e s.log).length
  closed : .closed e ∈ s.log → sentBytes e s.log = data

/-- a step that is no return of `send` -/
theorem HasSent.keep (h : s.HasSent data e) (hsent : sentBytes e s'.log = sentBytes e s.log)
    (hrest : ∀ {buf beyond dest ready}, (s'.ends e).call = .sending buf beyond dest ready →
      buf = data.drop (sentBytes e s.log).length)
    (hclosed : .closed e ∈ s'.log → sentBytes e s.log = data) : s'.HasSent data e where
  sent := hsent ▸ h.sent
  rest hc := hsent ▸ hrest hc
  closed hev := hsent ▸ hclosed hev

theorem HasSent.returned {buf beyond : List UInt8} {ready : Bool} {n : ℕ}
    (h : s.HasSent data e) (hc : (s.ends e).call = .sending buf beyond () ready)
    (hlog : s'.log = .sent e buf ready n :: s.log) (hidle : (s'.ends e).call = .idle) :
    s'.HasSent data e := by
  have hbytes : sentBytes e s'.log = data.take ((sentBytes e s.log).length + n) := by
    rw [hlog, sentBytes_sent, h.rest hc, List.take_add]
    exact congrArg (· ++ _) (List.prefix_iff_eq_take.mp h.sent)
  refine ⟨hbytes ▸ List.take_prefix _ _, fun hc => (nomatch hidle.symm.trans hc), fun hev => ?_⟩
  rw [hlog] at hev
  rw [hbytes, h.closed ((List.mem_cons.mp hev).resolve_left nofun)]
  exact List.take_of_length_le (Nat.le_add_right _ _)

theorem hasSent_step (h : s.HasSent data e) (hg : SendsAll data e s act)
    (hm : StreamMove capacity s act s') : s'.HasSent data e := by
  have hold : ∀ {ev : StreamEvent}, ev ≠ .closed e → .closed e ∈ ev :: s.log →
      sentBytes e s.log = data := fun hne hev =>
    h.closed ((List.mem_cons.mp hev).resolve_left hne.symm)
  cases hm with
  | retry => exact h
  | sendBegin e' buf beyond =>
    rcases e'.eq_or_peer e with rfl | rfl
    · refine h.keep rfl (fun hc => ?_) h.closed
      rw [setEnd_ends] at hc
      obtain ⟨rfl, -, -, -⟩ := SocketCall.sending.inj hc
      exact hg rfl
    · exact h.keep rfl (fun hc => h.rest (by simpa using hc)) h.closed
  | recieveBegin e' =>
    rcases e'.eq_or_peer e with rfl | rfl
    · refine h.keep rfl (fun hc => ?_) h.closed
      rw [setEnd_ends] at hc
      cases hc
    · exact h.keep rfl (fun hc => h.rest (by simpa using hc)) h.closed
  | sendClosed e' | recieveClosed e' =>
    refine h.keep rfl (fun hc => ?_) (hold (by simp))
    rcases e'.eq_or_peer e with rfl | rfl
    · exact h.rest (by simpa [Endpoint.clearRead] using hc)
    · exact h.rest (by simpa using hc)
  | sent e' buf beyond ready n hp hcall =>
    rcases e'.eq_or_peer e with rfl | rfl
    · exact h.returned hcall rfl (by simp [Endpoint.withCall])
    · exact h.keep (by simp) (fun hc => h.rest (by simpa using hc)) (hold (by simp))
  | sentNothing e' buf beyond ready hcall =>
    rcases e'.eq_or_peer e with rfl | rfl
    · exact h.returned hcall rfl (by simp [Endpoint.withCall])
    · exact h.keep (by simp) (fun hc => h.rest (by simpa using hc)) (hold (by simp))
  | received e' | receivedNothing e' | failed e' =>
    refine h.keep rfl (fun hc => ?_) (hold (by simp))
    rcases e'.eq_or_peer e with rfl | rfl
    · simp [Endpoint.withCall] at hc
    · exact h.rest (by simpa using hc)
  | wait e' | closeAgain e' =>
    refine h.keep rfl (fun hc => ?_) h.closed
    rcases e'.eq_or_peer e with rfl | rfl
    · exact h.rest (by simpa [Endpoint.mark, Endpoint.close] using hc)
    · exact h.rest (by simpa using hc)
  | close e' =>
    rcases e'.eq_or_peer e with rfl | rfl
    · refine h.keep rfl (fun hc => h.rest (by simpa [Endpoint.close] using hc)) fun _ => ?_
      exact h.sent.eq_of_length (hg rfl)
    · exact h.keep rfl (fun hc => h.rest (by simpa using hc)) (hold (by simp))
  | carry | finish | reset => exact h.keep rfl h.rest h.closed

theorem Established.hasSent (h : s.Established) (data : List UInt8) (e : Side) :
    s.HasSent data e where
  sent := by simp [h.log, sentBytes]
  rest hc := nomatch (h.idle e).symm.trans hc
  closed hev := by simp [h.log] at hev

theorem hasSent (hr : (stream capacity).Reach (SendsAll data e) s) : s.HasSent data e := by
  refine hr.invariant (I := fun s => s.HasSent data e) (fun s hs => ?_) ?_
  · exact Established.hasSent hs data e
  · intro s act s' _ h hg hs
    exact hasSent_step h hg (streamMove hs)

end Connection

/-! ## buffers that do not fit -/

namespace Connection
variable {capacity : Side → ℕ} {s : Connection} {e : Side}

/-- two sockets that were just connected -/
def connected : Connection := { ends := fun _ => { sock := 0 } }

theorem connected_established : connected.Established :=
  ⟨fun _ => rfl, fun _ => rfl, fun _ => rfl, fun _ => rfl, fun _ => rfl, rfl⟩

end Connection

/-! ## all runs -/

/-- Three bytes are sent in two calls and received in two, and the sender closes. -/
def sentInPieces : List StreamAction :=
  [.wait .near ⟨false, true, false⟩, .send .near [1, 2, 3] [9], .answer .near .interrupted,
    .answer .near (.done 2), .carry .near 1, .wait .far ⟨true, false, false⟩, .recieve .far 10,
    .answer .far (.done 1), .carry .near 1, .send .near [3] [], .answer .near (.done 1),
    .close .near, .carry .near 5, .finish .near, .recieve .far 10, .answer .far (.done 2),
    .wait .far ⟨true, false, false⟩, .recieve .far 10, .answer .far (.done 0)]

/-- A run that ends with the end of the stream. -/
theorem reach_sentInPieces : ∃ s,
    (stream fun _ => 2).Reach (fun s act => Fits s act ∧ SendsAll [1, 2, 3] .near s act) s ∧
      .received .far 10 true [] ∈ s.log ∧ .threw .far .system ∉ s.log ∧
      .sent .near [1, 2, 3] true 2 ∈ s.log ∧ receivedBytes .far s.log = [1, 2, 3] := by
  obtain ⟨s, hr, hp⟩ := Machine.exists_reach
    (fun s act => Fits s act ∧ SendsAll [1, 2, 3] .near s act) sentInPieces
    (fun s => .received .far 10 true [] ∈ s.log ∧ .threw .far .system ∉ s.log ∧
      .sent .near [1, 2, 3] true 2 ∈ s.log ∧ receivedBytes .far s.log = [1, 2, 3])
    (M := stream fun _ => 2) Connection.connected_established (by decide)
  exact ⟨s, hr, of_decide_eq_true hp⟩

section
variable {capacity : Side → ℕ} {s : Connection}

/-- **A stream is in order:** in every run, what `recieve` has returned is the beginning of what
`send` has reported as sent. -/
theorem stream_in_order (hr : (stream capacity).Reach Fits s) (e : Side) :
    receivedBytes e s.log <+: sentBytes e.peer s.log :=
  Connection.received_beginning hr e

theorem stream_in_order_pieces : ∃ s : Connection, receivedBytes .far s.log = [1, 2, 3] ∧
    receivedBytes .far s.log <+: sentBytes .near s.log := by
  obtain ⟨s, hr, _, _, _, hbytes⟩ := reach_sentInPieces
  exact ⟨s, hbytes, stream_in_order (hr.mono fun _ _ hg => hg.1) .far⟩

/-- **The end of a stream:** if a call of `recieve` with the flag set returned nothing, and no call
of this side failed, then the peer has closed and everything was received. -/
theorem stream_end (hr : (stream capacity).Reach Fits s) {e : Side} {size : ℕ}
    (hev : .received e size true [] ∈ s.log) (hask : askedLength size ≠ 0)
    (hthrew : .threw e .system ∉ s.log) :
    .closed e.peer ∈ s.log ∧ receivedBytes e s.log = sentBytes e.peer s.log :=
  Connection.at_end hr hev hask hthrew

theorem stream_end_pieces : ∃ s : Connection, receivedBytes .far s.log = [1, 2, 3] ∧
    .closed .near ∈ s.log ∧ receivedBytes .far s.log = sentBytes .near s.log := by
  obtain ⟨s, hr, hev, hthrew, _, hbytes⟩ := reach_sentInPieces
  exact ⟨s, hbytes, stream_end (hr.mono fun _ _ hg => hg.1) hev (by decide) hthrew⟩

/-- **A socket that is ready takes something:** the flags that are set are true of the connection in
every state, and so a call of `send` with the flag set does not return zero. -/
theorem ready_sends {G : Connection → StreamAction → Prop} (hr : (stream capacity).Reach G s) :
    (∀ e, ((s.ends e).flags.read = true → (s.pipes e.peer).Readable) ∧
      ((s.ends e).flags.write = true → (s.pipes e).Writable (capacity e))) ∧
    ∀ e buf n, .sent e buf true n ∈ s.log → askedLength buf.length ≠ 0 → 0 < n := by
  have h := Connection.holds hr
  exact ⟨fun e => ⟨(h.fresh e).read, (h.fresh e).write⟩,
    fun e buf n hev hask => (h.sound _ hev).2 rfl hask⟩

theorem ready_sends_pieces : ∃ s : Connection, .sent .near [1, 2, 3] true 2 ∈ s.log ∧ 0 < 2 := by
  obtain ⟨s, hr, _, _, hev, _⟩ := reach_sentInPieces
  exact ⟨s, hev, (ready_sends hr).2 .near [1, 2, 3] 2 hev (by decide)⟩

/-- **What is sent in a loop arrives as a whole:** the other side never receives anything else, and
has received all of it when it learns of the end. -/
theorem sendAll_arrives {data : List UInt8} {e : Side}
    (hr : (stream capacity).Reach (fun s act => Fits s act ∧ SendsAll data e.peer s act) s) :
    receivedBytes e s.log <+: data ∧ ∀ size, .received e size true [] ∈ s.log →
      askedLength size ≠ 0 → .threw e .system ∉ s.log → receivedBytes e s.log = data := by
  have hfits := hr.mono (H := Fits) fun _ _ hg => hg.1
  have hs := Connection.hasSent (hr.mono (H := SendsAll data e.peer) fun _ _ hg => hg.2)
  refine ⟨(Connection.received_beginning hfits e).trans hs.sent, fun size hev hask hthrew => ?_⟩
  obtain ⟨hclosed, hall⟩ := Connection.at_end hfits hev hask hthrew
  rw [hall, hs.closed hclosed]

theorem sendAll_arrives_pieces : ∃ s : Connection, .received .far 10 true [] ∈ s.log ∧
    receivedBytes .far s.log = [1, 2, 3] := by
  obtain ⟨s, hr, hev, hthrew, _⟩ := reach_sentInPieces
  exact ⟨s, hev, (sendAll_arrives (e := .far) hr).2 10 hev (by decide) hthrew⟩

end

end Setka
