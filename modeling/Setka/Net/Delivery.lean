import Setka.Net.Datagrams

/-!
# What datagrams guarantee

* `sent_whole`, `take_asked`   a datagram is sent as a whole, and cut to the size of the buffer;
* `fresh_step`, `origin_step`, `delivered_step`   what one step keeps;
* `datagram_delivered`         what is received was sent, to this socket, by the reported sender;
* `ready_recieves`             a socket that is ready has a datagram or an error;
* `udp_asserts`                the assertions of both functions.
-/

namespace Setka

/-! ## the lengths -/

/-- The buffers are shorter than `limit`. -/
def SizesBelow (limit : ℕ) (_ : Network) : DatagramAction → Prop
  | .send _ buf _ _ => buf.length < limit
  | .recieve _ size => size < limit
  | _ => True

instance (limit : ℕ) (s : Network) (act : DatagramAction) : Decidable (SizesBelow limit s act) := by
  apply @DatagramAction.casesOn _ act <;> intros <;> dsimp only [SizesBelow] <;> infer_instance

/-- so is that of the call in progress -/
def Endpoint.CallBelow (limit : ℕ) (x : Endpoint Address) : Prop :=
  match x.call with
  | .idle => True
  | .sending buf _ _ _ => buf.length < limit
  | .receiving size _ => size < limit

namespace Endpoint.CallBelow
variable {limit : ℕ} {x : Endpoint Address}

theorem length_lt {buf beyond : List UInt8} {dest : Address} {ready : Bool}
    (h : x.CallBelow limit) (hc : x.call = .sending buf beyond dest ready) :
    buf.length < limit := by
  unfold CallBelow at h
  rwa [hc] at h

theorem size_lt {size : ℕ} {ready : Bool} (h : x.CallBelow limit)
    (hc : x.call = .receiving size ready) : size < limit := by
  unfold CallBelow at h
  rwa [hc] at h

end Endpoint.CallBelow

/-- A datagram that the system has taken is the whole buffer. -/
theorem sent_whole {size : ℕ} (hsize : size < 2 ^ 32) (h : askedLength size ≤ 65527) :
    askedLength size = size := by
  rw [askedLength_eq] at h ⊢
  split_ifs at h ⊢ <;> omega

/-- What is received is the datagram, cut to the size of the buffer. -/
theorem take_asked {size : ℕ} (hsize : size < 2 ^ 32) {payload : List UInt8}
    (h : payload.length ≤ 65527) :
    payload.take (min (askedLength size) payload.length) = payload.take size := by
  rw [List.take_eq_take_iff, min_assoc, min_self, askedLength_eq]
  split_ifs <;> omega

theorem intSize_eq {size : ℕ} (h : size < 2 ^ 31) : intSize size = size := by
  have hn : (BitVec.ofNat 32 size).toNat = size := by
    rw [BitVec.toNat_ofNat]
    exact Nat.mod_eq_of_lt (by omega)
  unfold intSize
  rw [BitVec.toInt_eq_toNat_of_lt (by omega), hn]

theorem sendAsserts_nil {size len : ℕ} (hsize : size < 2 ^ 31) (hlen : len = size ∨ len = 0) :
    sendAsserts size len = [] := by
  refine if_pos ?_
  rw [intSize_eq hsize]
  omega

theorem recieveAsserts_nil {size len : ℕ} (hsize : size < 2 ^ 31) (hlen : len ≤ size) :
    recieveAsserts size len = [] := by
  refine if_pos ?_
  rw [intSize_eq hsize]
  omega

/-! ## what one step keeps -/

namespace Network
variable {place : ℕ → Place} {s s' : Network} {act : DatagramAction} {limit : ℕ}

/-- the flags of the sockets; an error that is reported by one call may be what a flag stood for -/
def Fresh (s : Network) : Prop := ∀ x, (s.sockets x).Fresh (s.Readable x ∨ .threw x .system ∈ s.log)
  True

theorem log_suffix (hm : DatagramMove place s act s') : s.log <:+ s'.log := by
  cases hm with
  | sendBegin | recieveBegin | retry | wait | close | deliver | fault => exact List.suffix_rfl
  | sendClosed | recieveClosed => exact List.suffix_cons _ _
  | sent | sentNothing | received | receivedNothing | failed => exact List.suffix_append _ _

/-- A socket whose object and inbox are not changed, and that reports no less. -/
theorem fresh_keep {x : ℕ} (h : s.Fresh) (hlog : s.log ⊆ s'.log)
    (hsocket : s'.sockets x = s.sockets x) (hready : s.Readable x → s'.Readable x) :
    (s'.sockets x).Fresh (s'.Readable x ∨ .threw x .system ∈ s'.log) True := by
  rw [hsocket]
  exact (h x).mono (Or.imp hready (hlog ·)) id

/-- **A flag that is set stays true** until the call that clears it, or until a call fails. -/
theorem fresh_step (h : s.Fresh) (hm : DatagramMove place s act s') : s'.Fresh := by
  have hlog : s.log ⊆ s'.log := (log_suffix hm).subset
  cases hm with
  | sendBegin x buf beyond dest _ ho =>
    intro y
    rcases eq_or_ne y x with rfl | hne
    · rw [setSocket_sockets]
      exact (h y).beginSend ho
    · exact fresh_keep h hlog (setSocket_sockets_ne hne) id
  | recieveBegin x size _ ho =>
    intro y
    rcases eq_or_ne y x with rfl | hne
    · rw [setSocket_sockets]
      exact (h y).beginRecieve ho
    · exact fresh_keep h hlog (setSocket_sockets_ne hne) id
  | sendClosed | recieveClosed => exact fun y => fresh_keep h hlog rfl id
  | retry => exact h
  | sent x | sentNothing x | receivedNothing x =>
    intro y
    rcases eq_or_ne y x with rfl | hne
    · rw [leave_sockets]
      exact ((h y).mono (Or.imp_right (hlog ·)) id).leave
    · exact fresh_keep h hlog (leave_sockets_ne hne) id
  | received x size ready n source p rest hc =>
    intro y
    rcases eq_or_ne y x with rfl | hne
    · rw [leave_sockets]
      exact (h y).leaveRecieve hc
    · refine fresh_keep h hlog (leave_sockets_ne hne) (Or.imp_left fun hin => ?_)
      exact (Function.update_of_ne hne rest s.inbox).trans_ne hin
  | failed x =>
    intro y
    rcases eq_or_ne y x with rfl | hne
    · rw [leave_sockets]
      exact ((h y).mono (fun _ => .inr (List.mem_cons_self ..)) id).leave
    · refine fresh_keep h hlog (leave_sockets_ne hne) (Or.imp_right fun hp => ?_)
      exact (Function.update_of_ne hne false s.pending).trans hp
  | wait x f hidle hf =>
    intro y
    rcases eq_or_ne y x with rfl | hne
    · rw [setSocket_sockets]
      exact (h y).mark hidle (fun hr => .inl (hf hr)) fun _ => trivial
    · exact fresh_keep h hlog (setSocket_sockets_ne hne) id
  | close x hidle =>
    intro y
    rcases eq_or_ne y x with rfl | hne
    · show ((s.setSocket y _).sockets y).Fresh _ _
      rw [setSocket_sockets]
      exact Endpoint.fresh_close hidle
    · refine fresh_keep h hlog (setSocket_sockets_ne hne) (Or.imp (fun hin => ?_) fun hp => ?_)
      · exact (Function.update_of_ne hne [] s.inbox).trans_ne hin
      · exact (Function.update_of_ne hne false s.pending).trans hp
  | deliver x p =>
    intro y
    refine fresh_keep h hlog rfl (Or.imp_left fun hin => ?_)
    rcases eq_or_ne y x with rfl | hne
    · exact (Function.update_self ..).trans_ne (List.append_ne_nil_of_left_ne_nil hin _)
    · exact (Function.update_of_ne hne _ s.inbox).trans_ne hin
  | fault x =>
    intro y
    refine fresh_keep h hlog rfl (Or.imp_right fun hp => ?_)
    rcases eq_or_ne y x with rfl | hne
    · exact Function.update_self ..
    · exact (Function.update_of_ne hne true s.pending).trans hp

theorem callBelow_step (h : ∀ x, (s.sockets x).CallBelow limit) (hg : SizesBelow limit s act)
    (hm : DatagramMove place s act s') : ∀ x, (s'.sockets x).CallBelow limit := by
  cases hm with
  | sendBegin x | recieveBegin x =>
    intro y
    rcases eq_or_ne y x with rfl | hne
    · rw [setSocket_sockets]
      exact hg
    · rw [setSocket_sockets_ne hne]
      exact h y
  | sendClosed | recieveClosed | retry | deliver | fault => exact h
  | sent x | sentNothing x | receivedNothing x | received x | failed x =>
    intro y
    rcases eq_or_ne y x with rfl | hne
    · rw [leave_sockets]
      trivial
    · rw [leave_sockets_ne hne]
      exact h y
  | wait x | close x =>
    intro y
    rcases eq_or_ne y x with rfl | hne
    · show Endpoint.CallBelow limit ((s.setSocket y _).sockets y)
      rw [setSocket_sockets]
      exact h y
    · show Endpoint.CallBelow limit ((s.setSocket x _).sockets y)
      rw [setSocket_sockets_ne hne]
      exact h y

end Network

/-! ## where datagrams come from -/

theorem mem_sendAsserts {ev : DatagramEvent} {size len : ℕ} (h : ev ∈ sendAsserts size len) :
    ev = .assertFailed := by
  unfold sendAsserts at h
  split at h
  · cases h
  · exact List.mem_singleton.mp h

theorem mem_recieveAsserts {ev : DatagramEvent} {size len : ℕ} (h : ev ∈ recieveAsserts size len) :
    ev = .assertFailed := by
  unfold recieveAsserts at h
  split at h
  · cases h
  · exact List.mem_singleton.mp h

/-- The packet is a whole buffer that `send` reported as sent, to the address it was given, from an
address of its socket. -/
structure Packet.Sent (place : ℕ → Place) (log : List DatagramEvent) (p : Packet) : Prop where
  origin : ∃ y dest, .sent y p.payload dest p.payload.length ∈ log ∧ p.dest = dest.wire ∧
    (place y).owns p.source = true
  short : p.payload.length ≤ 65527

theorem Packet.Sent.mono {place : ℕ → Place} {log log' : List DatagramEvent} {p : Packet}
    (h : p.Sent place log) (hlog : log ⊆ log') : p.Sent place log' := by
  obtain ⟨y, dest, hev, hdest, hown⟩ := h.origin
  exact ⟨⟨y, dest, hlog hev, hdest, hown⟩, h.short⟩

/-- The network has the packet, it is for `x`, and a socket for IPv4 gets it from IPv4 only. -/
structure Network.Holds (s : Network) (place : ℕ → Place) (x : ℕ) (p : Packet) : Prop where
  mem : p ∈ s.packets
  dest : (place x).owns p.dest = true
  source : (place x).ipv4 = true → p.source.IsMapped

/-- What `recieve` returned is a datagram that was sent to `x`, cut to the size of the buffer, and
its sender. -/
def Delivered (place : ℕ → Place) (log : List DatagramEvent) (x size : ℕ) (bytes : List UInt8)
    (sender : Address) : Prop :=
  ∃ y buf dest, .sent y buf dest buf.length ∈ log ∧ (place x).owns dest.wire = true ∧
    (place y).owns sender.wire = true ∧ bytes = buf.take size

namespace Network
variable {place : ℕ → Place} {s s' : Network} {act : DatagramAction} {limit : ℕ}

theorem origin_step (h : ∀ p ∈ s.packets, p.Sent place s.log)
    (hcall : ∀ x, (s.sockets x).CallBelow (2 ^ 32)) (hm : DatagramMove place s act s') :
    ∀ p ∈ s'.packets, p.Sent place s'.log := by
  have hlog : s.log ⊆ s'.log := (log_suffix hm).subset
  have hold : ∀ p ∈ s.packets, p.Sent place s'.log := fun p hp => (h p hp).mono hlog
  cases hm with
  | sent x buf beyond dest ready n source hc ha hown =>
    obtain ⟨rfl, _, hshort, _⟩ := ha
    have hn := sent_whole ((hcall x).length_lt hc) hshort
    have hpayload : (buf ++ beyond).take (askedLength buf.length) = buf := by
      rw [hn, List.take_left]
    refine List.forall_mem_cons.mpr ⟨⟨⟨x, dest, ?_, wireOf_sendTarget .., hown⟩, ?_⟩, hold⟩
    · rw [hpayload, hn]
      exact List.mem_cons_self ..
    · rw [hpayload, ← hn]
      exact hshort
  | _ => exact hold

theorem holds_step (h : ∀ x, ∀ p ∈ s.inbox x, s.Holds place x p)
    (hm : DatagramMove place s act s') : ∀ x, ∀ p ∈ s'.inbox x, s'.Holds place x p := by
  cases hm with
  | sent x =>
    exact fun y p hp => ⟨List.mem_cons_of_mem _ (h y p hp).mem, (h y p hp).dest, (h y p hp).source⟩
  | received x size ready n source p rest hc hin =>
    intro y q hq
    rcases eq_or_ne y x with rfl | hne
    · have hq : q ∈ rest := by simpa [leave, setSocket] using hq
      have hold := h y q (hin ▸ List.mem_cons_of_mem p hq)
      exact ⟨hold.mem, hold.dest, hold.source⟩
    · have hq : q ∈ s.inbox y := by simpa [leave, setSocket, Function.update_of_ne hne] using hq
      exact ⟨(h y q hq).mem, (h y q hq).dest, (h y q hq).source⟩
  | close x =>
    intro y q hq
    rcases eq_or_ne y x with rfl | hne
    · simp [closeSocket] at hq
    · have hq : q ∈ s.inbox y := by simpa [closeSocket, Function.update_of_ne hne] using hq
      exact ⟨(h y q hq).mem, (h y q hq).dest, (h y q hq).source⟩
  | deliver x p hp hown hmap =>
    intro y q hq
    rcases eq_or_ne y x with rfl | hne
    · have hq : q ∈ s.inbox y ∨ q = p := by simpa using hq
      rcases hq with hq | rfl
      · exact ⟨(h y q hq).mem, (h y q hq).dest, (h y q hq).source⟩
      · exact ⟨hp, hown, hmap⟩
    · have hq : q ∈ s.inbox y := by simpa [Function.update_of_ne hne] using hq
      exact ⟨(h y q hq).mem, (h y q hq).dest, (h y q hq).source⟩
  | _ => exact fun y p hp => ⟨(h y p hp).mem, (h y p hp).dest, (h y p hp).source⟩

/-- what `recieve` returns when it takes the packet `p` -/
theorem delivered_of_holds {x size : ℕ} {p : Packet} (hsize : size < 2 ^ 32)
    (hp : s.Holds place x p) (hsent : ∀ p ∈ s.packets, p.Sent place s.log) :
    Delivered place s.log x size (p.payload.take (min (askedLength size) p.payload.length))
      (sender place x p) := by
  obtain ⟨⟨y, dest, hev, hdest, hown⟩, hshort⟩ := hsent p hp.mem
  refine ⟨y, p.payload, dest, hev, hdest ▸ hp.dest, ?_, take_asked hsize hshort⟩
  unfold sender
  rw [wire_recieveAddress _ _ hp.source]
  exact hown

/-- The event that a step logs, by the state before it. -/
inductive Logged (place : ℕ → Place) (s : Network) : DatagramEvent → Prop
  | threw (x : ℕ) (err : TransferError) : Logged place s (.threw x err)
  | assertFailed : Logged place s .assertFailed
  | sent (x : ℕ) (buf beyond : List UInt8) (dest : Address) (ready : Bool) (n : ℕ) :
      (s.sockets x).call = .sending buf beyond dest ready → n = askedLength buf.length →
      askedLength buf.length ≤ 65527 → Logged place s (.sent x buf dest n)
  | sentNothing (x : ℕ) (buf : List UInt8) (dest : Address) : Logged place s (.sent x buf dest 0)
  | received (x size : ℕ) (ready : Bool) (p : Packet) :
      (s.sockets x).call = .receiving size ready → p ∈ s.inbox x →
      Logged place s (.received x size
        (p.payload.take (min (askedLength size) p.payload.length)) (sender place x p))
  | nothing (x size : ℕ) (ready : Bool) : (s.sockets x).call = .receiving size ready →
      ¬ s.Readable x → Logged place s (.nothing x ready)

theorem logged (hm : DatagramMove place s act s') {ev : DatagramEvent} (hev : ev ∈ s'.log) :
    ev ∈ s.log ∨ Logged place s ev := by
  cases hm with
  | sendBegin | recieveBegin | retry | wait | close | deliver | fault => exact .inl hev
  | sendClosed x | recieveClosed x | failed x =>
    rcases List.mem_cons.mp hev with rfl | hev
    · exact .inr (.threw x _)
    · exact .inl hev
  | sent x buf beyond dest ready n source hc ha =>
    rcases List.mem_append.mp hev with hev | hev
    · rcases List.mem_cons.mp hev with rfl | hev
      · exact .inr (.sent x buf beyond dest ready n hc ha.1 ha.2.2.1)
      · exact .inr (mem_sendAsserts hev ▸ .assertFailed)
    · exact .inl hev
  | sentNothing x buf beyond dest =>
    rcases List.mem_append.mp hev with hev | hev
    · rcases List.mem_cons.mp hev with rfl | hev
      · exact .inr (.sentNothing x buf dest)
      · exact .inr (mem_sendAsserts hev ▸ .assertFailed)
    · exact .inl hev
  | received x size ready n source p rest hc hin hn =>
    rcases List.mem_append.mp hev with hev | hev
    · rcases List.mem_cons.mp hev with rfl | hev
      · exact .inr (hn ▸ .received x size ready p hc (hin ▸ List.mem_cons_self ..))
      · exact .inr (mem_recieveAsserts hev ▸ .assertFailed)
    · exact .inl hev
  | receivedNothing x size ready source hc hnot =>
    rcases List.mem_cons.mp hev with rfl | hev
    · exact .inr (.nothing x size ready hc hnot)
    · exact .inl hev

theorem delivered_step (h : ∀ x size bytes sender, .received x size bytes sender ∈ s.log →
      Delivered place s.log x size bytes sender)
    (hcall : ∀ x, (s.sockets x).CallBelow (2 ^ 32))
    (hsent : ∀ p ∈ s.packets, p.Sent place s.log) (hin : ∀ x, ∀ p ∈ s.inbox x, s.Holds place x p)
    (hm : DatagramMove place s act s') : ∀ x size bytes sender,
      .received x size bytes sender ∈ s'.log → Delivered place s'.log x size bytes sender := by
  have hlog : s.log ⊆ s'.log := (log_suffix hm).subset
  intro x size bytes sender hev
  have hdelivered : Delivered place s.log x size bytes sender := by
    rcases logged hm hev with hev | hnew
    · exact h x size bytes sender hev
    · cases hnew with
      | received _ _ _ p hc hp => exact delivered_of_holds ((hcall x).size_lt hc) (hin x p hp) hsent
  obtain ⟨y, buf, dest, hsend, hrest⟩ := hdelivered
  exact ⟨y, buf, dest, hlog hsend, hrest⟩

/-- With the flag set, `recieve` finds a datagram or an error. -/
theorem nothing_step (h : ∀ x, .nothing x true ∈ s.log → .threw x .system ∈ s.log)
    (hfresh : s.Fresh) (hm : DatagramMove place s act s') :
    ∀ x, .nothing x true ∈ s'.log → .threw x .system ∈ s'.log := by
  have hlog : s.log ⊆ s'.log := (log_suffix hm).subset
  intro x hev
  rcases logged hm hev with hev | hnew
  · exact hlog (h x hev)
  · cases hnew with
    | nothing _ size _ hc hnot =>
      -- the flag stands for a datagram, or for an error that was reported
      exact hlog ((((hfresh x).receiving hc).2.2 rfl).resolve_left hnot)

/-- `send` sends the whole buffer or nothing. -/
theorem whole_step (h : ∀ x buf dest n, .sent x buf dest n ∈ s.log → n = 0 ∨ n = buf.length)
    (hcall : ∀ x, (s.sockets x).CallBelow (2 ^ 32)) (hm : DatagramMove place s act s') :
    ∀ x buf dest n, .sent x buf dest n ∈ s'.log → n = 0 ∨ n = buf.length := by
  intro x buf dest n hev
  rcases logged hm hev with hev | hnew
  · exact h x buf dest n hev
  · cases hnew with
    | sentNothing => exact .inl rfl
    | sent _ _ _ _ _ _ hc hn hshort =>
      exact .inr (hn.trans (sent_whole ((hcall x).length_lt hc) hshort))

/-- Buffers that an `int` can count pass the assertions. -/
theorem assert_step (h : .assertFailed ∉ s.log)
    (hcall : ∀ x, (s.sockets x).CallBelow (2 ^ 31)) (hm : DatagramMove place s act s') :
    .assertFailed ∉ s'.log := by
  cases hm with
  | sendBegin | recieveBegin | retry | wait | close | deliver | fault => exact h
  | sendClosed | recieveClosed | receivedNothing | failed =>
    exact fun hev => h ((List.mem_cons.mp hev).resolve_left nofun)
  | sentNothing x buf beyond dest ready source hc =>
    rw [sendAsserts_nil ((hcall x).length_lt hc) (.inr rfl)]
    exact fun hev => h ((List.mem_cons.mp hev).resolve_left nofun)
  | sent x buf beyond dest ready n source hc ha =>
    have hsize := (hcall x).length_lt hc
    rw [sendAsserts_nil hsize (.inl (ha.1.trans (sent_whole (by omega) ha.2.2.1)))]
    exact fun hev => h ((List.mem_cons.mp hev).resolve_left nofun)
  | received x size ready n source p rest hc hin hn =>
    have hsize := (hcall x).size_lt hc
    have hasked : askedLength size = size := by
      rw [askedLength_eq]
      split_ifs <;> omega
    rw [recieveAsserts_nil hsize (by omega)]
    exact fun hev => h ((List.mem_cons.mp hev).resolve_left nofun)

/-! ## all runs -/

theorem fresh {G : Network → DatagramAction → Prop} (hr : (datagrams place).Reach G s) :
    s.Fresh ∧ ∀ x, .nothing x true ∈ s.log → .threw x .system ∈ s.log := by
  refine hr.invariant (I := fun s => s.Fresh ∧ ∀ x, .nothing x true ∈ s.log →
    .threw x .system ∈ s.log) (fun s hs => ⟨fun x => ?_, fun x hev => ?_⟩) ?_
  · refine Endpoint.fresh_idle (Initial.idle hs x) (fun hf => ?_) fun _ => trivial
    simp [Initial.flags hs x] at hf
  · simp [Initial.log hs] at hev
  · rintro s act s' _ ⟨hfresh, hn⟩ _ hs
    exact ⟨fresh_step hfresh (datagramMove hs), nothing_step hn hfresh (datagramMove hs)⟩

theorem callBelow (hr : (datagrams place).Reach (SizesBelow limit) s) :
    ∀ x, (s.sockets x).CallBelow limit := by
  refine hr.invariant (I := fun s => ∀ x, (s.sockets x).CallBelow limit) (fun s hs x => ?_) ?_
  · have hc : (s.sockets x).call = .idle := Initial.idle hs x
    unfold Endpoint.CallBelow
    rw [hc]
    trivial
  · intro s act s' _ h hg hs
    exact callBelow_step h hg (datagramMove hs)

end Network

/-! ## two sockets -/

/-- an IPv6 socket that takes IPv4 as well, and an IPv4 socket on a computer of the other order -/
def twoPlaces : ℕ → Place
  | 0 => ⟨.littleEndian, .linux, false, (· = serverAddress.wire)⟩
  | _ => ⟨.bigEndian, .macosx, true, (· = clientAddress.wire)⟩

def openSockets : Network := { sockets := fun _ => { sock := 0 } }

theorem openSockets_initial : openSockets.Initial :=
  ⟨fun _ => rfl, fun _ => rfl, rfl, fun _ => rfl, rfl⟩

/-- A datagram arrives twice, and is received into a buffer that is too short. -/
def sentOnce : List DatagramAction :=
  let p : Packet := ⟨clientAddress.wire, serverAddress.wire, [1, 2, 3, 4]⟩
  [.send 1 [1, 2, 3, 4] [] serverAddress, .answer 1 .interrupted clientAddress.wire,
    .answer 1 (.done 4) clientAddress.wire, .deliver 0 p, .deliver 0 p,
    .wait 0 ⟨true, false, false⟩, .recieve 0 3, .answer 0 (.done 3) serverAddress.wire]

theorem reach_sentOnce : ∃ s, (datagrams twoPlaces).Reach (SizesBelow (2 ^ 31)) s ∧
    .received 0 3 [1, 2, 3] clientAddress ∈ s.log := by
  obtain ⟨s, hr, hp⟩ := Machine.exists_reach (M := datagrams twoPlaces) (SizesBelow (2 ^ 31))
    sentOnce (fun s => .received 0 3 [1, 2, 3] clientAddress ∈ s.log) openSockets_initial
    (by decide)
  exact ⟨s, hr, of_decide_eq_true hp⟩

theorem SizesBelow.mono {s : Network} {act : DatagramAction} {limit limit' : ℕ}
    (h : SizesBelow limit s act) (hle : limit ≤ limit') : SizesBelow limit' s act := by
  cases act with
  | send | recieve => exact h.trans_le hle
  | _ => trivial

section
variable {place : ℕ → Place} {s : Network}

/-- **A datagram that is received was sent,** to this socket, by the socket with the reported
address, and it is the whole datagram up to the size of the buffer. -/
theorem datagram_delivered (hr : (datagrams place).Reach (SizesBelow (2 ^ 32)) s) {x size : ℕ}
    {bytes : List UInt8} {sender : Address} (hev : .received x size bytes sender ∈ s.log) :
    Delivered place s.log x size bytes sender := by
  have hI := hr.invariant (I := fun s => (∀ p ∈ s.packets, p.Sent place s.log) ∧
    (∀ x, ∀ p ∈ s.inbox x, s.Holds place x p) ∧
    ∀ x size bytes sender, .received x size bytes sender ∈ s.log →
      Delivered place s.log x size bytes sender) (fun s hs => ?_) ?_
  · exact hI.2.2 x size bytes sender hev
  · simp [Network.Initial.packets hs, Network.Initial.inbox hs, Network.Initial.log hs]
  · rintro s act s' hr ⟨hsent, hin, hd⟩ _ hs
    have hm := Network.datagramMove hs
    have hcall := Network.callBelow hr
    exact ⟨Network.origin_step hsent hcall hm, Network.holds_step hin hm,
      Network.delivered_step hd hcall hsent hin hm⟩

theorem datagram_delivered_cut : ∃ s : Network, .received 0 3 [1, 2, 3] clientAddress ∈ s.log ∧
    Delivered twoPlaces s.log 0 3 [1, 2, 3] clientAddress := by
  obtain ⟨s, hr, hev⟩ := reach_sentOnce
  exact ⟨s, hev, datagram_delivered (hr.mono fun _ _ hg => hg.mono (by decide)) hev⟩

/-- **Datagrams are sent at once:** if the buffers are such that an `int` counts them, `send` sends
the whole buffer or nothing, and no assertion of `send` or `recieve` fails. -/
theorem udp_asserts (hr : (datagrams place).Reach (SizesBelow (2 ^ 31)) s) :
    (∀ x buf dest n, .sent x buf dest n ∈ s.log → n = 0 ∨ n = buf.length) ∧
      .assertFailed ∉ s.log := by
  have hlimit : ∀ s act, SizesBelow (2 ^ 31) s act → SizesBelow (2 ^ 32) s act :=
    fun _ _ hg => hg.mono (by decide)
  refine hr.invariant (I := fun s => (∀ x buf dest n, .sent x buf dest n ∈ s.log →
    n = 0 ∨ n = buf.length) ∧ .assertFailed ∉ s.log) (fun s hs => ?_) ?_
  · simp [Network.Initial.log hs]
  · rintro s act s' hr ⟨hwhole, hassert⟩ _ hs
    have hm := Network.datagramMove hs
    exact ⟨Network.whole_step hwhole (Network.callBelow (hr.mono hlimit)) hm,
      Network.assert_step hassert (Network.callBelow hr) hm⟩

theorem udp_asserts_cut : ∃ s : Network, .received 0 3 [1, 2, 3] clientAddress ∈ s.log ∧
    .assertFailed ∉ s.log := by
  obtain ⟨s, hr, hev⟩ := reach_sentOnce
  exact ⟨s, hev, (udp_asserts hr).2⟩

end

end Setka
