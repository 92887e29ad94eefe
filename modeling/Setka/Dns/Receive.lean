import Setka.Dns.Tables

/-!
# The decision about a received datagram

The part of `LookupThread::run()` between `socket.recieve()` and the change of the containers: look
the id up, compare the host name, parse the reply.  The receive buffer has 512 bytes, of which
`recieve()` has written the first `size`; the others hold whatever was there before.
-/

namespace Setka

/-- the size of the receive buffer -/
def bufSize : ℕ := 512

/-- what `recieve()` leaves behind: the whole buffer, the number of bytes received and the sender -/
structure Datagram where
  buf : Bytes
  size : ℕ
  sender : Address
  buf_length : buf.length = bufSize
  size_le : size ≤ bufSize
deriving DecidableEq

/-- the bytes that were received -/
def Datagram.bytes (d : Datagram) : Bytes := d.buf.take d.size

/-- the datagram with these bytes, in a buffer of zeros -/
def Datagram.ofBytes (bytes : Bytes) (sender : Address) (h : bytes.length ≤ bufSize) :
    Datagram where
  buf := bytes ++ List.replicate (bufSize - bytes.length) 0
  size := bytes.length
  sender := sender
  buf_length := by rw [List.length_append, List.length_replicate, Nat.add_sub_cancel' h]
  size_le := h

theorem Datagram.ofBytes_bytes (bytes : Bytes) (sender : Address) (h : bytes.length ≤ bufSize) :
    (Datagram.ofBytes bytes sender h).bytes = bytes :=
  List.take_left

inductive RecvAction where
  | ignore
  | requeue (r : Resolver)
  | complete (r : Resolver) (res : ParseResult)
deriving DecidableEq, Repr

/-- The receive step up to the action taken.  The host name is parsed up to the end of the buffer,
the reply in the span of the received bytes. -/
def recvAction (tb : Tables) (buf : Bytes) (size : ℕ) : Option RecvAction :=
  if size < 13 then some .ignore
  else do
    let id ← deserialize16be buf 0
    match tb.findId id with
    | none => some .ignore
    | some p => do
      let r ← tb.deref p
      let (host, _) ← parseHostNameFromDNSPacket buf 12 bufSize
      if host ≠ r.hostName then some .ignore
      else do
        let res ← parseReplyFromDNS r buf size
        if res.result = .notFound ∧ r.recordType = recordAAAA then some (.requeue r)
        else some (.complete r res)

/-- What is known of a datagram that is not ignored. -/
theorem recvAction_eq_some {tb : Tables} {buf : Bytes} {size : ℕ} {a : RecvAction}
    (h : recvAction tb buf size = some a) : a = .ignore ∨ ∃ id p r q res, 13 ≤ size ∧
      deserialize16be buf 0 = some id ∧ tb.findId id = some p ∧ tb.deref p = some r ∧
      parseHostNameFromDNSPacket buf 12 bufSize = some (r.hostName, q) ∧
      parseReplyFromDNS r buf size = some res ∧
      a = if res.result = .notFound ∧ r.recordType = recordAAAA then .requeue r
        else .complete r res := by
  unfold recvAction at h
  split at h
  · cases h
    exact .inl rfl
  · rename_i hsize
    obtain ⟨id, hid, h⟩ := Option.bind_eq_some_iff.mp h
    split at h
    · cases h
      exact .inl rfl
    · rename_i p hp
      obtain ⟨r, hr, h⟩ := Option.bind_eq_some_iff.mp h
      obtain ⟨⟨host, q⟩, hh, h⟩ := Option.bind_eq_some_iff.mp h
      dsimp only at h
      split at h
      · cases h
        exact .inl rfl
      · rename_i hne
        obtain ⟨res, hres, h⟩ := Option.bind_eq_some_iff.mp h
        rw [not_not] at hne
        rw [hne] at hh
        refine .inr ⟨id, p, r, q, res, not_lt.mp hsize, hid, hp, hr, hh, hres, ?_⟩
        split at h
        · rename_i hc
          rw [if_pos hc]
          exact (Option.some.inj h).symm
        · rename_i hc
          rw [if_neg hc]
          exact (Option.some.inj h).symm

end Setka
