import LibGTop.Client.Call
import LibGTop.Daemon.Output

/-!
# Framing of the replies

Replies of any length follow each other on the stream without separators. Each
call of the client reads exactly one of them, however the bytes are cut into
reads, and leaves the stream at the next.
-/

namespace LibGTop.Protocol

open Base Wire Client Daemon

variable {abi : Abi}

/-- A request, the reply the server produced for it and the two calls of its `do_output`, which
are complete; the structure the client copies lies inside the response. -/
structure Exchange (abi : Abi) where
  request : Request
  reply : Reply abi
  inside : ∀ size, request.recvSize = some size →
    reply.offset.toNat + size ≤ sizeofResponse abi
  responseWrite : WriteEvent
  dataWrite : WriteEvent
  responseWrite_complete : responseWrite.Complete (sizeofResponse abi)
  dataWrite_complete : dataWrite.Complete reply.data.length

/-- The bytes `do_output` hands to descriptor `s` for the reply of an exchange. -/
def Exchange.emitted (s : Nat) (x : Exchange abi) : List UInt8 :=
  ((doOutput s x.reply [x.responseWrite, x.dataWrite]).map Output.handed).getD []

/-- What the server stored at the offset of a reply. -/
def Exchange.stored (x : Exchange abi) (size : Nat) : List UInt8 :=
  slice x.reply.sent.store x.reply.offset.toNat size

/-- The client received the reply: `recv_buf` holds the `recv_size` bytes stored at its offset,
and the call returned its block, or `NULL` when there is none. -/
structure Exchange.Received (x : Exchange abi) (a : Answer) : Prop where
  recvBuf : a.recvBuf = x.request.recvSize.map x.stored
  length : ∀ size bytes, x.request.recvSize = some size → a.recvBuf = some bytes →
    bytes.length = size
  data : a.data = if x.reply.data = [] then none else some x.reply.data

/-- The bytes of the replies of several exchanges, one after the other. -/
def replyBytes (s : Nat) (exchanges : List (Exchange abi)) : List UInt8 :=
  exchanges.flatMap (Exchange.emitted s)

/-- With complete calls `do_output` puts exactly the reply on the wire. -/
theorem Exchange.emitted_eq (s : Nat) (x : Exchange abi) : x.emitted s = x.reply.wire := by
  rw [emitted, doOutput_complete s x.reply _ _ [] x.responseWrite_complete x.dataWrite_complete]
  rfl

theorem length_wire (r : Reply abi) : r.wire.length = sizeofResponse abi + r.data.length := by
  simp [Reply.wire]

/-- A window inside the response has the size asked for. -/
theorem Exchange.length_stored (x : Exchange abi) (size : Nat)
    (h : x.request.recvSize = some size) : (x.stored size).length = size := by
  have hi := x.inside size h
  simp only [stored, slice, List.length_take, List.length_drop, Response.length_store]
  omega

/-- One call reads exactly one reply and leaves the stream at the byte behind it. -/
theorem glibtopCallL_reply (x : Exchange abi) (rest : List UInt8) (reads : List ReadEvent)
    (e : WriteEvent) (writes : List WriteEvent) (he : e.Complete sizeofCommand)
    (hb : ∀ e ∈ reads, Benign true e) (hd : x.reply.wire.length ≤ deliveries reads) :
    ∃ a left, glibtopCallL abi x.request ⟨x.reply.wire ++ rest, reads, e :: writes⟩ =
        .returned a ⟨rest, left, writes⟩ ∧ x.Received a ∧
      (∀ e ∈ left, Benign true e) ∧
      deliveries reads ≤ deliveries left + x.reply.wire.length := by
  have hl := length_wire x.reply
  have hw : glibtopWriteL (x.request.header.store abi.order) (e :: writes) =
      .returned (x.request.header.store abi.order) writes := by
    apply glibtopWriteL_complete
    · apply List.ne_nil_of_length_pos
      rw [Command.length_store]
      decide
    · rwa [Command.length_store]
  obtain ⟨reads₁, hr, hb₁, hc₁⟩ := glibtopReadL_full (sizeofResponse abi) x.reply.sent.store
    (x.reply.data ++ rest) reads (by simp) hb (by omega)
  have hs : x.reply.wire ++ rest = x.reply.sent.store ++ (x.reply.data ++ rest) := by
    simp [Reply.wire]
  have ho : loadField abi.order x.reply.sent.store 0 = x.reply.offset :=
    x.reply.sent.loadField_offset
  have hz : loadField abi.order x.reply.sent.store 16 = x.reply.sent.dataSize :=
    x.reply.sent.loadField_dataSize
  have hn : ∀ size bytes, x.request.recvSize = some size →
      x.request.recvSize.map x.stored = some bytes → bytes.length = size := by
    intro size bytes hq hm
    rw [hq] at hm
    obtain rfl := Option.some.inj hm
    exact x.length_stored size hq
  simp only [glibtopCallL, hw, hs, hr, ho, hz, ne_eq, Daemon.dataSize_eq_zero_iff, ite_not]
  split
  · next hdata =>
    rw [hdata, List.nil_append]
    exact ⟨_, reads₁, rfl, ⟨rfl, hn, by simp [hdata]⟩, hb₁, by omega⟩
  · next hdata =>
    obtain ⟨reads₂, hr₂, hb₂, hc₂⟩ := glibtopReadL_full x.reply.data.length x.reply.data rest
      reads₁ rfl hb₁ (by omega)
    rw [x.reply.toNat_dataSize, hr₂]
    exact ⟨_, reads₂, rfl, ⟨rfl, hn, by simp [hdata]⟩, hb₂, by omega⟩

/-- Calls made one after the other each receive their own reply. -/
theorem callAll_replies (s : Nat) (exchanges : List (Exchange abi)) (rest : List UInt8)
    (reads : List ReadEvent) (writes : List WriteEvent)
    (hw : ∀ e ∈ writes, e.Complete sizeofCommand) (hn : exchanges.length ≤ writes.length)
    (hb : ∀ e ∈ reads, Benign true e) (hd : (replyBytes s exchanges).length ≤ deliveries reads) :
    ∃ answers left writesLeft,
      callAll abi (exchanges.map Exchange.request)
          ⟨replyBytes s exchanges ++ rest, reads, writes⟩ =
        some (answers, ⟨rest, left, writesLeft⟩) ∧
      List.Forall₂ Exchange.Received exchanges answers := by
  induction exchanges generalizing reads writes with
  | nil => exact ⟨[], reads, writes, rfl, .nil⟩
  | cons x exchanges ih =>
    cases writes with
    | nil => simp at hn
    | cons e writes =>
      have hs : replyBytes s (x :: exchanges) = x.reply.wire ++ replyBytes s exchanges := by
        simp [replyBytes, x.emitted_eq]
      rw [hs, List.length_append] at hd
      obtain ⟨a, left, hc, ha, hb', hd'⟩ := glibtopCallL_reply x (replyBytes s exchanges ++ rest)
        reads e writes (hw e List.mem_cons_self) hb (by omega)
      obtain ⟨answers, left', writesLeft, hcs, has⟩ := ih left writes
        (fun e he ↦ hw e (List.mem_cons_of_mem _ he)) (by simpa using hn) hb' (by omega)
      refine ⟨a :: answers, left', writesLeft, ?_, .cons ha has⟩
      rw [hs, List.append_assoc, List.map_cons, callAll, hc]
      simp [hcs]

/-- Response framing: on a stream of any replies, with complete writes and on every schedule
that only cuts reads short or interrupts them, the first `k` calls return, receive the first
`k` replies and leave the stream at the first byte of the reply that follows. -/
theorem calls_receive_replies (s : Nat) (exchanges : List (Exchange abi)) (rest : List UInt8)
    (writes : List WriteEvent) (hw : ∀ e ∈ writes, e.Complete sizeofCommand)
    (hn : exchanges.length ≤ writes.length) (reads : Nat → ReadEvent) (fair : Fair reads) :
    ∃ N, ∀ n, N ≤ n → ∀ k, k ≤ exchanges.length → ∃ answers left writesLeft,
      callAll abi ((exchanges.take k).map Exchange.request)
          ⟨replyBytes s exchanges ++ rest, schedule reads n, writes⟩ =
        some (answers, ⟨replyBytes s (exchanges.drop k) ++ rest, left, writesLeft⟩) ∧
      List.Forall₂ Exchange.Received (exchanges.take k) answers := by
  obtain ⟨N, hN⟩ := fair.deliveries_unbounded (replyBytes s exchanges).length
  refine ⟨N, fun n hle k hk ↦ ?_⟩
  have hs : replyBytes s exchanges =
      replyBytes s (exchanges.take k) ++ replyBytes s (exchanges.drop k) := by
    rw [replyBytes, replyBytes, replyBytes, ← List.flatMap_append, List.take_append_drop]
  have hd := hN n hle
  rw [hs, List.length_append] at hd
  rw [hs, List.append_assoc]
  exact callAll_replies s _ _ _ writes hw (by rw [List.length_take]; omega)
    (fair.benign_schedule n) (by omega)

/-- A request for the arguments of process 1 and an answer with a block of three bytes. -/
def procArgsExchange : Exchange linuxAbi where
  request := ⟨.get .procArgs, [1, 0, 0, 0, 0, 0, 0, 0], by decide, some 16⟩
  reply :=
    ⟨⟨0, 0, 0, List.replicate linuxAbi.unionSize 1, List.length_replicate⟩, offsetUnion,
      [108, 115, 0], by decide⟩
  inside := by
    intro size h
    obtain rfl := Option.some.inj h
    decide
  responseWrite := .accepts 65648
  dataWrite := .accepts 3
  responseWrite_complete := ⟨65648, rfl, by decide⟩
  dataWrite_complete := ⟨3, rfl, by decide⟩

/-- Two such exchanges with single-byte reads. -/
theorem calls_receive_replies_twice :
    ∃ N, ∀ n, N ≤ n → ∀ k, k ≤ 2 → ∃ answers left writesLeft,
      callAll linuxAbi (([procArgsExchange, procArgsExchange].take k).map Exchange.request)
          ⟨replyBytes 5 [procArgsExchange, procArgsExchange] ++ [],
            schedule (fun _ ↦ .ready 0) n, [.accepts 40, .accepts 40]⟩ =
        some (answers, ⟨replyBytes 5 ([procArgsExchange, procArgsExchange].drop k) ++ [],
          left, writesLeft⟩) ∧
      List.Forall₂ Exchange.Received ([procArgsExchange, procArgsExchange].take k) answers :=
  calls_receive_replies 5 [procArgsExchange, procArgsExchange] [] [.accepts 40, .accepts 40]
    (by simp [WriteEvent.Complete, sizeofCommand]) (by simp) (fun _ ↦ .ready 0)
    ⟨fun _ ↦ Or.inl ⟨0, rfl⟩, fun i ↦ ⟨i, Nat.le_refl i, 0, rfl⟩⟩

end LibGTop.Protocol
