import LibGTop.Protocol.Arguments
import LibGTop.Protocol.Framing
import LibGTop.Protocol.Pairing

/-!
# Calls that are passed on

A client of the daemon gets its results over two connections. The getters of the
daemon are stubs too, which ask the set-id server for the features that it serves
(`lib/lib.pl:179–210`), and `handle_parent_connection` hands on what they
received. So a result of the set-id server is copied twice, each time out of the
union of a response. The daemon's own call has to return with its own reply, which it
need not do when two of its children are in calls at once.
-/

namespace LibGTop.Protocol

open Base Wire Client Daemon

variable {abi : Abi}

theorem blockOf_of_block {f : Feature} {result result' : GetterResult abi}
    (h : result.block = blockOf f result') : blockOf f result = blockOf f result' := by
  by_cases hf : blockFeatures.contains f
  · rw [blockOf, if_pos hf, h]
  · rw [blockOf, if_neg hf, blockOf, if_neg hf]

/-- An image where `size` bytes are copied out of a cleared union with the image at its start. -/
def fitted (size : Nat) (image : List UInt8) : List UInt8 :=
  (image ++ zeros (size - image.length)).take size

/-- A call received the result of a getter: the bytes of its structure and its block. -/
structure Delivered (f : Feature) (size : Nat) (result : GetterResult abi) (a : Answer) :
    Prop where
  recvBuf : a.recvBuf = some (fitted size result.buf)
  data : a.data = if blockOf f result = [] then none else some (blockOf f result)

theorem length_fitted (size : Nat) (image : List UInt8) : (fitted size image).length = size := by
  rw [fitted, List.length_take, List.length_append, length_zeros]
  omega

/-- What is copied a second time stays as it is. -/
theorem fitted_fitted (size : Nat) (image : List UInt8) :
    fitted size (fitted size image) = fitted size image := by
  have hl := length_fitted size image
  rw [fitted, List.take_append_of_le_length hl.ge, List.take_of_length_le hl.le]

/-- The window at the start of a union is the image, cut or filled up with zeros. -/
theorem take_overlay {size width : Nat} (image : List UInt8) (h : size ≤ width) :
    (overlay (zeros width) image).take size = fitted size image := by
  rw [overlay_zeros, fitted, List.take_append, List.take_append]
  congr 1
  rw [zeros, zeros, List.take_replicate, List.take_replicate]
  congr 1
  omega

section

variable {f : Feature} {result : GetterResult abi} {r : Reply abi}

/-- What lies at the offset of a reply with a result. -/
theorem stored_of_carries (hr : Carries f result r) {size : Nat} (fits : size ≤ abi.unionSize) :
    slice r.sent.store r.offset.toNat size = fitted size result.buf := by
  have hs : r.sent.store = (storeField abi.order r.sent.offset ++
      (storeField abi.order r.sent.size ++ storeField abi.order r.sent.dataSize)) ++ r.resp.u := by
    rw [Response.store, List.append_assoc, List.append_assoc]
    rfl
  have ho : r.offset.toNat = 24 := congrArg UInt64.toNat hr.offset
  rw [slice, hs, ho, List.drop_left' (by simp), hr.image, take_overlay _ fits]

/-- A call that returns, on a stream with such a reply next, received the result. -/
theorem delivered_of_carries {c : Call} (hr : Carries c.feature result r) {size : Nat}
    (fits : size ≤ abi.unionSize) {rest : List UInt8} {reads : List ReadEvent}
    {writes : List WriteEvent} {a : Answer} {io : Io}
    (hc : glibtopCallL abi (c.request abi size) ⟨r.wire ++ rest, reads, writes⟩ = .returned a io) :
    Delivered c.feature size result a := by
  have hw : r.wire ++ rest = r.sent.store ++ (r.data ++ rest) := by
    rw [Reply.wire, List.append_assoc]
  have hread : ∀ {n : Nat} {pending bytes left : List UInt8} {events events' : List ReadEvent},
      glibtopReadL n pending events = .full bytes left events' →
        bytes ++ left = pending ∧ bytes.length = n := by
    intro n pending bytes left events events' he
    rw [glibtopReadL] at he
    split at he
    · next hn =>
      obtain ⟨rfl, rfl, -⟩ := Collected.full.inj he
      exact ⟨rfl, hn.symm⟩
    · exact collect_eq_full (Nat.zero_le _) he
  rw [glibtopCallL] at hc
  split at hc
  · cases hc
  · cases hc
  · split at hc
    · cases hc
    · cases hc
    · next response pending _ he =>
      obtain ⟨hb, hl⟩ := hread he
      obtain ⟨rfl, rfl⟩ := List.append_inj (hb.trans hw)
        (hl.trans r.sent.length_store.symm)
      have ho : loadField abi.order r.sent.store 0 = r.offset := r.sent.loadField_offset
      have hz : loadField abi.order r.sent.store 16 = r.sent.dataSize := r.sent.loadField_dataSize
      have hrecv : (c.request abi size).recvSize = some size := rfl
      simp only [ho, hz, hrecv, Option.map_some, stored_of_carries hr fits, ne_eq, dataSize_eq_zero_iff,
        ite_not] at hc
      split at hc
      · next hdata =>
        obtain ⟨rfl, -⟩ := CallEnd.returned.inj hc
        exact ⟨rfl, by rw [if_pos (hr.data ▸ hdata)]⟩
      · next hdata =>
        split at hc
        · cases hc
        · cases hc
        · next data left _ he' =>
          obtain ⟨hb', hl'⟩ := hread he'
          rw [r.toNat_dataSize] at hl'
          obtain ⟨rfl, -⟩ := List.append_inj hb' hl'
          obtain ⟨rfl, -⟩ := CallEnd.returned.inj hc
          exact ⟨rfl, by rw [if_neg (hr.data ▸ hdata), hr.data]⟩

/-- On every schedule that only cuts reads short or interrupts them the call returns. -/
theorem returns_of_carries {c : Call} (hr : Carries c.feature result r) {size : Nat}
    (fits : size ≤ abi.unionSize) {e : WriteEvent} (he : e.Complete sizeofCommand)
    {reads : Nat → ReadEvent} (fair : Fair reads) (rest : List UInt8) (writes : List WriteEvent) :
    ∃ N, ∀ n, N ≤ n → ∃ a left,
      glibtopCallL abi (c.request abi size) ⟨r.wire ++ rest, schedule reads n, e :: writes⟩ =
        .returned a ⟨rest, left, writes⟩ ∧
      Delivered c.feature size result a := by
  obtain ⟨N, hN⟩ := fair.deliveries_unbounded r.wire.length
  refine ⟨N, fun n hn ↦ ?_⟩
  let x : Exchange abi :=
    { request := c.request abi size
      reply := r
      inside := by
        intro size' hs
        obtain rfl := Option.some.inj hs
        have ho : r.offset.toNat = 24 := congrArg UInt64.toNat hr.offset
        rw [ho, sizeofResponse]
        exact Nat.add_le_add_left fits 24
      responseWrite := .accepts (sizeofResponse abi)
      dataWrite := .accepts r.data.length
      responseWrite_complete := ⟨_, rfl, Nat.le_refl _⟩
      dataWrite_complete := ⟨_, rfl, Nat.le_refl _⟩ }
  obtain ⟨a, left, hc, -, -, -⟩ := glibtopCallL_reply x rest (schedule reads n) e writes he
    (fair.benign_schedule n) (hN n hn)
  exact ⟨a, left, hc, delivered_of_carries hr fits hc⟩

end

/-- An argument as the daemon passes it on: without a limit, `src/daemon/main.c:171–173`. -/
def unlimited : Arg → Arg
  | .unsigned _ => .unsigned 0
  | a => a

theorem kind_unlimited (a : Arg) : (unlimited a).kind = a.kind := by
  cases a <;> rfl

theorem valid_unlimited {a : Arg} (h : a.Valid) : (unlimited a).Valid := by
  cases a <;> exact h

theorem length_store_unlimited (order : ByteOrder) (a : Arg) :
    ((unlimited a).store order).length = (a.store order).length := by
  cases a with
  | unsigned value => rw [unlimited, Arg.store, Arg.store, order.length_store, order.length_store]
  | _ => rfl

theorem typed_unlimited (c : Call) :
    (c.args.map unlimited).map Arg.kind = parameters c.feature := by
  rw [← c.typed, List.map_map]
  exact List.map_congr_left fun a _ ↦ kind_unlimited a

theorem valid_map_unlimited (c : Call) : ∀ a ∈ c.args.map unlimited, a.Valid := by
  intro a ha
  obtain ⟨b, hb, rfl⟩ := List.mem_map.mp ha
  exact valid_unlimited (c.valid b hb)

/-- The call the daemon makes for one of its client. -/
def relayedCall (c : Call) : Call where
  feature := c.feature
  args := c.args.map unlimited
  typed := typed_unlimited c
  valid := valid_map_unlimited c

theorem relayedCall_feature (c : Call) : (relayedCall c).feature = c.feature := rfl

theorem relayedCall_args (c : Call) : (relayedCall c).args = c.args.map unlimited := rfl

theorem length_sendBuf_relayedCall (order : ByteOrder) (c : Call) :
    ((relayedCall c).sendBuf order).length = (c.sendBuf order).length := by
  simp only [Call.sendBuf, relayedCall, List.flatMap_map, List.length_flatMap,
    length_store_unlimited]

/-- Only `proc_args` has a limit. -/
theorem map_unlimited {c : Call} (hf : c.feature ≠ .procArgs) : c.args.map unlimited = c.args := by
  have hk : ∀ f : Feature, f ≠ .procArgs → Kind.unsigned ∉ parameters f := by
    intro f
    cases f <;> decide
  have hid : ∀ a ∈ c.args, unlimited a = a := by
    intro a ha
    cases a with
    | unsigned value => exact absurd (c.typed ▸ List.mem_map_of_mem ha) (hk c.feature hf)
    | _ => rfl
  exact (List.map_congr_left hid).trans (List.map_id _)

/-- The daemon asks for what its client asked for, without the limit. -/
theorem args_parent (h : Host abi) (now : Nat) (c : Call) :
    Handler.parent.args h now (parameterOf abi (c.sendBuf abi.order)) c.feature =
      (relayedCall c).args := by
  have hl := loadArgs_sendBuf abi c
  by_cases hf : c.feature = .procArgs
  · obtain ⟨pid, ha⟩ := args_of_procArgs hf
    rw [hf, ha] at hl
    have hp : pidArg abi.order (parameterOf abi (c.sendBuf abi.order)) = .pid pid :=
      (List.cons.inj hl).1
    rw [hf, Handler.args, hp, relayedCall_args, ha]
    rfl
  · rw [args_of_regular .parent h now _ _ hf (fun _ ↦ rfl), hl]
    exact (map_unlimited hf).symm

/-- The set-id server reads what the daemon asks for, but for a device in big-endian order. -/
theorem args_slave (cfg : SuidConfig) (h : Host abi) (now : Nat) (c : Call)
    (hd : c.feature = .ppp → abi.order = .little) :
    (Handler.slave cfg).args h now (parameterOf abi ((relayedCall c).sendBuf abi.order)) c.feature =
      (relayedCall c).args := by
  by_cases hf : c.feature = .procArgs
  · obtain ⟨pid, ha⟩ := args_of_procArgs hf
    have hargs : (relayedCall c).args = [.pid pid, .unsigned 0] := by
      rw [relayedCall_args, ha]
      rfl
    have hm : maxLen (relayedCall c) = 0 := by rw [maxLen, hargs]
    refine (args_procArgs_iff (.slave cfg) h now (relayedCall c) hf).mpr ?_
    rw [hm]
    cases abi.order with
    | little => exact Nat.two_pow_pos 16
    | big => exact Nat.one_pos
  · by_cases hp : c.feature = .ppp
    · exact (args_ppp_iff cfg (relayedCall c) hp).mpr (hd hp) h now
    · rw [args_of_regular (.slave cfg) h now _ _ hf (fun he ↦ absurd he hp)]
      exact loadArgs_sendBuf abi (relayedCall c)

/-- The getter that the daemon invokes for a call is a stub on the connection to a set-id server,
and returns: its own call of the server was sent behind any others, and what it leaves is what that
call received, with the one reply to its command next on its connection. -/
def AsksServer (cfg : SuidConfig) (sizes : Feature → Nat) (suid daemon : Host abi) (now : Nat)
    (c : Call) : Prop :=
  ∃ (conn : Connection abi) (handled : Handled abi) (r : Reply abi) (rest : List UInt8)
    (reads : List ReadEvent) (writes : List WriteEvent) (a : Answer) (io : Io)
    (result : GetterResult abi),
    (conn.decode (.slave cfg) suid ((c.request abi (sizes c.feature)).header.store
      abi.order)).log = conn.log ++ [handled] ∧
    handled.reaction.replies = [r] ∧
    glibtopCallL abi (c.request abi (sizes c.feature)) ⟨r.wire ++ rest, reads, writes⟩ =
      .returned a io ∧
    daemon.getter now c.feature c.args = some result ∧
    result.buf = a.recvBuf.getD [] ∧ result.block = a.data.getD []

/-- So it leaves the result of the set-id server. -/
theorem AsksServer.result {cfg : SuidConfig} {sizes : Feature → Nat} {suid daemon : Host abi}
    {now : Nat} {c : Call} (asks : AsksServer cfg sizes suid daemon now c)
    (fits : ∀ f, sizes f ≤ abi.unionSize) (ha : Answerable (.slave cfg) abi.order c) :
    ∃ now' result result', suid.getter now' c.feature ((Handler.slave cfg).args suid now'
        (parameterOf abi (c.sendBuf abi.order)) c.feature) = some result ∧
      daemon.getter now c.feature c.args = some result' ∧
      result'.buf = fitted (sizes c.feature) result.buf ∧
        result'.block = blockOf c.feature result := by
  obtain ⟨conn, handled, r, rest, reads, writes, a, io, result', hlog, hr, hc, hgetter, hbuf,
    hblock⟩ := asks
  have hreturns : Answered (.slave cfg) suid conn.log.length c := by
    by_contra hn
    have hnone := (decode_unanswered (.slave cfg) suid sizes conn hn).1
    rw [hlog, replies_append, hr] at hnone
    have hlen := congrArg List.length hnone
    rw [List.length_append, List.map_singleton, List.length_singleton] at hlen
    omega
  obtain ⟨result, hg⟩ := Option.isSome_iff_exists.mp hreturns.2
  obtain ⟨handled', r', -, hr', hcarries, -, -, hlog'⟩ :=
    decode_carries (.slave cfg) suid sizes conn ha hg
  obtain rfl : handled = handled' :=
    List.singleton_inj.mp (List.append_cancel_left (hlog.symm.trans hlog'))
  obtain rfl : r = r' := List.singleton_inj.mp (hr.symm.trans hr')
  obtain ⟨hrecv, hdata⟩ := delivered_of_carries hcarries (fits c.feature) hc
  refine ⟨conn.log.length, result, result', hg, hgetter, ?_, ?_⟩
  · rw [hbuf, hrecv]
    rfl
  · rw [hblock, hdata]
    split
    · next he => exact he.symm
    · rfl

/-- What a client of the daemon gets of a feature that the set-id server serves, if the daemon's own
call for it returns with its own reply: the bytes of the structure and the block that the getter of
the set-id server left, called with the arguments of the client but for the limit of `proc_args`,
whatever the two handlers were asked before and however the bytes are cut into reads on either
connection. -/
theorem relayed_whole (cfg : SuidConfig) (sizes : Feature → Nat)
    (fits : ∀ f, sizes f ≤ abi.unionSize) (suid daemon : Host abi) (c : Call)
    (hp : Answerable .parent abi.order c) (hs : (Handler.slave cfg).Serves c.feature)
    (conn : Connection abi)
    (asks : AsksServer cfg sizes suid daemon conn.log.length (relayedCall c)) :
    ∃ handled r, (conn.decode .parent daemon ((c.request abi (sizes c.feature)).header.store
        abi.order)).log = conn.log ++ [handled] ∧
      handled.reaction.replies = [r] ∧
      ∃ now args result, suid.getter now c.feature args = some result ∧
        ((c.feature = .ppp → abi.order = .little) → args = (relayedCall c).args) ∧
        ∀ (rest : List UInt8) (e : WriteEvent) (writes : List WriteEvent) (reads : Nat → ReadEvent),
          e.Complete sizeofCommand → Fair reads → ∃ N, ∀ n, N ≤ n → ∃ a left,
            glibtopCallL abi (c.request abi (sizes c.feature))
                ⟨r.wire ++ rest, schedule reads n, e :: writes⟩ =
              .returned a ⟨rest, left, writes⟩ ∧
            Delivered c.feature (sizes c.feature) result a := by
  have hinner : Answerable (.slave cfg) abi.order (relayedCall c) :=
    ⟨hs, by rw [length_sendBuf_relayedCall]; exact hp.2⟩
  obtain ⟨now, result, result', hg, hgetter, hbuf, hblock⟩ := asks.result fits hinner
  rw [relayedCall_feature] at hbuf hblock
  have hgetter : daemon.getter conn.log.length c.feature (Handler.parent.args daemon
      conn.log.length (parameterOf abi (c.sendBuf abi.order)) c.feature) = some result' := by
    rw [args_parent]
    exact hgetter
  obtain ⟨handled, r, -, hr, hcarries, -, -, hlog⟩ :=
    decode_carries .parent daemon sizes conn hp hgetter
  refine ⟨handled, r, hlog, hr, now, _, result, hg, fun hd ↦ args_slave cfg suid now c hd, ?_⟩
  intro rest e writes reads he fair
  obtain ⟨N, hN⟩ := returns_of_carries hcarries (fits c.feature) he fair rest writes
  refine ⟨N, fun n hn ↦ ?_⟩
  obtain ⟨a, left, hc, hrecv, hdata⟩ := hN n hn
  refine ⟨a, left, hc, ?_, ?_⟩
  · rw [hrecv, hbuf, fitted_fitted]
  · rw [hdata, blockOf_of_block hblock]

/-- The list of the processes 1 and 2, as a getter leaves it. -/
def twoProcesses : GetterResult linuxAbi where
  buf := [7, 2, 8, 4].flatMap (storeField .little)
  buf_le := by decide
  block := [1, 0, 0, 0, 2, 0, 0, 0]
  block_lt := by decide

/-- A host whose getters leave it. -/
def listingHost : Host linuxAbi :=
  { idleHost linuxAbi with getter := fun _ _ _ ↦ some twoProcesses }

/-- A request for the list of all processes. -/
def proclistCall : Call where
  feature := .proclist
  args := [.long 0, .long 0]
  typed := rfl
  valid := by simp [Arg.Valid]

/-- Such a host may be a daemon that asks another one. -/
theorem asksServer_listing : AsksServer everySuid (fun _ ↦ 32) listingHost listingHost 0
    (relayedCall proclistCall) := by
  have hcall : Answerable (.slave everySuid) linuxAbi.order (relayedCall proclistCall) :=
    ⟨⟨rfl, by decide⟩, by decide⟩
  obtain ⟨handled, r, -, hr, hcarries, -, -, hlog⟩ := decode_carries (.slave everySuid)
    listingHost (fun _ ↦ 32) (Connection.fresh linuxAbi []) hcall
    (show _ = some twoProcesses from rfl)
  have fair : Fair fun _ ↦ .ready 0 := ⟨fun _ ↦ .inl ⟨0, rfl⟩, fun i ↦ ⟨i, Nat.le_refl i, 0, rfl⟩⟩
  have fits : 32 ≤ linuxAbi.unionSize := by decide
  have whole : (WriteEvent.accepts 40).Complete sizeofCommand := ⟨40, rfl, Nat.le_refl _⟩
  obtain ⟨N, hN⟩ := returns_of_carries hcarries fits whole fair [] []
  obtain ⟨a, left, hc, hrecv, hdata⟩ := hN N (Nat.le_refl N)
  refine ⟨_, handled, r, [], _, _, a, _, twoProcesses, hlog, hr, hc, rfl, ?_, ?_⟩
  · rw [hrecv]
    rfl
  · rw [hdata]
    rfl

/-- The list travels with its block. -/
theorem relayed_whole_proclist :
    ∃ handled r, ((Connection.fresh linuxAbi []).decode .parent listingHost
        ((proclistCall.request linuxAbi 32).header.store linuxAbi.order)).log = [] ++ [handled] ∧
      handled.reaction.replies = [r] ∧
      ∃ now args result, listingHost.getter now proclistCall.feature args = some result ∧
        ((proclistCall.feature = .ppp → linuxAbi.order = .little) →
          args = (relayedCall proclistCall).args) ∧
        ∀ (rest : List UInt8) (e : WriteEvent) (writes : List WriteEvent) (reads : Nat → ReadEvent),
          e.Complete sizeofCommand → Fair reads → ∃ N, ∀ n, N ≤ n → ∃ a left,
            glibtopCallL linuxAbi (proclistCall.request linuxAbi 32)
                ⟨r.wire ++ rest, schedule reads n, e :: writes⟩ =
              .returned a ⟨rest, left, writes⟩ ∧
            Delivered proclistCall.feature 32 result a :=
  relayed_whole everySuid (fun _ ↦ 32) (fun _ ↦ by decide) listingHost listingHost proclistCall
    ⟨by decide, by decide⟩ ⟨rfl, by decide⟩ (Connection.fresh linuxAbi []) asksServer_listing

end LibGTop.Protocol
