import LibGTop.Client.Greeting
import LibGTop.Daemon.Greeting
import LibGTop.Protocol.Framing

/-!
# Opening a server

The bytes a server sends from its start, its greeting first, and what the client
makes of them. A client and a server go on together exactly when they are one
build, however the bytes are cut into reads.
-/

namespace LibGTop.Protocol

open Base Wire Client Daemon

/-- The exchange in which a client of the same platform asks a handler for its features. -/
def sysdepsExchange {p : Platform} (handler : Handler) (h : Host p.abi) (e e' : WriteEvent)
    (he : e.Complete (sizeofResponse p.abi)) (he' : e'.Complete 0) : Exchange p.abi where
  request := sysdepsRequest
  reply := handler.sysdepsReply h
  inside := by
    intro size hs
    obtain rfl := Option.some.inj hs
    have hu := p.responseUnion_ge
    change 24 + 296 ≤ 24 + p.responseUnion
    omega
  responseWrite := e
  dataWrite := e'
  responseWrite_complete := he
  dataWrite_complete := he'

/-- A client that takes the greeting gets the mask of the handler and is left at what follows. -/
theorem openServer_same {b : Build} (handler : Handler) (h : Host b.platform.abi)
    (rest : List UInt8) {reads : List ReadEvent} (e : WriteEvent) (writes : List WriteEvent)
    (he : e.Complete sizeofCommand) (hb : ∀ e ∈ reads, Benign true e)
    (hd : b.greeting.length + (handler.sysdepsReply h).wire.length ≤ deliveries reads) :
    ∃ left, openServer b
        ⟨b.greeting ++ ((handler.sysdepsReply h).wire ++ rest), reads, e :: writes⟩ =
          .opened (UInt64.ofBitVec handler.features) ⟨rest, left, writes⟩ ∧
      (∀ e ∈ left, Benign true e) ∧
      deliveries reads ≤
        deliveries left + (b.greeting.length + (handler.sysdepsReply h).wire.length) := by
  have hg := greet_greeting b b ((handler.sysdepsReply h).wire ++ rest) hb (by omega)
  rw [if_pos rfl] at hg
  obtain ⟨left, hg, hb', hd'⟩ := hg
  let x := sysdepsExchange (p := b.platform) handler h (.accepts (sizeofResponse b.platform.abi))
    (.accepts 0) ⟨_, rfl, Nat.le_refl _⟩ ⟨_, rfl, Nat.le_refl _⟩
  obtain ⟨a, left', hc, ha, hb'', hd''⟩ := glibtopCallL_reply x rest left e writes he hb'
    (by change (handler.sysdepsReply h).wire.length ≤ deliveries left; omega)
  have hd'' : deliveries left ≤ deliveries left' + (handler.sysdepsReply h).wire.length := hd''
  refine ⟨left', ?_, hb'', by omega⟩
  have hc : glibtopCallL b.platform.abi sysdepsRequest
      ⟨(handler.sysdepsReply h).wire ++ rest, left, e :: writes⟩ =
        .returned a ⟨rest, left', writes⟩ := hc
  have hm : a.recvBuf.getD [] =
      slice (handler.sysdepsReply h).sent.store offsetUnion.toNat sizeofSysdeps := by
    rw [ha.recvBuf]
    rfl
  simp only [openServer, hg, hc, hm]
  rw [← handler.slice_sysdepsReply h]
  rfl

/-- A client and a server go on together exactly when they are one build. On what the server sends
from its start, its greeting and the answer of its handler to the question for the features, with
complete writes and on every schedule that only cuts reads short or interrupts them: a client of
the same build gets the mask of the handler, and its calls then receive their replies, each its
own; any other client ends the process on the greeting, before it has written anything. -/
theorem opened_iff_same_build (client server : Build) (handler : Handler)
    (h : Host server.platform.abi) (s now : Nat) (parameter : List UInt8)
    (exchanges : List (Exchange server.platform.abi)) (rest : List UInt8) (e e' : WriteEvent)
    (he : e.Complete server.platform.sizeT) (he' : e'.Complete server.size)
    (writes : List WriteEvent) (hw : ∀ e ∈ writes, e.Complete sizeofCommand)
    (hn : exchanges.length < writes.length) (reads : Nat → ReadEvent) (fair : Fair reads) :
    ∃ out reply, sendVersion s server [e, e'] = some out ∧
      handler.react h now Cmnd.sysdeps.number parameter = ⟨[.output reply], .loop⟩ ∧
      ∃ N, ∀ n, N ≤ n →
        let io : Io := ⟨out.handed ++ (reply.wire ++ (replyBytes s exchanges ++ rest)),
          schedule reads n, writes⟩
        if client = server then
          ∃ io' answers left writesLeft,
            openServer client io = .opened (UInt64.ofBitVec handler.features) io' ∧
            callAll server.platform.abi (exchanges.map Exchange.request) io' =
              some (answers, ⟨rest, left, writesLeft⟩) ∧
            List.Forall₂ Exchange.Received exchanges answers
        else openServer client io = .refused := by
  obtain ⟨reply, hreact, hwire⟩ := handler.react_sysdeps h now parameter
  refine ⟨_, reply, sendVersion_complete s server e e' [] he he', hreact, ?_⟩
  rw [hwire]
  obtain ⟨N, hN⟩ := fair.deliveries_unbounded (client.greeting.length + server.greeting.length +
    (handler.sysdepsReply h).wire.length + (replyBytes s exchanges).length)
  refine ⟨N, fun n hle ↦ ?_⟩
  intro io
  have hd := hN n hle
  have hb := fair.benign_schedule n
  split
  · next he =>
    subst he
    cases writes with
    | nil => exact absurd hn (Nat.not_lt_zero _)
    | cons e writes =>
      obtain ⟨left, ho, hb', hd'⟩ := openServer_same handler h (replyBytes s exchanges ++ rest) e
        writes (hw e List.mem_cons_self) hb (by omega)
      obtain ⟨answers, left', writesLeft, hc, hr⟩ := callAll_replies s exchanges rest left writes
        (fun e he ↦ hw e (List.mem_cons_of_mem _ he)) (by rw [List.length_cons] at hn; omega) hb' (by omega)
      exact ⟨_, answers, left', writesLeft, ho, hc, hr⟩
  · next he =>
    have hg := greet_greeting client server ((handler.sysdepsReply h).wire ++
      (replyBytes s exchanges ++ rest)) hb (by omega)
    rw [if_neg he] at hg
    rw [openServer]
    simp only [io, hg]

/-- A build for 64-bit Linux. -/
def linuxBuild : Build where
  platform := ⟨.little, true, linuxAbi.unionSize, linuxAbi.unionSize_ge, linuxAbi.unionSize_lt, 65624⟩
  version := ⟨[50, 46, 52, 49], by decide⟩
  serverVersion := ⟨[53], by decide⟩
  fits := by decide +kernel

/-- A client of that build, with single-byte reads and one call behind the question for the
features. -/
theorem opened_iff_same_build_linux :
    ∃ out reply, sendVersion 5 linuxBuild [.accepts 8, .accepts linuxBuild.size] = some out ∧
      Handler.parent.react (idleHost linuxBuild.platform.abi) 0 Cmnd.sysdeps.number [] =
        ⟨[.output reply], .loop⟩ ∧
      ∃ N, ∀ n, N ≤ n →
        let x := sysdepsExchange (p := linuxBuild.platform) .parent (idleHost _)
          (.accepts (sizeofResponse linuxBuild.platform.abi)) (.accepts 0)
          ⟨_, rfl, Nat.le_refl _⟩ ⟨_, rfl, Nat.le_refl _⟩
        let io : Io := ⟨out.handed ++ (reply.wire ++ (replyBytes 5 [x] ++ [])),
          schedule (fun _ ↦ .ready 0) n, [.accepts 40, .accepts 40]⟩
        if linuxBuild = linuxBuild then
          ∃ io' answers left writesLeft,
            openServer linuxBuild io = .opened (UInt64.ofBitVec Handler.parent.features) io' ∧
            callAll linuxBuild.platform.abi ([x].map Exchange.request) io' =
              some (answers, ⟨[], left, writesLeft⟩) ∧
            List.Forall₂ Exchange.Received [x] answers
        else openServer linuxBuild io = .refused :=
  opened_iff_same_build linuxBuild linuxBuild .parent (idleHost _) 5 0 [] [_] []
    (.accepts 8) (.accepts linuxBuild.size) ⟨_, rfl, by decide⟩ ⟨_, rfl, Nat.le_refl _⟩
    [.accepts 40, .accepts 40] (by simp [WriteEvent.Complete, sizeofCommand]) (by decide)
    (fun _ ↦ .ready 0) ⟨fun _ ↦ Or.inl ⟨0, rfl⟩, fun i ↦ ⟨i, Nat.le_refl i, 0, rfl⟩⟩

end LibGTop.Protocol
