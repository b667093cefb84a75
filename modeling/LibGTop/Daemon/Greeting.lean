import LibGTop.Daemon.Dispatch
import LibGTop.Daemon.Output
import LibGTop.Wire.Greeting

/-!
# The greeting as a server sends it

`glibtop_send_version` (`src/daemon/version.c:29–66`), the first thing either
handler does, and the answer of the handlers to the question for their features.
-/

namespace LibGTop.Daemon

open Base Wire

/-- `glibtop_send_version`: one call for the length and one for the text, on the pipe for descriptor
0 and on a socket for any other one; `none` while a call blocks. -/
def sendVersion (fd : Nat) (b : Build) : List WriteEvent → Option Output
  | e :: e' :: _ =>
    let first := outputResponse fd b.sizeField e
    let second := outputResponse fd (b.text ++ [0]) e'
    some ⟨first.handed ++ second.handed, first.warnings ++ second.warnings⟩
  | _ => none

/-- With complete calls the greeting is handed over and nothing is reported. -/
theorem sendVersion_complete (fd : Nat) (b : Build) (e e' : WriteEvent) (events : List WriteEvent)
    (h : e.Complete b.platform.sizeT) (h' : e'.Complete b.size) :
    sendVersion fd b (e :: e' :: events) = some ⟨b.greeting, []⟩ := by
  have hs : writeOnce b.sizeField e = .count b.sizeField := by
    rw [writeOnce_eq_count_iff, b.length_sizeField]
    exact h
  have ht : writeOnce (b.text ++ [0]) e' = .count (b.text ++ [0]) := by
    rw [writeOnce_eq_count_iff, List.length_append]
    exact h'
  simp only [sendVersion, outputResponse, hs, ht, List.append_nil]
  rfl

variable {abi : Abi}

/-- The `glibtop_sysdeps` a handler sends, `src/daemon/main.c:101–105` and
`src/daemon/slave.c:128–134`. -/
def Handler.sysdeps (handler : Handler) (h : Host abi) : Sysdeps :=
  match handler with
  | parent => { h.sysdeps with features := UInt64.ofBitVec glibtopSysdepsAll }
  | slave cfg =>
    let features := UInt64.ofBitVec (glibtopServerFeatures cfg)
    { h.sysdeps with features := features, flags := features ||| 1 }

/-- The reply that carries it. -/
def Handler.sysdepsReply (handler : Handler) (h : Host abi) : Reply abi :=
  bareReply { filledResponse abi ((handler.sysdeps h).store abi.order)
    (handler.sysdeps h).length_store_le with offset := offsetUnion } offsetUnion

/-- A handler asked for its features sends them and goes on. -/
theorem Handler.react_sysdeps (handler : Handler) (h : Host abi) (now : Nat)
    (parameter : List UInt8) :
    ∃ reply : Reply abi, handler.react h now Cmnd.sysdeps.number parameter =
        ⟨[.output reply], .loop⟩ ∧ reply.wire = (handler.sysdepsReply h).wire := by
  cases handler with
  | parent => exact ⟨_, rfl, rfl⟩
  | slave cfg => exact ⟨_, rfl, rfl⟩

/-- The mask lies at its place in what is sent. -/
theorem Handler.slice_sysdepsReply (handler : Handler) (h : Host abi) :
    loadField abi.order (slice (handler.sysdepsReply h).sent.store offsetUnion.toNat sizeofSysdeps)
      8 = UInt64.ofBitVec handler.features := by
  have hl : ((handler.sysdeps h).store abi.order).length = sizeofSysdeps := by
    have hr := (handler.sysdeps h).rest_length
    simp only [Sysdeps.store, List.length_append, length_storeField, hr, sizeofSysdeps]
  have hu : (handler.sysdepsReply h).sent.u =
      (handler.sysdeps h).store abi.order ++ (zeros abi.unionSize).drop sizeofSysdeps := by
    rw [← hl]
    rfl
  have hs : (handler.sysdepsReply h).sent.store =
      (storeField abi.order offsetUnion ++ (storeField abi.order 0 ++ storeField abi.order 0)) ++
        ((handler.sysdeps h).store abi.order ++ (zeros abi.unionSize).drop sizeofSysdeps) := by
    rw [Response.store, hu, List.append_assoc, List.append_assoc]
    rfl
  have hf : (handler.sysdeps h).features = UInt64.ofBitVec handler.features := by
    cases handler <;> rfl
  rw [hs, slice_append _ _ _ _ _ (by simp; rfl) hl, Sysdeps.store,
    loadField_append abi.order _ _ _ 8 (length_storeField _ _), hf]

end LibGTop.Daemon
