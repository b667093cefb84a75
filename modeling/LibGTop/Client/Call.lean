import LibGTop.Base.Transfers
import LibGTop.Wire.Features
import LibGTop.Wire.Messages

/-!
# Calls of the client

`glibtop_write_l` (`lib/write.c`), `glibtop_read_l` (`lib/read.c`) and
`glibtop_call_l` (`lib/command.c`) on an initialised handle, whose nested
`glibtop_init_r` calls return at once. A call that runs into
`glibtop_error_io_r` ends the process, so it has no result.
-/

namespace LibGTop.Client

open Base Wire

/-- How `glibtop_write_l` ends; `error` is `glibtop_error_io_r`, which exits. -/
inductive WriteEnd
  | returned (handed : List UInt8) (events : List WriteEvent)
  | error
  | waiting
  deriving DecidableEq, Repr

/-- The loop of `lib/write.c:45–46` and the check behind it: an interrupted call is repeated,
but a short count is not followed by a second `write`. -/
def writeLoop (buf : List UInt8) : List WriteEvent → WriteEnd
  | [] => .waiting
  | e :: events =>
    match writeOnce buf e with
    | .error true => writeLoop buf events
    | .error false => .error
    | .count handed => .returned handed events

/-- `glibtop_write_l`, `lib/write.c:30–52`. -/
def glibtopWriteL (buf : List UInt8) (events : List WriteEvent) : WriteEnd :=
  if buf = [] then .returned [] events else writeLoop buf events

/-- `glibtop_read_l`, `lib/read.c:30–56`: it retries an interrupted call and exits on end of
file or on any other failure, which is the `stopped` end. -/
def glibtopReadL (size : Nat) (pending : List UInt8) (events : List ReadEvent) : Collected :=
  if size = 0 then .full [] pending events else collect true size [] pending events

/-- The arguments of a `glibtop_call_l`. The command is one its assertion admits; `recvSize` is
absent when `recv_buf` is `NULL`. -/
structure Request where
  cmnd : Cmnd
  sendBuf : List UInt8
  sendBuf_lt : sendBuf.length < 2 ^ 64
  recvSize : Option Nat

/-- The `glibtop_command` a call builds, `lib/command.c:78–89`. -/
def Request.header (q : Request) : Command :=
  if h : q.sendBuf.length ≤ glibtopParamSize then
    { command := UInt64.ofNat q.cmnd.number
      size := UInt64.ofNat q.sendBuf.length
      dataSize := 0
      parameter := overlay (zeros glibtopParamSize) q.sendBuf
      parameter_length := by
        rw [length_overlay _ _ (by rw [length_zeros]; exact h), length_zeros] }
  else
    { command := UInt64.ofNat q.cmnd.number
      size := 0
      dataSize := UInt64.ofNat q.sendBuf.length
      parameter := zeros glibtopParamSize
      parameter_length := length_zeros _ }

/-- The buffers a call hands to `glibtop_write_l`, in order: the command and nothing else,
`lib/command.c:91`. -/
def Request.writes (abi : Abi) (q : Request) : List (List UInt8) := [q.header.store abi.order]

/-- The bytes a call puts on the wire when every write is complete. -/
def Request.wire (abi : Abi) (q : Request) : List UInt8 := (q.writes abi).flatten

/-- The client's end of a connection: the reply bytes it has not read and the schedules of its
system calls. -/
structure Io where
  pending : List UInt8
  reads : List ReadEvent
  writes : List WriteEvent

/-- What a call leaves behind: the bytes it wrote, the bytes copied to `recv_buf` and the block
it returns, absent for `NULL`. -/
structure Answer where
  sent : List UInt8
  recvBuf : Option (List UInt8)
  data : Option (List UInt8)
  deriving DecidableEq, Repr

/-- How `glibtop_call_l` ends. -/
inductive CallEnd
  | returned (answer : Answer) (io : Io)
  | error
  | waiting

/-- `glibtop_call_l`, `lib/command.c:30–111`. -/
def glibtopCallL (abi : Abi) (q : Request) (io : Io) : CallEnd :=
  match glibtopWriteL (q.header.store abi.order) io.writes with
  | .waiting => .waiting
  | .error => .error
  | .returned sent writes =>
    match glibtopReadL (sizeofResponse abi) io.pending io.reads with
    | .waiting _ _ => .waiting
    | .stopped _ _ _ => .error
    | .full response pending reads =>
      let offset := loadField abi.order response 0
      let dataSize := loadField abi.order response 16
      let recvBuf := q.recvSize.map fun size ↦ slice response offset.toNat size
      if dataSize ≠ 0 then
        match glibtopReadL dataSize.toNat pending reads with
        | .waiting _ _ => .waiting
        | .stopped _ _ _ => .error
        | .full data pending reads =>
          .returned ⟨sent, recvBuf, some data⟩ ⟨pending, reads, writes⟩
      else .returned ⟨sent, recvBuf, none⟩ ⟨pending, reads, writes⟩

/-- Calls made one after the other on a connection; `none` when one of them does not return. -/
def callAll (abi : Abi) : List Request → Io → Option (List Answer × Io)
  | [], io => some ([], io)
  | q :: requests, io =>
    match glibtopCallL abi q io with
    | .returned answer io' =>
      (callAll abi requests io').map fun result ↦ (answer :: result.1, result.2)
    | _ => none

/-- A write that takes the whole buffer returns at once. -/
theorem glibtopWriteL_complete (buf : List UInt8) (e : WriteEvent) (events : List WriteEvent)
    (hb : buf ≠ []) (h : e.Complete buf.length) :
    glibtopWriteL buf (e :: events) = .returned buf events := by
  simp [glibtopWriteL, hb, writeLoop, (writeOnce_eq_count_iff buf e).mpr h]

/-- On a schedule that only cuts calls short or interrupts them, `glibtop_read_l` reads exactly
the next bytes. -/
theorem glibtopReadL_full (size : Nat) (bytes rest : List UInt8) (events : List ReadEvent)
    (hl : bytes.length = size) (hb : ∀ e ∈ events, Benign true e)
    (hd : size ≤ deliveries events) :
    ∃ left, glibtopReadL size (bytes ++ rest) events = .full bytes rest left ∧
      (∀ e ∈ left, Benign true e) ∧ deliveries events ≤ deliveries left + size := by
  unfold glibtopReadL
  split
  · next hs =>
    obtain rfl := List.length_eq_zero_iff.mp (hl.trans hs)
    exact ⟨events, rfl, hb, by omega⟩
  · next hs =>
    obtain ⟨left, he, hm, hc⟩ := collect_full true size [] (bytes ++ rest) events hb
      (by simpa using Nat.pos_of_ne_zero hs) (by simp; omega) (by simpa using hd)
    refine ⟨left, ?_, fun e hx ↦ hb e (hm e hx), by simpa using hc⟩
    rw [he]
    simp [← hl]

/-- The command number a request carries is its command's. -/
theorem Request.toNat_header_command (q : Request) :
    q.header.command.toNat = q.cmnd.number := by
  have hn : q.cmnd.number < 2 ^ 64 := by
    cases q.cmnd with
    | get f => exact Nat.lt_trans f.cmnd_lt (by decide)
    | _ => decide
  unfold header
  split <;> exact UInt64.toNat_ofNat_of_lt' hn

/-- A payload that fits is carried inside the command. -/
theorem Request.header_of_le (q : Request) (h : q.sendBuf.length ≤ glibtopParamSize) :
    q.header.dataSize = 0 ∧ q.header.size.toNat = q.sendBuf.length ∧
      q.header.parameter = q.sendBuf ++ zeros (glibtopParamSize - q.sendBuf.length) := by
  simp only [header, dif_pos h, overlay_zeros, true_and, and_true]
  exact UInt64.toNat_ofNat_of_lt' q.sendBuf_lt

/-- A payload that does not fit is only announced. -/
theorem Request.header_of_gt (q : Request) (h : glibtopParamSize < q.sendBuf.length) :
    q.header.size = 0 ∧ q.header.dataSize.toNat = q.sendBuf.length := by
  simp only [header, dif_neg (Nat.not_le.mpr h), true_and]
  exact UInt64.toNat_ofNat_of_lt' q.sendBuf_lt

/-- A call writes exactly one command. -/
theorem Request.wire_eq (abi : Abi) (q : Request) : q.wire abi = q.header.store abi.order := by
  simp [wire, writes]

@[simp] theorem Request.length_wire (abi : Abi) (q : Request) :
    (q.wire abi).length = sizeofCommand := by
  rw [wire_eq, Command.length_store]

end LibGTop.Client
