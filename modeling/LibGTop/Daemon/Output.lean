import LibGTop.Base.Transfers
import LibGTop.Wire.Messages

/-!
# Replies of the daemon

`do_output` (`src/daemon/io.c:26–55`): one call for the response and, when there
is a data block, one for the block. Descriptor 0 stands for the pipe, on which
the daemon answers with `write` to descriptor 1; any other one is a socket, on
which it uses `send`.
-/

namespace LibGTop.Daemon

open Base Wire

/-- What a part of `do_output` did: the bytes it handed to the descriptor and the texts it
passed to `glibtop_warn_io`. -/
structure Output where
  handed : List UInt8
  warnings : List String
  deriving DecidableEq, Repr

/-- The first call, `src/daemon/io.c:35–41`. -/
def outputResponse (s : Nat) (image : List UInt8) (e : WriteEvent) : Output :=
  match writeOnce image e with
  | .count bytes => ⟨bytes, []⟩
  | .error _ => ⟨[], [if s = 0 then "write" else "send"]⟩

/-- The second call, `src/daemon/io.c:46–53`. On a socket its result is dropped: the condition
reads `send (...) , 0`, whose value is the zero behind the comma. -/
def outputData (s : Nat) (data : List UInt8) (e : WriteEvent) : Output :=
  match writeOnce data e with
  | .count bytes => ⟨bytes, []⟩
  | .error _ => ⟨[], if s = 0 then ["write"] else []⟩

variable {abi : Abi}

/-- `do_output`, `src/daemon/io.c:26–55`; `none` while a call blocks. -/
def doOutput (s : Nat) (r : Reply abi) : List WriteEvent → Option Output
  | [] => none
  | e :: events =>
    let first := outputResponse s r.sent.store e
    if r.sent.dataSize ≠ 0 then
      match events with
      | [] => none
      | e' :: _ =>
        let second := outputData s r.data e'
        some ⟨first.handed ++ second.handed, first.warnings ++ second.warnings⟩
    else some first

/-- The data size is zero exactly when there is no block. -/
theorem dataSize_eq_zero_iff (r : Reply abi) : r.sent.dataSize = 0 ↔ r.data = [] := by
  rw [← UInt64.toNat_inj, r.toNat_dataSize]
  exact List.length_eq_zero_iff

/-- With complete calls the whole reply is handed over and nothing is reported. -/
theorem doOutput_complete (s : Nat) (r : Reply abi) (e e' : WriteEvent) (events : List WriteEvent)
    (h : e.Complete (sizeofResponse abi)) (h' : e'.Complete r.data.length) :
    doOutput s r (e :: e' :: events) = some ⟨r.wire, []⟩ := by
  have hr : writeOnce r.sent.store e = .count r.sent.store :=
    (writeOnce_eq_count_iff _ _).mpr (by simpa using h)
  have hd : writeOnce r.data e' = .count r.data := (writeOnce_eq_count_iff _ _).mpr h'
  simp only [doOutput, outputResponse, outputData, hr, hd, Reply.wire, List.append_nil, ne_eq,
    dataSize_eq_zero_iff, ite_not]
  split
  · next he => simp [he]
  · rfl

end LibGTop.Daemon
