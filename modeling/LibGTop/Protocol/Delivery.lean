import LibGTop.Client.Call
import LibGTop.Daemon.Output
import Mathlib.Data.List.TakeDrop

/-!
# What the two writers deliver

Messages are framed by byte counts alone, so a writer must hand over a whole
message or report that it did not. `glibtop_write_l` follows an interrupted call
by another one but never a short count; `do_output` follows neither, and on a
socket it drops the result of the call for the data block.
-/

namespace LibGTop.Protocol

open Base Wire Client Daemon

/-- The first call of a schedule that is not interrupted: the one `glibtop_write_l` ends with. -/
def decisive (events : List WriteEvent) : Option WriteEvent := events.find? (· ≠ .interrupted)

/-- The call that ends `glibtop_write_l` fails or takes the whole buffer. -/
def NotShort (buf : List UInt8) (events : List WriteEvent) : Prop :=
  buf = [] ∨ ∀ e, decisive events = some e → e.Fails ∨ e.Complete buf.length

/-- The calls of a `do_output` all complete, or one of them fails that is checked: the one for
the response, or on the pipe the one for the block. -/
def NotShortNorDropped {abi : Abi} (s : Nat) (r : Reply abi) : List WriteEvent → Prop
  | [] => True
  | e :: events =>
    if r.data = [] then e.Fails ∨ e.Complete (sizeofResponse abi)
    else
      ∀ e', events.head? = some e' →
        e.Fails ∨ (s = 0 ∧ e'.Fails) ∨
          (e.Complete (sizeofResponse abi) ∧ e'.Complete r.data.length)

/-- The loop of `glibtop_write_l` ends as its decisive call does. -/
theorem writeLoop_eq (buf : List UInt8) (events : List WriteEvent) :
    (decisive events = none → writeLoop buf events = .waiting) ∧
      (decisive events = some .failed → writeLoop buf events = .error) ∧
      ∀ limit, decisive events = some (.accepts limit) →
        ∃ left, writeLoop buf events = .returned (buf.take limit) left := by
  induction events with
  | nil => simp [decisive, writeLoop]
  | cons e events ih =>
    cases e with
    | interrupted => simpa [decisive, writeLoop, writeOnce] using ih
    | failed => simp [decisive, writeLoop, writeOnce]
    | accepts limit => simp [decisive, writeLoop, writeOnce]

theorem decisive_ne_interrupted (events : List WriteEvent) :
    decisive events ≠ some .interrupted := by
  intro h
  simpa using List.find?_some h

/-- `glibtop_write_l` returns only after handing over the whole buffer exactly when the call it
ends with is not short. -/
theorem glibtopWriteL_lossless_iff (buf : List UInt8) (events : List WriteEvent) :
    (∀ handed left, glibtopWriteL buf events = .returned handed left → handed = buf) ↔
      NotShort buf events := by
  unfold glibtopWriteL NotShort
  split
  · next hb => simp [hb]
  · next hb =>
    obtain ⟨hw, hf, ha⟩ := writeLoop_eq buf events
    simp only [hb, false_or]
    cases hd : decisive events with
    | none => simp [hw hd]
    | some e =>
      cases e with
      | interrupted => exact absurd hd (decisive_ne_interrupted events)
      | failed => simp [hf hd, WriteEvent.Fails]
      | accepts limit =>
        obtain ⟨left, hr⟩ := ha limit hd
        simp [hr, WriteEvent.Fails, WriteEvent.Complete]

/-- The first call of `do_output` hands over the response or warns exactly when it is not
short. -/
private theorem outputResponse_cases (s : Nat) (image : List UInt8) (e : WriteEvent) :
    (e.Fails ∧ (outputResponse s image e).warnings ≠ []) ∨
      (¬ e.Fails ∧ (outputResponse s image e).warnings = [] ∧
        ((outputResponse s image e).handed = image ↔ e.Complete image.length) ∧
        (outputResponse s image e).handed <+: image) := by
  cases e with
  | accepts limit =>
    right
    simp [outputResponse, writeOnce, WriteEvent.Fails, WriteEvent.Complete,
      List.take_prefix]
  | _ => simp [outputResponse, writeOnce, WriteEvent.Fails]

/-- The second call warns only when it fails on the pipe, and hands over a prefix of the block. -/
private theorem outputData_cases (s : Nat) (data : List UInt8) (e : WriteEvent) (hd : data ≠ []) :
    ((outputData s data e).warnings ≠ [] ↔ s = 0 ∧ e.Fails) ∧
      ((outputData s data e).handed = data ↔ e.Complete data.length) ∧
      (outputData s data e).handed <+: data := by
  cases e with
  | accepts limit =>
    simp [outputData, writeOnce, WriteEvent.Fails, WriteEvent.Complete,
      List.take_prefix]
  | _ => simp [outputData, writeOnce, WriteEvent.Fails, WriteEvent.Complete, hd.symm]

/-- Prefixes of two lists join to the lists joined only when both are whole. -/
private theorem prefixes_eq {a b c d : List UInt8} (ha : a <+: c) (hb : b <+: d) :
    a ++ b = c ++ d ↔ a = c ∧ b = d := by
  constructor
  · intro h
    have hl := congrArg List.length h
    simp only [List.length_append] at hl
    have hac := ha.length_le
    have hbd := hb.length_le
    exact ⟨ha.eq_of_length (by omega), hb.eq_of_length (by omega)⟩
  · rintro ⟨rfl, rfl⟩
    rfl

/-- `do_output` hands over the whole reply or warns exactly when no call is short or fails
unchecked. -/
theorem doOutput_lossless_iff {abi : Abi} (s : Nat) (r : Reply abi) (events : List WriteEvent) :
    (∀ out, doOutput s r events = some out → out.handed = r.wire ∨ out.warnings ≠ []) ↔
      NotShortNorDropped s r events := by
  cases events with
  | nil => simp [doOutput, NotShortNorDropped]
  | cons e events =>
    have hr := outputResponse_cases s r.sent.store e
    rw [Response.length_store] at hr
    simp only [doOutput, ne_eq, dataSize_eq_zero_iff, NotShortNorDropped, ite_not]
    by_cases hd : r.data = []
    · have hw : r.wire = r.sent.store := by simp [Reply.wire, hd]
      simp only [hd, ↓reduceIte, Option.some.injEq, forall_eq', hw]
      rcases hr with ⟨hf, hn⟩ | ⟨hf, hn, hc, -⟩
      · simp [hf, hn]
      · simp [hf, hn, hc]
    · simp only [hd, ↓reduceIte]
      cases events with
      | nil => simp
      | cons e' events =>
        obtain ⟨hw', hc', hp'⟩ := outputData_cases s r.data e' hd
        simp only [Option.some.injEq, forall_eq', List.head?_cons, List.append_eq_nil_iff,
          Reply.wire]
        rcases hr with ⟨hf, hn⟩ | ⟨hf, hn, hc, hp⟩
        · simp [hf, hn]
        · rw [prefixes_eq hp hp', hc, hc', hn]
          simp only [true_and, hw', hf, false_or]
          exact or_comm

/-- Exactly when the writers lose no byte silently: for the client, when the call that ends
`glibtop_write_l` is not a short count; for the server, when both calls of `do_output` complete
or one of those it checks fails. -/
theorem writers_lossless_iff {abi : Abi} (buf : List UInt8) (events : List WriteEvent) (s : Nat)
    (r : Reply abi) (replyEvents : List WriteEvent) :
    ((∀ handed left, glibtopWriteL buf events = .returned handed left → handed = buf) ↔
      NotShort buf events) ∧
    ((∀ out, doOutput s r replyEvents = some out → out.handed = r.wire ∨ out.warnings ≠ []) ↔
      NotShortNorDropped s r replyEvents) :=
  ⟨glibtopWriteL_lossless_iff buf events, doOutput_lossless_iff s r replyEvents⟩

/-- An answer with a block of two bytes. -/
def blockReply : Reply linuxAbi where
  resp := ⟨0, 0, 0, zeros linuxAbi.unionSize, length_zeros _⟩
  offset := offsetUnion
  data := [1, 2]
  data_lt := by decide

/-- Bytes are lost in silence: of a command the client hands over ten bytes and returns, and of
an answer the server sends the response but not the block, without a warning. -/
theorem writers_lose_bytes :
    glibtopWriteL (zeros sizeofCommand) [.accepts 10] = .returned (zeros 10) [] ∧
      ∃ out, doOutput 5 blockReply [.accepts 70000, .failed] = some out ∧
        out.handed ≠ blockReply.wire ∧ out.warnings = [] := by
  refine ⟨by decide, ?_⟩
  have hn : ¬ NotShortNorDropped 5 blockReply [.accepts 70000, .failed] := by
    simp [NotShortNorDropped, blockReply, WriteEvent.Fails, WriteEvent.Complete]
  rw [← doOutput_lossless_iff] at hn
  push Not at hn
  obtain ⟨out, ho, hh, hw⟩ := hn
  exact ⟨out, ho, hh, hw⟩

end LibGTop.Protocol
