import LibGTop.Base.Buffers
import LibGTop.Base.Schedules

/-!
# Transfers over a byte stream

A descriptor delivers the bytes its peer wrote in pieces, and a call may be
interrupted or fail. `ReadEvent` is what the next `read` of a schedule does,
`WriteEvent` what the next `write` does; a schedule is the list of them. The
loops that collect an exact number of bytes differ only in whether they retry
an interrupted call, so they share their turn and their laws.
-/

namespace LibGTop.Base

/-- What one `read` of a schedule does when it is made. -/
inductive ReadEvent
  | interrupted
  | failed
  | ended
  /-- At most `extra + 1` bytes are ready: a positive count, possibly short. -/
  | ready (extra : Nat)
  deriving DecidableEq, Repr

/-- What a `read` returns: a positive count of bytes, zero, or minus one. -/
inductive ReadResult
  | count (bytes : List UInt8)
  | zero
  | error (interrupted : Bool)
  deriving DecidableEq, Repr

/-- The bytes a `read` stored. -/
def ReadResult.bytes : ReadResult → List UInt8
  | count bytes => bytes
  | zero => []
  | error _ => []

/-- One `read` of at most `want` bytes from the pending ones; `none` while it blocks. -/
def readOnce (want : Nat) (pending : List UInt8) : ReadEvent → Option (ReadResult × List UInt8)
  | .interrupted => some (.error true, pending)
  | .failed => some (.error false, pending)
  | .ended => some (.zero, pending)
  | .ready extra =>
    if pending = [] then none
    else
      some (.count (pending.take (min (extra + 1) want)), pending.drop (min (extra + 1) want))

/-- How one turn of a loop that collects an exact number of bytes ends. -/
inductive Turn
  | again (got : List UInt8)
  | full (got : List UInt8)
  | stopped
  deriving DecidableEq, Repr

/-- One turn of such a loop; `retry` says whether it repeats an interrupted call. -/
def exactTurn (retry : Bool) (want : Nat) (got : List UInt8) : ReadResult → Turn
  | .count bytes =>
    if (got ++ bytes).length < want then .again (got ++ bytes) else .full (got ++ bytes)
  | .zero => .stopped
  | .error interrupted => if retry && interrupted then .again got else .stopped

/-- How a whole loop ends on a schedule: all bytes, a reported failure, or still waiting. -/
inductive Collected
  | full (bytes pending : List UInt8) (events : List ReadEvent)
  | stopped (got pending : List UInt8) (events : List ReadEvent)
  | waiting (got pending : List UInt8)
  deriving DecidableEq, Repr

/-- The loop that collects `want` bytes, turn by turn over a schedule. -/
def collect (retry : Bool) (want : Nat) (got pending : List UInt8) : List ReadEvent → Collected
  | [] => .waiting got pending
  | e :: events =>
    match readOnce (want - got.length) pending e with
    | none => .waiting got pending
    | some (result, pending') =>
      match exactTurn retry want got result with
      | .again got' => collect retry want got' pending' events
      | .full got' => .full got' pending' events
      | .stopped => .stopped got pending' events

/-- An event after which a loop goes on: bytes, or an interruption the loop retries. -/
def Benign (retry : Bool) (e : ReadEvent) : Prop :=
  (∃ extra, e = .ready extra) ∨ (retry = true ∧ e = .interrupted)

/-- The number of calls of a schedule that deliver bytes. -/
def deliveries (events : List ReadEvent) : Nat :=
  events.countP fun | .ready _ => true | _ => false

@[simp] theorem deliveries_nil : deliveries [] = 0 := rfl

@[simp] theorem deliveries_ready (extra : Nat) (events : List ReadEvent) :
    deliveries (.ready extra :: events) = deliveries events + 1 :=
  List.countP_cons_of_pos rfl

@[simp] theorem deliveries_interrupted (events : List ReadEvent) :
    deliveries (.interrupted :: events) = deliveries events :=
  List.countP_cons_of_neg (by simp)

/-- A `read` that delivers takes a positive number of bytes, at most those asked for. -/
theorem readOnce_ready (want extra : Nat) (pending : List UInt8) (hw : 0 < want)
    (hp : pending ≠ []) :
    ∃ bytes rest, readOnce want pending (.ready extra) = some (.count bytes, rest) ∧
      pending = bytes ++ rest ∧ bytes ≠ [] ∧ bytes.length ≤ want := by
  refine ⟨_, _, by rw [readOnce, if_neg hp], (List.take_append_drop _ _).symm, ?_, ?_⟩
  · have hl := List.length_pos_iff.mpr hp
    apply List.ne_nil_of_length_pos
    rw [List.length_take]
    omega
  · rw [List.length_take]
    omega

theorem exactTurn_of_lt (retry : Bool) {want : Nat} {got piece : List UInt8}
    (h : (got ++ piece).length < want) :
    exactTurn retry want got (.count piece) = .again (got ++ piece) := if_pos h

theorem exactTurn_of_le (retry : Bool) {want : Nat} {got piece : List UInt8}
    (h : want ≤ (got ++ piece).length) :
    exactTurn retry want got (.count piece) = .full (got ++ piece) := if_neg (Nat.not_lt.mpr h)

/-- What one turn can do while the loop still wants bytes: it blocks on an empty stream, takes a
piece that fits, or learns of an interruption, an error or the end. -/
theorem turn_cases {want : Nat} {got pending : List UInt8} (e : ReadEvent)
    (hg : got.length < want) :
    (readOnce (want - got.length) pending e = none ∧ pending = [] ∧ ∃ extra, e = .ready extra) ∨
    (∃ piece rest, readOnce (want - got.length) pending e = some (.count piece, rest) ∧
      pending = piece ++ rest ∧ piece ≠ [] ∧ (got ++ piece).length ≤ want ∧
      ∃ extra, e = .ready extra) ∨
    (∃ result, readOnce (want - got.length) pending e = some (result, pending) ∧
      result.bytes = [] ∧ exactTurn false want got result = .stopped ∧
      ∀ extra, e ≠ .ready extra) := by
  cases e with
  | ready extra =>
    by_cases hp : pending = []
    · exact Or.inl ⟨by rw [readOnce, if_pos hp], hp, extra, rfl⟩
    · obtain ⟨piece, rest, hr, hs, hn, hl⟩ :=
        readOnce_ready (want - got.length) extra pending (by omega) hp
      refine Or.inr (Or.inl ⟨piece, rest, hr, hs, hn, ?_, extra, rfl⟩)
      rw [List.length_append]
      omega
  | _ => exact Or.inr (Or.inr ⟨_, rfl, rfl, rfl, by simp⟩)

/-- On a benign schedule with enough deliveries the loop collects exactly the next bytes. -/
theorem collect_full (retry : Bool) (want : Nat) (got pending : List UInt8)
    (events : List ReadEvent) (hb : ∀ e ∈ events, Benign retry e) (hg : got.length < want)
    (hp : want - got.length ≤ pending.length) (hd : want - got.length ≤ deliveries events) :
    ∃ left, collect retry want got pending events =
        .full (got ++ pending.take (want - got.length)) (pending.drop (want - got.length)) left ∧
      (∀ e ∈ left, e ∈ events) ∧ deliveries events ≤ deliveries left + (want - got.length) := by
  induction events generalizing got pending with
  | nil => simp at hd; omega
  | cons e events ih =>
    have hb' : ∀ e ∈ events, Benign retry e := fun e' he ↦ hb e' (List.mem_cons_of_mem _ he)
    rcases hb e List.mem_cons_self with ⟨extra, rfl⟩ | ⟨rfl, rfl⟩
    · have hne : pending ≠ [] := by
        apply List.ne_nil_of_length_pos
        omega
      obtain ⟨bytes, rest, hr, rfl, hn, hl⟩ :=
        readOnce_ready (want - got.length) extra pending (by omega) hne
      have hpos := List.length_pos_iff.mpr hn
      simp only [collect, hr, exactTurn]
      rw [deliveries_ready] at hd ⊢
      by_cases hlt : (got ++ bytes).length < want
      · have hlen : want - (got ++ bytes).length = want - got.length - bytes.length := by
          rw [List.length_append]
          omega
        obtain ⟨left, he, hm, hc⟩ := ih (got ++ bytes) rest hb' hlt
          (by rw [List.length_append] at hp; omega) (by omega)
        refine ⟨left, ?_, fun e' hx ↦ List.mem_cons_of_mem _ (hm e' hx), by omega⟩
        simp only [if_pos hlt, he, hlen, List.append_assoc, List.take_append, List.drop_append,
          List.take_of_length_le hl, List.drop_of_length_le hl, List.nil_append]
      · have hlen : want - got.length = bytes.length := by
          rw [List.length_append] at hlt
          omega
        refine ⟨events, ?_, fun e' hx ↦ List.mem_cons_of_mem _ hx, by omega⟩
        rw [if_neg hlt]
        simp [hlen]
    · rw [deliveries_interrupted] at hd ⊢
      obtain ⟨left, he, hm, hc⟩ := ih got pending hb' hg hp hd
      exact ⟨left, by simpa [collect, readOnce, exactTurn] using he,
        fun e' hx ↦ List.mem_cons_of_mem _ (hm e' hx), hc⟩

/-- What the loop returns with all bytes are the next ones, whatever the schedule. -/
theorem collect_eq_full {retry : Bool} {want : Nat} {got pending bytes rest : List UInt8}
    {events left : List ReadEvent} (hg : got.length ≤ want)
    (h : collect retry want got pending events = .full bytes rest left) :
    bytes ++ rest = got ++ pending ∧ bytes.length = want := by
  induction events generalizing got pending with
  | nil => exact absurd h nofun
  | cons e events ih =>
    cases e with
    | ready extra =>
      by_cases hp : pending = []
      · rw [collect, readOnce, if_pos hp] at h
        exact absurd h nofun
      · rw [collect, readOnce, if_neg hp] at h
        have hpiece : (got ++ pending.take (min (extra + 1) (want - got.length))).length ≤ want := by
          rw [List.length_append, List.length_take]
          omega
        by_cases hl : (got ++ pending.take (min (extra + 1) (want - got.length))).length < want
        · simp only [exactTurn_of_lt retry hl] at h
          obtain ⟨hb, hn⟩ := ih hpiece h
          refine ⟨?_, hn⟩
          rw [hb, List.append_assoc, List.take_append_drop]
        · simp only [exactTurn_of_le retry (Nat.not_lt.mp hl), Collected.full.injEq] at h
          obtain ⟨rfl, rfl, -⟩ := h
          refine ⟨?_, Nat.le_antisymm hpiece (Nat.not_lt.mp hl)⟩
          rw [List.append_assoc, List.take_append_drop]
    | interrupted =>
      cases retry with
      | true => exact ih hg h
      | false => simp [collect, readOnce, exactTurn] at h
    | _ => simp [collect, readOnce, exactTurn] at h

/-- The first calls of an endless schedule. -/
def schedule (events : Nat → ReadEvent) (n : Nat) : List ReadEvent := (List.range n).map events

/-- An endless schedule on which calls are only cut short or interrupted, and on which bytes
are delivered again and again. -/
structure Fair (events : Nat → ReadEvent) : Prop where
  benign : ∀ i, Benign true (events i)
  delivers : ∀ i, ∃ j, i ≤ j ∧ ∃ extra, events j = .ready extra

/-- A fair schedule delivers any number of times. -/
theorem Fair.deliveries_unbounded {events : Nat → ReadEvent} (fair : Fair events) (count : Nat) :
    ∃ n, ∀ m, n ≤ m → count ≤ deliveries (schedule events m) := by
  refine exists_le_countP_firstCalls _ (fun i ↦ ?_) count
  obtain ⟨j, hj, extra, he⟩ := fair.delivers i
  exact ⟨j, hj, by rw [he]⟩

/-- Every call of a prefix of a fair schedule is benign. -/
theorem Fair.benign_schedule {events : Nat → ReadEvent} (fair : Fair events) (n : Nat) :
    ∀ e ∈ schedule events n, Benign true e := by
  intro e he
  obtain ⟨i, rfl⟩ := exists_of_mem_firstCalls he
  exact fair.benign i

/-- What one `write` of a schedule does when it is made. -/
inductive WriteEvent
  | interrupted
  | failed
  /-- The call accepts at most `limit` bytes. -/
  | accepts (limit : Nat)
  deriving DecidableEq, Repr

/-- What a `write` of a buffer returns: the bytes it handed over, or minus one. -/
inductive WriteResult
  | count (bytes : List UInt8)
  | error (interrupted : Bool)
  deriving DecidableEq, Repr

/-- One `write` of a buffer. -/
def writeOnce (buffer : List UInt8) : WriteEvent → WriteResult
  | .interrupted => .error true
  | .failed => .error false
  | .accepts limit => .count (buffer.take limit)

/-- The call takes the whole of a buffer of this length. -/
def WriteEvent.Complete (e : WriteEvent) (length : Nat) : Prop :=
  ∃ limit, e = .accepts limit ∧ length ≤ limit

instance (e : WriteEvent) (length : Nat) : Decidable (e.Complete length) :=
  match e with
  | .interrupted => isFalse (by rintro ⟨_, h, _⟩; cases h)
  | .failed => isFalse (by rintro ⟨_, h, _⟩; cases h)
  | .accepts limit => decidable_of_iff (length ≤ limit) (by simp [WriteEvent.Complete])

/-- The call returns minus one. -/
def WriteEvent.Fails (e : WriteEvent) : Prop := e = .interrupted ∨ e = .failed

instance (e : WriteEvent) : Decidable e.Fails := inferInstanceAs (Decidable (_ ∨ _))

/-- A call hands over the whole buffer exactly when it is complete. -/
theorem writeOnce_eq_count_iff (buffer : List UInt8) (e : WriteEvent) :
    writeOnce buffer e = .count buffer ↔ e.Complete buffer.length := by
  cases e with
  | accepts limit =>
    simp only [writeOnce, WriteResult.count.injEq, WriteEvent.Complete, WriteEvent.accepts.injEq,
      exists_eq_left']
    constructor
    · intro h
      have hl := congrArg List.length h
      rw [List.length_take] at hl
      omega
    · exact List.take_of_length_le
  | _ => simp [writeOnce, WriteEvent.Complete]

end LibGTop.Base
