import LibGTop.Base.Schedules

/-!
# Reads of a file into a region

A `read` of a file hands over the bytes at its position, at most as many as it is
asked for and possibly fewer, and none only at the end of the file; or it fails
and says why. A schedule is the list of what the calls do. `gather` is what a
loop comes to that fills a region with the calls of a schedule and makes an
interrupted call again.
-/

namespace LibGTop.Base

/-- `SSIZE_MAX`: no call hands over more bytes. -/
def ssizeMax : Nat := 0x7fffffffffffffff

theorem ssizeMax_pos : 0 < ssizeMax := by decide

/-- `EINTR`. -/
def eintr : Nat := 4

/-- What one `read` of a file does when it is made. -/
inductive ReadCall
  /-- It hands over at most `extra + 1` of the bytes that are left: a positive count, possibly
  short, or zero at the end of the file. -/
  | served (extra : Fin ssizeMax)
  | failed (errno : Nat)
  deriving DecidableEq, Repr

namespace ReadCall

/-- The bytes a call hands over of those that are left. -/
def handed (want : Nat) (rest : List UInt8) (extra : Fin ssizeMax) : List UInt8 :=
  rest.take (min (extra.val + 1) want)

/-- What a call returns: the count of the bytes it stored, or minus one and the error. -/
structure Result where
  nread : Int
  errno : Nat
  bytes : List UInt8

/-- One call for at most `want` of the bytes that are left. -/
def result (want : Nat) (rest : List UInt8) : ReadCall → Result
  | served extra => ⟨(handed want rest extra).length, 0, handed want rest extra⟩
  | failed errno => ⟨-1, errno, []⟩

/-- The call was interrupted. -/
def Interrupted (call : ReadCall) : Prop := call = failed eintr

instance decidableInterrupted (call : ReadCall) : Decidable call.Interrupted :=
  inferInstanceAs (Decidable (_ = _))

/-- The bytes a call would hand over of a file and to a region that are long enough. -/
def offer : ReadCall → Nat
  | served extra => extra.val + 1
  | failed _ => 0

theorem length_handed (want : Nat) (rest : List UInt8) (extra : Fin ssizeMax) :
    (handed want rest extra).length = min (min (extra.val + 1) want) rest.length :=
  List.length_take

/-- Nothing is handed over exactly at the end of the file. -/
theorem handed_eq_nil_iff {want : Nat} (h : 0 < want) (rest : List UInt8) (extra : Fin ssizeMax) :
    handed want rest extra = [] ↔ rest = [] := by
  rw [← List.length_eq_zero_iff, ← List.length_eq_zero_iff (l := rest), length_handed]
  omega

/-- What is handed over and what is left are what was left. -/
theorem handed_append_drop (want : Nat) (rest : List UInt8) (extra : Fin ssizeMax) :
    handed want rest extra ++ rest.drop (handed want rest extra).length = rest :=
  List.prefix_iff_eq_append.mp (List.take_prefix _ _)

/-- What is asked for is what is handed over and what is to be asked for next. -/
theorem take_eq_handed_append (want : Nat) (rest : List UInt8) (extra : Fin ssizeMax) :
    rest.take want = handed want rest extra ++
      (rest.drop (handed want rest extra).length).take
        (want - (handed want rest extra).length) := by
  have hle : (handed want rest extra).length ≤ want := by
    rw [length_handed]
    omega
  conv_lhs => rw [← handed_append_drop want rest extra]
  rw [List.take_append, List.take_of_length_le hle]

/-- A call never stores more than it is asked for. -/
theorem length_bytes_result_le (call : ReadCall) (want : Nat) (rest : List UInt8) :
    (call.result want rest).bytes.length ≤ want := by
  cases call with
  | served extra =>
    rw [result, length_handed]
    omega
  | failed errno => exact Nat.zero_le want

end ReadCall

/-- How filling a region ends: with the bytes it has, with a failure, or not yet. -/
inductive Gathered
  | complete (bytes : List UInt8)
  | failed (bytes : List UInt8)
  | waiting
  deriving DecidableEq, Repr

/-- The calls that fill a region of `want` bytes, of which `got` are there. -/
def gather (want : Nat) (got rest : List UInt8) : List ReadCall → Gathered
  | [] => if got.length < want then .waiting else .complete got
  | call :: calls =>
    if got.length < want then
      match call with
      | .failed errno => if errno = eintr then gather want got rest calls else .failed got
      | .served extra =>
        if ReadCall.handed (want - got.length) rest extra = [] then .complete got
        else
          gather want (got ++ ReadCall.handed (want - got.length) rest extra)
            (rest.drop (ReadCall.handed (want - got.length) rest extra).length) calls
    else .complete got

/-- What the calls of a schedule would hand over altogether. -/
def offered : List ReadCall → Nat
  | [] => 0
  | call :: calls => call.offer + offered calls

@[simp] theorem offered_nil : offered [] = 0 := rfl

@[simp] theorem offered_cons (call : ReadCall) (calls : List ReadCall) :
    offered (call :: calls) = call.offer + offered calls := rfl

/-- The number of calls that are not interrupted. -/
def uninterrupted (calls : List ReadCall) : Nat := calls.countP fun call ↦ ¬call.Interrupted

/-- A call of the schedule fails, not because it is interrupted, while the region still has room and
no call before it has found the end of the file. -/
def ReadFails (room : Nat) (rest : List UInt8) (calls : List ReadCall) : Prop :=
  ∃ i errno, calls[i]? = some (.failed errno) ∧ errno ≠ eintr ∧
    min rest.length (offered (calls.take i)) < room ∧
    ∀ j < i, ∀ extra, calls[j]? = some (.served extra) → offered (calls.take j) < rest.length

/-- A region that is complete has the next bytes of the file, as many as it has room for. -/
theorem gather_complete {want : Nat} {got rest bytes : List UInt8} {calls : List ReadCall}
    (h : gather want got rest calls = .complete bytes) :
    bytes = got ++ rest.take (want - got.length) := by
  fun_induction gather want got rest calls with
  | case1 got rest hlt => exact absurd h nofun
  | case2 got rest hlt | case7 got rest call calls hlt =>
    rw [← Gathered.complete.inj h, Nat.sub_eq_zero_of_le (Nat.not_lt.mp hlt), List.take_zero,
      List.append_nil]
  | case3 got rest calls hlt ih => exact ih h
  | case4 got rest calls hlt errno he => exact absurd h nofun
  | case5 got rest calls hlt extra hpiece =>
    rw [(ReadCall.handed_eq_nil_iff (by omega) rest extra).mp hpiece, List.take_nil,
      List.append_nil]
    exact (Gathered.complete.inj h).symm
  | case6 got rest calls hlt extra hpiece ih =>
    rw [ih h, List.append_assoc, ReadCall.take_eq_handed_append _ rest extra, List.length_append,
      Nat.sub_add_eq]

/-- While a loop waits for a call, each call that was not interrupted has filled some of the
region. -/
theorem gather_waiting {want : Nat} {got rest : List UInt8} {calls : List ReadCall}
    (h : gather want got rest calls = .waiting) : got.length + uninterrupted calls < want := by
  fun_induction gather want got rest calls with
  | case1 got rest hlt => exact hlt
  | case2 got rest hlt | case4 got rest calls hlt errno he | case7 got rest call calls hlt =>
    exact absurd h nofun
  | case3 got rest calls hlt ih =>
    have hi : uninterrupted (.failed eintr :: calls) = uninterrupted calls :=
      List.countP_cons_of_neg (by decide)
    rw [hi]
    exact ih h
  | case5 got rest calls hlt extra hpiece => exact absurd h nofun
  | case6 got rest calls hlt extra hpiece ih =>
    have hserved : uninterrupted (.served extra :: calls) = uninterrupted calls + 1 :=
      List.countP_cons_of_pos (by simp [ReadCall.Interrupted])
    have hpos := List.length_pos_iff.mpr hpiece
    have hw := ih h
    rw [List.length_append] at hw
    omega

/-- The call that fails is the first one, or one of those behind it. -/
theorem readFails_cons_iff (room : Nat) (rest : List UInt8) (call : ReadCall)
    (calls : List ReadCall) :
    ReadFails room rest (call :: calls) ↔
      (∃ errno, call = .failed errno ∧ errno ≠ eintr ∧ 0 < room) ∨
      (∀ extra, call = .served extra → rest ≠ []) ∧
      ∃ i errno, calls[i]? = some (.failed errno) ∧ errno ≠ eintr ∧
        min rest.length (call.offer + offered (calls.take i)) < room ∧
        ∀ j < i, ∀ extra, calls[j]? = some (.served extra) →
          call.offer + offered (calls.take j) < rest.length := by
  constructor
  · rintro ⟨i, errno, hi, he, hroom, hend⟩
    cases i with
    | zero =>
      rw [List.take_zero, offered_nil, Nat.min_zero] at hroom
      exact .inl ⟨errno, Option.some.inj hi, he, hroom⟩
    | succ i =>
      refine .inr ⟨?_, i, errno, hi, he, ?_, ?_⟩
      · rintro extra rfl
        exact List.ne_nil_of_length_pos (hend 0 (Nat.succ_pos i) extra rfl)
      · rwa [List.take_succ_cons, offered_cons] at hroom
      · intro j hj extra hs
        have hlt := hend (j + 1) (Nat.succ_lt_succ hj) extra hs
        rwa [List.take_succ_cons, offered_cons] at hlt
  · rintro (⟨errno, rfl, he, hroom⟩ | ⟨hfirst, i, errno, hi, he, hroom, hend⟩)
    · refine ⟨0, errno, rfl, he, ?_, fun j hj ↦ absurd hj (Nat.not_lt_zero j)⟩
      rwa [List.take_zero, offered_nil, Nat.min_zero]
    · refine ⟨i + 1, errno, hi, he, ?_, ?_⟩
      · rwa [List.take_succ_cons, offered_cons]
      · intro j hj extra hs
        cases j with
        | zero => exact List.length_pos_iff.mpr (hfirst extra (Option.some.inj hs))
        | succ j =>
          rw [List.take_succ_cons, offered_cons]
          exact hend j (Nat.lt_of_succ_lt_succ hj) extra hs

/-- What has failed is not changed by the calls behind it. -/
theorem ReadFails.append {room : Nat} {rest : List UInt8} {calls : List ReadCall}
    (h : ReadFails room rest calls) (more : List ReadCall) :
    ReadFails room rest (calls ++ more) := by
  obtain ⟨i, errno, hi, he, hroom, hend⟩ := h
  have hlt : i < calls.length := by
    by_contra hge
    rw [List.getElem?_eq_none (Nat.not_lt.mp hge)] at hi
    exact absurd hi nofun
  refine ⟨i, errno, ?_, he, ?_, fun j hj extra hs ↦ ?_⟩
  · rwa [List.getElem?_append_left hlt]
  · rwa [List.take_append_of_le_length (Nat.le_of_lt hlt)]
  · rw [List.getElem?_append_left (Nat.lt_trans hj hlt)] at hs
    rw [List.take_append_of_le_length (Nat.le_of_lt (Nat.lt_trans hj hlt))]
    exact hend j hj extra hs

theorem not_readFails_zero (rest : List UInt8) (calls : List ReadCall) :
    ¬ReadFails 0 rest calls := by
  rintro ⟨i, errno, hi, he, hroom, hend⟩
  exact Nat.not_lt_zero _ hroom

/-- An interruption changes nothing. -/
theorem readFails_interrupted (room : Nat) (rest : List UInt8) (calls : List ReadCall) :
    ReadFails room rest (.failed eintr :: calls) ↔ ReadFails room rest calls := by
  rw [readFails_cons_iff]
  simp only [ReadCall.offer, Nat.zero_add]
  constructor
  · rintro (⟨errno, he, hne, -⟩ | ⟨-, h⟩)
    · exact absurd (ReadCall.failed.inj he).symm hne
    · exact h
  · exact fun h ↦ .inr ⟨nofun, h⟩

/-- Behind the end of the file no call is made. -/
theorem not_readFails_end (room : Nat) (extra : Fin ssizeMax) (calls : List ReadCall) :
    ¬ReadFails room [] (.served extra :: calls) := by
  rw [readFails_cons_iff]
  rintro (⟨errno, he, -⟩ | ⟨hfirst, -⟩)
  · exact absurd he nofun
  · exact hfirst extra rfl rfl

/-- What a call hands over leaves the rest of the region to be filled from the rest of the file. -/
theorem readFails_served {room : Nat} {rest : List UInt8} (hr : rest ≠ []) (extra : Fin ssizeMax)
    (calls : List ReadCall) :
    ReadFails room rest (.served extra :: calls) ↔
      ReadFails (room - (ReadCall.handed room rest extra).length)
        (rest.drop (ReadCall.handed room rest extra).length) calls := by
  have hpos := List.length_pos_iff.mpr hr
  rw [readFails_cons_iff, ReadFails, ReadCall.length_handed, List.length_drop]
  simp only [ReadCall.offer]
  constructor
  · rintro (⟨errno, he, -⟩ | ⟨-, i, errno, hi, he, hroom, hend⟩)
    · exact absurd he nofun
    · refine ⟨i, errno, hi, he, by omega, fun j hj extra' hs ↦ ?_⟩
      have hlt := hend j hj extra' hs
      omega
  · rintro ⟨i, errno, hi, he, hroom, hend⟩
    refine .inr ⟨fun _ _ ↦ hr, i, errno, hi, he, by omega, fun j hj extra' hs ↦ ?_⟩
    have hlt := hend j hj extra' hs
    omega

/-- The loop stops at a failure exactly when a call fails before the end of the file is found and
before the region is full. -/
theorem gather_failed_iff (want : Nat) (got rest : List UInt8) (calls : List ReadCall) :
    (∃ bytes, gather want got rest calls = .failed bytes) ↔
      ReadFails (want - got.length) rest calls := by
  fun_induction gather want got rest calls with
  | case1 got rest hlt =>
    refine iff_of_false nofun ?_
    rintro ⟨i, errno, hi, -⟩
    exact absurd hi nofun
  | case2 got rest hlt | case7 got rest call calls hlt =>
    rw [Nat.sub_eq_zero_of_le (Nat.not_lt.mp hlt)]
    exact iff_of_false nofun (not_readFails_zero rest _)
  | case3 got rest calls hlt ih => rw [ih, readFails_interrupted]
  | case4 got rest calls hlt errno he =>
    refine iff_of_true ⟨got, rfl⟩ ((readFails_cons_iff ..).mpr (.inl ⟨errno, rfl, he, ?_⟩))
    omega
  | case5 got rest calls hlt extra hpiece =>
    obtain rfl := (ReadCall.handed_eq_nil_iff (by omega) rest extra).mp hpiece
    exact iff_of_false nofun (not_readFails_end _ extra calls)
  | case6 got rest calls hlt extra hpiece ih =>
    have hr : rest ≠ [] := fun h ↦
      hpiece ((ReadCall.handed_eq_nil_iff (by omega) rest extra).mpr h)
    rw [ih, readFails_served hr, List.length_append, Nat.sub_add_eq]

/-- Where interruptions never go on for ever, any number of calls is not interrupted. -/
theorem exists_le_uninterrupted {calls : Nat → ReadCall}
    (h : ∀ i, ∃ j, i ≤ j ∧ ¬(calls j).Interrupted) (count : Nat) :
    ∃ n, count ≤ uninterrupted (firstCalls calls n) := by
  have hkind : ∀ i, ∃ j, i ≤ j ∧ decide (¬(calls j).Interrupted) = true := fun i ↦ by
    obtain ⟨j, hj, hi⟩ := h i
    exact ⟨j, hj, decide_eq_true hi⟩
  obtain ⟨n, hn⟩ :=
    exists_le_countP_firstCalls (fun call : ReadCall ↦ ¬call.Interrupted) hkind count
  exact ⟨n, hn n (Nat.le_refl n)⟩

end LibGTop.Base
