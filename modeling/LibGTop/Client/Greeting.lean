import LibGTop.Client.Call
import LibGTop.Wire.Greeting

/-!
# The greeting as the client takes it

The part of `glibtop_open_l` that checks the version of a server and asks it for
its features (`lib/open.c:114–155`), on the bytes that the server sends.
-/

namespace LibGTop.Client

open Base Wire

/-- How the check of the version ends; `refused` is a `glibtop_error_r` about what was read, and
`error` one about a read. -/
inductive Greeted
  | accepted (pending : List UInt8) (reads : List ReadEvent)
  | refused
  | error
  | waiting
  deriving DecidableEq, Repr

/-- The check of the version, `lib/open.c:121–143`. The number that is read is the size of the
second read only when it is the one expected. -/
def greet (b : Build) (pending : List UInt8) (reads : List ReadEvent) : Greeted :=
  match glibtopReadL b.platform.sizeT pending reads with
  | .waiting _ _ => .waiting
  | .stopped _ _ _ => .error
  | .full nbytes pending reads =>
    if b.platform.order.load nbytes ≠ b.size then .refused
    else
      match glibtopReadL (b.platform.order.load nbytes) pending reads with
      | .waiting _ _ => .waiting
      | .stopped _ _ _ => .error
      | .full buffer pending reads =>
        if buffer ≠ b.text ++ [0] then .refused else .accepted pending reads

theorem length_nil_lt : ([] : List UInt8).length < 2 ^ 64 := by decide

/-- The request for the features, `lib/open.c:147–148`. -/
def sysdepsRequest : Request where
  cmnd := .sysdeps
  sendBuf := []
  sendBuf_lt := length_nil_lt
  recvSize := some sizeofSysdeps

/-- How opening a server that is reached ends: with the mask it sends, or not. -/
inductive ServerOpened
  | opened (features : UInt64) (io : Io)
  | refused
  | error
  | waiting

/-- What `glibtop_open_l` does with a server that is reached, `lib/open.c:116–155`. -/
def openServer (b : Build) (io : Io) : ServerOpened :=
  match greet b io.pending io.reads with
  | .waiting => .waiting
  | .error => .error
  | .refused => .refused
  | .accepted pending reads =>
    match glibtopCallL b.platform.abi sysdepsRequest { io with pending := pending, reads := reads }
    with
    | .waiting => .waiting
    | .error => .error
    | .returned answer io =>
      .opened (loadField b.platform.order (answer.recvBuf.getD []) 8) io

/-- The reads of a greeting on a schedule that delivers enough. -/
theorem greet_read (c : Build) {bytes : List UInt8} (pending : List UInt8) {reads : List ReadEvent}
    (hl : bytes.length = c.platform.sizeT) (hb : ∀ e ∈ reads, Benign true e)
    (hd : c.platform.sizeT ≤ deliveries reads) :
    ∃ left, (∀ e ∈ left, Benign true e) ∧
      deliveries reads ≤ deliveries left + c.platform.sizeT ∧
      greet c (bytes ++ pending) reads =
        if bytes ≠ c.sizeField then .refused
        else
          match glibtopReadL c.size pending left with
          | .waiting _ _ => .waiting
          | .stopped _ _ _ => .error
          | .full buffer pending reads =>
            if buffer ≠ c.text ++ [0] then .refused else .accepted pending reads := by
  obtain ⟨left, hr, hb', hd'⟩ := glibtopReadL_full c.platform.sizeT bytes pending reads hl hb hd
  refine ⟨left, hb', hd', ?_⟩
  have hw : c.size < 256 ^ c.platform.sizeT := by
    have hs := c.size_lt
    obtain h | h := c.sizeT_cases <;> rw [h] <;> omega
  have hi : c.platform.order.load bytes = c.size ↔ bytes = c.sizeField := by
    constructor
    · intro h
      rw [Build.sizeField, ← h, ByteOrder.store_load _ hl]
    · rintro rfl
      exact ByteOrder.load_store_of_lt _ _ _ hw
  rw [greet, hr]
  by_cases h : bytes = c.sizeField
  · rw [if_neg (not_not.mpr h)]
    simp only [hi.mpr h, ne_eq, not_true_eq_false, if_false]
  · simp only [h, mt hi.mp h, ne_eq, not_false_eq_true, if_true]

theorem length_greeting (b : Build) : b.greeting.length = b.platform.sizeT + b.size := by
  rw [Build.greeting, List.length_append, b.length_sizeField, List.length_append, Build.size]
  rfl

theorem length_text_zero (b : Build) : (b.text ++ [0]).length = b.size := by
  rw [List.length_append, Build.size]
  rfl

section SizeRead

variable {c b : Build} (rest : List UInt8) {left : List ReadEvent}

/-- Behind a length of the same width the client reads the text, which is that of its own build or
not. -/
theorem read_text (hsize : b.size = c.size) (hfield : b.sizeField.length = c.platform.sizeT)
    (hb : ∀ e ∈ left, Benign true e) (hd : c.size ≤ deliveries left) :
    ∃ left', glibtopReadL c.size ((b.greeting ++ rest).drop c.platform.sizeT) left =
        .full (b.text ++ [0]) rest left' ∧
      (∀ e ∈ left', Benign true e) ∧ deliveries left ≤ deliveries left' + c.size := by
  have hdrop : (b.greeting ++ rest).drop c.platform.sizeT = (b.text ++ [0]) ++ rest := by
    rw [Build.greeting, List.append_assoc, ← hfield, List.drop_left]
  rw [hdrop]
  exact glibtopReadL_full c.size (b.text ++ [0]) rest left ((length_text_zero b).trans hsize) hb hd

/-- Behind the lower half of a length the client reads the upper half first, which is not the start
of its text: that is a letter. -/
theorem read_upper_half (hz : b.sizeField = c.sizeField ++ zeros 4)
    (hsize : b.size = c.size) (hb : ∀ e ∈ left, Benign true e) (hd : c.size ≤ deliveries left) :
    ∃ buffer pending left', buffer ≠ c.text ++ [0] ∧
      glibtopReadL c.size ((b.greeting ++ rest).drop c.platform.sizeT) left =
        .full buffer pending left' := by
  have hdrop : (b.greeting ++ rest).drop c.platform.sizeT =
      (zeros 4 ++ (b.text ++ [0])).take c.size ++
        ((zeros 4 ++ (b.text ++ [0])).drop c.size ++ rest) := by
    rw [Build.greeting, List.append_assoc, hz, List.append_assoc, ← c.length_sizeField,
      List.drop_left, ← List.append_assoc (List.take _ _), List.take_append_drop]
    simp only [List.append_assoc]
  have hread : ((zeros 4 ++ (b.text ++ [0])).take c.size).length = c.size := by
    rw [List.length_take, List.length_append, length_text_zero, length_zeros]
    omega
  have hne : (zeros 4 ++ (b.text ++ [0])).take c.size ≠ c.text ++ [0] := by
    rw [c.text_eq, Build.size]
    intro h
    exact absurd (List.cons.inj h).1 (by decide)
  obtain ⟨left', hr, -, -⟩ := glibtopReadL_full c.size _
    ((zeros 4 ++ (b.text ++ [0])).drop c.size ++ rest) left hread hb hd
  exact ⟨_, _, left', hne, hdrop ▸ hr⟩

end SizeRead

/-- A client takes the greeting of a build that is the same as its own, and no other one's: neither
that of another version nor that of a platform on which a structure has another size or a number
lies in memory in another way. -/
theorem greet_greeting (c b : Build) (rest : List UInt8) {reads : List ReadEvent}
    (hb : ∀ e ∈ reads, Benign true e) (hd : c.greeting.length ≤ deliveries reads) :
    if c = b then
      ∃ left, greet c (b.greeting ++ rest) reads = .accepted rest left ∧
        (∀ e ∈ left, Benign true e) ∧
        deliveries reads ≤ deliveries left + c.greeting.length
    else greet c (b.greeting ++ rest) reads = .refused := by
  have hcl := length_greeting c
  have hlong : c.platform.sizeT ≤ (b.greeting ++ rest).length := by
    have ht : 8 ≤ b.text.length := by
      rw [Build.text, versionText, List.length_append]
      exact Nat.le_add_right 8 _
    rw [List.length_append, length_greeting, Build.size]
    obtain h | h := c.sizeT_cases <;> omega
  have htake : ((b.greeting ++ rest).take c.platform.sizeT).length = c.platform.sizeT := by
    rw [List.length_take]
    omega
  obtain ⟨left, hb', hd', hg⟩ := greet_read c ((b.greeting ++ rest).drop c.platform.sizeT) htake hb
    (by omega)
  rw [List.take_append_drop] at hg
  by_cases hsame : (b.greeting ++ rest).take c.platform.sizeT = c.sizeField
  · -- the length is the one expected
    rw [if_neg (not_not.mpr hsame)] at hg
    have hprefix : c.sizeField <+: b.greeting ++ rest := hsame ▸ List.take_prefix _ _
    obtain ⟨ho, hsize, hw | hz⟩ := Build.sizeField_prefix hprefix
    · have hfield : b.sizeField.length = c.platform.sizeT := by
        rw [b.length_sizeField, Platform.sizeT, Platform.sizeT, hw]
      obtain ⟨left', hr, hb'', hd''⟩ := read_text rest hsize.symm hfield hb' (by omega)
      rw [hr] at hg
      by_cases ht : c.text = b.text
      · rw [if_pos (Build.eq_of_text ho hw ht)]
        refine ⟨left', ?_, hb'', by omega⟩
        simpa [ht] using hg
      · rw [if_neg fun h ↦ ht (congrArg Build.text h)]
        have hne : b.text ++ [0] ≠ c.text ++ [0] := fun h ↦ ht (List.append_cancel_right h).symm
        simpa [Ne.symm ht] using hg
    · have hcb : c ≠ b := by
        rintro rfl
        have hlen := congrArg List.length hz
        rw [List.length_append, length_zeros] at hlen
        omega
      obtain ⟨buffer, pending, left', hne, hr⟩ := read_upper_half rest hz hsize.symm hb'
        (by omega)
      rw [hr] at hg
      rw [if_neg hcb]
      simpa [hne] using hg
  · rw [if_pos hsame] at hg
    have hcb : c ≠ b := by
      rintro rfl
      apply hsame
      rw [Build.greeting, List.append_assoc, ← c.length_sizeField, List.take_left]
    rw [if_neg hcb]
    exact hg

end LibGTop.Client
