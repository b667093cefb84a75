import LibGTop.Base.FileReads
import LibGTop.Linux.Text

/-!
# Files read into a buffer

`try_file_to_buffer` (`sysdeps/linux/glibtop_private.c:75–136`) call by call: the
loop around `read` with its length, its remaining size and the status that is
tested behind it. The stores are checked against the buffer. What `open` gives
for a path and what the calls of `read` do are arguments. The readers of `/proc`
use what the calls come to, the text in the buffer.
-/

namespace LibGTop.Linux.FileBuffer

open Base

/-- `enum TRY_FILE_TO_BUFFER`, `sysdeps/linux/glibtop_private.c:78–83`, with the values 0, -1
and -2. -/
inductive TryFileToBuffer
  | ok
  | couldNotOpen
  | couldNotRead
  deriving DecidableEq, Repr

/-- Why the function has not returned: it stores outside the buffer, or waits for a call. -/
inductive Halt
  | outside
  | waiting
  deriving DecidableEq, Repr

/-- `buffer [i] = b`. -/
def storeByte (buffer : List UInt8) (i : Nat) (b : UInt8) : Except Halt (List UInt8) :=
  if i < buffer.length then .ok (buffer.set i b) else .error .outside

/-- What `read (fd, buffer + offset, want)` stores. The whole region that is handed to the call has
to be in the buffer. -/
def storeRegion (buffer : List UInt8) (offset want : Nat) (bytes : List UInt8) :
    Except Halt (List UInt8) :=
  if offset + want ≤ buffer.length then
    .ok (buffer.take offset ++ overlay (buffer.drop offset) bytes)
  else .error .outside

/-- The variables of the loop; `rest` is what is behind the position in the file. -/
structure Reading where
  buffer : List UInt8
  len : BitVec 64
  nread : Int
  rest : List UInt8

/-- The body of the loop, `sysdeps/linux/glibtop_private.c:113–126`, and whether it goes on. -/
def readTurn (bufsiz : BitVec 64) (s : Reading) (call : ReadCall) : Except Halt (Reading × Bool) :=
  let want := (bufsiz - s.len).toNat
  let result := call.result want s.rest
  match storeRegion s.buffer s.len.toNat want result.bytes with
  | .error halt => .error halt
  | .ok buffer =>
    let s := { s with
      buffer := buffer
      nread := result.nread
      rest := s.rest.drop result.bytes.length }
    if s.nread < 0 then
      -- `continue` when the call was interrupted, `break` otherwise
      .ok (s, result.errno = eintr)
    else .ok ({ s with len := s.len + BitVec.ofInt 64 s.nread }, s.nread ≠ 0)

/-- The loop, `sysdeps/linux/glibtop_private.c:112–127`. -/
def readLoop (bufsiz : BitVec 64) (s : Reading) : List ReadCall → Except Halt Reading
  | [] => if s.len < bufsiz then .error .waiting else .ok s
  | call :: calls =>
    if s.len < bufsiz then
      match readTurn bufsiz s call with
      | .error halt => .error halt
      | .ok (s, true) => readLoop bufsiz s calls
      | .ok (s, false) => .ok s
    else .ok s

/-- What the function returns, with the buffer and what it has passed to `g_warning`. -/
structure Returned where
  status : TryFileToBuffer
  buffer : List UInt8
  warnings : List String
  deriving DecidableEq

/-- `path`: what `g_vsnprintf` stores of the formatted text in its 4096 bytes. -/
def pathOf (formatted : List UInt8) : List UInt8 := cString (formatted.take (4096 - 1))

/-- The warning about a buffer that is not longer than a pointer. -/
def sizeWarnings (bufsiz : BitVec 64) : List String :=
  if bufsiz.toNat ≤ 8 then ["Huhu, bufsiz of " ++ toString bufsiz.toNat ++ " looks bad"] else []

/-- `try_file_to_buffer`, `sysdeps/linux/glibtop_private.c:85–136`; `openRead` is the content of the
file that `open` finds at a path, absent when it fails. -/
def tryFileToBuffer (openRead : List UInt8 → Option (List UInt8)) (buffer : List UInt8)
    (bufsiz : BitVec 64) (formatted : List UInt8) (calls : List ReadCall) :
    Except Halt Returned :=
  let warnings := sizeWarnings bufsiz
  let bufsiz := bufsiz - 1
  match storeByte buffer 0 0 with
  | .error halt => .error halt
  | .ok buffer =>
    match openRead (pathOf formatted) with
    | none => .ok ⟨.couldNotOpen, buffer, warnings⟩
    | some content =>
      match readLoop bufsiz ⟨buffer, 0, 0, content⟩ calls with
      | .error halt => .error halt
      | .ok s =>
        if s.nread < 0 then .ok ⟨.couldNotRead, s.buffer, warnings⟩
        else
          match storeByte s.buffer s.len.toNat 0 with
          | .error halt => .error halt
          | .ok buffer => .ok ⟨.ok, buffer, warnings⟩

/-- What holds where the loop is tested: `len` bytes are in the buffer, which has room for one byte
more than they may become. -/
structure Holds (room : Nat) (got : List UInt8) (s : Reading) : Prop where
  len_eq : s.len.toNat = got.length
  length_le : got.length ≤ room
  stored : got <+: s.buffer
  length_buffer : s.buffer.length = room + 1

/-- A region in the buffer takes bytes that fit behind those that are stored. -/
theorem storeRegion_stored {buffer got bytes : List UInt8} {want : Nat} (hs : got <+: buffer)
    (hw : got.length + want ≤ buffer.length) (hb : bytes.length ≤ want) :
    ∃ buffer', storeRegion buffer got.length want bytes = .ok buffer' ∧
      got ++ bytes <+: buffer' ∧ buffer'.length = buffer.length := by
  refine ⟨_, if_pos hw, ?_, ?_⟩
  · rw [← List.prefix_iff_eq_take.mp hs, overlay, ← List.append_assoc]
    exact List.prefix_append _ _
  · have hd : bytes.length ≤ (buffer.drop got.length).length := by
      rw [List.length_drop]
      omega
    rw [List.length_append, length_overlay _ _ hd, List.length_take, List.length_drop]
    omega

section

variable {bufsiz : BitVec 64} {got : List UInt8} {s : Reading}

theorem Holds.lt_iff (h : Holds bufsiz.toNat got s) :
    s.len < bufsiz ↔ got.length < bufsiz.toNat := by
  rw [BitVec.lt_def, h.len_eq]

/-- What the loop asks for is the room that is left. -/
theorem Holds.toNat_want (h : Holds bufsiz.toNat got s) :
    (bufsiz - s.len).toNat = bufsiz.toNat - got.length := by
  have hle : s.len ≤ bufsiz := by
    rw [BitVec.le_def, h.len_eq]
    exact h.length_le
  rw [BitVec.toNat_sub_of_le hle, h.len_eq]

/-- The length is counted on without a wrap while the bytes fit. -/
theorem Holds.toNat_add {bytes : List UInt8} (h : Holds bufsiz.toNat got s)
    (hb : (got ++ bytes).length ≤ bufsiz.toNat) :
    (s.len + BitVec.ofInt 64 bytes.length).toNat = (got ++ bytes).length := by
  have hlt := bufsiz.isLt
  rw [List.length_append] at hb
  rw [BitVec.ofInt_natCast, BitVec.toNat_add, BitVec.toNat_ofNat, h.len_eq, List.length_append]
  omega

/-- A call stores in the buffer what it hands over. -/
theorem Holds.exists_storeRegion (h : Holds bufsiz.toNat got s) (call : ReadCall) :
    ∃ buffer, storeRegion s.buffer s.len.toNat (bufsiz - s.len).toNat
        (call.result (bufsiz - s.len).toNat s.rest).bytes = .ok buffer ∧
      got ++ (call.result (bufsiz - s.len).toNat s.rest).bytes <+: buffer ∧
      buffer.length = bufsiz.toNat + 1 := by
  have hle := h.length_le
  have hlen := h.length_buffer
  rw [h.len_eq, h.toNat_want, ← hlen]
  exact storeRegion_stored h.stored (by omega) (call.length_bytes_result_le _ _)

/-- A call that fails stores nothing, and the loop goes on when it was interrupted. -/
theorem Holds.readTurn_failed (h : Holds bufsiz.toNat got s) (errno : Nat) :
    ∃ s', readTurn bufsiz s (.failed errno) = .ok (s', errno = eintr) ∧
      Holds bufsiz.toNat got s' ∧ s'.rest = s.rest ∧ s'.nread < 0 := by
  obtain ⟨buffer, hb, hstored, hlen⟩ := h.exists_storeRegion (.failed errno)
  have hnone : (ReadCall.failed errno |>.result (bufsiz - s.len).toNat s.rest).bytes = [] := rfl
  have hneg : (-1 : Int) < 0 := by decide
  rw [hnone, List.append_nil] at hstored
  refine ⟨{ s with buffer := buffer, nread := -1 }, ?_, ⟨h.len_eq, h.length_le, hstored, hlen⟩,
    rfl, hneg⟩
  simp only [readTurn, hb]
  rfl

/-- A call that is served stores what it hands over, and the loop goes on unless that is nothing. -/
theorem Holds.readTurn_served (h : Holds bufsiz.toNat got s) (extra : Fin ssizeMax) :
    let piece := ReadCall.handed (bufsiz.toNat - got.length) s.rest extra
    ∃ s', readTurn bufsiz s (.served extra) = .ok (s', piece ≠ []) ∧
      Holds bufsiz.toNat (got ++ piece) s' ∧ s'.rest = s.rest.drop piece.length ∧
      0 ≤ s'.nread := by
  intro piece
  obtain ⟨buffer, hb, hstored, hlen⟩ := h.exists_storeRegion (.served extra)
  have hpiece : (ReadCall.served extra |>.result (bufsiz - s.len).toNat s.rest) =
      ⟨piece.length, 0, piece⟩ := by
    rw [h.toNat_want]
    rfl
  have hle : (got ++ piece).length ≤ bufsiz.toNat := by
    have hgot := h.length_le
    rw [List.length_append, ReadCall.length_handed]
    omega
  rw [hpiece] at hb hstored
  refine ⟨⟨buffer, s.len + BitVec.ofInt 64 piece.length, piece.length, s.rest.drop piece.length⟩,
    ?_, ⟨h.toNat_add hle, hle, hstored, hlen⟩, rfl, Int.natCast_nonneg _⟩
  have hneg : ¬(piece.length : Int) < 0 := by omega
  simp only [readTurn, hpiece, hb, if_neg hneg]
  simp

/-- The end of the loop that the calls come to: the status is negative behind a failure only. -/
def Ends (room : Nat) (e : Except Halt Reading) : Gathered → Prop
  | .complete bytes => ∃ s, e = .ok s ∧ Holds room bytes s ∧ 0 ≤ s.nread
  | .failed bytes => ∃ s, e = .ok s ∧ Holds room bytes s ∧ s.nread < 0
  | .waiting => e = .error .waiting

/-- The loop does with its buffer what the calls come to. A negative status at its test is the one
of an interrupted call, and is not the last one. -/
theorem readLoop_ends (h : Holds bufsiz.toNat got s)
    (hn : s.nread < 0 → got.length < bufsiz.toNat) (calls : List ReadCall) :
    Ends bufsiz.toNat (readLoop bufsiz s calls) (gather bufsiz.toNat got s.rest calls) := by
  generalize hr : s.rest = rest
  fun_induction gather bufsiz.toNat got rest calls generalizing s with
  | case1 got rest hlt => exact if_pos (h.lt_iff.mpr hlt)
  | case2 got rest hlt => exact ⟨s, if_neg (mt h.lt_iff.mp hlt), h, by omega⟩
  | case3 got rest calls hlt ih =>
    obtain ⟨s', hturn, h', hr', hneg⟩ := h.readTurn_failed eintr
    rw [readLoop, if_pos (h.lt_iff.mpr hlt), hturn]
    exact ih h' (fun _ ↦ hlt) (hr'.trans hr)
  | case4 got rest calls hlt errno he =>
    obtain ⟨s', hturn, h', hr', hneg⟩ := h.readTurn_failed errno
    rw [decide_eq_false he] at hturn
    rw [readLoop, if_pos (h.lt_iff.mpr hlt), hturn]
    exact ⟨s', rfl, h', hneg⟩
  | case5 got rest calls hlt extra hpiece =>
    subst hr
    obtain ⟨s', hturn, h', hr', hnread⟩ := h.readTurn_served extra
    rw [decide_eq_false (not_not.mpr hpiece)] at hturn
    rw [readLoop, if_pos (h.lt_iff.mpr hlt), hturn]
    exact ⟨s', rfl, by simpa [hpiece] using h', hnread⟩
  | case6 got rest calls hlt extra hpiece ih =>
    subst hr
    obtain ⟨s', hturn, h', hr', hnread⟩ := h.readTurn_served extra
    rw [decide_eq_true hpiece] at hturn
    rw [readLoop, if_pos (h.lt_iff.mpr hlt), hturn]
    exact ih h' (fun hneg ↦ absurd hneg (by omega)) hr'
  | case7 got rest call calls hlt =>
    rw [readLoop, if_neg (mt h.lt_iff.mp hlt)]
    exact ⟨s, rfl, h, by omega⟩

/-- The loop does not look at the calls behind its last one. -/
theorem readLoop_append {calls : List ReadCall} (more : List ReadCall)
    (h : readLoop bufsiz s calls ≠ .error .waiting) :
    readLoop bufsiz s (calls ++ more) = readLoop bufsiz s calls := by
  induction calls generalizing s with
  | nil =>
    have hlt : ¬s.len < bufsiz := fun hlt ↦ h (if_pos hlt)
    rw [List.nil_append, readLoop, if_neg hlt]
    cases more with
    | nil => rw [readLoop, if_neg hlt]
    | cons call more => rw [readLoop, if_neg hlt]
  | cons call calls ih =>
    by_cases hlt : s.len < bufsiz
    · rw [readLoop, if_pos hlt] at h
      rw [List.cons_append, readLoop, readLoop, if_pos hlt, if_pos hlt]
      cases hturn : readTurn bufsiz s call with
      | error halt => rfl
      | ok ended =>
        obtain ⟨s', goesOn⟩ := ended
        rw [hturn] at h
        cases goesOn with
        | true => exact ih h
        | false => rfl
    · rw [List.cons_append, readLoop, readLoop, if_neg hlt, if_neg hlt]

end

/-- The terminator goes behind the bytes that are stored. -/
theorem storeByte_stored {buffer bytes : List UInt8} (hs : bytes <+: buffer)
    (hlt : bytes.length < buffer.length) (b : UInt8) :
    ∃ buffer', storeByte buffer bytes.length b = .ok buffer' ∧ bytes ++ [b] <+: buffer' ∧
      buffer'.length = buffer.length := by
  refine ⟨_, if_pos hlt, ?_, List.length_set⟩
  obtain ⟨tail, rfl⟩ := hs
  cases tail with
  | nil => exact absurd hlt (by simp)
  | cons c tail =>
    rw [List.set_append_right _ _ (Nat.le_refl _), Nat.sub_self, List.set_cons_zero]
    exact ⟨tail, List.append_assoc ..⟩

/-- What the function returns when the calls come to an end. -/
def Returns (bufsiz : Nat) (e : Except Halt Returned) : Gathered → Prop
  | .complete bytes => ∃ r, e = .ok r ∧ r.status = .ok ∧ bytes ++ [0] <+: r.buffer ∧
      r.buffer.length = bufsiz
  | .failed _ => ∃ r, e = .ok r ∧ r.status = .couldNotRead ∧ r.buffer.length = bufsiz
  | .waiting => e = .error .waiting

section

variable {openRead : List UInt8 → Option (List UInt8)} {buffer formatted content : List UInt8}
  {bufsiz : BitVec 64}

theorem toNat_sub_one (hpos : 0 < bufsiz) : (bufsiz - 1).toNat = bufsiz.toNat - 1 := by
  have hle : 1 ≤ bufsiz := by
    rw [BitVec.le_def]
    exact Nat.succ_le_of_lt (BitVec.lt_def.mp hpos)
  rw [BitVec.toNat_sub_of_le hle]
  rfl

theorem storeByte_first (hpos : 0 < bufsiz) (hbuf : buffer.length = bufsiz.toNat) :
    storeByte buffer 0 0 = .ok (buffer.set 0 0) := by
  refine if_pos ?_
  rw [hbuf]
  exact BitVec.lt_def.mp hpos

theorem tryFileToBuffer_couldNotOpen (hpos : 0 < bufsiz) (hbuf : buffer.length = bufsiz.toNat)
    (hopen : openRead (pathOf formatted) = none) (calls : List ReadCall) :
    tryFileToBuffer openRead buffer bufsiz formatted calls =
      .ok ⟨.couldNotOpen, buffer.set 0 0, sizeWarnings bufsiz⟩ := by
  simp only [tryFileToBuffer, storeByte_first hpos hbuf, hopen]

/-- With a file the function returns what the calls come to, with its terminator. -/
theorem tryFileToBuffer_returns (hpos : 0 < bufsiz) (hbuf : buffer.length = bufsiz.toNat)
    (hopen : openRead (pathOf formatted) = some content) (calls : List ReadCall) :
    Returns bufsiz.toNat (tryFileToBuffer openRead buffer bufsiz formatted calls)
      (gather (bufsiz.toNat - 1) [] content calls) := by
  have hsize : bufsiz.toNat - 1 + 1 = bufsiz.toNat := Nat.sub_add_cancel (BitVec.lt_def.mp hpos)
  have hstart : Holds (bufsiz - 1).toNat [] ⟨buffer.set 0 0, 0, 0, content⟩ := by
    refine ⟨rfl, Nat.zero_le _, List.nil_prefix, ?_⟩
    rw [List.length_set, hbuf, toNat_sub_one hpos, hsize]
  have hends := readLoop_ends hstart (fun hneg ↦ absurd hneg (Int.lt_irrefl 0)) calls
  simp only [tryFileToBuffer, storeByte_first hpos hbuf, hopen]
  rw [toNat_sub_one hpos] at hends
  cases hg : gather (bufsiz.toNat - 1) [] content calls with
  | complete bytes =>
    rw [hg] at hends
    obtain ⟨s, hloop, h, hnread⟩ := hends
    have hle := h.length_le
    have hlen := h.length_buffer
    obtain ⟨buffer', hb, hstored, hlen'⟩ := storeByte_stored h.stored (by omega) 0
    rw [hloop]
    simp only [if_neg (Int.not_lt.mpr hnread), h.len_eq, hb]
    exact ⟨_, rfl, rfl, hstored, by rw [hlen', hlen, hsize]⟩
  | failed bytes =>
    rw [hg] at hends
    obtain ⟨s, hloop, h, hnread⟩ := hends
    rw [hloop]
    simp only [if_pos hnread]
    exact ⟨_, rfl, rfl, by rw [h.length_buffer, hsize]⟩
  | waiting =>
    rw [hg] at hends
    have hloop : readLoop (bufsiz - 1) ⟨buffer.set 0 0, 0, 0, content⟩ calls =
        .error .waiting := hends
    rw [hloop]
    rfl

/-- The stores stay inside the buffer, whatever the calls do. -/
theorem tryFileToBuffer_ne_outside (hpos : 0 < bufsiz) (hbuf : buffer.length = bufsiz.toNat)
    (openRead : List UInt8 → Option (List UInt8)) (formatted : List UInt8)
    (calls : List ReadCall) :
    tryFileToBuffer openRead buffer bufsiz formatted calls ≠ .error .outside := by
  cases hopen : openRead (pathOf formatted) with
  | none =>
    rw [tryFileToBuffer_couldNotOpen hpos hbuf hopen]
    exact nofun
  | some content =>
    have hreturns := tryFileToBuffer_returns hpos hbuf hopen calls
    cases hg : gather (bufsiz.toNat - 1) [] content calls with
    | complete bytes | failed bytes =>
      rw [hg] at hreturns
      obtain ⟨r, hr, -⟩ := hreturns
      rw [hr]
      exact nofun
    | waiting =>
      rw [hg] at hreturns
      rw [show tryFileToBuffer openRead buffer bufsiz formatted calls = .error .waiting from
        hreturns]
      exact nofun

/-- What the function has returned does not depend on the calls it has not made. -/
theorem tryFileToBuffer_append {calls : List ReadCall} {r : Returned} (more : List ReadCall)
    (h : tryFileToBuffer openRead buffer bufsiz formatted calls = .ok r) :
    tryFileToBuffer openRead buffer bufsiz formatted (calls ++ more) = .ok r := by
  rw [← h]
  simp only [tryFileToBuffer] at h ⊢
  cases hb : storeByte buffer 0 0 with
  | error halt => rfl
  | ok buffer' =>
    cases hopen : openRead (pathOf formatted) with
    | none => rfl
    | some content =>
      rw [hb] at h
      simp only [hopen] at h
      have hloop : readLoop (bufsiz - 1) ⟨buffer', 0, 0, content⟩ calls ≠ .error .waiting := by
        intro hw
        rw [hw] at h
        exact absurd h nofun
      simp only [readLoop_append more hloop]

/-- What is returned is what the file and its calls ask for: the failures are reported when they
happen, and a buffer that is reported to be right has the start of the file and a NUL in it. -/
structure ReadsFile (file : Option (List UInt8)) (fails : List UInt8 → Prop) (bufsiz : Nat)
    (r : Returned) : Prop where
  open_iff : r.status = .couldNotOpen ↔ file = none
  read_iff : r.status = .couldNotRead ↔ ∃ content, file = some content ∧ fails content
  text : r.status = .ok →
    ∃ content, file = some content ∧ content.take (bufsiz - 1) ++ [0] <+: r.buffer
  length_buffer : r.buffer.length = bufsiz

/-- Whenever the function returns, what it returns is right. -/
theorem tryFileToBuffer_readsFile (hpos : 0 < bufsiz) (hbuf : buffer.length = bufsiz.toNat)
    {calls : List ReadCall} {r : Returned}
    (h : tryFileToBuffer openRead buffer bufsiz formatted calls = .ok r) :
    ReadsFile (openRead (pathOf formatted))
      (fun content ↦ ReadFails (bufsiz.toNat - 1) content calls) bufsiz.toNat r := by
  cases hopen : openRead (pathOf formatted) with
  | none =>
    rw [tryFileToBuffer_couldNotOpen hpos hbuf hopen] at h
    obtain rfl := Except.ok.inj h
    exact ⟨iff_of_true rfl rfl, iff_of_false nofun nofun, nofun, List.length_set.trans hbuf⟩
  | some content =>
    have hreturns := tryFileToBuffer_returns hpos hbuf hopen calls
    have hfails := gather_failed_iff (bufsiz.toNat - 1) [] content calls
    rw [h] at hreturns
    cases hg : gather (bufsiz.toNat - 1) [] content calls with
    | complete bytes =>
      rw [hg] at hreturns hfails
      obtain ⟨r', hr, hstatus, hstored, hlen⟩ := hreturns
      obtain rfl := Except.ok.inj hr
      have hnot : ¬ReadFails (bufsiz.toNat - 1) content calls := fun hf ↦
        absurd (hfails.mpr hf) nofun
      rw [gather_complete hg] at hstored
      refine ⟨by simp [hstatus], ?_, fun _ ↦ ⟨content, rfl, hstored⟩, hlen⟩
      refine iff_of_false (by simp [hstatus]) ?_
      rintro ⟨content', hc, hf⟩
      exact hnot (Option.some.inj hc ▸ hf)
    | failed bytes =>
      rw [hg] at hreturns hfails
      obtain ⟨r', hr, hstatus, hlen⟩ := hreturns
      obtain rfl := Except.ok.inj hr
      have hf : ReadFails (bufsiz.toNat - 1) content calls := hfails.mp ⟨bytes, rfl⟩
      exact ⟨by simp [hstatus], iff_of_true hstatus ⟨content, rfl, hf⟩, by simp [hstatus], hlen⟩
    | waiting =>
      rw [hg] at hreturns
      exact absurd hreturns nofun

/-- The text of the buffer is the one that the readers of `/proc` are given. -/
theorem tryFileToBuffer_refines (hpos : 0 < bufsiz) (hbuf : buffer.length = bufsiz.toNat)
    {calls : List ReadCall} {r : Returned}
    (h : tryFileToBuffer openRead buffer bufsiz formatted calls = .ok r) (hs : r.status = .ok) :
    Linux.tryFileToBuffer bufsiz.toNat (openRead (pathOf formatted)) = some (cString r.buffer) := by
  obtain ⟨content, hopen, tail, hbuffer⟩ := (tryFileToBuffer_readsFile hpos hbuf h).text hs
  have hzero : (0 : UInt8) ∈ content.take (bufsiz.toNat - 1) ++ [0] :=
    List.mem_append_right _ List.mem_cons_self
  rw [hopen, Linux.tryFileToBuffer, Option.map_some, ← hbuffer, cString_append_of_mem _ _ hzero,
    cString_concat_zero]

/-- The function returns unless the calls are interrupted for ever: what is not interrupted fills
the buffer, or ends it. -/
theorem tryFileToBuffer_exists_returned (hpos : 0 < bufsiz) (hbuf : buffer.length = bufsiz.toNat)
    (openRead : List UInt8 → Option (List UInt8)) (formatted : List UInt8)
    {calls : Nat → ReadCall} (hcalls : ∀ i, ∃ j, i ≤ j ∧ ¬(calls j).Interrupted) :
    ∃ n r, tryFileToBuffer openRead buffer bufsiz formatted (firstCalls calls n) = .ok r := by
  cases hopen : openRead (pathOf formatted) with
  | none => exact ⟨0, _, tryFileToBuffer_couldNotOpen hpos hbuf hopen _⟩
  | some content =>
    obtain ⟨n, hn⟩ := exists_le_uninterrupted hcalls (bufsiz.toNat - 1)
    have hreturns := tryFileToBuffer_returns hpos hbuf hopen (firstCalls calls n)
    cases hg : gather (bufsiz.toNat - 1) [] content (firstCalls calls n) with
    | complete bytes | failed bytes =>
      rw [hg] at hreturns
      obtain ⟨r, hr, -⟩ := hreturns
      exact ⟨n, r, hr⟩
    | waiting =>
      have hlt := gather_waiting hg
      omega

/-- `try_file_to_buffer` stays inside its buffer, returns, and reports the failures that happen and
the start of the file. -/
theorem tryFileToBuffer_bounded (openRead : List UInt8 → Option (List UInt8))
    (formatted : List UInt8) (hpos : 0 < bufsiz) (hbuf : buffer.length = bufsiz.toNat)
    {calls : Nat → ReadCall} (hcalls : ∀ i, ∃ j, i ≤ j ∧ ¬(calls j).Interrupted) :
    (∀ n, tryFileToBuffer openRead buffer bufsiz formatted (firstCalls calls n) ≠
      .error .outside) ∧
    ∃ r, (∃ n, ∀ m, n ≤ m →
        tryFileToBuffer openRead buffer bufsiz formatted (firstCalls calls m) = .ok r) ∧
      ReadsFile (openRead (pathOf formatted))
        (fun content ↦ ∃ n, ReadFails (bufsiz.toNat - 1) content (firstCalls calls n))
        bufsiz.toNat r := by
  refine ⟨fun n ↦ tryFileToBuffer_ne_outside hpos hbuf openRead formatted _, ?_⟩
  obtain ⟨n, r, hr⟩ := tryFileToBuffer_exists_returned hpos hbuf openRead formatted hcalls
  have hlater : ∀ m, n ≤ m →
      tryFileToBuffer openRead buffer bufsiz formatted (firstCalls calls m) = .ok r := by
    intro m hm
    obtain ⟨more, he⟩ := exists_firstCalls_append calls hm
    rw [he]
    exact tryFileToBuffer_append more hr
  have hreads := fun m (hm : n ≤ m) ↦ tryFileToBuffer_readsFile hpos hbuf (hlater m hm)
  refine ⟨r, ⟨n, hlater⟩, (hreads n (Nat.le_refl n)).open_iff, ?_,
    (hreads n (Nat.le_refl n)).text, (hreads n (Nat.le_refl n)).length_buffer⟩
  constructor
  · intro hs
    obtain ⟨content, hopen, hf⟩ := (hreads n (Nat.le_refl n)).read_iff.mp hs
    exact ⟨content, hopen, n, hf⟩
  · rintro ⟨content, hopen, k, hf⟩
    have hle := Nat.le_max_left n k
    obtain ⟨more, he⟩ := exists_firstCalls_append calls (Nat.le_max_right n k)
    refine (hreads (max n k) hle).read_iff.mpr ⟨content, hopen, ?_⟩
    rw [he]
    exact hf.append more

end

/-- The first call is interrupted, and each of the others hands over one byte. -/
def interruptedOnce (i : Nat) : ReadCall :=
  if i = 0 then .failed eintr else .served ⟨0, ssizeMax_pos⟩

/-- Three bytes of a file and a buffer of three: two of them and the terminator. -/
theorem tryFileToBuffer_bounded_interrupted :
    ∃ r, (∃ n, ∀ m, n ≤ m →
        tryFileToBuffer (fun _ ↦ some [104, 105, 106]) [7, 7, 7] 3 [47]
          (firstCalls interruptedOnce m) = .ok r) ∧
      r.status = .ok ∧ r.buffer = [104, 105, 0] := by
  have hcalls : ∀ i, ∃ j, i ≤ j ∧ ¬(interruptedOnce j).Interrupted := fun i ↦
    ⟨i + 1, Nat.le_succ i, nofun⟩
  have hpos : (0 : BitVec 64) < 3 := by decide
  have hbuf : ([7, 7, 7] : List UInt8).length = (3 : BitVec 64).toNat := rfl
  obtain ⟨-, r, hreturned, hreads⟩ :=
    tryFileToBuffer_bounded (fun _ ↦ some [104, 105, 106]) [47] hpos hbuf hcalls
  refine ⟨r, hreturned, ?_⟩
  cases hs : r.status with
  | ok =>
    obtain ⟨content, hc, hstored⟩ := hreads.text hs
    obtain rfl := Option.some.inj hc
    exact ⟨rfl, (hstored.eq_of_length hreads.length_buffer.symm).symm⟩
  | couldNotOpen => exact absurd (hreads.open_iff.mp hs) nofun
  | couldNotRead =>
    obtain ⟨content, -, n, i, errno, hi, he, -⟩ := hreads.read_iff.mp hs
    obtain ⟨j, hj⟩ := exists_of_mem_firstCalls (List.mem_of_getElem? hi)
    by_cases hz : j = 0
    · rw [interruptedOnce, if_pos hz] at hj
      exact absurd (ReadCall.failed.inj hj).symm he
    · rw [interruptedOnce, if_neg hz] at hj
      exact absurd hj nofun

end LibGTop.Linux.FileBuffer
