import LibGTop.Linux.DiskLine

/-!
# The loop of the disk getter

Which lines of `/proc/diskstats` the loop of `glibtop_get_disk_s` takes, of which the
buffer has a start. A line that is in the list of names is passed over, and the line
behind it is taken without a look at the list.
-/

namespace LibGTop.Linux

open Base

/-- The text of `/proc/diskstats`. -/
def diskstats (lines : List DiskLine) : List UInt8 := lines.foldr DiskLine.text []

@[simp] theorem diskstats_nil : diskstats [] = [] := rfl

@[simp] theorem diskstats_cons (line : DiskLine) (lines : List DiskLine) :
    diskstats (line :: lines) = line.text (diskstats lines) := rfl

/-- The lines of which a number is in what there is room for. -/
def shownLines : Nat → List DiskLine → Nat
  | _, [] => 0
  | room, line :: lines =>
    if room ≤ line.lead then 0 else shownLines (room - line.size) lines + 1

section

variable (names : List (List UInt8))

/-- The device name in a line is in the list as far as it is there, or it is not there. -/
def passesOver (line : DiskLine) (room : Nat) : Bool :=
  room ≤ line.nameOffset || names.contains (line.name.take (room - line.nameOffset))

/-- The times in the part of a line that is there. -/
def timesShown (line : DiskLine) (room : Nat) : DiskTimes :=
  diskTimes (cutValues (room - line.nameOffset - line.name.length) line.values)

/-- The lines that the loop takes with what it finds in them; `skip` behind a line that it passes
over. -/
def taken : Bool → Nat → List DiskLine → List (List UInt8 × DiskTimes)
  | _, _, [] => []
  | skip, room, line :: lines =>
    if room ≤ line.lead then []
    else if skip || !passesOver names line room then
      ((diskstats (line :: lines)).take room, timesShown line room) ::
        taken false (room - line.size) lines
    else taken true (room - line.size) lines

/-- The lines at which a turn starts: those that are not behind a line that is passed over. -/
def turnStarts : Bool → Nat → List DiskLine → Nat
  | _, _, [] => 0
  | skip, room, line :: lines =>
    if room ≤ line.lead then 0
    else if skip then turnStarts false (room - line.size) lines
    else turnStarts (passesOver names line room) (room - line.size) lines + 1

/-- The loop gives what is taken in so many turns; what it stores behind is 0. -/
def Gives (result : List DiskTurn × Nat) (i : Nat) (found : List (List UInt8 × DiskTimes))
    (turns : Nat) : Prop :=
  result.2 = i + found.length ∧ result.1.length = turns ∧
    ∃ extra, (result.1.map fun turn ↦ (turn.line, turn.times)) = found ++ extra ∧
      ∀ turn ∈ extra, turn.2 = {}

/-- A turn that passes over a line and takes the one behind it. -/
def passing (device line : List UInt8) : DiskTurn :=
  ⟨device, true, line, (readDisk (skipMultipleToken line 2)).1,
    (readDisk (skipMultipleToken line 2)).2⟩

/-- A turn before the others. -/
def followed (turn : DiskTurn) (rest : List DiskTurn × Nat) : List DiskTurn × Nat :=
  (turn :: rest.1, rest.2)

variable {names}

theorem Gives.nil {i : Nat} : Gives ([], i) i [] 0 := ⟨rfl, rfl, [], rfl, nofun⟩

theorem Gives.cons {turn : DiskTurn} {rest : List DiskTurn × Nat} {i turns : Nat}
    {found : List (List UInt8 × DiskTimes)} (h : Gives rest (i + 1) found turns) :
    Gives (followed turn rest) i ((turn.line, turn.times) :: found) (turns + 1) := by
  obtain ⟨hn, hl, extra, he, hz⟩ := h
  refine ⟨?_, ?_, extra, ?_, hz⟩
  · rw [followed, hn, List.length_cons]
    omega
  · rw [followed, List.length_cons, hl]
  · rw [followed, List.map_cons, he, List.cons_append]

theorem DiskLine.isVirtualDrive_take (line : DiskLine) (next name : List UInt8) (room : Nat) :
    isVirtualDrive names name ((line.device next).take (room - line.nameOffset)) =
      !passesOver names line room := by
  by_cases hr : room ≤ line.nameOffset
  · rw [passesOver, decide_eq_true hr, Bool.true_or, Nat.sub_eq_zero_of_le hr]
    rfl
  · have hp : ((line.device next).take (room - line.nameOffset)).isEmpty = false := by
      cases hd : line.device next with
      | nil =>
        have hl := line.length_device next
        have hn := List.length_pos_of_ne_nil line.name_ne
        rw [hd, List.length_nil] at hl
        omega
      | cons b device =>
        obtain ⟨r, hr⟩ : ∃ r, room - line.nameOffset = r + 1 := ⟨room - line.nameOffset - 1, by omega⟩
        rw [hr]
        rfl
    rw [passesOver, decide_eq_false hr, Bool.false_or, isVirtualDrive, hp,
      line.deviceName_take next name (by omega)]
    rfl

/-- One turn on lines that are cut. -/
theorem DiskLine.diskTurn_take (line : DiskLine) (next name : List UInt8) (room : Nat) :
    let device := (line.device next).take (room - line.nameOffset)
    let rest := next.take (room - line.size)
    diskTurn names name ((line.text next).take room) =
      if passesOver names line room then passing device rest
      else ⟨device, false, (line.text next).take room, timesShown line room, rest⟩ := by
  have hr : room - line.nameOffset - line.name.length - lineSize line.values = room - line.size := by
    rw [size]
    omega
  have hl := line.skipLine_take next (room - line.nameOffset)
  have hd := line.readDisk_take next (room - line.nameOffset)
  rw [hr] at hl hd
  simp only [diskTurn, line.skipMultipleToken_take, line.isVirtualDrive_take, hl, hd, timesShown]
  by_cases hp : passesOver names line room = true
  · rw [hp]
    rfl
  · rw [Bool.not_eq_true] at hp
    rw [hp]
    rfl

theorem skipMultipleToken_blanks (line : DiskLine) (next : List UInt8) {room : Nat}
    (h : room ≤ line.lead) : skipMultipleToken ((line.text next).take room) 2 = [] := by
  have ho : room - line.nameOffset = 0 := by
    rw [DiskLine.nameOffset]
    omega
  rw [line.skipMultipleToken_take, ho, List.take_zero]

private theorem diskRows_done (name p : List UInt8) (i : Nat) :
    diskRows names name p i i = ([], i) := by
  rw [diskRows, if_neg (Nat.lt_irrefl i)]

theorem diskRows_turn (name p : List UInt8) {i ndisk : Nat} (h : i < ndisk) :
    diskRows names name p i ndisk = followed (diskTurn names name p)
      (diskRows names name (diskTurn names name p).next (i + 1)
        (if (diskTurn names name p).passes then ndisk - 1 else ndisk)) := by
  rw [diskRows, if_pos h]
  rfl

theorem readDisk_nil : readDisk [] = ({}, []) := by decide

/-- A turn that passes over a line and finds none behind it. -/
private theorem gives_none {turn : DiskTurn} (h : turn.times = {}) (name p : List UInt8) (i : Nat) :
    Gives (followed turn (diskRows names name p (i + 1) i)) i [] 1 := by
  have hd : diskRows names name p (i + 1) i = ([], i) := by
    rw [diskRows, if_neg (by omega)]
  rw [hd]
  refine ⟨rfl, rfl, [(turn.line, turn.times)], rfl, fun found hf ↦ ?_⟩
  rw [List.mem_singleton.mp hf]
  exact h

private theorem passing_none (device : List UInt8) {line : List UInt8}
    (h : skipMultipleToken line 2 = []) : (passing device line).times = {} := by
  rw [passing, h]
  exact congrArg Prod.fst readDisk_nil

/-- What a turn takes that has passed over a line. -/
private theorem passing_take (device : List UInt8) (line : DiskLine) (next : List UInt8)
    (room : Nat) :
    passing device ((line.text next).take room) =
      ⟨device, true, (line.text next).take room, timesShown line room,
        next.take (room - line.size)⟩ := by
  have hr : room - line.nameOffset - line.name.length - lineSize line.values =
      room - line.size := by
    rw [DiskLine.size]
    omega
  rw [passing, line.skipMultipleToken_take, line.readDisk_take, hr]
  rfl

/-- The loop takes the lines from a pointer on; in a turn that has passed over a line, those behind
it. -/
theorem gives_taken (names : List (List UInt8)) (name : List UInt8) (lines : List DiskLine) :
    ∀ room i,
      Gives (diskRows names name ((diskstats lines).take room) i (i + shownLines room lines)) i
        (taken names false room lines) (turnStarts names false room lines) ∧
      ∀ device, Gives (followed (passing device ((diskstats lines).take room))
          (diskRows names name (passing device ((diskstats lines).take room)).next (i + 1)
            (i + shownLines room lines))) i
        (taken names true room lines) (turnStarts names true room lines + 1) := by
  induction lines with
  | nil =>
    intro room i
    rw [diskstats_nil, List.take_nil, shownLines, Nat.add_zero, diskRows_done]
    exact ⟨.nil, fun device ↦ gives_none (passing_none device (by decide)) name _ i⟩
  | cons line lines ih =>
    intro room i
    rw [diskstats_cons]
    by_cases hs : room ≤ line.lead
    · rw [shownLines, if_pos hs, taken, if_pos hs, taken, if_pos hs, turnStarts, if_pos hs,
        turnStarts, if_pos hs, Nat.add_zero, diskRows_done]
      exact ⟨.nil, fun device ↦
        gives_none (passing_none device (skipMultipleToken_blanks line _ hs)) name _ i⟩
    · have hi : i + (shownLines (room - line.size) lines + 1) - 1 =
          i + shownLines (room - line.size) lines := by omega
      have hn : i + (shownLines (room - line.size) lines + 1) =
          i + 1 + shownLines (room - line.size) lines := by omega
      have hlt : i < i + (shownLines (room - line.size) lines + 1) := by omega
      rw [shownLines, if_neg hs, taken, if_neg hs, taken, if_neg hs, turnStarts, if_neg hs,
        turnStarts, if_neg hs, if_pos rfl, if_neg Bool.false_ne_true]
      refine ⟨?_, fun device ↦ ?_⟩
      · rw [diskRows_turn name _ hlt, line.diskTurn_take]
        by_cases hp : passesOver names line room = true
        · have hr := (ih (room - line.size) i).2 ((line.device (diskstats lines)).take
            (room - line.nameOffset))
          rw [← hi] at hr
          rw [if_pos hp, hp]
          exact hr
        · have hr := (ih (room - line.size) (i + 1)).1
          rw [← hn] at hr
          rw [if_neg hp, Bool.eq_false_of_not_eq_true hp]
          exact hr.cons
      · rw [passing_take, Bool.true_or, if_pos rfl, hn]
        exact (ih (room - line.size) (i + 1)).1.cons

/-- `max_lines` counts the lines of which a number is there. -/
theorem maxLines_take (lines : List DiskLine) (room : Nat) :
    maxLines ((diskstats lines).take room) = shownLines room lines := by
  induction lines generalizing room with
  | nil =>
    rw [diskstats_nil, List.take_nil, maxLines, dif_neg (by decide)]
    rfl
  | cons line lines ih =>
    rw [diskstats_cons, maxLines, shownLines]
    by_cases hs : room ≤ line.lead
    · have hn : ¬(scanString ((line.text (diskstats lines)).take room)).isSome = true := by
        rw [line.scanString_take _ hs]
        exact Bool.false_ne_true
      rw [dif_neg hn, if_pos hs]
    · rw [dif_pos (line.isSome_scanString_take _ (by omega)), if_neg hs, line.skipLine_text_take, ih]

end

theorem notMem_diskstats (lines : List DiskLine) : 0 ∉ diskstats lines := by
  induction lines with
  | nil => exact List.not_mem_nil
  | cons line lines ih => exact line.notMem_text ih

end LibGTop.Linux
