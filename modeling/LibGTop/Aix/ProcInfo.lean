import Mathlib.Data.List.Induction
import Mathlib.Data.List.Nodup
import Mathlib.Logic.Function.Basic

/-!
# The record of a process on AIX

`_glibtop_get_procinfo` (`sysdeps/aix/utils.c:80–109`) keeps the record that it read last for the
next call. Each server has its own, but all share the note that there has been a first call.
-/

namespace LibGTop.Aix

/-- `struct procsinfo`: the pid, and everything else that the getters read of it. -/
structure Pinfo (α : Type) where
  piPid : BitVec 32
  rest : α

/-- `first_time` of the library, and `last_pinfo` of each server. -/
structure ProcInfoState (α : Type) where
  firstTime : Bool
  lastPinfo : Nat → Pinfo α

/-- A call, with what `getprocs` delivers one by one until it has no more. -/
structure ProcInfoCall (α : Type) where
  server : Nat
  pid : BitVec 32
  records : List (Pinfo α)
  distinct : (records.map Pinfo.piPid).Nodup

section

variable {α : Type}

/-- The loop over the records, each of which is read into `last_pinfo`: what is in it behind the
loop, and whether it is the one that is looked for. -/
def seekProcinfo (pid : BitVec 32) : Pinfo α → List (Pinfo α) → Pinfo α × Bool
  | last, [] => (last, false)
  | _, record :: records =>
    if pid = record.piPid then (record, true) else seekProcinfo pid record records

/-- `_glibtop_get_procinfo`. -/
def getProcinfo (s : ProcInfoState α) (c : ProcInfoCall α) :
    ProcInfoState α × Option (Pinfo α) :=
  if (s.lastPinfo c.server).piPid = c.pid ∧ ¬s.firstTime then (s, some (s.lastPinfo c.server))
  else
    let (last, found) := seekProcinfo c.pid (s.lastPinfo c.server) c.records
    (⟨false, Function.update s.lastPinfo c.server last⟩, if found then some last else none)

/-- The state behind a run of calls; the memory of a server is zeros when it is made. -/
def procinfoAfter (zeros : α) (calls : List (ProcInfoCall α)) : ProcInfoState α :=
  calls.foldl (fun s c ↦ (getProcinfo s c).1) ⟨true, fun _ ↦ ⟨0, zeros⟩⟩

/-- The record of a process. -/
def recordOf (pid : BitVec 32) (records : List (Pinfo α)) : Option (Pinfo α) :=
  records.find? fun r ↦ r.piPid = pid

/-- A call is passed over by a record of a process: it is on another server, for the process, or
finds no process at all. -/
def ProcInfoCall.Passes (c : ProcInfoCall α) (server : Nat) (pid : BitVec 32) : Prop :=
  c.server = server → c.pid = pid ∨ c.records = []

/-- The record was read by a call of the run, and is passed over by all calls behind it. -/
def ReadBy (calls : List (ProcInfoCall α)) (server : Nat) (pid : BitVec 32)
    (result : Option (Pinfo α)) : Prop :=
  ∃ before c behind, calls = before ++ c :: behind ∧ c.server = server ∧ result = recordOf pid c.records ∧
    ∀ d ∈ behind, d.Passes server pid

/-- What `last_pinfo` of a server has behind a run: the record of its process that a call has read,
or zeros when no call on the server has got a process. -/
def LastKnown (zeros : α) (calls : List (ProcInfoCall α)) (server : Nat) (last : Pinfo α) : Prop :=
  ReadBy calls server last.piPid (some last) ∨
    last = ⟨0, zeros⟩ ∧ ∀ d ∈ calls, d.Passes server 0

theorem recordOf_self (r : Pinfo α) (records : List (Pinfo α)) :
    recordOf r.piPid (r :: records) = some r := List.find?_cons_of_pos (by simp)

theorem recordOf_of_ne {r : Pinfo α} {pid : BitVec 32} (h : r.piPid ≠ pid)
    (records : List (Pinfo α)) : recordOf pid (r :: records) = recordOf pid records :=
  List.find?_cons_of_neg (by simpa using h)

/-- The loop stops at the record of the process, or else has read the last one. -/
theorem seekProcinfo_spec (pid : BitVec 32) (records : List (Pinfo α)) :
    ∀ last, (records.map Pinfo.piPid).Nodup →
      (if (seekProcinfo pid last records).2 then some (seekProcinfo pid last records).1 else none) =
          recordOf pid records ∧
        (records = [] ∧ (seekProcinfo pid last records).1 = last ∨
          recordOf (seekProcinfo pid last records).1.piPid records =
            some (seekProcinfo pid last records).1) := by
  induction records with
  | nil => exact fun last _ ↦ ⟨rfl, .inl ⟨rfl, rfl⟩⟩
  | cons r records ih =>
    intro last hd
    obtain ⟨hr, hrest⟩ := List.nodup_cons.mp hd
    rw [seekProcinfo]
    by_cases hp : pid = r.piPid
    · subst hp
      rw [if_pos rfl, recordOf_self]
      exact ⟨rfl, .inr rfl⟩
    · obtain ⟨hf, hl⟩ := ih r hrest
      rw [if_neg hp, recordOf_of_ne (Ne.symm hp)]
      refine ⟨hf, .inr ?_⟩
      obtain ⟨rfl, hl⟩ | hl := hl
      · rw [hl, recordOf_self]
      · have hne : r.piPid ≠ (seekProcinfo pid r records).1.piPid := fun he ↦
          hr (he ▸ List.mem_map_of_mem (List.mem_of_find?_eq_some hl))
        rw [recordOf_of_ne hne, hl]

/-- Behind a call there has been a first one. -/
theorem getProcinfo_firstTime (s : ProcInfoState α) (c : ProcInfoCall α) :
    (getProcinfo s c).1.firstTime = false := by
  rw [getProcinfo]
  by_cases hhit : (s.lastPinfo c.server).piPid = c.pid ∧ ¬s.firstTime
  · rw [if_pos hhit]
    exact Bool.eq_false_iff.mpr hhit.2
  · rw [if_neg hhit]

section

variable {calls : List (ProcInfoCall α)} {server : Nat} {pid : BitVec 32}
  {result : Option (Pinfo α)} {c : ProcInfoCall α}

/-- A record outlives a call that it passes over. -/
theorem ReadBy.concat (h : ReadBy calls server pid result) (hc : c.Passes server pid) :
    ReadBy (calls ++ [c]) server pid result := by
  obtain ⟨before, d, behind, rfl, hd, hr, hp⟩ := h
  refine ⟨before, d, behind ++ [c], by simp, hd, hr, fun k hk ↦ ?_⟩
  obtain hk | hk := List.mem_append.mp hk
  · exact hp k hk
  · obtain rfl := List.mem_singleton.mp hk
    exact hc

/-- A call reads a record itself. -/
theorem ReadBy.last (hs : c.server = server) (hr : result = recordOf pid c.records) :
    ReadBy (calls ++ [c]) server pid result :=
  ⟨calls, c, [], rfl, hs, hr, nofun⟩

variable {zeros : α} {last : Pinfo α}

theorem LastKnown.concat (h : LastKnown zeros calls server last)
    (hc : c.Passes server last.piPid) : LastKnown zeros (calls ++ [c]) server last := by
  obtain h | ⟨rfl, h⟩ := h
  · exact .inl (h.concat hc)
  · refine .inr ⟨rfl, fun d hd ↦ ?_⟩
    obtain hd | hd := List.mem_append.mp hd
    · exact h d hd
    · obtain rfl := List.mem_singleton.mp hd
      exact hc

/-- One call keeps what is known of every server. -/
theorem LastKnown.call {s : ProcInfoState α}
    (h : ∀ server, LastKnown zeros calls server (s.lastPinfo server)) (c : ProcInfoCall α)
    (server : Nat) : LastKnown zeros (calls ++ [c]) server ((getProcinfo s c).1.lastPinfo server) := by
  rw [getProcinfo]
  by_cases hhit : (s.lastPinfo c.server).piPid = c.pid ∧ ¬s.firstTime
  · rw [if_pos hhit]
    exact (h server).concat fun hs ↦ .inl (hs ▸ hhit.1.symm)
  · rw [if_neg hhit]
    change LastKnown zeros _ server (Function.update s.lastPinfo c.server _ server)
    by_cases hs : server = c.server
    · subst hs
      rw [Function.update_self]
      obtain ⟨hr, hl⟩ | hl :=
        (seekProcinfo_spec c.pid c.records (s.lastPinfo c.server) c.distinct).2
      · rw [hl]
        exact (h c.server).concat fun _ ↦ .inr hr
      · exact .inl (.last rfl hl.symm)
    · rw [Function.update_of_ne hs]
      exact (h server).concat fun he ↦ absurd he.symm hs

end

theorem procinfoAfter_concat (zeros : α) (calls : List (ProcInfoCall α)) (c : ProcInfoCall α) :
    procinfoAfter zeros (calls ++ [c]) = (getProcinfo (procinfoAfter zeros calls) c).1 :=
  List.foldl_append

/-- The state behind a run: whether there has been a call, and what is known of every server. -/
theorem procinfoAfter_known (zeros : α) (calls : List (ProcInfoCall α)) :
    ((procinfoAfter zeros calls).firstTime = false ↔ calls ≠ []) ∧
      ∀ server, LastKnown zeros calls server ((procinfoAfter zeros calls).lastPinfo server) := by
  induction calls using List.reverseRecOn with
  | nil => exact ⟨by simp [procinfoAfter], fun server ↦ .inr ⟨rfl, nofun⟩⟩
  | append_singleton calls c ih =>
    rw [procinfoAfter_concat]
    refine ⟨iff_of_true (getProcinfo_firstTime _ c) (by simp), fun server ↦ ?_⟩
    exact LastKnown.call ih.2 c server

end

end LibGTop.Aix
