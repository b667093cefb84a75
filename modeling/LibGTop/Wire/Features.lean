import LibGTop.Base.Masks

/-!
# Features, commands and privilege switches

The features of the library (`features.def`), their bit numbers in a
`glibtop_sysdeps` mask (`include/glibtop/sysdeps.h`), the command numbers of the
client/server protocol (`include/glibtop/command.h`) and the compile-time
switches `GLIBTOP_SUID_*` that move a feature into the setuid server
(`sysdeps/*/glibtop_server.h`, `lib/sysdeps.c`).
-/

namespace LibGTop.Wire

open Base

/-- The features of the library, `features.def:1–28`, in the order of their mask bits. -/
inductive Feature
  | cpu
  | mem
  | swap
  | uptime
  | loadavg
  | shmLimits
  | msgLimits
  | semLimits
  | proclist
  | procState
  | procUid
  | procMem
  | procTime
  | procSignal
  | procKernel
  | procSegment
  | procArgs
  | procMap
  | mountlist
  | fsusage
  | netload
  | ppp
  | netlist
  | procOpenFiles
  | procWd
  | procAffinity
  | procIo
  | disk
  deriving DecidableEq, Repr

/-- Bit number `GLIBTOP_SYSDEPS_*`, `include/glibtop/sysdeps.h:29–57`. -/
def Feature.sysdeps : Feature → Nat
  | .cpu => 1
  | .mem => 2
  | .swap => 3
  | .uptime => 4
  | .loadavg => 5
  | .shmLimits => 6
  | .msgLimits => 7
  | .semLimits => 8
  | .proclist => 9
  | .procState => 10
  | .procUid => 11
  | .procMem => 12
  | .procTime => 13
  | .procSignal => 14
  | .procKernel => 15
  | .procSegment => 16
  | .procArgs => 17
  | .procMap => 18
  | .mountlist => 19
  | .fsusage => 20
  | .netload => 21
  | .ppp => 22
  | .netlist => 23
  | .procOpenFiles => 24
  | .procWd => 25
  | .procAffinity => 26
  | .procIo => 27
  | .disk => 28

/-- Command number `GLIBTOP_CMND_*` of a feature, `include/glibtop/command.h:33–63`. -/
def Feature.cmnd : Feature → Nat
  | .cpu => 2
  | .mem => 3
  | .swap => 4
  | .uptime => 5
  | .loadavg => 6
  | .shmLimits => 7
  | .msgLimits => 8
  | .semLimits => 9
  | .proclist => 10
  | .procState => 11
  | .procUid => 12
  | .procMem => 13
  | .procTime => 14
  | .procSignal => 15
  | .procKernel => 16
  | .procSegment => 17
  | .procArgs => 18
  | .procMap => 19
  | .mountlist => 20
  | .fsusage => 21
  | .netload => 22
  | .ppp => 23
  | .netlist => 24
  | .procOpenFiles => 25
  | .procWd => 26
  | .procAffinity => 27
  | .procIo => 28
  | .disk => 29

/-- `GLIBTOP_MAX_SYSDEPS`, `include/glibtop/sysdeps.h:59`. -/
def glibtopMaxSysdeps : Nat := 29

/-- `GLIBTOP_MAX_CMND`, `include/glibtop/command.h:65`. -/
def glibtopMaxCmnd : Nat := 30

/-- `GLIBTOP_SYSDEPS_ALL`, `include/glibtop/sysdeps.h:64`. -/
def glibtopSysdepsAll : BitVec 64 := BitVec.twoPow 64 glibtopMaxSysdeps - 1#64

/-- A mask names a feature by the feature's bit. -/
def names (mask : BitVec 64) (f : Feature) : Bool := mask.getLsbD f.sysdeps

/-- The mask of a single feature, as in `1 << GLIBTOP_SYSDEPS_X`. -/
def Feature.mask (f : Feature) : BitVec 64 := BitVec.twoPow 64 f.sysdeps

theorem Feature.sysdeps_lt (f : Feature) : f.sysdeps < glibtopMaxSysdeps := by
  cases f <;> decide

theorem Feature.sysdeps_lt_width (f : Feature) : f.sysdeps < 64 :=
  Nat.lt_trans f.sysdeps_lt (by decide)

theorem Feature.cmnd_lt (f : Feature) : f.cmnd < glibtopMaxCmnd := by
  cases f <;> decide

/-- The two number tables agree: a command number follows the feature's bit number. -/
theorem Feature.cmnd_eq_sysdeps_add_one (f : Feature) : f.cmnd = f.sysdeps + 1 := by
  cases f <;> rfl

/-- Distinct features have distinct mask bits. -/
theorem Feature.sysdeps_injective : Function.Injective Feature.sysdeps := by
  intro f g h
  cases f <;> cases g <;> first | rfl | exact absurd h (by decide)

/-- The mask of all features names every one. -/
theorem names_glibtopSysdepsAll (f : Feature) : names glibtopSysdepsAll f = true := by
  cases f <;> decide

/-- A single feature's mask meets another mask exactly when that mask names the feature. -/
theorem mask_and_eq_zero_iff (f : Feature) (mask : BitVec 64) :
    f.mask &&& mask = 0#64 ↔ names mask f = false :=
  twoPow_and_eq_zero_iff f.sysdeps f.sysdeps_lt_width mask

/-- The commands of the protocol: two of its own and one for each feature. -/
inductive Cmnd
  | quit
  | sysdeps
  | get (f : Feature)
  deriving DecidableEq, Repr

/-- Number of a command on the wire, `include/glibtop/command.h:30–63`. -/
def Cmnd.number : Cmnd → Nat
  | .quit => 0
  | .sysdeps => 1
  | .get f => f.cmnd

/-- The features by ascending command number. -/
def allFeatures : List Feature :=
  [.cpu, .mem, .swap, .uptime, .loadavg, .shmLimits, .msgLimits, .semLimits, .proclist,
    .procState, .procUid, .procMem, .procTime, .procSignal, .procKernel, .procSegment, .procArgs,
    .procMap, .mountlist, .fsusage, .netload, .ppp, .netlist, .procOpenFiles, .procWd,
    .procAffinity, .procIo, .disk]

/-- The command a number stands for, as the handlers' `switch` finds its case. -/
def Cmnd.ofNumber? : Nat → Option Cmnd
  | 0 => some .quit
  | 1 => some .sysdeps
  | n + 2 => (allFeatures[n]?).map .get

/-- Looking a command's number up finds the command. -/
theorem Cmnd.ofNumber?_number (c : Cmnd) : Cmnd.ofNumber? c.number = some c := by
  cases c with
  | get f => cases f <;> rfl
  | _ => rfl

/-- Every command number below the maximum stands for a command. -/
theorem Cmnd.exists_ofNumber? (n : Nat) (h : n < glibtopMaxCmnd) :
    ∃ c, Cmnd.ofNumber? n = some c ∧ c.number = n := by
  revert n
  decide +kernel

/-- The switches `GLIBTOP_SUID_*` of a platform. `mountlist` and `fsusage` have none:
`features.def` marks them with `@` and the server is never used for them. -/
structure SuidConfig where
  suid : Feature → Bool
  mountlist_off : suid .mountlist = false
  fsusage_off : suid .fsusage = false

/-- The features whose switches `lib/sysdeps.c:28–54` adds up, in its order. -/
def suidFeatures : List Feature :=
  [.cpu, .disk, .mem, .swap, .uptime, .loadavg, .shmLimits, .msgLimits, .semLimits, .proclist,
    .procState, .procUid, .procMem, .procTime, .procSignal, .procKernel, .procSegment, .procArgs,
    .procMap, .procOpenFiles, .netload, .netlist, .procWd, .procAffinity, .ppp, .procIo]

/-- `glibtop_server_features`, `lib/sysdeps.c:28`: a switch that is set is the feature's mask. -/
def glibtopServerFeatures (cfg : SuidConfig) : BitVec 64 :=
  sumMasks 64 Feature.sysdeps cfg.suid suidFeatures

theorem mem_suidFeatures (f : Feature) (hm : f ≠ .mountlist) (hf : f ≠ .fsusage) :
    f ∈ suidFeatures := by
  cases f <;> first | exact absurd rfl hm | exact absurd rfl hf | decide

/-- A feature that needs the server is one of those added up. -/
theorem SuidConfig.mem_of_suid (cfg : SuidConfig) (f : Feature) (h : cfg.suid f = true) :
    f ∈ suidFeatures := by
  apply mem_suidFeatures
  · rintro rfl
    simp [cfg.mountlist_off] at h
  · rintro rfl
    simp [cfg.fsusage_off] at h

/-- The server features name exactly the features whose switch is set. -/
theorem names_glibtopServerFeatures (cfg : SuidConfig) (f : Feature) :
    names (glibtopServerFeatures cfg) f = cfg.suid f := by
  have hd : (suidFeatures.map Feature.sysdeps).Nodup := by decide
  rw [names, glibtopServerFeatures, getLsbD_sumMasks _ _ _ _ hd _ f.sysdeps_lt_width]
  apply Bool.eq_iff_iff.mpr
  rw [List.any_eq_true]
  constructor
  · rintro ⟨g, -, hg⟩
    simp only [Bool.and_eq_true, beq_iff_eq] at hg
    exact Feature.sysdeps_injective hg.2 ▸ hg.1
  · intro h
    exact ⟨f, cfg.mem_of_suid f h, by simp [h]⟩

/-- A feature's mask meets the server features exactly when its switch is set. -/
theorem mask_and_glibtopServerFeatures (cfg : SuidConfig) (f : Feature) :
    f.mask &&& glibtopServerFeatures cfg = 0#64 ↔ cfg.suid f = false := by
  rw [mask_and_eq_zero_iff, names_glibtopServerFeatures]

/-- The server features are among all features. -/
theorem glibtopServerFeatures_and_all (cfg : SuidConfig) :
    glibtopServerFeatures cfg &&& glibtopSysdepsAll = glibtopServerFeatures cfg := by
  have hd : (suidFeatures.map Feature.sysdeps).Nodup := by decide
  apply BitVec.eq_of_getLsbD_eq
  intro i hi
  rw [BitVec.getLsbD_and, glibtopServerFeatures, getLsbD_sumMasks _ _ _ _ hd _ hi,
    Bool.and_eq_left_iff_imp, List.any_eq_true]
  rintro ⟨f, -, hf⟩
  simp only [Bool.and_eq_true, beq_iff_eq] at hf
  exact hf.2 ▸ names_glibtopSysdepsAll f

end LibGTop.Wire
