import LibGTop.Bsd.Suid
import LibGTop.Common.ProcArgs
import Mathlib

/-!
# The arguments of a process

`glibtop_get_proc_args_p` of FreeBSD (`sysdeps/freebsd/procargs.c:46–96`) and of OpenBSD
(`sysdeps/openbsd/procargs.c:46–104`), which flatten the vector of the kernel, and the vector that
`glibtop_get_proc_argv_l` makes of their bytes.
-/

namespace LibGTop.Bsd

open Base Common

/-- A string of C. -/
abbrev Argument := { arg : List UInt8 // 0 ∉ arg }

/-- What the kernel answers: the number of processes with the flag `P_SYSTEM` of the first, and the
vector of `kvm_getargv` for a limit. -/
structure ArgsKernel where
  procs : Option (Int × Bool)
  getargv : Nat → Option (List Argument)

/-- The loop of `memcpy`, with the memory and the position. -/
def copyArgs : List (List UInt8) → List UInt8 × Nat → List UInt8 × Nat
  | [], copied => copied
  | arg :: args, (retval, pos) =>
    copyArgs args (retval.take pos ++ overlay (retval.drop pos) (arg ++ [0]),
      pos + (arg.length + 1))

/-- The memory and the result that are made of a vector, `sysdeps/freebsd/procargs.c:78–95` and
`sysdeps/openbsd/procargs.c:86–103`. -/
def flattenArgs (args : List (List UInt8)) : ProcArgs × Option (List UInt8) :=
  let size := (args.map fun arg ↦ arg.length + 1).sum + 2
  let (retval, pos) := copyArgs args (zeros size, 0)
  ({ size := if pos ≠ 0 then pos - 1 else 0, flags := sysdepsProcArgs }, some retval)

/-- `glibtop_get_proc_args_p` of FreeBSD, `sysdeps/freebsd/procargs.c:46–96`. -/
def freebsdGetProcArgsP (kernel : ArgsKernel) (pid : BitVec 32) (maxLen : Nat) :
    Prog Process (ProcArgs × Option (List UInt8)) :=
  if pid.toInt < 5 then pure ({}, none)
  else do
    suidEnter
    match kernel.procs.filter fun pinfo ↦ 1 ≤ pinfo.1 with
    | none =>
      suidLeave
      pure ({}, none)
    | some _ =>
      match kernel.getargv maxLen with
      | none =>
        suidLeave
        pure ({}, none)
      | some args =>
        suidLeave
        pure (flattenArgs (args.map Subtype.val))

/-- `glibtop_get_proc_args_p` of OpenBSD, `sysdeps/openbsd/procargs.c:46–104`. -/
def openbsdGetProcArgsP (kernel : ArgsKernel) (pid : BitVec 32) (maxLen : Nat) :
    Prog Process (ProcArgs × Option (List UInt8)) :=
  if pid.toInt < 2 then pure ({}, none)
  else do
    suidEnter
    match kernel.procs with
    | none =>
      suidLeave
      pure ({}, none)
    | some (_, system) =>
      if system then do
        suidLeave
        pure ({}, none)
      else
        match kernel.getargv maxLen with
        | none =>
          suidLeave
          pure ({}, none)
        | some args =>
          suidLeave
          pure (flattenArgs (args.map Subtype.val))

/-- The systems whose getter flattens a vector. -/
inductive ArgsSystem
  | freebsd
  | openbsd

/-- The getter of a system. -/
def ArgsSystem.glibtopGetProcArgsP : ArgsSystem → ArgsKernel → BitVec 32 → Nat →
    Prog Process (ProcArgs × Option (List UInt8))
  | freebsd => freebsdGetProcArgsP
  | openbsd => openbsdGetProcArgsP

/-- The kernel has the vector of a process that the system does not pass over. -/
def ArgsSystem.Delivers (system : ArgsSystem) (kernel : ArgsKernel) (pid : BitVec 32)
    (args : List Argument) : Prop :=
  kernel.getargv 0 = some args ∧
    match system with
    | freebsd => 5 ≤ pid.toInt ∧ ∃ pinfo, kernel.procs = some pinfo ∧ 1 ≤ pinfo.1
    | openbsd => 2 ≤ pid.toInt ∧ ∃ pinfo, kernel.procs = some pinfo ∧ pinfo.2 = false

section

variable (args : List (List UInt8))

theorem length_flattened :
    (flattened args).length = (args.map fun arg ↦ arg.length + 1).sum := by
  induction args with
  | nil => rfl
  | cons arg args ih =>
    rw [flattened_cons, List.length_append, List.length_cons, ih, List.map_cons, List.sum_cons]
    omega

/-- Behind what is there already the strings are copied one by one. -/
theorem copyArgs_eq (before : List UInt8) (room : Nat) :
    copyArgs args (before ++ zeros ((flattened args).length + room), before.length) =
      (before ++ flattened args ++ zeros room, (before ++ flattened args).length) := by
  induction args generalizing before with
  | nil => simp [copyArgs]
  | cons arg args ih =>
    have hlength : (flattened (arg :: args)).length + room - (arg ++ [0]).length =
        (flattened args).length + room := by
      simp only [flattened_cons, List.length_append, List.length_cons, List.length_nil]
      omega
    have hpos : before.length + (arg.length + 1) = (before ++ (arg ++ [0])).length := by
      simp
    rw [copyArgs, List.take_left, List.drop_left, overlay_zeros, hlength, hpos, ← List.append_assoc,
      ih]
    simp

/-- The strings are in the memory, and the size leaves out the last terminator. -/
theorem flattenArgs_eq :
    flattenArgs args =
      ({ size := (flattened args).length - 1, flags := sysdepsProcArgs },
        some (flattened args ++ zeros 2)) := by
  have hcopy := copyArgs_eq args [] 2
  simp only [List.nil_append, List.length_nil] at hcopy
  rw [flattenArgs]
  simp only [← length_flattened, hcopy, Prod.mk.injEq, ProcArgs.mk.injEq, true_and, and_true]
  split <;> omega

/-- All strings are found again but a last one that is empty. -/
theorem splitArgs0_flattenArgs (h : ∀ arg ∈ args, 0 ∉ arg) :
    (splitArgs0 (flattened args ++ zeros 2) ((flattened args).length - 1)).map Prod.fst =
      some (if args.getLast? = some [] then args.dropLast else args) := by
  obtain rfl | ⟨init, last, rfl⟩ := List.eq_nil_or_concat' args
  · exact congrArg (Option.map Prod.fst) (splitArgs0_zero _)
  obtain ⟨hinit, hlast⟩ := List.forall_mem_append.mp h
  have hlength := congrArg List.length (flattened_concat init last)
  rw [List.length_append, List.length_append, List.length_singleton] at hlength
  rw [List.getLast?_concat, List.dropLast_concat]
  by_cases hn : last = []
  · subst hn
    rw [if_pos rfl, hlength, List.length_nil, Nat.zero_add, Nat.add_sub_cancel]
    obtain rfl | ⟨init, arg, rfl⟩ := List.eq_nil_or_concat' init
    · exact congrArg (Option.map Prod.fst) (splitArgs0_zero _)
    obtain ⟨hinit, harg⟩ := List.forall_mem_append.mp hinit
    have hlow : (flattened init).length < (flattened (init ++ [arg])).length := by
      simp [flattened_concat]
    have hs := splitArgs0_flattened hinit (harg arg (List.mem_singleton_self arg)) (0 :: zeros 2)
      hlow (Nat.le_refl _)
    rw [flattened_concat (init ++ [arg]), List.append_assoc, List.nil_append, List.singleton_append,
      hs]
    rfl
  · have hpos : 0 < last.length := List.length_pos_iff.mpr hn
    rw [if_neg fun he ↦ hn (Option.some.inj he),
      splitArgs0_flattened hinit (hlast last (List.mem_singleton_self last)) (zeros 2) (by omega)
        (Nat.sub_le _ _)]
    rfl

end

/-- Where the kernel has the vector, the getter returns what it is flattened to. -/
theorem ArgsSystem.run_getter (system : ArgsSystem) {kernel : ArgsKernel} {pid : BitVec 32}
    {args : List Argument} (h : system.Delivers kernel pid args) {p : Process}
    (hp : p.suid.Dropped) :
    ∃ p', (system.glibtopGetProcArgsP kernel pid 0).run p =
      .ok (flattenArgs (args.map Subtype.val), p') := by
  obtain ⟨hargs, h⟩ := h
  cases system with
  | freebsd =>
    obtain ⟨hpid, pinfo, hprocs, hcount⟩ := h
    have hfilter : kernel.procs.filter (fun pinfo ↦ 1 ≤ pinfo.1) = some pinfo := by
      rw [hprocs, Option.filter_some, if_pos (decide_eq_true hcount)]
    rw [glibtopGetProcArgsP, freebsdGetProcArgsP, if_neg (by omega), hfilter]
    simp only [hargs]
    exact ⟨_, run_suidEnter_suidLeave hp _⟩
  | openbsd =>
    obtain ⟨hpid, pinfo, hprocs, hsystem⟩ := h
    rw [glibtopGetProcArgsP, openbsdGetProcArgsP, if_neg (by omega), hprocs]
    simp only [hargs, hsystem, Bool.false_eq_true, if_false]
    exact ⟨_, run_suidEnter_suidLeave hp _⟩

/-- The vector that is found for one of the kernel is without a last string that is empty. -/
theorem ArgsSystem.run_argv (system : ArgsSystem) {kernel : ArgsKernel} {pid : BitVec 32}
    {args : List Argument} (h : system.Delivers kernel pid args) {p : Process}
    (hp : p.suid.Dropped) :
    ∃ buf argv p', (glibtopGetProcArgvL (system.glibtopGetProcArgsP kernel pid) 0).run p =
        .ok ((buf, argv), p') ∧
      argv.map Prod.fst = some (if (args.map Subtype.val).getLast? = some [] then
        (args.map Subtype.val).dropLast else args.map Subtype.val) := by
  obtain ⟨p', hrun⟩ := system.run_getter h hp
  rw [flattenArgs_eq] at hrun
  refine ⟨_, _, p', by rw [glibtopGetProcArgvL, StateT.run_bind, hrun]; rfl, ?_⟩
  refine splitArgs0_flattenArgs _ fun arg harg ↦ ?_
  obtain ⟨arg, -, rfl⟩ := List.mem_map.mp harg
  exact arg.2

/-- The vector of the kernel is found again exactly when it is empty or its last string is not
empty. -/
theorem glibtopGetProcArgvL_vector (system : ArgsSystem) {kernel : ArgsKernel} {pid : BitVec 32}
    {args : List Argument} (h : system.Delivers kernel pid args) {p : Process}
    (hp : p.suid.Dropped) :
    ∃ buf argv p', (glibtopGetProcArgvL (system.glibtopGetProcArgsP kernel pid) 0).run p =
        .ok ((buf, argv), p') ∧
      (argv.map Prod.fst = some (args.map Subtype.val) ↔
        (args.map Subtype.val).getLast? ≠ some []) := by
  obtain ⟨buf, argv, p', hrun, hargv⟩ := system.run_argv h hp
  refine ⟨buf, argv, p', hrun, ?_⟩
  rw [hargv, Option.some.injEq]
  split
  · next hlast =>
    refine iff_of_false (fun he ↦ ?_) (not_not.mpr hlast)
    have hlength := congrArg List.length he
    have hn : args.map Subtype.val ≠ [] := fun hn ↦ by simp [hn] at hlast
    have hpos := List.length_pos_iff.mpr hn
    rw [List.length_dropLast] at hlength
    omega
  · next hlast => exact iff_of_true rfl hlast

/-- A kernel with one process that has these arguments. -/
def argsKernel (args : List Argument) : ArgsKernel where
  procs := some (1, false)
  getargv _ := some args

theorem zero_notMem_nil : (0 : UInt8) ∉ ([] : List UInt8) := List.not_mem_nil

/-- The vector of `cat "" x`. -/
def fullVector : List Argument :=
  [⟨[99, 97, 116], by decide⟩, ⟨[], zero_notMem_nil⟩, ⟨[120], by decide⟩]

/-- The vector of `cat ""`. -/
def emptyVector : List Argument := [⟨[99, 97, 116], by decide⟩, ⟨[], zero_notMem_nil⟩]

theorem delivers_argsKernel (system : ArgsSystem) (args : List Argument) :
    system.Delivers (argsKernel args) 1000 args := by
  refine ⟨rfl, ?_⟩
  cases system with
  | freebsd => exact ⟨by decide, (1, false), rfl, by decide⟩
  | openbsd => exact ⟨by decide, (1, false), rfl, rfl⟩

theorem glibtopGetProcArgvL_fullVector :
    ∃ buf argv p', (glibtopGetProcArgvL (ArgsSystem.freebsd.glibtopGetProcArgsP
          (argsKernel fullVector) 1000) 0).run { suid := Suid.opened 2 1001 } =
        .ok ((buf, argv), p') ∧
      argv.map Prod.fst = some (fullVector.map Subtype.val) := by
  obtain ⟨buf, argv, p', hrun, hiff⟩ := glibtopGetProcArgvL_vector .freebsd
    (delivers_argsKernel .freebsd fullVector) (p := { suid := Suid.opened 2 1001 }) rfl
  exact ⟨buf, argv, p', hrun, hiff.mpr (by decide)⟩

/-- An empty last argument is not found again. -/
theorem not_glibtopGetProcArgvL_vector :
    ¬∀ (system : ArgsSystem) (kernel : ArgsKernel) (pid : BitVec 32) (args : List Argument)
      (p : Process), system.Delivers kernel pid args → p.suid.Dropped →
        ∃ buf argv p', (glibtopGetProcArgvL (system.glibtopGetProcArgsP kernel pid) 0).run p =
            .ok ((buf, argv), p') ∧
          argv.map Prod.fst = some (args.map Subtype.val) := by
  intro h
  obtain ⟨buf, argv, p', hrun, hargv⟩ := h .openbsd (argsKernel emptyVector) 1000 emptyVector
    { suid := Suid.opened 2 1001 } (delivers_argsKernel .openbsd emptyVector) rfl
  obtain ⟨buf', argv', q, hrun', hargv'⟩ := ArgsSystem.openbsd.run_argv
    (delivers_argsKernel .openbsd emptyVector) (p := { suid := Suid.opened 2 1001 }) rfl
  rw [hrun] at hrun'
  obtain ⟨hresult, -⟩ := Prod.mk.inj (Except.ok.inj hrun')
  obtain ⟨-, rfl⟩ := Prod.mk.inj hresult
  rw [hargv] at hargv'
  exact absurd hargv' (by decide)

end LibGTop.Bsd
