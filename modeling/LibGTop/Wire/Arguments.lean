import LibGTop.Base.Words
import LibGTop.Wire.Features

/-!
# Arguments of the getters

`features.def` declares for each feature the parameters of its getters, which
`lib/lib.pl` turns into the prototypes of `glibtop_get_X_l`, `_s` and `_p`.
-/

namespace LibGTop.Wire

open Base

/-- The parameter types of `features.def`, as `lib/lib.pl:56–61` converts them. -/
inductive Kind
  | long
  | pid
  | unsigned
  | int
  | ushort
  | string
  deriving DecidableEq, Repr

/-- The parameters of a feature's stub, third column of `features.def`. -/
def parameters : Feature → List Kind
  | .cpu | .disk | .mem | .swap | .uptime | .loadavg => []
  | .shmLimits | .msgLimits | .semLimits => []
  | .proclist => [.long, .long]
  | .procState | .procUid | .procMem | .procTime | .procSignal => [.pid]
  | .procKernel | .procSegment => [.pid]
  | .procArgs => [.pid, .unsigned]
  | .procMap | .procOpenFiles => [.pid]
  | .mountlist => [.int]
  | .fsusage | .netload => [.string]
  | .ppp => [.ushort]
  | .netlist => []
  | .procWd | .procAffinity | .procIo => [.pid]

/-- An argument: the bits of a value of its type, or the bytes of a string before its NUL. -/
inductive Arg
  | long (value : BitVec 64)
  | pid (value : BitVec 32)
  | unsigned (value : BitVec 32)
  | int (value : BitVec 32)
  | ushort (value : BitVec 16)
  | string (text : List UInt8)
  deriving DecidableEq, Repr

/-- The type of an argument. -/
def Arg.kind : Arg → Kind
  | .long _ => .long
  | .pid _ => .pid
  | .unsigned _ => .unsigned
  | .int _ => .int
  | .ushort _ => .ushort
  | .string _ => .string

/-- A string argument is NUL-terminated memory of an addressable size. -/
def Arg.Valid : Arg → Prop
  | .string text => (0 : UInt8) ∉ text ∧ text.length + 1 < 2 ^ 64
  | _ => True

/-- The bytes an argument contributes to the payload: its field of `param_buf`
(`lib/lib.pl:119–136`), or the string with its NUL (`lib/lib.pl:100–106`). -/
def Arg.store (order : ByteOrder) : Arg → List UInt8
  | .long value => order.store 8 value.toNat
  | .pid value => order.store 4 value.toNat
  | .unsigned value => order.store 4 value.toNat
  | .int value => order.store 4 value.toNat
  | .ushort value => order.store 2 value.toNat
  | .string text => text ++ [0]

/-- `sizeof` a scalar field of `param_buf`. -/
def Kind.size : Kind → Nat
  | .long => 8
  | .pid | .unsigned | .int => 4
  | .ushort => 2
  | .string => 1

/-- No field that starts at `offset` or later needs padding in front of it. -/
def packed : Nat → List Kind → Bool
  | _, [] => true
  | offset, k :: kinds => offset % k.size == 0 && packed (offset + k.size) kinds

/-- A C compiler lays out every `param_buf` without padding: each field starts at a multiple of
its size, and the whole is a multiple of the size of each. -/
theorem parameters_packed (f : Feature) :
    packed 0 (parameters f) = true ∧
      ∀ k ∈ parameters f, ((parameters f).map Kind.size).sum % k.size = 0 := by
  cases f <;> decide

/-- A call with one argument. -/
theorem args_of_map_eq_singleton {args : List Arg} {k : Kind} (h : args.map Arg.kind = [k]) :
    ∃ a, args = [a] ∧ a.kind = k := by
  obtain ⟨a, rest, rfl, ha, hr⟩ := List.map_eq_cons_iff.mp h
  exact ⟨a, by rw [List.map_eq_nil_iff.mp hr], ha⟩

/-- A call with two arguments. -/
theorem args_of_map_eq_pair {args : List Arg} {k l : Kind} (h : args.map Arg.kind = [k, l]) :
    ∃ a b, args = [a, b] ∧ a.kind = k ∧ b.kind = l := by
  obtain ⟨a, rest, rfl, ha, hr⟩ := List.map_eq_cons_iff.mp h
  obtain ⟨b, rfl, hb⟩ := args_of_map_eq_singleton hr
  exact ⟨a, b, rfl, ha, hb⟩

/-- An argument is built as its type says. -/
theorem Arg.eq_of_kind {a : Arg} {k : Kind} (h : a.kind = k) :
    match k with
    | .long => ∃ value, a = .long value
    | .pid => ∃ value, a = .pid value
    | .unsigned => ∃ value, a = .unsigned value
    | .int => ∃ value, a = .int value
    | .ushort => ∃ value, a = .ushort value
    | .string => ∃ text, a = .string text := by
  subst h
  cases a <;> exact ⟨_, rfl⟩

/-- A scalar argument is as long as its type. -/
theorem Arg.length_store (order : ByteOrder) (a : Arg) (h : a.kind ≠ .string) :
    (a.store order).length = a.kind.size := by
  cases a with
  | string text => exact absurd rfl h
  | _ => simp [store, kind, Kind.size]

end LibGTop.Wire
