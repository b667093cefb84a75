import LibGTop.Client.Call
import LibGTop.Wire.Arguments

/-!
# Client stubs

`lib/lib.pl` generates one `glibtop_get_X_l` for each line of `features.def`.
When the server is to be asked, a stub copies its arguments into `param_buf`, or
points to its string, and passes them to `glibtop_call_l` as the payload.
-/

namespace LibGTop.Client

open Base Wire

/-- A call of a stub: a feature and arguments of the types its prototype declares. -/
structure Call where
  feature : Feature
  args : List Arg
  typed : args.map Arg.kind = parameters feature
  valid : ∀ a ∈ args, a.Valid

/-- The payload of a call, `send_ptr` and `send_size` of `lib/lib.pl:100–153`. -/
def Call.sendBuf (order : ByteOrder) (c : Call) : List UInt8 := c.args.flatMap (Arg.store order)

/-- The payload of a call without a string argument fits the inline parameter. -/
theorem Call.length_sendBuf_le (order : ByteOrder) (c : Call)
    (h : Kind.string ∉ parameters c.feature) :
    (c.sendBuf order).length ≤ glibtopParamSize := by
  have hs : (c.sendBuf order).length = ((parameters c.feature).map Kind.size).sum := by
    rw [sendBuf, List.length_flatMap, ← c.typed, List.map_map]
    congr 1
    apply List.map_congr_left
    intro a ha
    apply a.length_store order
    intro hk
    exact h (c.typed ▸ List.mem_map.mpr ⟨a, ha, hk⟩)
  rw [hs]
  generalize c.feature = f
  cases f <;> decide

/-- The payload of a call with a string argument is the string and its NUL. -/
theorem Call.sendBuf_of_string (order : ByteOrder) (c : Call)
    (h : parameters c.feature = [.string]) :
    ∃ text, c.args = [.string text] ∧ (0 : UInt8) ∉ text ∧ text.length + 1 < 2 ^ 64 ∧
      c.sendBuf order = text ++ [0] := by
  obtain ⟨a, ha, hk⟩ := args_of_map_eq_singleton (c.typed.trans h)
  obtain ⟨text, rfl⟩ := Arg.eq_of_kind hk
  obtain ⟨hn, hl⟩ : (Arg.string text).Valid :=
    c.valid _ (by rw [ha]; exact List.mem_singleton_self _)
  exact ⟨text, ha, hn, hl, by simp [sendBuf, ha, Arg.store]⟩

/-- Every feature takes scalars or a single string. -/
theorem parameters_string (f : Feature) :
    Kind.string ∉ parameters f ∨ parameters f = [.string] := by
  cases f <;> decide

theorem Call.sendBuf_lt (order : ByteOrder) (c : Call) : (c.sendBuf order).length < 2 ^ 64 := by
  rcases parameters_string c.feature with h | h
  · exact Nat.lt_of_le_of_lt (c.length_sendBuf_le order h) (by decide)
  · obtain ⟨text, -, -, hl, hs⟩ := c.sendBuf_of_string order h
    rw [hs, List.length_append]
    exact hl

/-- The `glibtop_call_l` of a stub that asks the server, `lib/lib.pl:190–195`; `size` is the
size of the feature's structure. -/
def Call.request (abi : Abi) (size : Nat) (c : Call) : Request where
  cmnd := .get c.feature
  sendBuf := c.sendBuf abi.order
  sendBuf_lt := c.sendBuf_lt abi.order
  recvSize := some size

end LibGTop.Client
