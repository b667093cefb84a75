import LibGTop.Client.Stub
import LibGTop.Protocol.Payload

/-!
# Arguments across the connection

The stubs pack their arguments from a table; the handlers unpack them by hand.
Reading the payload back as the table declares recovers every argument. The
handlers read it so except in three places: the parent handler invokes
`proc_args` with a limit of zero, the setuid handler reads that limit as an
`unsigned short`, and it copies the device of `ppp` into the first two bytes of
an `unsigned` that is not initialised.
-/

namespace LibGTop.Protocol

open Base Wire Client Daemon

variable {abi : Abi}

/-- A word is read back from its store. -/
theorem word_store (order : ByteOrder) (width : Nat) (value : BitVec (8 * width)) :
    word order (8 * width) (order.store width value.toNat) = value := by
  have hp : 256 ^ width = 2 ^ (8 * width) := by rw [Nat.pow_mul]
  rw [word, order.load_store_of_lt _ _ (hp ▸ value.isLt), BitVec.ofNat_toNat, BitVec.setWidth_eq]

/-- A word is read back from its place in the payload. -/
theorem word_slice_store (order : ByteOrder) (width : Nat) (value : BitVec (8 * width))
    (before rest : List UInt8) :
    word order (8 * width) (slice (before ++ (order.store width value.toNat ++ rest))
      before.length width) = value := by
  rw [slice_append _ _ _ _ _ rfl (order.length_store _ _), word_store]

/-- A scalar argument is read back from its place in the payload. -/
theorem loadArg_store (order : ByteOrder) (before rest : List UInt8) (a : Arg)
    (h : a.kind ≠ .string) :
    loadArg order (before ++ (a.store order ++ rest)) before.length a.kind = a := by
  cases a with
  | long value => exact congrArg Arg.long (word_slice_store order 8 value before rest)
  | pid value => exact congrArg Arg.pid (word_slice_store order 4 value before rest)
  | unsigned value => exact congrArg Arg.unsigned (word_slice_store order 4 value before rest)
  | int value => exact congrArg Arg.int (word_slice_store order 4 value before rest)
  | ushort value => exact congrArg Arg.ushort (word_slice_store order 2 value before rest)
  | string text => exact absurd rfl h

/-- Scalar arguments are read back from the payload that packs them. -/
theorem loadArgs_store (order : ByteOrder) (args : List Arg) (before rest : List UInt8)
    (h : ∀ a ∈ args, a.kind ≠ .string) :
    loadArgs order (before ++ (args.flatMap (Arg.store order) ++ rest)) before.length
      (args.map Arg.kind) = args := by
  induction args generalizing before with
  | nil => rfl
  | cons a args ih =>
    have ha := h a List.mem_cons_self
    have ht := ih (before ++ a.store order) fun b hb ↦ h b (List.mem_cons_of_mem _ hb)
    rw [List.length_append, a.length_store order ha] at ht
    rw [List.map_cons, loadArgs, List.flatMap_cons, List.append_assoc, loadArg_store _ _ _ _ ha]
    rw [← List.append_assoc before, ht]

/-- The arguments of every call are read back from its payload as the table declares them. -/
theorem loadArgs_sendBuf (abi : Abi) (c : Call) :
    loadArgs abi.order (parameterOf abi (c.sendBuf abi.order)) 0 (parameters c.feature) =
      c.args := by
  rcases parameters_string c.feature with h | h
  · have hs : ∀ a ∈ c.args, a.kind ≠ .string := by
      intro a ha hk
      exact h (c.typed ▸ List.mem_map.mpr ⟨a, ha, hk⟩)
    rw [← c.typed]
    exact loadArgs_store abi.order c.args [] _ hs
  · obtain ⟨text, ha, hn, -, hb⟩ := c.sendBuf_of_string abi.order h
    simp only [h, ha, loadArgs, loadArg, parameterOf, hb, List.drop_zero, List.append_assoc,
      List.singleton_append, cString_append_zero _ _ hn]

/-- The limit of a `proc_args` call. -/
def maxLen (c : Call) : BitVec 32 :=
  match c.args with
  | [_, .unsigned value] => value
  | _ => 0

/-- The limits of `proc_args` below which a handler passes the caller's on. -/
def maxLenBound : Handler → ByteOrder → Nat
  | .parent, _ => 1
  | .slave _, .little => 2 ^ 16
  | .slave _, .big => 1

/-- The calls whose arguments a handler passes on. -/
def ArgsKept (handler : Handler) (order : ByteOrder) (c : Call) : Prop :=
  (c.feature = .procArgs → (maxLen c).toNat < maxLenBound handler order) ∧
    (c.feature = .ppp → handler = .parent ∨ order = .little)

/-- Outside the three exceptions a handler reads the arguments as the table declares them. -/
theorem args_of_regular (handler : Handler) (h : Host abi) (now : Nat) (parameter : List UInt8)
    (f : Feature) (hp : f ≠ .procArgs) (hd : f = .ppp → handler = .parent) :
    handler.args h now parameter f = loadArgs abi.order parameter 0 (parameters f) := by
  cases handler <;> cases f <;> first
    | rfl
    | exact absurd rfl hp
    | simp at hd

/-- A `proc_args` call has a pid and a limit. -/
theorem args_of_procArgs {c : Call} (hf : c.feature = .procArgs) :
    ∃ pid, c.args = [.pid pid, .unsigned (maxLen c)] := by
  have ht := c.typed
  rw [hf] at ht
  obtain ⟨a, b, hab, ha, hb⟩ := args_of_map_eq_pair ht
  obtain ⟨pid, rfl⟩ := Arg.eq_of_kind ha
  obtain ⟨value, rfl⟩ := Arg.eq_of_kind hb
  exact ⟨pid, by rw [maxLen, hab]⟩

/-- The `unsigned short` at the start of a stored `unsigned` is the `unsigned` exactly for small
values. -/
theorem ushort_of_unsigned_iff (cfg : SuidConfig) (order : ByteOrder) (value : BitVec 32) :
    (word order 16 ((order.store 4 value.toNat).take 2)).setWidth 32 = value ↔
      value.toNat < maxLenBound (.slave cfg) order := by
  have hv := value.isLt
  rw [← BitVec.toNat_inj, BitVec.toNat_setWidth, word, BitVec.toNat_ofNat]
  cases order with
  | little =>
    rw [ByteOrder.load_take_little 2 4 _ (by decide), maxLenBound]
    omega
  | big =>
    rw [ByteOrder.load_take_big 2 4 _ (by decide), maxLenBound]
    have hh : value.toNat / 65536 < 65536 := by omega
    simp only [Nat.reduceSub, Nat.reducePow]
    rw [Nat.mod_eq_of_lt hh, Nat.mod_eq_of_lt hh, Nat.mod_eq_of_lt (by omega)]
    omega

/-- The device read from two copied bytes and two old ones is the caller's in little-endian order
and depends on the old bytes in big-endian order. -/
theorem slaveDevice_eq_iff (order : ByteOrder) (value : BitVec 16) (rest : List UInt8) :
    (∀ device, slaveDevice order device (order.store 2 value.toNat ++ rest) = value) ↔
      order = .little := by
  have hv := value.isLt
  have ho : ∀ device : BitVec 32, overlay (order.store 4 device.toNat)
      (slice (order.store 2 value.toNat ++ rest) 0 2) =
        order.store 2 value.toNat ++ (order.store 4 device.toNat).drop 2 := by
    intro device
    rw [slice_append_left _ _ _ (order.length_store _ _), overlay, order.length_store]
  simp only [slaveDevice, ho]
  cases order with
  | little =>
    simp only [iff_true]
    intro device
    rw [← BitVec.toNat_inj, BitVec.toNat_setWidth, word, BitVec.toNat_ofNat,
      ByteOrder.load_append_little, ByteOrder.load_store_of_lt _ _ _ hv, ByteOrder.length_store]
    omega
  | big =>
    simp only [reduceCtorEq, iff_false, not_forall]
    refine ⟨BitVec.ofNat 32 (value.toNat + 1), fun he ↦ ?_⟩
    rw [← BitVec.toNat_inj, BitVec.toNat_setWidth, word, BitVec.toNat_ofNat, BitVec.toNat_ofNat,
      ByteOrder.drop_store_big 2 4, ByteOrder.load_append_big,
      ByteOrder.load_store, ByteOrder.load_store, ByteOrder.length_store] at he
    omega

/-- The limit lies behind the pid in the payload. -/
private theorem slice_limit (abi : Abi) (c : Call) {pid : BitVec 32}
    (ha : c.args = [.pid pid, .unsigned (maxLen c)]) :
    slice (parameterOf abi (c.sendBuf abi.order)) 4 2 =
      (abi.order.store 4 (maxLen c).toNat).take 2 := by
  have hl : 2 ≤ (abi.order.store 4 (maxLen c).toNat).length := by simp
  simp only [parameterOf, Call.sendBuf, ha, List.flatMap_cons, List.flatMap_nil, Arg.store,
    List.append_nil, List.append_assoc, slice]
  rw [List.drop_left' (abi.order.length_store 4 _), List.take_append_of_le_length hl]

/-- In the first exception the parent handler passes on a limit of zero, and the setuid handler
the low or the high half of the caller's. -/
theorem args_procArgs_iff (handler : Handler) (h : Host abi) (now : Nat) (c : Call)
    (hf : c.feature = .procArgs) :
    handler.args h now (parameterOf abi (c.sendBuf abi.order)) c.feature = c.args ↔
      (maxLen c).toNat < maxLenBound handler abi.order := by
  obtain ⟨pid, ha⟩ := args_of_procArgs hf
  have hd := loadArgs_sendBuf abi c
  rw [hf, ha] at hd
  have hp : pidArg abi.order (parameterOf abi (c.sendBuf abi.order)) = .pid pid :=
    (List.cons.inj hd).1
  rw [hf, ha]
  cases handler with
  | parent =>
    have hz : (0 : BitVec 32).toNat = 0 := rfl
    simp only [Handler.args, hp, List.cons.injEq, Arg.unsigned.injEq, true_and, and_true,
      maxLenBound, ← BitVec.toNat_inj, hz]
    omega
  | slave cfg =>
    simp only [Handler.args, hp, slice_limit abi c ha, List.cons.injEq, Arg.unsigned.injEq,
      true_and, and_true]
    exact ushort_of_unsigned_iff cfg abi.order (maxLen c)

/-- In the last exception the setuid handler passes the device on in little-endian order. -/
theorem args_ppp_iff (cfg : SuidConfig) (c : Call) (hf : c.feature = .ppp) :
    (∀ (h : Host abi) now, (Handler.slave cfg).args h now
      (parameterOf abi (c.sendBuf abi.order)) c.feature = c.args) ↔ abi.order = .little := by
  obtain ⟨a, ha, hk⟩ := args_of_map_eq_singleton (c.typed.trans (by rw [hf]; rfl))
  obtain ⟨value, rfl⟩ := Arg.eq_of_kind hk
  have hs : parameterOf abi (c.sendBuf abi.order) =
      abi.order.store 2 value.toNat ++ zeros (abi.bufsiz - (c.sendBuf abi.order).length) := by
    simp [parameterOf, Call.sendBuf, ha, Arg.store]
  rw [← slaveDevice_eq_iff abi.order value
    (zeros (abi.bufsiz - (c.sendBuf abi.order).length)), hf, ha, hs]
  simp only [Handler.args, List.cons.injEq, Arg.ushort.injEq, and_true]
  constructor
  · intro h device
    exact h { idleHost abi with device := fun _ ↦ device } 0
  · intro h host now
    exact h (host.device now)

/-- A served call is passed on as it is exactly when the handler reads its arguments back. -/
theorem invocations_eq_iff (handler : Handler) (h : Host abi) (now : Nat) (c : Call)
    (hs : handler.Serves c.feature) :
    (handler.react h now c.feature.cmnd (parameterOf abi (c.sendBuf abi.order))).invocations =
        [(c.feature, c.args)] ↔
      handler.args h now (parameterOf abi (c.sendBuf abi.order)) c.feature = c.args := by
  rw [handler.invocations_of_serves h now _ c.feature hs]
  simp

/-- Exactly when a remote call is the local one: for every call of a feature the handler serves,
the getter is invoked once and with the caller's arguments, whatever the handler's memory holds,
if and only if the limit of `proc_args` and the byte order for `ppp` allow it. -/
theorem arguments_kept_iff (handler : Handler) (c : Call) (hs : handler.Serves c.feature) :
    (∀ (h : Host abi) now, (handler.react h now c.feature.cmnd
      (parameterOf abi (c.sendBuf abi.order))).invocations = [(c.feature, c.args)]) ↔
      ArgsKept handler abi.order c := by
  simp only [invocations_eq_iff handler _ _ c hs, ArgsKept]
  by_cases hp : c.feature = .procArgs
  · simp only [args_procArgs_iff handler _ _ c hp]
    simp only [hp, reduceCtorEq, false_implies, and_true, true_implies]
    exact ⟨fun h ↦ h (idleHost abi) 0, fun h _ _ ↦ h⟩
  · by_cases hd : c.feature = .ppp → handler = .parent
    · simp only [args_of_regular handler _ _ _ _ hp hd, loadArgs_sendBuf, implies_true, true_iff]
      exact ⟨fun h ↦ absurd h hp, fun h ↦ Or.inl (hd h)⟩
    · obtain ⟨hf, hn⟩ := Classical.not_imp.mp hd
      cases handler with
      | parent => exact absurd rfl hn
      | slave cfg =>
        rw [args_ppp_iff cfg c hf]
        simp [hf]

/-- A request for the arguments of process 1, at most ten bytes of them. -/
def limitedCall : Call where
  feature := .procArgs
  args := [.pid 1, .unsigned 10]
  typed := rfl
  valid := by simp [Arg.Valid]

theorem arguments_kept_limited :
    (∀ (h : Host linuxAbi) now, (Handler.parent.react h now limitedCall.feature.cmnd
      (parameterOf linuxAbi (limitedCall.sendBuf linuxAbi.order))).invocations =
        [(limitedCall.feature, limitedCall.args)]) ↔
      ArgsKept .parent linuxAbi.order limitedCall :=
  arguments_kept_iff .parent limitedCall (by decide)

/-- The parent handler asks for all of them. -/
theorem limit_dropped :
    (Handler.parent.react (idleHost linuxAbi) 0 limitedCall.feature.cmnd
      (parameterOf linuxAbi (limitedCall.sendBuf linuxAbi.order))).invocations ≠
        [(limitedCall.feature, limitedCall.args)] := by
  rw [ne_eq, invocations_eq_iff .parent (idleHost linuxAbi) 0 limitedCall (by decide),
    args_procArgs_iff .parent (idleHost linuxAbi) 0 limitedCall rfl]
  decide

end LibGTop.Protocol
