import LibGTop.Wire.Arguments
import LibGTop.Wire.Messages

/-!
# The switches of the two handlers

`handle_parent_connection` (`src/daemon/main.c:58–258`) serves every feature with
`glibtop_get_X_l`; `handle_slave_connection` and `handle_slave_command`
(`src/daemon/slave.c`) serve the features whose `GLIBTOP_SUID_*` switch is set
with `glibtop_get_X_p`. A reaction is what a handler does with one command once
`parameter` is filled. A getter may end the process, so that nothing is answered.
-/

namespace LibGTop.Daemon

open Base Wire

/-- What a getter leaves behind: the image of the structure it filled, which lies at the start
of the union, and the block it returns, empty for `NULL`. The block is as long as the structure
says (`total`, for `proc_args` one more than `size`). -/
structure GetterResult (abi : Abi) where
  buf : List UInt8
  buf_le : buf.length ≤ abi.unionSize
  block : List UInt8
  block_lt : block.length < 2 ^ 64

/-- `glibtop_sysdeps`, `include/glibtop/sysdeps.h:68–108`: its first two fields and the image
of the 35 fields behind them. -/
structure Sysdeps where
  flags : UInt64
  features : UInt64
  rest : List UInt8
  rest_length : rest.length = 280

/-- The process a handler runs in. A getter's result is absent where it ends the process, as it does
through `glibtop_error`. The result, the first content of the uninitialised `device`
(`src/daemon/slave.c:123`) and the memory behind the inline parameter may differ from command to
command, so they depend on the number of commands handled before. -/
structure Host (abi : Abi) where
  sysdeps : Sysdeps
  getter : Nat → Feature → List Arg → Option (GetterResult abi)
  device : Nat → BitVec 32
  beyond : Nat → Nat → UInt8

/-- A host whose getters fill nothing and whose memory is clear. -/
def idleHost (abi : Abi) : Host abi where
  sysdeps := ⟨0, 0, zeros 280, length_zeros _⟩
  getter _ _ _ := some ⟨[], Nat.zero_le _, [], by decide⟩
  device _ := 0
  beyond _ _ := 0

/-- What a handler does: it invokes a getter or calls `do_output`. -/
inductive Effect (abi : Abi)
  | invoke (f : Feature) (args : List Arg)
  | output (r : Reply abi)

/-- Where a handler goes after a command: to the next one, back to its caller, or nowhere. -/
inductive Control
  | loop
  | returned
  | exited
  deriving DecidableEq, Repr

/-- What a handler does with a command. -/
structure Reaction (abi : Abi) where
  effects : List (Effect abi)
  control : Control

variable {abi : Abi}

/-- A cleared response whose union starts with the given image. -/
def filledResponse (abi : Abi) (image : List UInt8) (h : image.length ≤ abi.unionSize) :
    Response abi where
  offset := 0
  size := 0
  dataSize := 0
  u := overlay (zeros abi.unionSize) image
  u_length := by rw [length_overlay _ _ (by rwa [length_zeros]), length_zeros]

/-- The image of a `glibtop_sysdeps`. -/
def Sysdeps.store (order : ByteOrder) (s : Sysdeps) : List UInt8 :=
  storeField order s.flags ++ (storeField order s.features ++ s.rest)

theorem Sysdeps.length_store_le (s : Sysdeps) : (s.store abi.order).length ≤ abi.unionSize := by
  have hr := s.rest_length
  have hu := abi.unionSize_ge
  simp only [store, List.length_append, length_storeField]
  omega

/-- `do_output (s, resp, offset, 0, NULL)`. -/
def bareReply (resp : Response abi) (offset : UInt64) : Reply abi where
  resp := resp
  offset := offset
  data := []
  data_lt := by decide

/-- The answer of both handlers to `GLIBTOP_CMND_QUIT`. -/
def quitReaction (abi : Abi) : Reaction abi :=
  ⟨[.output (bareReply (filledResponse abi [] (Nat.zero_le _)) 0)], .returned⟩

/-- A case that invokes a getter and sends a reply with its result, if it returns. -/
def Host.invoke (h : Host abi) (now : Nat) (f : Feature) (args : List Arg)
    (reply : GetterResult abi → Reply abi) : Reaction abi :=
  match h.getter now f args with
  | some result => ⟨[.invoke f args, .output (reply result)], .loop⟩
  | none => ⟨[.invoke f args], .exited⟩

/-- A case that sends the structure the getter filled. -/
def Host.answer (h : Host abi) (now : Nat) (f : Feature) (args : List Arg) : Reaction abi :=
  h.invoke now f args fun result ↦
    bareReply (filledResponse abi result.buf result.buf_le) offsetUnion

/-- A case that also sends the block the getter returned. -/
def Host.answerWithBlock (h : Host abi) (now : Nat) (f : Feature) (args : List Arg) :
    Reaction abi :=
  h.invoke now f args fun result ↦
    { resp := filledResponse abi result.buf result.buf_le
      offset := offsetUnion
      data := result.block
      data_lt := result.block_lt }

/-- A word copied out of `parameter`. -/
def word (order : ByteOrder) (bits : Nat) (bytes : List UInt8) : BitVec bits :=
  BitVec.ofNat bits (order.load bytes)

/-- `memcpy (&pid, parameter, sizeof (pid_t))`. -/
def pidArg (order : ByteOrder) (parameter : List UInt8) : Arg :=
  .pid (word order 32 (slice parameter 0 4))

/-- The two numbers of `proclist`, `src/daemon/main.c:151–155` and `src/daemon/slave.c:78–79`. -/
def proclistArgs (order : ByteOrder) (parameter : List UInt8) : List Arg :=
  [.long (word order 64 (slice parameter 0 8)), .long (word order 64 (slice parameter 8 8))]

/-- The cases of `handle_parent_connection` for the features, `src/daemon/main.c:107–249`.
`proc_wd` and `netlist` have an empty case, `proc_open_files` and `proc_affinity` have none. -/
def parentGet (h : Host abi) (now : Nat) (parameter : List UInt8) : Feature → Reaction abi
  | .cpu => h.answer now .cpu []
  | .disk => h.answer now .disk []
  | .mem => h.answer now .mem []
  | .swap => h.answer now .swap []
  | .uptime => h.answer now .uptime []
  | .loadavg => h.answer now .loadavg []
  | .shmLimits => h.answer now .shmLimits []
  | .msgLimits => h.answer now .msgLimits []
  | .semLimits => h.answer now .semLimits []
  | .proclist => h.answerWithBlock now .proclist (proclistArgs abi.order parameter)
  | .procMap => h.answerWithBlock now .procMap [pidArg abi.order parameter]
  | .procWd => ⟨[], .loop⟩
  | .netlist => ⟨[], .loop⟩
  | .procArgs => h.answerWithBlock now .procArgs [pidArg abi.order parameter, .unsigned 0]
  | .procState => h.answer now .procState [pidArg abi.order parameter]
  | .procUid => h.answer now .procUid [pidArg abi.order parameter]
  | .procMem => h.answer now .procMem [pidArg abi.order parameter]
  | .procTime => h.answer now .procTime [pidArg abi.order parameter]
  | .procSignal => h.answer now .procSignal [pidArg abi.order parameter]
  | .procKernel => h.answer now .procKernel [pidArg abi.order parameter]
  | .procSegment => h.answer now .procSegment [pidArg abi.order parameter]
  | .mountlist =>
    h.answerWithBlock now .mountlist [.int (word abi.order 32 (slice parameter 0 4))]
  | .fsusage => h.answer now .fsusage [.string (cString parameter)]
  | .procIo => h.answer now .procIo [pidArg abi.order parameter]
  | .ppp => h.answer now .ppp [.ushort (word abi.order 16 (slice parameter 0 2))]
  | .netload => h.answer now .netload [.string (cString parameter)]
  | .procOpenFiles | .procAffinity => ⟨[], .loop⟩

/-- The `switch` of `handle_parent_connection`, `src/daemon/main.c:97–256`; an unknown command
is only written to the log. -/
def parentSwitch (h : Host abi) (now : Nat) (parameter : List UInt8) : Option Cmnd → Reaction abi
  | some .quit => quitReaction abi
  | some .sysdeps =>
    let sysdeps := { h.sysdeps with features := UInt64.ofBitVec glibtopSysdepsAll }
    ⟨[.output (bareReply (filledResponse abi (sysdeps.store abi.order) sysdeps.length_store_le)
      offsetUnion)], .loop⟩
  | some (.get f) => parentGet h now parameter f
  | none => ⟨[], .loop⟩

/-- A case of `handle_slave_command` under `#if GLIBTOP_SUID_X`: the getter it invokes and the
response with its offset, or, when the switch is off, the `default` case: `glibtop_error`. Without a
response the process has ended. -/
def Host.fill (cfg : SuidConfig) (h : Host abi) (now : Nat) (f : Feature) (args : List Arg) :
    List (Effect abi) × Option (Response abi) :=
  if cfg.suid f then
    ([.invoke f args], (h.getter now f args).map fun result ↦
      { filledResponse abi result.buf result.buf_le with offset := offsetUnion })
  else ([], none)

/-- The `unsigned` handed to `glibtop_get_ppp_p` as an `unsigned short`: its first two bytes are
copied from `parameter`, the others are what they were (`src/daemon/slave.c:263–264`). -/
def slaveDevice (order : ByteOrder) (device : BitVec 32) (parameter : List UInt8) : BitVec 16 :=
  (word order 32 (overlay (order.store 4 device.toNat) (slice parameter 0 2))).setWidth 16

/-- The cases of `handle_slave_command` for the features, `src/daemon/slave.c:135–267`. -/
def slaveGet (cfg : SuidConfig) (h : Host abi) (now : Nat) (parameter : List UInt8) :
    Feature → List (Effect abi) × Option (Response abi)
  | .cpu => h.fill cfg now .cpu []
  | .disk => h.fill cfg now .disk []
  | .mem => h.fill cfg now .mem []
  | .swap => h.fill cfg now .swap []
  | .uptime => h.fill cfg now .uptime []
  | .loadavg => h.fill cfg now .loadavg []
  | .shmLimits => h.fill cfg now .shmLimits []
  | .msgLimits => h.fill cfg now .msgLimits []
  | .semLimits => h.fill cfg now .semLimits []
  | .procState => h.fill cfg now .procState [pidArg abi.order parameter]
  | .procUid => h.fill cfg now .procUid [pidArg abi.order parameter]
  | .procMem => h.fill cfg now .procMem [pidArg abi.order parameter]
  | .procTime => h.fill cfg now .procTime [pidArg abi.order parameter]
  | .procIo => h.fill cfg now .procIo [pidArg abi.order parameter]
  | .procSignal => h.fill cfg now .procSignal [pidArg abi.order parameter]
  | .procKernel => h.fill cfg now .procKernel [pidArg abi.order parameter]
  | .procSegment => h.fill cfg now .procSegment [pidArg abi.order parameter]
  | .netload => h.fill cfg now .netload [.string (cString parameter)]
  | .ppp => h.fill cfg now .ppp [.ushort (slaveDevice abi.order (h.device now) parameter)]
  | .proclist | .procArgs | .procMap | .mountlist | .fsusage => ([], none)
  | .netlist | .procOpenFiles | .procWd | .procAffinity => ([], none)

/-- `handle_slave_command`, `src/daemon/slave.c:119–273`; the response is absent where the process
ends, in its `glibtop_error` or in a getter. -/
def handleSlaveCommand (cfg : SuidConfig) (h : Host abi) (now : Nat) (parameter : List UInt8) :
    Option Cmnd → List (Effect abi) × Option (Response abi)
  | some .sysdeps =>
    let features := UInt64.ofBitVec (glibtopServerFeatures cfg)
    let sysdeps := { h.sysdeps with features := features, flags := features ||| 1 }
    ([], some { filledResponse abi (sysdeps.store abi.order) sysdeps.length_store_le with
      offset := offsetUnion })
  | some (.get f) => slaveGet cfg h now parameter f
  | some .quit | none => ([], none)

/-- The `default` case of `handle_slave_connection`, `src/daemon/slave.c:111–114`. -/
def slaveDefault (cfg : SuidConfig) (h : Host abi) (now : Nat) (parameter : List UInt8)
    (cmnd : Option Cmnd) : Reaction abi :=
  match handleSlaveCommand cfg h now parameter cmnd with
  | (effects, some resp) => ⟨effects ++ [.output (bareReply resp resp.offset)], .loop⟩
  | (effects, none) => ⟨effects, .exited⟩

/-- The `switch` of `handle_slave_connection`, `src/daemon/slave.c:71–115`. -/
def slaveSwitch (cfg : SuidConfig) (h : Host abi) (now : Nat) (parameter : List UInt8)
    (cmnd : Option Cmnd) : Reaction abi :=
  match cmnd with
  | some .quit => quitReaction abi
  | some (.get .proclist) =>
    if cfg.suid .proclist then
      h.answerWithBlock now .proclist (proclistArgs abi.order parameter)
    else slaveDefault cfg h now parameter cmnd
  | some (.get .procArgs) =>
    if cfg.suid .procArgs then
      -- `max_len` is an `unsigned short`, converted back to `unsigned` by the call
      let maxLen := word abi.order 16 (slice parameter 4 2)
      h.answerWithBlock now .procArgs [pidArg abi.order parameter, .unsigned (maxLen.setWidth 32)]
    else slaveDefault cfg h now parameter cmnd
  | some (.get .procMap) =>
    if cfg.suid .procMap then
      h.answerWithBlock now .procMap [pidArg abi.order parameter]
    else slaveDefault cfg h now parameter cmnd
  | cmnd => slaveDefault cfg h now parameter cmnd

/-- The two handlers; the setuid one depends on the compile-time switches. -/
inductive Handler
  | parent
  | slave (cfg : SuidConfig)

/-- The mask a handler sends in its answer to `GLIBTOP_CMND_SYSDEPS`. -/
def Handler.features : Handler → BitVec 64
  | parent => glibtopSysdepsAll
  | slave cfg => glibtopServerFeatures cfg

/-- What a handler does with a command of this number. -/
def Handler.react (handler : Handler) (h : Host abi) (now : Nat) (number : Nat)
    (parameter : List UInt8) : Reaction abi :=
  match handler with
  | parent => parentSwitch h now parameter (Cmnd.ofNumber? number)
  | slave cfg => slaveSwitch cfg h now parameter (Cmnd.ofNumber? number)

/-- What a handler does with a size that exceeds the buffer: the parent returns
(`src/daemon/main.c:73–78`), the setuid one calls `glibtop_error` (`src/daemon/slave.c:54–56`). -/
def Handler.oversize : Handler → Control
  | parent => .returned
  | slave _ => .exited

/-- The getters a reaction invokes, with their arguments. -/
def Reaction.invocations (r : Reaction abi) : List (Feature × List Arg) :=
  r.effects.filterMap fun | .invoke f args => some (f, args) | .output _ => none

/-- The replies a reaction sends. -/
def Reaction.replies (r : Reaction abi) : List (Reply abi) :=
  r.effects.filterMap fun | .output reply => some reply | .invoke _ _ => none

@[simp] theorem Reaction.invocations_nil (c : Control) :
    (⟨[], c⟩ : Reaction abi).invocations = [] := rfl

@[simp] theorem Reaction.replies_nil (c : Control) : (⟨[], c⟩ : Reaction abi).replies = [] := rfl

/-- The features without a case that answers them, in either handler. -/
def unserved : List Feature := [.netlist, .procOpenFiles, .procWd, .procAffinity]

/-- The features a handler invokes a getter for. -/
def Handler.Serves : Handler → Feature → Prop
  | parent, f => f ∉ unserved
  | slave cfg, f => cfg.suid f = true ∧ f ∉ unserved

instance : (handler : Handler) → (f : Feature) → Decidable (handler.Serves f)
  | .parent, f => inferInstanceAs (Decidable (f ∉ unserved))
  | .slave cfg, f => inferInstanceAs (Decidable (cfg.suid f = true ∧ f ∉ unserved))

/-- An argument of this type, read from `parameter` at an offset. -/
def loadArg (order : ByteOrder) (parameter : List UInt8) (offset : Nat) : Kind → Arg
  | .long => .long (word order 64 (slice parameter offset 8))
  | .pid => .pid (word order 32 (slice parameter offset 4))
  | .unsigned => .unsigned (word order 32 (slice parameter offset 4))
  | .int => .int (word order 32 (slice parameter offset 4))
  | .ushort => .ushort (word order 16 (slice parameter offset 2))
  | .string => .string (cString (parameter.drop offset))

/-- Arguments of these types, read from `parameter` one behind the other. -/
def loadArgs (order : ByteOrder) (parameter : List UInt8) : Nat → List Kind → List Arg
  | _, [] => []
  | offset, k :: kinds =>
    loadArg order parameter offset k :: loadArgs order parameter (offset + k.size) kinds

/-- The arguments a handler invokes a getter with: those the table of the features declares,
except for `proc_args` in both handlers and `ppp` in the setuid one. -/
def Handler.args (handler : Handler) (h : Host abi) (now : Nat) (parameter : List UInt8)
    (f : Feature) : List Arg :=
  match handler, f with
  | parent, .procArgs => [pidArg abi.order parameter, .unsigned 0]
  | slave _, .procArgs =>
    [pidArg abi.order parameter,
      .unsigned ((word abi.order 16 (slice parameter 4 2)).setWidth 32)]
  | slave _, .ppp => [.ushort (slaveDevice abi.order (h.device now) parameter)]
  | _, f => loadArgs abi.order parameter 0 (parameters f)

/-- The features whose getters return a block that the handlers send. -/
def blockFeatures : List Feature := [.proclist, .procArgs, .procMap, .mountlist]

/-- The block of a result that is sent. -/
def blockOf (f : Feature) (result : GetterResult abi) : List UInt8 :=
  if blockFeatures.contains f then result.block else []

/-- A reply with the result of a getter. -/
structure Carries (f : Feature) (result : GetterResult abi) (r : Reply abi) : Prop where
  offset : r.offset = offsetUnion
  image : r.resp.u = overlay (zeros abi.unionSize) result.buf
  data : r.data = blockOf f result

section

variable {h : Host abi} {now : Nat} {f : Feature} {args : List Arg}

theorem Host.invoke_of_some {result : GetterResult abi} (hg : h.getter now f args = some result)
    (reply : GetterResult abi → Reply abi) :
    h.invoke now f args reply = ⟨[.invoke f args, .output (reply result)], .loop⟩ := by
  rw [invoke, hg]

theorem Host.invoke_of_none (hg : h.getter now f args = none)
    (reply : GetterResult abi → Reply abi) :
    h.invoke now f args reply = ⟨[.invoke f args], .exited⟩ := by
  rw [invoke, hg]

variable {cfg : SuidConfig} {parameter : List UInt8} {cmnd : Option Cmnd}

theorem slaveDefault_of_some {result : GetterResult abi} (hc : cfg.suid f = true)
    (hf : handleSlaveCommand cfg h now parameter cmnd = h.fill cfg now f args)
    (hg : h.getter now f args = some result) :
    slaveDefault cfg h now parameter cmnd = ⟨[.invoke f args, .output (bareReply
      { filledResponse abi result.buf result.buf_le with offset := offsetUnion } offsetUnion)],
      .loop⟩ := by
  rw [slaveDefault, hf, Host.fill, if_pos hc, hg]
  rfl

theorem slaveDefault_of_none (hc : cfg.suid f = true)
    (hf : handleSlaveCommand cfg h now parameter cmnd = h.fill cfg now f args)
    (hg : h.getter now f args = none) :
    slaveDefault cfg h now parameter cmnd = ⟨[.invoke f args], .exited⟩ := by
  rw [slaveDefault, hf, Host.fill, if_pos hc, hg]
  rfl

end

/-- A feature a handler serves is answered by one invocation and, if the getter returns, by one
reply with its result. -/
theorem Handler.react_of_some (handler : Handler) (h : Host abi) (now : Nat)
    (parameter : List UInt8) (f : Feature) (hs : handler.Serves f) {result : GetterResult abi}
    (hg : h.getter now f (handler.args h now parameter f) = some result) :
    ∃ r, handler.react h now f.cmnd parameter =
      ⟨[.invoke f (handler.args h now parameter f), .output r], .loop⟩ ∧ Carries f result r := by
  have hn : Cmnd.ofNumber? f.cmnd = some (.get f) := (Cmnd.get f).ofNumber?_number
  cases handler with
  | parent =>
    simp only [react, hn, parentSwitch]
    cases f <;>
      first
      | exact ⟨_, Host.invoke_of_some hg _, rfl, rfl, rfl⟩
      | exact absurd hs (by decide)
  | slave cfg =>
    simp only [react, hn]
    obtain ⟨hc, hu⟩ := hs
    cases f <;>
      first
      | exact absurd hu (by decide)
      | simp only [cfg.mountlist_off, cfg.fsusage_off, Bool.false_eq_true] at hc
      | exact ⟨_, slaveDefault_of_some hc rfl hg, rfl, rfl, rfl⟩
      | exact ⟨_, (if_pos hc).trans (Host.invoke_of_some hg _), rfl, rfl, rfl⟩

/-- Where the getter ends the process there is no reply. -/
theorem Handler.react_of_none (handler : Handler) (h : Host abi) (now : Nat)
    (parameter : List UInt8) (f : Feature) (hs : handler.Serves f)
    (hg : h.getter now f (handler.args h now parameter f) = none) :
    handler.react h now f.cmnd parameter =
      ⟨[.invoke f (handler.args h now parameter f)], .exited⟩ := by
  have hn : Cmnd.ofNumber? f.cmnd = some (.get f) := (Cmnd.get f).ofNumber?_number
  cases handler with
  | parent =>
    simp only [react, hn, parentSwitch]
    cases f <;> first | exact Host.invoke_of_none hg _ | exact absurd hs (by decide)
  | slave cfg =>
    simp only [react, hn]
    obtain ⟨hc, hu⟩ := hs
    cases f <;>
      first
      | exact absurd hu (by decide)
      | simp only [cfg.mountlist_off, cfg.fsusage_off, Bool.false_eq_true] at hc
      | exact slaveDefault_of_none hc rfl hg
      | exact (if_pos hc).trans (Host.invoke_of_none hg _)

/-- The getter of a feature a handler serves is invoked once, whether or not it returns. -/
theorem Handler.invocations_of_serves (handler : Handler) (h : Host abi) (now : Nat)
    (parameter : List UInt8) (f : Feature) (hs : handler.Serves f) :
    (handler.react h now f.cmnd parameter).invocations =
      [(f, handler.args h now parameter f)] := by
  cases hg : h.getter now f (handler.args h now parameter f) with
  | none =>
    rw [handler.react_of_none h now parameter f hs hg]
    rfl
  | some result =>
    obtain ⟨r, hr, -⟩ := handler.react_of_some h now parameter f hs hg
    rw [hr]
    rfl

/-- A feature a handler does not serve is not answered: the parent goes on in silence, the
setuid handler exits. -/
theorem Handler.react_of_not_serves (handler : Handler) (h : Host abi) (now : Nat)
    (parameter : List UInt8) (f : Feature) (hs : ¬ handler.Serves f) :
    handler.react h now f.cmnd parameter =
      ⟨[], match handler with | parent => .loop | slave _ => .exited⟩ := by
  have hn : Cmnd.ofNumber? f.cmnd = some (.get f) := (Cmnd.get f).ofNumber?_number
  cases handler with
  | parent =>
    simp only [react, hn, parentSwitch]
    cases f <;> first | rfl | exact absurd (by decide) hs
  | slave cfg =>
    have hc : f ∉ unserved → cfg.suid f = false := fun hu ↦ by
      simpa [Serves, hu] using hs
    simp only [react, hn]
    cases f <;>
      first
      | rfl
      | simp [slaveSwitch, slaveDefault, handleSlaveCommand, slaveGet, Host.fill,
          hc (by decide)]

/-- A reaction depends on the command number only through the case it selects. -/
theorem Handler.react_congr (handler : Handler) (h : Host abi) (now : Nat)
    (parameter : List UInt8) {m n : Nat} (hn : Cmnd.ofNumber? m = Cmnd.ofNumber? n) :
    handler.react h now m parameter = handler.react h now n parameter := by
  cases handler <;> simp only [react, hn]

/-- A getter is invoked only for the feature of the command, when the handler serves it, and with
the arguments the handler reads. -/
theorem Handler.of_mem_invocations {handler : Handler} {h : Host abi} {now number : Nat}
    {parameter : List UInt8} {f : Feature} {args : List Arg}
    (hm : (f, args) ∈ (handler.react h now number parameter).invocations) :
    Cmnd.ofNumber? number = some (.get f) ∧ handler.Serves f ∧
      args = handler.args h now parameter f := by
  cases hn : Cmnd.ofNumber? number with
  | none => cases handler <;> simp [react, hn, parentSwitch, slaveSwitch, slaveDefault,
      handleSlaveCommand, Reaction.invocations] at hm
  | some c =>
    cases c with
    | quit => cases handler <;> simp [react, hn, parentSwitch, slaveSwitch, quitReaction,
        Reaction.invocations] at hm
    | sysdeps => cases handler <;> simp [react, hn, parentSwitch, slaveSwitch, slaveDefault,
        handleSlaveCommand, Reaction.invocations] at hm
    | get g =>
      rw [react_congr handler h now parameter
        (hn.trans (Cmnd.get g).ofNumber?_number.symm)] at hm
      by_cases hs : handler.Serves g
      · rw [Cmnd.number, handler.invocations_of_serves h now parameter g hs,
          List.mem_singleton] at hm
        obtain ⟨rfl, rfl⟩ := Prod.mk.inj hm
        exact ⟨rfl, hs, rfl⟩
      · simp [Cmnd.number, handler.react_of_not_serves h now parameter g hs] at hm

/-- A string a getter is handed is the one that starts `parameter`. -/
theorem Handler.string_mem_args {handler : Handler} {h : Host abi} {now : Nat}
    {parameter : List UInt8} {f : Feature} {text : List UInt8}
    (hm : Arg.string text ∈ handler.args h now parameter f) : text = cString parameter := by
  cases handler <;> cases f <;>
    simp only [args, parameters, loadArgs, loadArg, pidArg, List.mem_cons, List.not_mem_nil,
      Arg.string.injEq, reduceCtorEq, or_false, or_self, List.drop_zero] at hm <;>
    exact hm

end LibGTop.Daemon
