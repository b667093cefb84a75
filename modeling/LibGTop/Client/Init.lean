import LibGTop.Client.Handle

/-!
# Initialisation and getters of a handle

`glibtop_init_r` and `glibtop_init_s` (`lib/init.c:157–256`), `glibtop_open_l`
(`lib/open.c:35–166`), the calls that talk to the server, and the getters
`lib/lib.pl` generates. Reading, writing and calling initialise the handle
again, so `glibtop_init_r` is defined with a bound on this recursion; two levels
are enough. What the library asks of the system is kept as a list of actions.
-/

namespace LibGTop.Client

open Wire

/-- What the library does outside the handle. -/
inductive Action
  | machineNew
  | openL
  | openS
  | initHook (f : Feature)
  | connected (socket : Nat)
  | spawned (child : Child)
  | read (fd : Nat)
  | write (fd : Nat)
  | close (fd : Nat)
  | kill (pid : Nat)
  /-- A call of `glibtop_get_X_s`. -/
  | getS (f : Feature)
  deriving DecidableEq

/-- Why the process ended. -/
inductive Failure
  | unknownMethod
  | connection
  | greeting
  | enosys
  /-- A required field is missing and `GLIBTOP_ERROR_METHOD_ABORT` is set. -/
  | missing
  /-- The bound on the recursion was reached. -/
  | recursion
  deriving DecidableEq, Repr

/-- The process that uses the library: its handle, what it did, and why it ended. -/
structure Process where
  handle : Handle
  trace : List Action
  ended : Option Failure
  deriving DecidableEq

/-- A process that has not called the library yet. -/
def Process.fresh : Process := ⟨{}, [], none⟩

/-- What is done next, if the process has not ended. -/
def Process.andThen (p : Process) (next : Process → Process) : Process :=
  match p.ended with
  | none => next p
  | some _ => p

/-- The process after one more action. -/
def Process.act (p : Process) (a : Action) : Process := { p with trace := p.trace ++ [a] }

/-- The process after an assignment to the handle. -/
def Process.set (p : Process) (s : Handle) : Process := { p with handle := s }

/-- The end of the process in `glibtop_error_r` or `glibtop_error_io_r`. -/
def Process.fail (p : Process) (why : Failure) : Process := { p with ended := some why }

/-- The features of `_glibtop_init_hook_s`, `lib/sysdeps.c:56–136`, in its order. -/
def hookFeatures : List Feature :=
  [.cpu, .disk, .mem, .swap, .uptime, .loadavg, .shmLimits, .msgLimits, .semLimits, .proclist,
    .procState, .procUid, .procMem, .procTime, .procSignal, .procKernel, .procSegment, .procArgs,
    .procMap, .netload, .netlist, .procWd, .procAffinity, .ppp, .procIo, .procOpenFiles]

/-- Its hooks: those of the features that need no server. -/
def initHooks (cfg : SuidConfig) : List Feature := hookFeatures.filter fun f ↦ !cfg.suid f

/-- `glibtop_init_s`, `lib/init.c:223–256`. -/
def glibtopInitS (env : Env) (flags : InitFlags) (p : Process) : Process :=
  if flags.noInit || p.handle.sysdeps then p
  else
    let p := p.act .openS
    let p := (initHooks env.cfg).foldl (fun p f ↦ p.act (.initHook f)) p
    p.set { p.handle with sysdeps := true }

/-- `glibtop_read_l`, `lib/read.c:30–56`, of bytes that come; `initR` is the nested
`glibtop_init_r (&server, 0, 0)`. -/
def Process.readL (initR : Process → Process) (p : Process) : Process :=
  (initR p).andThen fun p ↦
    p.act (.read (if p.handle.socket ≠ 0 then p.handle.socket else p.handle.input.1))

/-- `glibtop_write_l`, `lib/write.c:30–52`. -/
def Process.writeL (initR : Process → Process) (p : Process) : Process :=
  (initR p).andThen fun p ↦
    p.act (.write (if p.handle.socket ≠ 0 then p.handle.socket else p.handle.output.2))

/-- `glibtop_call_l`, `lib/command.c:30–111`; `block` tells whether the response announces one. -/
def Process.callL (initR : Process → Process) (block : Bool) (p : Process) : Process :=
  (initR p).andThen fun p ↦ (p.writeL initR).andThen fun p ↦ (p.readL initR).andThen fun p ↦
    if block then p.readL initR else p

/-- The connection `glibtop_open_l` makes by the handle's method, `lib/open.c:56–112`. -/
def Process.connectServer (env : Env) (p : Process) : Process :=
  let s := p.handle
  let connected (socket : Option Nat) : Process :=
    match socket with
    | some fd => (p.set { s with socket := fd, server := true, features := -1 }).act (.connected fd)
    | none => p.fail .connection
  if s.method = methodDirect then p.set { s with features := 0 }
  else if s.method = methodInet then
    connected (env.connect (s.serverHost.getD []) s.serverPort)
  else if s.method = methodUnix then connected (env.connect "unix".toList 0)
  else if s.method = methodPipe then
    match env.spawn (s.serverCommand.getD []) with
    | some child =>
      let s := { s with
        input := child.input
        output := child.output
        pid := child.pid
        server := true
        features := -1 }
      (((p.set s).act (.spawned child)).act (.close child.input.2)).act (.close child.output.1)
    | none => p.fail .connection
  else p

/-- The greeting and the question for the features, `lib/open.c:114–155`. -/
def Process.greet (env : Env) (initR : Process → Process) (p : Process) : Process :=
  if p.handle.server then
    (p.readL initR).andThen fun p ↦ (p.readL initR).andThen fun p ↦
      match env.peer p.handle.method with
      | none => p.fail .greeting
      | some mask =>
        (p.callL initR false).andThen fun p ↦ p.set { p.handle with features := mask }
  else p

/-- `glibtop_open_l`, `lib/open.c:35–166`; the open bit is set before anything that initialises
the handle again. -/
def glibtopOpenL (env : Env) (initR : Process → Process) (flags : InitFlags) (p : Process) :
    Process :=
  let p := p.act .openL
  let p := p.set { p.handle with opened := true, errorMethod := errorMethodDefault }
  (p.connectServer env).andThen fun p ↦ (p.greet env initR).andThen (glibtopInitS env flags)

/-- `glibtop_init_r`, `lib/init.c:157–221`, with a bound on the nested calls. -/
def glibtopInitR (env : Env) : Nat → BitVec 64 → InitFlags → Process → Process
  | 0, _, _, p => p.fail .recursion
  | depth + 1, features, flags, p =>
    if flags.noInit then p
    else
      let p :=
        if p.handle.init then p
        else
          match initialise env features flags p.handle with
          | some s => (p.act .machineNew).set s
          | none => (p.act .machineNew).fail .unknownMethod
      p.andThen fun p ↦
        if flags.noOpen || p.handle.opened then p
        else glibtopOpenL env (glibtopInitR env depth 0 {}) flags p

/-- How a getter ends for its caller: with an answer, from the server or in the process itself,
in `ENOSYS`, or in a failure to reach the server. -/
inductive Verdict
  | answered
  | enosys
  | failed
  deriving DecidableEq, Repr

/-- `glibtop_get_X_l` as `lib/lib.pl:161–219` generates it, up to the check of required fields;
`block` tells which responses announce a data block. -/
def glibtopGetL (env : Env) (depth : Nat) (block : Feature → Bool) (f : Feature) (p : Process) :
    Process × Verdict :=
  let p := glibtopInitR env depth f.mask {} p
  if p.ended ≠ none then (p, .failed)
  else if p.handle.server && names p.handle.features f then
    let p := p.callL (glibtopInitR env depth 0 {}) (block f)
    (p, if p.ended = none then .answered else .failed)
  else if env.cfg.suid f then (p.fail .enosys, .enosys)
  else (p.act (.getS f), .answered)

/-- Getters called one after the other, with their verdicts, until the process ends. -/
def verdicts (env : Env) (depth : Nat) (block : Feature → Bool) :
    List Feature → Process → List (Feature × Verdict)
  | [], _ => []
  | f :: calls, p =>
    let result := glibtopGetL env depth block f p
    (f, result.2) ::
      if result.2 = .answered then verdicts env depth block calls result.1 else []

end LibGTop.Client
