import LibGTop.Base.Numerals
import LibGTop.Wire.Features

/-!
# The handle and its server method

`struct _glibtop` (`glibtop.h:73–104`), the process that uses it and
`_init_server` (`lib/init.c:39–155`), which chooses how the server is reached:
from the environment, or by whether the requested features need it.
-/

namespace LibGTop.Client

open Base Wire

/-- `GLIBTOP_METHOD_*`, `include/glibtop/open.h:40–43`. The field of a handle may hold any other
number, zero before it is initialised. -/
def methodDirect : UInt32 := 1

@[inherit_doc methodDirect] def methodPipe : UInt32 := 2

@[inherit_doc methodDirect] def methodInet : UInt32 := 3

@[inherit_doc methodDirect] def methodUnix : UInt32 := 4

/-- `GLIBTOP_ERROR_METHOD_DEFAULT`, which is `GLIBTOP_ERROR_METHOD_WARN_ONCE`,
`include/glibtop/open.h:46–50`. -/
def errorMethodDefault : UInt32 := 1

/-- `struct _glibtop`: the four bits of `flags` and the fields the library's own functions use.
The handle a getter uses by default is static, so its fields start as zero. -/
structure Handle where
  init : Bool := false
  opened : Bool := false
  server : Bool := false
  sysdeps : Bool := false
  method : UInt32 := 0
  errorMethod : UInt32 := 0
  input : Nat × Nat := (0, 0)
  output : Nat × Nat := (0, 0)
  socket : Nat := 0
  pid : Nat := 0
  serverCommand : Option (List Char) := none
  serverHost : Option (List Char) := none
  serverPort : BitVec 64 := 0
  features : BitVec 64 := 0
  deriving DecidableEq

/-- The flags of a `glibtop_init_r`, `include/glibtop/open.h:34–38`. -/
structure InitFlags where
  noOpen : Bool := false
  noInit : Bool := false
  noServer : Bool := false
  except : Bool := false
  deriving DecidableEq, Repr

/-- What `pipe`, `pipe` and `fork` gave: the ends of both pipes and the child. -/
structure Child where
  input : Nat × Nat
  output : Nat × Nat
  pid : Nat
  deriving DecidableEq, Repr

/-- What surrounds the library: the switches it was compiled with, the configured path of the
server, the value of `LIBGTOP_SERVER` in the environment, what `glibtop_make_connection` and the
pipe to a new server give, absent when the attempt ends the process, and the mask the server
reached by a method advertises, absent when its greeting is wrong or does not come. -/
structure Env where
  cfg : SuidConfig
  libgtopServer : List Char
  environment : Option (List Char)
  connect : List Char → BitVec 64 → Option Nat
  spawn : List Char → Option Child
  peer : UInt32 → Option (BitVec 64)

/-- The default port, `lib/init.c:33`. -/
def defaultPort : BitVec 64 := 42800

/-- The part of `_init_server` for `:inet[:host[:port]]`, `lib/init.c:100–137`. -/
def inetServer (s : Handle) (fields : List (List Char)) : Handle :=
  let s := { s with method := methodInet }
  let s := match fields with
    | [] => { s with serverHost := some (s.serverHost.getD "localhost".toList) }
    | host :: _ => { s with serverHost := some host }
  match fields.drop 1 with
  | [] => { s with serverPort := if s.serverPort = 0 then defaultPort else s.serverPort }
  | port :: _ =>
    { s with serverPort := ((scanLong port).map (BitVec.ofInt 64)).getD defaultPort }

/-- The part of `_init_server` for a command that starts with a colon, `lib/init.c:83–154`, on
the fields between the colons; absent for `glibtop_error_r`. -/
def dispatchMethod (env : Env) (s : Handle) (fields : List (List Char)) : Option Handle :=
  let command := fields.headD []
  if command = "direct".toList then some { s with method := methodDirect }
  else if command = "inet".toList then some (inetServer s fields.tail)
  else if command = "unix".toList then some { s with method := methodUnix }
  else if command = "pipe".toList then
    some { s with method := methodPipe, serverCommand := some env.libgtopServer }
  else none

/-- The server command of a handle once `_init_server` has set it, `lib/init.c:47–52`. -/
def commandOf (env : Env) (s : Handle) : List Char :=
  s.serverCommand.getD (env.environment.getD env.libgtopServer)

/-- `_init_server`, `lib/init.c:39–155`. The `unsigned` parameter takes the low half of the mask. -/
def initServer (env : Env) (features : BitVec 64) (s : Handle) : Option Handle :=
  let s := { s with serverCommand := some (commandOf env s) }
  if s.method ≠ 0 then some s
  else
    match commandOf env s with
    | ':' :: command => dispatchMethod env s (command.splitOn ':')
    | _ =>
      if (features.setWidth 32).setWidth 64 &&& glibtopServerFeatures env.cfg ≠ 0#64 then
        some { s with method := methodPipe }
      else some { s with method := methodDirect }

/-- The mask a handle is initialised with, `lib/init.c:181–190`. -/
def requestedFeatures (features : BitVec 64) (flags : InitFlags) : BitVec 64 :=
  let features := if flags.except then ~~~features &&& glibtopSysdepsAll else features
  let features := if features = 0#64 then glibtopSysdepsAll else features
  if flags.noServer then 0#64 else features

/-- The end of the initialisation, `lib/init.c:199–206`: a pipe or local socket that none of the
requested features needs is not used. -/
def finishInit (env : Env) (features : BitVec 64) (s : Handle) : Handle :=
  let s := { s with init := true }
  if (s.method = methodPipe ∨ s.method = methodUnix) ∧
      glibtopServerFeatures env.cfg &&& features = 0#64 then
    { s with method := methodDirect }
  else s

/-- The initialisation `glibtop_init_r` makes once, `lib/init.c:177–206`; absent for
`glibtop_error_r`. -/
def initialise (env : Env) (features : BitVec 64) (flags : InitFlags) (s : Handle) :
    Option Handle :=
  let features := requestedFeatures features flags
  let s := if flags.noServer then { s with method := methodDirect } else s
  (initServer env features { s with features := features }).map (finishInit env features)

end LibGTop.Client
