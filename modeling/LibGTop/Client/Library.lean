import LibGTop.Base.Words
import LibGTop.Client.Init
import LibGTop.Client.Required

/-!
# The library as its client sees it

The public calls on one handle: `glibtop_init_r`, the getters, the parameters
(`lib/parameter.c:26–98`) and `glibtop_close_r` (`lib/close.c:31–50`), as the steps
of a machine. A call that ends the process has no successor, so a process that has
ended stays as it is.
-/

namespace LibGTop.Client

open Base Wire

/-- `GLIBTOP_PARAM_*`, `include/glibtop/parameter.h:29–35`. -/
def paramMethod : UInt32 := 1

@[inherit_doc paramMethod] def paramFeatures : UInt32 := 2

@[inherit_doc paramMethod] def paramCommand : UInt32 := 3

@[inherit_doc paramMethod] def paramHost : UInt32 := 4

@[inherit_doc paramMethod] def paramPort : UInt32 := 5

@[inherit_doc paramMethod] def paramErrorMethod : UInt32 := 6

@[inherit_doc paramMethod] def paramRequired : UInt32 := 7

/-- The warnings of `glibtop_warn_r`. -/
inductive Warning
  /-- `Expected %lu bytes but got %lu.` -/
  | wrongSize (parameter : UInt32)
  /-- `Cannot modify read-only value.` -/
  | readOnly
  /-- `Client requested field mask %05lx, but only have %05lx.` -/
  | missing (f : Feature) (requested present : BitVec 64)
  deriving DecidableEq

/-- A process with the part of its handle that only the parameters and the checks of required
fields use, and the warnings it has printed. -/
structure Library where
  process : Process
  required : Required
  warnings : List Warning

/-- A process that has not called the library yet. -/
def Library.fresh : Library := ⟨.fresh, fun _ ↦ 0#64, []⟩

/-- The process has not ended. -/
def Library.Alive (l : Library) : Prop := l.process.ended = none

instance (l : Library) : Decidable l.Alive := inferInstanceAs (Decidable (_ = _))

/-- The library after an assignment to the handle. -/
def Library.set (l : Library) (s : Handle) : Library := { l with process := l.process.set s }

/-- The library after `glibtop_warn_r`. -/
def Library.warn (l : Library) (w : Warning) : Library := { l with warnings := l.warnings ++ [w] }

/-- The bytes of the masks, as a `glibtop_sysdeps` holds them. -/
def storeRequired (order : ByteOrder) (required : Required) : List UInt8 :=
  (List.ofFn fun i ↦ order.store 8 (required i).toNat).flatten

/-- The masks in the bytes of a `glibtop_sysdeps`. -/
def loadRequired (order : ByteOrder) (bytes : List UInt8) : Required :=
  fun i ↦ BitVec.ofNat 64 (order.load (slice bytes (8 * i.val) 8))

/-- The macro `_check_data` of `lib/parameter.c:33–39`: the data if it is given and has the size.
A null pointer is absent. -/
def checkData (size : Nat) (data : Option (List UInt8)) : Option (List UInt8) :=
  data.filter fun bytes ↦ bytes.length = size

/-- `glibtop_set_parameter_l`, `lib/parameter.c:73–98`. -/
def Library.setParameterL (order : ByteOrder) (parameter : UInt32) (data : Option (List UInt8))
    (l : Library) : Library :=
  if parameter = paramMethod then
    match checkData 4 data with
    | some bytes => l.set { l.process.handle with method := UInt32.ofNat (order.load bytes) }
    | none => l.warn (.wrongSize parameter)
  else if parameter = paramFeatures then l.warn .readOnly
  else if parameter = paramErrorMethod then
    match checkData 4 data with
    | some bytes => l.set { l.process.handle with errorMethod := UInt32.ofNat (order.load bytes) }
    | none => l.warn (.wrongSize parameter)
  else if parameter = paramRequired then
    match checkData 296 data with
    | some bytes => { l with required := loadRequired order bytes }
    | none => l.warn (.wrongSize parameter)
  else l

/-- The macro `_write_data` of `lib/parameter.c:27–31`: the value returned and the bytes written
to a buffer of this size; a null pointer is absent, for the buffer and for the data. -/
def writeData (data : Option (List UInt8)) (room : Option Nat) : BitVec 64 × List UInt8 :=
  let size := (data.getD []).length
  if room.any fun room ↦ size ≤ room then
    match data with
    | none => (1, [0])
    | some bytes => (BitVec.ofNat 64 size, bytes)
  else (-BitVec.ofNat 64 size, [])

/-- `glibtop_get_parameter_l`, `lib/parameter.c:44–71`. -/
def Library.getParameterL (order : ByteOrder) (parameter : UInt32) (room : Option Nat)
    (l : Library) : BitVec 64 × List UInt8 :=
  let s := l.process.handle
  if parameter = paramMethod then writeData (some (order.store 4 s.method.toNat)) room
  else if parameter = paramFeatures then writeData (some (order.store 8 s.features.toNat)) room
  else if parameter = paramCommand then writeData (s.serverCommand.map asciiBytes) room
  else if parameter = paramHost then writeData (s.serverHost.map asciiBytes) room
  else if parameter = paramPort then writeData (some (order.store 8 s.serverPort.toNat)) room
  else if parameter = paramErrorMethod then
    writeData (some (order.store 4 s.errorMethod.toNat)) room
  else if parameter = paramRequired then writeData (some (storeRequired order l.required)) room
  else (0, [])

/-- The check of required fields at the end of the getter of a feature. -/
def Library.checkRequired (f : Feature) (flags : BitVec 64) (l : Library) : Library :=
  let requested := l.required (field f)
  let check := Client.checkRequired l.process.handle.errorMethod flags requested
  let l := { l with required := Function.update l.required (field f) check.2 }
  match check.1 with
  | .silent => l
  | .warned => l.warn (.missing f requested flags)
  | .aborted => { l with process := l.process.fail .missing }

/-- `glibtop_close_r`, `lib/close.c:31–50`. A response to `GLIBTOP_CMND_QUIT` announces no data
block. -/
def glibtopCloseR (env : Env) (depth : Nat) (p : Process) : Process :=
  let s := p.handle
  if s.method = methodUnix ∨ s.method = methodInet then
    (p.callL (glibtopInitR env depth 0 {}) false).andThen fun p ↦ p.act (.close p.handle.socket)
  else if s.method = methodPipe then
    ((p.act (.kill s.pid)).act (.close s.input.1)).act (.close s.output.2)
  else p

/-- A call that initialises the handle or asks for data: `glibtop_init_r` or `glibtop_get_X_l`,
with whether the response announces a data block and the flags of the result. -/
inductive Query
  | init (features : BitVec 64) (flags : InitFlags)
  | get (f : Feature) (block : Bool) (returned : BitVec 64)

/-- A public call on the handle. -/
inductive ApiCall
  | query (q : Query)
  | setParameter (parameter : UInt32) (data : Option (List UInt8))
  | getParameter (parameter : UInt32) (room : Option Nat)
  | close

section

variable (env : Env) (order : ByteOrder) (depth : Nat)

/-- `glibtop_get_X_l`, `lib/lib.pl:161–236`. -/
def Library.getL (f : Feature) (block : Bool) (returned : BitVec 64) (l : Library) : Library :=
  let result := glibtopGetL env depth (fun _ ↦ block) f l.process
  let l := { l with process := result.1 }
  if result.2 = .answered then l.checkRequired f returned else l

/-- What a query does. -/
def Library.query (l : Library) : Query → Library
  | .init features flags =>
    { l with process := glibtopInitR env depth features flags l.process }
  | .get f block returned => l.getL env depth f block returned

/-- What a call does in a process that has not ended. -/
def Library.call (l : Library) : ApiCall → Library
  | .query q => l.query env depth q
  | .setParameter parameter data => l.setParameterL order parameter data
  | .getParameter _ _ => l
  | .close => { l with process := glibtopCloseR env depth l.process }

/-- One step of the client. -/
def Library.step (l : Library) (c : ApiCall) : Library :=
  if l.Alive then l.call env order depth c else l

end

end LibGTop.Client
