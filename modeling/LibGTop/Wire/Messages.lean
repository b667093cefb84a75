import LibGTop.Base.Buffers
import LibGTop.Base.Words

/-!
# Messages of the client/server protocol

`glibtop_command` and `glibtop_response` (`include/glibtop/command.h:67–92`) are
copied to the descriptor as they lie in memory, so a message is the image of its
structure on the platform both ends were built for. A reply is a response and,
when its `data_size` is not zero, that many bytes behind it
(`src/daemon/io.c:26–55`).
-/

namespace LibGTop.Wire

open Base

/-- What the protocol depends on of the platform: the byte order, `BUFSIZ` (at least
256 in every C implementation) and `sizeof (glibtop_response_union)`, which has room for a
`glibtop_sysdeps`. -/
structure Abi where
  order : ByteOrder
  bufsiz : Nat
  bufsiz_ge : 256 ≤ bufsiz
  bufsiz_lt : bufsiz < 2 ^ 31
  unionSize : Nat
  unionSize_ge : 296 ≤ unionSize
  unionSize_lt : unionSize < 2 ^ 31

/-- 64-bit Linux with the GNU C library on a little-endian machine; the largest member of the
union is `glibtop_cpu`, with eight tables of 1024 CPUs (`include/glibtop/cpu.h:61–83`). -/
def linuxAbi : Abi where
  order := .little
  bufsiz := 8192
  bufsiz_ge := by decide
  bufsiz_lt := by decide
  unionSize := 65624
  unionSize_ge := by decide
  unionSize_lt := by decide

/-- `_GLIBTOP_PARAM_SIZE`, `include/glibtop/command.h:67`. -/
def glibtopParamSize : Nat := 16

/-- `glibtop_command`, `include/glibtop/command.h:74–79`. -/
structure Command where
  command : UInt64
  size : UInt64
  dataSize : UInt64
  parameter : List UInt8
  parameter_length : parameter.length = glibtopParamSize
  deriving DecidableEq

/-- `sizeof (glibtop_command)`. -/
def sizeofCommand : Nat := 40

/-- Equality of the three numbers and the inline bytes determines a command. -/
@[ext] theorem Command.ext {c d : Command} (hc : c.command = d.command) (hs : c.size = d.size)
    (hd : c.dataSize = d.dataSize) (hp : c.parameter = d.parameter) : c = d := by
  cases c
  cases d
  simp_all

/-- Image of a 64-bit field. -/
def storeField (order : ByteOrder) (value : UInt64) : List UInt8 := order.store 8 value.toNat

/-- The 64-bit field that starts at `offset` of an image. -/
def loadField (order : ByteOrder) (bytes : List UInt8) (offset : Nat) : UInt64 :=
  UInt64.ofNat (order.load (slice bytes offset 8))

@[simp] theorem length_storeField (order : ByteOrder) (value : UInt64) :
    (storeField order value).length = 8 := order.length_store 8 value.toNat

/-- A stored field is read back wherever it lies. -/
theorem loadField_append (order : ByteOrder) (before after : List UInt8) (value : UInt64)
    (offset : Nat) (ho : before.length = offset) :
    loadField order (before ++ (storeField order value ++ after)) offset = value := by
  rw [loadField, slice_append _ _ _ _ _ ho (length_storeField _ _), storeField,
    order.load_store_of_lt 8 _ value.toNat_lt, UInt64.ofNat_toNat]

/-- The bytes of a command in memory. -/
def Command.store (order : ByteOrder) (c : Command) : List UInt8 :=
  storeField order c.command ++ (storeField order c.size ++
    (storeField order c.dataSize ++ c.parameter))

/-- The command whose memory holds the bytes. Total: it is only read from
`sizeof (glibtop_command)` bytes, and a shorter list is completed with zeros. -/
def Command.load (order : ByteOrder) (bytes : List UInt8) : Command where
  command := loadField order bytes 0
  size := loadField order bytes 8
  dataSize := loadField order bytes 16
  parameter := slice (bytes ++ zeros sizeofCommand) 24 glibtopParamSize
  parameter_length := by
    simp only [slice, List.length_take, List.length_drop, List.length_append, length_zeros,
      sizeofCommand, glibtopParamSize]
    omega

@[simp] theorem Command.length_store (order : ByteOrder) (c : Command) :
    (c.store order).length = sizeofCommand := by
  simp [store, c.parameter_length, glibtopParamSize, sizeofCommand]

/-- A command is read back from its image. -/
theorem Command.load_store (order : ByteOrder) (c : Command) :
    load order (c.store order) = c := by
  apply Command.ext
  · exact loadField_append order [] _ c.command 0 rfl
  · exact loadField_append order (storeField order c.command) _ c.size 8 (by simp)
  · simpa only [load, store, List.append_assoc] using
      loadField_append order (storeField order c.command ++ storeField order c.size) c.parameter
        c.dataSize 16 (by simp)
  · simpa only [load, store, List.append_assoc] using
      slice_append (storeField order c.command ++ (storeField order c.size ++
        storeField order c.dataSize)) c.parameter (zeros sizeofCommand) 24 glibtopParamSize
        (by simp) c.parameter_length

/-- `glibtop_response`, `include/glibtop/command.h:87–92`, on a given platform. -/
structure Response (abi : Abi) where
  offset : UInt64
  size : UInt64
  dataSize : UInt64
  u : List UInt8
  u_length : u.length = abi.unionSize

/-- `sizeof (glibtop_response)`. -/
def sizeofResponse (abi : Abi) : Nat := 24 + abi.unionSize

/-- `_offset_union (p)` and `_offset_data (p)`, `src/daemon/daemon.h:51–52`: every member
of the union starts where the union does. -/
def offsetUnion : UInt64 := 24

variable {abi : Abi}

/-- The bytes of a response in memory. -/
def Response.store (r : Response abi) : List UInt8 :=
  storeField abi.order r.offset ++ (storeField abi.order r.size ++
    (storeField abi.order r.dataSize ++ r.u))

@[simp] theorem Response.length_store (r : Response abi) :
    r.store.length = sizeofResponse abi := by
  simp [store, r.u_length, sizeofResponse]
  omega

/-- The offset field is read back from the image of a response. -/
theorem Response.loadField_offset (r : Response abi) :
    loadField abi.order r.store 0 = r.offset :=
  loadField_append abi.order [] _ r.offset 0 rfl

/-- The data size is read back from the image of a response. -/
theorem Response.loadField_dataSize (r : Response abi) :
    loadField abi.order r.store 16 = r.dataSize := by
  simpa only [store, List.append_assoc] using
    loadField_append abi.order (storeField abi.order r.offset ++ storeField abi.order r.size) r.u
      r.dataSize 16 (by simp)

/-- The arguments of one `do_output` call: the response as the handler filled it, the offset
of the answer in it and the data block, whose length is a `size_t`. -/
structure Reply (abi : Abi) where
  resp : Response abi
  offset : UInt64
  data : List UInt8
  data_lt : data.length < 2 ^ 64

/-- The response as `do_output` sends it, with its offset and data size filled in. -/
def Reply.sent (r : Reply abi) : Response abi :=
  { r.resp with offset := r.offset, dataSize := UInt64.ofNat r.data.length }

/-- The bytes of a reply on the wire. -/
def Reply.wire (r : Reply abi) : List UInt8 := r.sent.store ++ r.data

/-- The data size a reply announces is the length of its block. -/
theorem Reply.toNat_dataSize (r : Reply abi) : r.sent.dataSize.toNat = r.data.length :=
  UInt64.toNat_ofNat_of_lt' r.data_lt

end LibGTop.Wire
