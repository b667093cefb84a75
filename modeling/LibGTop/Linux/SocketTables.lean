import LibGTop.Base.Scanf
import LibGTop.Linux.Text
import Mathlib.Data.List.Induction
import Mathlib.Logic.Function.Basic

/-!
# The tables of sockets

The parsers of `/proc/net/tcp6`, `/proc/net/tcp` and `/proc/net/unix`
(`sysdeps/linux/procopenfiles.c:52–213`), and the lines of the tables as the kernel prints them.
-/

namespace LibGTop.Linux

open Base

/-- `struct in6_addr`, `s6_addr32`. -/
structure In6Addr where
  word0 : BitVec 32
  word1 : BitVec 32
  word2 : BitVec 32
  word3 : BitVec 32
  deriving DecidableEq

/-- The text of an address, which `INET6_ADDRSTRLEN` bytes hold with its NUL. -/
abbrev HostText := { text : List UInt8 // text.length < 46 ∧ 0 ∉ text }

/-- `inet_ntop` for `AF_INET` and `AF_INET6`, and a buffer of 47 bytes. -/
structure InetNtop where
  inet : BitVec 32 → HostText
  inet6 : In6Addr → HostText

/-- `struct InetSocketEntry` and `struct Inet6SocketEntry`. -/
structure InetSocketEntry where
  host : List UInt8
  port : Int
  deriving DecidableEq

/-- The format of `inet6_socket_parser`. -/
def inet6Format : List Directive :=
  directives none
    "%*d: %*s %8x%8x%8x%8x:%4x %*x %*x:%*x %*x:%*x %*d %*d %*d %d".toList

/-- The format of `inet_socket_parser`. -/
def inetFormat : List Directive :=
  directives none "%*d: %*x:%*x %8x:%4x %*x %*x:%*x %*x:%*x %*d %*d %*d %d".toList

/-- `inet6_socket_parser`, `sysdeps/linux/procopenfiles.c:107–129`: the entry and its key. -/
def inet6SocketParser (inetNtop : InetNtop) (line : List UInt8) : Option (Int × InetSocketEntry) :=
  match sscanf inet6Format line with
  | [addr0, addr1, addr2, addr3, port, sock] =>
    some (sock.toInt, ⟨(inetNtop.inet6 ⟨addr0, addr1, addr2, addr3⟩).1, port.toInt⟩)
  | _ => none

/-- `inet_socket_parser`, `sysdeps/linux/procopenfiles.c:149–170`. -/
def inetSocketParser (inetNtop : InetNtop) (line : List UInt8) : Option (Int × InetSocketEntry) :=
  match sscanf inetFormat line with
  | [addr, port, sock] => some (sock.toInt, ⟨(inetNtop.inet addr).1, port.toInt⟩)
  | _ => none

/-- `local_socket_parser`, `sysdeps/linux/procopenfiles.c:189–206`, with the 47 bytes of its
name. -/
def localSocketParser (line : List UInt8) : Option (Int × List UInt8) :=
  let p := skipMultipleToken line 6
  let (sock, p) := strtoull 10 p
  some ((sock.setWidth 32).toInt, gStrstrip (p.take 46))

/-- `parse_file` and `get_all`, `sysdeps/linux/procopenfiles.c:55–94`: the table without its first
line; empty when the file cannot be opened. -/
def getAll {ε : Type} (parser : List UInt8 → Option (Int × ε)) (file : Option (List UInt8)) :
    Int → Option ε :=
  (((lines (file.getD [])).drop 1).filterMap fun line ↦ parser (cString line)).foldl
    (fun (dict : Int → Option ε) entry ↦ Function.update dict entry.1 (some entry.2)) fun _ ↦ none

/-- A key has the entry that came last. -/
theorem foldl_update {ε : Type} (entries : List (Int × ε)) (key : Int) :
    entries.foldl (fun (dict : Int → Option ε) entry ↦ Function.update dict entry.1 (some entry.2))
        (fun _ ↦ none) key =
      (entries.reverse.find? fun entry ↦ entry.1 = key).map Prod.snd := by
  induction entries using List.reverseRecOn with
  | nil => rfl
  | append_singleton entries entry ih =>
    rw [List.foldl_append, List.foldl_cons, List.foldl_nil, List.reverse_append,
      List.reverse_singleton, List.singleton_append]
    by_cases h : entry.1 = key
    · rw [← h, Function.update_self, List.find?_cons_of_pos (by simp)]
      rfl
    · rw [Function.update_of_ne (Ne.symm h), List.find?_cons_of_neg (by simpa using h)]
      exact ih

/-- A hexadecimal numeral. -/
abbrev HexText := { digits : List UInt8 // digits ≠ [] ∧ ∀ b ∈ digits, isDigitIn 16 b }

/-- The text of a line. -/
abbrev LineText := { text : List UInt8 // ∀ b ∈ text, b ≠ 0 ∧ b ≠ 10 }

/-- What `printf` writes for a number and a width of its field. -/
def padded (width : Nat) (number : List UInt8) : List UInt8 :=
  List.replicate (width - number.length) 32 ++ number

/-- A line of `/proc/net/tcp` or `/proc/net/tcp6`, with an address of either. -/
structure InetRow (address : Type) where
  sl : Nat
  localAddress : HexText
  localPort : HexText
  remAddress : address
  remPort : BitVec 16
  st : HexText
  txQueue : HexText
  rxQueue : HexText
  tr : HexText
  tmWhen : HexText
  retrnsmt : BitVec 32
  uid : Nat
  timeout : Int
  inode : BitVec 64
  more : LineText

namespace InetRow

variable {address : Type} (row : InetRow address)

/-- The columns behind the remote address. -/
def columns : List UInt8 :=
  32 :: (row.st.1 ++ 32 :: (row.txQueue.1 ++ 58 :: (row.rxQueue.1 ++ 32 :: (row.tr.1 ++ 58 ::
    (row.tmWhen.1 ++ 32 :: (hexNumeral 8 row.retrnsmt.toNat ++ 32 ::
      (padded 5 (decimal row.uid) ++ 32 :: (padded 8 (signedDecimal row.timeout) ++ 32 ::
        (decimal row.inode.toNat ++ 32 :: row.more.1)))))))))

/-- The line: `%4d: %08X:%04X %08X:%04X …`, where the remote address is as given. -/
def text (remAddress : List UInt8) : List UInt8 :=
  padded 4 (decimal row.sl) ++ 58 :: 32 :: (row.localAddress.1 ++ 58 :: (row.localPort.1 ++ 32 ::
    (remAddress ++ 58 :: (hexNumeral 4 row.remPort.toNat ++ row.columns))))

/-- The number of retransmits has no letter among its hexadecimal digits. -/
def Legible : Prop := ∀ b ∈ hexNumeral 8 row.retrnsmt.toNat, isDigitIn 10 b

instance : Decidable row.Legible :=
  inferInstanceAs (Decidable (∀ b ∈ hexNumeral 8 row.retrnsmt.toNat, isDigitIn 10 b))

end InetRow

/-- A line of `/proc/net/tcp`. -/
def tcpText (row : InetRow (BitVec 32)) : List UInt8 :=
  row.text (hexNumeral 8 row.remAddress.toNat)

/-- A line of `/proc/net/tcp6`. -/
def tcp6Text (row : InetRow In6Addr) : List UInt8 :=
  row.text (hexNumeral 8 row.remAddress.word0.toNat ++ (hexNumeral 8 row.remAddress.word1.toNat ++
    (hexNumeral 8 row.remAddress.word2.toNat ++ hexNumeral 8 row.remAddress.word3.toNat)))

/-- A line of `/proc/net/unix`; a socket may have no name. -/
structure UnixRow where
  num : { text : List UInt8 // IsToken text }
  refCount : HexText
  protocol : HexText
  flags : HexText
  type : HexText
  st : HexText
  inode : BitVec 64
  name : Option LineText

/-- The line: `%pK: %08X %08X %08X %04X %02X %5lu`, and a blank with the name. -/
def unixText (row : UnixRow) : List UInt8 :=
  row.num.1 ++ 58 :: 32 :: (row.refCount.1 ++ 32 :: (row.protocol.1 ++ 32 :: (row.flags.1 ++ 32 ::
    (row.type.1 ++ 32 :: (row.st.1 ++ 32 :: (padded 5 (decimal row.inode.toNat) ++
      row.name.elim [] fun name ↦ 32 :: name.1))))))

end LibGTop.Linux
