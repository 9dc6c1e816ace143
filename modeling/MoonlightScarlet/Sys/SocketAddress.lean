import MoonlightScarlet.Support.ByteOrder
import MoonlightScarlet.Sys.VideoFrame
/-!
# Socket addresses

The C socket calls on Scarlet translate between `struct sockaddr_in`, the address of the
bind and connect calls of the kernel and the eight bytes of its datagram calls.  The byte
order of the machine is a parameter.  A pointer to an address is the memory behind it,
unless it is null; a pointer to a buffer is only passed on.
-/

namespace MoonlightScarlet.Sys.Socket

open Support Support.Memory

def afInet : Int32 := 2

def eio : Int32 := 5
def einval : Int32 := 22
def emsgsize : Int32 := 90
def eopnotsupp : Int32 := 95
def eafnosupport : Int32 := 97

/-- `struct sockaddr_in`. -/
structure SockAddrIn where
  family : UInt16
  port : UInt16
  address : UInt32
  zero : Vector UInt8 8

def sizeOfSockAddrIn : UInt32 := 16

structure NativeInet4Address where
  address : Vector UInt8 4
  port : UInt16

abbrev Wire := Vector UInt8 8

section Layout

variable (e : Endian)

def vectorAt (m : Mem UInt8) (start n : Nat) : Vector UInt8 n := Vector.ofFn fun i => m (start + i)

/-- `address.cast::<SockAddrIn>()`, read and written. -/
def SockAddrIn.load (m : Mem UInt8) : SockAddrIn where
  family := e.ofBytes16 (vectorAt m 0 2)
  port := e.ofBytes16 (vectorAt m 2 2)
  address := e.ofBytes32 (vectorAt m 4 4)
  zero := vectorAt m 8 8

def SockAddrIn.store (value : SockAddrIn) (m : Mem UInt8) : Mem UInt8 :=
  write m 0 ((e.bytes16 value.family).toList ++ (e.bytes16 value.port).toList ++
    (e.bytes32 value.address).toList ++ value.zero.toList)

/-- The memory of the structure that the kernel reads. -/
def NativeInet4Address.memory (native : NativeInet4Address) : List UInt8 :=
  native.address.toList ++ (e.bytes16 native.port).toList

def sockaddrV4 (address : Option (Mem UInt8)) (length : UInt32) :
    Except Int32 NativeInet4Address :=
  match address with
  | none => .error einval
  | some memory =>
      if length < sizeOfSockAddrIn then .error einval
      else
        let address := SockAddrIn.load e memory
        if address.family.toUInt32.toInt32 ≠ afInet then .error eafnosupport
        else .ok { address := e.bytes32 address.address, port := e.fromBe address.port }

end Layout

def wireAddress (address : NativeInet4Address) : Wire :=
  (#v[2, 0] : Vector UInt8 2) ++ address.address ++ Endian.big.bytes16 address.port

example : (wireAddress ⟨#v[192, 168, 0, 1], 47984⟩).toList =
    [2, 0, 192, 168, 0, 1, 0xBB, 0x70] := by decide

/-- Where a call reports an address: the buffer and the variable with its length. -/
structure Report where
  address : Option (Mem UInt8)
  length : Option UInt32

def writeSockaddr (e : Endian) (report : Report) (wire : Wire) : Except Int32 Unit × Report :=
  match report.address with
  | none => (.ok (), report)
  | some memory =>
      match report.length with
      | none => (.error einval, report)
      | some available =>
          let report := { report with length := some sizeOfSockAddrIn }
          if available < sizeOfSockAddrIn then (.error emsgsize, report)
          else if wire[0]? ≠ some 2 then (.error eafnosupport, report)
          else
            let value : SockAddrIn :=
              { family := 2
                port := e.toBe (Endian.big.ofBytes16 (wire.extract 6 8))
                address := e.ofBytes32 (wire.extract 2 6)
                zero := Vector.replicate 8 0 }
            (.ok (), { report with address := some (value.store e memory) })

/-! ## Calls of the kernel -/

inductive Syscall
  | socketBind (socket : UInt64) (address : List UInt8)
  | socketConnect (socket : UInt64) (address : List UInt8)
  | socketAccept (socket : UInt64)
  | socketGetLocalAddress (socket : UInt64)
  | socketGetPeerAddress (socket : UInt64)
  | socketSendTo (socket buffer length : UInt64) (address : Wire)
  | socketRecvFrom (socket buffer length : UInt64) (wantsAddress : Bool)
  | streamWrite (socket buffer length : UInt64)
  | handleClose (handle : UInt64)

/-- What a call returns, and what it leaves in the array for an address. -/
structure Answer where
  result : UInt64
  wire : Wire

abbrev Kernel := Syscall → Answer

structure Caller where
  errno : Int32
  calls : List Syscall

abbrev SocketM := StateM Caller

def syscall (kernel : Kernel) (call : Syscall) : SocketM Answer := do
  modify fun caller => { caller with calls := caller.calls ++ [call] }
  return kernel call

def setErrno (error : Int32) : SocketM Unit :=
  modify fun caller => { caller with errno := error }

/-- Results above `isize::MAX` are negated error numbers. -/
def decodeSyscall (result : UInt64) : Except Int32 UInt64 :=
  if result ≤ Int64.maxValue.toUInt64 then .ok result
  else
    let error := (-result.toInt64).toInt32
    .error (if error = 1 then eio else error)

def returnInt : Except Int32 UInt64 → SocketM Int32
  | .ok value => return value.toUInt32.toInt32
  | .error error => do
      setErrno error
      return -1

def returnSize : Except Int32 UInt64 → SocketM Int64
  | .ok value => return value.toInt64
  | .error error => do
      setErrno error
      return -1

variable (e : Endian) (kernel : Kernel) (socket : Int32)

/-- `bind` and `connect` differ in the call of the kernel. -/
def withNative (call : List UInt8 → Syscall) (address : Option (Mem UInt8)) (length : UInt32) :
    SocketM Int32 :=
  match sockaddrV4 e address length with
  | .error error => do
      setErrno error
      return -1
  | .ok native => do
      let answer ← syscall kernel (call (native.memory e))
      returnInt (decodeSyscall answer.result)

def bind (address : Option (Mem UInt8)) (length : UInt32) : SocketM Int32 :=
  withNative e kernel (.socketBind (sizeOfInt socket)) address length

def connect (address : Option (Mem UInt8)) (length : UInt32) : SocketM Int32 :=
  withNative e kernel (.socketConnect (sizeOfInt socket)) address length

def querySocketAddress (peer : Bool) : SocketM (Except Int32 Wire) := do
  let call := if peer then Syscall.socketGetPeerAddress else .socketGetLocalAddress
  let answer ← syscall kernel (call (sizeOfInt socket))
  return (decodeSyscall answer.result).map fun _ => answer.wire

/-- The address of a socket, written to the report. -/
def reportSocketAddress (peer : Bool) (report : Report) :
    SocketM (Except Int32 Unit × Report) := do
  match ← querySocketAddress kernel socket peer with
  | .error error => return (.error error, report)
  | .ok wire => return writeSockaddr e report wire

def accept (report : Report) : SocketM (Int32 × Report) := do
  let answer ← syscall kernel (.socketAccept (sizeOfInt socket))
  match decodeSyscall answer.result with
  | .error error =>
      setErrno error
      return (-1, report)
  | .ok accepted =>
      let handle := accepted.toUInt32.toInt32
      if report.address.isNone then return (handle, report)
      match ← reportSocketAddress e kernel handle true report with
      | (.ok (), report) => return (handle, report)
      | (.error error, report) =>
          let _ ← syscall kernel (.handleClose accepted)
          setErrno error
          return (-1, report)

/-- `getsockname` and `getpeername` differ in whose address they ask for. -/
def getName (peer : Bool) (report : Report) : SocketM (Int32 × Report) := do
  match ← reportSocketAddress e kernel socket peer report with
  | (.ok (), report) => return (0, report)
  | (.error error, report) =>
      setErrno error
      return (-1, report)

def getsockname (report : Report) : SocketM (Int32 × Report) :=
  getName e kernel socket false report

def getpeername (report : Report) : SocketM (Int32 × Report) :=
  getName e kernel socket true report

def send (buffer length : UInt64) (flags : Int32) : SocketM Int64 := do
  if (buffer = 0 ∧ length ≠ 0) ∨ flags ≠ 0 then
    setErrno einval
    return -1
  let answer ← syscall kernel (.streamWrite (sizeOfInt socket) buffer length)
  returnSize (decodeSyscall answer.result)

def sendto (buffer length : UInt64) (flags : Int32) (address : Option (Mem UInt8))
    (addressLength : UInt32) : SocketM Int64 := do
  if (buffer = 0 ∧ length ≠ 0) ∨ flags ≠ 0 then
    setErrno einval
    return -1
  if address.isNone then send kernel socket buffer length 0
  else
    match sockaddrV4 e address addressLength with
    | .error error =>
        setErrno error
        return -1
    | .ok native =>
        let answer ← syscall kernel
          (.socketSendTo (sizeOfInt socket) buffer length (wireAddress native))
        returnSize (decodeSyscall answer.result)

def recvfrom (buffer length : UInt64) (flags : Int32) (report : Report) :
    SocketM (Int64 × Report) := do
  if (buffer = 0 ∧ length ≠ 0) ∨ flags ≠ 0 then
    setErrno (if flags ≠ 0 then eopnotsupp else einval)
    return (-1, report)
  let answer ← syscall kernel
    (.socketRecvFrom (sizeOfInt socket) buffer length report.address.isSome)
  match decodeSyscall answer.result with
  | .error error =>
      setErrno error
      return (-1, report)
  | .ok received =>
      let wire := if report.address.isSome then answer.wire else Vector.replicate 8 0
      match writeSockaddr e report wire with
      | (.error error, report) =>
          setErrno error
          return (-1, report)
      | (.ok (), report) => return (received.toInt64, report)

end MoonlightScarlet.Sys.Socket
