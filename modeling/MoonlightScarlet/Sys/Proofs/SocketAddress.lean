import MoonlightScarlet.Sys.SocketAddress
/-!
# What the socket addresses denote

Each layout of an address denotes a peer, and the conversions keep the peer on both byte
orders.
-/

namespace MoonlightScarlet.Sys.Socket

open Support Support.Memory

/-- An IPv4 address, with its bytes in network order, and a port. -/
structure Peer where
  address : Vector UInt8 4
  port : UInt16

section Denotations

variable (e : Endian)

structure SockAddrDenotes (m : Mem UInt8) (peer : Peer) : Prop where
  family : vectorAt m 0 2 = e.bytes16 2
  port : vectorAt m 2 2 = Endian.big.bytes16 peer.port
  address : vectorAt m 4 4 = peer.address

/-- The kernel takes the port of these calls as a number of the machine. -/
def NativeDenotes (bytes : List UInt8) (peer : Peer) : Prop :=
  bytes = peer.address.toList ++ (e.bytes16 peer.port).toList

structure WireDenotes (wire : Wire) (peer : Peer) : Prop where
  family : wire[0]? = some 2
  address : wire.extract 2 6 = peer.address
  port : wire.extract 6 8 = Endian.big.bytes16 peer.port

end Denotations

variable {e : Endian} {m : Mem UInt8} {peer : Peer} {length : UInt32}

theorem fromBe_ofBytes16 (stored : Vector UInt8 2) :
    e.fromBe (e.ofBytes16 stored) = Endian.big.ofBytes16 stored := by
  rw [Endian.fromBe_eq, Endian.bytes16_ofBytes16]

theorem sockaddrV4_of_denotes (h : SockAddrDenotes e m peer) (hlength : sizeOfSockAddrIn ≤ length) :
    sockaddrV4 e (some m) length = .ok ⟨peer.address, peer.port⟩ := by
  have hsize : ¬length < sizeOfSockAddrIn := UInt32.not_lt.mpr hlength
  have hfamily : ¬(2 : UInt16).toUInt32.toInt32 ≠ afInet := by decide
  simp only [sockaddrV4, if_neg hsize, SockAddrIn.load, h.family, h.port, h.address,
    Endian.ofBytes16_bytes16, if_neg hfamily, Endian.bytes32_ofBytes32, fromBe_ofBytes16]

theorem eq_two_of_afInet {family : UInt16} (h : family.toUInt32.toInt32 = afInet) : family = 2 := by
  have hword : family.toUInt32 = 2 := congrArg Int32.toUInt32 h
  apply UInt16.toNat_inj.mp
  rw [← UInt16.toNat_toUInt32, hword]
  rfl

theorem sockaddrV4_rejects {address : Option (Mem UInt8)}
    (h : ∀ memory, address = some memory →
      length < sizeOfSockAddrIn ∨ vectorAt memory 0 2 ≠ e.bytes16 2) :
    ∃ error, sockaddrV4 e address length = .error error := by
  cases address with
  | none => exact ⟨einval, rfl⟩
  | some memory =>
      by_cases hsize : length < sizeOfSockAddrIn
      · exact ⟨einval, if_pos hsize⟩
      · have hfamily : (SockAddrIn.load e memory).family.toUInt32.toInt32 ≠ afInet := by
          intro heq
          apply (h memory rfl).resolve_left hsize
          have htwo : (SockAddrIn.load e memory).family = 2 := eq_two_of_afInet heq
          rw [← htwo, SockAddrIn.load, Endian.bytes16_ofBytes16]
        refine ⟨eafnosupport, ?_⟩
        simp only [sockaddrV4, if_neg hsize, if_pos hfamily]

theorem toList_wireAddress (inet : NativeInet4Address) :
    (wireAddress inet).toList =
      2 :: 0 :: (inet.address.toList ++ (Endian.big.bytes16 inet.port).toList) := by
  calc (wireAddress inet).toList
      = ((#v[2, 0] : Vector UInt8 2) ++ inet.address).toList ++
          (Endian.big.bytes16 inet.port).toList := Vector.toList_append
    _ = 2 :: 0 :: inet.address.toList ++ (Endian.big.bytes16 inet.port).toList := by
        rw [Vector.toList_append]
        rfl

theorem wireAddress_denotes (peer : Peer) :
    WireDenotes (wireAddress ⟨peer.address, peer.port⟩) peer := by
  have hwire := toList_wireAddress ⟨peer.address, peer.port⟩
  have haddress : peer.address.toList.length = 4 := Vector.length_toList
  constructor
  case family => rw [← Vector.getElem?_toList, hwire, List.getElem?_cons_zero]
  case address =>
    apply Vector.toList_inj.mp
    rw [Vector.toList_extract, hwire]
    exact List.take_left' haddress
  case port =>
    apply Vector.toList_inj.mp
    rw [Vector.toList_extract, hwire]
    calc ((2 :: 0 :: (peer.address.toList ++ (Endian.big.bytes16 peer.port).toList)).drop 6).take 2
        = (Endian.big.bytes16 peer.port).toList.take 2 :=
          congrArg (List.take 2) (List.drop_left' haddress)
      _ = (Endian.big.bytes16 peer.port).toList :=
          List.take_of_length_le (Nat.le_of_eq Vector.length_toList)

/-! ## A written address -/

theorem toList_vectorAt (m : Mem UInt8) (start n : Nat) :
    (vectorAt m start n).toList = Support.Memory.read m start n := by
  apply List.ext_getElem
  · rw [Vector.length_toList, length_read]
  · intro i hi hread
    simp only [vectorAt, Vector.getElem_toList, Vector.getElem_ofFn, Support.Memory.read,
      List.getElem_map, List.getElem_range]

theorem vectorAt_write {n : Nat} (m : Mem UInt8) (v : Vector UInt8 n) (front back : List UInt8) :
    vectorAt (write m 0 (front ++ v.toList ++ back)) front.length n = v := by
  have hread := read_write_part m 0 front v.toList back
  rw [Nat.zero_add, Vector.length_toList] at hread
  apply Vector.toList_inj.mp
  rw [toList_vectorAt, hread]

theorem store_family (value : SockAddrIn) (m : Mem UInt8) :
    vectorAt (value.store e m) 0 2 = e.bytes16 value.family := by
  have hpart := vectorAt_write m (e.bytes16 value.family) [] ((e.bytes16 value.port).toList ++
    (e.bytes32 value.address).toList ++ value.zero.toList)
  simpa only [SockAddrIn.store, List.length_nil, List.nil_append, List.append_assoc] using hpart

theorem store_port (value : SockAddrIn) (m : Mem UInt8) :
    vectorAt (value.store e m) 2 2 = e.bytes16 value.port := by
  have hpart := vectorAt_write m (e.bytes16 value.port) (e.bytes16 value.family).toList
    ((e.bytes32 value.address).toList ++ value.zero.toList)
  rw [Vector.length_toList] at hpart
  simpa only [SockAddrIn.store, List.append_assoc] using hpart

theorem store_address (value : SockAddrIn) (m : Mem UInt8) :
    vectorAt (value.store e m) 4 4 = e.bytes32 value.address := by
  have hpart := vectorAt_write m (e.bytes32 value.address)
    ((e.bytes16 value.family).toList ++ (e.bytes16 value.port).toList) value.zero.toList
  rw [List.length_append, Vector.length_toList, Vector.length_toList] at hpart
  exact hpart

/-- The report of an address that a call found. -/
def Reported (e : Endian) (report : Report) (peer : Peer) : Prop :=
  ∃ m, report = ⟨some m, some sizeOfSockAddrIn⟩ ∧ SockAddrDenotes e m peer

/-- The structure that a wire address becomes. -/
def ofWire (e : Endian) (wire : Wire) : SockAddrIn where
  family := 2
  port := e.toBe (Endian.big.ofBytes16 (wire.extract 6 8))
  address := e.ofBytes32 (wire.extract 2 6)
  zero := Vector.replicate 8 0

theorem ofWire_denotes {wire : Wire} (h : WireDenotes wire peer) (m : Mem UInt8) :
    SockAddrDenotes e ((ofWire e wire).store e m) peer := by
  constructor
  case family => exact store_family (ofWire e wire) m
  case port => rw [store_port, ofWire, Endian.bytes16_toBe, Endian.bytes16_ofBytes16, h.port]
  case address => rw [store_address, ofWire, Endian.bytes32_ofBytes32, h.address]

theorem writeSockaddr_of_denotes {wire : Wire} {available : UInt32} (h : WireDenotes wire peer)
    (m : Mem UInt8) (havailable : sizeOfSockAddrIn ≤ available) :
    ∃ report, writeSockaddr e ⟨some m, some available⟩ wire = (.ok (), report) ∧
      Reported e report peer := by
  have hsize : ¬available < sizeOfSockAddrIn := UInt32.not_lt.mpr havailable
  have hfamily : ¬wire[0]? ≠ some 2 := not_not.mpr h.family
  refine ⟨⟨some ((ofWire e wire).store e m), some sizeOfSockAddrIn⟩, ?_, _, rfl,
    ofWire_denotes h m⟩
  simp only [writeSockaddr, if_neg hsize, if_neg hfamily]
  rfl

/-- What keeps `write_sockaddr` from writing. -/
def Rejected (report : Report) (wire : Wire) : Prop :=
  report.address ≠ none ∧
    ((∀ available, report.length = some available → available < sizeOfSockAddrIn) ∨
      wire[0]? ≠ some 2)

theorem writeSockaddr_rejected {report : Report} {wire : Wire} (h : Rejected report wire) :
    ∃ error length, writeSockaddr e report wire = (.error error, ⟨report.address, length⟩) := by
  obtain ⟨address, reportLength⟩ := report
  obtain ⟨haddress, hcause⟩ := h
  cases address with
  | none => exact absurd rfl haddress
  | some memory =>
      cases reportLength with
      | none => exact ⟨einval, none, rfl⟩
      | some available =>
          by_cases hsize : available < sizeOfSockAddrIn
          · exact ⟨emsgsize, some sizeOfSockAddrIn, if_pos hsize⟩
          · have hfamily : wire[0]? ≠ some 2 := hcause.resolve_left fun h => hsize (h available rfl)
            refine ⟨eafnosupport, some sizeOfSockAddrIn, ?_⟩
            simp only [writeSockaddr, if_neg hsize, if_pos hfamily]

/-! ## The calls -/

/-- Both calls hand the kernel the same address. -/
def BindsTo (e : Endian) (m : Mem UInt8) (length : UInt32) (peer : Peer) : Prop :=
  ∀ kernel socket caller, ∃ bytes, NativeDenotes e bytes peer ∧
    ((bind e kernel socket (some m) length).run caller).2.calls =
      caller.calls ++ [.socketBind (sizeOfInt socket) bytes] ∧
    ((connect e kernel socket (some m) length).run caller).2.calls =
      caller.calls ++ [.socketConnect (sizeOfInt socket) bytes]

def SendsTo (e : Endian) (m : Mem UInt8) (length : UInt32) (peer : Peer) : Prop :=
  ∀ kernel socket buffer count caller, ¬(buffer = 0 ∧ count ≠ 0) →
    ∃ wire, WireDenotes wire peer ∧
      ((sendto e kernel socket buffer count 0 (some m) length).run caller).2.calls =
        caller.calls ++ [.socketSendTo (sizeOfInt socket) buffer count wire]

/-- A call without flags does not fail at its first check. -/
theorem not_refused {buffer count : UInt64} (hbuffer : ¬(buffer = 0 ∧ count ≠ 0)) :
    ¬((buffer = 0 ∧ count ≠ 0) ∨ (0 : Int32) ≠ 0) := by
  rintro (hnull | hflags)
  · exact hbuffer hnull
  · exact hflags rfl

theorem calls_returnInt (result : Except Int32 UInt64) (caller : Caller) :
    ((returnInt result).run caller).2.calls = caller.calls := by
  cases result <;> rfl

theorem calls_returnSize (result : Except Int32 UInt64) (caller : Caller) :
    ((returnSize result).run caller).2.calls = caller.calls := by
  cases result <;> rfl

theorem calls_withNative {kernel : Kernel} {call : List UInt8 → Syscall} {caller : Caller}
    {address : Option (Mem UInt8)} {native : NativeInet4Address}
    (h : sockaddrV4 e address length = .ok native) :
    ((withNative e kernel call address length).run caller).2.calls =
      caller.calls ++ [call (native.memory e)] := by
  rw [withNative, h]
  exact calls_returnInt _ _

theorem bindsTo_of_denotes (h : SockAddrDenotes e m peer) (hlength : sizeOfSockAddrIn ≤ length) :
    BindsTo e m length peer := by
  intro kernel socket caller
  have hparsed := sockaddrV4_of_denotes h hlength
  exact ⟨_, rfl, calls_withNative hparsed, calls_withNative hparsed⟩

theorem sendsTo_of_denotes (h : SockAddrDenotes e m peer) (hlength : sizeOfSockAddrIn ≤ length) :
    SendsTo e m length peer := by
  intro kernel socket buffer count caller hbuffer
  have hparsed := sockaddrV4_of_denotes h hlength
  refine ⟨_, wireAddress_denotes peer, ?_⟩
  rw [sendto, if_neg (not_refused hbuffer), hparsed]
  exact calls_returnSize _ _

theorem withNative_rejects {kernel : Kernel} {call : List UInt8 → Syscall} {caller : Caller}
    {address : Option (Mem UInt8)} {error : Int32}
    (h : sockaddrV4 e address length = .error error) :
    (withNative e kernel call address length).run caller =
      (-1, { caller with errno := error }) := by
  rw [withNative, h]
  rfl

theorem sendto_rejects {kernel : Kernel} {socket : Int32} {buffer count : UInt64}
    {caller : Caller} {error : Int32} (hbuffer : ¬(buffer = 0 ∧ count ≠ 0))
    (h : sockaddrV4 e (some m) length = .error error) :
    (sendto e kernel socket buffer count 0 (some m) length).run caller =
      (-1, { caller with errno := error }) := by
  rw [sendto, if_neg (not_refused hbuffer), h]
  rfl

/-- The call of the kernel succeeds. -/
def Succeeds (kernel : Kernel) (call : Syscall) : Prop :=
  ∃ value, decodeSyscall (kernel call).result = .ok value

def nameCall (socket : Int32) (peer : Bool) : Syscall :=
  if peer then .socketGetPeerAddress (sizeOfInt socket)
  else .socketGetLocalAddress (sizeOfInt socket)

/-- The caller after one more call. -/
def Caller.called (caller : Caller) (call : Syscall) : Caller :=
  { caller with calls := caller.calls ++ [call] }

theorem querySocketAddress_run (kernel : Kernel) (socket : Int32) (peer : Bool)
    (caller : Caller) :
    (querySocketAddress kernel socket peer).run caller =
      ((decodeSyscall (kernel (nameCall socket peer)).result).map
          fun _ => (kernel (nameCall socket peer)).wire,
        caller.called (nameCall socket peer)) := by
  cases peer <;> rfl

theorem reportSocketAddress_run {kernel : Kernel} {socket : Int32} {peer : Bool}
    (h : Succeeds kernel (nameCall socket peer)) (report : Report) (caller : Caller) :
    (reportSocketAddress e kernel socket peer report).run caller =
      (writeSockaddr e report (kernel (nameCall socket peer)).wire,
        caller.called (nameCall socket peer)) := by
  obtain ⟨value, hvalue⟩ := h
  rw [reportSocketAddress, StateT.run_bind, querySocketAddress_run, hvalue]
  rfl

/-- What a call returns after writing an address. -/
def returned {α : Type} (failure value : α) : Except Int32 Unit → α
  | .ok () => value
  | .error _ => failure

theorem getName_run {kernel : Kernel} {socket : Int32} {peer : Bool}
    (h : Succeeds kernel (nameCall socket peer)) (report : Report) (caller : Caller) :
    ((getName e kernel socket peer report).run caller).1 =
      (returned (-1) 0 (writeSockaddr e report (kernel (nameCall socket peer)).wire).1,
        (writeSockaddr e report (kernel (nameCall socket peer)).wire).2) := by
  rw [getName, StateT.run_bind, reportSocketAddress_run h]
  generalize writeSockaddr e report (kernel (nameCall socket peer)).wire = written
  obtain ⟨result, report'⟩ := written
  cases result <;> rfl

theorem bind_pair {α β : Type} (x : α) (f : α → Id β) : ((x : Id α) >>= f) = f x := rfl

theorem syscall_run (kernel : Kernel) (call : Syscall) (caller : Caller) :
    (syscall kernel call).run caller = (kernel call, caller.called call) := rfl

/-- What `accept` answers once the kernel has accepted a connection. -/
theorem accept_run {kernel : Kernel} {socket : Int32} {accepted : UInt64}
    (haccept : decodeSyscall (kernel (.socketAccept (sizeOfInt socket))).result = .ok accepted)
    (h : Succeeds kernel (nameCall accepted.toUInt32.toInt32 true)) {report : Report}
    (hreport : report.address ≠ none) (caller : Caller) :
    ((accept e kernel socket report).run caller).1 =
      (returned (-1) accepted.toUInt32.toInt32 (writeSockaddr e report
          (kernel (nameCall accepted.toUInt32.toInt32 true)).wire).1,
        (writeSockaddr e report
          (kernel (nameCall accepted.toUInt32.toInt32 true)).wire).2) := by
  have hsome : ¬report.address.isNone = true := by rwa [Option.isNone_iff_eq_none]
  rw [accept, StateT.run_bind, syscall_run]
  simp only [bind_pair, haccept, if_neg hsome, StateT.run_bind, reportSocketAddress_run h]
  generalize writeSockaddr e report
    (kernel (nameCall accepted.toUInt32.toInt32 true)).wire = written
  obtain ⟨result, report'⟩ := written
  cases result <;> rfl

theorem recvfrom_run {kernel : Kernel} {socket : Int32} {buffer count received : UInt64}
    (hbuffer : ¬(buffer = 0 ∧ count ≠ 0)) {report : Report} (hreport : report.address ≠ none)
    (hreceive : decodeSyscall (kernel (.socketRecvFrom (sizeOfInt socket) buffer count
      true)).result = .ok received) (caller : Caller) :
    ((recvfrom e kernel socket buffer count 0 report).run caller).1 =
      (returned (-1) received.toInt64 (writeSockaddr e report
          (kernel (.socketRecvFrom (sizeOfInt socket) buffer count true)).wire).1,
        (writeSockaddr e report
          (kernel (.socketRecvFrom (sizeOfInt socket) buffer count true)).wire).2) := by
  have hsome : report.address.isSome = true := Option.isSome_iff_ne_none.mpr hreport
  rw [recvfrom, if_neg (not_refused hbuffer), hsome, StateT.run_bind, syscall_run]
  simp only [bind_pair, hreceive, if_true]
  generalize writeSockaddr e report
    (kernel (.socketRecvFrom (sizeOfInt socket) buffer count true)).wire = written
  obtain ⟨result, report'⟩ := written
  cases result <;> rfl

/-! ## The same peer on every path -/

/-- Equal parts of two memories are equal cell by cell. -/
theorem cell_eq {n start : Nat} {m m' : Mem UInt8} (h : vectorAt m start n = vectorAt m' start n)
    {i : Nat} (hi : i < n) : m (start + i) = m' (start + i) := by
  have hcell := congrArg (fun v => v[i]) h
  simpa only [vectorAt, Vector.getElem_ofFn] using hcell

theorem SockAddrDenotes.same_bytes {m' : Mem UInt8} (h : SockAddrDenotes e m peer)
    (h' : SockAddrDenotes e m' peer) : vectorAt m 0 8 = vectorAt m' 0 8 := by
  have hfamily := h.family.trans h'.family.symm
  have hport := h.port.trans h'.port.symm
  have haddress := h.address.trans h'.address.symm
  refine Vector.ext fun i hi => ?_
  simp only [vectorAt, Vector.getElem_ofFn]
  have hcases : i < 2 ∨ (∃ j < 2, i = 2 + j) ∨ ∃ j < 4, i = 4 + j := by
    by_cases hlow : i < 2
    · exact .inl hlow
    by_cases hmid : i < 4
    · exact .inr (.inl ⟨i - 2, by omega, by omega⟩)
    · exact .inr (.inr ⟨i - 4, by omega, by omega⟩)
  rcases hcases with hlow | ⟨j, hj, rfl⟩ | ⟨j, hj, rfl⟩
  · exact cell_eq hfamily hlow
  · rw [Nat.zero_add]
    exact cell_eq hport hj
  · rw [Nat.zero_add]
    exact cell_eq haddress hj

/-- A structure of the family denotes a peer. -/
theorem exists_denoted (h : vectorAt m 0 2 = e.bytes16 2) : ∃ peer, SockAddrDenotes e m peer :=
  ⟨⟨vectorAt m 4 4, Endian.big.ofBytes16 (vectorAt m 2 2)⟩, h,
    (Endian.big.bytes16_ofBytes16 _).symm, rfl⟩

/-- The call reported the peer, and a datagram to the reported address goes there. -/
def RepliesTo (e : Endian) (report : Report) (peer : Peer) : Prop :=
  ∃ m, report = ⟨some m, some sizeOfSockAddrIn⟩ ∧ SockAddrDenotes e m peer ∧
    SendsTo e m sizeOfSockAddrIn peer

theorem repliesTo_of_denotes {wire : Wire} {available : UInt32} (h : WireDenotes wire peer)
    (m : Mem UInt8) (havailable : sizeOfSockAddrIn ≤ available) :
    RepliesTo e (writeSockaddr e ⟨some m, some available⟩ wire).2 peer := by
  obtain ⟨report, hwrite, m', rfl, hdenotes⟩ := @writeSockaddr_of_denotes e _ _ _ h m havailable
  rw [hwrite]
  exact ⟨m', rfl, hdenotes, sendsTo_of_denotes hdenotes (UInt32.le_refl _)⟩

/-- The call failed and left the memory of the address alone. -/
def Unreported {α : Type} [Neg α] [OfNat α 1] (report : Report) (answer : α × Report) : Prop :=
  answer.1 = -1 ∧ answer.2.address = report.address

theorem unreported_of_rejected {α : Type} [Neg α] [OfNat α 1] {report : Report} {wire : Wire}
    (h : Rejected report wire) (value : α) :
    Unreported report (returned (-1) value (writeSockaddr e report wire).1,
      (writeSockaddr e report wire).2) := by
  obtain ⟨error, length, hwrite⟩ := @writeSockaddr_rejected e _ _ h
  rw [hwrite]
  exact ⟨rfl, rfl⟩

theorem socket_addresses (e : Endian) :
    (∀ m length peer, SockAddrDenotes e m peer → sizeOfSockAddrIn ≤ length →
      BindsTo e m length peer ∧ SendsTo e m length peer) ∧
    -- there and back
    (∀ m m' length available, vectorAt m 0 2 = e.bytes16 2 → sizeOfSockAddrIn ≤ length →
      sizeOfSockAddrIn ≤ available →
        ∃ native m'', sockaddrV4 e (some m) length = .ok native ∧
          writeSockaddr e ⟨some m', some available⟩ (wireAddress native) =
            (.ok (), ⟨some m'', some sizeOfSockAddrIn⟩) ∧
          vectorAt m'' 0 8 = vectorAt m 0 8) ∧
    -- replies
    (∀ kernel socket caller m available peer, sizeOfSockAddrIn ≤ available →
      (∀ buffer count, ¬(buffer = 0 ∧ count ≠ 0) →
        Succeeds kernel (.socketRecvFrom (sizeOfInt socket) buffer count true) →
        WireDenotes (kernel (.socketRecvFrom (sizeOfInt socket) buffer count true)).wire peer →
          RepliesTo e ((recvfrom e kernel socket buffer count 0
            ⟨some m, some available⟩).run caller).1.2 peer) ∧
      (∀ accepted, decodeSyscall (kernel (.socketAccept (sizeOfInt socket))).result =
          .ok accepted →
        Succeeds kernel (nameCall accepted.toUInt32.toInt32 true) →
        WireDenotes (kernel (nameCall accepted.toUInt32.toInt32 true)).wire peer →
          RepliesTo e ((accept e kernel socket ⟨some m, some available⟩).run caller).1.2 peer) ∧
      (Succeeds kernel (nameCall socket true) →
        WireDenotes (kernel (nameCall socket true)).wire peer →
          RepliesTo e
            ((getpeername e kernel socket ⟨some m, some available⟩).run caller).1.2 peer)) ∧
    -- refused addresses
    (∀ address length kernel socket caller, (∀ m, address = some m →
        length < sizeOfSockAddrIn ∨ vectorAt m 0 2 ≠ e.bytes16 2) →
      ∃ error, sockaddrV4 e address length = .error error ∧
        (bind e kernel socket address length).run caller = (-1, { caller with errno := error }) ∧
        (connect e kernel socket address length).run caller =
          (-1, { caller with errno := error }) ∧
        ∀ m buffer count, address = some m → ¬(buffer = 0 ∧ count ≠ 0) →
          (sendto e kernel socket buffer count 0 address length).run caller =
            (-1, { caller with errno := error })) ∧
    -- refused reports
    (∀ kernel socket caller report,
      (∀ buffer count, ¬(buffer = 0 ∧ count ≠ 0) →
        Succeeds kernel (.socketRecvFrom (sizeOfInt socket) buffer count true) →
        Rejected report (kernel (.socketRecvFrom (sizeOfInt socket) buffer count true)).wire →
          Unreported report ((recvfrom e kernel socket buffer count 0 report).run caller).1) ∧
      (∀ accepted, decodeSyscall (kernel (.socketAccept (sizeOfInt socket))).result =
          .ok accepted →
        Succeeds kernel (nameCall accepted.toUInt32.toInt32 true) →
        Rejected report (kernel (nameCall accepted.toUInt32.toInt32 true)).wire →
          Unreported report ((accept e kernel socket report).run caller).1) ∧
      (Succeeds kernel (nameCall socket true) →
        Rejected report (kernel (nameCall socket true)).wire →
          Unreported report ((getpeername e kernel socket report).run caller).1)) := by
  refine ⟨fun m length peer h hlength =>
    ⟨bindsTo_of_denotes h hlength, sendsTo_of_denotes h hlength⟩, ?_, ?_, ?_, ?_⟩
  · intro m m' length available hfamily hlength havailable
    obtain ⟨peer, hpeer⟩ := exists_denoted hfamily
    obtain ⟨report, hwrite, m'', rfl, hdenotes⟩ :=
      @writeSockaddr_of_denotes e _ _ _ (wireAddress_denotes peer) m' havailable
    exact ⟨_, m'', sockaddrV4_of_denotes hpeer hlength, hwrite, hdenotes.same_bytes hpeer⟩
  · intro kernel socket caller m available peer havailable
    refine ⟨?_, ?_, ?_⟩
    · rintro buffer count hbuffer ⟨received, hreceived⟩ hwire
      rw [recvfrom_run hbuffer (Option.some_ne_none m) hreceived]
      exact repliesTo_of_denotes hwire m havailable
    · intro accepted haccepted hname hwire
      rw [accept_run haccepted hname (Option.some_ne_none m)]
      exact repliesTo_of_denotes hwire m havailable
    · intro hname hwire
      rw [getpeername, getName_run hname]
      exact repliesTo_of_denotes hwire m havailable
  · intro address length kernel socket caller hrefused
    obtain ⟨error, herror⟩ := sockaddrV4_rejects hrefused
    refine ⟨error, herror, withNative_rejects herror, withNative_rejects herror, ?_⟩
    rintro m buffer count rfl hbuffer
    exact sendto_rejects hbuffer herror
  · intro kernel socket caller report
    refine ⟨?_, ?_, ?_⟩
    · rintro buffer count hbuffer ⟨received, hreceived⟩ hrejected
      rw [recvfrom_run hbuffer hrejected.1 hreceived]
      exact unreported_of_rejected hrejected _
    · intro accepted haccepted hname hrejected
      rw [accept_run haccepted hname hrejected.1]
      exact unreported_of_rejected hrejected _
    · intro hname hrejected
      rw [getpeername, getName_run hname]
      exact unreported_of_rejected hrejected _

end MoonlightScarlet.Sys.Socket
