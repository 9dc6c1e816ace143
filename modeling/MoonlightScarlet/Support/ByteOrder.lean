import MoonlightScarlet.Support.Memory
/-!
# Byte orders

The bytes of a number in the order in which a machine stores them.  Network order is the
order of a big-endian machine.
-/

namespace Support

open Memory

inductive Endian
  | little
  | big
  deriving DecidableEq, Repr

namespace Endian

variable (e : Endian)

/-- `bytes` with the lowest byte first, as the machine stores them; and back. -/
def order (bytes : List UInt8) : List UInt8 :=
  match e with
  | .little => bytes
  | .big => bytes.reverse

def bytes (size n : Nat) : List UInt8 := e.order (bytesOf size n)

def number (bytes : List UInt8) : Nat := numberOf (e.order bytes)

@[simp] theorem order_order (bytes : List UInt8) : e.order (e.order bytes) = bytes := by
  cases e with
  | little => rfl
  | big => exact List.reverse_reverse bytes

@[simp] theorem length_order (bytes : List UInt8) : (e.order bytes).length = bytes.length := by
  cases e with
  | little => rfl
  | big => exact List.length_reverse

@[simp] theorem length_bytes (size n : Nat) : (e.bytes size n).length = size := by
  rw [bytes, length_order, length_bytesOf]

theorem number_bytes (size n : Nat) : e.number (e.bytes size n) = n % 256 ^ size := by
  rw [number, bytes, order_order, numberOf_bytesOf]

theorem numberOf_lt (bytes : List UInt8) : numberOf bytes < 256 ^ bytes.length := by
  induction bytes with
  | nil => exact Nat.one_pos
  | cons byte bytes ih =>
      have hbyte := byte.toNat_lt
      rw [numberOf, List.length_cons, Nat.pow_succ]
      omega

theorem bytesOf_numberOf (bytes : List UInt8) : bytesOf bytes.length (numberOf bytes) = bytes := by
  induction bytes with
  | nil => rfl
  | cons byte bytes ih =>
      have hbyte := byte.toNat_lt
      have hlow : UInt8.ofNat (byte.toNat + 256 * numberOf bytes) = byte := by
        apply UInt8.toNat_inj.mp
        rw [UInt8.toNat_ofNat']
        omega
      have hrest : (byte.toNat + 256 * numberOf bytes) / 256 = numberOf bytes := by omega
      rw [List.length_cons, numberOf, bytesOf, hlow, hrest, ih]

theorem number_lt (bytes : List UInt8) : e.number bytes < 256 ^ bytes.length := by
  have hlt := numberOf_lt (e.order bytes)
  rwa [length_order] at hlt

theorem bytes_number (bytes : List UInt8) : e.bytes bytes.length (e.number bytes) = bytes := by
  have hbytes := bytesOf_numberOf (e.order bytes)
  rw [length_order] at hbytes
  rw [Endian.bytes, number, hbytes, order_order]

/-! ## Numbers of 16 and 32 bits -/

/-- `u16::to_be_bytes` for the big order, `to_ne_bytes` for that of the machine. -/
def bytes16 (n : UInt16) : Vector UInt8 2 :=
  ⟨(e.bytes 2 n.toNat).toArray, e.length_bytes 2 n.toNat⟩

def ofBytes16 (stored : Vector UInt8 2) : UInt16 := UInt16.ofNat (e.number stored.toList)

def bytes32 (n : UInt32) : Vector UInt8 4 :=
  ⟨(e.bytes 4 n.toNat).toArray, e.length_bytes 4 n.toNat⟩

def ofBytes32 (stored : Vector UInt8 4) : UInt32 := UInt32.ofNat (e.number stored.toList)

theorem ofBytes16_bytes16 (n : UInt16) : e.ofBytes16 (e.bytes16 n) = n := by
  have hlt : n.toNat < 256 ^ 2 := n.toNat_lt
  rw [ofBytes16, bytes16, Vector.toList_mk, List.toList_toArray, number_bytes,
    Nat.mod_eq_of_lt hlt, UInt16.ofNat_toNat]

theorem bytes16_ofBytes16 (stored : Vector UInt8 2) : e.bytes16 (e.ofBytes16 stored) = stored := by
  have hlt := e.number_lt stored.toList
  have hbytes := e.bytes_number stored.toList
  rw [Vector.length_toList] at hlt hbytes
  apply Vector.toList_inj.mp
  rw [bytes16, Vector.toList_mk, List.toList_toArray, ofBytes16, UInt16.toNat_ofNat_of_lt' hlt,
    hbytes]

theorem bytes32_ofBytes32 (stored : Vector UInt8 4) : e.bytes32 (e.ofBytes32 stored) = stored := by
  have hlt := e.number_lt stored.toList
  have hbytes := e.bytes_number stored.toList
  rw [Vector.length_toList] at hlt hbytes
  apply Vector.toList_inj.mp
  rw [bytes32, Vector.toList_mk, List.toList_toArray, ofBytes32, UInt32.toNat_ofNat_of_lt' hlt,
    hbytes]

/-- `u16::swap_bytes`. -/
def swapBytes (n : UInt16) : UInt16 := little.ofBytes16 (big.bytes16 n)

/-- `u16::from_be`: a swap on a little-endian machine. -/
def fromBe (n : UInt16) : UInt16 :=
  match e with
  | .little => swapBytes n
  | .big => n

/-- The bytes in memory are read in network order. -/
theorem fromBe_eq (n : UInt16) : e.fromBe n = big.ofBytes16 (e.bytes16 n) := by
  cases e with
  | little => rfl
  | big => exact (big.ofBytes16_bytes16 n).symm

def toBe (n : UInt16) : UInt16 := e.fromBe n

theorem bytes16_toBe (n : UInt16) : e.bytes16 (e.toBe n) = big.bytes16 n := by
  cases e with
  | little => exact little.bytes16_ofBytes16 (big.bytes16 n)
  | big => rfl

end Endian

end Support
