import ApueCode.Posix.CString

/-! The two orders in which the bytes of a number stand in memory, and in that of the network. -/

namespace ApueCode.Posix

inductive ByteOrder
  | little | big
  deriving DecidableEq

namespace ByteOrder

def uint16 (order : ByteOrder) (bytes : List Byte) : BitVec 16 :=
  match order with
  | .little => (bytes.getD 1 0).toBitVec ++ (bytes.getD 0 0).toBitVec
  | .big => (bytes.getD 0 0).toBitVec ++ (bytes.getD 1 0).toBitVec

def ntohs (order : ByteOrder) (netshort : BitVec 16) : BitVec 16 :=
  match order with
  | .little => netshort.extractLsb' 0 8 ++ netshort.extractLsb' 8 8
  | .big => netshort

variable {order : ByteOrder} {bytes bytes' : List Byte}

@[simp] lemma ntohs_uint16 : order.ntohs (order.uint16 bytes) = big.uint16 bytes := by
  cases order with
  | little => exact congrArg₂ (· ++ ·) BitVec.extractLsb'_append_eq_right BitVec.extractLsb'_append_eq_left
  | big => rfl

lemma uint16_eq : order.uint16 bytes = order.ntohs (big.uint16 bytes) := by
  cases order with
  | little => exact (congrArg₂ (· ++ ·) BitVec.extractLsb'_append_eq_right BitVec.extractLsb'_append_eq_left).symm
  | big => rfl

lemma uint16_inj : order.uint16 bytes = order.uint16 bytes' ↔ big.uint16 bytes = big.uint16 bytes' := by
  constructor
  · intro h
    have hnet := congrArg order.ntohs h
    rwa [ntohs_uint16, ntohs_uint16] at hnet
  · intro h
    rw [uint16_eq, h, ← uint16_eq]

lemma uint16_eq_big : order.uint16 bytes = big.uint16 bytes ↔ order = .big ∨ bytes.getD 0 0 = bytes.getD 1 0 := by
  cases order with
  | big => simp
  | little =>
    simp only [reduceCtorEq, false_or]
    constructor
    · intro h
      have hlow := congrArg (BitVec.extractLsb' 0 8) h
      rw [uint16, uint16, BitVec.extractLsb'_append_eq_right, BitVec.extractLsb'_append_eq_right] at hlow
      exact UInt8.toBitVec_inj.mp hlow
    · intro h
      simp only [uint16, h]

end ByteOrder

end ApueCode.Posix
