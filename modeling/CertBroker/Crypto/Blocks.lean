import CertBroker.Bytes

namespace CertBroker.Crypto

/-- The zeros that fill the last block after the delimiter and before the length. -/
def paddingZeros (block lengthSize size : Nat) : Nat :=
  (2 * block - 1 - lengthSize - size % block) % block

/-- A message with a delimiter bit, zeros and its length in bits. -/
def pad (block lengthSize : Nat) (message : Bytes) : Bytes :=
  message ++ 128 :: List.replicate (paddingZeros block lengthSize message.length) 0
    ++ Bytes.toBigEndian lengthSize (8 * message.length)

/-- Cuts into groups of `size`, where a last group that is too short is dropped. -/
def groups (size : Nat) (l : List α) : List (List α) :=
  if size = 0 || l.length < size then []
  else l.take size :: groups size (l.drop size)
termination_by l.length
decreasing_by
  rename_i h
  simp only [Bool.or_eq_true, decide_eq_true_eq, not_or] at h
  simp only [List.length_drop]
  omega

end CertBroker.Crypto
