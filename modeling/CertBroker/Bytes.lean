
namespace CertBroker

abbrev Bytes := List UInt8

namespace Bytes

/-- The number that bytes write, the highest byte first. -/
def ofBigEndian (bs : Bytes) : Nat := bs.foldl (fun n b => n * 256 + b.toNat) 0

/-- The number that bytes write, the lowest byte first. -/
def ofLittleEndian (bs : Bytes) : Nat := ofBigEndian bs.reverse

/-- The lowest `count` bytes of a number, the highest first. -/
def toBigEndian : (count n : Nat) → Bytes
  | 0, _ => []
  | count + 1, n => toBigEndian count (n / 256) ++ [UInt8.ofNat n]

/-- The lowest `count` bytes of a number, the lowest first. -/
def toLittleEndian (count n : Nat) : Bytes := (toBigEndian count n).reverse

@[simp] theorem toBigEndian_length (count n : Nat) : (toBigEndian count n).length = count := by
  induction count generalizing n with
  | zero => rfl
  | succ count ih => simp [toBigEndian, ih]

theorem ofBigEndian_toBigEndian {count n : Nat} (h : n < Nat.pow 256 count) :
    ofBigEndian (toBigEndian count n) = n := by
  induction count generalizing n with
  | zero =>
    have hzero : n = 0 := Nat.lt_one_iff.mp h
    simp [toBigEndian, ofBigEndian, hzero]
  | succ count ih =>
    have hhigh : n / 256 < Nat.pow 256 count := by
      have hsucc : Nat.pow 256 (count + 1) = Nat.pow 256 count * 256 := rfl
      omega
    have hread := ih hhigh
    unfold ofBigEndian at hread ⊢
    simp only [toBigEndian, List.foldl_append, hread, List.foldl_cons, List.foldl_nil,
      UInt8.toNat_ofNat']
    omega

end Bytes

end CertBroker
