import CertBroker.Bytes

namespace CertBroker.Text

def isDigit (c : Char) : Bool := 48 ≤ c.toNat && c.toNat ≤ 57

/-- The value of a digit of either case in a base of at most sixteen. -/
def digitValue? (base : Nat) (c : Char) : Option Nat :=
  let n := c.toNat
  let value :=
    if 48 ≤ n && n ≤ 57 then n - 48
    else if 97 ≤ n && n ≤ 102 then n - 87
    else if 65 ≤ n && n ≤ 70 then n - 55
    else 99
  if value < base then some value else none

/-- A hexadecimal digit in lower case. -/
def hexDigit (n : Nat) : Char :=
  if n < 10 then Char.ofNat (48 + n) else Char.ofNat (87 + n)

theorem digitValue?_hexDigit {n : Nat} (h : n < 16) : digitValue? 16 (hexDigit n) = some n := by
  have hall : ∀ m ∈ List.range 16, digitValue? 16 (hexDigit m) = some m := by decide
  exact hall n (List.mem_range.mpr h)

/-- Lower-case hexadecimal without leading zeros. -/
def hex (n : Nat) : List Char :=
  if n < 16 then [hexDigit n] else hex (n / 16) ++ [hexDigit (n % 16)]
termination_by n
decreasing_by omega

/-- Two digits for each byte. -/
def hexBytes (bs : Bytes) : List Char :=
  bs.flatMap fun b => [hexDigit (b.toNat / 16), hexDigit (b.toNat % 16)]

def bytesOfHex? : List Char → Option Bytes
  | [] => some []
  | a :: b :: rest => do
    let byte := UInt8.ofNat ((← digitValue? 16 a) * 16 + (← digitValue? 16 b))
    return byte :: (← bytesOfHex? rest)
  | _ => none

theorem bytesOfHex?_hexBytes (bs : Bytes) : bytesOfHex? (hexBytes bs) = some bs := by
  induction bs with
  | nil => rfl
  | cons b bs ih =>
    have hhigh : b.toNat / 16 < 16 := by
      have := b.toNat_lt
      omega
    have hlow : b.toNat % 16 < 16 := Nat.mod_lt _ (by decide)
    have hsum : b.toNat / 16 * 16 + b.toNat % 16 = b.toNat := by omega
    simp only [hexBytes, List.flatMap_cons, List.cons_append, List.nil_append] at ih ⊢
    simp only [bytesOfHex?, digitValue?_hexDigit hhigh, digitValue?_hexDigit hlow, ih, hsum,
      Option.bind_eq_bind, Option.bind_some, UInt8.ofNat_toNat, Option.pure_def]

end CertBroker.Text
