import MsgRpc.Discovery.InstanceInfo

/-!
This module contains IPv4 addresses and the parser of their dotted form.
-/

namespace MsgRpc

section Decimal

-- `std::to_string` of an unsigned number
def decimal (n : Nat) : Str := Nat.toDigits 10 n

theorem isDigit_of_mem_decimal {n : Nat} {c : Char} (h : c ∈ decimal n) : c.isDigit :=
  Nat.isDigit_of_mem_toDigits (by decide) (by decide) h

theorem toNat_of_isDigit {c : Char} (h : c.isDigit) : 48 ≤ c.toNat ∧ c.toNat ≤ 57 := by
  unfold Char.isDigit at h
  rw [Bool.and_eq_true, decide_eq_true_eq, decide_eq_true_eq] at h
  exact h

theorem digitOf_of_isDigit {c : Char} (h : c.isDigit) : digitOf 10 c = some (c.toNat - 48) := by
  have hbounds := toNat_of_isDigit h
  have hle : '0' ≤ c ∧ c ≤ '9' := hbounds
  unfold digitOf
  simp only [hle, and_self, ↓reduceIte]
  rw [if_pos (by omega)]

theorem digits_append {cs : Str} (hcs : ∀ c ∈ cs, c.isDigit) (acc : Nat) (rest : Str)
    : digits 10 acc (cs ++ rest) = digits 10 (Nat.ofDigitChars 10 cs acc) rest := by
  induction cs generalizing acc with
  | nil => rfl
  | cons d ds ih =>
    rw [List.cons_append, digits, digitOf_of_isDigit (hcs d List.mem_cons_self)]
    dsimp only
    rw [ih fun c hc => hcs c (List.mem_cons_of_mem _ hc), Nat.ofDigitChars_cons, Nat.mul_comm]
    rfl

theorem digits_decimal (n : Nat) (rest : Str)
    : digits 10 0 (decimal n ++ rest) = digits 10 n rest := by
  rw [digits_append fun c hc => isDigit_of_mem_decimal hc]
  unfold decimal
  rw [Nat.ofDigitChars_ten_toDigits]

end Decimal

structure Ipv4 where
  a : UInt8
  b : UInt8
  c : UInt8
  d : UInt8
  deriving DecidableEq

namespace Ipv4

def dotted (ip : Ipv4) : Str :=
  decimal ip.a.toNat ++ '.' ::
    (decimal ip.b.toNat ++ '.' :: (decimal ip.c.toNat ++ '.' :: decimal ip.d.toNat))

theorem mem_dotted {ip : Ipv4} {c : Char} (h : c ∈ ip.dotted) : c.isDigit ∨ c = '.' := by
  unfold dotted at h
  simp only [List.mem_append, List.mem_cons] at h
  have hdigit : ∀ n, c ∈ decimal n → c.isDigit := fun n hc => isDigit_of_mem_decimal hc
  grind

def toUlong (ip : Ipv4) : Nat :=
  ((ip.a.toNat * 256 + ip.b.toNat) * 256 + ip.c.toNat) * 256 + ip.d.toNat

theorem toUlong_injective : Function.Injective toUlong := by
  intro x y h
  have ha := x.a.toNat_lt
  have hb := x.b.toNat_lt
  have hc := x.c.toNat_lt
  have hd := x.d.toNat_lt
  have ha' := y.a.toNat_lt
  have hb' := y.b.toNat_lt
  have hc' := y.c.toNat_lt
  have hd' := y.d.toNat_lt
  unfold toUlong at h
  cases x
  cases y
  simp only [mk.injEq, ← UInt8.toNat_inj] at *
  omega

-- the numbers between the dots
def readByte (s : Str) : UInt8 × Str :=
  (UInt8.ofNat (digits 10 0 s), (s.dropWhile Char.isDigit).tail)

def fromString (s : Str) : Option Nat :=
  let (a, s1) := readByte s
  let (b, s2) := readByte s1
  let (c, s3) := readByte s2
  let (d, _) := readByte s3
  if dotted ⟨a, b, c, d⟩ = s then some (toUlong ⟨a, b, c, d⟩) else none

theorem readByte_decimal (n : UInt8) (rest : Str)
    : readByte (decimal n.toNat ++ '.' :: rest) = (n, rest) := by
  have hdigits : ∀ c ∈ decimal n.toNat, c.isDigit := fun c hc => isDigit_of_mem_decimal hc
  unfold readByte
  rw [digits_decimal, List.dropWhile_append_of_pos hdigits]
  simp [digits, digitOf]

theorem readByte_decimal_last (n : UInt8) : (readByte (decimal n.toNat)).1 = n := by
  unfold readByte
  rw [← List.append_nil (decimal n.toNat), digits_decimal]
  simp [digits]

theorem fromString_dotted (ip : Ipv4) : fromString ip.dotted = some (toUlong ip) := by
  unfold fromString
  have hdotted : ip.dotted = decimal ip.a.toNat ++ '.' ::
      (decimal ip.b.toNat ++ '.' :: (decimal ip.c.toNat ++ '.' :: decimal ip.d.toNat)) := rfl
  rw [hdotted]
  simp only [readByte_decimal, readByte_decimal_last]
  rw [if_pos hdotted]

end Ipv4
end MsgRpc
