import Mathlib.Algebra.Order.Group.Nat
import Mathlib.Data.List.TakeWhile
import Mathlib.Tactic.Positivity
import Mathlib.Tactic.Ring
import PubSub.Foundations.CString

/-!
# Decimal numerals

Numerals as C strings: how {lit}`_itoa_s` writes a number, and how {lit}`atoi` and {lit}`strtoll`
read one.

Main results:

- Theorem {lit}`mem_decimal`: a numeral consists of digits.
- Theorem {lit}`length_decimal_le_iff`: its length, in terms of the number.
- Theorem {lit}`itoaS_eq_some_iff`: when a number fits a buffer.
- Theorem {lit}`atoi_decimal`: reading a numeral gives back the number.
- Theorem {lit}`digitsValue_of_append`: what is read of a numeral that has been cut off.
-/

namespace Foundations

/-! ## Writing -/

/-- The decimal numeral of a number. -/
def decimal (n : Nat) : Bytes :=
  bytesOf (Nat.toDigits 10 n)

/-- Is the byte a digit? -/
def isDigit (b : Byte) : Bool :=
  48 ≤ b.toNat && b.toNat ≤ 57

/-- {lit}`_itoa_s` with radix ten: the numeral and its terminator have to fit. -/
def itoaS (value : Nat) (size : Nat) : Option Bytes :=
  if (decimal value).length + 1 ≤ size then some (decimal value) else none

/-- {lit}`_itoa_s` in base ten for an {lit}`int`, with a sign where it is negative. -/
def itoaSInt : Int → Nat → Option Bytes
  | .ofNat value, size => itoaS value size
  | .negSucc value, size =>
      if (decimal (value + 1)).length + 2 ≤ size then some (byteOf '-' :: decimal (value + 1))
      else none

@[simp]
theorem itoaSInt_natCast (value size : Nat) : itoaSInt (value : Int) size = itoaS value size :=
  rfl

theorem toNat_byteOf_of_isDigit {c : Char} (hc : c.isDigit = true) :
    (byteOf c).toNat = c.toNat := by
  have hle : c.toNat ≤ 57 := by
    have h := hc
    simp only [Char.isDigit, Bool.and_eq_true, decide_eq_true_eq] at h
    exact UInt32.le_iff_toNat_le.mp h.2
  rw [byteOf, UInt8.toNat_ofNat']
  omega

/-- A numeral consists of digits. -/
theorem mem_decimal {n : Nat} {b : Byte} (hb : b ∈ decimal n) : isDigit b = true := by
  rcases List.mem_map.mp hb with ⟨c, hc, rfl⟩
  have hdigit := Nat.isDigit_of_mem_toDigits (by decide) (by decide) hc
  have h := hdigit
  simp only [Char.isDigit, Bool.and_eq_true, decide_eq_true_eq] at h
  have hge : 48 ≤ c.toNat := UInt32.le_iff_toNat_le.mp h.1
  have hle : c.toNat ≤ 57 := UInt32.le_iff_toNat_le.mp h.2
  rw [isDigit, toNat_byteOf_of_isDigit hdigit]
  simp [hge, hle]

theorem decimal_ne_nil (n : Nat) : decimal n ≠ [] := by
  unfold decimal bytesOf
  rw [ne_eq, List.map_eq_nil_iff]
  exact Nat.toDigits_ne_nil

/-- The numeral of a number has at most {lit}`k` digits when the number is below ten to
the power {lit}`k`. -/
theorem length_decimal_le_iff {n k : Nat} (hk : 0 < k) :
    (decimal n).length ≤ k ↔ n < 10 ^ k := by
  rw [decimal, bytesOf, List.length_map]
  exact Nat.length_toDigits_le_iff (by decide) hk

/-- A number fits a buffer that has room for its digits and the terminator. -/
theorem itoaS_eq_some_iff {n k : Nat} (hk : 0 < k) :
    itoaS n (k + 1) = some (decimal n) ↔ n < 10 ^ k := by
  rw [← length_decimal_le_iff hk]
  unfold itoaS
  split
  · next hfits => exact ⟨fun _ => by omega, fun _ => rfl⟩
  · next hfits => exact ⟨fun h => by contradiction, fun h => absurd h (by omega)⟩

/-! ## Reading -/

/-- White space, which {lit}`atoi` skips. -/
def isSpace (b : Byte) : Bool :=
  b.toNat = 32 || (9 ≤ b.toNat && b.toNat ≤ 13)

/-- The digits up to the first byte that is none; fails where the memory ends first. -/
def leadingDigits : Bytes → Option Bytes
  | [] => none
  | b :: bs => if isDigit b then (leadingDigits bs).map (b :: ·) else some []

/-- The value of a sequence of digits, behind the digits already read. -/
def digitsValue (acc : Nat) (digits : Bytes) : Nat :=
  digits.foldl (fun v b => 10 * v + (b.toNat - 48)) acc

/-- {lit}`atoi`: white space, a sign or none, and digits up to the first other byte. -/
def atoi (s : Bytes) : Option Int :=
  match s.dropWhile isSpace with
  | [] => none
  | b :: bs =>
      if b = byteOf '-' then (leadingDigits bs).map fun ds => -(digitsValue 0 ds : Int)
      else if b = byteOf '+' then (leadingDigits bs).map fun ds => (digitsValue 0 ds : Int)
      else (leadingDigits (b :: bs)).map fun ds => (digitsValue 0 ds : Int)

theorem leadingDigits_append {ds : Bytes} (hds : ∀ b ∈ ds, isDigit b = true) {b : Byte}
    (hb : isDigit b = false) (rest : Bytes) : leadingDigits (ds ++ b :: rest) = some ds := by
  induction ds with
  | nil => simp [leadingDigits, hb]
  | cons d ds ih =>
      have hd : isDigit d = true := hds d (by simp)
      have hrest := ih fun e he => hds e (List.mem_cons_of_mem _ he)
      simp [leadingDigits, hd, hrest]

/-- The digits of a numeral have the value of the number. -/
theorem digitsValue_decimal (n : Nat) : digitsValue 0 (decimal n) = n := by
  have hfold : ∀ (cs : List Char) (acc : Nat), (∀ c ∈ cs, c.isDigit = true) →
      digitsValue acc (bytesOf cs) = Nat.ofDigitChars 10 cs acc := by
    intro cs
    induction cs with
    | nil => exact fun _ _ => rfl
    | cons c cs ih =>
        intro acc hcs
        have hc := toNat_byteOf_of_isDigit (hcs c (by simp))
        have hrest := ih (10 * acc + (c.toNat - '0'.toNat)) fun d hd =>
          hcs d (List.mem_cons_of_mem _ hd)
        rw [Nat.ofDigitChars_cons, ← hrest]
        simp [digitsValue, bytesOf, hc]
  have hdigits : ∀ c ∈ Nat.toDigits 10 n, c.isDigit = true :=
    fun c hc => Nat.isDigit_of_mem_toDigits (by decide) (by decide) hc
  rw [decimal, hfold _ 0 hdigits, Nat.ofDigitChars_ten_toDigits]

/-- A digit is no space and no sign. -/
theorem isDigit_cases {b : Byte} (hb : isDigit b = true) :
    isSpace b = false ∧ b ≠ byteOf '-' ∧ b ≠ byteOf '+' := by
  have hbounds : 48 ≤ b.toNat ∧ b.toNat ≤ 57 := by simpa [isDigit] using hb
  refine ⟨?_, ?_, ?_⟩
  · simp only [isSpace, Bool.or_eq_false_iff, Bool.and_eq_false_iff, decide_eq_false_iff_not]
    omega
  · rintro rfl
    contradiction
  · rintro rfl
    contradiction

/-- {lit}`atoi` reads back what {lit}`_itoa_s` has written, whatever follows. -/
theorem atoi_decimal (n : Nat) (rest : Bytes) : atoi (decimal n ++ 0 :: rest) = some (n : Int) := by
  have hlead : leadingDigits (decimal n ++ 0 :: rest) = some (decimal n) :=
    leadingDigits_append (fun b hb => mem_decimal hb) (by decide) rest
  rcases List.exists_cons_of_ne_nil (decimal_ne_nil n) with ⟨d, ds, hds⟩
  have hd : isDigit d = true := mem_decimal (n := n) (by simp [hds])
  rcases isDigit_cases hd with ⟨hspace, hminus, hplus⟩
  have hvalue := digitsValue_decimal n
  rw [hds] at hlead hvalue ⊢
  rw [List.cons_append] at hlead ⊢
  unfold atoi
  rw [List.dropWhile_cons_of_neg (by simp [hspace])]
  simp only [hminus, hplus, if_false, hlead, Option.map_some, hvalue]

/-! ## Reading a part of a numeral -/

/-- {lit}`LLONG_MAX`. -/
def llongMax : Int :=
  0x7FFFFFFFFFFFFFFF

/-- {lit}`LLONG_MIN`. -/
def llongMin : Int :=
  -0x8000000000000000

/-- {lit}`strtoll` with radix ten, given the contents of a string; a value that does not fit
is replaced by the nearest one that does. -/
def strtoll (s : Bytes) : Int :=
  match s.dropWhile isSpace with
  | [] => 0
  | b :: bs =>
      if b = byteOf '-' then max llongMin (-(digitsValue 0 (bs.takeWhile isDigit) : Int))
      else if b = byteOf '+' then min llongMax (digitsValue 0 (bs.takeWhile isDigit) : Int)
      else min llongMax (digitsValue 0 ((b :: bs).takeWhile isDigit) : Int)

theorem strtoll_digits {ds : Bytes} (hds : ∀ b ∈ ds, isDigit b = true) :
    strtoll ds = min llongMax (digitsValue 0 ds : Int) := by
  cases ds with
  | nil => simp [strtoll, digitsValue, llongMax]
  | cons d ds =>
      rcases isDigit_cases (hds d (by simp)) with ⟨hspace, hminus, hplus⟩
      have hall : (d :: ds).takeWhile isDigit = d :: ds := List.takeWhile_eq_self_iff.mpr hds
      rw [strtoll, List.dropWhile_cons_of_neg (by simp [hspace])]
      simp only [hminus, hplus, if_false, hall]

theorem digitsValue_cons (acc : Nat) (d : Byte) (ds : Bytes) :
    digitsValue acc (d :: ds) = digitsValue (10 * acc + (d.toNat - 48)) ds := by
  rw [digitsValue, digitsValue, List.foldl_cons]

/-- The digits read so far are moved up by those that follow. -/
theorem digitsValue_acc (acc : Nat) (ds : Bytes) :
    digitsValue acc ds = acc * 10 ^ ds.length + digitsValue 0 ds := by
  induction ds generalizing acc with
  | nil => simp [digitsValue]
  | cons d ds ih =>
      rw [digitsValue_cons, digitsValue_cons, ih, ih (10 * 0 + (d.toNat - 48)), List.length_cons,
        Nat.pow_succ]
      ring

theorem digitsValue_lt {ds : Bytes} (hds : ∀ b ∈ ds, isDigit b = true) :
    digitsValue 0 ds < 10 ^ ds.length := by
  induction ds with
  | nil => simp [digitsValue]
  | cons d ds ih =>
      have hd : 48 ≤ d.toNat ∧ d.toNat ≤ 57 := by simpa [isDigit] using hds d (by simp)
      have hrest := ih fun b hb => hds b (by simp [hb])
      rw [digitsValue_cons, digitsValue_acc, List.length_cons, Nat.pow_succ]
      have hdigit : 10 * 0 + (d.toNat - 48) ≤ 9 := by omega
      have hmul := Nat.mul_le_mul_right (10 ^ ds.length) hdigit
      omega

/-- The first digits of a numeral are the number without its last digits. -/
theorem digitsValue_of_append {n : Nat} {ds es : Bytes} (h : decimal n = ds ++ es) :
    digitsValue 0 ds = n / 10 ^ es.length := by
  have hdigits : ∀ b ∈ ds ++ es, isDigit b = true := fun b hb => mem_decimal (h ▸ hb)
  have hvalue : digitsValue 0 (ds ++ es) = digitsValue (digitsValue 0 ds) es := by
    rw [digitsValue, digitsValue, digitsValue, List.foldl_append]
  have hlt := digitsValue_lt fun b hb => hdigits b (List.mem_append_right ds hb)
  have hn := digitsValue_decimal n
  rw [h, hvalue, digitsValue_acc] at hn
  rw [← hn, Nat.mul_comm, Nat.mul_add_div (by positivity), Nat.div_eq_of_lt hlt, Nat.add_zero]

end Foundations
