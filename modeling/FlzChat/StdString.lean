/-
Byte strings and the decimal text of integers.  A `std::string` holds
arbitrary bytes, so it is a list of bytes and not a Lean `String`.
-/
import Mathlib.Data.Nat.Digits.Defs
import Mathlib.Data.Nat.Digits.Lemmas

namespace FlzChat

/-- A `std::string`. -/
abbrev StdString := List UInt8

/-- A string literal of the source, byte by byte. -/
def lit (s : String) : StdString :=
  s.toByteArray.data.toList

@[simp]
theorem lit_inj {s t : String} : lit s = lit t ↔ s = t := by
  constructor
  · intro heq
    exact String.toByteArray_inj.mp (ByteArray.ext (Array.toList_inj.mp heq))
  · rintro rfl
    rfl

@[simp]
theorem lit_beq (s t : String) : (lit s == lit t) = (s == t) := by
  rw [Bool.eq_iff_iff, beq_iff_eq, beq_iff_eq, lit_inj]

@[simp]
theorem lit_eq_nil {s : String} : lit s = [] ↔ s = "" := by
  rw [← lit_inj (t := "")]
  rfl

/-- `std::to_string` of an unsigned integer. -/
def decimal (n : Nat) : StdString :=
  if n = 0 then lit "0"
  else (Nat.digits 10 n).reverse.map fun d => UInt8.ofNat (48 + d)

/-- `std::to_string` of a signed integer. -/
def decimalInt (n : Int) : StdString :=
  if n < 0 then lit "-" ++ decimal n.natAbs else decimal n.natAbs

theorem decimal_ne_nil (n : Nat) : decimal n ≠ [] := by
  by_cases hn : n = 0
  · simp [decimal, hn]
  · simpa [decimal, hn] using Nat.digits_ne_nil_iff_ne_zero.mpr hn

/-- The byte of an ASCII digit. -/
def isDigit (b : UInt8) : Bool :=
  48 ≤ b && b ≤ 57

/-- A non-empty sequence of ASCII digits. -/
def IsDecimal (s : StdString) : Prop :=
  s ≠ [] ∧ ∀ b ∈ s, isDigit b = true

instance (s : StdString) : Decidable (IsDecimal s) :=
  inferInstanceAs (Decidable (_ ∧ _))

theorem isDigit_ofNat {d : Nat} (hd : d < 10) :
    isDigit (UInt8.ofNat (48 + d)) = true := by
  have hvalue : (UInt8.ofNat (48 + d)).toNat = 48 + d :=
    UInt8.toNat_ofNat_of_lt' (by simp only [UInt8.size]; omega)
  simp only [isDigit, Bool.and_eq_true, decide_eq_true_eq, UInt8.le_iff_toNat_le,
    hvalue]
  simp
  omega

/-- The text of a number is made of digits. -/
theorem isDecimal_decimal (n : Nat) : IsDecimal (decimal n) := by
  refine ⟨decimal_ne_nil n, fun b hb => ?_⟩
  by_cases hn : n = 0
  · rw [hn] at hb
    revert b
    decide +kernel
  · simp only [decimal, hn, if_false, List.mem_map, List.mem_reverse] at hb
    obtain ⟨d, hd, rfl⟩ := hb
    exact isDigit_ofNat (Nat.digits_lt_base (by norm_num) hd)

/-- The value of a string of decimal digits. -/
def readDecimal (s : StdString) : Nat :=
  s.foldl (fun n b => 10 * n + (b.toNat - 48)) 0

theorem readDecimal_decimal (n : Nat) : readDecimal (decimal n) = n := by
  by_cases hn : n = 0
  · subst hn
    rfl
  · have hdigit : ∀ d ∈ Nat.digits 10 n, (UInt8.ofNat (48 + d)).toNat - 48 = d := by
      intro d hd
      have hlt : d < 10 := Nat.digits_lt_base (by norm_num) hd
      rw [UInt8.toNat_ofNat_of_lt' (by simp [UInt8.size]; omega)]
      omega
    have hread : ∀ ds : List Nat,
        (∀ d ∈ ds, (UInt8.ofNat (48 + d)).toNat - 48 = d) →
        readDecimal (ds.reverse.map fun d => UInt8.ofNat (48 + d)) =
          Nat.ofDigits 10 ds := by
      intro ds hds
      induction ds with
      | nil => rfl
      | cons d ds ih =>
          have htail := ih fun e he => hds e (List.mem_cons_of_mem d he)
          simp only [readDecimal] at htail ⊢
          rw [List.reverse_cons, List.map_append, List.foldl_append, htail,
            Nat.ofDigits_cons]
          simp only [List.map_cons, List.map_nil, List.foldl_cons, List.foldl_nil,
            hds d List.mem_cons_self]
          omega
    simp only [decimal, hn, if_false]
    rw [hread _ hdigit, Nat.ofDigits_digits]

end FlzChat
