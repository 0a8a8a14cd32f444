/-
`ParseUInt64` on arbitrary bytes.  `strtoull` accepts more than a number in
digits: white space and a sign in front, any value, and it sees nothing from
the first NUL on.
-/
import FlzChat.Jwt
import Mathlib.Data.List.TakeWhile

namespace FlzChat

/-- What the C locale counts as white space. -/
def isSpace (b : UInt8) : Bool :=
  b = 32 || (9 ≤ b && b ≤ 13)

/-- What `strtoull` reads to the end: white space, a sign, digits. -/
def Numeral (s : StdString) : Prop :=
  ∃ spaces sign digits, s = spaces ++ sign ++ digits ∧
    (∀ b ∈ spaces, isSpace b = true) ∧ (sign = [] ∨ sign = [43] ∨ sign = [45]) ∧
    IsDecimal digits

/-- The number in digits below `2 ^ 64` that the bytes denote, if they do. -/
def denoted (s : StdString) : Option UInt64 :=
  if IsDecimal s ∧ readDecimal s < 2 ^ 64 then some (UInt64.ofNat (readDecimal s))
  else none

/-- `ParseUInt64` returns the number the bytes denote, and false when they
denote none. -/
def ParsesExactly (input : StdString) : Prop :=
  parseUInt64 input = denoted input

/-- Not a number in digits below `2 ^ 64`, but what comes before the first NUL
is empty or a numeral all the same. -/
def Lenient (input : StdString) : Prop :=
  input ≠ [] ∧ (cStr input = [] ∨ Numeral (cStr input)) ∧
    ¬ (IsDecimal input ∧ readDecimal input < 2 ^ 64)

/-! The pieces `strtoull` cuts its input into. -/

/-- What is left after a sign. -/
def unsigned : StdString → Bool × StdString
  | 45 :: rest => (true, rest)
  | 43 :: rest => (false, rest)
  | rest => (false, rest)

theorem strtoull_eq (s : StdString) :
    strtoull s =
      if (unsigned (s.dropWhile isSpace)).2.takeWhile isDigit = [] then (0, s)
      else
        let value := readDecimal
          ((unsigned (s.dropWhile isSpace)).2.takeWhile isDigit)
        let rest := (unsigned (s.dropWhile isSpace)).2.dropWhile isDigit
        if 2 ^ 64 ≤ value then (UInt64.ofNat (2 ^ 64 - 1), rest)
        else if (unsigned (s.dropWhile isSpace)).1 then
          (-UInt64.ofNat value, rest)
        else (UInt64.ofNat value, rest) := by
  simp only [strtoull, unsigned]
  rfl

theorem isSpace_of_isDigit {b : UInt8} (hb : isDigit b = true) :
    isSpace b = false := by
  simp only [isDigit, isSpace, Bool.and_eq_true, decide_eq_true_eq,
    Bool.or_eq_false_iff, decide_eq_false_iff_not, Bool.and_eq_false_iff,
    UInt8.le_iff_toNat_le, ← UInt8.toNat_inj] at hb ⊢
  simp at hb ⊢
  omega

/-- A string of digits has no sign. -/
theorem unsigned_of_isDecimal {s : StdString} (hs : IsDecimal s) :
    unsigned s = (false, s) := by
  obtain ⟨hne, hdigits⟩ := hs
  cases s with
  | nil => contradiction
  | cons b rest =>
      have hb := hdigits b List.mem_cons_self
      unfold unsigned
      split
      · next heq =>
          rw [(List.cons.inj heq).1] at hb
          exact absurd hb (by decide)
      · next heq =>
          rw [(List.cons.inj heq).1] at hb
          exact absurd hb (by decide)
      · rfl

theorem dropWhile_isSpace_of_isDecimal {s : StdString} (hs : IsDecimal s) :
    s.dropWhile isSpace = s := by
  obtain ⟨hne, hdigits⟩ := hs
  cases s with
  | nil => contradiction
  | cons b rest =>
      rw [List.dropWhile_cons_of_neg]
      rw [isSpace_of_isDigit (hdigits b List.mem_cons_self)]
      decide

theorem dropWhile_isDigit_of_isDecimal {s : StdString} (hs : IsDecimal s) :
    s.dropWhile isDigit = [] :=
  List.dropWhile_eq_nil_iff.mpr hs.2

theorem takeWhile_isDigit_of_isDecimal {s : StdString} (hs : IsDecimal s) :
    s.takeWhile isDigit = s :=
  List.takeWhile_eq_self_iff.mpr hs.2

/-- Skipping the white space of a numeral leaves its sign and its digits. -/
theorem dropWhile_isSpace_of_numeral {spaces sign digits : StdString}
    (hspaces : ∀ b ∈ spaces, isSpace b = true)
    (hsign : sign = [] ∨ sign = [43] ∨ sign = [45]) (hdigits : IsDecimal digits) :
    (spaces ++ sign ++ digits).dropWhile isSpace = sign ++ digits := by
  rw [List.append_assoc, List.dropWhile_append_of_pos hspaces]
  rcases hsign with rfl | rfl | rfl
  · exact dropWhile_isSpace_of_isDecimal hdigits
  · rfl
  · rfl

theorem unsigned_of_numeral {sign digits : StdString}
    (hsign : sign = [] ∨ sign = [43] ∨ sign = [45]) (hdigits : IsDecimal digits) :
    (unsigned (sign ++ digits)).2 = digits := by
  rcases hsign with rfl | rfl | rfl
  · rw [List.nil_append, unsigned_of_isDecimal hdigits]
  · rfl
  · rfl

/-- What was in front of the rest is a sign. -/
theorem exists_sign (s : StdString) :
    ∃ sign, s = sign ++ (unsigned s).2 ∧
      (sign = [] ∨ sign = [43] ∨ sign = [45]) := by
  unfold unsigned
  split
  · exact ⟨[45], rfl, Or.inr (Or.inr rfl)⟩
  · exact ⟨[43], rfl, Or.inr (Or.inl rfl)⟩
  · exact ⟨[], rfl, Or.inl rfl⟩

/-- `strtoull` reads to the end exactly of an empty string or a numeral. -/
theorem strtoull_rest_eq_nil_iff (s : StdString) :
    (strtoull s).2 = [] ↔ s = [] ∨ Numeral s := by
  rw [strtoull_eq]
  constructor
  · intro hrest
    by_cases hnone : (unsigned (s.dropWhile isSpace)).2.takeWhile isDigit = []
    · rw [if_pos hnone] at hrest
      exact Or.inl hrest
    · have hdigits : (unsigned (s.dropWhile isSpace)).2.dropWhile isDigit = [] := by
        rw [if_neg hnone] at hrest
        simp only at hrest
        split_ifs at hrest <;> exact hrest
      obtain ⟨sign, hsplit, hsign⟩ := exists_sign (s.dropWhile isSpace)
      refine Or.inr ⟨s.takeWhile isSpace, sign,
        (unsigned (s.dropWhile isSpace)).2, ?_, ?_, hsign, ?_, ?_⟩
      · rw [List.append_assoc, ← hsplit, List.takeWhile_append_dropWhile]
      · exact fun b hb => List.mem_takeWhile_imp hb
      · rintro hnil
        rw [hnil] at hnone
        exact hnone rfl
      · exact List.dropWhile_eq_nil_iff.mp hdigits
  · rintro (rfl | ⟨spaces, sign, digits, rfl, hspaces, hsign, hdigits⟩)
    · rfl
    · simp only [dropWhile_isSpace_of_numeral hspaces hsign hdigits,
        unsigned_of_numeral hsign hdigits, takeWhile_isDigit_of_isDecimal hdigits,
        dropWhile_isDigit_of_isDecimal hdigits, hdigits.1, if_false]
      split_ifs <;> rfl

theorem parseUInt64_isSome_iff (input : StdString) :
    (parseUInt64 input).isSome = true ↔
      input ≠ [] ∧ (cStr input = [] ∨ Numeral (cStr input)) := by
  rw [← strtoull_rest_eq_nil_iff]
  simp only [parseUInt64]
  split_ifs with hempty hrest
  · simp [hempty]
  · simp [hrest]
  · simpa [hempty] using hrest

/-- A string of digits holds no NUL. -/
theorem cStr_of_isDecimal {s : StdString} (hs : IsDecimal s) : cStr s = s := by
  apply List.takeWhile_eq_self_iff.mpr
  intro b hb
  have hdigit := hs.2 b hb
  simp only [ne_eq, decide_not, Bool.not_eq_eq_eq_not, Bool.not_true,
    decide_eq_false_iff_not]
  rintro rfl
  exact absurd hdigit (by decide)

/-- A number in digits below `2 ^ 64` is parsed to its value. -/
theorem parseUInt64_of_isDecimal {s : StdString} (hs : IsDecimal s)
    (hlt : readDecimal s < 2 ^ 64) :
    parseUInt64 s = some (UInt64.ofNat (readDecimal s)) := by
  have hparsed : strtoull s = (UInt64.ofNat (readDecimal s), []) := by
    rw [strtoull_eq]
    simp only [dropWhile_isSpace_of_isDecimal hs, unsigned_of_isDecimal hs,
      takeWhile_isDigit_of_isDecimal hs, dropWhile_isDigit_of_isDecimal hs, hs.1,
      if_false, Nat.not_le.mpr hlt, Bool.false_eq_true]
  simp only [parseUInt64, hs.1, if_false, cStr_of_isDecimal hs, hparsed, ne_eq,
    not_true_eq_false]

/-- Outside the lenient inputs a subject denotes the number it is read as. -/
theorem denoted_of_subject {s : StdString} {userId : UInt64}
    (hexact : ¬ Lenient s) (hsubject : JwtVerifier.subject? s = some userId) :
    IsDecimal s ∧ readDecimal s = userId.toNat := by
  have hparsed := (Option.filter_eq_some_iff.mp hsubject).1
  obtain ⟨hne, hnumeral⟩ := (parseUInt64_isSome_iff s).mp (by rw [hparsed]; rfl)
  have hplain : IsDecimal s ∧ readDecimal s < 2 ^ 64 := by
    by_contra hnot
    exact hexact ⟨hne, hnumeral, hnot⟩
  rw [parseUInt64_of_isDecimal hplain.1 hplain.2, Option.some.injEq] at hparsed
  refine ⟨hplain.1, ?_⟩
  rw [← hparsed, UInt64.toNat_ofNat_of_lt' hplain.2]

/-- `ParseUInt64` is exact on all inputs but the lenient ones, and two other
subjects that are accepted as one user denote one number. -/
theorem parsesExactly_iff (input : StdString) :
    (ParsesExactly input ↔ ¬ Lenient input) ∧
      ∀ (a b : StdString) (userId : UInt64), ¬ Lenient a → ¬ Lenient b →
        JwtVerifier.subject? a = some userId →
        JwtVerifier.subject? b = some userId →
          IsDecimal a ∧ IsDecimal b ∧ readDecimal a = readDecimal b := by
  constructor
  · simp only [ParsesExactly, denoted]
    by_cases hplain : IsDecimal input ∧ readDecimal input < 2 ^ 64
    · simp only [hplain, if_true, and_self]
      exact ⟨fun _ hlenient => hlenient.2.2 hplain,
        fun _ => parseUInt64_of_isDecimal hplain.1 hplain.2⟩
    · rw [if_neg hplain, ← Option.not_isSome_iff_eq_none, parseUInt64_isSome_iff]
      constructor
      · intro hrefused hlenient
        exact hrefused ⟨hlenient.1, hlenient.2.1⟩
      · intro hexact haccepted
        exact hexact ⟨haccepted.1, haccepted.2, hplain⟩
  · intro a b userId ha hb hsubjectA hsubjectB
    obtain ⟨hdecimalA, hreadA⟩ := denoted_of_subject ha hsubjectA
    obtain ⟨hdecimalB, hreadB⟩ := denoted_of_subject hb hsubjectB
    exact ⟨hdecimalA, hdecimalB, hreadA.trans hreadB.symm⟩

namespace SubjectParserWitness

/-- `"+7"` is read as user 7. -/
theorem not_all_parsesExactly : ¬ ∀ input, ParsesExactly input := by
  intro hall
  have hparses := hall (lit "+7")
  rw [ParsesExactly] at hparses
  exact absurd hparses (by decide +kernel)

end SubjectParserWitness

end FlzChat
