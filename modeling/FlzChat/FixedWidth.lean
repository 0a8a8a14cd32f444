/-
Numbers written in a fixed number of digits, and layouts made of such numbers
and the text between them.  What a layout writes it reads back, and its texts are
ordered as the numbers are.
-/
import FlzChat.StdString
import Mathlib.Tactic.SplitIfs

namespace FlzChat

/-- The byte of a decimal digit. -/
def digit (d : Nat) : UInt8 :=
  UInt8.ofNat (48 + d)

theorem toNat_digit {d : Nat} (hd : d < 10) : (digit d).toNat = 48 + d :=
  UInt8.toNat_ofNat_of_lt' (by simp only [UInt8.size]; omega)

/-- The last `w` digits of a number. -/
def fixed : Nat → Nat → StdString
  | 0, _ => []
  | w + 1, n => fixed w (n / 10) ++ [digit (n % 10)]

@[simp]
theorem length_fixed (w n : Nat) : (fixed w n).length = w := by
  induction w generalizing n with
  | zero => rfl
  | succ w ih => simp [fixed, ih]

theorem isDigit_of_mem_fixed {w n : Nat} : ∀ b ∈ fixed w n, isDigit b = true := by
  induction w generalizing n with
  | zero => simp [fixed]
  | succ w ih =>
      intro b hb
      rcases List.mem_append.mp hb with hb | hb
      · exact ih b hb
      · rw [List.mem_singleton.mp hb]
        exact isDigit_ofNat (Nat.mod_lt n (by norm_num))

theorem readDecimal_concat (s : StdString) (b : UInt8) :
    readDecimal (s ++ [b]) = 10 * readDecimal s + (b.toNat - 48) := by
  simp [readDecimal]

theorem readDecimal_fixed {w n : Nat} (hn : n < 10 ^ w) :
    readDecimal (fixed w n) = n := by
  induction w generalizing n with
  | zero =>
      have hzero : n = 0 := by simpa using hn
      rw [hzero]
      rfl
  | succ w ih =>
      have hless : n / 10 < 10 ^ w := by
        rw [Nat.div_lt_iff_lt_mul (by norm_num), ← Nat.pow_succ]
        exact hn
      rw [fixed, readDecimal_concat, ih hless,
        toNat_digit (Nat.mod_lt n (by norm_num))]
      omega

/-- Texts of one length are compared by their first halves first. -/
theorem append_lt_append_of_lt {α : Type} [LT α] {a a' : List α}
    (hlength : a.length = a'.length) (hlt : a < a') (b b' : List α) :
    a ++ b < a' ++ b' := by
  induction a generalizing a' with
  | nil =>
      cases a' with
      | nil => exact absurd hlt (List.not_lt_nil _)
      | cons x a' => simp at hlength
  | cons x a ih =>
      cases a' with
      | nil => simp at hlength
      | cons x' a' =>
          rw [List.cons_append, List.cons_append, List.cons_lt_cons_iff]
          rcases List.cons_lt_cons_iff.mp hlt with hhead | ⟨hhead, htail⟩
          · exact Or.inl hhead
          · exact Or.inr ⟨hhead, ih (by simpa using hlength) htail⟩

/-- Texts of one width are ordered as their numbers. -/
theorem fixed_lt {w n m : Nat} (hm : m < 10 ^ w) (hlt : n < m) :
    fixed w n < fixed w m := by
  induction w generalizing n m with
  | zero =>
      have hzero : m = 0 := by simpa using hm
      omega
  | succ w ih =>
      have hless : m / 10 < 10 ^ w := by
        rw [Nat.div_lt_iff_lt_mul (by norm_num), ← Nat.pow_succ]
        exact hm
      have hhead : n / 10 ≤ m / 10 := Nat.div_le_div_right (Nat.le_of_lt hlt)
      rcases Nat.lt_or_eq_of_le hhead with hhead | hhead
      · exact append_lt_append_of_lt (by simp) (ih hless hhead) _ _
      · simp only [fixed, hhead]
        apply List.append_left_lt
        have hlast : n % 10 < m % 10 := by omega
        have hn : n % 10 < 10 := Nat.mod_lt n (by norm_num)
        have hm : m % 10 < 10 := Nat.mod_lt m (by norm_num)
        rw [List.cons_lt_cons_iff]
        left
        rw [UInt8.lt_iff_toNat_lt, toNat_digit hn, toNat_digit hm]
        omega

/-! Layouts. -/

/-- The widths of the numbers, each with the text that follows. -/
abbrev Layout := List (Nat × StdString)

namespace Layout

/-- There is a number for each place and it fits its width. -/
def Fits : Layout → List Nat → Prop
  | [], [] => True
  | (w, _) :: layout, n :: ns => n < 10 ^ w ∧ Fits layout ns
  | _, _ => False

def render : Layout → List Nat → StdString
  | (w, separator) :: layout, n :: ns =>
      fixed w n ++ (separator ++ render layout ns)
  | _, _ => []

def scan : Layout → StdString → Option (List Nat)
  | [], s => if s = [] then some [] else none
  | (w, separator) :: layout, s =>
      if (s.take w).length = w ∧ (s.take w).all isDigit ∧
          (s.drop w).take separator.length = separator then
        (scan layout ((s.drop w).drop separator.length)).map
          (readDecimal (s.take w) :: ·)
      else none

theorem scan_render {layout : Layout} {ns : List Nat} (hfits : Fits layout ns) :
    scan layout (render layout ns) = some ns := by
  induction layout generalizing ns with
  | nil =>
      cases ns with
      | nil => rfl
      | cons n ns => exact hfits.elim
  | cons place layout ih =>
      obtain ⟨w, separator⟩ := place
      cases ns with
      | nil => exact hfits.elim
      | cons n ns =>
          have hdigits : (fixed w n).all isDigit = true :=
            List.all_eq_true.mpr isDigit_of_mem_fixed
          have htake : (fixed w n ++ (separator ++ render layout ns)).take w =
              fixed w n := by
            rw [List.take_left' (length_fixed w n)]
          have hdrop : (fixed w n ++ (separator ++ render layout ns)).drop w =
              separator ++ render layout ns := by
            rw [List.drop_left' (length_fixed w n)]
          simp only [render, scan, htake, hdrop, length_fixed, hdigits,
            List.take_left, List.drop_left, and_self, if_true, ih hfits.2,
            readDecimal_fixed hfits.1, Option.map_some]

theorem render_lt {layout : Layout} {ns ms : List Nat} (hns : Fits layout ns)
    (hms : Fits layout ms) (hlt : ns < ms) : render layout ns < render layout ms := by
  induction layout generalizing ns ms with
  | nil =>
      cases ms with
      | nil => exact absurd hlt (List.not_lt_nil _)
      | cons m ms => exact hms.elim
  | cons place layout ih =>
      obtain ⟨w, separator⟩ := place
      cases ns with
      | nil => exact hns.elim
      | cons n ns =>
          cases ms with
          | nil => exact hms.elim
          | cons m ms =>
              simp only [render]
              rcases List.cons_lt_cons_iff.mp hlt with hhead | ⟨rfl, htail⟩
              · exact append_lt_append_of_lt (by simp) (fixed_lt hms.1 hhead) _ _
              · exact List.append_left_lt
                  (List.append_left_lt (ih hns.2 hms.2 htail))

end Layout

end FlzChat
