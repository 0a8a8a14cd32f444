/-
The proleptic Gregorian calendar as a numbering of days.  Day 0 is the first of
January 1970; years, months and days count as they do in the calendar, months
and days from 0.
-/
import Mathlib.Algebra.GroupWithZero.Nat
import Mathlib.Data.List.GetD
import Mathlib.Data.Int.Order.Basic
import Mathlib.Logic.Equiv.Defs
import Mathlib.Tactic.SplitIfs

namespace FlzChat

/-! Lengths laid end to end. -/

namespace Stretches

/-- The stretch a position falls in, and how far into it. -/
def locate : List Nat → Nat → Nat × Nat
  | [], n => (0, n)
  | len :: lens, n =>
      if n < len then (0, n)
      else ((locate lens (n - len)).1 + 1, (locate lens (n - len)).2)

/-- Where a stretch starts. -/
def start (lens : List Nat) (i : Nat) : Nat :=
  (lens.take i).sum

@[simp]
theorem start_zero (lens : List Nat) : start lens 0 = 0 := rfl

@[simp]
theorem start_cons (len : Nat) (lens : List Nat) (i : Nat) :
    start (len :: lens) (i + 1) = len + start lens i := rfl

theorem start_locate (lens : List Nat) (n : Nat) :
    start lens (locate lens n).1 + (locate lens n).2 = n := by
  induction lens generalizing n with
  | nil => simp [locate]
  | cons len lens ih =>
      simp only [locate]
      split_ifs with hinside
      · simp
      · have hrest := ih (n - len)
        simp only [start_cons]
        omega

theorem locate_lt {lens : List Nat} {n : Nat} (hn : n < lens.sum) :
    (locate lens n).2 < lens.getD (locate lens n).1 0 := by
  induction lens generalizing n with
  | nil => simp at hn
  | cons len lens ih =>
      simp only [locate]
      split_ifs with hinside
      · simpa using hinside
      · rw [List.sum_cons] at hn
        have hrest := ih (n := n - len) (by omega)
        simpa using hrest

theorem locate_start {lens : List Nat} {i r : Nat} (hr : r < lens.getD i 0) :
    locate lens (start lens i + r) = (i, r) := by
  induction lens generalizing i with
  | nil => simp at hr
  | cons len lens ih =>
      cases i with
      | zero =>
          have hinside : r < len := by simpa using hr
          simp [locate, hinside]
      | succ i =>
          have hrest := ih (i := i) (by simpa using hr)
          have hbeyond : ¬ len + start lens i + r < len := by omega
          have hless : len + start lens i + r - len = start lens i + r := by omega
          simp only [locate, start_cons, hbeyond, if_false, hless, hrest]

/-- A later stretch starts after an earlier one has ended. -/
theorem start_add_le (lens : List Nat) {i j : Nat} (hij : i < j) :
    start lens i + lens.getD i 0 ≤ start lens j := by
  induction lens generalizing i j with
  | nil => simp [start]
  | cons len lens ih =>
      cases j with
      | zero => omega
      | succ j =>
          cases i with
          | zero => simp
          | succ i =>
              have hrest := ih (i := i) (j := j) (by omega)
              simp only [start_cons, List.getD_cons_succ]
              omega

theorem start_add_lt_sum {lens : List Nat} {i r : Nat} (hr : r < lens.getD i 0) :
    start lens i + r < lens.sum := by
  have hend := start_add_le lens (i := i) (j := lens.length + i + 1)
    (by omega)
  have hall : start lens (lens.length + i + 1) = lens.sum := by
    rw [start, List.take_of_length_le (by omega)]
  omega

end Stretches

namespace Calendar

open Stretches

def IsLeap (year : Int) : Prop :=
  year % 4 = 0 ∧ (year % 100 ≠ 0 ∨ year % 400 = 0)

instance (year : Int) : Decidable (IsLeap year) :=
  inferInstanceAs (Decidable (_ ∧ _))

/-- The days from day 0 to the first of a year. -/
def daysBeforeYear (year : Int) : Int :=
  365 * (year - 1) + (year - 1) / 4 - (year - 1) / 100 + (year - 1) / 400 - 719162

def monthLengths (year : Int) : List Nat :=
  [31, if IsLeap year then 29 else 28, 31, 30, 31, 30, 31, 31, 30, 31, 30, 31]

theorem daysBeforeYear_succ (year : Int) :
    daysBeforeYear (year + 1) =
      daysBeforeYear year + ((monthLengths year).sum : Nat) := by
  simp only [monthLengths, daysBeforeYear]
  split_ifs with hleap
  · simp only [IsLeap] at hleap
    simp only [List.sum_cons, List.sum_nil]
    omega
  · simp only [IsLeap] at hleap
    simp only [List.sum_cons, List.sum_nil]
    omega

theorem daysBeforeYear_lt {year later : Int} (hlater : year < later) :
    daysBeforeYear (year + 1) ≤ daysBeforeYear later := by
  simp only [daysBeforeYear]
  omega

/-- The year of a day: the mean year of 146097 / 400 days is out by at most one. -/
def yearOf (n : Int) : Int :=
  let year := 400 * (n + 719162) / 146097 + 1
  if daysBeforeYear (year + 1) ≤ n then year + 1 else year

theorem yearOf_spec (n : Int) :
    daysBeforeYear (yearOf n) ≤ n ∧ n < daysBeforeYear (yearOf n + 1) := by
  simp only [yearOf]
  split_ifs with hnext
  · refine ⟨hnext, ?_⟩
    simp only [daysBeforeYear]
    omega
  · refine ⟨?_, by omega⟩
    simp only [daysBeforeYear]
    omega

theorem yearOf_unique {n year : Int} (hafter : daysBeforeYear year ≤ n)
    (hbefore : n < daysBeforeYear (year + 1)) : yearOf n = year := by
  have hspec := yearOf_spec n
  rcases lt_trichotomy (yearOf n) year with hlt | heq | hgt
  · have := daysBeforeYear_lt hlt
    omega
  · exact heq
  · have := daysBeforeYear_lt hgt
    omega

/-- A day of the calendar. -/
@[ext]
structure Date where
  year : Int
  month : Nat
  day : Nat
  valid : day < (monthLengths year).getD month 0

namespace Date

theorem month_lt (d : Date) : d.month < 12 := by
  by_contra hmonth
  have hvalid := d.valid
  rw [List.getD_eq_default _ _ (by simpa [monthLengths] using hmonth)] at hvalid
  contradiction

theorem day_lt (d : Date) : d.day < 31 := by
  have hlengths : ∀ len ∈ monthLengths d.year, len ≤ 31 := by
    intro len hlen
    simp only [monthLengths, List.mem_cons, List.not_mem_nil, or_false] at hlen
    split_ifs at hlen
    · omega
    · omega
  have hmonth : d.month < (monthLengths d.year).length := d.month_lt
  have hvalid := d.valid
  rw [List.getD_eq_getElem _ _ hmonth] at hvalid
  have hlen := hlengths _ (List.getElem_mem hmonth)
  omega

def toDays (d : Date) : Int :=
  daysBeforeYear d.year + (start (monthLengths d.year) d.month + d.day : Nat)

/-- A day lies in its year. -/
theorem toDays_bounds (d : Date) :
    daysBeforeYear d.year ≤ d.toDays ∧ d.toDays < daysBeforeYear (d.year + 1) := by
  have hinside := start_add_lt_sum d.valid
  rw [daysBeforeYear_succ, toDays]
  omega

/-- How far into its year a day lies. -/
theorem dayOfYear_lt (n : Int) :
    (n - daysBeforeYear (yearOf n)).toNat < (monthLengths (yearOf n)).sum := by
  have hspec := yearOf_spec n
  rw [daysBeforeYear_succ] at hspec
  omega

def ofDays (n : Int) : Date :=
  let found := locate (monthLengths (yearOf n)) (n - daysBeforeYear (yearOf n)).toNat
  ⟨yearOf n, found.1, found.2, locate_lt (dayOfYear_lt n)⟩

theorem toDays_ofDays (n : Int) : (ofDays n).toDays = n := by
  have hspec := yearOf_spec n
  simp only [toDays, ofDays]
  rw [start_locate]
  omega

theorem ofDays_toDays (d : Date) : ofDays d.toDays = d := by
  have hbounds := d.toDays_bounds
  have hyear : yearOf d.toDays = d.year := yearOf_unique hbounds.1 hbounds.2
  have hday : (d.toDays - daysBeforeYear d.year).toNat =
      start (monthLengths d.year) d.month + d.day := by
    rw [toDays]
    omega
  have hfound := locate_start d.valid
  apply Date.ext
  · exact hyear
  · simp only [ofDays]
    rw [hyear, hday, hfound]
  · simp only [ofDays]
    rw [hyear, hday, hfound]

/-- The days of the calendar are numbered without a gap. -/
def numbering : Date ≃ Int where
  toFun := toDays
  invFun := ofDays
  left_inv := ofDays_toDays
  right_inv := toDays_ofDays

/-- Earlier in the calendar. -/
def Before (d d' : Date) : Prop :=
  d.year < d'.year ∨ d.year = d'.year ∧
    (d.month < d'.month ∨ d.month = d'.month ∧ d.day < d'.day)

theorem Before.toDays_lt {d d' : Date} (hbefore : d.Before d') :
    d.toDays < d'.toDays := by
  rcases hbefore with hyear | ⟨hyear, hmonth | ⟨hmonth, hday⟩⟩
  · have hends := daysBeforeYear_lt hyear
    have hbounds := d.toDays_bounds
    have hbounds' := d'.toDays_bounds
    omega
  · have hends := start_add_le (monthLengths d.year) hmonth
    have hvalid := d.valid
    simp only [toDays, ← hyear]
    omega
  · simp only [toDays, ← hyear, ← hmonth]
    omega

/-- The numbering keeps the order of the calendar. -/
theorem toDays_lt_iff {d d' : Date} : d.toDays < d'.toDays ↔ d.Before d' := by
  refine ⟨fun hlt => ?_, Before.toDays_lt⟩
  by_contra hnot
  have hother : d = d' ∨ d'.Before d := by
    rcases lt_trichotomy d.year d'.year with hyear | hyear | hyear
    · exact absurd (Or.inl hyear) hnot
    · rcases Nat.lt_trichotomy d.month d'.month with hmonth | hmonth | hmonth
      · exact absurd (Or.inr ⟨hyear, Or.inl hmonth⟩) hnot
      · rcases Nat.lt_trichotomy d.day d'.day with hday | hday | hday
        · exact absurd (Or.inr ⟨hyear, Or.inr ⟨hmonth, hday⟩⟩) hnot
        · exact Or.inl (Date.ext hyear hmonth hday)
        · exact Or.inr (Or.inr ⟨hyear.symm, Or.inr ⟨hmonth.symm, hday⟩⟩)
      · exact Or.inr (Or.inr ⟨hyear.symm, Or.inl hmonth⟩)
    · exact Or.inr (Or.inl hyear)
  rcases hother with rfl | hbefore
  · exact lt_irrefl _ hlt
  · exact lt_asymm hlt hbefore.toDays_lt

end Date

end Calendar

end FlzChat
