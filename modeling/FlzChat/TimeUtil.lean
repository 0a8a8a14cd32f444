/-
`chat/util/time_util.cc`: the text of a time.  For the years 0 to 9999 it can be
read back to the second, and texts of one offset are ordered as the times are.
-/
import FlzChat.Calendar
import FlzChat.FixedWidth

namespace FlzChat

open Calendar

/-- `std::setw` and `std::setfill('0')` before an integer. -/
def padded (width : Nat) (n : Int) : StdString :=
  List.replicate (width - (decimalInt n).length) (digit 0) ++ decimalInt n

theorem fixed_zero (w : Nat) : fixed w 0 = List.replicate w (digit 0) := by
  induction w with
  | zero => rfl
  | succ w ih => rw [fixed, Nat.zero_div, ih, List.replicate_succ']

theorem decimal_of_lt {n : Nat} (hn : n < 10) : decimal n = [digit n] := by
  by_cases hzero : n = 0
  · rw [hzero]
    decide +kernel
  · simp [decimal, hzero, Nat.digits_of_lt 10 n hzero hn, digit]

theorem decimal_of_ge {n : Nat} (hn : 10 ≤ n) :
    decimal n = decimal (n / 10) ++ [digit (n % 10)] := by
  have hpos : n ≠ 0 := by omega
  have hhead : n / 10 ≠ 0 := by omega
  rw [decimal, decimal, if_neg hpos, if_neg hhead,
    Nat.digits_def' (by norm_num) (Nat.pos_of_ne_zero hpos), List.reverse_cons,
    List.map_append]
  rfl

theorem decimalInt_natCast (n : Nat) : decimalInt n = decimal n := by
  simp [decimalInt]

/-- A number that fits is padded to its width. -/
theorem padded_eq_fixed {w n : Nat} (hw : 0 < w) (hn : n < 10 ^ w) :
    padded w n = fixed w n := by
  rw [padded, decimalInt_natCast]
  induction w generalizing n with
  | zero => omega
  | succ w ih =>
      by_cases hone : n < 10
      · rw [decimal_of_lt hone, fixed, Nat.div_eq_of_lt hone, Nat.mod_eq_of_lt hone,
          fixed_zero]
        rfl
      · have hwide : 0 < w := by
          by_contra hnarrow
          have hzero : w = 0 := by omega
          rw [hzero] at hn
          omega
        have hless : n / 10 < 10 ^ w := by
          rw [Nat.div_lt_iff_lt_mul (by norm_num), ← Nat.pow_succ]
          exact hn
        rw [decimal_of_ge (by omega), fixed, ← ih hwide hless,
          List.length_append, List.length_singleton, Nat.add_sub_add_right,
          List.append_assoc]

/-! The source. -/

/-- The members of `struct tm` that are read. -/
structure Tm where
  year : Int
  mon : Int
  mday : Int
  hour : Int
  min : Int
  sec : Int

/-- `gmtime_r` -/
def gmtime (t : Int) : Tm :=
  let date := Date.ofDays (t / 86400)
  ⟨date.year - 1900, date.month, date.day + 1, t % 86400 / 3600,
    t % 3600 / 60, t % 60⟩

/-- `Iso8601FromMs`.  The product of the offset with 60 is an `int` in the source;
offsets for which it is none are out of scope. -/
def iso8601FromMs (tsMs timezoneOffsetMinutes : Int) : StdString :=
  let tsSeconds := tsMs.tdiv 1000
  let offsetSeconds := timezoneOffsetMinutes * 60
  let shifted := tsSeconds + offsetSeconds
  let tm := gmtime shifted
  let tzHour := timezoneOffsetMinutes.tdiv 60
  let tzMin := timezoneOffsetMinutes.tmod 60
  let tzMin := if tzMin < 0 then -tzMin else tzMin
  padded 4 (tm.year + 1900) ++ lit "-" ++
    padded 2 (tm.mon + 1) ++ lit "-" ++
    padded 2 tm.mday ++ lit "T" ++
    padded 2 tm.hour ++ lit ":" ++
    padded 2 tm.min ++ lit ":" ++
    padded 2 tm.sec ++
    (if 0 ≤ timezoneOffsetMinutes then lit "+" else lit "-") ++
    padded 2 tzHour.natAbs ++ lit ":" ++
    padded 2 tzMin

/-- `Iso8601Now` at the given `NowMs`. -/
def iso8601Now (nowMs : Int) : StdString :=
  iso8601FromMs nowMs (8 * 60)

/-! The texts and what they say. -/

/-- A point in time as a text names it: a day, a second of the day and how many
minutes the clock that shows them is ahead. -/
@[ext]
structure Timestamp where
  date : Date
  second : Nat
  offset : Int
  valid : second < 86400

namespace Timestamp

/-- The seconds since the epoch. -/
def instant (stamp : Timestamp) : Int :=
  86400 * stamp.date.toDays + stamp.second - 60 * stamp.offset

/-- What a clock with the offset shows. -/
def shown (t offset : Int) : Timestamp where
  date := Date.ofDays ((t + 60 * offset) / 86400)
  second := ((t + 60 * offset) % 86400).toNat
  offset := offset
  valid := by omega

theorem instant_shown (t offset : Int) : (shown t offset).instant = t := by
  simp only [instant, shown, Date.toDays_ofDays]
  omega

/-- The layout of a text with the given sign. -/
def layout (sign : StdString) : Layout :=
  [(4, lit "-"), (2, lit "-"), (2, lit "T"), (2, lit ":"), (2, lit ":"),
    (2, sign), (2, lit ":"), (2, [])]

/-- The numbers of a text. -/
def fields (stamp : Timestamp) : List Nat :=
  [stamp.date.year.toNat, stamp.date.month + 1, stamp.date.day + 1,
    stamp.second / 3600, stamp.second % 3600 / 60, stamp.second % 60,
    stamp.offset.natAbs / 60, stamp.offset.natAbs % 60]

def sign (stamp : Timestamp) : StdString :=
  if 0 ≤ stamp.offset then lit "+" else lit "-"

def text (stamp : Timestamp) : StdString :=
  (layout stamp.sign).render stamp.fields

/-- The texts have room for the year and the offset. -/
structure Fits (stamp : Timestamp) : Prop where
  year : 0 ≤ stamp.date.year ∧ stamp.date.year < 10000
  offset : stamp.offset.natAbs < 6000

theorem Fits.fields {stamp : Timestamp} (hfits : stamp.Fits) (sign : StdString) :
    (layout sign).Fits stamp.fields := by
  have hyear := hfits.year
  have hoffset := hfits.offset
  have hmonth := stamp.date.month_lt
  have hday := stamp.date.day_lt
  have hsecond := stamp.valid
  refine ⟨?_, ?_, ?_, ?_, ?_, ?_, ?_, ?_, trivial⟩
  all_goals omega

/-- The point in time the numbers of a text name, if there is one. -/
def ofFields (ahead : Bool) : List Nat → Option Timestamp
  | [year, mon, mday, hour, min, sec, tzHour, tzMin] =>
      if hdate : 1 ≤ mon ∧ 1 ≤ mday ∧
          mday - 1 < (monthLengths year).getD (mon - 1) 0 then
        if htime : hour < 24 ∧ min < 60 ∧ sec < 60 ∧ tzMin < 60 then
          some {
            date := ⟨year, mon - 1, mday - 1, hdate.2.2⟩
            second := 3600 * hour + 60 * min + sec
            offset := if ahead then (60 * tzHour + tzMin : Nat)
              else -(60 * tzHour + tzMin : Nat)
            valid := by omega }
        else none
      else none
  | _ => none

/-- Read a text; its sign stands behind the nineteen bytes of the local time. -/
def read (s : StdString) : Option Timestamp :=
  if (s.drop 19).take 1 = lit "+" then
    ((layout (lit "+")).scan s).bind (ofFields true)
  else ((layout (lit "-")).scan s).bind (ofFields false)

theorem ofFields_fields {stamp : Timestamp} (hfits : stamp.Fits) :
    ofFields (decide (0 ≤ stamp.offset)) stamp.fields = some stamp := by
  have hyear : ((stamp.date.year.toNat : Nat) : Int) = stamp.date.year :=
    Int.toNat_of_nonneg hfits.year.1
  have hdate : 1 ≤ stamp.date.month + 1 ∧ 1 ≤ stamp.date.day + 1 ∧
      stamp.date.day + 1 - 1 <
        (monthLengths (stamp.date.year.toNat : Nat)).getD
          (stamp.date.month + 1 - 1) 0 := by
    rw [hyear]
    exact ⟨by omega, by omega, stamp.date.valid⟩
  have hsecond := stamp.valid
  have htime : stamp.second / 3600 < 24 ∧ stamp.second % 3600 / 60 < 60 ∧
      stamp.second % 60 < 60 ∧ stamp.offset.natAbs % 60 < 60 := by
    omega
  simp only [fields, ofFields]
  rw [dif_pos hdate, dif_pos htime, Option.some.injEq]
  apply Timestamp.ext
  · exact Date.ext hyear rfl rfl
  · simp only
    omega
  · simp only [decide_eq_true_eq]
    split_ifs
    · omega
    · omega

theorem sign_of_text (stamp : Timestamp) :
    (stamp.text.drop 19).take 1 = stamp.sign := by
  let shown : StdString := fixed 4 stamp.date.year.toNat ++ lit "-" ++
    fixed 2 (stamp.date.month + 1) ++ lit "-" ++
    fixed 2 (stamp.date.day + 1) ++ lit "T" ++
    fixed 2 (stamp.second / 3600) ++ lit ":" ++
    fixed 2 (stamp.second % 3600 / 60) ++ lit ":" ++ fixed 2 (stamp.second % 60)
  obtain ⟨zone, hzone⟩ : ∃ zone, stamp.text = shown ++ (stamp.sign ++ zone) := by
    simp only [text, layout, fields, Layout.render, shown, List.append_assoc]
    exact ⟨_, rfl⟩
  have hshown : shown.length = 19 := by
    simp only [shown, List.length_append, length_fixed]
    rfl
  have hsign : stamp.sign.length = 1 := by
    rw [sign]
    split_ifs <;> rfl
  rw [hzone, List.drop_left' hshown, List.take_left' hsign]

/-- A text is read back as what it has been written for. -/
theorem read_text {stamp : Timestamp} (hfits : stamp.Fits) :
    read stamp.text = some stamp := by
  have hfields := ofFields_fields hfits
  have hscan := Layout.scan_render (hfits.fields stamp.sign)
  rw [read, sign_of_text]
  by_cases hahead : 0 ≤ stamp.offset
  · have hsign : stamp.sign = lit "+" := if_pos hahead
    rw [if_pos hsign, ← hsign, text, hscan, Option.bind_some]
    simpa [hahead] using hfields
  · have hsign : stamp.sign = lit "-" := if_neg hahead
    have hother : lit "-" ≠ lit "+" := by simp
    rw [hsign, if_neg hother, ← hsign, text, hscan, Option.bind_some]
    simpa [hahead] using hfields

/-- What is shown earlier is written as the lesser numbers. -/
theorem fields_lt {stamp later : Timestamp} (hoffset : stamp.offset = later.offset)
    (hyear : 0 ≤ stamp.date.year) (hlt : stamp.instant < later.instant) :
    stamp.fields < later.fields := by
  have hsecond := stamp.valid
  have hsecond' := later.valid
  have hparts : stamp.date.toDays < later.date.toDays ∨
      stamp.date.toDays = later.date.toDays ∧ stamp.second < later.second := by
    simp only [instant] at hlt
    omega
  simp only [fields, List.cons_lt_cons_iff]
  rcases hparts with hday | ⟨hday, hclock⟩
  · rcases Date.toDays_lt_iff.mp hday with hyears | ⟨hyears, hmonth | ⟨hmonth, hmday⟩⟩
    · left
      omega
    · rw [hyears]
      right
      refine ⟨rfl, Or.inl ?_⟩
      omega
    · rw [hyears, hmonth]
      right
      refine ⟨rfl, Or.inr ⟨rfl, Or.inl ?_⟩⟩
      omega
  · have hdate : stamp.date = later.date := Date.numbering.injective hday
    rw [hdate, hoffset]
    have hcases : stamp.second / 3600 < later.second / 3600 ∨
        stamp.second / 3600 = later.second / 3600 ∧
          (stamp.second % 3600 / 60 < later.second % 3600 / 60 ∨
            stamp.second % 3600 / 60 = later.second % 3600 / 60 ∧
              stamp.second % 60 < later.second % 60) := by
      omega
    refine Or.inr ⟨rfl, Or.inr ⟨rfl, Or.inr ⟨rfl, ?_⟩⟩⟩
    rcases hcases with hhour | ⟨hhour, hmin | ⟨hmin, hsec⟩⟩
    · exact Or.inl hhour
    · exact Or.inr ⟨hhour, Or.inl hmin⟩
    · exact Or.inr ⟨hhour, Or.inr ⟨hmin, Or.inl hsec⟩⟩

theorem text_lt {stamp later : Timestamp} (hfits : stamp.Fits)
    (hlater : later.Fits) (hoffset : stamp.offset = later.offset)
    (hlt : stamp.instant < later.instant) : stamp.text < later.text := by
  have hsign : stamp.sign = later.sign := by rw [sign, sign, hoffset]
  have hlayout := hlater.fields later.sign
  rw [← hsign] at hlayout
  rw [text, text, ← hsign]
  exact Layout.render_lt (hfits.fields stamp.sign) hlayout
    (fields_lt hoffset hfits.year.1 hlt)

/-- The clock shows a year from 0 to 9999. -/
theorem fits_shown {t offset : Int} (hfirst : -62167219200 ≤ t + 60 * offset)
    (hlast : t + 60 * offset < 253402300800) (hoffset : offset.natAbs < 6000) :
    (shown t offset).Fits := by
  have hspec := yearOf_spec ((t + 60 * offset) / 86400)
  refine ⟨⟨?_, ?_⟩, hoffset⟩
  · change 0 ≤ yearOf ((t + 60 * offset) / 86400)
    by_contra hnegative
    have hbefore := daysBeforeYear_lt (not_le.mp hnegative)
    have hzero : daysBeforeYear 0 = -719528 := by decide
    omega
  · change yearOf ((t + 60 * offset) / 86400) < 10000
    by_contra hlarge
    have hafter := daysBeforeYear_lt
      (show 9999 < yearOf ((t + 60 * offset) / 86400) by omega)
    have hten : daysBeforeYear (9999 + 1) = 2932897 := by decide
    omega

end Timestamp

/-- The source writes the text of what the clock shows. -/
theorem iso8601FromMs_eq_text {tsMs offset : Int}
    (hfits : (Timestamp.shown (tsMs.tdiv 1000) offset).Fits) :
    iso8601FromMs tsMs offset =
      (Timestamp.shown (tsMs.tdiv 1000) offset).text := by
  obtain ⟨hyear, hmon, hmday, hhour, hmin, hsec, htzHour, htzMin, _⟩ :=
    hfits.fields []
  have hfirst := hfits.year.1
  simp only [iso8601FromMs, gmtime, Int.mul_comm offset 60]
  generalize tsMs.tdiv 1000 = t at *
  have hminutes : (if offset.tmod 60 < 0 then -offset.tmod 60 else offset.tmod 60) =
      (offset.natAbs % 60 : Nat) := by
    have habs : (offset.tmod 60).natAbs = offset.natAbs % 60 :=
      Int.natAbs_tmod offset 60
    split_ifs
    · omega
    · omega
  have hhours : (offset.tdiv 60).natAbs = offset.natAbs / 60 :=
    Int.natAbs_tdiv offset 60
  have hyears : (Date.ofDays ((t + 60 * offset) / 86400)).year - 1900 + 1900 =
      (Timestamp.shown t offset).date.year.toNat := by
    rw [Int.toNat_of_nonneg hfirst, Int.sub_add_cancel]
    rfl
  have hmons : ((Date.ofDays ((t + 60 * offset) / 86400)).month : Int) + 1 =
      ((Timestamp.shown t offset).date.month + 1 : Nat) := rfl
  have hmdays : ((Date.ofDays ((t + 60 * offset) / 86400)).day : Int) + 1 =
      ((Timestamp.shown t offset).date.day + 1 : Nat) := rfl
  have hclock : (((t + 60 * offset) % 86400).toNat : Int) =
      (t + 60 * offset) % 86400 := Int.toNat_of_nonneg (by omega)
  have hhours' : (t + 60 * offset) % 86400 / 3600 =
      ((Timestamp.shown t offset).second / 3600 : Nat) := by
    simp only [Timestamp.shown]
    omega
  have hmins : (t + 60 * offset) % 3600 / 60 =
      ((Timestamp.shown t offset).second % 3600 / 60 : Nat) := by
    simp only [Timestamp.shown]
    omega
  have hsecs : (t + 60 * offset) % 60 =
      ((Timestamp.shown t offset).second % 60 : Nat) := by
    simp only [Timestamp.shown]
    omega
  have hoffset : (Timestamp.shown t offset).offset = offset := rfl
  rw [hoffset] at htzHour htzMin
  rw [hminutes, hhours, hyears, hmons, hmdays, hhours', hmins, hsecs]
  rw [padded_eq_fixed (by norm_num) hyear, padded_eq_fixed (by norm_num) hmon,
    padded_eq_fixed (by norm_num) hmday, padded_eq_fixed (by norm_num) hhour,
    padded_eq_fixed (by norm_num) hmin, padded_eq_fixed (by norm_num) hsec,
    padded_eq_fixed (by norm_num) htzHour, padded_eq_fixed (by norm_num) htzMin]
  simp only [Timestamp.text, Timestamp.layout, Timestamp.fields, Layout.render,
    Timestamp.sign, List.append_assoc, List.append_nil]
  rfl

/-- The clock ahead by the offset shows a year from 0 to 9999. -/
def Showable (tsMs offset : Int) : Prop :=
  -62167219200 ≤ tsMs.tdiv 1000 + 60 * offset ∧
    tsMs.tdiv 1000 + 60 * offset < 253402300800

instance (tsMs offset : Int) : Decidable (Showable tsMs offset) :=
  inferInstanceAs (Decidable (_ ∧ _))

/-- A text is read back as the second it was written for, and the offset. -/
theorem iso8601FromMs_reads_back {tsMs offset : Int}
    (hshowable : Showable tsMs offset) (hoffset : offset.natAbs < 6000) :
    ∃ stamp, Timestamp.read (iso8601FromMs tsMs offset) = some stamp ∧
      stamp.instant = tsMs.tdiv 1000 ∧ stamp.offset = offset := by
  have hfits := Timestamp.fits_shown hshowable.1 hshowable.2 hoffset
  rw [iso8601FromMs_eq_text hfits]
  exact ⟨_, Timestamp.read_text hfits, Timestamp.instant_shown _ _, rfl⟩

theorem iso8601FromMs_lt {tsMs tsMs' offset : Int}
    (hshowable : Showable tsMs offset) (hshowable' : Showable tsMs' offset)
    (hoffset : offset.natAbs < 6000) (hlt : tsMs.tdiv 1000 < tsMs'.tdiv 1000) :
    iso8601FromMs tsMs offset < iso8601FromMs tsMs' offset := by
  have hfits := Timestamp.fits_shown hshowable.1 hshowable.2 hoffset
  have hfits' := Timestamp.fits_shown hshowable'.1 hshowable'.2 hoffset
  rw [iso8601FromMs_eq_text hfits, iso8601FromMs_eq_text hfits']
  apply Timestamp.text_lt hfits hfits' rfl
  rw [Timestamp.instant_shown, Timestamp.instant_shown]
  exact hlt

/-- Sorting the texts of one offset sorts the times, to the second. -/
theorem iso8601FromMs_sorts {tsMs tsMs' offset : Int}
    (hshowable : Showable tsMs offset) (hshowable' : Showable tsMs' offset)
    (hoffset : offset.natAbs < 6000) :
    iso8601FromMs tsMs offset < iso8601FromMs tsMs' offset ↔
      tsMs.tdiv 1000 < tsMs'.tdiv 1000 := by
  refine ⟨fun htext => ?_, iso8601FromMs_lt hshowable hshowable' hoffset⟩
  rcases lt_trichotomy (tsMs.tdiv 1000) (tsMs'.tdiv 1000) with hlt | heq | hgt
  · exact hlt
  · rw [iso8601FromMs, iso8601FromMs, heq] at htext
    exact absurd htext (List.lt_irrefl _)
  · exact absurd htext
      (List.lt_asymm (iso8601FromMs_lt hshowable' hshowable hoffset hgt))

example : iso8601FromMs 951782400000 480 = lit "2000-02-29T08:00:00+08:00" := by
  decide +kernel

theorem iso8601FromMs_reads_back_leapDay :
    ∃ stamp, Timestamp.read (iso8601FromMs 951782400000 480) = some stamp ∧
      stamp.instant = (951782400000 : Int).tdiv 1000 ∧ stamp.offset = 480 :=
  iso8601FromMs_reads_back (by decide) (by decide)

theorem iso8601FromMs_sorts_midnight :
    iso8601FromMs 951753599999 480 < iso8601FromMs 951753600000 480 ↔
      (951753599999 : Int).tdiv 1000 < (951753600000 : Int).tdiv 1000 :=
  iso8601FromMs_sorts (by decide) (by decide) (by decide)

end FlzChat
