/-
The Prometheus text exposition format over bytes.  A page is read line by line;
a label value stands between double quotes with backslash, double quote and
line feed escaped.
-/
import Mathlib.Data.List.TakeWhile
import Mathlib.Data.UInt

namespace Prometheus

/-- One line of a page: a name, labels with their values, a number and the text
of a timestamp, empty where there is none. -/
structure Sample (V : Type) where
  name : List UInt8
  labels : List (List UInt8 × List UInt8)
  value : V
  timestamp : List UInt8 := []
deriving DecidableEq

def isBlank (b : UInt8) : Bool :=
  b = 32 || b = 9

def isDigit (b : UInt8) : Bool :=
  48 ≤ b && b ≤ 57

/-- Letters, digits and the underscore. -/
def isLabelByte (b : UInt8) : Bool :=
  (65 ≤ b && b ≤ 90) || (97 ≤ b && b ≤ 122) || isDigit b || b = 95

/-- The name of a sample may hold colons, too. -/
def isNameByte (b : UInt8) : Bool :=
  isLabelByte b || b = 58

/-- How the numbers on a page are written and read. -/
structure Numerals (V : Type) where
  print : V → List UInt8
  read : List UInt8 → Option V
  read_print : ∀ v, read (print v) = some v
  print_word : ∀ v, ∀ b ∈ print v,
    isBlank b = false ∧ b ≠ 10 ∧ b ≠ 123 ∧ b ≠ 125

/-! Escapes. -/

def escapeByte (b : UInt8) : List UInt8 :=
  if b = 92 then [92, 92] else if b = 34 then [92, 34]
  else if b = 10 then [92, 110] else [b]

def escape (value : List UInt8) : List UInt8 :=
  value.flatMap escapeByte

/-- The byte an escape stands for; no other escape is known. -/
def escaped? (b : UInt8) : Option UInt8 :=
  if b = 92 then some 92 else if b = 34 then some 34
  else if b = 110 then some 10 else none

/-- The value that ends at the next quote, and what follows the quote; the flag
says that a backslash has just been read. -/
def unquote : Bool → List UInt8 → Option (List UInt8 × List UInt8)
  | _, [] => none
  | true, b :: rest =>
      (escaped? b).bind fun c =>
        (unquote false rest).map fun value => (c :: value.1, value.2)
  | false, b :: rest =>
      if b = 34 then some ([], rest)
      else if b = 92 then unquote true rest
      else if b = 10 then none
      else (unquote false rest).map fun value => (b :: value.1, value.2)

/-- Nothing to escape. -/
def Clean (value : List UInt8) : Prop :=
  ∀ b ∈ value, b ≠ 92 ∧ b ≠ 34 ∧ b ≠ 10

instance (value : List UInt8) : Decidable (Clean value) :=
  inferInstanceAs (Decidable (∀ b ∈ value, _))

theorem escapeByte_of_clean {b : UInt8} (hb : b ≠ 92 ∧ b ≠ 34 ∧ b ≠ 10) :
    escapeByte b = [b] := by
  simp [escapeByte, hb]

theorem escape_of_clean {value : List UInt8} (hvalue : Clean value) :
    escape value = value := by
  induction value with
  | nil => rfl
  | cons b rest ih =>
      obtain ⟨hb, hrest⟩ := List.forall_mem_cons.mp hvalue
      rw [escape, List.flatMap_cons, escapeByte_of_clean hb]
      rw [escape] at ih
      rw [ih hrest]
      rfl

theorem length_escapeByte_pos (b : UInt8) : 1 ≤ (escapeByte b).length := by
  unfold escapeByte
  split_ifs <;> simp

theorem length_le_length_escape (value : List UInt8) :
    value.length ≤ (escape value).length := by
  induction value with
  | nil => simp
  | cons b rest ih =>
      have hb := length_escapeByte_pos b
      simp only [escape, List.flatMap_cons, List.length_append, List.length_cons] at ih ⊢
      omega

/-- Escapes make a value longer. -/
theorem length_lt_length_escape {value : List UInt8} (hvalue : ¬ Clean value) :
    value.length < (escape value).length := by
  induction value with
  | nil => exact absurd (fun b hb => absurd hb List.not_mem_nil) hvalue
  | cons b rest ih =>
      have hpositive := length_escapeByte_pos b
      have hrest := length_le_length_escape rest
      simp only [escape, List.flatMap_cons, List.length_append, List.length_cons]
        at ih hrest ⊢
      by_cases hb : b ≠ 92 ∧ b ≠ 34 ∧ b ≠ 10
      · have hunclean : ¬ Clean rest := by
          intro hclean
          exact hvalue (List.forall_mem_cons.mpr ⟨hb, hclean⟩)
        have hlonger := ih hunclean
        omega
      · have htwo : (escapeByte b).length = 2 := by
          unfold escapeByte
          split_ifs with h92 h34 h10
          · rfl
          · rfl
          · rfl
          · exact absurd ⟨h92, h34, h10⟩ hb
        omega

/-- What is read between quotes is what was escaped. -/
theorem unquote_escape (value rest : List UInt8) :
    unquote false (escape value ++ 34 :: rest) = some (value, rest) := by
  induction value with
  | nil => rfl
  | cons b value ih =>
      rw [escape, List.flatMap_cons, List.append_assoc]
      rw [escape] at ih
      by_cases h92 : b = 92
      · simp [escapeByte, unquote, escaped?, ih, h92]
      · by_cases h34 : b = 34
        · simp [escapeByte, unquote, escaped?, ih, h34]
        · by_cases h10 : b = 10
          · simp [escapeByte, unquote, escaped?, ih, h10]
          · simp [escapeByte, unquote, ih, h92, h34, h10]

theorem escapeByte_of_escaped {b c : UInt8} (hb : escaped? b = some c) :
    escapeByte c = [92, b] := by
  unfold escaped? at hb
  split_ifs at hb with h92 h34 h110
  · rw [← Option.some.inj hb, h92]
    rfl
  · rw [← Option.some.inj hb, h34]
    rfl
  · rw [← Option.some.inj hb, h110]
    rfl

/-- Nothing else is read as that value. -/
theorem eq_of_unquote {escaping : Bool} {text value rest : List UInt8}
    (hread : unquote escaping text = some (value, rest)) :
    (if escaping then [92] else []) ++ text = escape value ++ 34 :: rest := by
  induction text generalizing escaping value with
  | nil => simp [unquote] at hread
  | cons b text ih =>
      cases escaping with
      | true =>
          obtain ⟨c, hc, hread⟩ := Option.bind_eq_some_iff.mp hread
          obtain ⟨tail, htail, heq⟩ := Option.map_eq_some_iff.mp hread
          obtain ⟨rfl, rfl⟩ := Prod.mk.inj heq
          have hrest := ih htail
          rw [escape, List.flatMap_cons, escapeByte_of_escaped hc, ← escape,
            List.append_assoc, ← hrest]
          rfl
      | false =>
          simp only [unquote] at hread
          split_ifs at hread with h34 h92 h10
          · obtain ⟨rfl, rfl⟩ := Prod.mk.inj (Option.some.inj hread)
            rw [h34]
            rfl
          · have hrest := ih hread
            rw [h92]
            exact hrest
          · obtain ⟨tail, htail, heq⟩ := Option.map_eq_some_iff.mp hread
            obtain ⟨rfl, rfl⟩ := Prod.mk.inj heq
            have hrest := ih htail
            rw [escape, List.flatMap_cons, escapeByte_of_clean ⟨h92, h34, h10⟩,
              ← escape, List.append_assoc, ← hrest]
            rfl

/-! Tokens. -/

def skip (text : List UInt8) : List UInt8 :=
  text.dropWhile isBlank

def expect (b : UInt8) : List UInt8 → Option (List UInt8)
  | [] => none
  | c :: rest => if c = b then some rest else none

/-- A name of the bytes allowed in it, not starting with a digit. -/
def IsName (allowed : UInt8 → Bool) (name : List UInt8) : Prop :=
  (∃ b ∈ name.head?, isDigit b = false) ∧ ∀ b ∈ name, allowed b = true

instance (allowed : UInt8 → Bool) (name : List UInt8) :
    Decidable (IsName allowed name) :=
  inferInstanceAs (Decidable (_ ∧ _))

def name? (allowed : UInt8 → Bool) (text : List UInt8) :
    Option (List UInt8 × List UInt8) :=
  if IsName allowed (text.takeWhile allowed) then
    some (text.takeWhile allowed, text.dropWhile allowed)
  else none

/-- The bytes up to the next blank. -/
def word (text : List UInt8) : List UInt8 × List UInt8 :=
  ((skip text).takeWhile (!isBlank ·), (skip text).dropWhile (!isBlank ·))

def unsigned : List UInt8 → List UInt8
  | [] => []
  | b :: rest => if b = 45 then rest else b :: rest

/-- No timestamp, or an integer. -/
def isTimestamp (text : List UInt8) : Bool :=
  text.isEmpty || (!(unsigned text).isEmpty && (unsigned text).all isDigit)

/-! Reading. -/

/-- A label with its value, and what follows after blanks. -/
def label? (text : List UInt8) :
    Option ((List UInt8 × List UInt8) × List UInt8) := do
  let name ← name? isLabelByte (skip text)
  let quote ← expect 61 (skip name.2)
  let quoted ← expect 34 (skip quote)
  let value ← unquote false quoted
  return ((name.1, value.1), skip value.2)

/-- The labels up to the closing brace, as many as the first argument allows;
a comma may stand after the last one. -/
def labels? : Nat → List UInt8 →
    Option (List (List UInt8 × List UInt8) × List UInt8)
  | 0, _ => none
  | fuel + 1, text =>
      match expect 125 (skip text) with
      | some rest => some ([], rest)
      | none => do
          let label ← label? text
          match expect 125 label.2 with
          | some rest => return ([label.1], rest)
          | none =>
              let following ← expect 44 label.2
              let more ← labels? fuel following
              return (label.1 :: more.1, more.2)

def labelSet? (text : List UInt8) :
    Option (List (List UInt8 × List UInt8) × List UInt8) :=
  match expect 123 (skip text) with
  | some rest => labels? (rest.length + 1) rest
  | none => some ([], text)

variable {V : Type}

def sample? (N : Numerals V) (text : List UInt8) : Option (Sample V) := do
  let name ← name? isNameByte text
  let labels ← labelSet? name.2
  let value ← N.read (word labels.2).1
  let timestamp := word (word labels.2).2
  if isTimestamp timestamp.1 ∧ skip timestamp.2 = [] then
    return ⟨name.1, labels.1, value, timestamp.1⟩
  else none

/-- A blank line and a comment hold no sample. -/
def line? (N : Numerals V) (line : List UInt8) : Option (Option (Sample V)) :=
  if (skip line).head? = none ∨ (skip line).head? = some 35 then some none
  else (sample? N (skip line)).map some

def samples? (N : Numerals V) : List (List UInt8) → Option (List (Sample V))
  | [] => some []
  | line :: lines =>
      (line? N line).bind fun sample =>
        (samples? N lines).map fun samples => sample.toList ++ samples

/-- The lines of a page, the last one ended like the others. -/
def lines : List UInt8 → Option (List (List UInt8))
  | [] => some []
  | b :: rest =>
      (lines rest).bind fun ls =>
        if b = 10 then some ([] :: ls)
        else match ls with
          | [] => none
          | l :: ls => some ((b :: l) :: ls)

def parse (N : Numerals V) (page : List UInt8) : Option (List (Sample V)) :=
  (lines page).bind (samples? N)

/-! Writing, without escapes. -/

def rawLabel (label : List UInt8 × List UInt8) : List UInt8 :=
  label.1 ++ 61 :: 34 :: (label.2 ++ [34])

def rawLabels : List (List UInt8 × List UInt8) → List UInt8
  | [] => [125]
  | [label] => rawLabel label ++ [125]
  | label :: labels => rawLabel label ++ 44 :: rawLabels labels

def rawLabelSet (labels : List (List UInt8 × List UInt8)) : List UInt8 :=
  if labels = [] then [] else 123 :: rawLabels labels

/-- The labels to write raw to write these. -/
def escapeLabels (labels : List (List UInt8 × List UInt8)) :
    List (List UInt8 × List UInt8) :=
  labels.map fun label => (label.1, escape label.2)

namespace Sample

/-- What stands before the number. -/
def stem (s : Sample V) : List UInt8 :=
  s.name ++ rawLabelSet s.labels

def rawLine (N : Numerals V) (s : Sample V) : List UInt8 :=
  s.stem ++ 32 :: N.print s.value

/-- The sample that is written raw to write `s`. -/
def escaped (s : Sample V) : Sample V :=
  { s with labels := escapeLabels s.labels }

/-- Its names are names. -/
structure Named (s : Sample V) : Prop where
  name : IsName isNameByte s.name
  labels : ∀ label ∈ s.labels, IsName isLabelByte label.1
  timestamp : s.timestamp = []

/-- No label value needs an escape. -/
def Clean (s : Sample V) : Prop :=
  ∀ label ∈ s.labels, Prometheus.Clean label.2

instance (s : Sample V) : Decidable s.Clean :=
  inferInstanceAs (Decidable (∀ label ∈ s.labels, _))

end Sample

def rawPage (N : Numerals V) (samples : List (Sample V)) : List UInt8 :=
  samples.flatMap fun s => s.rawLine N ++ [10]

/-! A page written with its escapes is read back. -/

theorem isBlank_of_isLabelByte {b : UInt8} (hb : isLabelByte b = true) :
    isBlank b = false := by
  simp only [isLabelByte, isDigit, isBlank, Bool.or_eq_true, Bool.and_eq_true,
    decide_eq_true_eq, Bool.or_eq_false_iff, decide_eq_false_iff_not,
    UInt8.le_iff_toNat_le, ← UInt8.toNat_inj] at hb ⊢
  simp at hb ⊢
  omega

theorem isBlank_of_isNameByte {b : UInt8} (hb : isNameByte b = true) :
    isBlank b = false := by
  rcases Bool.or_eq_true_iff.mp hb with hb | hb
  · exact isBlank_of_isLabelByte hb
  · rw [of_decide_eq_true hb]
    rfl

theorem skip_of_not_blank {b : UInt8} (hb : isBlank b = false) (rest : List UInt8) :
    skip (b :: rest) = b :: rest := by
  simp [skip, hb]

/-- A name is not blank. -/
theorem skip_name {allowed : UInt8 → Bool} {name : List UInt8}
    (hblank : ∀ {b}, allowed b = true → isBlank b = false)
    (hname : IsName allowed name) (rest : List UInt8) :
    skip (name ++ rest) = name ++ rest := by
  obtain ⟨⟨b, hb, _⟩, hallowed⟩ := hname
  obtain ⟨tail, rfl⟩ := List.head?_eq_some_iff.mp hb
  exact skip_of_not_blank (hblank (hallowed b List.mem_cons_self)) _

theorem name?_append {allowed : UInt8 → Bool} {name : List UInt8}
    (hname : IsName allowed name) {b : UInt8} (hb : allowed b = false)
    (rest : List UInt8) :
    name? allowed (name ++ b :: rest) = some (name, b :: rest) := by
  have htake : (name ++ b :: rest).takeWhile allowed = name := by
    rw [List.takeWhile_append_of_pos hname.2, List.takeWhile_cons_of_neg (by simp [hb]),
      List.append_nil]
  have hdrop : (name ++ b :: rest).dropWhile allowed = b :: rest := by
    rw [List.dropWhile_append_of_pos hname.2, List.dropWhile_cons_of_neg (by simp [hb])]
  rw [name?, htake, hdrop, if_pos hname]

theorem label?_rawLabel {name : List UInt8} (hname : IsName isLabelByte name)
    (value rest : List UInt8) :
    label? (rawLabel (name, escape value) ++ rest) =
      some ((name, value), skip rest) := by
  have htext : rawLabel (name, escape value) ++ rest =
      name ++ 61 :: 34 :: (escape value ++ 34 :: rest) := by
    simp [rawLabel]
  rw [label?, htext, skip_name isBlank_of_isLabelByte hname,
    name?_append hname (by rfl)]
  simp [skip_of_not_blank (show isBlank 61 = false from rfl),
    skip_of_not_blank (show isBlank 34 = false from rfl), expect, unquote_escape]

/-- The labels are read back as soon as enough of them are allowed. -/
theorem labels?_rawLabels {labels : List (List UInt8 × List UInt8)}
    (hnames : ∀ label ∈ labels, IsName isLabelByte label.1) (fuel : Nat)
    (hfuel : labels.length < fuel) (rest : List UInt8) :
    labels? fuel (rawLabels (escapeLabels labels) ++ rest) = some (labels, rest) := by
  induction labels generalizing fuel with
  | nil =>
      cases fuel with
      | zero => contradiction
      | succ fuel => rfl
  | cons label labels ih =>
      obtain ⟨hname, hnames⟩ := List.forall_mem_cons.mp hnames
      have hopen : ∀ following, expect 125
          (skip (rawLabel (label.1, escape label.2) ++ following)) = none := by
        intro following
        rw [rawLabel, List.append_assoc, skip_name isBlank_of_isLabelByte hname]
        obtain ⟨⟨b, hb, _⟩, hallowed⟩ := hname
        obtain ⟨tail, htail⟩ := List.head?_eq_some_iff.mp hb
        have hbyte := hallowed b (by simp [htail])
        rw [htail, List.cons_append, expect, if_neg]
        rintro rfl
        exact absurd hbyte (by decide)
      cases fuel with
      | zero => contradiction
      | succ fuel =>
          cases labels with
          | nil =>
              simp only [escapeLabels, List.map_cons, List.map_nil, rawLabels,
                List.append_assoc, labels?, hopen, label?_rawLabel hname]
              rfl
          | cons next labels =>
              have hmore := ih hnames fuel (by simpa using hfuel)
              simp only [escapeLabels, List.map_cons, rawLabels, List.append_assoc,
                labels?, hopen, label?_rawLabel hname, List.cons_append] at hmore ⊢
              simp [skip_of_not_blank (show isBlank 44 = false from rfl), expect, hmore]

theorem skip_print (N : Numerals V) (v : V) :
    skip (32 :: N.print v) = N.print v := by
  rw [skip, List.dropWhile_cons_of_pos (by rfl)]
  apply List.dropWhile_eq_self_iff.mpr
  intro hpositive hblank
  rw [(N.print_word v _ (List.getElem_mem hpositive)).1] at hblank
  contradiction

/-- The number at the end of a line. -/
theorem word_print (N : Numerals V) (v : V) :
    word (32 :: N.print v) = (N.print v, []) := by
  have hplain : ∀ b ∈ N.print v, (!isBlank b) = true := by
    intro b hb
    rw [(N.print_word v b hb).1]
    rfl
  rw [word, skip_print, List.takeWhile_eq_self_iff.mpr hplain,
    List.dropWhile_eq_nil_iff.mpr hplain]

theorem expect_print (N : Numerals V) (v : V) :
    expect 123 (skip (32 :: N.print v)) = none := by
  rw [skip_print]
  cases hprint : N.print v with
  | nil => rfl
  | cons b rest =>
      have hb : b ∈ N.print v := by simp [hprint]
      rw [expect, if_neg (N.print_word v b hb).2.2.1]

theorem length_le_length_rawLabels (labels : List (List UInt8 × List UInt8)) :
    labels.length ≤ (rawLabels labels).length := by
  induction labels using rawLabels.induct with
  | case1 => simp
  | case2 label => simp [rawLabels]
  | case3 label labels _ ih =>
      simp only [rawLabels, List.length_append, List.length_cons]
      omega

theorem labelSet?_rawLabelSet {labels : List (List UInt8 × List UInt8)}
    (hnames : ∀ label ∈ labels, IsName isLabelByte label.1) {rest : List UInt8}
    (hrest : expect 123 (skip rest) = none) :
    labelSet? (rawLabelSet (escapeLabels labels) ++ rest) = some (labels, rest) := by
  by_cases hnone : labels = []
  · rw [hnone]
    simp [rawLabelSet, escapeLabels, labelSet?, hrest]
  · have hsome : escapeLabels labels ≠ [] := by simpa [escapeLabels] using hnone
    have hfuel := length_le_length_rawLabels (escapeLabels labels)
    rw [escapeLabels, List.length_map, ← escapeLabels] at hfuel
    rw [rawLabelSet, if_neg hsome, labelSet?, List.cons_append,
      skip_of_not_blank (by rfl), expect, if_pos rfl]
    apply labels?_rawLabels hnames _
    rw [List.length_append]
    omega

/-- What comes after a sample's name is no part of the name. -/
theorem name?_stem {s : Sample V} (hs : s.Named) (rest : List UInt8) :
    name? isNameByte (s.escaped.stem ++ 32 :: rest) =
      some (s.name, rawLabelSet s.escaped.labels ++ 32 :: rest) := by
  rw [Sample.stem, List.append_assoc, rawLabelSet]
  split_ifs
  · exact name?_append hs.name (by rfl) _
  · exact name?_append hs.name (by rfl) _

theorem sample?_rawLine (N : Numerals V) {s : Sample V} (hs : s.Named) :
    sample? N (s.escaped.rawLine N) = some s := by
  rw [sample?, Sample.rawLine, name?_stem hs]
  simp only [Sample.escaped, Option.bind_eq_bind, Option.bind_some,
    labelSet?_rawLabelSet hs.labels (expect_print N s.value), word_print,
    N.read_print]
  rw [if_pos (by decide), show (word []).1 = s.timestamp from hs.timestamp.symm]
  rfl

/-- A line written with its escapes is read back. -/
theorem line?_rawLine (N : Numerals V) {s : Sample V} (hs : s.Named) :
    line? N (s.escaped.rawLine N) = some (some s) := by
  have hskip : skip (s.escaped.rawLine N) = s.escaped.rawLine N := by
    rw [Sample.rawLine, Sample.stem, List.append_assoc]
    exact skip_name isBlank_of_isNameByte hs.name _
  have hhead : ¬ ((s.escaped.rawLine N).head? = none ∨
      (s.escaped.rawLine N).head? = some 35) := by
    obtain ⟨⟨b, hb, _⟩, hallowed⟩ := hs.name
    obtain ⟨tail, htail⟩ := List.head?_eq_some_iff.mp hb
    have hbyte := hallowed b (by simp [htail])
    simp only [Sample.rawLine, Sample.stem, Sample.escaped, htail, List.cons_append,
      List.head?_cons, Option.some.injEq, reduceCtorEq, false_or]
    rintro rfl
    exact absurd hbyte (by decide)
  rw [line?, hskip, if_neg hhead, sample?_rawLine N hs, Option.map_some]

theorem newline_notMem_escape (value : List UInt8) : 10 ∉ escape value := by
  intro hmem
  obtain ⟨b, _, hb⟩ := List.mem_flatMap.mp hmem
  unfold escapeByte at hb
  split_ifs at hb with h92 h34 h10
  · exact absurd hb (by decide)
  · exact absurd hb (by decide)
  · exact absurd hb (by decide)
  · exact h10 (List.mem_singleton.mp hb).symm

theorem newline_notMem_rawLabels {labels : List (List UInt8 × List UInt8)}
    (hlabels : ∀ label ∈ labels, 10 ∉ label.1 ∧ 10 ∉ label.2) :
    10 ∉ rawLabels labels := by
  induction labels using rawLabels.induct with
  | case1 => decide
  | case2 label =>
      have hlabel := hlabels label List.mem_cons_self
      simp [rawLabels, rawLabel, hlabel]
  | case3 label labels _ ih =>
      obtain ⟨hlabel, hrest⟩ := List.forall_mem_cons.mp hlabels
      simp [rawLabels, rawLabel, hlabel, ih hrest]

/-- A line written with its escapes is one line. -/
theorem newline_notMem_rawLine (N : Numerals V) {s : Sample V} (hs : s.Named) :
    10 ∉ s.escaped.rawLine N := by
  have hname : 10 ∉ s.name := by
    intro hmem
    exact absurd (hs.name.2 10 hmem) (by decide)
  have hlabels : 10 ∉ rawLabels s.escaped.labels := by
    apply newline_notMem_rawLabels
    intro label hlabel
    obtain ⟨original, horiginal, rfl⟩ := List.mem_map.mp hlabel
    refine ⟨fun hmem => ?_, newline_notMem_escape _⟩
    exact absurd ((hs.labels original horiginal).2 10 hmem) (by decide)
  have hset : 10 ∉ rawLabelSet s.escaped.labels := by
    unfold rawLabelSet
    split_ifs
    · exact List.not_mem_nil
    · simpa using hlabels
  have hvalue : 10 ∉ N.print s.value := by
    intro hmem
    exact (N.print_word s.value 10 hmem).2.1 rfl
  simp only [Sample.rawLine, Sample.stem, List.mem_append, List.mem_cons, not_or]
  exact ⟨⟨hname, hset⟩, by decide, hvalue⟩

/-- The lines a text with a line feed after it is cut into. -/
theorem exists_lines_append (text : List UInt8) :
    ∃ first others, first <+: text ∧ (∀ line ∈ others, line <:+: text) ∧
      (10 ∉ text → first = text ∧ others = []) ∧
      ∀ rest, lines (text ++ 10 :: rest) =
        (lines rest).map fun ls => first :: (others ++ ls) := by
  induction text with
  | nil =>
      refine ⟨[], [], List.prefix_rfl, by simp, by simp, fun rest => ?_⟩
      simp [lines, Option.map_eq_bind]
  | cons b text ih =>
      obtain ⟨first, others, hfirst, hothers, hwhole, hlines⟩ := ih
      by_cases hb : b = 10
      · refine ⟨[], first :: others, List.nil_prefix, ?_, ?_, fun rest => ?_⟩
        · intro line hline
          rcases List.mem_cons.mp hline with rfl | hline
          · exact List.infix_cons hfirst.isInfix
          · exact List.infix_cons (hothers line hline)
        · simp [hb]
        · rw [List.cons_append, lines, hlines]
          cases lines rest with
          | none => rfl
          | some ls => simp [hb]
      · refine ⟨b :: first, others, ?_, ?_, ?_, fun rest => ?_⟩
        · exact List.cons_prefix_cons.mpr ⟨rfl, hfirst⟩
        · exact fun line hline => List.infix_cons (hothers line hline)
        · intro hnone
          obtain ⟨rfl, rfl⟩ := hwhole (fun hmem => hnone (List.mem_cons_of_mem b hmem))
          exact ⟨rfl, rfl⟩
        · rw [List.cons_append, lines, hlines]
          cases lines rest with
          | none => rfl
          | some ls => simp [hb]

theorem lines_append {text : List UInt8} (htext : 10 ∉ text) (rest : List UInt8) :
    lines (text ++ 10 :: rest) = (lines rest).map (text :: ·) := by
  obtain ⟨first, others, _, _, hwhole, hlines⟩ := exists_lines_append text
  obtain ⟨rfl, rfl⟩ := hwhole htext
  exact hlines rest

/-- A page written with its escapes is read back. -/
theorem parse_rawPage (N : Numerals V) {samples : List (Sample V)}
    (hnamed : ∀ s ∈ samples, s.Named) :
    parse N (rawPage N (samples.map Sample.escaped)) = some samples := by
  have hread : ∃ ls, lines (rawPage N (samples.map Sample.escaped)) = some ls ∧
      samples? N ls = some samples := by
    induction samples with
    | nil => exact ⟨[], rfl, rfl⟩
    | cons s samples ih =>
        obtain ⟨hs, hrest⟩ := List.forall_mem_cons.mp hnamed
        obtain ⟨ls, hlines, hsamples⟩ := ih hrest
        refine ⟨s.escaped.rawLine N :: ls, ?_, ?_⟩
        · rw [rawPage] at hlines
          simp only [rawPage, List.map_cons, List.flatMap_cons, List.append_assoc,
            List.singleton_append]
          rw [lines_append (newline_notMem_rawLine N hs), hlines, Option.map_some]
        · simp [samples?, line?_rawLine N hs, hsamples]
  obtain ⟨ls, hlines, hsamples⟩ := hread
  rw [parse, hlines, Option.bind_some, hsamples]

end Prometheus
