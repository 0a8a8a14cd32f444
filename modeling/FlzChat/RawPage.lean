/-
Pages in the text exposition format written without escapes.  Where nothing
needed one such a page means what it should; a value that did need one spoils
the page, whatever the lines it falls apart into happen to say.
-/
import FlzChat.Prometheus
import Mathlib.Algebra.Order.BigOperators.Group.List
import Mathlib.Algebra.Order.Ring.Nat

namespace Prometheus

variable {V : Type}

theorem Sample.escaped_of_clean {s : Sample V} (hs : s.Clean) : s.escaped = s := by
  have hlabels : escapeLabels s.labels = s.labels := by
    rw [escapeLabels]
    nth_rewrite 2 [← List.map_id s.labels]
    apply List.map_congr_left
    intro label hlabel
    rw [escape_of_clean (hs label hlabel)]
    rfl
  rw [escaped, hlabels]

/-- With nothing to escape a page written raw is read back. -/
theorem parse_rawPage_of_clean (N : Numerals V) {samples : List (Sample V)}
    (hnamed : ∀ s ∈ samples, s.Named) (hclean : ∀ s ∈ samples, s.Clean) :
    parse N (rawPage N samples) = some samples := by
  have hescaped : samples.map Sample.escaped = samples := by
    nth_rewrite 2 [← List.map_id samples]
    exact List.map_congr_left fun s hs => Sample.escaped_of_clean (hclean s hs)
  have hread := parse_rawPage N hnamed
  rwa [hescaped] at hread

/-! What a line that reads as a sample is made of. -/

/-- A page of some samples ends a line. -/
theorem exists_rawPage_eq (N : Numerals V) {samples : List (Sample V)}
    (hsome : samples ≠ []) : ∃ text, rawPage N samples = text ++ [10] := by
  obtain ⟨before, last, rfl⟩ := List.eq_nil_or_concat samples |>.resolve_left hsome
  refine ⟨rawPage N before ++ last.rawLine N, ?_⟩
  simp [rawPage]

theorem skip_suffix (text : List UInt8) : skip text <:+ text :=
  List.dropWhile_suffix isBlank

theorem eq_of_expect {b : UInt8} {text rest : List UInt8}
    (hread : expect b text = some rest) : text = b :: rest := by
  cases text with
  | nil => contradiction
  | cons c text =>
      simp only [expect] at hread
      split_ifs at hread with hc
      rw [hc, Option.some.inj hread]

/-- The text up to an expected byte. -/
theorem suffix_of_expect {b : UInt8} {text rest : List UInt8}
    (hread : expect b (skip text) = some rest) : b :: rest <:+ text := by
  have hsuffix := skip_suffix text
  rwa [eq_of_expect hread] at hsuffix

theorem eq_of_name? {allowed : UInt8 → Bool} {text name rest : List UInt8}
    (hread : name? allowed text = some (name, rest)) : text = name ++ rest := by
  unfold name? at hread
  split_ifs at hread
  obtain ⟨rfl, rfl⟩ := Prod.mk.inj (Option.some.inj hread)
  exact List.takeWhile_append_dropWhile.symm

/-- A label takes at least the bytes it is written with. -/
theorem suffix_of_label? {text rest : List UInt8} {label : List UInt8 × List UInt8}
    (hread : label? text = some (label, rest)) :
    rest <:+ text ∧
      (rawLabel (label.1, escape label.2)).length + rest.length ≤ text.length := by
  simp only [label?, Option.bind_eq_bind, Option.bind_eq_some_iff, Option.pure_def,
    Option.some.injEq, Prod.mk.injEq, Prod.exists] at hread
  obtain ⟨name, afterName, hname, quote, hequals, quoted, hquote, value, afterValue,
    hvalue, rfl, rfl⟩ := hread
  have hnamed : name ++ afterName <:+ text := by
    rw [← eq_of_name? hname]
    exact skip_suffix text
  have hequals := suffix_of_expect hequals
  have hquote := suffix_of_expect hquote
  have hquoted : quoted = escape value ++ 34 :: afterValue := eq_of_unquote hvalue
  have hafter := skip_suffix afterValue
  constructor
  · have hend : afterValue <:+ quoted := by
      rw [hquoted]
      exact (List.suffix_cons 34 afterValue).trans (List.suffix_append _ _)
    calc skip afterValue
      _ <:+ afterValue := hafter
      _ <:+ quoted := hend
      _ <:+ quote := (List.suffix_cons 34 quoted).trans hquote
      _ <:+ afterName := (List.suffix_cons 61 quote).trans hequals
      _ <:+ text := (List.suffix_append name afterName).trans hnamed
  · rw [hquoted] at hquote
    have hnamed := hnamed.length_le
    have hequals := hequals.length_le
    have hquote := hquote.length_le
    have hafter := hafter.length_le
    simp only [rawLabel, List.length_append, List.length_cons, List.length_nil]
      at hnamed hequals hquote hafter ⊢
    omega

/-- So do labels, and a brace closes them. -/
theorem suffix_of_labels? {fuel : Nat} {text rest : List UInt8}
    {labels : List (List UInt8 × List UInt8)}
    (hread : labels? fuel text = some (labels, rest)) :
    125 :: rest <:+ text ∧
      (rawLabels (escapeLabels labels)).length + rest.length ≤ text.length := by
  induction fuel generalizing text labels with
  | zero => contradiction
  | succ fuel ih =>
      simp only [labels?] at hread
      cases hclosed : expect 125 (skip text) with
      | some following =>
          rw [hclosed] at hread
          obtain ⟨rfl, rfl⟩ := Prod.mk.inj (Option.some.inj hread)
          have hsuffix := suffix_of_expect hclosed
          refine ⟨hsuffix, ?_⟩
          have hlength := hsuffix.length_le
          simp only [escapeLabels, List.map_nil, rawLabels, List.length_cons,
            List.length_nil] at hlength ⊢
          omega
      | none =>
          rw [hclosed] at hread
          obtain ⟨⟨label, afterLabel⟩, hlabel, hread⟩ := Option.bind_eq_some_iff.mp hread
          obtain ⟨hsuffix, hlength⟩ := suffix_of_label? hlabel
          simp only at hread
          cases hclosed : expect 125 afterLabel with
          | some following =>
              rw [hclosed] at hread
              obtain ⟨rfl, rfl⟩ := Prod.mk.inj (Option.some.inj hread)
              rw [eq_of_expect hclosed] at hsuffix hlength
              refine ⟨hsuffix, ?_⟩
              simp only [escapeLabels, List.map_cons, List.map_nil, rawLabels,
                List.length_append, List.length_cons, List.length_nil] at hlength ⊢
              omega
          | none =>
              rw [hclosed] at hread
              obtain ⟨following, hcomma, hread⟩ := Option.bind_eq_some_iff.mp hread
              obtain ⟨⟨more, afterMore⟩, hmore, hread⟩ := Option.bind_eq_some_iff.mp hread
              obtain ⟨rfl, rfl⟩ := Prod.mk.inj (Option.some.inj hread)
              obtain ⟨hsuffixMore, hlengthMore⟩ := ih hmore
              rw [eq_of_expect hcomma] at hsuffix hlength
              constructor
              · exact (hsuffixMore.trans (List.suffix_cons 44 following)).trans hsuffix
              · have hcons : (rawLabels (escapeLabels (label :: more))).length ≤
                    (rawLabel (label.1, escape label.2)).length + 1 +
                      (rawLabels (escapeLabels more)).length := by
                  cases more with
                  | nil => simp [escapeLabels, rawLabels]
                  | cons next more => simp [escapeLabels, rawLabels]; omega
                simp only [List.length_cons] at hlength hlengthMore ⊢
                omega

/-- A line with labels that reads as `s` holds a closing brace, and up to it at
least the bytes `s` is written with. -/
theorem suffix_of_line? (N : Numerals V) {line : List UInt8} {s : Sample V}
    (hread : line? N line = some (some s)) (hlabels : s.labels ≠ []) :
    ∃ rest, 125 :: rest <:+ line ∧
      s.escaped.stem.length + rest.length ≤ line.length := by
  unfold line? at hread
  split_ifs at hread
  · cases hread
  obtain ⟨sample, hsample, heq⟩ := Option.map_eq_some_iff.mp hread
  obtain rfl := Option.some.inj heq
  obtain ⟨⟨name, afterName⟩, hname, hsample⟩ := Option.bind_eq_some_iff.mp hsample
  obtain ⟨⟨labels, afterLabels⟩, hset, hsample⟩ := Option.bind_eq_some_iff.mp hsample
  obtain ⟨value, _, hsample⟩ := Option.bind_eq_some_iff.mp hsample
  simp only at hsample
  split_ifs at hsample
  obtain rfl := Option.some.inj hsample
  unfold labelSet? at hset
  simp only at hset hlabels
  cases hopen : expect 123 (skip afterName) with
  | none =>
      rw [hopen] at hset
      obtain ⟨rfl, _⟩ := Prod.mk.inj (Option.some.inj hset)
      contradiction
  | some inside =>
      rw [hopen] at hset
      obtain ⟨hsuffix, hlength⟩ := suffix_of_labels? hset
      have hopened := suffix_of_expect hopen
      have hnamed : name ++ afterName <:+ line := by
        rw [← eq_of_name? hname]
        exact skip_suffix line
      refine ⟨afterLabels, ?_, ?_⟩
      · calc 125 :: afterLabels
          _ <:+ inside := hsuffix
          _ <:+ afterName := (List.suffix_cons 123 inside).trans hopened
          _ <:+ line := (List.suffix_append name afterName).trans hnamed
      · have hopened := hopened.length_le
        have hnamed := hnamed.length_le
        have hsome : escapeLabels labels ≠ [] := by simpa [escapeLabels] using hlabels
        simp only [Sample.stem, Sample.escaped, rawLabelSet, hsome, if_false,
          List.length_append, List.length_cons] at hopened hnamed ⊢
        omega

/-! Where a page written raw goes wrong. -/

/-- A closing brace in a line written raw stands before the number. -/
theorem length_lt_of_brace (N : Numerals V) {r : Sample V}
    {before : List UInt8} (after : List UInt8)
    (hline : before ++ 125 :: after = r.rawLine N) :
    before.length < r.stem.length := by
  rcases List.append_eq_append_iff.mp hline with ⟨between, hstem, hrest⟩ |
    ⟨between, _, hrest⟩
  · cases between with
    | nil => exact absurd (List.cons.inj hrest).1 (by decide)
    | cons b between =>
        rw [hstem]
        simp
  · have hmem : 125 ∈ 32 :: N.print r.value := by
      rw [hrest]
      simp
    rcases List.mem_cons.mp hmem with hblank | hmem
    · exact absurd hblank (by decide)
    · exact absurd rfl (N.print_word r.value 125 hmem).2.2.2

theorem mem_of_samples? (N : Numerals V) {ls : List (List UInt8)}
    {samples : List (Sample V)} (hread : samples? N ls = some samples)
    {s : Sample V} (hs : s ∈ samples) : ∃ line ∈ ls, line? N line = some (some s) := by
  induction ls generalizing samples with
  | nil =>
      obtain rfl := Option.some.inj hread
      contradiction
  | cons line ls ih =>
      obtain ⟨sample, hline, hread⟩ := Option.bind_eq_some_iff.mp hread
      obtain ⟨rest, hrest, rfl⟩ := Option.map_eq_some_iff.mp hread
      rcases List.mem_append.mp hs with hs | hs
      · obtain rfl := Option.mem_toList.mp hs
        exact ⟨line, List.mem_cons_self, hline⟩
      · obtain ⟨other, hother, hread⟩ := ih hrest hs
        exact ⟨other, List.mem_cons_of_mem line hother, hread⟩

/-- Every line of a page written raw is a piece of what one sample is written
as, and all of it when that holds no line feed. -/
theorem mem_of_lines_rawPage (N : Numerals V) {rs : List (Sample V)}
    {ls : List (List UInt8)} (hlines : lines (rawPage N rs) = some ls)
    {line : List UInt8} (hline : line ∈ ls) :
    ∃ r ∈ rs, line <:+: r.rawLine N ∧
      (10 ∉ r.rawLine N → line = r.rawLine N) := by
  induction rs generalizing ls with
  | nil =>
      obtain rfl := Option.some.inj hlines
      contradiction
  | cons r rs ih =>
      obtain ⟨first, others, hfirst, hothers, hwhole, happend⟩ :=
        exists_lines_append (r.rawLine N)
      rw [rawPage, List.flatMap_cons, List.append_assoc, List.singleton_append,
        happend, ← rawPage] at hlines
      obtain ⟨rest, hrest, rfl⟩ := Option.map_eq_some_iff.mp hlines
      rcases List.mem_cons.mp hline with rfl | hline
      · exact ⟨r, List.mem_cons_self, hfirst.isInfix, fun hnone => (hwhole hnone).1⟩
      · rcases List.mem_append.mp hline with hline | hline
        · refine ⟨r, List.mem_cons_self, hothers line hline, fun hnone => ?_⟩
          rw [(hwhole hnone).2] at hline
          contradiction
        · obtain ⟨other, hother, hpiece⟩ := ih hrest hline
          exact ⟨other, List.mem_cons_of_mem r hother, hpiece⟩

/-- What is read off a page written raw was there to be read, or stems from a
sample that needs escapes and takes more bytes than it does itself. -/
theorem mem_of_parse_rawPage (N : Numerals V) {rs samples : List (Sample V)}
    (hnamed : ∀ r ∈ rs, r.Named) (hread : parse N (rawPage N rs) = some samples)
    {s : Sample V} (hs : s ∈ samples) (hlabels : s.labels ≠ []) :
    (s ∈ rs ∧ s.Clean) ∨
      ∃ r ∈ rs, ¬ r.Clean ∧ s.escaped.stem.length ≤ r.stem.length := by
  obtain ⟨ls, hlines, hsamples⟩ := Option.bind_eq_some_iff.mp hread
  obtain ⟨line, hline, hsample⟩ := mem_of_samples? N hsamples hs
  obtain ⟨r, hr, ⟨before, after, hpiece⟩, hwhole⟩ := mem_of_lines_rawPage N hlines hline
  by_cases hclean : r.Clean
  · have hescaped := Sample.escaped_of_clean hclean
    have hline := hwhole (by
      rw [← hescaped]
      exact newline_notMem_rawLine N (hnamed r hr))
    have hsame := line?_rawLine N (hnamed r hr)
    rw [hescaped, ← hline, hsample] at hsame
    obtain rfl := Option.some.inj (Option.some.inj hsame)
    exact Or.inl ⟨hr, hclean⟩
  · obtain ⟨rest, ⟨front, hfront⟩, hlength⟩ := suffix_of_line? N hsample hlabels
    refine Or.inr ⟨r, hr, hclean, ?_⟩
    have hbrace : (before ++ front).length < r.stem.length := by
      apply length_lt_of_brace N (rest ++ after)
      rw [← hpiece, ← hfront]
      simp
    rw [← hfront] at hlength
    simp only [List.length_append, List.length_cons] at hbrace hlength
    omega

theorem length_rawLabels {labels : List (List UInt8 × List UInt8)}
    (hlabels : labels ≠ []) :
    (rawLabels labels).length =
      (labels.map fun label => label.1.length + label.2.length + 4).sum := by
  induction labels using rawLabels.induct with
  | case1 => contradiction
  | case2 label =>
      simp [rawLabels, rawLabel]
      omega
  | case3 label labels hne ih =>
      have hrest := ih hne
      simp only [rawLabels, rawLabel, List.length_append, List.length_cons,
        List.length_nil, List.map_cons, List.sum_cons, hrest]
      omega

/-- Escapes make a line longer. -/
theorem Sample.length_stem_lt {s : Sample V} (hs : ¬ s.Clean) :
    s.stem.length < s.escaped.stem.length := by
  simp only [Clean, not_forall] at hs
  obtain ⟨label, hlabel, hunclean⟩ := hs
  have hlabels : s.labels ≠ [] := List.ne_nil_of_mem hlabel
  have hescaped : escapeLabels s.labels ≠ [] := by simpa [escapeLabels] using hlabels
  simp only [stem, escaped, rawLabelSet, hlabels, hescaped, if_false,
    List.length_append, List.length_cons, length_rawLabels hlabels,
    length_rawLabels hescaped]
  rw [escapeLabels, List.map_map]
  have hlonger := List.sum_lt_sum
    (fun label : List UInt8 × List UInt8 => label.1.length + label.2.length + 4)
    ((fun label => label.1.length + label.2.length + 4) ∘
      fun label : List UInt8 × List UInt8 => (label.1, escape label.2))
    (fun other _ => by
      have hother := length_le_length_escape other.2
      simpa using hother)
    ⟨label, hlabel, by
      have hlonger := length_lt_length_escape hunclean
      simpa using hlonger⟩
  omega

/-- A page written raw on which every sample in need of escapes was meant to be
read as some such sample of its length cannot be read so. -/
theorem clean_of_parse_rawPage (N : Numerals V) {rs samples : List (Sample V)}
    (hnamed : ∀ r ∈ rs, r.Named) (hread : parse N (rawPage N rs) = some samples)
    (hmeant : ∀ r ∈ rs, ¬ r.Clean →
      ∃ s ∈ samples, ¬ s.Clean ∧ r.stem.length ≤ s.stem.length) :
    ∀ r ∈ rs, r.Clean := by
  by_contra hunclean
  simp only [not_forall] at hunclean
  obtain ⟨r, hr, hunclean⟩ := hunclean
  have hgrow : ∀ n, ∃ s ∈ samples, ¬ s.Clean ∧ n ≤ s.stem.length := by
    intro n
    induction n with
    | zero =>
        obtain ⟨s, hs, huncleans, _⟩ := hmeant r hr hunclean
        exact ⟨s, hs, huncleans, Nat.zero_le _⟩
    | succ n ih =>
        obtain ⟨s, hs, huncleans, hlength⟩ := ih
        have hlonger := Sample.length_stem_lt huncleans
        have hlabels : s.labels ≠ [] := by
          intro hnone
          apply huncleans
          simp [Sample.Clean, hnone]
        rcases mem_of_parse_rawPage N hnamed hread hs hlabels with
          ⟨_, hclean⟩ | ⟨source, hsource, huncleanSource, hfits⟩
        · exact absurd hclean huncleans
        · obtain ⟨next, hnext, huncleanNext, hnextLength⟩ :=
            hmeant source hsource huncleanSource
          exact ⟨next, hnext, huncleanNext, by omega⟩
  obtain ⟨s, hs, _, hlength⟩ :=
    hgrow ((samples.map fun s => s.stem.length).sum + 1)
  have hbound := List.single_le_sum (fun x _ => Nat.zero_le x) s.stem.length
    (List.mem_map_of_mem (f := fun s : Sample V => s.stem.length) hs)
  omega

end Prometheus
