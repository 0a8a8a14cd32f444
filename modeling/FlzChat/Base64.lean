/-
Base64 as RFC 4648 defines it, in the standard alphabet with padding and in the
URL alphabet without.  Three bytes make four digits of six bits; one or two
bytes at the end make two or three.
-/
import Mathlib.Data.List.TakeWhile
import Mathlib.Data.UInt

namespace Base64

def sextet (n : Nat) : Fin 64 :=
  Fin.ofNat 64 n

/-- The digits of a byte string. -/
def sextets : List UInt8 → List (Fin 64)
  | [] => []
  | [a] => [sextet (a.toNat / 4), sextet (a.toNat % 4 * 16)]
  | [a, b] =>
      [sextet (a.toNat / 4), sextet (a.toNat % 4 * 16 + b.toNat / 16),
        sextet (b.toNat % 16 * 4)]
  | a :: b :: c :: rest =>
      sextet (a.toNat / 4) :: sextet (a.toNat % 4 * 16 + b.toNat / 16) ::
        sextet (b.toNat % 16 * 4 + c.toNat / 64) :: sextet (c.toNat % 64) ::
          sextets rest

/-- The byte string of digits; bits left over at the end are dropped. -/
def bytes : List (Fin 64) → List UInt8
  | s :: t :: u :: v :: rest =>
      UInt8.ofNat (s.val * 4 + t.val / 16) ::
        UInt8.ofNat (t.val % 16 * 16 + u.val / 4) ::
          UInt8.ofNat (u.val % 4 * 64 + v.val) :: bytes rest
  | [s, t, u] =>
      [UInt8.ofNat (s.val * 4 + t.val / 16),
        UInt8.ofNat (t.val % 16 * 16 + u.val / 4)]
  | [s, t] => [UInt8.ofNat (s.val * 4 + t.val / 16)]
  | _ => []

theorem sextet_val {n : Nat} (hn : n < 64) : (sextet n).val = n :=
  Nat.mod_eq_of_lt hn

theorem ofNat_eq {a : UInt8} {n : Nat} (hn : n = a.toNat) : UInt8.ofNat n = a := by
  rw [hn, UInt8.ofNat_toNat]

/-- The digits determine the bytes. -/
@[simp]
theorem bytes_sextets (x : List UInt8) : bytes (sextets x) = x := by
  induction x using sextets.induct with
  | case1 => rfl
  | case2 a =>
      have ha := a.toNat_lt
      simp only [sextets, bytes]
      rw [sextet_val (by omega), sextet_val (by omega), ofNat_eq (a := a) (by omega)]
  | case3 a b =>
      have ha := a.toNat_lt
      have hb := b.toNat_lt
      simp only [sextets, bytes]
      rw [sextet_val (by omega), sextet_val (by omega), sextet_val (by omega),
        ofNat_eq (a := a) (by omega), ofNat_eq (a := b) (by omega)]
  | case4 a b c rest ih =>
      have ha := a.toNat_lt
      have hb := b.toNat_lt
      have hc := c.toNat_lt
      simp only [sextets, bytes]
      rw [sextet_val (by omega), sextet_val (by omega), sextet_val (by omega),
        sextet_val (by omega), ofNat_eq (a := a) (by omega),
        ofNat_eq (a := b) (by omega), ofNat_eq (a := c) (by omega), ih]

theorem sextets_ne_nil {x : List UInt8} (hx : x ≠ []) : sextets x ≠ [] := by
  rintro hnil
  apply hx
  rw [← bytes_sextets x, hnil]
  rfl

/-- The standard alphabet: letters, digits, `+` and `/`. -/
def std (i : Fin 64) : UInt8 :=
  if i < 26 then UInt8.ofNat (65 + i.val)
  else if i < 52 then UInt8.ofNat (71 + i.val)
  else if i < 62 then UInt8.ofNat (i.val - 4)
  else if i = 62 then 43 else 47

/-- The URL alphabet has `-` and `_` in their place. -/
def url (i : Fin 64) : UInt8 :=
  if i = 62 then 45 else if i = 63 then 95 else std i

/-- The digit a byte of the standard alphabet stands for. -/
def digit? (b : UInt8) : Option (Fin 64) :=
  (List.finRange 64).find? fun i => std i = b

/-- `=` up to a multiple of four. -/
def pad (text : List UInt8) : List UInt8 :=
  text ++ List.replicate ((4 - text.length % 4) % 4) 61

def encode (x : List UInt8) : List UInt8 :=
  pad ((sextets x).map std)

def decode (text : List UInt8) : List UInt8 :=
  bytes ((text.takeWhile (· ≠ 61)).filterMap digit?)

def encodeUrl (x : List UInt8) : List UInt8 :=
  (sextets x).map url

theorem digit?_std : ∀ i, digit? (std i) = some i := by decide +kernel

theorem std_ne_pad : ∀ i, std i ≠ 61 := by decide

theorem url_ne_pad : ∀ i, url i ≠ 61 := by decide

/-- No padding and no separator of a token. -/
theorem url_ne_dot : ∀ i, url i ≠ 46 := by decide

theorem decode_encode (x : List UInt8) : decode (encode x) = x := by
  have hpadding : ∀ n, (List.replicate n (61 : UInt8)).takeWhile (· ≠ 61) = [] := by
    intro n
    cases n with
    | zero => rfl
    | succ n => rfl
  have hdigits : ∀ b ∈ (sextets x).map std, decide (b ≠ 61) = true := by
    intro b hb
    obtain ⟨i, _, rfl⟩ := List.mem_map.mp hb
    exact decide_eq_true (std_ne_pad i)
  rw [decode, encode, pad, List.takeWhile_append_of_pos hdigits, hpadding,
    List.append_nil, List.filterMap_map]
  have hvalues : (sextets x).filterMap (digit? ∘ std) = sextets x := by
    rw [show digit? ∘ std = some from funext digit?_std, List.filterMap_some]
  rw [hvalues, bytes_sextets]

theorem encodeUrl_ne_nil {x : List UInt8} (hx : x ≠ []) : encodeUrl x ≠ [] := by
  intro hnil
  exact sextets_ne_nil hx (List.map_eq_nil_iff.mp hnil)

/-- Letters, digits, `-` and `_`. -/
def isUrlDigit (b : UInt8) : Bool :=
  (65 ≤ b && b ≤ 90) || (97 ≤ b && b ≤ 122) || (48 ≤ b && b ≤ 57) || b = 45 ||
    b = 95

theorem isUrlDigit_url : ∀ i, isUrlDigit (url i) = true := by decide +kernel

theorem isUrlDigit_encodeUrl (x : List UInt8) :
    ∀ b ∈ encodeUrl x, isUrlDigit b = true := by
  intro b hb
  obtain ⟨i, _, rfl⟩ := List.mem_map.mp hb
  exact isUrlDigit_url i

/-- Four digits for three bytes, rounded up. -/
theorem length_sextets (x : List UInt8) :
    (sextets x).length = (4 * x.length + 2) / 3 := by
  induction x using sextets.induct with
  | case1 => rfl
  | case2 a => simp [sextets]
  | case3 a b => simp [sextets]
  | case4 a b c rest ih =>
      simp only [sextets, List.length_cons, ih]
      omega

theorem length_encodeUrl (x : List UInt8) :
    (encodeUrl x).length = (4 * x.length + 2) / 3 := by
  rw [encodeUrl, List.length_map, length_sextets]

theorem dot_notMem_encodeUrl (x : List UInt8) : 46 ∉ encodeUrl x := by
  intro hmem
  obtain ⟨i, _, hi⟩ := List.mem_map.mp hmem
  exact url_ne_dot i hi

end Base64
