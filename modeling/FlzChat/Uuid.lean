/-
`chat/util/uuid.cc`: random identifiers of version 4.  The texts are those of
the version and nothing else, each of them comes from equally many random
bytes, and two are equal only where the 122 bits that are kept agree.
-/
import FlzChat.StdString
import Mathlib.Data.Fin.VecNotation
import Mathlib.Logic.Equiv.Basic
import Mathlib.Algebra.BigOperators.Fin
import Mathlib.SetTheory.Cardinal.Finite
import Mathlib.Tactic.FinCases

namespace FlzChat

/-- A digit of `%x`. -/
def hexDigit (d : Nat) : UInt8 :=
  UInt8.ofNat (if d < 10 then 48 + d else 87 + d)

/-- `%02x` of a byte. -/
def hexByte (b : UInt8) : StdString :=
  [hexDigit (b.toNat / 16), hexDigit (b.toNat % 16)]

@[simp]
theorem length_hexByte (b : UInt8) : (hexByte b).length = 2 := rfl

theorem toNat_hexDigit {d : Nat} (hd : d < 16) :
    (hexDigit d).toNat = if d < 10 then 48 + d else 87 + d := by
  apply UInt8.toNat_ofNat_of_lt'
  simp only [UInt8.size]
  split_ifs <;> omega

theorem hexDigit_inj {d e : Nat} (hd : d < 16) (he : e < 16)
    (heq : hexDigit d = hexDigit e) : d = e := by
  have hvalue := congrArg UInt8.toNat heq
  rw [toNat_hexDigit hd, toNat_hexDigit he] at hvalue
  split_ifs at hvalue <;> omega

theorem hexByte_inj {b c : UInt8} (heq : hexByte b = hexByte c) : b = c := by
  obtain ⟨hhigh, hrest⟩ := List.cons.inj heq
  obtain ⟨hlow, _⟩ := List.cons.inj hrest
  have hb := b.toNat_lt
  have hc := c.toNat_lt
  have hhigh' := hexDigit_inj (by omega) (by omega) hhigh
  have hlow' := hexDigit_inj (by omega) (by omega) hlow
  apply UInt8.toNat_inj.mp
  omega

/-- Texts cut into pieces of the same lengths are equal piece by piece. -/
theorem flatMap_inj_of_length {α β : Type} {f g : α → List β} {l : List α}
    (hlength : ∀ a ∈ l, (f a).length = (g a).length)
    (heq : l.flatMap f = l.flatMap g) : ∀ a ∈ l, f a = g a := by
  induction l with
  | nil => simp
  | cons a l ih =>
      rw [List.flatMap_cons, List.flatMap_cons] at heq
      obtain ⟨hhead, htail⟩ := List.append_inj heq (hlength a List.mem_cons_self)
      intro a' ha'
      rcases List.mem_cons.mp ha' with rfl | ha'
      · exact hhead
      · exact ih (fun a' ha' => hlength a' (List.mem_cons_of_mem a ha')) htail a' ha'

namespace Uuid

/-- `unsigned char b[16]` -/
abbrev Bytes := Fin 16 → UInt8

/-- The text of `snprintf`. -/
def print (b : Bytes) : StdString :=
  hexByte (b 0) ++ hexByte (b 1) ++ hexByte (b 2) ++ hexByte (b 3) ++ lit "-" ++
    hexByte (b 4) ++ hexByte (b 5) ++ lit "-" ++
    hexByte (b 6) ++ hexByte (b 7) ++ lit "-" ++
    hexByte (b 8) ++ hexByte (b 9) ++ lit "-" ++
    hexByte (b 10) ++ hexByte (b 11) ++ hexByte (b 12) ++ hexByte (b 13) ++
    hexByte (b 14) ++ hexByte (b 15)

/-- `Uuid::V4`; `random` are the bytes of `RAND_bytes`, `none` where it fails. -/
def v4 (random : Option Bytes) : StdString :=
  match random with
  | none => []
  | some b =>
      let b := Function.update b 6 ((b 6 &&& 0x0F) ||| 0x40)
      let b := Function.update b 8 ((b 8 &&& 0x3F) ||| 0x80)
      print b

/-- The bytes of an identifier of version 4: the upper half of the seventh byte
is 4, the upper two bits of the ninth are 10. -/
def IsV4 (b : Bytes) : Prop :=
  (b 6).toNat / 16 = 4 ∧ (b 8).toNat / 64 = 2

/-- What becomes of a byte. -/
def stamp (i : Fin 16) (x : UInt8) : UInt8 :=
  if i = 6 then UInt8.ofNat (64 + x.toNat % 16)
  else if i = 8 then UInt8.ofNat (128 + x.toNat % 64)
  else x

theorem stamp_version (x : UInt8) : (x &&& 0x0F) ||| 0x40 = stamp 6 x := by
  have hall : ∀ n : Fin 256, (UInt8.ofNat n &&& 0x0F) ||| 0x40 =
      UInt8.ofNat (64 + n % 16) := by
    decide +kernel
  have hx := hall ⟨x.toNat, x.toNat_lt⟩
  rw [UInt8.ofNat_toNat] at hx
  exact hx

theorem stamp_variant (x : UInt8) : (x &&& 0x3F) ||| 0x80 = stamp 8 x := by
  have hall : ∀ n : Fin 256, (UInt8.ofNat n &&& 0x3F) ||| 0x80 =
      UInt8.ofNat (128 + n % 64) := by
    decide +kernel
  have hx := hall ⟨x.toNat, x.toNat_lt⟩
  rw [UInt8.ofNat_toNat] at hx
  exact hx

theorem v4_some (b : Bytes) : v4 (some b) = print fun i => stamp i (b i) := by
  have hbytes : Function.update (Function.update b 6 ((b 6 &&& 0x0F) ||| 0x40)) 8
      (((Function.update b 6 ((b 6 &&& 0x0F) ||| 0x40)) 8 &&& 0x3F) ||| 0x80) =
        fun i => stamp i (b i) := by
    funext i
    rw [stamp_version, Function.update_of_ne (by decide : (8 : Fin 16) ≠ 6),
      stamp_variant]
    fin_cases i <;> rfl
  rw [← hbytes]
  rfl

def indices : List (Fin 16) :=
  [0, 1, 2, 3, 4, 5, 6, 7, 8, 9, 10, 11, 12, 13, 14, 15]

theorem mem_indices (i : Fin 16) : i ∈ indices := by
  revert i
  decide

/-- A byte with the hyphen that may follow it. -/
def piece (b : Bytes) (i : Fin 16) : StdString :=
  hexByte (b i) ++ if i = 3 ∨ i = 5 ∨ i = 7 ∨ i = 9 then lit "-" else []

theorem print_eq_pieces (b : Bytes) : print b = indices.flatMap (piece b) := by
  unfold print
  simp [indices, piece]

theorem print_inj {b c : Bytes} (heq : print b = print c) : b = c := by
  rw [print_eq_pieces, print_eq_pieces] at heq
  have hpieces := flatMap_inj_of_length (by simp [piece]) heq
  funext i
  exact hexByte_inj (List.append_cancel_right (hpieces i (mem_indices i)))

theorem toNat_stamp_version (x : UInt8) : (stamp 6 x).toNat = 64 + x.toNat % 16 := by
  have hx := Nat.mod_lt x.toNat (by norm_num : 0 < 16)
  exact UInt8.toNat_ofNat_of_lt' (by simp only [UInt8.size]; omega)

theorem toNat_stamp_variant (x : UInt8) : (stamp 8 x).toNat = 128 + x.toNat % 64 := by
  have hx := Nat.mod_lt x.toNat (by norm_num : 0 < 64)
  exact UInt8.toNat_ofNat_of_lt' (by simp only [UInt8.size]; omega)

theorem stamp_of_ne {i : Fin 16} (hversion : i ≠ 6) (hvariant : i ≠ 8) (x : UInt8) :
    stamp i x = x := by
  simp [stamp, hversion, hvariant]

/-- Every text made of random bytes is that of an identifier of version 4. -/
theorem v4_isV4 (b : Bytes) : ∃ u, IsV4 u ∧ v4 (some b) = print u := by
  refine ⟨fun i => stamp i (b i), ⟨?_, ?_⟩, v4_some b⟩
  · rw [toNat_stamp_version]
    omega
  · rw [toNat_stamp_variant]
    omega

/-- Two texts are equal exactly where the bits that are kept agree: all but the
upper half of the seventh byte and the upper two bits of the ninth. -/
theorem v4_eq_iff (b c : Bytes) :
    v4 (some b) = v4 (some c) ↔
      (b 6).toNat % 16 = (c 6).toNat % 16 ∧ (b 8).toNat % 64 = (c 8).toNat % 64 ∧
        ∀ i, i ≠ 6 → i ≠ 8 → b i = c i := by
  rw [v4_some, v4_some]
  constructor
  · intro heq
    have hstamps := congrFun (print_inj heq)
    refine ⟨?_, ?_, fun i hversion hvariant => ?_⟩
    · have hbyte := congrArg UInt8.toNat (hstamps 6)
      rw [toNat_stamp_version, toNat_stamp_version] at hbyte
      omega
    · have hbyte := congrArg UInt8.toNat (hstamps 8)
      rw [toNat_stamp_variant, toNat_stamp_variant] at hbyte
      omega
    · have hbyte := hstamps i
      rwa [stamp_of_ne hversion hvariant, stamp_of_ne hversion hvariant] at hbyte
  · rintro ⟨hversion, hvariant, hothers⟩
    congr 1
    funext i
    by_cases hsix : i = 6
    · subst hsix
      apply UInt8.toNat_inj.mp
      rw [toNat_stamp_version, toNat_stamp_version, hversion]
    · by_cases height : i = 8
      · subst height
        apply UInt8.toNat_inj.mp
        rw [toNat_stamp_variant, toNat_stamp_variant, hvariant]
      · rw [hothers i hsix height]

/-- The bytes that are stamped like `v`, told apart by the bits that are lost. -/
def versionFibre {v : UInt8} (hv : v.toNat / 16 = 4) :
    {x // stamp 6 x = v} ≃ Fin 16 where
  toFun x := ⟨x.1.toNat / 16, by have := x.1.toNat_lt; omega⟩
  invFun k := ⟨UInt8.ofNat (16 * k + v.toNat % 16), by
    have hk := k.2
    apply UInt8.toNat_inj.mp
    rw [toNat_stamp_version,
      UInt8.toNat_ofNat_of_lt' (by simp only [UInt8.size]; omega)]
    omega⟩
  left_inv x := by
    have hx := x.1.toNat_lt
    have hstamped := congrArg UInt8.toNat x.2
    rw [toNat_stamp_version] at hstamped
    apply Subtype.ext
    apply UInt8.toNat_inj.mp
    rw [UInt8.toNat_ofNat_of_lt' (by simp only [UInt8.size]; omega)]
    simp only
    omega
  right_inv k := by
    have hk := k.2
    apply Fin.ext
    simp only
    rw [UInt8.toNat_ofNat_of_lt' (by simp only [UInt8.size]; omega)]
    omega

def variantFibre {v : UInt8} (hv : v.toNat / 64 = 2) :
    {x // stamp 8 x = v} ≃ Fin 4 where
  toFun x := ⟨x.1.toNat / 64, by have := x.1.toNat_lt; omega⟩
  invFun k := ⟨UInt8.ofNat (64 * k + v.toNat % 64), by
    have hk := k.2
    apply UInt8.toNat_inj.mp
    rw [toNat_stamp_variant,
      UInt8.toNat_ofNat_of_lt' (by simp only [UInt8.size]; omega)]
    omega⟩
  left_inv x := by
    have hx := x.1.toNat_lt
    have hstamped := congrArg UInt8.toNat x.2
    rw [toNat_stamp_variant] at hstamped
    apply Subtype.ext
    apply UInt8.toNat_inj.mp
    rw [UInt8.toNat_ofNat_of_lt' (by simp only [UInt8.size]; omega)]
    simp only
    omega
  right_inv k := by
    have hk := k.2
    apply Fin.ext
    simp only
    rw [UInt8.toNat_ofNat_of_lt' (by simp only [UInt8.size]; omega)]
    omega

theorem card_fibre {u : Bytes} (hu : IsV4 u) (i : Fin 16) :
    Nat.card {x // stamp i x = u i} = if i = 6 then 16 else if i = 8 then 4 else 1 := by
  by_cases hsix : i = 6
  · subst hsix
    rw [if_pos rfl, Nat.card_congr (versionFibre hu.1), Nat.card_fin]
  · by_cases height : i = 8
    · subst height
      rw [if_neg hsix, if_pos rfl, Nat.card_congr (variantFibre hu.2), Nat.card_fin]
    · rw [if_neg hsix, if_neg height]
      simp only [stamp_of_ne hsix height]
      exact Nat.card_unique

/-- Each identifier of version 4 is made by 64 of the random byte strings: where
these are equally likely, so are the identifiers. -/
theorem v4_uniform (u : {b : Bytes // IsV4 b}) :
    Nat.card {b // v4 (some b) = print u.1} = 64 := by
  have hfibre : ∀ b : Bytes, v4 (some b) = print u.1 ↔
      ∀ i, stamp i (b i) = u.1 i := by
    intro b
    rw [v4_some]
    exact ⟨fun heq => congrFun (print_inj heq), fun heq => congrArg print (funext heq)⟩
  rw [Nat.card_congr ((Equiv.subtypeEquivRight hfibre).trans
    (Equiv.subtypePiEquivPi (p := fun i x => stamp i x = u.1 i))), Nat.card_pi]
  simp only [card_fibre u.2]
  decide

end Uuid

end FlzChat
