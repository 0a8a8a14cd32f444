/-
base64url between byte strings and the parts of a token.  `Encode` and `Decode`
go through padded base64: the one swaps two digits and strips the padding, the
other swaps them back and restores it from the length alone.
-/
import FlzChat.Base64
import FlzChat.Jwt
import Mathlib.Algebra.Order.Floor.Div

namespace FlzChat

namespace Base64Url

/-- `base64encode` is the base64 of RFC 4648 and `base64decode` undoes it. -/
structure Rfc4648 (P : Platform) : Prop where
  encode : P.base64encode = Base64.encode
  decode : ∀ x, P.base64decode (Base64.encode x) = x

variable {P : Platform}

theorem swap_std : ∀ i, (if Base64.std i = 43 then 45
    else if Base64.std i = 47 then 95 else Base64.std i) = Base64.url i := by
  decide

theorem swap_url : ∀ i, (if Base64.url i = 45 then 43
    else if Base64.url i = 95 then 47 else Base64.url i) = Base64.std i := by
  decide

/-- `Encode` writes the URL alphabet without padding. -/
theorem encode_eq (hrfc : Rfc4648 P) (x : StdString) :
    encode P x = Base64.encodeUrl x := by
  have hdigits : ((Base64.sextets x).map Base64.std).map
      (fun b => if b = 43 then 45 else if b = 47 then 95 else b) =
        Base64.encodeUrl x := by
    rw [List.map_map]
    exact List.map_congr_left fun i _ => swap_std i
  have hpadding : ∀ n, (List.replicate n (61 : UInt8)).map
      (fun b => if b = 43 then 45 else if b = 47 then 95 else b) =
        List.replicate n 61 := by
    intro n
    rw [List.map_replicate]
    rfl
  have hkept : (Base64.encodeUrl x).reverse.dropWhile (· = 61) =
      (Base64.encodeUrl x).reverse := by
    apply List.dropWhile_eq_self_iff.mpr
    intro hpositive hpad
    have hmem := List.getElem_mem hpositive
    rw [List.mem_reverse] at hmem
    obtain ⟨i, _, hi⟩ := List.mem_map.mp hmem
    exact Base64.url_ne_pad i (hi.trans (of_decide_eq_true hpad))
  have hstripped : ∀ n, (List.replicate n (61 : UInt8)).dropWhile (· = 61) = [] := by
    intro n
    apply List.dropWhile_eq_nil_iff.mpr
    intro b hb
    exact decide_eq_true (List.eq_of_mem_replicate hb)
  simp only [encode, hrfc.encode, Base64.encode, Base64.pad,
    List.map_append, hdigits, hpadding, List.reverse_append, List.reverse_replicate,
    List.dropWhile_append, hstripped, List.isEmpty_nil, if_true, hkept,
    List.reverse_reverse]

/-- `Decode` restores the padding from the length alone. -/
theorem decode_encodeUrl (hrfc : Rfc4648 P) (x : StdString) :
    decode P (Base64.encodeUrl x) = x := by
  have hdigits : (Base64.encodeUrl x).map
      (fun b => if b = 45 then 43 else if b = 95 then 47 else b) =
        (Base64.sextets x).map Base64.std := by
    rw [Base64.encodeUrl, List.map_map]
    exact List.map_congr_left fun i _ => swap_url i
  simp only [decode, hdigits]
  exact hrfc.decode x

/-- Four digits for three bytes and none for padding, all of the URL alphabet,
and `Decode` gives the bytes back. -/
theorem encode_decodes (hrfc : Rfc4648 P) (x : StdString) :
    (∀ b ∈ encode P x, Base64.isUrlDigit b = true) ∧
      (∀ b ∈ lit ".=+/", b ∉ encode P x) ∧
      (encode P x).length = 4 * x.length ⌈/⌉ 3 ∧
      decode P (encode P x) = x := by
  rw [encode_eq hrfc]
  have hdigits : ∀ b ∈ Base64.encodeUrl x, Base64.isUrlDigit b = true :=
    Base64.isUrlDigit_encodeUrl x
  refine ⟨hdigits, fun b hb hmem => ?_, ?_, decode_encodeUrl hrfc x⟩
  · have hother : ∀ b ∈ lit ".=+/", Base64.isUrlDigit b = false := by
      decide +kernel
    have hboth := (hdigits b hmem).symm.trans (hother b hb)
    exact absurd hboth (by decide)
  · rw [Base64.length_encodeUrl, Nat.ceilDiv_eq_add_pred_div]
    rfl

namespace Base64UrlWitness

def platform : Platform :=
  { Platform.ofTables [] [] [] [] with
    base64encode := Base64.encode
    base64decode := Base64.decode }

/-- Two bytes whose digits need both swaps. -/
theorem encode_decodes_swapped :
    (encode platform [251, 255]).length = 3 ∧
      decode platform (encode platform [251, 255]) = [251, 255] :=
  have hboth := encode_decodes (P := platform) ⟨rfl, Base64.decode_encode⟩
    [251, 255]
  ⟨hboth.2.2.1, hboth.2.2.2⟩

end Base64UrlWitness

end Base64Url

end FlzChat
