/-
JSON values as jsoncpp holds them, and the part of jsoncpp's interface the
program uses.  The scalar conversions are jsoncpp's own code: they are the
fields of a structure whose laws are the documented conversions.
-/
import FlzChat.StdString
import Mathlib.Data.Rat.Floor

namespace FlzChat

/-- What escapes when jsoncpp refuses a conversion or an access. -/
inductive Thrown where
  | logicError
deriving DecidableEq, Repr

/-- A computation that may throw returns when both of its parts do. -/
theorem bind_eq_ok_iff {α β : Type} {x : Except Thrown α}
    {f : α → Except Thrown β} {b : β} :
    (x >>= f) = .ok b ↔ ∃ a, x = .ok a ∧ f a = .ok b := by
  cases x <;> simp [bind, Except.bind]

/-- A `double` held by a JSON value. -/
inductive Double where
  | finite (q : ℚ)
  | infinite (negative : Bool)
  | nan
deriving DecidableEq

/-- `Json::Value`, one constructor for each `Json::ValueType`. -/
inductive Json where
  | null
  | int (n : Int64)
  | uint (n : UInt64)
  | real (x : Double)
  | str (s : StdString)
  | bool (b : Bool)
  | arr (elems : List Json)
  | obj (members : List (StdString × Json))

namespace Json

def isArray : Json → Bool
  | arr _ => true
  | _ => false

def isObject : Json → Bool
  | obj _ => true
  | _ => false

/-- The values `asString` converts. -/
def Scalar (v : Json) : Prop :=
  v.isArray = false ∧ v.isObject = false

instance (v : Json) : Decidable v.Scalar :=
  inferInstanceAs (Decidable (_ ∧ _))

/-- The number a value stands for: null and booleans count as 0 and 1. -/
def number? : Json → Option ℚ
  | null => some 0
  | int n => some n.toInt
  | uint n => some n.toNat
  | real (.finite q) => some q
  | bool b => some (if b then 1 else 0)
  | _ => none

/-- Conversion of a `double` to an integer drops the fraction. -/
def truncate (q : ℚ) : Int :=
  if 0 ≤ q then ⌊q⌋ else ⌈q⌉

@[simp]
theorem truncate_intCast (n : Int) : truncate (n : ℚ) = n := by
  simp [truncate]

@[simp]
theorem truncate_natCast (n : Nat) : truncate (n : ℚ) = n := by
  simp [truncate]

/-- The integer a value converts to when it lies between `lo` and `hi`. -/
def within (lo hi : Int) (v : Json) : Option Int :=
  v.number?.bind fun q => if lo ≤ q ∧ q ≤ hi then some (truncate q) else none

/-- `isInt64`: an integer, or a `double` without fraction, in range. -/
def isInt64 : Json → Bool
  | int _ => true
  | uint n => n.toNat < 2 ^ 63
  | real (.finite q) => -2 ^ 63 ≤ q && q < 2 ^ 63 && q.isInt
  | _ => false

def isUInt64 : Json → Bool
  | int n => 0 ≤ n.toInt
  | uint _ => true
  | real (.finite q) => 0 ≤ q && q < 2 ^ 64 && q.isInt
  | _ => false

def isInt : Json → Bool
  | int n => -2 ^ 31 ≤ n.toInt && n.toInt < 2 ^ 31
  | uint n => n.toNat < 2 ^ 31
  | real (.finite q) => -2 ^ 31 ≤ q && q < 2 ^ 31 && q.isInt
  | _ => false

/-- `find`: only null and objects can be searched by name. -/
def find (v : Json) (key : StdString) : Except Thrown (Option Json) :=
  match v with
  | null => .ok none
  | obj members => .ok (members.lookup key)
  | _ => .error .logicError

def get (v : Json) (key : StdString) (default : Json) : Except Thrown Json :=
  (v.find key).map (·.getD default)

/-- `operator[]` of a constant value: an absent member reads as null. -/
def member (v : Json) (key : StdString) : Except Thrown Json :=
  v.get key null

def isMember (v : Json) (key : StdString) : Except Thrown Bool :=
  (v.find key).map (·.isSome)

/-- An object built member by member. -/
def object (fields : List (String × Json)) : Json :=
  obj (fields.map fun field => (lit field.1, field.2))

@[simp]
theorem get_obj (members : List (StdString × Json)) (key : StdString)
    (default : Json) :
    (obj members).get key default =
      .ok ((members.lookup key).getD default) := rfl

@[simp]
theorem member_obj (members : List (StdString × Json)) (key : StdString) :
    (obj members).member key = .ok ((members.lookup key).getD null) := rfl

@[simp]
theorem isMember_obj (members : List (StdString × Json)) (key : StdString) :
    (obj members).isMember key = .ok (members.lookup key).isSome := rfl

end Json

/-- The scalar conversions of jsoncpp with their documented behaviour: text
prints every scalar, integers truncate what is in range, and everything else
throws. -/
structure Jsoncpp where
  asString : Json → Except Thrown StdString
  asInt : Json → Except Thrown Int32
  asInt64 : Json → Except Thrown Int64
  asUInt64 : Json → Except Thrown UInt64
  asString_null : asString .null = .ok []
  asString_str : ∀ s, asString (.str s) = .ok s
  asString_bool : ∀ b, asString (.bool b) =
    .ok (lit (if b then "true" else "false"))
  asString_int : ∀ n, asString (.int n) = .ok (decimalInt n.toInt)
  asString_uint : ∀ n, asString (.uint n) = .ok (decimal n.toNat)
  asString_real : ∀ x, ∃ s, s ≠ [] ∧ asString (.real x) = .ok s
  asString_arr : ∀ elems, asString (.arr elems) = .error .logicError
  asString_obj : ∀ members, asString (.obj members) = .error .logicError
  asInt_eq : ∀ v, asInt v =
    ((v.within (-2 ^ 31) (2 ^ 31 - 1)).map Int32.ofInt).elim
      (.error .logicError) .ok
  asInt64_eq : ∀ v, asInt64 v =
    ((v.within (-2 ^ 63) (2 ^ 63 - 1)).map Int64.ofInt).elim
      (.error .logicError) .ok
  asUInt64_eq : ∀ v, asUInt64 v =
    ((v.within 0 (2 ^ 64 - 1)).map fun n => UInt64.ofNat n.toNat).elim
      (.error .logicError) .ok

namespace Jsoncpp

attribute [simp] asString_null asString_str asString_bool asString_int
  asString_uint asString_arr asString_obj

/-- The JSON types a text conversion accepts. -/
theorem exists_asString_iff (J : Jsoncpp) (v : Json) :
    (∃ s, J.asString v = .ok s) ↔ v.Scalar := by
  cases v with
  | real x =>
      obtain ⟨s, _, hs⟩ := J.asString_real x
      simp [hs, Json.Scalar, Json.isArray, Json.isObject]
  | _ => simp [Json.Scalar, Json.isArray, Json.isObject]

theorem exists_asInt_iff (J : Jsoncpp) (v : Json) :
    (∃ n, J.asInt v = .ok n) ↔
      (v.within (-2 ^ 31) (2 ^ 31 - 1)).isSome = true := by
  rw [J.asInt_eq]
  cases v.within (-2 ^ 31) (2 ^ 31 - 1) <;> simp

theorem exists_asInt64_iff (J : Jsoncpp) (v : Json) :
    (∃ n, J.asInt64 v = .ok n) ↔
      (v.within (-2 ^ 63) (2 ^ 63 - 1)).isSome = true := by
  rw [J.asInt64_eq]
  cases v.within (-2 ^ 63) (2 ^ 63 - 1) <;> simp

/-- What stands for a 64-bit integer converts to it. -/
theorem asInt64_of_number (J : Jsoncpp) {v : Json} {n : Int64}
    (hv : v.number? = some (n.toInt : ℚ)) : J.asInt64 v = .ok n := by
  have hwithin : v.within (-2 ^ 63) (2 ^ 63 - 1) = some n.toInt := by
    have hlow := n.le_toInt
    have hhigh := Int.le_sub_one_of_lt n.toInt_lt
    simp only [Json.within, hv, Option.bind_some, Int.cast_le]
    rw [if_pos ⟨hlow, hhigh⟩, Json.truncate_intCast]
  rw [J.asInt64_eq, hwithin, Option.map_some, Int64.ofInt_toInt]
  rfl

/-- So does what stands for a 32-bit integer. -/
theorem asInt_of_number (J : Jsoncpp) {v : Json} {n : Int32}
    (hv : v.number? = some (n.toInt : ℚ)) : J.asInt v = .ok n := by
  have hwithin : v.within (-2 ^ 31) (2 ^ 31 - 1) = some n.toInt := by
    have hlow := n.le_toInt
    have hhigh := Int.le_sub_one_of_lt n.toInt_lt
    simp only [Json.within, hv, Option.bind_some, Int.cast_le]
    rw [if_pos ⟨hlow, hhigh⟩, Json.truncate_intCast]
  rw [J.asInt_eq, hwithin, Option.map_some, Int32.ofInt_toInt]
  rfl

/-- A `Json::Value` made of an `int`. -/
theorem asInt_ofInt (J : Jsoncpp) (n : Int32) :
    J.asInt (.int (Int64.ofInt n.toInt)) = .ok n := by
  have hlow := n.le_toInt
  have hhigh := n.toInt_lt
  have hsame : (Int64.ofInt n.toInt).toInt = n.toInt :=
    Int64.toInt_ofInt_of_le (by omega) (by omega)
  apply J.asInt_of_number
  rw [Json.number?, hsame]

@[simp]
theorem asInt64_int (J : Jsoncpp) (n : Int64) : J.asInt64 (.int n) = .ok n :=
  J.asInt64_of_number rfl

theorem exists_asUInt64_iff (J : Jsoncpp) (v : Json) :
    (∃ n, J.asUInt64 v = .ok n) ↔ (v.within 0 (2 ^ 64 - 1)).isSome = true := by
  rw [J.asUInt64_eq]
  cases v.within 0 (2 ^ 64 - 1) <;> simp

/-- The documented conversions, given the text of a `double`. -/
def documented (realText : Double → StdString)
    (hreal : ∀ x, realText x ≠ []) : Jsoncpp where
  asString
    | .null => .ok []
    | .int n => .ok (decimalInt n.toInt)
    | .uint n => .ok (decimal n.toNat)
    | .real x => .ok (realText x)
    | .str s => .ok s
    | .bool b => .ok (lit (if b then "true" else "false"))
    | .arr _ => .error .logicError
    | .obj _ => .error .logicError
  asInt v := ((v.within (-2 ^ 31) (2 ^ 31 - 1)).map Int32.ofInt).elim
    (.error .logicError) .ok
  asInt64 v := ((v.within (-2 ^ 63) (2 ^ 63 - 1)).map Int64.ofInt).elim
    (.error .logicError) .ok
  asUInt64 v := ((v.within 0 (2 ^ 64 - 1)).map
    fun n => UInt64.ofNat n.toNat).elim (.error .logicError) .ok
  asString_null := rfl
  asString_str _ := rfl
  asString_bool _ := rfl
  asString_int _ := rfl
  asString_uint _ := rfl
  asString_real x := ⟨realText x, hreal x, rfl⟩
  asString_arr _ := rfl
  asString_obj _ := rfl
  asInt_eq _ := rfl
  asInt64_eq _ := rfl
  asUInt64_eq _ := rfl

end Jsoncpp

namespace Json

/-! The program reads a member by name with a default and converts it at once. -/

/-- `v.get(key, "").asString()` -/
def getString (J : Jsoncpp) (v : Json) (key : StdString) :
    Except Thrown StdString :=
  (v.get key (.str [])).bind J.asString

/-- `v.get(key, 0).asInt()` -/
def getInt (J : Jsoncpp) (v : Json) (key : StdString) : Except Thrown Int32 :=
  (v.get key (.int 0)).bind J.asInt

/-- `v.get(key, 0).asInt64()` -/
def getInt64 (J : Jsoncpp) (v : Json) (key : StdString) :
    Except Thrown Int64 :=
  (v.get key (.int 0)).bind J.asInt64

/-- `v.get(key, 0).asUInt64()` -/
def getUInt64 (J : Jsoncpp) (v : Json) (key : StdString) :
    Except Thrown UInt64 :=
  (v.get key (.int 0)).bind J.asUInt64

/-- The member a text conversion reads, absent members being empty. -/
def textMember (members : List (StdString × Json)) (key : StdString) : Json :=
  (members.lookup key).getD (.str [])

/-- The member a number conversion reads, absent members being zero. -/
def numberMember (members : List (StdString × Json)) (key : StdString) : Json :=
  (members.lookup key).getD (.int 0)

@[simp]
theorem getString_obj (J : Jsoncpp) (members : List (StdString × Json))
    (key : StdString) :
    (obj members).getString J key = J.asString (textMember members key) := rfl

@[simp]
theorem getInt_obj (J : Jsoncpp) (members : List (StdString × Json))
    (key : StdString) :
    (obj members).getInt J key = J.asInt (numberMember members key) := rfl

@[simp]
theorem getInt64_obj (J : Jsoncpp) (members : List (StdString × Json))
    (key : StdString) :
    (obj members).getInt64 J key = J.asInt64 (numberMember members key) := rfl

@[simp]
theorem getUInt64_obj (J : Jsoncpp) (members : List (StdString × Json))
    (key : StdString) :
    (obj members).getUInt64 J key = J.asUInt64 (numberMember members key) := rfl

end Json

end FlzChat
