/-
The code around the program: JSON text, base64, HMAC, the request object and
the clocks.  None of it is in the repository, so it enters as a parameter.
-/
import FlzChat.Json

namespace FlzChat

/-- The external functions the program calls.  `fromString` is `none` where
`flz::JsonUtil::FromString` returns false, `hmacSha256` where `HMAC` returns
null; `atoi` reads back what `std::to_string` wrote; `logsInfo` is whether a log
statement of level INFO evaluates what it prints. -/
structure Platform where
  json : Jsoncpp
  fromString : StdString → Option Json
  toString : Json → StdString
  base64encode : StdString → StdString
  base64decode : StdString → StdString
  hmacSha256 : StdString → StdString → Option StdString
  atoi : StdString → UInt64
  atoi_decimal : ∀ n : UInt64, atoi (decimal n.toNat) = n
  logsInfo : Bool

/-- A platform given by what its parser, base64 and HMAC do on the texts of an
example. -/
def Platform.ofTables (parsed : List (StdString × Json))
    (decoded encoded : List (StdString × StdString))
    (macs : List ((StdString × StdString) × StdString)) : Platform where
  json := Jsoncpp.documented (fun _ => lit "0.0") (fun _ => by simp)
  fromString text := parsed.lookup text
  toString := fun _ => []
  base64encode text := (encoded.lookup text).getD []
  base64decode text := (decoded.lookup text).getD []
  hmacSha256 secret text := macs.lookup (secret, text)
  atoi s := UInt64.ofNat (readDecimal s)
  atoi_decimal n := by rw [readDecimal_decimal, UInt64.ofNat_toNat]
  logsInfo := true

/-- A live `WSSession`; the framework never hands out a null one. -/
abbrev SessionId := Nat

/-- An `IOManager`; a null pointer is `none`. -/
abbrev IoManager := Nat

/-- The clock readings one handler call takes. -/
structure Clock where
  nowMs : Int
  time : Int64
  iso8601Now : StdString

/-- The upgrade request kept with a connection: its query parameters and its
headers, to which the servlet adds its own. -/
structure HttpRequest where
  param : StdString → StdString
  header : StdString → StdString

def HttpRequest.setHeader (request : HttpRequest) (key value : StdString) :
    HttpRequest :=
  { request with header := Function.update request.header key value }

@[simp]
theorem HttpRequest.setHeader_header (request : HttpRequest)
    (key value : StdString) :
    (request.setHeader key value).header =
      Function.update request.header key value := rfl

/-- An iteration order of an `unordered_map`: any rearrangement of its
entries. -/
structure IterOrder (α : Type) where
  order : List α → List α
  perm : ∀ entries, (order entries).Perm entries

/-- Iteration in the order the entries are kept. -/
def IterOrder.asKept (α : Type) : IterOrder α :=
  ⟨id, fun _ => List.Perm.refl _⟩

@[simp]
theorem IterOrder.mem_order {α : Type} (o : IterOrder α) (entries : List α)
    (x : α) : x ∈ o.order entries ↔ x ∈ entries :=
  (o.perm entries).mem_iff

end FlzChat
