import AdmissionControl.Json.Printer
import AdmissionControl.Service.Route

/-!
# Requests and responses

A response has a status and, if it has one, a JSON body.  A redirect names a location, and a refused
method the methods that are allowed.  A fault becomes a response too, but is raised once more after
that response.

* `Request.loggedPath` is the path as records name it.
* `locationFor` is the address of a redirect, with escapes for what an address may not hold.
-/

namespace AdmissionControl.Service

structure Request where
  method : Text
  path : Text
deriving DecidableEq, Repr

structure Response where
  status : Nat
  body : Option Json.Value
  location : Option Text
  allow : Option Text
  /-- The class of the fault that is raised after the response. -/
  raised : Option Text
deriving Repr

namespace Response

def json (status : Nat) (body : Json.Value) : Response := ⟨status, some body, none, none, none⟩

/-- A response that the routing itself gives. -/
def detail (status : Nat) (text : Text) : Response :=
  json status (.record [("detail", .string text)])

def notFound : Response := detail 404 "Not Found"

def wrongMethod (allowed : List Text) : Response :=
  { detail 405 "Method Not Allowed" with allow := some (Text.joinWith ", " allowed) }

def redirect (location : Text) : Response := ⟨307, none, some location, none, none⟩

/-- The response to a page, whose body is not part of the service. -/
def page : Response := ⟨200, none, none, none, none⟩

def error (status : Nat) (detail : Json.Value) : Response :=
  json status (.record [("error", detail)])

def internalError (f : Fault) : Response :=
  { error 500 (.string "Internal server error") with raised := some f.kind }

end Response

/-! ### Addresses -/

/-- The part of an address before the path. -/
def origin : Text := "http://gate"

def percentEscape (b : UInt8) : Text :=
  ('%' : CodePoint) :: Text.upperAscii (Text.hexPadded 2 b.toNat)

/-- Marks that would end the path of an address or be taken for a slash. -/
def isPathMark (c : CodePoint) : Bool := c = '?' || c = '#' || c = '\\'

/-- A path as it stands in an address: its marks are escaped, all else is as it is. -/
def pathInAddress (path : Text) : Text :=
  path.flatMap fun c => if isPathMark c then (Utf8.encodeOne c).flatMap percentEscape else [c]

/-- A path as it stands in an address, without tabs and line ends. -/
def Request.loggedPath (r : Request) : Text :=
  (pathInAddress r.path).filter fun c : CodePoint => !(c = '\t' || c = '\n' || c = '\r')

def isAddressCharacter (c : CodePoint) : Bool :=
  c.isAsciiDigit || c.isAsciiUpper || c.isAsciiLower ||
  (Text.ofString "_.-~:/%#?=@[]!$&'()*+,;").contains c

/-- An address with every other code point as the escapes of its bytes. -/
def locationFor (path : Text) : Except Fault Text :=
  let address := origin ++ pathInAddress path
  match Utf8.firstSurrogates? address with
  | some e => .error (.unencodable e)
  | none =>
    .ok (address.flatMap fun c =>
      if isAddressCharacter c then [c] else (Utf8.encodeOne c).flatMap percentEscape)

end AdmissionControl.Service
