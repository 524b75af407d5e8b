import Lifeline.Share.Address
import Lifeline.Share.Reading

/-!
# Share links

A link is a base address with the token in the query parameter `d`.  Reading
takes a link, a query or a bare token, with white space around it.  Of a link
only the query counts, but a link whose address is refused has none.
-/

namespace Lifeline.Share

/-- A link to a session. -/
structure Link where
  url : Text
  token : Text
deriving DecidableEq

namespace Link

/-- The most characters of a link that raise no warning. -/
def warnLength : Nat := 2000

/-- The link with a token under a base address. -/
def ofToken (base token : Text) : Link :=
  ⟨base ++ "?d=".toText ++ token, token⟩

/-- The link to a session under a base address, if the session has a token. -/
def ofSession? (base : Text) (compact : Bool) (s : Session) : Option Link :=
  (tokenOfSession? compact s).map (ofToken base)

/-- The number of characters of a link. -/
def length (link : Link) : Nat :=
  link.url.length

/-- A link is long enough to break in some places. -/
def isLong (link : Link) : Bool :=
  warnLength < link.length

/-- A link with its measures. -/
def toJson (link : Link) : Json :=
  .obj [("url".toText, .str link.url), ("token".toText, .str link.token),
    ("length".toText, .int link.length), ("tooLong".toText, .bool link.isLong)]

end Link

/-! ## Queries -/

/-- What a percent sign and two hexadecimal digits stand for. -/
def percentOctet? (a b : CodePoint) : Option UInt8 := do
  let high ← Text.hexDigit? a
  let low ← Text.hexDigit? b
  some (UInt8.ofNat (high * 16 + low))

/-- The octets of ASCII text with its percent escapes read.  A percent sign
without two digits stands for itself. -/
def percentOctets : Text → Bytes
  | [] => []
  | '%' :: a :: b :: rest =>
      match percentOctet? a b with
      | some octet => octet :: percentOctets rest
      | none => 0x25 :: percentOctets (a :: b :: rest)
  | c :: rest => UInt8.ofNat c.toNat :: percentOctets rest

/-- Reads percent escapes.  Each run of ASCII characters is read on its own as
UTF-8, the other characters stand for themselves; `run` holds the characters of
the run so far, the last first. -/
def decodePercentFrom (run : Text) : Text → Text
  | [] => Utf8.decodeReplacing (percentOctets run.reverse)
  | c :: rest =>
      if c.toNat < 128 then
        decodePercentFrom (c :: run) rest
      else
        Utf8.decodeReplacing (percentOctets run.reverse) ++ c :: decodePercentFrom [] rest

/-- The text of a name or a value in a query: a plus sign is a space, and
percent escapes are UTF-8. -/
def decodeComponent (t : Text) : Text :=
  decodePercentFrom [] (t.map fun c => if c == .char '+' then .char ' ' else c)

/-- The parameters of a query.  A pair without an equals sign or with nothing
behind it counts for nothing. -/
def parameters (query : Text) : List (Text × Text) :=
  (Text.splitWhere (· == '&') query).filterMap fun pair =>
    match Text.cutAt? '=' pair with
    | some (name, c :: value) => some (decodeComponent name, decodeComponent (c :: value))
    | _ => none

/-- The token in a query: the first parameter `d`. -/
def tokenOfQuery? (query : Text) : Option Text :=
  (parameters query).findSome? fun (name, value) =>
    if name = "d".toText then some value else none

/-- The token in a link, a query or a bare token. -/
def tokenOfLink (value : Text) : Except AddressError (Option Text) :=
  let value := Text.strip value
  if .char '?' ∈ value then
    match queryOf value with
    | .ok query => .ok (tokenOfQuery? query)
    | .error e => .error e
  else if (Text.after? "d=".toText value).isSome then
    .ok (tokenOfQuery? value)
  else if value.isEmpty then
    .ok none
  else
    .ok (some value)

/-- What can end the reading of a link. -/
inductive LinkFault where
  | address (e : AddressError)
  /-- A fault of the token that its reader does not catch. -/
  | token (fault : Fault)

/-- The session behind a link, a query or a bare token. -/
def sessionOfLink [Json.Stack] (value : Text) : Except LinkFault (Option Session) :=
  match tokenOfLink value with
  | .ok (some token) => (sessionOfToken token).mapError LinkFault.token
  | .ok none => .ok none
  | .error e => .error (.address e)

end Lifeline.Share
