import Lifeline.Share.Host

/-!
# Addresses

An address may begin with a scheme and, behind two slashes, an authority: a user
before the last at sign, then a host and a port.  Square brackets enclose a
numeric host and nothing else.  An authority that breaks this rule is refused,
and so is one that hides a delimiter in a compatibility character.
-/

namespace Lifeline.Share

/-- Why an address is refused. -/
inductive AddressError where
  /-- A square bracket is alone, or something stands between the brackets and
  the delimiters of the host. -/
  | strayBracket
  /-- The host next to square brackets is not numeric. -/
  | notNumeric
  /-- The authority hides a delimiter in a compatibility character. -/
  | hiddenDelimiter
deriving DecidableEq

/-- The wording of an address error, where it has a fixed one. -/
def AddressError.message? : AddressError → Option Text
  | .strayBracket => some "Invalid IPv6 URL".toText
  | .notNumeric => none
  | .hiddenDelimiter => none

/-! ## Parts -/

/-- A character that may stand in a scheme. -/
def isSchemeChar (c : CodePoint) : Bool :=
  c.isAlphanum || c == '+' || c == '-' || c == '.'

/-- The address behind its scheme, if it has one. -/
def dropScheme (t : Text) : Text :=
  match Text.cutAt? ':' t with
  | some (c :: scheme, rest) => if c.isAlpha && scheme.all isSchemeChar then rest else t
  | _ => t

/-- The authority of an address without scheme, empty when there is none, and
the rest. -/
def splitAuthority : Text → Text × Text
  | '/' :: '/' :: rest =>
      let endsHere (c : CodePoint) : Bool := c == '/' || c == '?' || c == '#'
      (rest.takeWhile fun c => !endsHere c, rest.dropWhile fun c => !endsHere c)
  | t => ([], t)

/-- An address as it is read: without spaces and control characters in front,
and without tabs and line ends anywhere. -/
def cleanAddress (t : Text) : Text :=
  (t.dropWhile fun c => c.toNat ≤ 0x20).filter fun c => !(c == '\t' || c == '\r' || c == '\n')

/-! ## Authorities -/

/-- The host and the port of an authority: what stands behind its last at sign,
or all of it. -/
def hostAndPort (authority : Text) : Text :=
  ((Text.splitWhere (· == '@') authority).getLast?).getD []

/-- What is wrong with the brackets around a host, in an authority that has
both.  The brackets may belong to the user alone; then the host in front of the
port has to be numeric without them. -/
def bracketError? (authority : Text) : Option AddressError :=
  let place := hostAndPort authority
  match Text.cutAt? '[' place with
  | none => if isNumericHost (place.takeWhile (· ≠ ':')) then none else some .notNumeric
  | some (_ :: _, _) => some .strayBracket
  | some ([], inside) =>
      let host := inside.takeWhile (· ≠ .char ']')
      match (inside.dropWhile (· ≠ .char ']')).drop 1 with
      | [] => if isNumericHost host then none else some .notNumeric
      | .char ':' :: _ => if isNumericHost host then none else some .notNumeric
      | _ => some .strayBracket

/-- The characters beyond ASCII whose compatibility decomposition contains one
of the delimiters of an address. -/
def delimiterLookalikes : List Nat :=
  [0x2047, 0x2048, 0x2049, 0x2100, 0x2101, 0x2105, 0x2106, 0x2A74, 0xFE13, 0xFE16, 0xFE55,
    0xFE56, 0xFE5F, 0xFE6B, 0xFF03, 0xFF0F, 0xFF1A, 0xFF1F, 0xFF20]

/-- Why an authority is refused, if it is: for its brackets first. -/
def authorityError? (authority : Text) : Option AddressError :=
  let hidden :=
    if authority.any fun c => delimiterLookalikes.contains c.toNat then some .hiddenDelimiter
    else none
  match decide (.char '[' ∈ authority), decide (.char ']' ∈ authority) with
  | false, false => hidden
  | true, true => (bracketError? authority).or hidden
  | _, _ => some .strayBracket

/-! ## Queries -/

/-- The query of an address: what stands behind the first question mark, as
long as this comes before the first number sign. -/
def queryOf (t : Text) : Except AddressError Text :=
  let (authority, rest) := splitAuthority (dropScheme (cleanAddress t))
  match authorityError? authority with
  | some e => .error e
  | none =>
      let path := rest.takeWhile (· ≠ .char '#')
      .ok ((path.dropWhile (· ≠ .char '?')).drop 1)

end Lifeline.Share
