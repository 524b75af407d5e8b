import Lifeline.Share.Base64
import Lifeline.Share.Lzw
import Lifeline.Share.Packing

/-!
# Tokens

A text becomes a token of URL characters: its dictionary codes, packed, in base
64.  When the codes cannot be had or cannot be packed the token is the letter
`b` and the UTF-8 octets of the text in base 64.  A text with a surrogate in it
has no token.
-/

namespace Lifeline.Share

/-- The token of integers. -/
def tokenOfNumbers (ns : List Int) : Except EncodeError Text :=
  match Packing.pack ns with
  | .ok bytes => .ok (Base64.encode bytes)
  | .error e => .error e

/-- The integers of a token. -/
def numbersOfToken (token : Text) : Except DecodeError (List Nat) :=
  match Base64.decode token with
  | .ok bytes => Packing.unpack bytes
  | .error e => .error e

/-- The compact token of a text, if it has one. -/
def packedToken (t : Text) : Except EncodeError Text :=
  match Lzw.compress t with
  | .ok codes => tokenOfNumbers (codes.map Int.ofNat)
  | .error e => .error e

/-- The token that any text with UTF-8 has. -/
def fallbackToken? (t : Text) : Option Text :=
  (Utf8.encode? t).map fun bytes => 'b' :: Base64.encode bytes

/-- The token of a text: the compact one, if there is one. -/
def tokenOfText? (t : Text) : Option Text :=
  match packedToken t with
  | .ok token => some token
  | .error _ => fallbackToken? t

/-- Why a text has no compact token. -/
def fallbackReason? (t : Text) : Option EncodeError :=
  match packedToken t with
  | .ok _ => none
  | .error e => some e

/-- The text of a token.  A token that begins with `b` is read as UTF-8. -/
def textOfToken : Text → Except DecodeError Text
  | 'b' :: rest =>
      match Base64.decode rest with
      | .error e => .error e
      | .ok bytes =>
          match Utf8.decode? bytes with
          | some t => .ok t
          | none => .error .notUtf8
  | token =>
      match numbersOfToken token with
      | .error e => .error e
      | .ok ns => Lzw.decompress (ns.map Int.ofNat)

end Lifeline.Share
