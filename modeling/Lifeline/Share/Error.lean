import Lifeline.Exception
import Lifeline.Text.Quoted

/-!
# What can go wrong in a share token

Writing fails for texts and integers that the compact form cannot hold, reading
for tokens that were cut or changed.
-/

namespace Lifeline.Share

/-- Why the compact form cannot hold something. -/
inductive EncodeError where
  /-- A phrase begins with no character of the seed. -/
  | outsideSeed (phrase : Text)
  /-- An integer has no packed form. -/
  | outOfRange (n : Int)
deriving DecidableEq

/-- Why a token cannot be read. -/
inductive DecodeError where
  /-- The first code is no character of the seed. -/
  | notSeed (code : Int)
  /-- A code is neither known nor the next one to be learned. -/
  | unknownCode (code : Int)
  /-- A packed integer takes more than three octets. -/
  | integerTooLong
  /-- The octets end inside a packed integer. -/
  | integerCut
  /-- The token is not base64. -/
  | notBase64
  /-- The octets of a fallback token are not UTF-8. -/
  | notUtf8
deriving DecidableEq

/-- The exception that tells of a token that cannot be read. -/
def DecodeError.exception (_ : DecodeError) : ExceptionClass :=
  .decodeError

/-- The wording of an encoding error. -/
def EncodeError.message : EncodeError → Text
  | .outsideSeed phrase =>
      "Character outside the LZW seed alphabet: ".toText ++ Text.quoted phrase
  | .outOfRange n => "Integer out of packable range [0, 2097152): ".toText ++ Text.ofInt n

/-- The wording of a decoding error. -/
def DecodeError.message : DecodeError → Text
  | .notSeed code =>
      "Invalid compressed data: first code ".toText ++ Text.ofInt code ++
        " is not a seed code".toText
  | .unknownCode code => "Invalid compressed data: unknown code ".toText ++ Text.ofInt code
  | .integerTooLong => "Invalid packed data: integer longer than 3 bytes".toText
  | .integerCut => "Invalid packed data: truncated integer".toText
  | .notBase64 => "Invalid base64 data".toText
  | .notUtf8 => "Invalid fallback token".toText

end Lifeline.Share
