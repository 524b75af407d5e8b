import Lifeline.Share.Payload

/-!
# Reading tokens

A token is read in stages: its text, the JSON in the text, the session in the JSON.  A stage
that fails raises an exception.  Most of them count as a token without a session, and the
others get out.

The decoder asks for the first character of each phrase, which an empty phrase does not have.
Here it watches for empty phrases.
-/

namespace Lifeline.Share

/-- What can end the reading of a token. -/
inductive Fault where
  | token (e : DecodeError)
  | json (e : Json.ReadError)
  | payload (e : PayloadError)
  /-- The first character of an empty phrase is asked for. -/
  | emptyPhrase

/-- The exception that tells of a fault. -/
def Fault.exception : Fault → ExceptionClass
  | .token e => e.exception
  | .json e => e.exception
  | .payload e => e.exception
  | .emptyPhrase => .indexError

/-- What the reader of tokens takes for a token without a session. -/
def caughtByReader : List ExceptionClass :=
  [.valueError, .typeError, .attributeError]

/-! ## Decompression that watches for empty phrases -/

namespace Lzw

/-- The phrase of a code behind the phrase `w`, whose first character may be
asked for. -/
def watchedPhrase (learned : Array Text) (w : Text) (code : Int) : Except Fault Text :=
  match phrase? learned code with
  | some phrase => .ok phrase
  | none =>
      if code = (seedSize + learned.size : Nat) then
        match w with
        | [] => .error .emptyPhrase
        | c :: _ => .ok (w ++ [c])
      else
        .error (.token (.unknownCode code))

/-- The text of codes behind the phrase `w`; each code asks for the first
character of its phrase. -/
def watchedDecompressFrom (learned : Array Text) (w : Text) : List Int → Except Fault Text
  | [] => .ok []
  | code :: rest =>
      match watchedPhrase learned w code with
      | .error e => .error e
      | .ok [] => .error .emptyPhrase
      | .ok (c :: phrase) =>
          match watchedDecompressFrom (learned.push (w ++ [c])) (c :: phrase) rest with
          | .ok t => .ok (c :: phrase ++ t)
          | .error e => .error e

/-- The text of codes. -/
def watchedDecompress : List Int → Except Fault Text
  | [] => .ok []
  | code :: rest =>
      match phrase? #[] code with
      | none => .error (.token (.notSeed code))
      | some phrase =>
          match watchedDecompressFrom #[] phrase rest with
          | .ok t => .ok (phrase ++ t)
          | .error e => .error e

end Lzw

/-! ## The stages -/

/-- The text of a token. -/
def watchedText : Text → Except Fault Text
  | 'b' :: rest => (textOfToken ('b' :: rest)).mapError Fault.token
  | token =>
      match numbersOfToken token with
      | .ok ns => Lzw.watchedDecompress (ns.map Int.ofNat)
      | .error e => .error (.token e)

/-- The session that a text carries. -/
def sessionOfText [Json.Stack] (t : Text) : Except Fault Session :=
  match Json.parse t with
  | .error e => .error (.json e)
  | .ok v => (sessionOfPayload v).mapError Fault.payload

/-- The session that a token carries, or the fault that ends its reading. -/
def readToken [Json.Stack] (token : Text) : Except Fault Session :=
  match watchedText token with
  | .error fault => .error fault
  | .ok t => sessionOfText t

/-- The session that a token carries, if it carries one.  A fault that the reader does not
catch gets out. -/
def sessionOfToken [Json.Stack] (token : Text) : Except Fault (Option Session) :=
  if token.isEmpty then
    .ok none
  else
    match readToken token with
    | .ok s => .ok (some s)
    | .error fault =>
        if fault.exception.isCaughtBy caughtByReader then .ok none else .error fault

end Lifeline.Share
