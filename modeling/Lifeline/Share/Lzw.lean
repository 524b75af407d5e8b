import Lifeline.Share.Error
import Std.Data.HashMap

/-!
# Dictionary compression

The dictionary starts from a seed, the 256 characters up to U+00FF, and learns
one phrase with each code: the phrase just coded and the character behind it.
The decoder learns the same phrases one code later, so a code may refer to the
very phrase that is being learned; this phrase begins and ends with the same
character.
-/

namespace Lifeline.Share.Lzw

/-- The number of phrases that are known from the start. -/
def seedSize : Nat := 256

/-- The hash of a phrase mixes its characters from left to right. -/
instance hashablePhrase : Hashable Text :=
  ⟨fun phrase => phrase.foldl (fun h c => mixHash h c.toNat.toUInt64) 7⟩

/-- The phrases learned while compressing, with their codes. -/
abbrev Codebook := Std.HashMap Text Nat

/-- The code of a phrase: a character of the seed, or a learned phrase. -/
def codeOf? (learned : Codebook) : Text → Option Nat
  | [] => none
  | [c] => if c.toNat < seedSize then some c.toNat else none
  | phrase => learned[phrase]?

/-- Compresses a text behind the phrase `w`, which is still to be coded; `next`
is the code for the next phrase to be learned. -/
def compressFrom (learned : Codebook) (next : Nat) (w : Text) :
    Text → Except EncodeError (List Nat)
  | [] =>
      if w.isEmpty then
        .ok []
      else
        match codeOf? learned w with
        | some k => .ok [k]
        | none => .error (.outsideSeed w)
  | c :: rest =>
      let longer := w ++ [c]
      if (codeOf? learned longer).isSome then
        compressFrom learned next longer rest
      else
        match codeOf? learned w with
        | none => .error (.outsideSeed w)
        | some k =>
            match compressFrom (learned.insert longer next) (next + 1) [c] rest with
            | .ok codes => .ok (k :: codes)
            | .error e => .error e

/-- The codes of a text. -/
def compress (t : Text) : Except EncodeError (List Nat) :=
  compressFrom ∅ seedSize [] t

/-- The phrase of a code, where the learned phrases have the codes behind the
seed in order. -/
def phrase? (learned : Array Text) (code : Int) : Option Text :=
  if code < 0 then none
  else if code < seedSize then some [CodePoint.ofNat code.toNat]
  else learned[code.toNat - seedSize]?

/-- The phrase of a code behind the phrase `w`: a known one, or the one that is
being learned. -/
def nextPhrase? (learned : Array Text) (w : Text) (code : Int) : Option Text :=
  match phrase? learned code with
  | some phrase => some phrase
  | none =>
      if code = (seedSize + learned.size : Nat) then some (w ++ w.take 1) else none

/-- The text of codes behind the phrase `w`. -/
def decompressFrom (learned : Array Text) (w : Text) : List Int → Except DecodeError Text
  | [] => .ok []
  | code :: rest =>
      match nextPhrase? learned w code with
      | none => .error (.unknownCode code)
      | some phrase =>
          match decompressFrom (learned.push (w ++ phrase.take 1)) phrase rest with
          | .ok t => .ok (phrase ++ t)
          | .error e => .error e

/-- The text of codes. -/
def decompress : List Int → Except DecodeError Text
  | [] => .ok []
  | code :: rest =>
      match phrase? #[] code with
      | none => .error (.notSeed code)
      | some phrase =>
          match decompressFrom #[] phrase rest with
          | .ok t => .ok (phrase ++ t)
          | .error e => .error e

end Lifeline.Share.Lzw
