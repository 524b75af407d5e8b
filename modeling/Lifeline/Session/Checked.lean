import Lifeline.Session

/-!
# Sessions that are checked first

All checks of the fields of a session come first, in a fixed order.  Then values are asked for
their fields, which only an object has.
-/

namespace Lifeline.Session

/-- What can end the reading of a session. -/
inductive Fault where
  | refused (e : RecordError)
  /-- The fields of a value are asked for that is no object. -/
  | noFields

/-- The fields of a value, which must be an object. -/
def watchedFields : Json → Except Fault (List (Text × Json))
  | .obj fields => .ok fields
  | _ => .error .noFields

/-- The theme of a value: the default one for a void value. -/
def watchedTheme (v : Json) : Except Fault Theme :=
  if v.isVoid then .ok Theme.default
  else (watchedFields v).map Theme.ofFields

/-- The values under names, which must all be objects. -/
def watchedObjects : List (Text × Json) → Except Fault (List (Text × List (Text × Json)))
  | [] => .ok []
  | (k, v) :: rest => do
      let fields ← watchedFields v
      let behind ← watchedObjects rest
      .ok ((k, fields) :: behind)

/-- A field, and an empty object in place of a void value. -/
def fieldOrEmpty (fields : List (Text × Json)) (key : Text) : Json :=
  let v := Json.fieldOrNull fields key
  if v.isVoid then .obj [] else v

/-- A value is an object. -/
def isObject (v : Json) : Bool :=
  v.fields?.isSome

/-- The checks of the three fields that must be objects, in order. -/
def checkObjects (theme tooltips participants : Json) : Except Fault Unit :=
  let objects := fun e : Text × Json => isObject e.2
  if !(theme matches .null) && !isObject theme then .error (.refused .themeNotObject)
  else if !isObject tooltips then .error (.refused .tooltipsNotObject)
  else
    match participants.fields? with
    | none => .error (.refused .participantsNotObjects)
    | some entries =>
        if entries.all objects then .ok () else .error (.refused .participantsNotObjects)

/-- The session that fields describe: first all checks, and then each value is
asked for its fields. -/
def watchedSession (fields : List (Text × Json)) : Except Fault Session := do
  let code ← (readCode fields).mapError Fault.refused
  let syntaxMode ← (readMode fields).mapError Fault.refused
  let theme := Json.fieldOrNull fields "colorTheme".toText
  let tooltips := fieldOrEmpty fields "customTooltips".toText
  let participants := fieldOrEmpty fields "customParticipants".toText
  checkObjects theme tooltips participants
  let colours ← watchedTheme theme
  let texts ← watchedFields tooltips
  let entries ← watchedFields participants
  let annotations ← watchedObjects entries
  .ok
    { code
      syntaxMode
      theme := colours
      tooltips := readTexts texts
      participants := (TextMap.ofList annotations).mapValues Annotation.ofFields }

end Lifeline.Session
