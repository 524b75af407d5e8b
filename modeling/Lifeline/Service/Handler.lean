import Lifeline.Mermaid.Outline
import Lifeline.Service.Reply
import Lifeline.Share.Link
import Lifeline.Store.Operations

/-!
# The service

Every route is a function of the clock, the store, the request, and of how writing the
state file ends.  It gives a reply, the store behind it, and lines for the log.  A store
that was changed stays changed when the reply fails afterwards.
-/

namespace Lifeline.Service

/-- What a request leads to. -/
structure Outcome where
  reply : Reply
  store : Store
  log : List Text

/-- A reply that leaves the store alone and logs nothing. -/
def quiet (store : Store) (reply : Reply) : Outcome :=
  ⟨reply, store, []⟩

/-- The reply of a computation that ends early with a reply. -/
def settled : Except Reply Reply → Reply
  | .ok r => r
  | .error r => r

section

variable [Json.Stack]

/-! ## Diagrams -/

/-- Converts a diagram to Mermaid. -/
def convert (body : Bytes) : Reply :=
  settled do
    let fields ← bodyFields body
    let code ← bodyCode fields
    match PlantUml.convertWith (switch fields "strict".toText) code with
    | .ok mermaid => .ok (.ofFields [("mermaid".toText, .str mermaid)])
    | .error e => .ok (.badRequest e.message)

/-- The syntax in the fields of a body; Mermaid when it is missing. -/
def bodyMode (fields : List (Text × Json)) : Except Reply Text :=
  match (lookupEntry "syntaxMode".toText fields).getD (.str mermaidMode) with
  | .str mode =>
      if isKnownMode mode then .ok mode
      else .error (.badRequest ("unknown syntaxMode ".toText ++ Text.quoted mode))
  | v => .error (.badRequest ("unknown syntaxMode ".toText ++ v.shown))

/-- The Mermaid text of a diagram, its outline and the descriptions of its
messages. -/
def parse (body : Bytes) : Reply :=
  settled do
    let fields ← bodyFields body
    let code ← bodyCode fields
    let mode ← bodyMode fields
    match Mermaid.readDiagram (switch fields "strict".toText) mode code with
    | .error e => .ok (.badRequest e.message)
    | .ok (mermaid, outline) =>
        match Mermaid.describeSteps? outline.steps
            (Json.fieldOrNull fields "customTooltips".toText) with
        | none => .ok .failure
        | some steps =>
            .ok (.ofFields (("mermaid".toText, .str mermaid) ::
              (outline.toFields ++ [("steps".toText, .arr steps)])))

/-- A preset with its directive. -/
def presetJson (p : Theme.Preset) : Json :=
  .obj [("name".toText, .str p.name), ("theme".toText, p.theme.toJson),
    ("init".toText, .str p.theme.directive)]

/-- The themes to choose from. -/
def themes : Reply :=
  .ofFields [("default".toText, Theme.default.toJson),
    ("presets".toText, .arr (Theme.presets.map presetJson))]

/-! ## Links and records -/

/-- The line for the log about a text that has no compact token. -/
def fallbackLog (t : Text) : List Text :=
  match Share.fallbackReason? t with
  | some e =>
      ["[share] LZW path failed (".toText ++ e.message ++ "); using base64 fallback".toText]
  | none => []

/-- The line for the log about a token that carries no session. -/
def unreadableLog (token : Text) : List Text :=
  match Share.sessionOfToken token with
  | .ok none => if token.isEmpty then [] else ["[share] Ignoring unreadable share token".toText]
  | _ => []

/-- The base address in the fields of a body. -/
def bodyBase (fields : List (Text × Json)) : Text :=
  match Json.fieldOrNull fields "baseUrl".toText with
  | .null => []
  | v => v.display

/-- Makes a link to a session, with lines for the log. -/
def share (body : Bytes) : Reply × List Text :=
  match bodyFields body with
  | .error r => (r, [])
  | .ok fields =>
      match bodySession fields with
      | .error r => (r, [])
      | .ok session =>
          let compact := switch fields "compact".toText
          let fallback := fallbackLog (Share.payloadText compact session)
          match Share.Link.ofSession? (bodyBase fields) compact session with
          | none => (.failure, fallback)
          | some link =>
              let long :=
                if link.isLong then
                  ["[app] Share URL is ".toText ++ Text.ofNat link.length ++
                    " characters".toText]
                else []
              (.ofJson 200 link.toJson, fallback ++ long)

/-- The session behind a token. -/
def loadShare (token : Text) : Reply :=
  match Share.sessionOfToken token with
  | .ok (some s) => .ofJson 200 s.toJson
  | .ok none => .detail 404 "no data".toText
  | .error _ => .failure

/-- A record of a session to save as a file.  A name that is given and no text
is a failure. -/
def exportRecord (clock : Clock) (body : Bytes) : Reply :=
  settled do
    let fields ← bodyFields body
    let session ← bodySession fields
    let reply (name : Option Text) : Reply :=
      let r := Record.ofSession clock session name
      .ofFile 200 r.toJson (some (Record.fileName r.name))
    match Json.givenField? fields "name".toText with
    | none => .ok (reply none)
    | some (.str name) => .ok (reply (some name))
    | some _ => .ok .failure

/-- The session in a record. -/
def importRecord (body : Bytes) : Reply :=
  match Record.importSource (.octets body) with
  | .ok s => .ofJson 200 s.toJson
  | .error (.session (.refused e)) => .badRequest e.message
  | .error _ => .failure

/-! ## Saved diagrams -/

/-- The reply for what is not there. -/
def notFound : Reply :=
  .detail 404 "Diagram not found".toText

/-- The summaries of the saved diagrams. -/
def listDiagrams (store : Store) : Reply :=
  match store.list? with
  | some summaries => .ofJson 200 (.arr summaries)
  | none => .failure

/-- The outcome of steps on a store, with the reply to what they return. -/
def stepped {α : Type} (steps : Store.Steps α) (store : Store) (reply : α → Reply) : Outcome :=
  match steps store with
  | .ok a next => quiet next (reply a)
  | .error _ next => quiet next .failure

/-- Saves a diagram. -/
def saveDiagram (clock : Clock) (w : Store.Writing) (store : Store) (body : Bytes) : Outcome :=
  match bodyFields body with
  | .error r => quiet store r
  | .ok fields =>
      match Record.ofFields clock.today fields with
      | .error e => quiet store (.badRequest e.message)
      | .ok r => stepped (Store.Steps.put w clock.now r) store (.ofJson 201)

/-- The record of a saved diagram. -/
def getDiagram (clock : Clock) (store : Store) (id : Text) : Outcome :=
  let found := store.get clock.today id
  let reply := match found with
    | .found r => .ofJson 200 r.toJson
    | _ => notFound
  ⟨reply, store, (Store.Lookup.log? id found).toList⟩

/-- Removes a saved diagram. -/
def removeDiagram (w : Store.Writing) (store : Store) (id : Text) : Outcome :=
  stepped (Store.Steps.remove w id) store fun there =>
    if there then .ofFields [("removed".toText, .str id)] else notFound

/-- Removes all saved diagrams. -/
def reset (w : Store.Writing) (store : Store) : Outcome :=
  match Store.Steps.clear w store with
  | .ok count next =>
      ⟨.ofFields [("removed".toText, .int count)], next,
        ["[app] Reset: removed ".toText ++ Text.ofNat count ++ " diagram(s)".toText]⟩
  | .error _ next => quiet next .failure

end

/-! ## Routes -/

/-- What a request asks for. -/
inductive Route where
  | convert
  | parse
  | themes
  | share
  | loadShare (token : Text)
  | exportRecord
  | importRecord
  | listDiagrams
  | saveDiagram
  | getDiagram (id : Text)
  | removeDiagram (id : Text)
  | reset
deriving DecidableEq

/-- The last segment of a path under a directory: nonempty and without a
slash. -/
def segment? (directory path : Text) : Option Text :=
  match Text.after? directory path with
  | some (c :: rest) => if .char '/' ∈ c :: rest then none else some (c :: rest)
  | _ => none

/-- The routes for a path, each with its method.  A line feed at the end of a
path counts only in a segment that stands for a token or an identifier. -/
def routes (path : Text) : List (Text × Route) :=
  let get := "GET".toText
  let post := "POST".toText
  let delete := "DELETE".toText
  let fixed : List (String × Text × Route) :=
    [("/api/convert", post, .convert), ("/api/parse", post, .parse),
      ("/api/themes", get, .themes), ("/api/share", post, .share),
      ("/api/export", post, .exportRecord), ("/api/import", post, .importRecord),
      ("/api/diagrams", get, .listDiagrams), ("/api/diagrams", post, .saveDiagram),
      ("/api/diagrams", delete, .reset)]
  (fixed.filterMap fun (p, method, route) =>
      if Text.line? path = some p.toText then some (method, route) else none) ++
    (match segment? "/api/share/".toText path with
      | some token => [(get, .loadShare token)]
      | none => []) ++
    (match segment? "/api/diagrams/".toText path with
      | some id => [(get, .getDiagram id), (delete, .removeDiagram id)]
      | none => [])

/-- The route of a request. -/
def Route.ofRequest? (r : Request) : Option Route :=
  (routes r.path).findSome? fun (method, route) =>
    if method = r.method then some route else none

section

variable [Json.Stack]

/-- Answers a request on a route. -/
def answerRoute (clock : Clock) (w : Store.Writing) (store : Store) (body : Bytes) :
    Route → Outcome
  | .convert => quiet store (convert body)
  | .parse => quiet store (parse body)
  | .themes => quiet store themes
  | .share =>
      let (reply, log) := share body
      ⟨reply, store, log⟩
  | .loadShare token => ⟨loadShare token, store, unreadableLog token⟩
  | .exportRecord => quiet store (exportRecord clock body)
  | .importRecord => quiet store (importRecord body)
  | .listDiagrams => quiet store (listDiagrams store)
  | .saveDiagram => saveDiagram clock w store body
  | .getDiagram id => getDiagram clock store id
  | .removeDiagram id => removeDiagram w store id
  | .reset => reset w store

/-- Answers a request. -/
def answer (clock : Clock) (w : Store.Writing) (store : Store) (r : Request) : Outcome :=
  match Route.ofRequest? r with
  | some route => answerRoute clock w store r.body route
  | none => quiet store (.detail 404 "Not Found".toText)

end

/-! ## Start and end -/

/-- The lines for the log at the start; `none` when the diagrams cannot be
listed. -/
def startLog? (store : Store) : Option (List Text) :=
  store.list?.map fun summaries =>
    ["[app] Started with ".toText ++ Text.ofNat summaries.length ++ " saved diagram(s)".toText]

/-- The lines for the log at the end, when the store is saved. -/
def endLog : List Text :=
  ["[app] Shutting down…".toText, "[app] Shutdown complete".toText]

end Lifeline.Service
