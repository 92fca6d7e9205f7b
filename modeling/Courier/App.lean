import Courier.Router
import Courier.Store

/-!
# The application

A greeting that counts visits in a cookie, an echo, and a store of texts under keys.

| route | body | answer |
|---|---|---|
| `GET /` | | a greeting |
| `POST /echo` | anything | the same bytes, of the same type |
| `GET /kv` | | `key=value` for each key, one a line |
| `POST /kv` | `key=value` | 201 for a new key, 200 for a known one |
| `POST /kv/get` | `key` | its text, or 404 |
| `DELETE /kv` | `key` | 200, or 404 |
| `GET /kv/size` | | the number of keys |
| `GET /kv/values` | | the texts in the order of their keys, one a line |
| `POST /kv/clear` | | the number of keys removed |
-/

namespace Courier.App

/-- A text as a response with which all is well. -/
def say (text : String) : Response :=
  .ok (Utf8.encode text)

/-! ## Visits -/

/-- The cookie that counts visits. -/
def visitsCookie : String := "visits"

/-- The visits before this one: none if the count is missing or is none. The count stays within its
range. -/
def previousVisits (cookie : Option Cookie) : Nat :=
  match cookie with
  | none => 0
  | some cookie =>
    match Numeral.unsigned64 cookie.value with
    | .ok n => n
    | .error _ => 0

/-- What a visitor is told. -/
def greeting (visits : Nat) : String :=
  if visits = 1 then "Hello World!\n" else "Hello again, visit " ++ toString visits ++ "\n"

/-- The cookie that tells the next visit of this one. -/
def visitsReminder (visits : Nat) : Except Cookie.Error SetCookie :=
  (Cookie.make visitsCookie (toString visits)).map fun cookie =>
    { cookie, path := some "/", httpOnly := true, sameSite := some .lax }

/-- Greets a visitor. -/
def greet (request : Request) : Except HandlerError Response := do
  let cookie ← (request.cookie? visitsCookie).mapError HandlerError.cookie
  let visits := min (previousVisits cookie + 1) Numeral.maxUnsigned
  let reminder ← (visitsReminder visits).mapError HandlerError.cookie
  return (say (greeting visits)).withCookie reminder

/-- Gives the body back, with the type it came with if that is one. -/
def echo (request : Request) : Response :=
  let mediaType := match request.head.mediaType with
    | .ok mediaType => mediaType
    | .error _ => .octets
  { status := .ok, headers := [(Head.contentTypeHeader, mediaType.text)], body := request.body }

/-! ## Keys -/

/-- Reads a key: what stands between blanks, on one line and without an equals sign. -/
def parseKey (text : String) : Except HandlerError String :=
  let key := Text.trim text
  if key.isEmpty || key.toList.contains '=' || Text.hasLineBreak key then
    .error (.badRequest ("invalid key " ++ Text.quote key))
  else .ok key

/-- The text without the line breaks at its end. -/
def dropLineBreaks (text : String) : String :=
  String.ofList (Text.dropEnd (fun c => c == '\r' || c == '\n') text.toList)

/-- Reads a key and its text: what stands on both sides of the first equals sign. -/
def parseEntry (text : String) : Except HandlerError (String × String) :=
  match Text.splitOnce '=' (dropLineBreaks text) with
  | none => .error (.badRequest "expected key=value")
  | some (key, value) =>
    if Text.hasLineBreak value then .error (.badRequest "value must be a single line")
    else (parseKey key).map fun key => (key, value)

/-- The key that a request names. -/
def requestKey (request : Request) : Except HandlerError String := do
  parseKey (← request.bodyText)

/-- Says that a key is not there. -/
def missingKey (key : String) : Response :=
  .text .notFound (Utf8.encode ("no such key " ++ key ++ "\n"))

/-- One line for each key. -/
def listEntries (store : Store) : Response :=
  say (String.join (store.entries.map fun (key, value) => key ++ "=" ++ value ++ "\n"))

/-- One line for each text. -/
def listValues (store : Store) : Response :=
  say (String.join (store.values.map (· ++ "\n")))

/-- Puts a text under a key. -/
def setEntry : Handler Store := fun request store =>
  match request.bodyText >>= parseEntry with
  | .error error => (.error error, store)
  | .ok (key, value) =>
    let (old, store) := store.set key value
    let status := if old.isSome then .ok else .created
    (.ok (.text status (Utf8.encode ("stored " ++ key ++ "\n"))), store)

/-- Gives the text under a key. -/
def getEntry : Handler Store := fun request store =>
  match requestKey request with
  | .error error => (.error error, store)
  | .ok key =>
    match store.get? key with
    | some value => (.ok (say (value ++ "\n")), store)
    | none => (.ok (missingKey key), store)

/-- Removes a key. -/
def deleteEntry : Handler Store := fun request store =>
  match requestKey request with
  | .error error => (.error error, store)
  | .ok key =>
    match store.delete key with
    | (some _, store) => (.ok (say ("deleted " ++ key ++ "\n")), store)
    | (none, store) => (.ok (missingKey key), store)

/-- Removes every key. -/
def clearEntries : Handler Store := fun _ store =>
  let (count, store) := store.clear
  (.ok (say ("cleared " ++ toString count ++ "\n")), store)

/-- The routes. -/
def handlers : List (Route × Handler Store) :=
  [(⟨.get, "/"⟩, fun request store => (greet request, store)),
    (⟨.post, "/echo"⟩, fun request store => (.ok (echo request), store)),
    (⟨.get, "/kv"⟩, fun _ store => (.ok (listEntries store), store)),
    (⟨.post, "/kv"⟩, setEntry),
    (⟨.post, "/kv/get"⟩, getEntry),
    (⟨.delete, "/kv"⟩, deleteEntry),
    (⟨.get, "/kv/size"⟩, fun _ store => (.ok (say (toString store.size ++ "\n")), store)),
    (⟨.get, "/kv/values"⟩, fun _ store => (.ok (listValues store), store)),
    (⟨.post, "/kv/clear"⟩, clearEntries)]

/-- The router of the application. -/
def router : Router Store :=
  handlers.foldl (fun r (route, handler) => r.add route.method route.path handler) {}

end Courier.App
