import Dpaste.Base64Text
import Dpaste.LibraryInterfaces

/-!
`HttpClient::get`: the request to the HTTP service and the decoding of its answer. What
curlpp, the JSON library and libb64 do is a parameter.
-/

namespace Dpaste.HttpService

open Dpaste.FixedWidthNumerals
open Dpaste.LibraryInterfaces

/-- A parsed JSON text. A number is kept as the text in which it is written out. -/
inductive Json
  | null
  | boolean (b : Bool)
  | number (text : Text)
  | string (s : Text)
  | array (items : List Json)
  | object (entries : List (Text × Json))

namespace Json

/-- `*begin()`, which is the value itself where it is neither array nor object, and nothing
where `empty()` holds. -/
def first : Json → Option Json
  | .null => none
  | .array items => items.head?
  | .object entries => (entries.map (·.2)).head?
  | v => some v

def subscriptText : Text := "cannot use operator[] with a string argument".toList

/-- `operator[]` with a string key. It turns null into an object, and inserts null under a
key that is missing. -/
def subscript (key : Text) : Json → Except Exn Json
  | .null => .ok .null
  | .object entries => .ok ((entries.lookup key).getD .null)
  | _ => .error (.json subscriptText)

end Json

/-- A character of a string in the JSON text that `dump` writes. -/
def escape (c : Char) : Text :=
  if c = '\x22' ∨ c = '\x5c' then ['\x5c', c]
  else if c = '\x08' then ['\x5c', 'b']
  else if c = '\x09' then ['\x5c', 't']
  else if c = '\x0a' then ['\x5c', 'n']
  else if c = '\x0c' then ['\x5c', 'f']
  else if c = '\x0d' then ['\x5c', 'r']
  else if c.toNat < 0x20 then
    '\x5c' :: 'u' :: (numeral 16 4 c.toNat).map Nat.digitChar
  else [c]

def quote (s : Text) : Text := '\x22' :: s.flatMap escape ++ ['\x22']

inductive CurlError
  | runtime (what : Text)
  | logic (what : Text)

/-- The ways in which the exchange with the HTTP service ends: an exception while the
request is set up, an exception of `perform`, or an answer. -/
inductive Transfer
  | setupFailed (e : CurlError)
  | failed (e : CurlError)
  | answered (status : Nat) (body : Blob)

structure HttpLibraries (σ : Type) where
  infoHash : Text → Text
  perform : Int → Text → σ → Transfer × σ
  parse : Blob → Except Text Json
  dump : Json → Text
  base64Decode : Text → Blob

def HTTP_PROTO : Text := "http://".toList

def DPASTE_USER_TYPE : Text := "dpaste".toList

structure HttpClient where
  host : Text
  port : Int

variable {σ : Type} (http : HttpLibraries σ)

def HttpClient.getUrl (client : HttpClient) (code : Text) : Text :=
  HTTP_PROTO ++ client.host ++ "/".toList ++ http.infoHash code ++ "?user_type=".toList ++
    DPASTE_USER_TYPE

def base64Key : Text := "base64".toList

/-- What is written to `oss` for an answer with status 200. -/
def decodeBody (body : Blob) : Except Exn Blob :=
  match http.parse body with
  | .error what => .error (.json what)
  | .ok pr =>
      match pr.first with
      | none => .ok []
      | some entry =>
          match entry.subscript base64Key with
          | .error e => .error e
          | .ok v => .ok (http.base64Decode (http.dump v))

/-- The outer handler catches the logic errors of curlpp, the inner one its runtime errors,
but only after the request has been set up. -/
def readTransfer : Transfer → Except Exn Blob
  | .setupFailed (.logic _) => .ok []
  | .setupFailed (.runtime what) => .error (.library what)
  | .failed _ => .ok []
  | .answered status body => if status = 200 then decodeBody http body else .ok []

def HttpClient.get (client : HttpClient) (code : Text) (s : σ) : Except Exn Blob × σ :=
  let (transfer, s) := http.perform client.port (client.getUrl http code) s
  (readTransfer http transfer, s)

/-- A process whose lookups at the HTTP service are those of `client`. -/
def withClient (env : Env σ) (client : HttpClient) : Env σ :=
  { env with httpGet := client.get http }

/-- What the libraries document: `dump` writes the JSON text of a value, and the decoder of
libb64 takes the letters of its input four at a time and skips what is no letter. -/
structure Documented : Prop where
  dump_null : http.dump .null = "null".toList
  dump_string : ∀ s, http.dump (.string s) = quote s
  decode : ∀ text, http.base64Decode text = Base64Text.decode text

/-- The two parts of the form that `HttpClient::put` posts. -/
structure Form where
  user_type : Text
  data : Blob

def HttpClient.putUrl (client : HttpClient) (code : Text) : Text :=
  HTTP_PROTO ++ client.host ++ "/".toList ++ http.infoHash code

def HttpClient.formParts (data : Blob) : Form := ⟨DPASTE_USER_TYPE, data⟩

/-- The handlers of `HttpClient::put` stand where those of `HttpClient::get` stand. -/
def readReceipt : Transfer → Except Exn Bool
  | .setupFailed (.logic _) => .ok false
  | .setupFailed (.runtime what) => .error (.library what)
  | .failed _ => .ok false
  | .answered status _ => .ok (status == 200)

/-- `perform` on a request with a form is a parameter here. -/
def HttpClient.put (post : Int → Text → Form → σ → Transfer × σ) (client : HttpClient)
    (code : Text) (data : Blob) (s : σ) : Except Exn Bool × σ :=
  let (transfer, s) := post client.port (client.putUrl http code) (formParts data) s
  (readReceipt transfer, s)

theorem Json.subscript_object (key : Text) (entries : List (Text × Json)) :
    (Json.object entries).subscript key = .ok ((entries.lookup key).getD .null) := rfl

theorem readTransfer_ok {body : Blob} {pr entry v : Json} (hparse : http.parse body = .ok pr)
    (hfirst : pr.first = some entry) (hvalue : entry.subscript base64Key = .ok v) :
    readTransfer http (.answered 200 body) = .ok (http.base64Decode (http.dump v)) := by
  simp only [readTransfer, if_pos, decodeBody, hparse, hfirst, hvalue]

end Dpaste.HttpService
