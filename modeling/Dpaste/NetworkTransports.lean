import Dpaste.ConcurrentReading
import Dpaste.HttpAnswers

/-!
The transports as `HttpClient` and `Node` make them out of a network: a service that answers
requests with JSON texts, and a DHT. Both store values of any user type under hashes. The
network looks to the processes like stores under the hashes of the location codes.
-/

namespace Dpaste.NetworkTransports

open Dpaste.EffectTraces
open Dpaste.InteractivePrograms
open Dpaste.ConcurrentParties
open Dpaste.LabelledRuns
open Dpaste.AppendOnlyStores
open Dpaste.LibraryInterfaces
open Dpaste.BinOperations
open Dpaste.HttpService
open Dpaste.ClientScripts
open Dpaste.SharedTransports
open Dpaste.ConcurrentClients

/-- A `dht::Value`, with the fields that the program fills in or reads. -/
structure Value where
  data : Blob
  user_type : Text
  deriving DecidableEq

/-- `dht::Where{}.userType(..)`. -/
def Value.hasUserType (type : Text) (v : Value) : Bool := v.user_type == type

namespace Node

/-- The value that `Node::paste` puts. -/
def pastedValue (blob : Blob) : Value := ⟨blob, DPASTE_USER_TYPE⟩

/-- The blobs that the blocking `Node::get` returns, of the values of its future. -/
def transform (values : List Value) : List Blob := values.map (·.data)

end Node

/-- What the service and the DHT were ever given to store, by hash. Whether they still have
it is a matter of their answers. -/
structure Servers where
  service : Store Text Value
  dht : Store Text Value

def Servers.empty : Servers := ⟨fun _ => [], fun _ => []⟩

def Servers.putService (n : Servers) (hash : Text) (v : Value) : Servers :=
  { n with service := deposit n.service hash v }

def Servers.putDht (n : Servers) (hash : Text) (v : Value) : Servers :=
  { n with dht := deposit n.dht hash v }

/-- The blobs of the values that have the user type of the program. -/
def blobs (values : List Value) : List Blob :=
  Node.transform (values.filter (Value.hasUserType DPASTE_USER_TYPE))

/-- What a process can see of the servers. -/
def visible (n : Servers) : Stores Text := ⟨fun k => blobs (n.service k), fun k => blobs (n.dht k)⟩

section Requests

variable (http : HttpLibraries Unit)

/-- An entry of the JSON text for this value. -/
def EntryOf (item : Json) (v : Value) : Prop :=
  ∃ entries, item = .object entries ∧
    entries.lookup base64Key = some (.string (Base64Text.encode v.data))

/-- The body is a JSON text that lists the values, in an array or under their names. -/
inductive Lists (body : Blob) (values : List Value) : Prop
  | array {items : List Json} : http.parse body = .ok (.array items) →
      List.Forall₂ EntryOf items values → Lists body values
  | object {entries : List (Text × Json)} : http.parse body = .ok (.object entries) →
      List.Forall₂ EntryOf (entries.map (·.2)) values → Lists body values

/-- How a request for the values of a user type under a hash may end. If it has to be prompt,
it does not miss values that are stored. -/
inductive Got (prompt : Prop) (n : Servers) (hash type : Text) : Transfer → Prop
  | setupFailed (e : CurlError) : ¬prompt → Got prompt n hash type (.setupFailed e)
  | failed (e : CurlError) :
      (prompt → (n.service hash).filter (Value.hasUserType type) = []) →
      Got prompt n hash type (.failed e)
  | refused {status : Nat} (body : Blob) : status ≠ 200 →
      (prompt → (n.service hash).filter (Value.hasUserType type) = []) →
      Got prompt n hash type (.answered status body)
  | listed {body : Blob} {values : List Value} : Lists http body values →
      values ⊆ (n.service hash).filter (Value.hasUserType type) →
      (prompt → (n.service hash).filter (Value.hasUserType type) ≠ [] → values ≠ []) →
      Got prompt n hash type (.answered 200 body)

/-- How a request to store the value of a form may end. Without the status 200 the value may
be stored or not. -/
inductive Posted (n : Servers) (hash : Text) (form : Form) : Transfer → Servers → Prop
  | setupFailed (e : CurlError) : Posted n hash form (.setupFailed e) n
  | failed (e : CurlError) : Posted n hash form (.failed e) n
  | refused {status : Nat} (body : Blob) : status ≠ 200 →
      Posted n hash form (.answered status body) n
  | stored (transfer : Transfer) :
      Posted n hash form transfer (n.putService hash ⟨form.data, form.user_type⟩)

/-- The calls of a process, as `HttpClient` and `Node` carry them out. -/
inductive Carried (prompt : Prop) (n : Servers) : (q : Call) → q.Reply → Servers → Prop
  | draw (pin : UInt32) : Carried prompt n .draw pin n
  | httpGet {code : Text} {transfer : Transfer} :
      Got http prompt n (http.infoHash code) DPASTE_USER_TYPE transfer →
      Carried prompt n (.httpGet code) (readTransfer http transfer) n
  | httpPut {code : Text} {blob : Blob} {transfer : Transfer} {success : Bool} {n' : Servers} :
      Posted n (http.infoHash code) (HttpClient.formParts blob) transfer n' →
      readReceipt transfer = .ok success → Carried prompt n (.httpPut code blob) success n'
  | nodeGet {code : Text} {values : List Value} :
      values ⊆ (n.dht (http.infoHash code)).filter (Value.hasUserType DPASTE_USER_TYPE) →
      (prompt → (n.dht (http.infoHash code)).filter (Value.hasUserType DPASTE_USER_TYPE) ≠ [] →
        values ≠ []) →
      Carried prompt n (.nodeGet code) (Node.transform values) n
  | nodePaste (code : Text) (blob : Blob) (success : Bool) :
      Carried prompt n (.nodePaste code blob) success
        (n.putDht (http.infoHash code) (Node.pastedValue blob))
  | nodeFailed (code : Text) (blob : Blob) : Carried prompt n (.nodePaste code blob) false n

/-- What others store: a value of any user type, under any hash. -/
inductive Elsewhere (n : Servers) : Option (Text × Blob) → Servers → Prop
  | service (hash : Text) (v : Value) :
      Elsewhere n (if v.hasUserType DPASTE_USER_TYPE then some (hash, v.data) else none)
        (n.putService hash v)
  | dht (hash : Text) (v : Value) :
      Elsewhere n (if v.hasUserType DPASTE_USER_TYPE then some (hash, v.data) else none)
        (n.putDht hash v)

def network (prompt : Prop) : Surroundings Call.Reply (Option (Text × Blob)) Servers where
  answers := Carried http prompt
  drifts := Elsewhere

end Requests

section Views

variable {n : Servers} {hash : Text} {v : Value}

theorem blobs_append (values : List Value) (v : Value) :
    blobs (values ++ [v]) =
      blobs values ++ if v.hasUserType DPASTE_USER_TYPE then [v.data] else [] := by
  unfold blobs
  cases h : v.hasUserType DPASTE_USER_TYPE <;> simp [Node.transform, h]

theorem blobs_deposit (s : Store Text Value) (hash : Text) (v : Value) :
    (fun k => blobs (deposit s hash v k)) =
      if v.hasUserType DPASTE_USER_TYPE then deposit (fun k => blobs (s k)) hash v.data
      else fun k => blobs (s k) := by
  funext k
  rcases eq_or_ne k hash with rfl | hk
  · rw [deposit_self, blobs_append]
    cases v.hasUserType DPASTE_USER_TYPE <;> simp
  · cases v.hasUserType DPASTE_USER_TYPE <;> simp [deposit, hk]

theorem visible_putService :
    visible (n.putService hash v) =
      if v.hasUserType DPASTE_USER_TYPE then (visible n).putHttp hash v.data else visible n := by
  unfold visible Servers.putService
  rw [blobs_deposit]
  cases v.hasUserType DPASTE_USER_TYPE <;> rfl

theorem visible_putDht :
    visible (n.putDht hash v) =
      if v.hasUserType DPASTE_USER_TYPE then (visible n).putDht hash v.data else visible n := by
  unfold visible Servers.putDht
  rw [blobs_deposit]
  cases v.hasUserType DPASTE_USER_TYPE <;> rfl

theorem drifts_visible {change : Option (Text × Blob)} {n' : Servers}
    (h : Elsewhere n change n') : Drifts (visible n) change (visible n') := by
  cases h with
  | service hash v =>
      rw [visible_putService]
      cases v.hasUserType DPASTE_USER_TYPE
      · rfl
      · exact .inl rfl
  | dht hash v =>
      rw [visible_putDht]
      cases v.hasUserType DPASTE_USER_TYPE
      · rfl
      · exact .inr rfl

end Views

section Refinement

variable {http : HttpLibraries Unit} {n n' : Servers}

/-- The first entry of a listing is what `HttpClient::get` decodes. -/
theorem readTransfer_of_lists (hhttp : Documented http) {body : Blob} {values : List Value}
    (h : Lists http body values) :
    readTransfer http (.answered 200 body) = .ok ((Node.transform values).headD []) := by
  have hentry {pr item : Json} {v : Value} (hparse : http.parse body = .ok pr)
      (hfirst : pr.first = some item) (hentry : EntryOf item v) :
      readTransfer http (.answered 200 body) = .ok v.data := by
    obtain ⟨entries, rfl, hlookup⟩ := hentry
    have hvalue : (Json.object entries).subscript base64Key =
        .ok (.string (Base64Text.encode v.data)) := by
      rw [Json.subscript_object, hlookup, Option.getD_some]
    rw [readTransfer_ok http hparse hfirst hvalue, hhttp.decode, hhttp.dump_string,
      HttpAnswers.decode_quote, Base64Text.decode,
      HttpAnswers.letters_flatMap_escape (HttpAnswers.not_control_of_mem_encode v.data)]
    exact congrArg Except.ok (Base64Text.decode_encode v.data)
  cases h with
  | @array items hparse hitems =>
      cases hitems with
      | nil => simp [readTransfer, decodeBody, hparse, Json.first, Node.transform]
      | cons hfirst _ => exact hentry hparse rfl hfirst
  | @object entries hparse hitems =>
      generalize hmap : entries.map (·.2) = items at hitems
      have hfirst : (Json.object entries).first = items.head? := by
        rw [← hmap]
        rfl
      cases hitems with
      | nil =>
          rw [List.head?_nil] at hfirst
          simp [readTransfer, decodeBody, hparse, hfirst, Node.transform]
      | cons hitem _ => exact hentry hparse hfirst hitem

theorem transform_subset {values : List Value} (hash : Text) (s : Store Text Value)
    (h : values ⊆ (s hash).filter (Value.hasUserType DPASTE_USER_TYPE)) :
    ∀ blob ∈ Node.transform values, blob ∈ blobs (s hash) := by
  intro blob hblob
  obtain ⟨v, hv, rfl⟩ := List.mem_map.mp hblob
  exact List.mem_map_of_mem (h hv)

theorem filter_ne_nil {values : List Value} (h : blobs values ≠ []) :
    values.filter (Value.hasUserType DPASTE_USER_TYPE) ≠ [] := by
  intro hnone
  rw [blobs, hnone] at h
  exact h rfl

/-- A get that brings no body with status 200 leaves nothing unseen if it is prompt. -/
theorem answers_of_nothing {prompt : Prop} {code : Text} {transfer : Transfer}
    (hread : readTransfer http transfer = .ok [])
    (hprompt : prompt → (n.service (http.infoHash code)).filter
      (Value.hasUserType DPASTE_USER_TYPE) = []) :
    Answers http.infoHash (visible n) (.httpGet code) (readTransfer http transfer) (visible n) ∧
      (prompt → Finds http.infoHash (visible n) (.httpGet code) (readTransfer http transfer)) := by
  rw [hread]
  refine ⟨.httpGet (.inl rfl), fun h hne => ?_⟩
  exact absurd (hprompt h) (filter_ne_nil hne)

theorem answers_of_got (hhttp : Documented http) {prompt : Prop} {code : Text}
    {transfer : Transfer}
    (h : Got http prompt n (http.infoHash code) DPASTE_USER_TYPE transfer) :
    Answers http.infoHash (visible n) (.httpGet code) (readTransfer http transfer) (visible n) ∧
      (prompt → Finds http.infoHash (visible n) (.httpGet code) (readTransfer http transfer)) := by
  cases h with
  | setupFailed e hprompt =>
      cases e with
      | runtime what => exact ⟨.httpRaised code _, fun h => absurd h hprompt⟩
      | logic what => exact answers_of_nothing rfl fun h => absurd h hprompt
  | failed e hprompt => exact answers_of_nothing rfl hprompt
  | refused body hstatus hprompt => exact answers_of_nothing (if_neg hstatus) hprompt
  | @listed body values hlists hsubset hprompt =>
      rw [readTransfer_of_lists hhttp hlists]
      cases values with
      | nil => exact ⟨.httpGet (.inl rfl), fun h hne => absurd rfl (hprompt h (filter_ne_nil hne))⟩
      | cons v rest =>
          have hmem := transform_subset _ n.service hsubset v.data (by simp [Node.transform])
          exact ⟨.httpGet (.inr hmem), fun _ _ => hmem⟩

theorem answers_of_posted {prompt : Prop} {code : Text} {blob : Blob} {transfer : Transfer}
    {success : Bool}
    (h : Posted n (http.infoHash code) (HttpClient.formParts blob) transfer n')
    (hreceipt : readReceipt transfer = .ok success) :
    Answers http.infoHash (visible n) (.httpPut code blob) success (visible n') ∧
      (prompt → Finds http.infoHash (visible n) (.httpPut code blob) success) := by
  refine ⟨?_, fun _ => trivial⟩
  have hrefused (hfalse : readReceipt transfer = .ok false) :
      Answers http.infoHash (visible n) (.httpPut code blob) success (visible n) := by
    rw [← Except.ok.inj (hfalse.symm.trans hreceipt)]
    exact .httpRefused code blob
  cases h with
  | setupFailed e =>
      cases e with
      | runtime what => cases hreceipt
      | logic what => exact hrefused rfl
  | failed e => exact hrefused rfl
  | refused body hstatus => exact hrefused (by simp [readReceipt, hstatus])
  | stored transfer =>
      rw [visible_putService]
      exact .httpPut code blob success

/-- A form that is answered with status 200 was given to the service to store. -/
theorem Carried.httpPut_inv {prompt : Prop} {code : Text} {blob : Blob}
    (h : Carried http prompt n (.httpPut code blob) true n') :
    n' = n.putService (http.infoHash code) (Node.pastedValue blob) := by
  cases h with
  | httpPut hposted hreceipt =>
      cases hposted with
      | setupFailed e => cases e <;> cases hreceipt
      | failed e => cases hreceipt
      | refused body hstatus => simp [readReceipt, hstatus] at hreceipt
      | stored transfer => rfl

theorem Carried.nodePaste_inv {prompt : Prop} {code : Text} {blob : Blob}
    (h : Carried http prompt n (.nodePaste code blob) true n') :
    n' = n.putDht (http.infoHash code) (Node.pastedValue blob) := by
  cases h
  rfl

/-- A call that `HttpClient` or `Node` carries out is an answer of the stores that are seen. -/
theorem answers_of_carried (hhttp : Documented http) {prompt : Prop} {q : Call}
    {reply : q.Reply} (h : Carried http prompt n q reply n') :
    Answers http.infoHash (visible n) q reply (visible n') ∧
      (prompt → Finds http.infoHash (visible n) q reply) := by
  cases h with
  | draw pin => exact ⟨.draw pin, fun _ => trivial⟩
  | httpGet hgot => exact answers_of_got hhttp hgot
  | httpPut hposted hreceipt => exact answers_of_posted hposted hreceipt
  | @nodeGet code values hsubset hprompt =>
      refine ⟨.nodeGet (transform_subset _ n.dht hsubset), fun h hne hnone => ?_⟩
      exact hprompt h (filter_ne_nil hne) (List.map_eq_nil_iff.mp hnone)
  | nodePaste code blob success =>
      rw [visible_putDht]
      exact ⟨.nodePaste code blob success, fun _ => trivial⟩
  | nodeFailed code blob => exact ⟨.nodeRefused code blob, fun _ => trivial⟩

theorem network_refines (hhttp : Documented http) (prompt : Prop) :
    Refines visible (network http prompt) (transports http.infoHash) where
  answers h := (answers_of_carried hhttp h).1
  drifts h := drifts_visible h

end Refinement

section Sample

/-- A service whose answers list the first value of the program's user type. The JSON text
of the list is written as the bytes of this value. -/
def sampleHttp : HttpLibraries Unit where
  infoHash code := code
  perform _ _ s := (.failed (.runtime []), s)
  parse body :=
    .ok (.array [.object [(base64Key, .string (Base64Text.encode body))]])
  dump := HttpAnswers.writeScalar
  base64Decode := Base64Text.decode

theorem documented_sampleHttp : Documented sampleHttp := ⟨rfl, fun _ => rfl, fun _ => rfl⟩

/-- A network that takes and finds everything, for a process that draws one pin. -/
def sampleAnswer (pin : UInt32) : (q : Call) → Servers → q.Reply × Servers
  | .draw, n => (pin, n)
  | .httpGet code, n => (.ok ((blobs (n.service code)).headD []), n)
  | .httpPut code blob, n => (true, n.putService code (Node.pastedValue blob))
  | .nodeGet code, n => (blobs (n.dht code), n)
  | .nodePaste code blob, n => (true, n.putDht code (Node.pastedValue blob))

theorem sampleAnswer_carried (prompt : Prop) (pin : UInt32) (q : Call) (n : Servers) :
    (network sampleHttp prompt).answers n q (sampleAnswer pin q n).1 (sampleAnswer pin q n).2 := by
  cases q with
  | draw => exact .draw pin
  | httpGet code =>
      show Carried sampleHttp prompt n (.httpGet code) (.ok ((blobs (n.service code)).headD [])) n
      unfold blobs
      cases hvalues : (n.service code).filter (Value.hasUserType DPASTE_USER_TYPE) with
      | nil => exact .httpGet (.failed (.runtime []) fun _ => hvalues)
      | cons v rest =>
          have hlists : Lists sampleHttp v.data [v] := .array rfl (.cons ⟨_, rfl, rfl⟩ .nil)
          have hread := readTransfer_of_lists documented_sampleHttp hlists
          show Carried sampleHttp prompt n (.httpGet code) (.ok ((Node.transform [v]).headD [])) n
          rw [← hread]
          refine .httpGet (.listed hlists ?_ fun _ _ => List.cons_ne_nil v [])
          show [v] ⊆ (n.service code).filter (Value.hasUserType DPASTE_USER_TYPE)
          rw [hvalues]
          simp
  | httpPut code blob => exact .httpPut (.stored (.answered 200 [])) rfl
  | nodeGet code => exact .nodeGet (List.Subset.refl _) fun _ hne => hne
  | nodePaste code blob => exact .nodePaste code blob true

variable {τ ε α : Type} (program : τ → Script ε Exn Call.Reply α)

/-- What one process does alone, from what the one before it has left. -/
def sampleLabels (i : Bool) (task : τ) (n : Servers) :
    List (Label Bool τ ε Exn Call.Reply α (Option (Text × Blob))) :=
  .begins i task :: alone (sampleAnswer 42) i task (program task) n

def sampleNext (task : τ) (n : Servers) : Outcome Servers ε Exn α :=
  (program task).run (sampleAnswer 42) n

def sampleRest (i : Bool) (task : τ) (s : System Bool τ ε Exn Call.Reply α Servers) :
    System Bool τ ε Exn Call.Reply α Servers :=
  s.now i .idle (sampleNext program task s.net).state

theorem sample_run (prompt : Prop) (i : Bool) (task : τ)
    {s : System Bool τ ε Exn Call.Reply α Servers} (hidle : s.parties i = .idle) :
    Run (Step program (network sampleHttp prompt)) s (sampleLabels program i task s.net)
      (sampleRest program i task s) :=
  run_alone (f := id) (sampleAnswer 42) (sampleAnswer_carried prompt 42) task hidle rfl

theorem ends_mem_sample (i : Bool) (task : τ) (n : Servers) :
    .ends i task (sampleNext program task n).result ∈ sampleLabels program i task n :=
  List.mem_cons_of_mem _ (ends_mem_alone (sampleAnswer 42) _ _)

/-- One process, and after it another one. -/
def sampleTrace (first second : τ) :
    List (Label Bool τ ε Exn Call.Reply α (Option (Text × Blob))) :=
  sampleLabels program false first .empty ++
    sampleLabels program true second (sampleNext program first .empty).state

theorem sampleTrace_run (prompt : Prop) (first second : τ) :
    Run (Step program (network sampleHttp prompt)) (System.resting .empty)
      (sampleTrace program first second)
      (sampleRest program true second (sampleRest program false first (System.resting .empty))) :=
  Run.trans (sample_run program prompt false first (s := System.resting .empty) rfl)
    (sample_run program prompt true second
      (s := sampleRest program false first (System.resting .empty)) rfl)

variable {program} {first second : τ} {x : Except Exn α}

theorem second_ends
    (h : (sampleNext program second (sampleNext program first .empty).state).result = x) :
    .ends true second x ∈ sampleTrace program first second := by
  rw [← h]
  exact List.mem_append_right _ (ends_mem_sample program true second _)

theorem mem_sampleTrace {l : Label Bool τ ε Exn Call.Reply α (Option (Text × Blob))}
    (h : l ∈ sampleTrace program first second) :
    l = .begins false first ∨ l = .begins true second ∨ ∃ i task, Continuing i task l := by
  rcases List.mem_append.mp h with h | h
  · rcases List.mem_cons.mp h with rfl | h
    · exact .inl rfl
    · exact .inr (.inr ⟨_, _, continuing_of_mem_alone _ h⟩)
  · rcases List.mem_cons.mp h with rfl | h
    · exact .inr (.inl rfl)
    · exact .inr (.inr ⟨_, _, continuing_of_mem_alone _ h⟩)

end Sample

end Dpaste.NetworkTransports
