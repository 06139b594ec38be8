import Dpaste.MainProgram
import Dpaste.PacketRoundTrip
import Dpaste.PasteAndGet

/-!
What a get answers, for every code and every answer of the transports: a pair or an
exception, and where the content of the pair comes from.
-/

namespace Dpaste.GetAnswers

open Dpaste.EffectTraces
open Dpaste.LibraryInterfaces
open Dpaste.MessagePackFormat
open Dpaste.MessagePackRoundTrip
open Dpaste.GpgCipher
open Dpaste.CipherSelection
open Dpaste.LocationCodes
open Dpaste.PacketEncoding
open Dpaste.PacketRoundTrip
open Dpaste.BinOperations
open Dpaste.PasteAndGet
open Dpaste.MainProgram

variable {σ : Type} {env : Env σ} {uri code pwd : Text} {raw : Blob} {p : Packet}
  {noDecrypt : Bool} {s : σ}

section Decoding

/-- An object in which no byte vector can be read under a key: it is not a map, or the
first value under the key is neither bin nor str. -/
def Unreadable (object : Object) (key : Text) : Prop :=
  (∀ entries, object ≠ .map entries) ∨
    ∃ entries v, object = .map entries ∧ findEntry (asciiBytes key) entries = some v ∧
      ∀ bytes, v ≠ .bin bytes ∧ v ≠ .str bytes

theorem convert_eq_error_iff {v : Object} {e : Exn} :
    convert v = .error e ↔ e = .typeError ∧ ∀ bytes, v ≠ .bin bytes ∧ v ≠ .str bytes := by
  cases v <;> simp [convert, eq_comm]

theorem readField_map (entries : List (Object × Object)) (key : Text) :
    readField (.map entries) key =
      match findEntry (asciiBytes key) entries with
      | some v => convert v
      | none => .ok [] := rfl

theorem readField_eq_error_iff {object : Object} {key : Text} {e : Exn} :
    readField object key = .error e ↔ e = .typeError ∧ Unreadable object key := by
  cases object with
  | map entries =>
      rw [readField_map]
      cases hfound : findEntry (asciiBytes key) entries with
      | none => simp [Unreadable, hfound]
      | some v => simp [Unreadable, hfound, convert_eq_error_iff]
  | nil | bool _ | integer _ | float32 _ | float64 _ | str _ | bin _ | array _ | ext _ _ =>
      simp [readField, findMapValue, bind, Except.bind, Unreadable, eq_comm]

/-- Reading a packet fails because the buffer does not begin with a complete object, or
because this object is no packet. -/
theorem deserialize_error {q : Packet} {e : Exn} (h : q.deserialize raw = (p, .error e)) :
    e = .typeError ∨ ∃ x, unpack raw = .error x ∧ e = .unpackError x := by
  unfold Packet.deserialize at h
  split at h
  next x hunpack =>
      refine .inr ⟨x, hunpack, ?_⟩
      exact (Except.error.inj (Prod.mk.inj h).2).symm
  next object _ =>
      split at h
      next e' herror =>
          obtain rfl : e' = e := Except.error.inj (Prod.mk.inj h).2
          exact .inl (readField_eq_error_iff.mp herror).1
      next data _ =>
          split at h
          next e' herror =>
              obtain rfl : e' = e := Except.error.inj (Prod.mk.inj h).2
              exact .inl (readField_eq_error_iff.mp herror).1
          next => cases (Prod.mk.inj h).2

theorem readField_eq_ok {object : Object} {key : Text} {bytes : Blob}
    (h : readField object key = .ok bytes) : ¬Unreadable object key := by
  intro hunreadable
  have herror := readField_eq_error_iff.mpr ⟨rfl, hunreadable⟩
  rw [h] at herror
  cases herror

theorem deserialize_of_unreadable {object : Object} (hunpack : unpack raw = .ok object)
    (h : Unreadable object "signature".toList) :
    ∃ p, ({} : Packet).deserialize raw = (p, .error .typeError) := by
  have hsignature : readField object "signature".toList = .error .typeError :=
    readField_eq_error_iff.mpr ⟨rfl, h⟩
  simp only [Packet.deserialize, hunpack, hsignature]
  cases hfield : readField object "data".toList with
  | error e => exact ⟨_, by rw [(readField_eq_error_iff.mp hfield).1]⟩
  | ok data => exact ⟨_, rfl⟩

/-- The bytes begin with a map that has an entry under the key `data`. -/
def HasData (raw : Blob) : Prop :=
  ∃ entries v, unpack raw = .ok (.map entries) ∧
    findEntry (asciiBytes "data".toList) entries = some v

theorem deserialize_of_dataless {object : Object} {signature : Blob} (hdata : ¬HasData raw)
    (hunpack : unpack raw = .ok object)
    (hsignature : readField object "signature".toList = .ok signature) :
    ({} : Packet).deserialize raw = (⟨[], signature⟩, .ok ()) := by
  have hfield : readField object "data".toList = .ok [] := by
    cases object with
    | map entries =>
        cases hfound : findEntry (asciiBytes "data".toList) entries with
        | none => simp only [readField_map, hfound]
        | some v => exact absurd ⟨entries, v, hunpack, hfound⟩ hdata
    | _ => exact absurd (.inl fun _ h => by cases h) (readField_eq_ok hsignature)
  simp only [Packet.deserialize, hunpack, hfield, hsignature]

end Decoding

section Ciphers

/-- The exceptions of ciphers and signature checks. `Bin::get` has handlers for them. -/
def FromCipher : Exn → Prop
  | .gpgme _ _ | .decryptError _ => True
  | _ => False

theorem raises_processCipherText (lib : Libraries) (g : GPG) (cipherText : Blob) :
    Raises FromCipher (g.processCipherText (σ := σ) lib cipherText none) := by
  intro s e h
  rw [processCipherText_apply] at h
  dsimp only at h
  split at h
  · cases h
    trivial
  · cases h
    trivial
  · cases h

theorem processCipherText_eq_ok {lib : Libraries} {g : GPG} {cipherText data : Blob}
    (h : (g.processCipherText lib cipherText none s).result = .ok data) :
    (lib.gpgme.decryptAndVerify cipherText).2 = data := by
  rw [processCipherText_apply] at h
  dsimp only at h
  split at h
  · cases h
  · cases h
  · exact Except.ok.inj h

theorem openPacket_aes_noDecrypt (h : isGPGencrypted env.toLibraries p.data = false)
    (hlen : code.length = AES.PIN_WITH_PASS_LEN) :
    openPacket env code pwd true p s = ⟨s, [.newCipher .AES], .ok p.data⟩ := by
  simp [openPacket, getFromContent_aes env h hlen]

/-- A decryption or a verification to which the library answers with an exception, or with an
error that the program makes into one. -/
def CallFails (lib : Libraries) : Event → Prop
  | .aesDecrypt cipherText password => ∃ e, lib.aesDecrypt cipherText password = .error e
  | .gpgDecryptAndVerify cipherText =>
      (lib.gpgme.decryptAndVerify cipherText).1.1.error ≠ none ∨
        (lib.gpgme.decryptAndVerify cipherText).1.2.error ≠ none
  | .gpgVerify signature => (lib.gpgme.verifyOpaqueSignature signature).1.error ≠ none
  | _ => False

/-- The packets on which the selected cipher fails, or without a cipher the check of the
signature. -/
inductive OpeningFails (lib : Libraries) (code pwd : Text) (p : Packet) : Bool → Prop
  | gpg (htype : isGPGencrypted lib p.data = true)
      (h : CallFails lib (.gpgDecryptAndVerify p.data)) : OpeningFails lib code pwd p false
  | aes (htype : isGPGencrypted lib p.data = false)
      (hlen : code.length = AES.PIN_WITH_PASS_LEN)
      (h : CallFails lib (.aesDecrypt p.data pwd)) : OpeningFails lib code pwd p false
  | signature {noDecrypt : Bool} (htype : isGPGencrypted lib p.data = false)
      (hlen : code.length ≠ AES.PIN_WITH_PASS_LEN) (hsig : p.signature ≠ [])
      (h : CallFails lib (.gpgVerify p.signature)) : OpeningFails lib code pwd p noDecrypt

theorem not_callFails_of_isLookup {lib : Libraries} {e : Event} (h : e.IsLookup) :
    ¬CallFails lib e := by
  cases e <;> simp_all [CallFails, Event.IsLookup]

theorem not_callFails_comments {lib : Libraries} {res : VerificationResult} {e : Event}
    (he : e ∈ comments res) : ¬CallFails lib e := by
  unfold comments at he
  split at he
  · split at he
    · rw [List.mem_singleton.mp he]
      exact id
    · cases he
  · cases he

theorem openPacket_of_openingFails (s : σ)
    (h : OpeningFails env.toLibraries code pwd p noDecrypt) :
    ∃ e, (openPacket env code pwd noDecrypt p s).result = .error e := by
  cases h with
  | gpg htype h =>
      rw [openPacket_pgp env htype, processCipherText_apply]
      dsimp only
      cases hdec : (env.gpgme.decryptAndVerify p.data).1.1.error with
      | some err => exact ⟨_, rfl⟩
      | none =>
          cases hverif : (env.gpgme.decryptAndVerify p.data).1.2.error with
          | some err => exact ⟨_, rfl⟩
          | none => exact absurd h (by simp [CallFails, hdec, hverif])
  | aes htype hlen h =>
      rw [openPacket_aes env htype hlen]
      exact h
  | signature htype hlen hsig h =>
      rw [openPacket_signed env htype hlen hsig]
      obtain ⟨err, herror⟩ := Option.ne_none_iff_exists'.mp h
      simp only [herror]
      exact ⟨_, rfl⟩

theorem decryption_fails_of_call {lib : Libraries} {g : GPG} {cipherText : Blob} {e : Event}
    (he : e ∈ (g.processCipherText lib cipherText none s).events) (hfails : CallFails lib e) :
    CallFails lib (.gpgDecryptAndVerify cipherText) := by
  by_contra hok
  rw [processCipherText_apply] at he
  simp only [CallFails, not_or, not_not] at hok
  simp only [hok, List.mem_cons, List.cons_append, List.nil_append] at he
  rcases he with rfl | rfl | rfl | he
  · exact hfails
  · exact hfails.elim (absurd hok.1) (absurd hok.2)
  · exact hfails
  · exact not_callFails_comments he hfails

theorem verification_fails_of_call (htype : isGPGencrypted env.toLibraries p.data = false)
    (hlen : code.length ≠ AES.PIN_WITH_PASS_LEN) (hsig : p.signature ≠ []) {e : Event}
    (he : e ∈ (openPacket env code pwd noDecrypt p s).events)
    (hfails : CallFails env.toLibraries e) :
    CallFails env.toLibraries (.gpgVerify p.signature) := by
  by_contra hok
  rw [openPacket_signed env htype hlen hsig] at he
  simp only [CallFails, not_not] at hok
  simp only [hok, List.mem_cons, List.cons_append, List.nil_append] at he
  rcases he with rfl | rfl | rfl | rfl | he
  · exact hfails
  · exact hfails
  · exact hfails
  · exact hfails hok
  · exact not_callFails_comments he hfails

/-- Only a failure of the call that the packet leads to shows among the calls. -/
theorem openingFails_of_call (env : Env σ) (code pwd : Text) (noDecrypt : Bool) (p : Packet)
    (s : σ) {e : Event} (he : e ∈ (openPacket env code pwd noDecrypt p s).events)
    (hfails : CallFails env.toLibraries e) :
    OpeningFails env.toLibraries code pwd p noDecrypt := by
  have hnone {scheme : Scheme} (hscheme : e = .newCipher scheme) :
      OpeningFails env.toLibraries code pwd p noDecrypt := by
    rw [hscheme] at hfails
    exact absurd hfails id
  cases hpgp : isGPGencrypted env.toLibraries p.data with
  | true =>
      cases noDecrypt with
      | true =>
          rw [openPacket_pgp_noDecrypt env hpgp] at he
          exact hnone (List.mem_singleton.mp he)
      | false =>
          rw [openPacket_pgp env hpgp] at he
          rcases List.mem_cons.mp he with hscheme | he
          · exact hnone hscheme
          · exact .gpg hpgp (decryption_fails_of_call he hfails)
  | false =>
      by_cases hlen : code.length = AES.PIN_WITH_PASS_LEN
      · cases noDecrypt with
        | true =>
            rw [openPacket_aes_noDecrypt hpgp hlen] at he
            exact hnone (List.mem_singleton.mp he)
        | false =>
            rw [openPacket_aes env hpgp hlen] at he
            simp only [List.mem_cons, List.not_mem_nil, or_false] at he
            rcases he with hscheme | rfl | rfl
            · exact hnone hscheme
            · exact absurd hfails id
            · exact .aes hpgp hlen hfails
      · by_cases hsig : p.signature = []
        · rw [openPacket_plain env hpgp hlen hsig] at he
          exact hnone (List.mem_singleton.mp he)
        · exact .signature hpgp hlen hsig
            (verification_fails_of_call hpgp hlen hsig he hfails)

/-- How opening a packet ends: with its data, with the answer of a cipher on the data, or
with the exception of a signature check. -/
theorem openPacket_cases (env : Env σ) (code pwd : Text) (noDecrypt : Bool) (p : Packet)
    (s : σ) :
    let opened := openPacket env code pwd noDecrypt p s
    opened.result = .ok p.data ∨ opened.result = env.aesDecrypt p.data pwd ∨
      opened.result =
        (GPG.processCipherText env.toLibraries ⟨[], []⟩ p.data none s).result ∨
      ∃ err text, opened.result = .error (.gpgme err text) := by
  intro opened
  have hopened : openPacket env code pwd noDecrypt p s = opened := rfl
  cases hpgp : isGPGencrypted env.toLibraries p.data with
  | true =>
      cases noDecrypt with
      | true =>
          rw [openPacket_pgp_noDecrypt env hpgp] at hopened
          exact .inl (by rw [← hopened])
      | false =>
          rw [openPacket_pgp env hpgp] at hopened
          exact .inr (.inr (.inl (by rw [← hopened])))
  | false =>
      by_cases hlen : code.length = AES.PIN_WITH_PASS_LEN
      · cases noDecrypt with
        | true =>
            rw [openPacket_aes_noDecrypt hpgp hlen] at hopened
            exact .inl (by rw [← hopened])
        | false =>
            rw [openPacket_aes env hpgp hlen] at hopened
            exact .inr (.inl (by rw [← hopened]))
      · by_cases hsig : p.signature = []
        · rw [openPacket_plain env hpgp hlen hsig] at hopened
          exact .inl (by rw [← hopened])
        · rw [openPacket_signed env hpgp hlen hsig] at hopened
          cases herror : (env.gpgme.verifyOpaqueSignature p.signature).1.error with
          | none =>
              simp only [herror] at hopened
              exact .inl (by rw [← hopened])
          | some err =>
              simp only [herror] at hopened
              exact .inr (.inr (.inr ⟨_, _, by rw [← hopened]⟩))

theorem raises_openPacket (env : Env σ) (code pwd : Text) (noDecrypt : Bool) (p : Packet)
    (haes : ∀ c pwd e, env.aesDecrypt c pwd = .error e → ∃ what, e = .decryptError what) :
    Raises FromCipher (openPacket env code pwd noDecrypt p) := by
  intro s e h
  rcases openPacket_cases env code pwd noDecrypt p s with
    hdata | hdecrypt | hprocess | ⟨err, text, herror⟩
  · rw [hdata] at h
    cases h
  · obtain ⟨what, rfl⟩ := haes p.data pwd e (hdecrypt.symm.trans h)
    trivial
  · exact raises_processCipherText env.toLibraries _ p.data s e (hprocess.symm.trans h)
  · rw [herror] at h
    cases h
    trivial

/-- The content of an opened packet is its data, or what a cipher made of the data. -/
theorem openPacket_eq_ok {content : Blob}
    (h : (openPacket env code pwd noDecrypt p s).result = .ok content) :
    content = p.data ∨ env.aesDecrypt p.data pwd = .ok content ∨
      (env.gpgme.decryptAndVerify p.data).2 = content := by
  rcases openPacket_cases env code pwd noDecrypt p s with
    hdata | hdecrypt | hprocess | ⟨err, text, herror⟩
  · rw [hdata] at h
    exact .inl (Except.ok.inj h).symm
  · exact .inr (.inl (hdecrypt.symm.trans h))
  · exact .inr (.inr (processCipherText_eq_ok (hprocess.symm.trans h)))
  · rw [herror] at h
    cases h

end Ciphers

section Lookups

/-- What the node answers after the lookup at the HTTP service. -/
def nodeValues (env : Env σ) (lcode : Text) (s : σ) : List Blob :=
  (env.nodeGet lcode (env.httpGet lcode s).2).1

/-- The bytes with which a get continues after both lookups. -/
def answer (http : Blob) (values : List Blob) : Blob :=
  if http = [] then values.headD [] else http

theorem fetch_of_answers {lcode : Text} {http : Blob}
    (h : (env.httpGet lcode s).1 = .ok http) :
    (fetch env lcode s).result = .ok (answer http (nodeValues env lcode s)) := by
  by_cases hempty : http = []
  · cases hvalues : (env.nodeGet lcode (env.httpGet lcode s).2).1 <;>
    simp [fetch, BinOperations.httpGet, BinOperations.nodeGet, h, hempty, answer, nodeValues,
      hvalues]
  · simp [fetch, BinOperations.httpGet, h, hempty, answer]

theorem fetch_of_no_answer {lcode : Text} (h : (env.httpGet lcode s).1 = .ok []) :
    (fetch env lcode s).events = [.httpGet lcode, .nodeGet lcode] := by
  simp [fetch, BinOperations.httpGet, BinOperations.nodeGet, h]

theorem get_of_short (hcode : codeFromDpasteUri uri = .ok code)
    (hshort : ¬codeOffset ≤ code.length) :
    (get env uri noDecrypt s).result = .error .outOfRange := by
  have hsubstr : substr code codeOffset = .error .outOfRange := if_neg hshort
  unfold codeOffset at hsubstr
  simp only [BinOperations.get, hcode, bind_apply, ofExcept_ok, Outcome.andThen_ok, hsubstr,
    ofExcept_error, Outcome.andThen_error]

theorem get_of_nothing (noDecrypt : Bool) (hcode : codeFromDpasteUri uri = .ok code)
    (hlen : codeOffset ≤ code.length)
    (hfetch : (fetch env (code.take codeOffset) s).result = .ok []) :
    (get env uri noDecrypt s).result = .ok (true, []) := by
  rw [get_of_fetched env noDecrypt hcode hlen hfetch]
  rfl

/-- Bytes that are no packet come back as they are, when reading them raises a type
error. Other exceptions leave `Bin::get`. -/
theorem get_of_undecodable (noDecrypt : Bool) {e : Exn}
    (hcode : codeFromDpasteUri uri = .ok code) (hlen : codeOffset ≤ code.length)
    (hfetch : (fetch env (code.take codeOffset) s).result = .ok raw) (hraw : raw ≠ [])
    (hp : ({} : Packet).deserialize raw = (p, .error e)) :
    (e = .typeError ∧ (get env uri noDecrypt s).result = .ok (true, raw)) ∨
      ∃ x, unpack raw = .error x ∧
        (get env uri noDecrypt s).result = .error (.unpackError x) := by
  have hempty : raw.isEmpty = false := by simpa using hraw
  have hdecode : decodeBlob env code (code.drop codeOffset) noDecrypt raw = raise e := by
    simp only [decodeBlob, hp]
  rw [get_of_fetched env noDecrypt hcode hlen hfetch]
  simp only [afterLookups, hempty, Bool.false_eq_true, if_false, hdecode]
  rcases deserialize_error hp with rfl | ⟨x, hx, rfl⟩
  · exact .inl ⟨rfl, rfl⟩
  · exact .inr ⟨x, hx, rfl⟩

end Lookups

section Answers

theorem catchClauses_of_fromCipher (env : Env σ) (raw : Blob) {e : Exn} (he : FromCipher e) :
    ∃ clause, catchClauses env raw e = some clause ∧
      ∀ s, (clause s).result = .ok (false, []) := by
  cases e with
  | gpgme error text => exact ⟨_, rfl, fun _ => rfl⟩
  | decryptError what => exact ⟨_, rfl, fun _ => rfl⟩
  | _ => exact absurd he id

theorem get_of_cipher_failure {e : Exn} (hcode : codeFromDpasteUri uri = .ok code)
    (hlen : codeOffset ≤ code.length)
    (hfetch : (fetch env (code.take codeOffset) s).result = .ok raw) (hraw : raw ≠ [])
    (hp : ({} : Packet).deserialize raw = (p, .ok ()))
    (herror : (openPacket env code (code.drop codeOffset) noDecrypt p
      (fetch env (code.take codeOffset) s).state).result = .error e) (he : FromCipher e) :
    (get env uri noDecrypt s).result = .ok (false, []) := by
  obtain ⟨clause, hclause, hresult⟩ := catchClauses_of_fromCipher env raw he
  rw [get_of_raised hcode hlen hfetch hraw hp rfl herror hclause]
  exact hresult _

theorem not_callFails_fetch {lcode : Text} {e : Event} (he : e ∈ (fetch env lcode s).events) :
    ¬CallFails env.toLibraries e :=
  not_callFails_of_isLookup ((confined_fetch env (f := fun _ => ()) (fun _ _ => rfl)
    (fun _ _ => rfl) lcode s).2 e he)

/-- The calls of a get that can fail are those with which it opens the packet. -/
theorem openingFails_of_get (hcode : codeFromDpasteUri uri = .ok code)
    (hlen : codeOffset ≤ code.length)
    (hfetch : (fetch env (code.take codeOffset) s).result = .ok raw) (hraw : raw ≠ [])
    (hp : ({} : Packet).deserialize raw = (p, .ok ())) {e : Event}
    (he : e ∈ (get env uri noDecrypt s).events) (hfails : CallFails env.toLibraries e) :
    OpeningFails env.toLibraries code (code.drop codeOffset) p noDecrypt := by
  have hopened : Confined (fun _ : σ => ())
      (fun e => CallFails env.toLibraries e →
        OpeningFails env.toLibraries code (code.drop codeOffset) p noDecrypt)
      (handle (do
          let data ← openPacket env code (code.drop codeOffset) noDecrypt p
          pure (true, data))
        (catchClauses env raw)) :=
    Confined.handle _
      (Confined.bind (fun s => ⟨rfl, fun _ he => openingFails_of_call env _ _ _ p s he⟩)
        fun _ => Confined.pure _)
      fun _ _ hclause => confined_catchClauses env (fun _ h => absurd h id) hclause
  rw [get_of_packet env noDecrypt hcode hlen hfetch hraw hp] at he
  rcases List.mem_append.mp he with he | he
  · exact absurd hfails (not_callFails_fetch he)
  · exact (hopened _).2 e he hfails

/-- A get of a packet answers `(false, "")` when the library fails, and otherwise with a
pair, too. -/
theorem get_of_packet_answers (env : Env σ) (noDecrypt : Bool)
    (haes : ∀ c pwd e, env.aesDecrypt c pwd = .error e → ∃ what, e = .decryptError what)
    (hcode : codeFromDpasteUri uri = .ok code) (hlen : codeOffset ≤ code.length)
    (hfetch : (fetch env (code.take codeOffset) s).result = .ok raw) (hraw : raw ≠ [])
    (hp : ({} : Packet).deserialize raw = (p, .ok ())) :
    (∃ found content, (get env uri noDecrypt s).result = .ok (found, content)) ∧
      (OpeningFails env.toLibraries code (code.drop codeOffset) p noDecrypt →
        (get env uri noDecrypt s).result = .ok (false, [])) := by
  let opened := openPacket env code (code.drop codeOffset) noDecrypt p
    (fetch env (code.take codeOffset) s).state
  have hraised {e : Exn} (herror : opened.result = .error e) :
      (get env uri noDecrypt s).result = .ok (false, []) :=
    get_of_cipher_failure hcode hlen hfetch hraw hp herror
      (raises_openPacket env _ _ _ p haes _ e herror)
  constructor
  · cases hresult : opened.result with
    | ok content =>
        exact ⟨true, content, (get_of_opened hcode hlen hfetch hraw hp rfl hresult).1⟩
    | error e => exact ⟨false, [], hraised hresult⟩
  · intro hfails
    obtain ⟨e, herror⟩ := openPacket_of_openingFails _ hfails
    exact hraised herror

/-- The transports of the samples answer every code alike. -/
def answering (http : Blob) (values : List Blob) : Env Unit where
  toLibraries := sampleLibraries 0
  draw s := (42, s)
  httpGet _ s := (.ok http, s)
  httpPut _ _ s := (true, s)
  nodeGet _ s := (values, s)
  nodePaste _ _ s := (true, s)

/-- A get of nothing or of a packet answers with a pair, and with `(false, "")` when a
decryption or the check of the signature fails, exactly when the code fills the location
code. Otherwise cutting off the password goes out of range. -/
theorem get_answers_iff (env : Env σ) (uri : Text) (noDecrypt : Bool) (s : σ)
    (haes : ∀ c pwd e, env.aesDecrypt c pwd = .error e → ∃ what, e = .decryptError what) :
    ∃ code, codeFromDpasteUri uri = .ok code ∧
      ∀ http, (env.httpGet (code.take codeOffset) s).1 = .ok http →
        let raw := answer http (nodeValues env (code.take codeOffset) s)
        let o := get env uri noDecrypt s
        (raw = [] ∨ ∃ p : Packet, p.serialize = .ok raw) →
        (((∃ found content, o.result = .ok (found, content)) ∧
            (∀ p : Packet, p.serialize = .ok raw →
              OpeningFails env.toLibraries code (code.drop codeOffset) p noDecrypt →
              o.result = .ok (false, [])) ∧
            ∀ e ∈ o.events, CallFails env.toLibraries e → o.result = .ok (false, [])) ↔
          codeOffset ≤ code.length) := by
  obtain ⟨code, hcode⟩ := codeFromDpasteUri_total uri
  refine ⟨code, hcode, ?_⟩
  intro http hhttp raw o hraw
  have hfetch : (fetch env (code.take codeOffset) s).result = .ok raw := fetch_of_answers hhttp
  constructor
  · rintro ⟨⟨found, content, hresult⟩, _⟩
    by_contra hshort
    rw [get_of_short hcode hshort] at hresult
    cases hresult
  · intro hlen
    rcases hraw with hnothing | ⟨p, hp⟩
    · rw [hnothing] at hfetch
      refine ⟨⟨true, [], get_of_nothing _ hcode hlen hfetch⟩, ?_, ?_⟩
      · intro p hp _
        exact absurd hnothing (serialize_ne_nil hp)
      · intro e he hfails
        change e ∈ (get env uri noDecrypt s).events at he
        rw [get_of_fetched env noDecrypt hcode hlen hfetch] at he
        rcases List.mem_append.mp he with he | he
        · exact absurd hfails (not_callFails_fetch he)
        · cases he
    · have hraw := serialize_ne_nil hp
      have hread := deserialize_serialize hp {}
      obtain ⟨hpair, hfailed⟩ :=
        get_of_packet_answers env noDecrypt haes hcode hlen hfetch hraw hread
      refine ⟨hpair, ?_, ?_⟩
      · intro q hq
        obtain rfl : q = p := serialize_injective hq hp
        exact hfailed
      · intro e he hfails
        exact hfailed (openingFails_of_get hcode hlen hfetch hraw hread he hfails)

theorem answering_aes (http : Blob) (values : List Blob) (c : Blob) (pwd : Text) (e : Exn)
    (h : (answering http values).aesDecrypt c pwd = .error e) :
    ∃ what, e = .decryptError what := by
  cases c with
  | nil => exact ⟨_, (Except.error.inj h).symm⟩
  | cons b c => cases h

/-- The service has a packet without data under a code with a password. -/
theorem get_answers_sample :
    (get (answering (encode (packetObject {})) []) "dpaste:0000002A0000002B".toList false
      ()).result = .ok (false, []) := by
  obtain ⟨code, hcode, h⟩ := get_answers_iff (answering (encode (packetObject {})) [])
    "dpaste:0000002A0000002B".toList false () (answering_aes _ _)
  obtain rfl : "0000002A0000002B".toList = code := Except.ok.inj hcode
  have hp : ({} : Packet).serialize = .ok (encode (packetObject {})) :=
    serialize_eq_encode ⟨by decide, by decide⟩
  have hanswers := (h _ rfl (.inr ⟨{}, hp⟩)).mpr (by decide)
  exact hanswers.2.1 {} hp (.aes rfl rfl ⟨_, rfl⟩)

/-- A code of four characters is too short to be cut. -/
theorem get_answers_counterexample :
    (get (answering [] []) "dpaste:1234".toList false ()).result = .error .outOfRange ∧
      ¬∃ found content,
        (get (answering [] []) "dpaste:1234".toList false ()).result =
          .ok (found, content) := by
  have hresult : (get (answering [] []) "dpaste:1234".toList false ()).result =
      .error .outOfRange := rfl
  refine ⟨hresult, ?_⟩
  rintro ⟨found, content, h⟩
  rw [hresult] at h
  cases h

end Answers

section OldVersions

/-- Without the field `data` a packet has nothing but a signature, and its content is
empty. -/
theorem get_of_dataless (noDecrypt : Bool) (hcode : codeFromDpasteUri uri = .ok code)
    (hlen : code.length = codeOffset) (htype : isGPGencrypted env.toLibraries [] = false)
    (hfetch : (fetch env (code.take codeOffset) s).result = .ok raw) (hraw : raw ≠ [])
    (hp : ({} : Packet).deserialize raw = (p, .ok ())) (hdata : p.data = []) :
    ∃ found, (get env uri noDecrypt s).result = .ok (found, []) := by
  rw [← hdata] at htype
  have hpin : code.length ≠ AES.PIN_WITH_PASS_LEN := by
    rw [hlen]
    decide
  by_cases hsig : p.signature = []
  · have hresult : (get env uri noDecrypt s).result = .ok (true, p.data) :=
      (get_of_opened hcode hlen.ge hfetch hraw hp (openPacket_plain env htype hpin hsig _)
        rfl).1
    exact ⟨true, by rw [hresult, hdata]⟩
  · have hopen : openPacket env code (code.drop codeOffset) noDecrypt p
        (fetch env (code.take codeOffset) s).state = _ :=
      openPacket_signed env htype hpin hsig _
    cases herror : (env.gpgme.verifyOpaqueSignature p.signature).1.error with
    | none =>
        simp only [herror] at hopen
        exact ⟨true, by rw [(get_of_opened hcode hlen.ge hfetch hraw hp hopen rfl).1, hdata]⟩
    | some err =>
        simp only [herror] at hopen
        refine ⟨false, ?_⟩
        exact get_of_cipher_failure hcode hlen.ge hfetch hraw hp
          (congrArg Outcome.result hopen) trivial

/-- A blob of an old version, which is no packet, comes back unchanged exactly when it
begins with a complete MessagePack object in which no signature can be read. -/
theorem old_version_iff (env : Env σ) (uri code : Text) (http raw : Blob) (noDecrypt : Bool)
    (s : σ) (hcode : codeFromDpasteUri uri = .ok code) (hlen : code.length = codeOffset)
    (htype : isGPGencrypted env.toLibraries [] = false)
    (hhttp : (env.httpGet code s).1 = .ok http)
    (hanswer : answer http (nodeValues env code s) = raw) (hraw : raw ≠ [])
    (hdata : ¬HasData raw) :
    (get env uri noDecrypt s).result = .ok (true, raw) ↔
      ∃ object, unpack raw = .ok object ∧ Unreadable object "signature".toList := by
  have htake : code.take codeOffset = code := List.take_of_length_le hlen.le
  have hfetch : (fetch env (code.take codeOffset) s).result = .ok raw := by
    rw [htake, fetch_of_answers hhttp, hanswer]
  cases hunpack : unpack raw with
  | error x =>
      have hp : ({} : Packet).deserialize raw = ({}, .error (.unpackError x)) := by
        simp only [Packet.deserialize, hunpack]
      refine iff_of_false ?_ ?_
      · intro h
        rcases get_of_undecodable noDecrypt hcode hlen.ge hfetch hraw hp with
          ⟨herror, _⟩ | ⟨_, _, hresult⟩
        · cases herror
        · rw [hresult] at h
          cases h
      · rintro ⟨object, hobject, _⟩
        cases hobject
  | ok object =>
      cases hsignature : readField object "signature".toList with
      | error e =>
          have hunreadable := (readField_eq_error_iff.mp hsignature).2
          obtain ⟨p, hp⟩ := deserialize_of_unreadable hunpack hunreadable
          refine iff_of_true ?_ ⟨object, rfl, hunreadable⟩
          rcases get_of_undecodable noDecrypt hcode hlen.ge hfetch hraw hp with
            ⟨_, hresult⟩ | ⟨x, hx, _⟩
          · exact hresult
          · rw [hunpack] at hx
            cases hx
      | ok signature =>
          have hp := deserialize_of_dataless hdata hunpack hsignature
          refine iff_of_false ?_ ?_
          · obtain ⟨found, hresult⟩ := get_of_dataless noDecrypt hcode hlen htype hfetch hraw
              hp rfl
            rw [hresult]
            intro h
            exact hraw (Prod.mk.inj (Except.ok.inj h)).2.symm
          · rintro ⟨_, hobject, hunreadable⟩
            obtain rfl := Except.ok.inj hobject
            exact readField_eq_ok hsignature hunreadable

theorem old_version_sample :
    (get (answering [] [[0x64, 0x0A]]) "dpaste:0000002A".toList false ()).result =
      .ok (true, [0x64, 0x0A]) := by
  -- the byte 64 is a complete MessagePack integer
  refine (old_version_iff (answering [] [[0x64, 0x0A]]) "dpaste:0000002A".toList
    "0000002A".toList [] [0x64, 0x0A] false () (codeFromDpasteUri_append _) rfl rfl rfl rfl
    (List.cons_ne_nil _ _) ?_).mpr ⟨.integer 0x64, rfl, .inl fun _ h => by cases h⟩
  rintro ⟨entries, v, hunpack, _⟩
  have hobject : unpack [0x64, 0x0A] = .ok (.integer 0x64) := rfl
  rw [hobject] at hunpack
  cases hunpack

/-- The reserved byte raises an exception without a handler, and an empty map is taken for
a packet. -/
theorem old_version_counterexample :
    (get (answering [] [[0xc1]]) "dpaste:0000002A".toList false ()).result =
        .error (.unpackError .parseError) ∧
      (get (answering [] [[0x80]]) "dpaste:0000002A".toList false ()).result =
        .ok (true, []) ∧
      ¬HasData [0xc1] ∧ ¬HasData [0x80] := by
  refine ⟨rfl, rfl, ?_, ?_⟩
  · rintro ⟨entries, v, hunpack, _⟩
    have hreserved : unpack [0xc1] = .error .parseError := rfl
    rw [hreserved] at hunpack
    cases hunpack
  · rintro ⟨entries, v, hunpack, hfound⟩
    have hempty : unpack [0x80] = .ok (.map []) := rfl
    rw [hempty] at hunpack
    cases hunpack
    cases hfound

end OldVersions

section Success

/-- The content of a get in terms of the value that a transport held: the value itself,
the data of the packet that it encodes, or what a cipher made of the data. -/
inductive FormOf (lib : Libraries) (pwd : Text) (value : Blob) : Blob → Prop
  | raw : FormOf lib pwd value value
  | decoded {p : Packet} (hp : ({} : Packet).deserialize value = (p, .ok ())) :
      FormOf lib pwd value p.data
  | aes {p : Packet} {content : Blob} (hp : ({} : Packet).deserialize value = (p, .ok ()))
      (hdecrypt : lib.aesDecrypt p.data pwd = .ok content) : FormOf lib pwd value content
  | gpg {p : Packet} (hp : ({} : Packet).deserialize value = (p, .ok ())) :
      FormOf lib pwd value (lib.gpgme.decryptAndVerify p.data).2

/-- The value that a get takes from the answers of both lookups. -/
def Found (http : Blob) (values : List Blob) (value : Blob) : Prop :=
  http ≠ [] ∧ value = http ∨ http = [] ∧ values.head? = some value

theorem found_answer {http : Blob} {values : List Blob} (h : http ≠ [] ∨ values ≠ []) :
    Found http values (answer http values) := by
  by_cases hempty : http = []
  · cases values with
    | nil => exact absurd (h.resolve_left (not_not_intro hempty)) (not_not_intro rfl)
    | cons v values => exact .inr ⟨hempty, by simp [answer, hempty]⟩
  · exact .inl ⟨hempty, by simp [answer, hempty]⟩

theorem catchClauses_result {e : Exn} {clause : Code σ (Bool × Blob)}
    (h : catchClauses env raw e = some clause) (s : σ) :
    (clause s).result = .ok (false, []) ∨ (clause s).result = .ok (true, raw) := by
  unfold catchClauses at h
  split at h
  · exact .inl (by rw [← Option.some.inj h]; rfl)
  · exact .inl (by rw [← Option.some.inj h]; rfl)
  · exact .inr (by rw [← Option.some.inj h]; rfl)
  · cases h

theorem formOf_of_get {content : Blob} (hcode : codeFromDpasteUri uri = .ok code)
    (hlen : codeOffset ≤ code.length)
    (hfetch : (fetch env (code.take codeOffset) s).result = .ok raw)
    (h : (get env uri noDecrypt s).result = .ok (true, content)) :
    FormOf env.toLibraries (code.drop codeOffset) raw content := by
  by_cases hraw : raw = []
  · rw [hraw] at hfetch ⊢
    rw [get_of_nothing _ hcode hlen hfetch] at h
    cases h
    exact .raw
  · obtain ⟨p, hp⟩ : ∃ p, ({} : Packet).deserialize raw = p := ⟨_, rfl⟩
    obtain ⟨p, _ | _⟩ := p
    · rcases get_of_undecodable _ hcode hlen hfetch hraw hp with
        ⟨_, hresult⟩ | ⟨_, _, hresult⟩
      · rw [hresult] at h
        cases h
        exact .raw
      · rw [hresult] at h
        cases h
    · cases hopen : (openPacket env code (code.drop codeOffset) noDecrypt p
          (fetch env (code.take codeOffset) s).state).result with
      | ok data =>
          rw [(get_of_opened hcode hlen hfetch hraw hp rfl hopen).1] at h
          cases h
          rcases openPacket_eq_ok hopen with rfl | hdecrypt | rfl
          · exact .decoded hp
          · exact .aes hp hdecrypt
          · exact .gpg hp
      | error e =>
          cases hclause : catchClauses env raw e with
          | none =>
              rw [get_of_packet env noDecrypt hcode hlen hfetch hraw hp] at h
              simp only [handle, bind_apply, Outcome.andThen_of_error hopen, hclause] at h
              cases h
          | some clause =>
              rw [get_of_raised hcode hlen hfetch hraw hp rfl hopen hclause] at h
              rcases catchClauses_result hclause _ with hresult | hresult
              · rw [hresult] at h
                cases h
              · rw [hresult] at h
                cases h
                exact .raw

/-- The success of a get means that one of the transports held the value from which the
content was made, and a code without a value makes `main` exit with 1, exactly when there
is a value. -/
theorem success_iff_found (env : Env σ) (uri code : Text) (http : Blob) (noDecrypt : Bool)
    (s : σ) (hcode : codeFromDpasteUri uri = .ok code) (hlen : codeOffset ≤ code.length)
    (hhttp : (env.httpGet (code.take codeOffset) s).1 = .ok http) :
    let values := nodeValues env (code.take codeOffset) s
    ((∀ content, (get env uri noDecrypt s).result = .ok (true, content) →
        ∃ value, Found http values value ∧
          FormOf env.toLibraries (code.drop codeOffset) value content) ∧
      (http = [] ∧ values = [] →
        (get env uri noDecrypt s).result = .ok (false, []) ∧
          (getCommand env uri noDecrypt s).result = .ok ([], 1))) ↔
      http ≠ [] ∨ values ≠ [] := by
  intro values
  have hfetch := fetch_of_answers hhttp
  constructor
  · rintro ⟨_, hnothing⟩
    by_contra hnone
    simp only [not_or, not_not] at hnone
    have hempty : answer http values = [] := by simp [answer, hnone]
    change (fetch env (code.take codeOffset) s).result = .ok (answer http values) at hfetch
    rw [hempty] at hfetch
    have hresult := (hnothing hnone).1
    rw [get_of_nothing _ hcode hlen hfetch] at hresult
    cases hresult
  · intro hfound
    constructor
    · intro content hresult
      exact ⟨_, found_answer hfound, formOf_of_get hcode hlen hfetch hresult⟩
    · rintro ⟨hempty, hnone⟩
      rcases hfound with hfound | hfound
      · exact absurd hempty hfound
      · exact absurd hnone hfound

theorem success_iff_found_sample :
    ∃ value, Found [] [[0x64, 0x0A]] value ∧
      FormOf (sampleLibraries 0) [] value [0x64, 0x0A] := by
  have hcode : codeFromDpasteUri "dpaste:0000002A".toList = .ok "0000002A".toList :=
    codeFromDpasteUri_append _
  exact ((success_iff_found (answering [] [[0x64, 0x0A]]) _ _ [] false () hcode
    (by decide) rfl).mpr (.inr (List.cons_ne_nil _ _))).1 [0x64, 0x0A] rfl

/-- A code under which nothing is stored gives a success, and the exit code 0. -/
theorem success_iff_found_counterexample :
    (get (answering [] []) "dpaste:0000002A".toList false ()).result = .ok (true, []) ∧
      (getCommand (answering [] []) "dpaste:0000002A".toList false ()).result =
        .ok ([], 0) :=
  ⟨rfl, rfl⟩

end Success

section Truncation

/-- A transport that answers with a part of a packet never makes `Bin::get` return: neither
with a part of the data, nor with the bytes as they are. The exception leaves it, because no
clause catches it. -/
theorem get_of_truncated {bytes part : Blob} (env : Env σ) (uri code : Text) (noDecrypt : Bool)
    (s : σ) (hcode : codeFromDpasteUri uri = .ok code) (hlen : codeOffset ≤ code.length)
    (h : p.serialize = .ok bytes) (hpart : part <+: bytes) (hne : part ≠ bytes)
    (hpresent : part ≠ [])
    (hfetch : (fetch env (code.take codeOffset) s).result = .ok part) :
    (get env uri noDecrypt s).result = .error (.unpackError .insufficientBytes) ∧
      ∀ q : Packet, q.serialize ≠ .ok part := by
  constructor
  · rcases get_of_undecodable noDecrypt hcode hlen hfetch hpresent
      (deserialize_of_part h hpart hne {}) with ⟨htype, -⟩ | ⟨x, hunpack, hresult⟩
    · cases htype
    · rw [hresult, ← Except.error.inj (hunpack.symm.trans (unpack_of_part h hpart hne))]
  · intro q h'
    obtain rfl := eq_of_part h' h hpart
    exact hne (Except.ok.inj (h'.symm.trans h))

/-- The packet of one byte, cut off after its version. -/
theorem get_of_truncated_sample :
    (get (answering [0x83, 0xa1, 0x76, 0x00] []) "dpaste:0000002A".toList false ()).result =
        .error (.unpackError .insufficientBytes) ∧
      ∀ q : Packet, q.serialize ≠ .ok [0x83, 0xa1, 0x76, 0x00] := by
  have hbytes := serialize_eq_encode (p := { data := [0x61] }) ⟨by decide, by decide⟩
  have hcode : codeFromDpasteUri "dpaste:0000002A".toList = .ok "0000002A".toList := rfl
  exact get_of_truncated (answering [0x83, 0xa1, 0x76, 0x00] []) "dpaste:0000002A".toList
    "0000002A".toList false () hcode (by decide) hbytes (by decide) (by decide) (by decide) rfl

end Truncation

end Dpaste.GetAnswers
