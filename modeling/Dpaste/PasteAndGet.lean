import Dpaste.PacketPreparation

/-!
What a paste and a get do, given the packet that was prepared or fetched.
-/

namespace Dpaste.PasteAndGet

open Dpaste.EffectTraces
open Dpaste.LibraryInterfaces
open Dpaste.CipherParameters
open Dpaste.GpgCipher
open Dpaste.CipherSelection
open Dpaste.LocationCodes
open Dpaste.PacketEncoding
open Dpaste.BinOperations
open Dpaste.PacketPreparation

variable {σ : Type} (env : Env σ) {conf : StringMap} {storage : Storage}
  {data : Blob} {params : Option Parameters}

theorem publish_apply (code : Text) (binPacket : Blob) (s : σ) :
    publish env code binPacket s =
      let http := env.httpPut code binPacket s
      let node := env.nodePaste code binPacket http.2
      if http.1 then ⟨http.2, [.httpPut code binPacket true], .ok true⟩
      else
        ⟨node.2, [.httpPut code binPacket false, .nodePaste code binPacket node.1],
          .ok node.1⟩ := by
  cases h : (env.httpPut code binPacket s).1 <;>
  simp [publish, BinOperations.httpPut, BinOperations.nodePaste, h]

def Hands (code : Text) (binPacket : Blob) (e : Event) : Prop :=
  ∃ accepted, e = .httpPut code binPacket accepted ∨ e = .nodePaste code binPacket accepted

/-- The run ends with the packet being taken: by the HTTP service, or by the node
after the HTTP service has refused. Nothing else is handed to a transport. -/
def Accepted (code : Text) (binPacket : Blob) (events : List Event) : Prop :=
  ∃ before, (∀ e ∈ before, ¬e.IsPublication) ∧
    (events = before ++ [.httpPut code binPacket true] ∨
      events = before ++ [.httpPut code binPacket false, .nodePaste code binPacket true])

theorem Hands.isPublication {code : Text} {binPacket : Blob} {e : Event}
    (h : Hands code binPacket e) : e.IsPublication := by
  obtain ⟨accepted, rfl | rfl⟩ := h <;> trivial

theorem Hands.inj {code code' : Text} {bytes bytes' : Blob} {e : Event}
    (h : Hands code bytes e) (h' : Hands code' bytes' e) : code = code' ∧ bytes = bytes' := by
  obtain ⟨_, rfl | rfl⟩ := h
  · obtain ⟨_, h' | h'⟩ := h'
    · injection h' with hcode hbytes
      exact ⟨hcode, hbytes⟩
    · cases h'
  · obtain ⟨_, h' | h'⟩ := h'
    · cases h'
    · injection h' with hcode hbytes
      exact ⟨hcode, hbytes⟩

theorem publish_result (code : Text) (binPacket : Blob) (s : σ) (before : List Event)
    (hbefore : ∀ e ∈ before, ¬e.IsPublication) :
    ∃ success, (publish env code binPacket s).result = .ok success ∧
      (success = true ↔
        Accepted code binPacket (before ++ (publish env code binPacket s).events)) ∧
      (∃ accepted, .httpPut code binPacket accepted ∈
        (publish env code binPacket s).events) ∧
      ∀ e ∈ (publish env code binPacket s).events, Hands code binPacket e := by
  cases hhttp : (env.httpPut code binPacket s).1 with
  | true =>
      simp only [publish_apply, hhttp, if_true]
      refine ⟨true, rfl, iff_of_true rfl ⟨before, hbefore, .inl rfl⟩, ⟨true, by simp⟩, ?_⟩
      simp [Hands]
  | false =>
      simp only [publish_apply, hhttp, Bool.false_eq_true, if_false]
      refine ⟨_, rfl, ?_, ⟨false, by simp⟩, by simp [Hands]⟩
      cases hnode : (env.nodePaste code binPacket (env.httpPut code binPacket s).2).1 with
      | true => exact iff_of_true rfl ⟨before, hbefore, .inr rfl⟩
      | false =>
          refine iff_of_false (by decide) ?_
          rintro ⟨pre, _, hevents | hevents⟩
          · simpa using congrArg List.getLast? hevents
          · simpa using congrArg List.getLast? hevents

/-- The parts of a paste up to the transports: the packet, the password and the
bytes. The location code is drawn before the packet is prepared. -/
structure Prepared (conf : StringMap) (storage : Storage) (data : Blob)
    (params : Option Parameters) (s : σ) (p : Packet) (pwd : Text) (bytes : Blob) :
    Prop where
  packet : (prepareData env conf storage data params (env.draw s).2).result = .ok (p, pwd)
  bytes : p.serialize = .ok bytes

variable {env}

theorem paste_of_prepared {s : σ} {p : Packet} {pwd : Text} {bytes : Blob}
    (h : Prepared env conf storage data params s p pwd bytes) :
    paste env conf storage data params s =
      let code := pinText (env.draw s).1
      let prep := prepareData env conf storage data params (env.draw s).2
      let pub := publish env code bytes prep.state
      ⟨pub.state, prep.events ++ .message pastingText :: pub.events,
        pub.result.map fun success =>
          if success then DPASTE_URI_PREFIX ++ code ++ pwd else []⟩ := by
  simp only [paste, bind_apply, randomPin, access_apply, Outcome.andThen_ok, pure_apply,
    Outcome.andThen_of_ok h.packet, message, emit_apply, h.bytes, ofExcept_ok]
  cases hpub : (publish env (pinText (env.draw s).1) bytes
      (prepareData env conf storage data params (env.draw s).2).state).result with
  | error e => simp [Outcome.andThen_of_error hpub, Except.map]
  | ok success => simp [Outcome.andThen_of_ok hpub, Except.map]

theorem paste_of_published {s : σ} {p : Packet} {pwd : Text} {bytes : Blob}
    {success : Bool} {pub : Outcome σ Event Exn Bool}
    (h : Prepared env conf storage data params s p pwd bytes)
    (hpub : publish env (pinText (env.draw s).1) bytes
      (prepareData env conf storage data params (env.draw s).2).state = pub)
    (hsuccess : pub.result = .ok success) :
    (paste env conf storage data params s).result =
        .ok (if success then DPASTE_URI_PREFIX ++ pinText (env.draw s).1 ++ pwd else []) ∧
      (paste env conf storage data params s).state = pub.state := by
  simp only [paste_of_prepared h, hpub, hsuccess, Except.map, and_self]

/-- A paste either prepares a packet, or raises before anything reaches a
transport. -/
theorem paste_cases (env : Env σ) (conf : StringMap) (storage : Storage) (data : Blob)
    (params : Option Parameters) (s : σ) :
    (∃ p pwd bytes, Prepared env conf storage data params s p pwd bytes) ∨
      (∃ e, (paste env conf storage data params s).result = .error e) ∧
        (paste env conf storage data params s).state =
          (prepareData env conf storage data params (env.draw s).2).state ∧
        ∀ e ∈ (paste env conf storage data params s).events, ¬e.IsPublication := by
  have hprep : ∀ e ∈ (prepareData env conf storage data params (env.draw s).2).events,
      ¬e.IsPublication := fun _ he => (isLocal_of_mem_prepareData env he).not_isPublication
  cases hresult : (prepareData env conf storage data params (env.draw s).2).result with
  | error e =>
      refine .inr ?_
      simp only [paste, bind_apply, randomPin, access_apply, Outcome.andThen_ok,
        pure_apply, Outcome.andThen_of_error hresult]
      exact ⟨⟨e, rfl⟩, trivial, by simpa using hprep⟩
  | ok r =>
      obtain ⟨p, pwd⟩ := r
      cases hbytes : p.serialize with
      | ok bytes => exact .inl ⟨p, pwd, bytes, hresult, hbytes⟩
      | error e =>
          refine .inr ?_
          simp only [paste, bind_apply, randomPin, access_apply, Outcome.andThen_ok,
            pure_apply, Outcome.andThen_of_ok hresult, message, emit_apply, hbytes,
            ofExcept_error, Outcome.andThen_error]
          refine ⟨⟨e, rfl⟩, trivial, ?_⟩
          intro ev hev
          simp only [List.nil_append, List.append_nil, List.mem_append,
            List.mem_singleton] at hev
          rcases hev with hev | rfl
          · exact hprep ev hev
          · exact id

theorem paste_prepared_result {s : σ} {p : Packet} {pwd : Text} {bytes : Blob}
    (h : Prepared env conf storage data params s p pwd bytes) :
    ∃ success, (paste env conf storage data params s).result =
        .ok (if success then DPASTE_URI_PREFIX ++ pinText (env.draw s).1 ++ pwd else []) ∧
      (success = true ↔ Accepted (pinText (env.draw s).1) bytes
        (paste env conf storage data params s).events) ∧
      (∃ accepted, .httpPut (pinText (env.draw s).1) bytes accepted ∈
        (paste env conf storage data params s).events) ∧
      ∀ e ∈ (paste env conf storage data params s).events,
        e.IsPublication → Hands (pinText (env.draw s).1) bytes e := by
  let prep := prepareData env conf storage data params (env.draw s).2
  have hprep : ∀ e ∈ prep.events ++ [.message pastingText], ¬e.IsPublication := by
    intro e he
    rcases List.mem_append.mp he with he | he
    · exact (isLocal_of_mem_prepareData env he).not_isPublication
    · rw [List.mem_singleton.mp he]
      exact id
  obtain ⟨success, hresult, haccepted, ⟨accepted, hput⟩, hhands⟩ :=
    publish_result env (pinText (env.draw s).1) bytes prep.state _ hprep
  have hevents : (paste env conf storage data params s).events =
      (prep.events ++ [.message pastingText]) ++
        (publish env (pinText (env.draw s).1) bytes prep.state).events := by
    rw [paste_of_prepared h]
    simp [prep]
  rw [hevents]
  refine ⟨success, (paste_of_published h rfl hresult).1, haccepted,
    ⟨accepted, List.mem_append_right _ hput⟩, fun e he hpublication => ?_⟩
  rcases List.mem_append.mp he with he | he
  · exact absurd hpublication (hprep e he)
  · exact hhands e he

theorem countP_accepts_eq_zero {events : List Event}
    (h : ∀ e ∈ events, ¬e.IsPublication) : events.countP Event.accepts = 0 :=
  List.countP_eq_zero.mpr fun e he =>
    Bool.eq_false_iff.mp (Event.accepts_of_not_isPublication (h e he))

theorem signs_of_prepared {s : σ} {p : Packet} {pwd : Text} {bytes : Blob}
    (h : Prepared env conf storage data params s p pwd bytes) :
    (paste env conf storage data params s).events.filter Event.signs =
      (prepareData env conf storage data params (env.draw s).2).events.filter
        Event.signs := by
  have hpublish : (publish env (pinText (env.draw s).1) bytes
      (prepareData env conf storage data params (env.draw s).2).state).events.filter
        Event.signs = [] := by
    obtain ⟨_, _, _, _, hhands⟩ := publish_result env (pinText (env.draw s).1) bytes
      (prepareData env conf storage data params (env.draw s).2).state
      [] (fun _ he => absurd he List.not_mem_nil)
    exact List.filter_eq_nil_iff.mpr fun e he => Bool.eq_false_iff.mp
      (Event.signs_of_isPublication (hhands e he).isPublication)
  rw [paste_of_prepared h]
  simp [hpublish, Event.signs]

def uriCount : Except Exn Text → Nat
  | .ok uri => if uri = [] then 0 else 1
  | .error _ => 0

/-- A paste returns a URI exactly when a transport has taken a packet, and no more
than one has. -/
theorem countP_accepts_paste (env : Env σ) (conf : StringMap) (storage : Storage)
    (data : Blob) (params : Option Parameters) (s : σ) :
    (paste env conf storage data params s).events.countP Event.accepts =
      uriCount (paste env conf storage data params s).result := by
  rcases paste_cases env conf storage data params s with
    ⟨p, pwd, bytes, h⟩ | ⟨⟨e, herror⟩, _, hnone⟩
  · have hprep : ∀ e ∈ (prepareData env conf storage data params (env.draw s).2).events,
        ¬e.IsPublication := fun _ he => (isLocal_of_mem_prepareData env he).not_isPublication
    generalize hstate : (prepareData env conf storage data params (env.draw s).2).state =
      s' at *
    simp only [paste_of_prepared h, hstate, List.countP_append, List.countP_cons,
      countP_accepts_eq_zero hprep, publish_apply]
    cases (env.httpPut (pinText (env.draw s).1) bytes s').1 with
    | true => simp [Event.accepts, Except.map, uriCount]
    | false =>
        generalize env.nodePaste (pinText (env.draw s).1) bytes
          (env.httpPut (pinText (env.draw s).1) bytes s').2 = node
        cases node.1 <;> simp [Event.accepts, Except.map, uriCount]
  · rw [herror, countP_accepts_eq_zero hnone]
    rfl

theorem prepared_of_publication {s : σ} {e : Event}
    (he : e ∈ (paste env conf storage data params s).events) (hpub : e.IsPublication) :
    ∃ p pwd bytes, Prepared env conf storage data params s p pwd bytes ∧
      Hands (pinText (env.draw s).1) bytes e := by
  rcases paste_cases env conf storage data params s with ⟨p, pwd, bytes, h⟩ | ⟨_, _, hnone⟩
  · obtain ⟨_, _, _, _, hhands⟩ := paste_prepared_result h
    exact ⟨p, pwd, bytes, h, hhands e he hpub⟩
  · exact absurd hpub (hnone e he)

theorem prepared_of_uri {s : σ} {uri : Text}
    (hresult : (paste env conf storage data params s).result = .ok uri) (huri : uri ≠ []) :
    ∃ p pwd bytes, Prepared env conf storage data params s p pwd bytes ∧
      uri = DPASTE_URI_PREFIX ++ pinText (env.draw s).1 ++ pwd ∧
      Accepted (pinText (env.draw s).1) bytes
        (paste env conf storage data params s).events := by
  rcases paste_cases env conf storage data params s with ⟨p, pwd, bytes, h⟩ | ⟨⟨e, herror⟩, _⟩
  · obtain ⟨success, hsuccess, haccepted, _⟩ := paste_prepared_result h
    rw [hsuccess, Except.ok.injEq] at hresult
    cases success with
    | false => exact absurd hresult.symm huri
    | true => exact ⟨p, pwd, bytes, h, hresult.symm, haccepted.mp rfl⟩
  · simp [herror] at hresult

section Opening

variable (env) {code pwd : Text} {p : Packet} {noDecrypt : Bool}

def comments (res : VerificationResult) : List Event :=
  match res.signatures with
  | sig :: _ =>
      if sig.summary &&& Signature.Valid ≠ 0 then [.message (GPG.validText sig.fingerprint)]
      else []
  | [] => []

theorem commentOnFirst_apply (g : GPG) (res : VerificationResult) (s : σ) :
    g.commentOnFirst res s = ⟨s, comments res, .ok ()⟩ := by
  cases hsigs : res.signatures with
  | nil => simp [GPG.commentOnFirst, comments, hsigs]
  | cons sig sigs =>
      by_cases hvalid : sig.summary &&& Signature.Valid = 0 <;>
      simp [GPG.commentOnFirst, comments, hsigs, GPG.commentOnSignature, hvalid, message]

/-- The calls up to the answer of GpgME, and what follows for an answer with and without an
error. -/
theorem processCipherText_apply (lib : Libraries) (g : GPG) (cipherText : Blob) (s : σ) :
    g.processCipherText lib cipherText none s =
      let answer := lib.gpgme.decryptAndVerify cipherText
      let called := [.message GPG.decryptingText, .gpgDecryptAndVerify cipherText]
      match answer.1.1.error, answer.1.2.error with
      | some err, _ => ⟨s, called, .error (.gpgme err [])⟩
      | none, some err => ⟨s, called, .error (.gpgme err [])⟩
      | none, none =>
          ⟨s, called ++ .message GPG.successText :: comments answer.1.2, .ok answer.2⟩ := by
  cases hdec : (lib.gpgme.decryptAndVerify cipherText).1.1.error with
  | some err =>
      simp [GPG.processCipherText, GPG.checkParameters, message, GPG.decryptAndVerify, hdec]
  | none =>
      cases hverif : (lib.gpgme.decryptAndVerify cipherText).1.2.error with
      | some err =>
          simp [GPG.processCipherText, GPG.checkParameters, message, GPG.decryptAndVerify,
            hdec, hverif]
      | none =>
          simp [GPG.processCipherText, GPG.checkParameters, message, GPG.decryptAndVerify,
            hdec, hverif, commentOnFirst_apply, Data.filled]

theorem getFromContent_pgp (h : isGPGencrypted env.toLibraries data = true) (s : σ) :
    Cipher.getFromContent env.toLibraries data code s =
      ⟨s, [.newCipher .GPG], .ok (some (.gpg ⟨[], []⟩))⟩ := by
  simp [Cipher.getFromContent, h, Cipher.make, GPG.construct_nil, Cipher.scheme]

theorem getFromContent_aes (h : isGPGencrypted env.toLibraries data = false)
    (hlen : code.length = AES.PIN_WITH_PASS_LEN) (s : σ) :
    Cipher.getFromContent env.toLibraries data code s =
      ⟨s, [.newCipher .AES], .ok (some .aes)⟩ := by
  simp [Cipher.getFromContent, h, hlen, Cipher.make, Cipher.scheme]

theorem getFromContent_none (h : isGPGencrypted env.toLibraries data = false)
    (hlen : code.length ≠ AES.PIN_WITH_PASS_LEN) (s : σ) :
    Cipher.getFromContent env.toLibraries data code s =
      ⟨s, [.newCipher .NONE], .ok none⟩ := by
  simp [Cipher.getFromContent, h, hlen]

/-- Without a cipher the data comes back as it is, after the check of the
signature if there is one. -/
theorem openPacket_plain (h : isGPGencrypted env.toLibraries p.data = false)
    (hlen : code.length ≠ AES.PIN_WITH_PASS_LEN) (hsig : p.signature = []) (s : σ) :
    openPacket env code pwd noDecrypt p s = ⟨s, [.newCipher .NONE], .ok p.data⟩ := by
  simp [openPacket, getFromContent_none env h hlen, hsig]

theorem openPacket_signed (h : isGPGencrypted env.toLibraries p.data = false)
    (hlen : code.length ≠ AES.PIN_WITH_PASS_LEN) (hsig : p.signature ≠ []) (s : σ) :
    openPacket env code pwd noDecrypt p s =
      let res := (env.gpgme.verifyOpaqueSignature p.signature).1
      let checked := [.newCipher .NONE, .newCipher .GPG, .message verifyingText,
        .gpgVerify p.signature]
      match res.error with
      | some err => ⟨s, checked, .error (.gpgme err [])⟩
      | none => ⟨s, checked ++ comments res, .ok p.data⟩ := by
  have hscheme : Cipher.getFromScheme (σ := σ) env.toLibraries Scheme.GPG.toInt none =
      Cipher.make (do pure (.gpg (← GPG.construct env.toLibraries []))) := rfl
  cases herror : (env.gpgme.verifyOpaqueSignature p.signature).1.error with
  | some err =>
      simp [openPacket, getFromContent_none env h hlen, hsig, checkSignature, hscheme,
        Cipher.make, GPG.construct_nil, Cipher.scheme, message, GPG.verify, herror]
  | none =>
      simp [openPacket, getFromContent_none env h hlen, hsig, checkSignature, hscheme,
        Cipher.make, GPG.construct_nil, Cipher.scheme, message, GPG.verify, herror,
        commentOnFirst_apply]

theorem openPacket_pgp_noDecrypt (h : isGPGencrypted env.toLibraries p.data = true)
    (s : σ) :
    openPacket env code pwd true p s = ⟨s, [.newCipher .GPG], .ok p.data⟩ := by
  simp [openPacket, getFromContent_pgp env h]

theorem openPacket_pgp (h : isGPGencrypted env.toLibraries p.data = true) (s : σ) :
    openPacket env code pwd false p s =
      let o := (⟨[], []⟩ : GPG).processCipherText env.toLibraries p.data none s
      ⟨o.state, .newCipher .GPG :: o.events, o.result⟩ := by
  simp [openPacket, getFromContent_pgp env h, Cipher.processCipherText]

theorem openPacket_aes (h : isGPGencrypted env.toLibraries p.data = false)
    (hlen : code.length = AES.PIN_WITH_PASS_LEN) (s : σ) :
    openPacket env code pwd false p s =
      ⟨s, [.newCipher .AES, .message AES.decryptingText, .aesDecrypt p.data pwd],
        env.aesDecrypt p.data pwd⟩ := by
  cases hdecrypt : env.aesDecrypt p.data pwd <;>
  simp [openPacket, getFromContent_aes env h hlen, Cipher.processCipherText,
    AES.processCipherText, AES.getPassword, message, hdecrypt]

end Opening

section Getting

variable {uri code : Text} {raw : Blob} {p : Packet} {s : σ}

def codeOffset : Nat := AES.CODE_PASS_OFFSET * 2

theorem take_pinText_append (pin : UInt32) (pwd : Text) :
    (pinText pin ++ pwd).take codeOffset = pinText pin := List.take_left' (pinText_length pin)

theorem drop_pinText_append (pin : UInt32) (pwd : Text) :
    (pinText pin ++ pwd).drop codeOffset = pwd := List.drop_left' (pinText_length pin)

theorem codeOffset_le_pinText_append (pin : UInt32) (pwd : Text) :
    codeOffset ≤ (pinText pin ++ pwd).length := by
  simp [codeOffset, AES.CODE_PASS_OFFSET]

/-- The rest of a get, once the lookups have brought `raw`. -/
def afterLookups (env : Env σ) (code : Text) (noDecrypt : Bool) (raw : Blob) :
    Code σ (Bool × Blob) :=
  if raw.isEmpty then pure (true, raw)
  else
    handle (do
        let data ← decodeBlob env code (code.drop codeOffset) noDecrypt raw
        pure (true, data))
      (catchClauses env raw)

theorem get_eq (env : Env σ) (noDecrypt : Bool) (hcode : codeFromDpasteUri uri = .ok code)
    (hlen : codeOffset ≤ code.length) (s : σ) :
    get env uri noDecrypt s =
      (fetch env (code.take codeOffset) >>= afterLookups env code noDecrypt) s := by
  have hsubstr : substr code codeOffset = .ok (code.drop codeOffset) := if_pos hlen
  unfold codeOffset at hsubstr
  simp only [BinOperations.get, hcode, bind_apply, ofExcept_ok, Outcome.andThen_ok, hsubstr,
    List.nil_append]
  rfl

theorem get_of_fetched (env : Env σ) (noDecrypt : Bool) (hcode : codeFromDpasteUri uri = .ok code)
    (hlen : codeOffset ≤ code.length)
    (hfetch : (fetch env (code.take codeOffset) s).result = .ok raw) :
    get env uri noDecrypt s =
      let fetched := fetch env (code.take codeOffset) s
      let rest := afterLookups env code noDecrypt raw fetched.state
      ⟨rest.state, fetched.events ++ rest.events, rest.result⟩ := by
  rw [get_eq env noDecrypt hcode hlen, bind_apply, Outcome.andThen_of_ok hfetch]

/-- A get whose fetch brings a packet opens it, under the `catch` clauses. -/
theorem get_of_packet (env : Env σ) (noDecrypt : Bool)
    (hcode : codeFromDpasteUri uri = .ok code)
    (hlen : codeOffset ≤ code.length)
    (hfetch : (fetch env (code.take codeOffset) s).result = .ok raw) (hraw : raw ≠ [])
    (hp : ({} : Packet).deserialize raw = (p, .ok ())) :
    get env uri noDecrypt s =
      let fetched := fetch env (code.take codeOffset) s
      let opened := handle (do
          let data ← openPacket env code (code.drop codeOffset) noDecrypt p
          pure (true, data))
        (catchClauses env raw) fetched.state
      ⟨opened.state, fetched.events ++ opened.events, opened.result⟩ := by
  have hempty : raw.isEmpty = false := by simpa using hraw
  rw [get_of_fetched env noDecrypt hcode hlen hfetch]
  simp only [afterLookups, hempty, Bool.false_eq_true, if_false, decodeBlob, hp]

theorem get_of_opened {noDecrypt : Bool} {data : Blob} {opened : Outcome σ Event Exn Blob}
    (hcode : codeFromDpasteUri uri = .ok code) (hlen : codeOffset ≤ code.length)
    (hfetch : (fetch env (code.take codeOffset) s).result = .ok raw) (hraw : raw ≠ [])
    (hp : ({} : Packet).deserialize raw = (p, .ok ()))
    (hopen : openPacket env code (code.drop codeOffset) noDecrypt p
      (fetch env (code.take codeOffset) s).state = opened)
    (hresult : opened.result = .ok data) :
    (get env uri noDecrypt s).result = .ok (true, data) ∧
      (get env uri noDecrypt s).events =
        (fetch env (code.take codeOffset) s).events ++ opened.events := by
  rw [get_of_packet env noDecrypt hcode hlen hfetch hraw hp]
  subst hopen
  simp only [handle, bind_apply, Outcome.andThen_of_ok hresult, pure_apply,
    List.append_nil, and_self]

theorem get_of_raised {noDecrypt : Bool} {opened : Outcome σ Event Exn Blob} {e : Exn}
    {clause : Code σ (Bool × Blob)} (hcode : codeFromDpasteUri uri = .ok code)
    (hlen : codeOffset ≤ code.length)
    (hfetch : (fetch env (code.take codeOffset) s).result = .ok raw) (hraw : raw ≠ [])
    (hp : ({} : Packet).deserialize raw = (p, .ok ()))
    (hopen : openPacket env code (code.drop codeOffset) noDecrypt p
      (fetch env (code.take codeOffset) s).state = opened)
    (herror : opened.result = .error e) (hclause : catchClauses env raw e = some clause) :
    (get env uri noDecrypt s).result = (clause opened.state).result := by
  subst hopen
  rw [get_of_packet env noDecrypt hcode hlen hfetch hraw hp]
  simp only [handle, bind_apply, Outcome.andThen_of_error herror, hclause]

end Getting

section Frames

variable {γ : Type} {f : σ → γ}

theorem confined_fetch (env : Env σ) (hhttp : ∀ code s, f (env.httpGet code s).2 = f s)
    (hnode : ∀ code s, f (env.nodeGet code s).2 = f s) (lcode : Text) :
    Confined f Event.IsLookup (fetch env lcode) := by
  refine Confined.bind (Confined.bind (Confined.emit trivial) fun _ =>
    Confined.bind (Confined.access (hhttp lcode)) fun _ => Confined.ofExcept _) fun data => ?_
  split
  · exact Confined.bind (Confined.bind (Confined.emit trivial) fun _ =>
      Confined.access (hnode lcode)) fun _ => Confined.pure _
  · exact Confined.pure _

theorem confined_getFromContent (lib : Libraries) (cipherText : Blob) (pin : Text) :
    Confined f Event.IsLocal (Cipher.getFromContent (σ := σ) lib cipherText pin) := by
  unfold Cipher.getFromContent
  split
  · exact Confined.bind (Confined.bind (Confined.pure _) fun _ => Confined.pure _) fun _ =>
      Confined.bind (Confined.emit (Event.isLocal_newCipher _)) fun _ => Confined.pure _
  · split
    · exact Confined.bind (Confined.pure _) fun _ =>
        Confined.bind (Confined.emit (Event.isLocal_newCipher _)) fun _ => Confined.pure _
    · exact Confined.bind (Confined.emit (Event.isLocal_newCipher _)) fun _ =>
        Confined.pure _

theorem confined_openPacket (env : Env σ) (code pwd : Text) (noDecrypt : Bool)
    (p : Packet) :
    Confined f Event.IsLocal (openPacket env code pwd noDecrypt p) := by
  have hgpg {α : Type} {q : Code σ α} (hq : Confined f Event.FromGpg q) :
      Confined f Event.IsLocal q := hq.mono fun _ => Event.FromGpg.isLocal
  refine Confined.bind (confined_getFromContent env.toLibraries _ _) ?_
  intro c
  split
  · split
    · exact Confined.pure _
    · split
      · exact Confined.bind (Confined.emit (Event.isLocal_message _)) fun _ =>
          Confined.bind (Confined.emit ⟨id, id⟩) fun _ => Confined.ofExcept _
      · exact hgpg (GPG.confined_processCipherText env.toLibraries f _ _ _)
  · split
    · exact Confined.pure _
    · refine Confined.bind (Confined.bind (confined_getFromScheme env.toLibraries _ _)
        fun c => ?_) fun _ => Confined.pure _
      split
      · exact Confined.bind (Confined.emit (Event.isLocal_message _)) fun _ => Confined.bind
          (hgpg (GPG.confined_verify env.toLibraries f _ _ _)) fun _ =>
            hgpg (GPG.confined_commentOnFirst f _ _)
      · exact Confined.raise _

theorem confined_paste (env : Env σ) (hdraw : ∀ s, f (env.draw s).2 = f s)
    (hhttp : ∀ code blob s, f (env.httpPut code blob s).2 = f s)
    (hnode : ∀ code blob s, f (env.nodePaste code blob s).2 = f s) (conf : StringMap)
    (storage : Storage) (data : Blob) (params : Option Parameters) :
    Confined f (fun e => ¬e.IsLookup) (paste env conf storage data params) := by
  refine Confined.bind (Confined.bind (Confined.access hdraw) fun _ => Confined.pure _)
    fun code => Confined.bind ((confined_prepareData env hdraw conf storage data
      params).mono fun _ => Event.IsLocal.not_isLookup) fun prepared =>
        Confined.bind (Confined.emit id) fun _ => Confined.bind (Confined.ofExcept _)
          fun binPacket => Confined.bind ?_ fun _ => Confined.pure _
  refine Confined.bind (Confined.bind (Confined.access (hhttp code binPacket)) fun _ =>
    Confined.bind (Confined.emit id) fun _ => Confined.pure _) fun success => ?_
  split
  · exact Confined.pure _
  · exact Confined.bind (Confined.access (hnode code binPacket)) fun _ =>
      Confined.bind (Confined.emit id) fun _ => Confined.pure _

theorem confined_catchClauses (env : Env σ) {P : Event → Prop}
    (hmessage : ∀ text, P (.message text)) {raw : Blob} {e : Exn} {q : Code σ (Bool × Blob)}
    (h : catchClauses env raw e = some q) : Confined f P q := by
  unfold catchClauses at h
  split at h
  · rw [← Option.some.inj h]
    exact Confined.bind (Confined.emit (hmessage _)) fun _ => Confined.pure _
  · rw [← Option.some.inj h]
    exact Confined.bind (Confined.emit (hmessage _)) fun _ => Confined.pure _
  · rw [← Option.some.inj h]
    exact Confined.pure _
  · cases h

theorem confined_decodeBlob (env : Env σ) (code pwd : Text) (noDecrypt : Bool) (raw : Blob) :
    Confined f Event.IsLocal
      (handle (do
          let data ← decodeBlob env code pwd noDecrypt raw
          pure (true, data))
        (catchClauses env raw)) := by
  refine Confined.handle _ (Confined.bind ?_ fun _ => Confined.pure _)
    fun _ _ hclause => confined_catchClauses env Event.isLocal_message hclause
  unfold decodeBlob
  split
  · exact Confined.raise _
  · exact confined_openPacket env _ _ _ _

theorem confined_get (env : Env σ) (hhttp : ∀ code s, f (env.httpGet code s).2 = f s)
    (hnode : ∀ code s, f (env.nodeGet code s).2 = f s) (uri : Text) (noDecrypt : Bool) :
    Confined f (fun e => ¬e.IsPublication) (get env uri noDecrypt) := by
  refine Confined.bind (Confined.ofExcept _) fun code => Confined.bind (Confined.ofExcept _)
    fun pwd => Confined.bind ((confined_fetch env hhttp hnode _).mono fun _ =>
      Event.IsLookup.not_isPublication) fun data => ?_
  split
  · exact Confined.pure _
  · exact (confined_decodeBlob env code pwd noDecrypt data).mono fun _ =>
      Event.IsLocal.not_isPublication

end Frames

end Dpaste.PasteAndGet
