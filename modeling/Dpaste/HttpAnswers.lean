import Dpaste.GetAnswers
import Dpaste.HttpService

/-!
Which answers of the HTTP service lead to the bytes that they encode, and which ones to a
lookup at the node.
-/

namespace Dpaste.HttpAnswers

open Dpaste.LibraryInterfaces
open Dpaste.LocationCodes
open Dpaste.PacketEncoding
open Dpaste.BinOperations
open Dpaste.PasteAndGet
open Dpaste.GetAnswers
open Dpaste.Base64Text
open Dpaste.HttpService

section Escapes

/-- The characters whose escape sequences contain letters of base64. -/
def Control (c : Char) : Prop := c.toNat < 0x20

instance : DecidablePred Control := fun c => inferInstanceAs (Decidable (c.toNat < 0x20))

theorem control_cases (P : Char → Prop) (h : ∀ n < 0x20, P (Char.ofNat n)) {c : Char}
    (hc : Control c) : P c := by
  have hofNat : Char.ofNat c.toNat = c := by simp
  rw [← hofNat]
  exact h _ hc

theorem not_control_of_mem_alphabet {c : Char} (h : c ∈ alphabet) : ¬Control c := by
  have hletters : alphabet.all (fun c => ¬Control c) = true := by
    rw [alphabet_eq]
    decide +kernel
  simpa using List.all_eq_true.mp hletters c h

theorem sixBits_control {c : Char} (hc : Control c) : sixBits c = none := by
  rw [sixBits_eq_none_iff]
  intro h
  exact not_control_of_mem_alphabet h hc

theorem sixBits_backslash : sixBits '\x5c' = none := by
  rw [sixBits_eq_none_iff, alphabet_eq]
  decide

theorem sixBits_quote : sixBits '\x22' = none := by
  rw [sixBits_eq_none_iff, alphabet_eq]
  decide

theorem letters_escape_ne_nil {c : Char} (hc : Control c) : letters (escape c) ≠ [] := by
  refine control_cases (fun c => letters (escape c) ≠ []) ?_ hc
  unfold letters sixBits
  rw [alphabet_eq]
  decide +kernel

theorem letters_escape {c : Char} (hc : ¬Control c) : letters (escape c) = letters [c] := by
  have hne {d : Char} (hd : Control d) : c ≠ d := by
    rintro rfl
    exact hc hd
  have hprinted : ¬c.toNat < 0x20 := hc
  by_cases hquoted : c = '\x22' ∨ c = '\x5c'
  · rw [escape, if_pos hquoted]
    exact letters_cons_of_none sixBits_backslash [c]
  · rw [escape, if_neg hquoted, if_neg (hne (by decide)), if_neg (hne (by decide)),
      if_neg (hne (by decide)), if_neg (hne (by decide)), if_neg (hne (by decide)),
      if_neg hprinted]

theorem letters_flatMap_escape {s : Text} (h : ∀ c ∈ s, ¬Control c) :
    letters (s.flatMap escape) = letters s := by
  induction s with
  | nil => rfl
  | cons c s ih =>
      rw [List.forall_mem_cons] at h
      rw [List.flatMap_cons, letters_append, letters_escape h.1, ih h.2, ← letters_append]
      rfl

theorem letters_flatMap_escape_length (s : Text) :
    (letters s).length + s.countP (Control ·) ≤ (letters (s.flatMap escape)).length := by
  induction s with
  | nil => simp
  | cons c s ih =>
      rw [List.flatMap_cons, letters_append, List.length_append, List.countP_cons]
      by_cases hc : Control c
      · have hpos := List.length_pos_iff.mpr (letters_escape_ne_nil hc)
        rw [letters_cons_of_none (sixBits_control hc)]
        simp only [hc, decide_true, if_true]
        omega
      · have hsplit : (letters (c :: s)).length = (letters [c]).length + (letters s).length := by
          rw [← List.length_append, ← letters_append]
          rfl
        rw [letters_escape hc, hsplit]
        simp only [hc, decide_false, Bool.false_eq_true, if_false]
        omega

/-- The escape sequences of the text do not change what it decodes to: there are none that
contain letters, or there is one, of one letter, which the letters after it repeat to the
end of full groups. -/
inductive HarmlessEscapes (s : Text) : Prop
  | none (h : ∀ c ∈ s, ¬Control c)
  | repeated {u v : Text} {c : Char} {x : Nat} (hs : s = u ++ c :: v)
      (hu : ∀ c ∈ u, ¬Control c) (hc : Control c) (hv : ∀ c ∈ v, ¬Control c)
      (hx : letters (escape c) = [x]) (hfull : 4 ∣ (letters s).length)
      (hrepeat : ∀ y ∈ letters v, y = x)

theorem HarmlessEscapes.countP_le {s : Text} (h : HarmlessEscapes s) :
    s.countP (Control ·) ≤ 1 := by
  rcases h with h | ⟨rfl, hu, hc, hv, _⟩
  · rw [List.countP_eq_zero.mpr (by simpa using h)]
    exact Nat.zero_le 1
  · rw [List.countP_append, List.countP_cons, List.countP_eq_zero.mpr (by simpa using hu),
      List.countP_eq_zero.mpr (by simpa using hv)]
    simp [hc]

theorem decode_escape_insert_iff {u v : Text} {c : Char} (hu : ∀ c ∈ u, ¬Control c)
    (hc : Control c) (hv : ∀ c ∈ v, ¬Control c) :
    decode ((u ++ c :: v).flatMap escape) = decode (u ++ c :: v) ↔
      ∃ x, letters (escape c) = [x] ∧ 4 ∣ (letters (u ++ c :: v)).length ∧
        ∀ y ∈ letters v, y = x := by
  have hplain : letters (u ++ c :: v) = letters u ++ letters v := by
    rw [letters_append, letters_cons_of_none (sixBits_control hc)]
  have hescaped : letters ((u ++ c :: v).flatMap escape) =
      letters u ++ letters (escape c) ++ letters v := by
    rw [List.flatMap_append, List.flatMap_cons, letters_append, letters_append,
      letters_flatMap_escape hu, letters_flatMap_escape hv, List.append_assoc]
  rw [decode, decode, hescaped, hplain]
  exact decodeLetters_insert_iff (fun _ => lt_of_mem_letters) (fun _ => lt_of_mem_letters)
    (fun _ => lt_of_mem_letters) (letters_escape_ne_nil hc)

/-- Two letters more make at least one byte more. -/
theorem decode_escape_ne {s : Text} (h : 2 ≤ s.countP (Control ·)) :
    decode (s.flatMap escape) ≠ decode s := by
  intro heq
  have hlen := congrArg List.length heq
  rw [decode, decode, decodeLetters_length, decodeLetters_length] at hlen
  have hadded := letters_flatMap_escape_length s
  omega

theorem exists_first_control {s : Text} (h : ¬∀ c ∈ s, ¬Control c) :
    ∃ u c v, s = u ++ c :: v ∧ (∀ c ∈ u, ¬Control c) ∧ Control c := by
  cases hfind : s.find? (Control ·) with
  | none => exact absurd (by simpa using hfind) h
  | some c =>
      obtain ⟨hc, u, v, hs, hu⟩ := List.find?_eq_some_iff_append.mp hfind
      exact ⟨u, c, v, hs, by simpa using hu, by simpa using hc⟩

theorem decode_flatMap_escape_iff (s : Text) :
    decode (s.flatMap escape) = decode s ↔ HarmlessEscapes s := by
  by_cases hnone : ∀ c ∈ s, ¬Control c
  · refine iff_of_true ?_ (.none hnone)
    rw [decode, decode, letters_flatMap_escape hnone]
  · obtain ⟨u, c, v, rfl, hu, hc⟩ := exists_first_control hnone
    by_cases hv : ∀ c ∈ v, ¬Control c
    · rw [decode_escape_insert_iff hu hc hv]
      constructor
      · rintro ⟨x, hx, hfull, hrepeat⟩
        exact .repeated rfl hu hc hv hx hfull hrepeat
      · rintro (h | ⟨hs, _, hc', _, hx, hfull, hrepeat⟩)
        · exact absurd h hnone
        · obtain ⟨rfl, rfl, rfl⟩ := (List.append_cons_inj_of_notMem
            (fun hmem => hu _ hmem hc') (fun hmem => hv _ hmem hc')).mp hs
          exact ⟨_, hx, hfull, hrepeat⟩
    · have htwo : 2 ≤ (u ++ c :: v).countP (Control ·) := by
        have hpos : 0 < v.countP (Control ·) := by
          rw [List.countP_pos_iff]
          simpa using hv
        rw [List.countP_append, List.countP_cons]
        simp only [hc, decide_true, if_true]
        omega
      refine iff_of_false (decode_escape_ne htwo) ?_
      intro h
      have hone := h.countP_le
      omega

end Escapes

variable {σ : Type} {http : HttpLibraries σ} {client : HttpClient}

section Decoding

@[simp] theorem decode_quote (s : Text) : decode (quote s) = decode (s.flatMap escape) := by
  rw [decode, decode, quote, letters_append, letters_cons_of_none sixBits_quote,
    letters_cons_of_none sixBits_quote, letters_nil, List.append_nil]

theorem decode_eq_nil_iff {text : Text} : decode text = [] ↔ (letters text).length ≤ 1 := by
  rw [← List.length_eq_zero_iff, decode, decodeLetters_length]
  omega

theorem not_control_letter (n : Nat) : ¬Control (letter n) :=
  not_control_of_mem_alphabet (letter_mem_alphabet n)

theorem not_control_of_mem_encode (bytes : Blob) : ∀ c ∈ encode bytes, ¬Control c := by
  have hpad : ¬Control '=' := by decide
  induction bytes using encode.induct with
  | case1 x y z rest ih =>
      simp only [encode, List.forall_mem_cons]
      exact ⟨not_control_letter _, not_control_letter _, not_control_letter _,
        not_control_letter _, ih⟩
  | case2 | case3 | case4 => simp [encode, not_control_letter, hpad]

theorem get_of_answered {code : Text} {s : σ} {body : Blob} {pr entry v : Json}
    (hhttp : Documented http)
    (hanswer : (http.perform client.port (client.getUrl http code) s).1 = .answered 200 body)
    (hparse : http.parse body = .ok pr) (hfirst : pr.first = some entry)
    (hvalue : entry.subscript base64Key = .ok v) :
    (client.get http code s).1 = .ok (decode (http.dump v)) := by
  rw [← hhttp.decode]
  change readTransfer http (http.perform client.port (client.getUrl http code) s).1 = _
  rw [hanswer]
  exact readTransfer_ok http hparse hfirst hvalue

/-- The JSON text of the value under `base64` decodes to the bytes that the value stands
for: those that a string encodes, and none for another value. -/
def SpelledOut (http : HttpLibraries σ) (entries : List (Text × Json)) : Prop :=
  match entries.lookup base64Key with
  | some (.string s) => HarmlessEscapes s
  | some v => (letters (http.dump v)).length ≤ 1
  | none => False

theorem spelledOut_string {entries : List (Text × Json)} {text : Text}
    (h : entries.lookup base64Key = some (.string text)) :
    SpelledOut http entries ↔ HarmlessEscapes text := by
  simp only [SpelledOut, h]

theorem spelledOut_other {entries : List (Text × Json)} (hhttp : Documented http)
    (h : ∀ text, entries.lookup base64Key ≠ some (.string text)) :
    SpelledOut http entries ↔
      decode (http.dump ((entries.lookup base64Key).getD .null)) = [] := by
  have hnull : decode "null".toList ≠ [] := by
    unfold decode letters sixBits
    rw [alphabet_eq]
    decide +kernel
  rw [SpelledOut]
  split
  next text htext => exact absurd htext (h text)
  next v _ hv => rw [hv, Option.getD_some, decode_eq_nil_iff]
  next hnone =>
      rw [hnone, Option.getD_none, hhttp.dump_null]
      exact iff_of_false id hnull

/-- An answer is decoded from the JSON text of the value under `base64`, which is right for
strings with harmless escapes and for other values with at most one letter. Standard
encodings are decoded to what they encode. -/
theorem string_decoded_iff (http : HttpLibraries σ) (client : HttpClient)
    (hhttp : Documented http) (code : Text) (s : σ) (body : Blob)
    (entries : List (Text × Json)) (rest : List Json)
    (hanswer : (http.perform client.port (client.getUrl http code) s).1 = .answered 200 body)
    (hparse : http.parse body = .ok (.array (.object entries :: rest))) :
    ((∀ text, entries.lookup base64Key = some (.string text) →
          (client.get http code s).1 = .ok (decode text)) ∧
        ((∀ text, entries.lookup base64Key ≠ some (.string text)) →
          (client.get http code s).1 = .ok []) ↔
      SpelledOut http entries) ∧
    ∀ bytes, entries.lookup base64Key = some (.string (encode bytes)) →
      (client.get http code s).1 = .ok bytes := by
  have hget := get_of_answered hhttp hanswer hparse rfl (Json.subscript_object base64Key entries)
  have hstring {text : Text} (h : entries.lookup base64Key = some (.string text)) :
      (client.get http code s).1 = .ok (decode (text.flatMap escape)) := by
    rw [hget, h, Option.getD_some, hhttp.dump_string, decode_quote]
  constructor
  · by_cases h : ∃ text, entries.lookup base64Key = some (.string text)
    · obtain ⟨text, htext⟩ := h
      rw [spelledOut_string htext, ← decode_flatMap_escape_iff, hstring htext]
      simp [htext]
    · have hother := not_exists.mp h
      rw [spelledOut_other hhttp hother, hget]
      simp [hother]
  · intro bytes hencoded
    have hharmless : HarmlessEscapes (encode bytes) :=
      .none (not_control_of_mem_encode bytes)
    rw [hstring hencoded, (decode_flatMap_escape_iff _).mpr hharmless, decode_encode]

/-- The JSON text of a value without parts. -/
def writeScalar : Json → Text
  | .null => "null".toList
  | .boolean b => (if b then "true" else "false").toList
  | .number text => text
  | .string s => quote s
  | .array _ | .object _ => []

/-- Every request has the same outcome, and every body the same content. -/
def fixedHttp (transfer : Transfer) (parsed : Except Text Json) : HttpLibraries Unit where
  infoHash code := code
  perform _ _ s := (transfer, s)
  parse _ := parsed
  dump := writeScalar
  base64Decode := decode

theorem documented_fixedHttp (transfer : Transfer) (parsed : Except Text Json) :
    Documented (fixedHttp transfer parsed) := ⟨rfl, fun _ => rfl, fun _ => rfl⟩

def localClient : HttpClient := ⟨"127.0.0.1".toList, 6509⟩

/-- A service that answers with one object, whose entries are given. -/
def answeringObject (entries : List (Text × Json)) : HttpLibraries Unit :=
  fixedHttp (.answered 200 []) (.ok (.array [.object entries]))

theorem string_decoded_sample :
    (localClient.get (answeringObject [(base64Key, .string "ZAo=".toList)]) [] ()).1 =
      .ok [0x64, 0x0A] :=
  (string_decoded_iff (answeringObject [(base64Key, .string "ZAo=".toList)]) localClient
    (documented_fixedHttp _ _) [] () [] [(base64Key, .string "ZAo=".toList)] [] rfl rfl).2 _
    rfl

/-- An object without an entry `base64` gives the bytes that `null` encodes, and a line
break in the string is decoded as the letter of its escape sequence. -/
theorem string_decoded_counterexample :
    (localClient.get (answeringObject []) [] ()).1 = .ok [0x9e, 0xe9, 0x65] ∧
      decode "ZAoK\nZAoK".toList = [0x64, 0x0A, 0x0A, 0x64, 0x0A, 0x0A] ∧
      (localClient.get (answeringObject [(base64Key, .string "ZAoK\nZAoK".toList)]) [] ()).1 =
        .ok [0x64, 0x0A, 0x0A, 0x9D, 0x90, 0x28] :=
  ⟨rfl, rfl, rfl⟩

end Decoding

section Fallback

/-- The bytes are those that a string encodes, which stands under `base64` in the first entry
of a body with status 200. -/
def FromString (http : HttpLibraries σ) (transfer : Transfer) (bytes : Blob) : Prop :=
  ∃ body pr entries text, transfer = .answered 200 body ∧ http.parse body = .ok pr ∧
    pr.first = some (.object entries) ∧
    entries.lookup base64Key = some (.string text) ∧
    bytes = decode text

/-- The get asks the node for the same location code, and goes on with the first value of
its answer. -/
structure FallsBack (env : Env σ) (uri code : Text) (noDecrypt : Bool) (s : σ) : Prop where
  queried : ∃ events, (get env uri noDecrypt s).events =
    .httpGet (code.take codeOffset) :: .nodeGet (code.take codeOffset) :: events
  continued : ∃ s', (get env uri noDecrypt s).result =
    (afterLookups env code noDecrypt
      ((nodeValues env (code.take codeOffset) s).headD []) s').result

/-- The outcomes of a request with which `HttpClient::get` copes. The others raise an
exception that nobody catches, or are decoded to bytes that no string has encoded. -/
inductive CopedWith (http : HttpLibraries σ) : Transfer → Prop
  | setup (what : Text) : CopedWith http (.setupFailed (.logic what))
  | failed (e : CurlError) : CopedWith http (.failed e)
  | status {code : Nat} {body : Blob} (h : code ≠ 200) : CopedWith http (.answered code body)
  | empty {body : Blob} {pr : Json} (hparse : http.parse body = .ok pr)
      (hempty : pr.first = none) : CopedWith http (.answered 200 body)
  | string {body : Blob} {pr entry : Json} {text : Text} (hparse : http.parse body = .ok pr)
      (hfirst : pr.first = some entry)
      (hvalue : entry.subscript base64Key = .ok (.string text))
      (hharmless : HarmlessEscapes text) : CopedWith http (.answered 200 body)
  | silent {body : Blob} {pr entry v : Json} (hparse : http.parse body = .ok pr)
      (hfirst : pr.first = some entry) (hvalue : entry.subscript base64Key = .ok v)
      (hletters : (letters (http.dump v)).length ≤ 1) : CopedWith http (.answered 200 body)

theorem fallsBack_of_no_answer {env : Env σ} {uri code : Text} {noDecrypt : Bool} {s : σ}
    (hcode : codeFromDpasteUri uri = .ok code) (hlen : codeOffset ≤ code.length)
    (h : (env.httpGet (code.take codeOffset) s).1 = .ok []) :
    FallsBack env uri code noDecrypt s := by
  have hget := get_of_fetched env noDecrypt hcode hlen (fetch_of_answers h)
  constructor
  · simp only [hget, fetch_of_no_answer h]
    exact ⟨_, rfl⟩
  · rw [hget]
    exact ⟨_, rfl⟩

theorem subscript_eq_string {entry : Json} {text : Text}
    (h : entry.subscript base64Key = .ok (.string text)) :
    ∃ entries, entry = .object entries ∧
      entries.lookup base64Key = some (.string text) := by
  cases entry with
  | object entries =>
      refine ⟨entries, rfl, ?_⟩
      rw [Json.subscript_object, Except.ok.injEq] at h
      cases hlookup : entries.lookup base64Key with
      | none => simp [hlookup] at h
      | some v => simpa [hlookup] using h
  | null | boolean _ | number _ | string _ | array _ => cases h

theorem readTransfer_string (hhttp : Documented http) {body : Blob} {pr entry : Json}
    {text : Text} (hparse : http.parse body = .ok pr) (hfirst : pr.first = some entry)
    (hvalue : entry.subscript base64Key = .ok (.string text)) :
    readTransfer http (.answered 200 body) = .ok (decode (text.flatMap escape)) := by
  rw [readTransfer_ok http hparse hfirst hvalue, hhttp.decode, hhttp.dump_string, decode_quote]

/-- If the bytes that the client reads are those of a string, the escape sequences in its
JSON text have done no harm. -/
theorem copedWith_of_fromString (hhttp : Documented http) {transfer : Transfer} {bytes : Blob}
    (hread : readTransfer http transfer = .ok bytes) (h : FromString http transfer bytes) :
    CopedWith http transfer := by
  obtain ⟨body, pr, entries, text, rfl, hparse, hfirst, hlookup, rfl⟩ := h
  have hvalue : (Json.object entries).subscript base64Key = .ok (.string text) := by
    rw [Json.subscript_object, hlookup, Option.getD_some]
  rw [readTransfer_string hhttp hparse hfirst hvalue, Except.ok.injEq] at hread
  exact .string hparse hfirst hvalue ((decode_flatMap_escape_iff text).mp hread)

theorem copedWith_of_read (hhttp : Documented http) {transfer : Transfer} {bytes : Blob}
    (hread : readTransfer http transfer = .ok bytes)
    (hbytes : bytes = [] ∨ FromString http transfer bytes) : CopedWith http transfer := by
  rcases hbytes with rfl | hstring
  · rcases transfer with (what | what) | e | ⟨status, body⟩
    · cases hread
    · exact .setup what
    · exact .failed e
    · by_cases hstatus : status = 200
      · subst hstatus
        cases hparse : http.parse body with
        | error what => simp [readTransfer, decodeBody, hparse] at hread
        | ok pr =>
            cases hfirst : pr.first with
            | none => exact .empty hparse hfirst
            | some entry =>
                cases hvalue : entry.subscript base64Key with
                | error e => simp [readTransfer, decodeBody, hparse, hfirst, hvalue] at hread
                | ok v =>
                    rw [readTransfer_ok http hparse hfirst hvalue, Except.ok.injEq,
                      hhttp.decode] at hread
                    exact .silent hparse hfirst hvalue (decode_eq_nil_iff.mp hread)
      · exact .status hstatus
  · exact copedWith_of_fromString hhttp hread hstring

theorem read_of_copedWith (hhttp : Documented http) {transfer : Transfer}
    (h : CopedWith http transfer) :
    ∃ bytes, readTransfer http transfer = .ok bytes ∧
      (bytes = [] ∨ FromString http transfer bytes) := by
  cases h with
  | setup what => exact ⟨[], rfl, .inl rfl⟩
  | failed e => exact ⟨[], rfl, .inl rfl⟩
  | status h => exact ⟨[], by simp [readTransfer, h], .inl rfl⟩
  | empty hparse hempty =>
      exact ⟨[], by simp [readTransfer, decodeBody, hparse, hempty], .inl rfl⟩
  | @string body pr entry text hparse hfirst hvalue hharmless =>
      have hread := readTransfer_string hhttp hparse hfirst hvalue
      rw [(decode_flatMap_escape_iff text).mpr hharmless] at hread
      refine ⟨_, hread, .inr ?_⟩
      obtain ⟨entries, rfl, hlookup⟩ := subscript_eq_string hvalue
      exact ⟨body, pr, entries, text, rfl, hparse, hfirst, hlookup, rfl⟩
  | silent hparse hfirst hvalue hletters =>
      refine ⟨_, readTransfer_ok http hparse hfirst hvalue, .inl ?_⟩
      rw [hhttp.decode]
      exact decode_eq_nil_iff.mpr hletters

/-- The client reads nothing or what a string encodes exactly for the outcomes that it copes
with. -/
theorem copes_iff (http : HttpLibraries σ) (hhttp : Documented http) (transfer : Transfer) :
    (∃ bytes, readTransfer http transfer = .ok bytes ∧
        (bytes = [] ∨ FromString http transfer bytes)) ↔
      CopedWith http transfer := by
  constructor
  · rintro ⟨bytes, hread, hbytes⟩
    exact copedWith_of_read hhttp hread hbytes
  · exact read_of_copedWith hhttp

/-- The service yields bytes that a string encodes, or the get continues at the node,
exactly for the outcomes that the client copes with. -/
theorem fallback_iff (env : Env σ) (http : HttpLibraries σ) (client : HttpClient)
    (hhttp : Documented http) (uri code : Text) (noDecrypt : Bool) (s : σ)
    (hcode : codeFromDpasteUri uri = .ok code) (hlen : codeOffset ≤ code.length) :
    let process := withClient http env client
    let lcode := code.take codeOffset
    let transfer := (http.perform client.port (client.getUrl http lcode) s).1
    ((∃ bytes, bytes ≠ [] ∧ (client.get http lcode s).1 = .ok bytes ∧
          FromString http transfer bytes) ∨
        (client.get http lcode s).1 = .ok [] ∧ FallsBack process uri code noDecrypt s) ↔
      CopedWith http transfer := by
  intro process lcode transfer
  have hget : (client.get http lcode s).1 = readTransfer http transfer := rfl
  rw [← copes_iff http hhttp transfer, hget]
  constructor
  · rintro (⟨bytes, _, hread, hstring⟩ | ⟨hread, _⟩)
    · exact ⟨bytes, hread, .inr hstring⟩
    · exact ⟨[], hread, .inl rfl⟩
  · rintro ⟨bytes, hread, hbytes⟩
    by_cases hempty : bytes = []
    · rw [hempty] at hread
      exact .inr ⟨hread, fallsBack_of_no_answer hcode hlen hread⟩
    · exact .inl ⟨bytes, hempty, hread, hbytes.resolve_left hempty⟩

/-- The node holds a packet of two bytes under every code. -/
def holdingNode : Env Unit :=
  answering [] [MessagePackRoundTrip.encode (packetObject { data := [0x64, 0x0A] })]

def processWith (transfer : Transfer) (parsed : Except Text Json) : Env Unit :=
  withClient (fixedHttp transfer parsed) holdingNode localClient

/-- After a connection error the packet that the node holds comes back. -/
theorem fallback_sample :
    (get (processWith (.failed (.runtime [])) (.error [])) "dpaste:0000002A".toList false
      ()).result = .ok (true, [0x64, 0x0A]) := by
  have hcode : codeFromDpasteUri "dpaste:0000002A".toList = .ok "0000002A".toList :=
    codeFromDpasteUri_append _
  have h := (fallback_iff holdingNode (fixedHttp (.failed (.runtime [])) (.error []))
    localClient (documented_fixedHttp _ _) _ _ false () hcode (by decide)).mpr (.failed _)
  rcases h with ⟨bytes, hne, hread, _⟩ | ⟨_, hfallback⟩
  · exact absurd (Except.ok.inj hread).symm hne
  · obtain ⟨_, hresult⟩ := hfallback.continued
    exact hresult

/-- A body that is no JSON text, although the node holds a value under the code. -/
theorem fallback_counterexample :
    (get (processWith (.answered 200 []) (.error "parse error".toList))
        "dpaste:0000002A".toList false ()).result = .error (.json "parse error".toList) ∧
      (get (processWith (.answered 200 []) (.error "parse error".toList))
        "dpaste:0000002A".toList false ()).events = [.httpGet "0000002A".toList] :=
  ⟨rfl, rfl⟩

end Fallback

end Dpaste.HttpAnswers
