import Dpaste.AppendOnlyStores
import Dpaste.ClientScripts
import Dpaste.ConcurrentParties

/-!
The two transports as processes share them: stores under the keys of location codes, which
other users of the network fill as well. What a paste and a get ask of them, and what each
meets whatever the others do.
-/

namespace Dpaste.SharedTransports

open Dpaste.InteractivePrograms
open Dpaste.ConcurrentParties
open Dpaste.LabelledRuns
open Dpaste.LibraryInterfaces
open Dpaste.CipherParameters
open Dpaste.LocationCodes
open Dpaste.PacketEncoding
open Dpaste.BinOperations
open Dpaste.PasteAndGet
open Dpaste.AppendOnlyStores
open Dpaste.SecludedParts
open Dpaste.ClientScripts

/-- All that the HTTP service and the DHT were ever given to store. -/
structure Stores (K : Type) where
  http : Store K Blob
  dht : Store K Blob

def Stores.empty {K : Type} : Stores K := ⟨fun _ => [], fun _ => []⟩

variable {K : Type}

def Stores.Holds (n : Stores K) (k : K) (v : Blob) : Prop := v ∈ n.http k ++ n.dht k

/-- Nothing that was stored is forgotten. -/
structure Extends (n n' : Stores K) : Prop where
  http : ∀ k, n.http k ⊆ n'.http k
  dht : ∀ k, n.dht k ⊆ n'.dht k

namespace Extends

variable {n n' n'' : Stores K}

theorem refl (n : Stores K) : Extends n n :=
  ⟨fun _ => List.Subset.refl _, fun _ => List.Subset.refl _⟩

theorem trans (h : Extends n n') (h' : Extends n' n'') : Extends n n'' :=
  ⟨fun k => List.Subset.trans (h.http k) (h'.http k),
    fun k => List.Subset.trans (h.dht k) (h'.dht k)⟩

theorem holds (h : Extends n n') {k : K} {v : Blob} (hv : n.Holds k v) : n'.Holds k v := by
  rcases List.mem_append.mp hv with hv | hv
  · exact List.mem_append_left _ (h.http k hv)
  · exact List.mem_append_right _ (h.dht k hv)

end Extends

variable [DecidableEq K]

def Stores.putHttp (n : Stores K) (k : K) (v : Blob) : Stores K :=
  { n with http := deposit n.http k v }

def Stores.putDht (n : Stores K) (k : K) (v : Blob) : Stores K :=
  { n with dht := deposit n.dht k v }

/-- The value was stored, by either transport. -/
def Stores.Gains (n : Stores K) (k : K) (v : Blob) (n' : Stores K) : Prop :=
  n' = n.putHttp k v ∨ n' = n.putDht k v

section Answers

variable (key : Text → K)

/-- What the transports may answer. A lookup may miss what is stored, which may have expired
or be out of reach. What a transport takes is stored, and what it does not report as taken
may be stored as well. -/
inductive Answers (n : Stores K) : (q : Call) → q.Reply → Stores K → Prop
  | draw (pin : UInt32) : Answers n .draw pin n
  | httpGet {code : Text} {v : Blob} : v = [] ∨ v ∈ n.http (key code) →
      Answers n (.httpGet code) (.ok v) n
  | httpRaised (code : Text) (e : Exn) : Answers n (.httpGet code) (.error e) n
  | httpPut (code : Text) (v : Blob) (reported : Bool) :
      Answers n (.httpPut code v) reported (n.putHttp (key code) v)
  | httpRefused (code : Text) (v : Blob) : Answers n (.httpPut code v) false n
  | nodeGet {code : Text} {vs : List Blob} : (∀ v ∈ vs, v ∈ n.dht (key code)) →
      Answers n (.nodeGet code) vs n
  | nodePaste (code : Text) (v : Blob) (reported : Bool) :
      Answers n (.nodePaste code v) reported (n.putDht (key code) v)
  | nodeRefused (code : Text) (v : Blob) : Answers n (.nodePaste code v) false n

/-- The answer of a lookup that finds something where something is stored. -/
def Finds (n : Stores K) : (q : Call) → q.Reply → Prop
  | .httpGet _, .error _ => False
  | .httpGet code, .ok v => n.http (key code) ≠ [] → v ∈ n.http (key code)
  | .nodeGet code, vs => n.dht (key code) ≠ [] → vs ≠ []
  | .draw, _ | .httpPut _ _, _ | .nodePaste _ _, _ => True

/-- What other users do: they store a value under a key, or nothing that is seen here. -/
def Drifts (n : Stores K) : Option (K × Blob) → Stores K → Prop
  | some (k, v), n' => n.Gains k v n'
  | none, n' => n' = n

/-- The transports among other users, who may store any value under any key. -/
def transports : Surroundings Call.Reply (Option (K × Blob)) (Stores K) where
  answers := Answers key
  drifts := Drifts

end Answers

section Stability

variable {key : Text → K} {n n' : Stores K}

theorem http_of_gains {k : K} {v : Blob} (h : n.Gains k v n') (k' : K) :
    n.http k' ⊆ n'.http k' := by
  intro v' hv'
  rcases h with rfl | rfl
  · exact mem_deposit.mpr (.inl hv')
  · exact hv'

theorem dht_of_gains {k : K} {v : Blob} (h : n.Gains k v n') (k' : K) :
    n.dht k' ⊆ n'.dht k' := by
  intro v' hv'
  rcases h with rfl | rfl
  · exact hv'
  · exact mem_deposit.mpr (.inl hv')

theorem holds_of_gains {k : K} {v : Blob} (h : n.Gains k v n') {k' : K} {v' : Blob} :
    n'.Holds k' v' ↔ n.Holds k' v' ∨ (k', v') = (k, v) := by
  unfold Stores.Holds
  rcases h with rfl | rfl <;>
  simp only [Stores.putHttp, Stores.putDht, List.mem_append, mem_deposit] <;> tauto

/-- What an answer may do to the stores: add the value that was handed over. -/
theorem Answers.change {q : Call} {answer : q.Reply} (h : Answers key n q answer n') :
    n' = n ∨ ∃ code v, (q = .httpPut code v ∨ q = .nodePaste code v) ∧
      n.Gains (key code) v n' := by
  cases h with
  | draw | httpGet | httpRaised | httpRefused | nodeGet | nodeRefused => exact .inl rfl
  | httpPut code v => exact .inr ⟨code, v, .inl rfl, .inl rfl⟩
  | nodePaste code v => exact .inr ⟨code, v, .inr rfl, .inr rfl⟩

theorem extends_of_moves (h : (transports key).Moves n n') : Extends n n' := by
  cases h with
  | answers q answer h =>
      rcases h.change with rfl | ⟨_, _, _, hgains⟩
      · exact .refl _
      · exact ⟨http_of_gains hgains, dht_of_gains hgains⟩
  | drifts change h =>
      rcases change with _ | ⟨k, v⟩
      · rw [show n' = n from h]
        exact .refl n
      · have hgains : n.Gains k v n' := h
        exact ⟨http_of_gains hgains, dht_of_gains hgains⟩

theorem extends_of_reaches (h : (transports key).Reaches n n') : Extends n n' := by
  induction h with
  | refl => exact .refl _
  | tail _ hmove ih => exact ih.trans (extends_of_moves hmove)

end Stability

section Contracts

variable (key : Text → K) (lib : Libraries) (conf : StringMap) (storage : Storage)
  (data : Blob) (params : Option Parameters) {n : Stores K}

/-- A process whose state is the pin that is drawn. -/
def drawing (lib : Libraries) : Env UInt32 where
  toLibraries := lib
  draw pin := (pin, pin)
  httpGet _ pin := (.ok [], pin)
  httpPut _ _ pin := (false, pin)
  nodeGet _ pin := ([], pin)
  nodePaste _ _ pin := (false, pin)

/-- The packet and the password that are prepared with some pin. -/
def PacketOf (p : Packet) (pwd : Text) : Prop :=
  ∃ pin, (prepareData (drawing lib) conf storage data params pin).result = .ok (p, pwd)

def Call.Hands (code : Text) (v : Blob) (q : Call) : Prop :=
  q = .httpPut code v ∨ q = .nodePaste code v

theorem prepare_asks :
    Asks (· = Call.draw) (fun x => ∀ r, x = .ok r → PacketOf lib conf storage data params r.1 r.2)
      (prepareScript lib conf storage data params) := by
  have hrun (pin : UInt32) :=
    congrFun (run_prepareScript (drawing lib) conf storage data params) pin
  have hlocal {f : Code Unit (Packet × Text)}
      (h : prepareScript lib conf storage data params = .ofProg f) :
      Asks (· = Call.draw)
        (fun x => ∀ r, x = .ok r → PacketOf lib conf storage data params r.1 r.2)
        (prepareScript lib conf storage data params) := by
    rw [h]
    refine .ofProg fun r hr => ⟨0, ?_⟩
    rw [← hrun 0]
    show (Script.run _ (prepareScript lib conf storage data params) 0).result = _
    rw [h, Script.run_ofProg, hr]
  rcases params with _ | gp | a
  · exact hlocal (Script.ofProg_bind _ _).symm
  · exact hlocal (Script.ofProg_bind _ _).symm
  · refine ⟨rfl, fun pin => ?_⟩
    refine Asks.ofProg (q := finishPacket lib data (aesLocals (pinText pin))) fun r hr =>
      ⟨pin, ?_⟩
    rw [← hrun pin]
    show (Script.run _ (Script.ofProg (finishPacket lib data (aesLocals (pinText pin))))
      pin).result = _
    rw [Script.run_ofProg, hr]

/-- The bytes of a packet of the task, under a location code that may be drawn. -/
def Pasteable (code pwd : Text) (bytes : Blob) : Prop :=
  ∃ (pin : UInt32) (p : Packet), PacketOf lib conf storage data params p pwd ∧
    p.serialize = .ok bytes ∧ code = pinText pin

theorem publish_asks (code : Text) (v : Blob) :
    Asks (Call.Hands code v) (fun _ => True) (publishScript code v) := by
  rw [publishScript_eq]
  refine ⟨.inl rfl, fun accepted => ?_⟩
  cases accepted with
  | true => trivial
  | false => exact ⟨.inr rfl, fun _ => trivial⟩

theorem Call.Hands.inj {code code' : Text} {v v' : Blob} {q : Call}
    (h : Call.Hands code v q) (h' : Call.Hands code' v' q) : code = code' ∧ v = v' := by
  rcases h with rfl | rfl <;> rcases h' with h' | h' <;> cases h' <;> exact ⟨rfl, rfl⟩

/-- A paste hands over nothing but the bytes of one of its packets, under a location code
that it has drawn. -/
theorem paste_asks :
    Asks (fun q => ∀ code v, Call.Hands code v q →
        ∃ pwd, Pasteable lib conf storage data params code pwd v)
      (fun _ => True) (pasteScript lib conf storage data params) := by
  rw [pasteScript_eq]
  refine ⟨fun code v h => ?_, fun pin => ?_⟩
  · rcases h with h | h <;> cases h
  · refine Asks.bind ((prepare_asks lib conf storage data params).mono
      (fun q hq code v h => ?_) fun _ hx => hx) (fun r hr => ?_) fun _ _ => trivial
    · subst hq
      rcases h with h | h <;> cases h
    · show Asks _ _ (Script.stop r.1.serialize >>= _)
      cases hbytes : r.1.serialize with
      | error e => trivial
      | ok bytes =>
          rw [Script.stop_ok_bind]
          refine Asks.bind ((publish_asks (pinText pin) bytes).mono
            (fun q hq code v h => ?_) fun _ hx => hx) (fun _ _ => trivial) fun _ _ => trivial
          obtain ⟨rfl, rfl⟩ := hq.inj h
          exact ⟨r.2, pin, r.1, hr r rfl, hbytes, rfl⟩

/-- The calls of a paste that succeeds: after its draws, the HTTP service takes the packet, or
it refuses, and the node reports that the DHT has taken the packet. -/
def Delivers (code : Text) (bytes : Blob) (turns : List ((q : Call) × q.Reply)) : Prop :=
  ∃ draws, (∀ turn ∈ draws, turn.1 = Call.draw) ∧
    (turns = draws ++ [⟨.httpPut code bytes, true⟩] ∨
      turns = draws ++ [⟨.httpPut code bytes, false⟩, ⟨.nodePaste code bytes, true⟩])

theorem publish_leads {code : Text} {v : Blob} {turns : List ((q : Call) × q.Reply)}
    (h : Leads (publishScript code v) turns (.ok true)) :
    turns = [⟨.httpPut code v, true⟩] ∨
      turns = [⟨.httpPut code v, false⟩, ⟨.nodePaste code v, true⟩] := by
  rw [publishScript_eq] at h
  obtain ⟨accepted, rest, rfl, hrest⟩ := h
  cases accepted with
  | true =>
      obtain ⟨rfl, _⟩ := hrest
      exact .inl rfl
  | false =>
      obtain ⟨accepted, rest, rfl, rfl, hlast⟩ := hrest
      obtain rfl := Except.ok.inj hlast
      exact .inr rfl

/-- A URI is returned only after the packet was handed over and reported as taken. -/
theorem paste_leads {uri : Text} {turns : List ((q : Call) × q.Reply)}
    (h : Leads (pasteScript lib conf storage data params) turns (.ok uri)) (hne : uri ≠ []) :
    ∃ code pwd bytes, Pasteable lib conf storage data params code pwd bytes ∧
      uri = DPASTE_URI_PREFIX ++ code ++ pwd ∧ Delivers code bytes turns := by
  rw [pasteScript_eq] at h
  obtain ⟨pin, turns, rfl, hdrawn⟩ := h
  obtain ⟨r, draws, calls, rfl, hprepare, hprepared⟩ := hdrawn.bind_ok
  obtain ⟨hdraws, hpacket⟩ := (prepare_asks lib conf storage data params).of_leads hprepare
  have hserialize : Leads (Script.stop r.1.serialize >>= fun binPacket =>
      publishScript (pinText pin) binPacket >>= fun success =>
        pure (if success then DPASTE_URI_PREFIX ++ pinText pin ++ r.2 else [])) calls
      (.ok uri) := hprepared
  obtain ⟨bytes, _, calls, rfl, ⟨rfl, hbytes⟩, hrest⟩ := hserialize.bind_ok
  obtain ⟨success, calls, _, rfl, hpublish, rfl, huri⟩ := hrest.bind_ok
  cases success with
  | false => exact absurd (Except.ok.inj huri).symm hne
  | true =>
      refine ⟨pinText pin, r.2, bytes, ⟨pin, r.1, hpacket r rfl, hbytes, rfl⟩,
        (Except.ok.inj huri).symm, ⟨.draw, pin⟩ :: draws, ?_, ?_⟩
      · exact List.forall_mem_cons.mpr ⟨rfl, hdraws⟩
      · rcases publish_leads hpublish with rfl | rfl
        · exact .inl (by simp)
        · exact .inr (by simp)

theorem publish_meets (code : Text) (v : Blob) :
    Meets (transports key) (fun x stop => x = .ok true → stop.Holds (key code) v)
      (publishScript code v) n := by
  have hstored {n₁ n₂ : Stores K} (hgains : n₁.Gains (key code) v n₂) {stop : Stores K}
      (hstop : (transports key).Reaches n₂ stop) : stop.Holds (key code) v :=
    (extends_of_reaches hstop).holds ((holds_of_gains hgains).mpr (.inr rfl))
  rw [publishScript_eq]
  intro n₁ accepted n₂ _ hanswer
  cases hanswer with
  | httpPut =>
      cases accepted with
      | true => exact fun stop hstop _ => hstored (.inl rfl) hstop
      | false =>
          intro n₃ accepted n₄ _ hanswer stop hstop htrue
          cases hanswer with
          | nodePaste => exact hstored (.inr rfl) hstop
          | nodeRefused => cases htrue
  | httpRefused =>
      intro n₃ accepted n₄ _ hanswer stop hstop htrue
      cases hanswer with
      | nodePaste => exact hstored (.inr rfl) hstop
      | nodeRefused => cases htrue

/-- The packet of a returned URI is stored under its location code. -/
theorem paste_meets :
    Meets (transports key)
      (fun x stop => ∀ uri, x = .ok uri → uri ≠ [] →
        ∃ code pwd bytes, Pasteable lib conf storage data params code pwd bytes ∧
          uri = DPASTE_URI_PREFIX ++ code ++ pwd ∧ stop.Holds (key code) bytes)
      (pasteScript lib conf storage data params) n := by
  rw [pasteScript_eq]
  intro n₁ pin n₂ _ _
  refine Meets.bind (prepare_asks lib conf storage data params).meets (fun r n₃ _ hr => ?_) ?_
  · show Meets _ _ (Script.stop r.1.serialize >>= _) n₃
    cases hbytes : r.1.serialize with
    | error e =>
        intro stop _ uri huri
        cases huri
    | ok bytes =>
        rw [Script.stop_ok_bind]
        refine Meets.bind (publish_meets key (pinText pin) bytes) ?_ ?_
        · intro success n₄ _ hstored stop hstop uri huri hne
          cases success with
          | false => exact absurd (Except.ok.inj huri).symm hne
          | true =>
              exact ⟨pinText pin, r.2, bytes, ⟨pin, r.1, hr r rfl, hbytes, rfl⟩,
                (Except.ok.inj huri).symm, (extends_of_reaches hstop).holds (hstored rfl)⟩
        · intro e _ _ _ uri huri
          cases huri
  · intro e _ _ _ uri huri
    cases huri

theorem fetch_meets (lcode : Text) :
    Meets (transports key)
      (fun x stop => ∀ raw, x = .ok raw → raw = [] ∨ stop.Holds (key lcode) raw)
      (fetchScript lcode) n := by
  rw [fetchScript_eq]
  intro n₁ answer n₂ _ hanswer
  cases hanswer with
  | httpRaised =>
      intro stop _ raw hraw
      cases hraw
  | @httpGet _ v hv =>
      cases v with
      | cons byte bytes =>
          intro stop hstop raw hraw
          have hmem := hv.resolve_left (List.cons_ne_nil byte bytes)
          rw [← Except.ok.inj hraw]
          exact .inr ((extends_of_reaches hstop).holds (List.mem_append_left _ hmem))
      | nil =>
          intro n₃ values n₄ _ hanswer stop hstop raw hraw
          cases hanswer with
          | nodeGet hvalues =>
              rw [← Except.ok.inj hraw]
              cases values with
              | nil => exact .inl rfl
              | cons value rest =>
                  have hmem := hvalues value List.mem_cons_self
                  exact .inr ((extends_of_reaches hstop).holds (List.mem_append_right _ hmem))

section Getting

variable (uri : Text) (noDecrypt : Bool)

theorem get_asks :
    Asks (fun q => ∀ code v, ¬Call.Hands code v q) (fun _ => True)
      (getScript lib uri noDecrypt) := by
  have hhttp (lcode code : Text) (v : Blob) : ¬Call.Hands code v (.httpGet lcode) := by
    rintro (h | h) <;> cases h
  have hnode (lcode code : Text) (v : Blob) : ¬Call.Hands code v (.nodeGet lcode) := by
    rintro (h | h) <;> cases h
  unfold getScript
  cases codeFromDpasteUri uri with
  | error e => trivial
  | ok code =>
      rw [Script.stop_ok_bind]
      cases substr code codeOffset with
      | error e => trivial
      | ok pwd =>
          rw [Script.stop_ok_bind]
          refine Asks.bind (R := fun _ => True) ?_ (fun raw _ => Asks.ofProg trivial)
            fun _ _ => trivial
          rw [fetchScript_eq]
          refine ⟨hhttp _, fun answer => ?_⟩
          rcases answer with e | _ | ⟨byte, bytes⟩
          · trivial
          · exact ⟨hnode _, fun _ => trivial⟩
          · trivial

/-- What a get brings is made from a value stored under the location code, or from nothing. -/
theorem get_meets :
    Meets (transports key)
      (fun x stop => ∀ r, x = .ok r → ∃ code raw, codeFromDpasteUri uri = .ok code ∧
        (raw = [] ∨ stop.Holds (key (code.take codeOffset)) raw) ∧
        (afterLookups (secluded lib) code noDecrypt raw ()).result = .ok r)
      (getScript lib uri noDecrypt) n := by
  have hraised {e : Exn} {P : Bool × Blob → Prop} :
      ∀ r, (.error e : Except Exn (Bool × Blob)) = .ok r → P r := by
    intro r hr
    cases hr
  unfold getScript
  cases hcode : codeFromDpasteUri uri with
  | error e => exact fun _ _ => hraised
  | ok code =>
      rw [Script.stop_ok_bind]
      cases substr code codeOffset with
      | error e => exact fun _ _ => hraised
      | ok pwd =>
          rw [Script.stop_ok_bind]
          refine Meets.bind (fetch_meets key (code.take codeOffset)) (fun raw n₁ _ hraw => ?_)
            fun e _ _ _ => hraised
          refine Meets.ofProg fun stop hstop r hr => ⟨code, raw, rfl, ?_, hr⟩
          exact (hraw raw rfl).imp id fun hholds => (extends_of_reaches hstop).holds hholds

end Getting

end Contracts

section Handing

variable {ι τ ε α : Type} (key : Text → K)

/-- What a step hands to a transport, on behalf of a process or of another user. -/
def handings : Label ι τ ε Exn Call.Reply α (Option (K × Blob)) → List (K × Blob)
  | .asks _ (.httpPut code v) _ | .asks _ (.nodePaste code v) _ => [(key code, v)]
  | .drifts (some change) => [change]
  | _ => []

def Handed (ls : List (Label ι τ ε Exn Call.Reply α (Option (K × Blob)))) (k : K) (v : Blob) :
    Prop :=
  (k, v) ∈ ls.flatMap (handings key)

variable {key} {ls : List (Label ι τ ε Exn Call.Reply α (Option (K × Blob)))} {k : K} {v : Blob}

omit [DecidableEq K] in
theorem mem_handings {l : Label ι τ ε Exn Call.Reply α (Option (K × Blob))}
    (h : (k, v) ∈ handings key l) :
    l = .drifts (some (k, v)) ∨ ∃ i code q answer, Call.Hands code v q ∧ key code = k ∧
      l = .asks i q answer := by
  unfold handings at h
  split at h
  next i code v' answer =>
      obtain ⟨rfl, rfl⟩ := Prod.mk.inj (List.mem_singleton.mp h)
      exact .inr ⟨i, code, _, answer, .inl rfl, rfl, rfl⟩
  next i code v' answer =>
      obtain ⟨rfl, rfl⟩ := Prod.mk.inj (List.mem_singleton.mp h)
      exact .inr ⟨i, code, _, answer, .inr rfl, rfl, rfl⟩
  next change =>
      rw [List.mem_singleton.mp h]
      exact .inl rfl
  next => exact absurd h List.not_mem_nil

omit [DecidableEq K] in
theorem Handed.cases (h : Handed key ls k v) :
    .drifts (some (k, v)) ∈ ls ∨ ∃ i code q answer, Call.Hands code v q ∧ key code = k ∧
      .asks i q answer ∈ ls := by
  obtain ⟨l, hl, hv⟩ := List.mem_flatMap.mp h
  rcases mem_handings hv with rfl | ⟨i, code, q, answer, hhands, hkey, rfl⟩
  · exact .inl hl
  · exact .inr ⟨i, code, q, answer, hhands, hkey, hl⟩

variable [DecidableEq ι] {program : τ → Script ε Exn Call.Reply α}
  {s s' : System ι τ ε Exn Call.Reply α (Stores K)}

theorem gains_of_step {l : Label ι τ ε Exn Call.Reply α (Option (K × Blob))}
    (h : Step program (transports key) s l s') :
    s'.net = s.net ∨ ∃ k v, (k, v) ∈ handings key l ∧ s.net.Gains k v s'.net := by
  cases h with
  | @own i l a n hown =>
      generalize s.parties i = b, s.net = n₀ at hown
      cases hown with
      | begins | tells | ends => exact .inl rfl
      | asks task resume hanswer =>
          rcases hanswer.change with rfl | ⟨code, v, rfl | rfl, hgains⟩
          · exact .inl rfl
          · exact .inr ⟨key code, v, by simp [handings], hgains⟩
          · exact .inr ⟨key code, v, by simp [handings], hgains⟩
  | @drifts change n hdrift =>
      rcases change with _ | ⟨k, v⟩
      · exact .inl hdrift
      · exact .inr ⟨k, v, by simp [handings], hdrift⟩

/-- What the transports hold was held at the start or handed over since. -/
theorem handed_of_holds (h : Run (Step program (transports key)) s ls s')
    (hholds : s'.net.Holds k v) : s.net.Holds k v ∨ Handed key ls k v := by
  induction h with
  | nil => exact .inl hholds
  | @snoc ls l m m' _ hlast ih =>
      unfold Handed
      rw [List.flatMap_append, List.mem_append, ← or_assoc]
      rcases gains_of_step hlast with hsame | ⟨k', v', hmem, hgains⟩
      · rw [hsame] at hholds
        exact .inl (ih hholds)
      · refine ((holds_of_gains hgains).mp hholds).imp ih fun heq => ?_
        rw [heq]
        simpa using hmem

end Handing

end Dpaste.SharedTransports
