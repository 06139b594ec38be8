import Dpaste.TransportStores

/-!
The generator behind `random_pin`, with the statics of the function. The flag
`initialized` is tested but never set, so each call seeds the generator again.
-/

namespace Dpaste.PinGenerator

open Dpaste.EffectTraces
open Dpaste.LibraryInterfaces
open Dpaste.CipherParameters
open Dpaste.LocationCodes
open Dpaste.BinOperations
open Dpaste.PacketPreparation
open Dpaste.PasteAndGet
open Dpaste.TransportStores

/-- `std::mt19937_64` under `std::uniform_int_distribution`, as an arbitrary state
machine. -/
structure Generator where
  Seed : Type
  State : Type
  default : State
  seed : Seed → State
  next : State → UInt32 × State

/-- The function-local statics. `seedings` counts the calls of `rand_.seed`. -/
structure Statics (G : Generator) where
  rand : G.State
  seed : G.Seed
  initialized : Bool
  seedings : Nat

variable (G : Generator)

/-- The statics at first use, with the seed that the random device gave. -/
def Statics.initial (seed : G.Seed) : Statics G := ⟨G.default, seed, false, 0⟩

variable {G}

def drawPin (s : Statics G) : UInt32 × Statics G :=
  let s :=
    if !s.initialized then { s with rand := G.seed s.seed, seedings := s.seedings + 1 }
    else s
  let (pin, rand) := G.next s.rand
  (pin, { s with rand })

def randomPins : Nat → Code (Statics G) (List Text)
  | 0 => pure []
  | n + 1 => do
      let pin ← randomPin drawPin
      let pins ← randomPins n
      pure (pin :: pins)

def outputs : Nat → G.State → List UInt32
  | 0, _ => []
  | n + 1, g => (G.next g).1 :: outputs n (G.next g).2

/-- The first `n` calls of a process return the successive outputs of one generator
that was seeded once. -/
def SeededOnce (seed : G.Seed) (n : Nat) : Prop :=
  (randomPins n (Statics.initial G seed)).result =
      .ok ((outputs n (G.seed seed)).map pinText) ∧
    (randomPins n (Statics.initial G seed)).state.seedings = 1

/-- The statics between two calls: not initialized, with the seed of the start. -/
def Fresh (seed : G.Seed) (s : Statics G) : Prop := s.initialized = false ∧ s.seed = seed

theorem fresh_initial (seed : G.Seed) : Fresh seed (Statics.initial G seed) := ⟨rfl, rfl⟩

theorem drawPin_of_fresh {seed : G.Seed} {s : Statics G} (h : Fresh seed s) :
    (drawPin s).1 = (G.next (G.seed seed)).1 ∧ Fresh seed (drawPin s).2 ∧
      (drawPin s).2.seedings = s.seedings + 1 := by
  obtain ⟨hinit, rfl⟩ := h
  simp [drawPin, hinit, Fresh]

theorem randomPins_of_fresh {seed : G.Seed} (n : Nat) {s : Statics G} (h : Fresh seed s) :
    (randomPins n s).result =
        .ok (List.replicate n (pinText (G.next (G.seed seed)).1)) ∧
      (randomPins n s).state.seedings = s.seedings + n ∧
      Fresh seed (randomPins n s).state := by
  induction n generalizing s with
  | zero => exact ⟨rfl, rfl, h⟩
  | succ n ih =>
      obtain ⟨hpin, hfresh, hseedings⟩ := drawPin_of_fresh h
      obtain ⟨hpins, hcount, hstate⟩ := ih hfresh
      have hrest : randomPins n (drawPin s).2 =
          ⟨(randomPins n (drawPin s).2).state, (randomPins n (drawPin s).2).events,
            .ok (List.replicate n (pinText (G.next (G.seed seed)).1))⟩ := by
        rw [← hpins]
      simp only [randomPins, randomPin, bind_apply, access_apply, Outcome.andThen_ok,
        pure_apply]
      rw [hrest]
      refine ⟨by simp [hpin, List.replicate_succ], ?_, hstate⟩
      change (randomPins n (drawPin s).2).state.seedings = _
      omega

def Reachable (seed : G.Seed) (s : Statics G) : Prop :=
  ∃ n, s = (randomPins n (Statics.initial G seed)).state

theorem fresh_of_reachable {seed : G.Seed} {s : Statics G} (h : Reachable seed s) :
    Fresh seed s := by
  obtain ⟨n, rfl⟩ := h
  exact (randomPins_of_fresh n (fresh_initial seed)).2.2

theorem uri_of_aes {lib : Libraries} {t : Transports} {conf : StringMap}
    {storage : Storage} {data : Blob} {a : AESParameters} {seed : G.Seed}
    {w : World (Statics G)} (hfresh : Fresh seed w.pins) {uri : Text}
    (hresult : (paste (storeEnv lib drawPin t) conf storage data (some (.aes a)) w).result =
      .ok uri) (huri : uri ≠ []) :
    uri = DPASTE_URI_PREFIX ++ pinText (G.next (G.seed seed)).1 ++
      pinText (G.next (G.seed seed)).1 := by
  obtain ⟨p, pwd, bytes, h, huri, _⟩ := prepared_of_uri hresult huri
  obtain ⟨hcode, hfresh', _⟩ := drawPin_of_fresh hfresh
  have hpwd : pwd = pinText (drawPin (drawPin w.pins).2).1 :=
    (prepareData_aes_eq_ok _ h.packet).1
  rw [huri, hpwd, (drawPin_of_fresh hfresh').1, ← hcode]
  rfl

/-- The generator is seeded once if and only if there is one call. In every AES paste
there are two, and the password equals the location code. -/
theorem seededOnce_iff (G : Generator) (seed : G.Seed) (n : Nat) (hn : 1 ≤ n) :
    (SeededOnce seed n ↔ n = 1) ∧
      ∀ (lib : Libraries) (t : Transports) (conf : StringMap) (storage : Storage)
        (data : Blob) (a : AESParameters) (w : World (Statics G)) (uri : Text),
        Reachable seed w.pins →
        (paste (storeEnv lib drawPin t) conf storage data (some (.aes a)) w).result =
          .ok uri → uri ≠ [] →
        ∃ code, code.length = DPASTE_PIN_LEN ∧ uri = DPASTE_URI_PREFIX ++ code ++ code := by
  obtain ⟨hresult, hseedings, _⟩ := randomPins_of_fresh n (fresh_initial seed)
  refine ⟨⟨?_, ?_⟩, ?_⟩
  · intro h
    have hone := hseedings.symm.trans h.2
    have hzero : (Statics.initial G seed).seedings = 0 := rfl
    omega
  · rintro rfl
    exact ⟨hresult, hseedings⟩
  · intro lib t conf storage data a w uri hreach hok huri
    exact ⟨_, pinText_length _, uri_of_aes (fresh_of_reachable hreach) hok huri⟩

def counter : Generator where
  Seed := UInt32
  State := UInt32
  default := 5489
  seed := id
  next n := (n, n + 1)

theorem seededOnce_iff_sample :
    SeededOnce (G := counter) (42 : UInt32) 1 ∧
      ∃ code, code.length = DPASTE_PIN_LEN ∧
        "dpaste:0000002A0000002A".toList = DPASTE_URI_PREFIX ++ code ++ code := by
  obtain ⟨hiff, haes⟩ := seededOnce_iff counter (42 : UInt32) 1 (Nat.le_refl 1)
  exact ⟨hiff.mpr rfl, haes (sampleLibraries 0) sampleTransports [] ⟨0, false, false⟩ [0x64]
    ⟨[]⟩ (World.initial (Statics.initial counter (42 : UInt32))) _ ⟨0, rfl⟩ rfl (by decide)⟩

/-- The second call seeds the generator again and returns the first pin again, so the
password of the first AES paste of a process is its location code. -/
theorem seededOnce_counterexample :
    (randomPins 2 (Statics.initial counter (42 : UInt32))).result =
        .ok ["0000002A".toList, "0000002A".toList] ∧
      (outputs (G := counter) 2 (42 : UInt32)).map pinText =
        ["0000002A".toList, "0000002B".toList] ∧
      ¬SeededOnce (G := counter) (42 : UInt32) 2 ∧
      (paste (storeEnv (sampleLibraries 0) drawPin sampleTransports) [] ⟨0, false, false⟩
          [0x64] (some (.aes ⟨[]⟩))
          (World.initial (Statics.initial counter (42 : UInt32)))).result =
        .ok "dpaste:0000002A0000002A".toList := by
  refine ⟨rfl, by decide, fun h => ?_, rfl⟩
  exact absurd h.2 (by decide)

end Dpaste.PinGenerator
