import Dpaste.CommandModes
import Dpaste.ConfigurationLoads
import Dpaste.HttpService

/-!
The port of the HTTP service: how `Bin::Bin` converts the text under the option, and what
becomes of the variable that it leaves unset.
-/

namespace Dpaste.ServicePort

open Dpaste.EffectTraces
open Dpaste.TextFields
open Dpaste.LibraryInterfaces
open Dpaste.ConfigurationFile
open Dpaste.ConfigurationLines
open Dpaste.ConfigurationStore
open Dpaste.ConfigurationLoads
open Dpaste.HttpService
open Dpaste.MainProgram
open Dpaste.CommandModes

section Conversion

/-- `std::isspace`, in the locale in which the program runs. -/
def isWhite (c : Char) : Bool := c = ' ' ∨ ('\t' ≤ c ∧ c ≤ '\x0d')

def LONG_MIN : Int := -2 ^ 63

def LONG_MAX : Int := 2 ^ 63 - 1

/-- A number out of range is read as the nearest one in it. -/
def toLong (n : Int) : Int := max LONG_MIN (min LONG_MAX n)

/-- The digits at the start. Without any the conversion fails, and gives 0. -/
def magnitude (field : Text) : Int := Nat.ofDigitChars 10 (field.takeWhile Char.isDigit) 0

def readField : Text → Int
  | '+' :: field => toLong (magnitude field)
  | '-' :: field => toLong (-magnitude field)
  | field => toLong (magnitude field)

/-- `conv >> port`, where `unset` is what `port` holds before. It skips white space first, and
assigns nothing when the stream ends there. -/
def readLong (unset : Int) (conv : Text) : Int :=
  match conv.dropWhile isWhite with
  | [] => unset
  | c :: field => readField (c :: field)

end Conversion

section Numbers

variable {text white digits rest : Text} {n : Int}

/-- The text begins with a decimal number, after white space and with or without a sign. -/
structure Begins (text : Text) (n : Int) (white sign digits rest : Text) : Prop where
  text_eq : text = white ++ sign ++ (digits ++ rest)
  skipped : ∀ c ∈ white, isWhite c = true
  not_nil : digits ≠ []
  read : ∀ c ∈ digits, c.isDigit = true
  unread : ∀ c ∈ rest.head?, c.isDigit = false
  number : (sign = [] ∨ sign = ['+']) ∧ n = Nat.ofDigitChars 10 digits 0 ∨
    sign = ['-'] ∧ n = -Nat.ofDigitChars 10 digits 0

def Denotes (text : Text) (n : Int) : Prop := ∃ white sign digits rest,
  Begins text n white sign digits rest

theorem takeWhile_digits (hdigits : ∀ c ∈ digits, c.isDigit = true)
    (hrest : ∀ c ∈ rest.head?, c.isDigit = false) :
    (digits ++ rest).takeWhile Char.isDigit = digits := by
  rw [List.takeWhile_append_of_pos hdigits]
  cases rest with
  | nil => simp
  | cons c rest => simp [hrest c rfl]

theorem magnitude_eq (hdigits : ∀ c ∈ digits, c.isDigit = true)
    (hrest : ∀ c ∈ rest.head?, c.isDigit = false) :
    magnitude (digits ++ rest) = Nat.ofDigitChars 10 digits 0 := by
  rw [magnitude, takeWhile_digits hdigits hrest]

theorem readField_of_digit {c : Char} (hc : c.isDigit = true) (field : Text) :
    readField (c :: field) = toLong (magnitude (c :: field)) := by
  unfold readField
  split
  next heq =>
      rw [(List.cons.inj heq).1] at hc
      cases hc
  next heq =>
      rw [(List.cons.inj heq).1] at hc
      cases hc
  next => rfl

theorem not_white_of_digit {c : Char} (hc : c.isDigit = true) : isWhite c = false := by
  simp only [Char.isDigit, ge_iff_le, Bool.and_eq_true, decide_eq_true_eq] at hc
  simp only [isWhite, decide_eq_false_iff_not]
  rintro (rfl | ⟨-, hle⟩)
  · exact absurd hc.1 (by decide)
  · have hle' : c.val ≤ '\x0d'.val := hle
    exact absurd (UInt32.le_trans hc.1 hle') (by decide)

theorem readLong_of_field {c : Char} (hwhite : ∀ c ∈ white, isWhite c = true)
    (hc : isWhite c = false) (unset : Int) (field : Text) :
    readLong unset (white ++ c :: field) = readField (c :: field) := by
  unfold readLong
  rw [List.dropWhile_append_of_pos hwhite, List.dropWhile_cons_of_neg (by simp [hc])]

/-- A number at the start of the text is what is read, whatever follows it. -/
theorem readLong_of_denotes (h : Denotes text n) (unset : Int) :
    readLong unset text = toLong n := by
  obtain ⟨white, sign, digits, rest, h⟩ := h
  have hmagnitude := magnitude_eq h.read h.unread
  obtain ⟨d, digits, rfl⟩ := List.exists_cons_of_ne_nil h.not_nil
  rw [h.text_eq]
  rcases h.number with ⟨rfl | rfl, rfl⟩ | ⟨rfl, rfl⟩
  · have hd := h.read d List.mem_cons_self
    have hread := readLong_of_field h.skipped (not_white_of_digit hd) unset (digits ++ rest)
    rw [readField_of_digit hd, ← List.cons_append, hmagnitude] at hread
    simpa using hread
  · have hread := readLong_of_field (c := '+') h.skipped (by decide) unset
      (d :: digits ++ rest)
    rw [readField, hmagnitude] at hread
    simpa using hread
  · have hread := readLong_of_field (c := '-') h.skipped (by decide) unset
      (d :: digits ++ rest)
    rw [readField, hmagnitude] at hread
    simpa using hread

/-- The digits after white space and a sign are those of a number at the start. -/
theorem Begins.of_field {sign field : Text} (hwhite : ∀ c ∈ white, isWhite c = true)
    (hne : field.takeWhile Char.isDigit ≠ [])
    (hnumber : (sign = [] ∨ sign = ['+']) ∧
        n = Nat.ofDigitChars 10 (field.takeWhile Char.isDigit) 0 ∨
      sign = ['-'] ∧ n = -Nat.ofDigitChars 10 (field.takeWhile Char.isDigit) 0) :
    Begins (white ++ sign ++ field) n white sign (field.takeWhile Char.isDigit)
      (field.dropWhile Char.isDigit) where
  text_eq := by rw [List.takeWhile_append_dropWhile]
  skipped := hwhite
  not_nil := hne
  read _ hc := List.mem_takeWhile_imp hc
  unread c hc := by
    have hhead := List.head?_dropWhile_not Char.isDigit field
    rw [Option.mem_def.mp hc] at hhead
    simpa using hhead
  number := hnumber

theorem magnitude_of_not_denotes {sign field : Text} (hwhite : ∀ c ∈ white, isWhite c = true)
    (hsign : sign = [] ∨ sign = ['+'] ∨ sign = ['-'])
    (h : ∀ n, ¬Denotes (white ++ sign ++ field) n) : magnitude field = 0 := by
  by_cases hne : field.takeWhile Char.isDigit = []
  · rw [magnitude, hne]
    rfl
  · rcases hsign with hsign | hsign | hsign
    · exact absurd ⟨_, _, _, _, Begins.of_field hwhite hne (.inl ⟨.inl hsign, rfl⟩)⟩ (h _)
    · exact absurd ⟨_, _, _, _, Begins.of_field hwhite hne (.inl ⟨.inr hsign, rfl⟩)⟩ (h _)
    · exact absurd ⟨_, _, _, _, Begins.of_field hwhite hne (.inr ⟨hsign, rfl⟩)⟩ (h _)

/-- Other texts are read as 0, and those of white space are not read at all. -/
theorem readLong_of_not_denotes (h : ∀ n, ¬Denotes text n) (unset : Int) :
    readLong unset text = if text.all isWhite then unset else 0 := by
  cases hfield : text.dropWhile isWhite with
  | nil =>
      rw [if_pos (List.all_eq_true.mpr (List.dropWhile_eq_nil_iff.mp hfield)), readLong, hfield]
  | cons c field =>
      have hsome : ¬text.all isWhite = true := by
        rw [List.all_eq_true, ← List.dropWhile_eq_nil_iff, hfield]
        exact List.cons_ne_nil c field
      have htext : text = text.takeWhile isWhite ++ c :: field := by
        rw [← hfield, List.takeWhile_append_dropWhile]
      have hwhite : ∀ c ∈ text.takeWhile isWhite, isWhite c = true :=
        fun c hc => List.mem_takeWhile_imp hc
      have hzero (sign rest : Text) (hsign : sign = [] ∨ sign = ['+'] ∨ sign = ['-'])
          (hsplit : c :: field = sign ++ rest) : magnitude rest = 0 := by
        apply magnitude_of_not_denotes hwhite hsign
        rw [List.append_assoc, ← hsplit, ← htext]
        exact h
      rw [if_neg hsome, readLong, hfield]
      show readField (c :: field) = 0
      unfold readField
      split
      next heq => rw [hzero ['+'] _ (.inr (.inl rfl)) heq]; rfl
      next heq => rw [hzero ['-'] _ (.inr (.inr rfl)) heq]; rfl
      next => rw [hzero [] _ (.inl rfl) rfl]; rfl

theorem denotes_toDigits (n : Nat) (hrest : ∀ c ∈ rest.head?, c.isDigit = false) :
    Denotes (Nat.toDigits 10 n ++ rest) n ∧ Denotes ('-' :: Nat.toDigits 10 n ++ rest) (-n) := by
  have hread : ∀ c ∈ Nat.toDigits 10 n, c.isDigit = true :=
    fun c hc => Nat.isDigit_of_mem_toDigits (by decide) (by decide) hc
  have hvalue := Nat.ofDigitChars_toDigits (n := n) (show 1 < 10 by decide) (le_refl 10)
  have hne : Nat.toDigits 10 n ≠ [] := Nat.toDigits_ne_nil
  constructor
  · refine ⟨[], [], Nat.toDigits 10 n, rest, ?_⟩
    exact ⟨rfl, by simp, hne, hread, hrest, .inl ⟨.inl rfl, by rw [hvalue]⟩⟩
  · refine ⟨[], ['-'], Nat.toDigits 10 n, rest, ?_⟩
    exact ⟨rfl, by simp, hne, hread, hrest, .inr ⟨rfl, by rw [hvalue]⟩⟩

end Numbers

section Clients

variable {σ : Type}

/-- The client that `Bin::Bin` makes of the texts of its configuration. -/
def newClient (unset : Int) (host port : Text) : HttpClient := ⟨host, readLong unset port⟩

/-- The text is not blank, but it can be of white space that `trim_str` leaves. -/
theorem port_trimmed {file : Option Text} {conf : StringMap} {port : Text}
    (hkept : WellKept [file] conf) (hport : conf.lookup "port".toList = some port) :
    port ≠ [] ∧ port.head? ≠ some ' ' := by
  rcases hkept.values _ _ hport with hdefault | hwritten
  · have htext : port = "6509".toList := by simpa [defaults] using hdefault
    rw [htext]
    decide
  · exact ⟨hwritten.not_nil, hwritten.head⟩

/-- A numeral at the end of the file is the text of the port. -/
theorem port_eq_toDigits {content host port : Text} {conf : StringMap} {n : Nat}
    (h : Configured (some (content ++ '\n' :: optionLine "port".toList (Nat.toDigits 10 n)))
      conf host port) : port = Nat.toDigits 10 n := by
  have hdigit {c : Char} (hc : c ∈ Nat.toDigits 10 n) : c.isDigit = true :=
    Nat.isDigit_of_mem_toDigits (by decide) (le_refl 10) hc
  have hspace {c : Char} (hc : c ∈ Nat.toDigits 10 n) : isSpace c = false := by
    rw [isSpace, decide_eq_false_iff_not]
    rintro rfl
    cases hdigit hc
  have hline : '\n' ∉ Nat.toDigits 10 n := by
    intro hmem
    cases hdigit hmem
  have htrimmed : Trimmed isSpace (Nat.toDigits 10 n) :=
    fun hne => ⟨hspace (List.head_mem hne), hspace (List.getLast_mem hne)⟩
  have hoption : "port".toList ∈ optionNames := by decide
  have hkeys : defaults.map (·.1) = optionNames := rfl
  obtain ⟨config, _, value, ⟨⟨_, hload⟩, _, hvalue⟩, _⟩ := exists_configured (some content)
  obtain ⟨⟨_, hloaded⟩, _, hport⟩ := h
  rw [load_optionLine hkeys hoption hline Nat.toDigits_ne_nil htrimmed, hload] at hloaded
  obtain ⟨_, rfl⟩ := Prod.mk.inj (Except.ok.inj hloaded)
  rw [lookup_assign, if_pos rfl, hvalue, Option.map_some, Option.some.injEq] at hport
  exact hport.symm

/-- The port that the end of the file sets is the one that the client gets. -/
theorem port_of_optionLine (unset : Int) {content host port : Text} {conf : StringMap} {n : Nat}
    (h : Configured (some (content ++ '\n' :: optionLine "port".toList (Nat.toDigits 10 n)))
      conf host port) : (newClient unset host port).port = toLong n := by
  have hend : ∀ c ∈ ([] : Text).head?, c.isDigit = false := by simp
  have hdenotes := (denotes_toDigits n hend).1
  rw [List.append_nil, ← port_eq_toDigits h] at hdenotes
  exact readLong_of_denotes hdenotes unset

/-- For every configuration file, `Bin::Bin` builds its client with the configured host and
with the number that begins the text of the port, cut to the range of `long`. Without such a
number the client gets port 0, or, where the text is of white space, what the variable
happened to hold. -/
theorem bin_reads_port (unset : Int) (file : Option Text) :
    ∃ conf host port client, Configured file conf host port ∧
      (∀ (service : HttpClient → Env σ) (start : Startup),
        newBin (fun host port => service (newClient unset host port)) start file =
          ofExcept start.runNode >>= fun _ => pure (conf, service client)) ∧
      client.host = host ∧
      (∀ n, Denotes port n → client.port = toLong n) ∧
      ((∀ n, ¬Denotes port n) → client.port = if port.all isWhite then unset else 0) ∧
      port ≠ [] ∧ port.head? ≠ some ' ' := by
  obtain ⟨conf, host, port, hconf, hkept⟩ := exists_configured file
  refine ⟨conf, host, port, newClient unset host port, hconf, ?_, rfl, ?_, ?_,
    port_trimmed hkept hconf.port⟩
  · intro service start
    exact newBin_of_configured hconf _ start
  · intro n hn
    exact readLong_of_denotes hn unset
  · intro hnone
    exact readLong_of_not_denotes hnone unset

example : (load defaults (some "port=8080 # the service\n".toList)).toOption.bind
      (·.2.lookup "port".toList) = some "8080 # the service".toList ∧
    readLong 0 "8080 # the service".toList = 8080 := by decide

example : (load defaults (some "port = \t\n".toList)).toOption.bind
      (·.2.lookup "port".toList) = some ['\t'] ∧ readLong 42 ['\t'] = 42 := by decide

end Clients

end Dpaste.ServicePort
