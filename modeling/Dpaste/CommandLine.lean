import Dpaste.CipherParameters

/-!
The command line: the loop of `parseArgs` over the options, and the parameters that a paste
gets from them.
-/

namespace Dpaste.CommandLine

open Dpaste.LibraryInterfaces
open Dpaste.CipherParameters

structure ParsedArgs where
  fail : Bool := false
  help : Bool := false
  version : Bool := false
  sign : Bool := false
  aesEncrypt : Bool := false
  gpgEncrypt : Bool := false
  noDecrypt : Bool := false
  selfRecipient : Bool := false
  code : Text := []
  recipients : List Text := []

/-- What `getopt_long` yields: a known option with its argument, or something else. -/
inductive Opt
  | help
  | version
  | get (optarg : Text)
  | aesEncrypt
  | gpgEncrypt
  | recipients (optarg : Text)
  | sign
  | noDecrypt
  | selfRecipient
  | invalid
  deriving DecidableEq

/-- The loop of `parseArgs`. It ends at the first invalid option. -/
def parseFrom : ParsedArgs → List Opt → ParsedArgs
  | pa, [] => pa
  | pa, .help :: opts => parseFrom { pa with help := true } opts
  | pa, .version :: opts => parseFrom { pa with version := true } opts
  | pa, .get optarg :: opts => parseFrom { pa with code := optarg } opts
  | pa, .aesEncrypt :: opts => parseFrom { pa with aesEncrypt := true } opts
  | pa, .gpgEncrypt :: opts => parseFrom { pa with gpgEncrypt := true } opts
  | pa, .recipients optarg :: opts =>
      parseFrom { pa with recipients := pa.recipients ++ [optarg] } opts
  | pa, .sign :: opts => parseFrom { pa with sign := true } opts
  | pa, .noDecrypt :: opts => parseFrom { pa with noDecrypt := true } opts
  | pa, .selfRecipient :: opts => parseFrom { pa with selfRecipient := true } opts
  | pa, .invalid :: _ => { pa with fail := true }

def parseArgs (opts : List Opt) : ParsedArgs := parseFrom {} opts

/-- `params_from_args`. Default-constructed GPG parameters take the fields without an
initialiser from the storage. -/
def paramsFromArgs (storage : Storage) (pa : ParsedArgs) : Option Parameters :=
  if pa.aesEncrypt then some (.aes ⟨[]⟩)
  else if pa.gpgEncrypt then
    some (.gpg (.ofRecipients pa.recipients pa.selfRecipient pa.sign))
  else if pa.sign then some (.gpg { GPGParameters.unset storage with sign := pa.sign })
  else none

def ParsedArgs.wantsCipher (pa : ParsedArgs) : Bool :=
  pa.aesEncrypt || pa.gpgEncrypt || pa.sign

theorem paramsFromArgs_aes {storage : Storage} {pa : ParsedArgs} (h : pa.aesEncrypt = true) :
    paramsFromArgs storage pa = some (.aes ⟨[]⟩) := if_pos h

theorem paramsFromArgs_gpg {storage : Storage} {pa : ParsedArgs}
    (haes : pa.aesEncrypt = false) (hgpg : pa.gpgEncrypt = true) :
    paramsFromArgs storage pa =
      some (.gpg (.ofRecipients pa.recipients pa.selfRecipient pa.sign)) := by
  simp [paramsFromArgs, haes, hgpg]

theorem paramsFromArgs_sign {storage : Storage} {pa : ParsedArgs}
    (haes : pa.aesEncrypt = false) (hgpg : pa.gpgEncrypt = false) (hsign : pa.sign = true) :
    paramsFromArgs storage pa =
      some (.gpg { GPGParameters.unset storage with sign := true }) := by
  simp [paramsFromArgs, haes, hgpg, hsign]

theorem paramsFromArgs_eq_none_iff {storage : Storage} {pa : ParsedArgs} :
    paramsFromArgs storage pa = none ↔ pa.wantsCipher = false := by
  unfold paramsFromArgs ParsedArgs.wantsCipher
  cases pa.aesEncrypt <;> cases pa.gpgEncrypt <;> cases pa.sign <;> simp

section Options

def Opt.code? : Opt → Option Text
  | .get optarg => some optarg
  | _ => none

def Opt.recipient? : Opt → Option Text
  | .recipients optarg => some optarg
  | _ => none

/-- The argument of the last get option. -/
def lastCode (opts : List Opt) : Option Text := (opts.filterMap Opt.code?).getLast?

theorem lastCode_get (code : Text) (opts : List Opt) :
    lastCode (.get code :: opts) = some ((lastCode opts).getD code) := by
  simp [lastCode, Opt.code?, List.getLast?_cons]

/-- Without an invalid option each field tells which options occur. -/
theorem parseFrom_eq {opts : List Opt} (h : .invalid ∉ opts) (pa : ParsedArgs) :
    parseFrom pa opts = {
      fail := pa.fail
      help := pa.help || decide (.help ∈ opts)
      version := pa.version || decide (.version ∈ opts)
      sign := pa.sign || decide (.sign ∈ opts)
      aesEncrypt := pa.aesEncrypt || decide (.aesEncrypt ∈ opts)
      gpgEncrypt := pa.gpgEncrypt || decide (.gpgEncrypt ∈ opts)
      noDecrypt := pa.noDecrypt || decide (.noDecrypt ∈ opts)
      selfRecipient := pa.selfRecipient || decide (.selfRecipient ∈ opts)
      code := (lastCode opts).getD pa.code
      recipients := pa.recipients ++ opts.filterMap Opt.recipient? } := by
  induction opts generalizing pa with
  | nil => simp [parseFrom, lastCode]
  | cons opt opts ih =>
      rw [List.mem_cons, not_or] at h
      cases opt with
      | invalid => exact absurd rfl h.1
      | get code => simp [parseFrom, ih h.2, lastCode_get, List.filterMap_cons, Opt.recipient?]
      | _ => simp [parseFrom, ih h.2, lastCode, List.filterMap_cons, Opt.code?, Opt.recipient?]

theorem parseFrom_fail {opts : List Opt} (h : .invalid ∈ opts) (pa : ParsedArgs) :
    (parseFrom pa opts).fail = true := by
  induction opts generalizing pa with
  | nil => cases h
  | cons opt opts ih =>
      cases opt with
      | invalid => rfl
      | _ => exact ih ((List.mem_cons.mp h).resolve_left (by simp)) _

/-- The same flags occur, and the arguments that count are the same. -/
structure SameOptions (opts opts' : List Opt) : Prop where
  flags : ∀ opt : Opt, opt.code? = none → opt.recipient? = none → (opt ∈ opts ↔ opt ∈ opts')
  code : (lastCode opts).getD [] = (lastCode opts').getD []
  recipients : opts.filterMap Opt.recipient? = opts'.filterMap Opt.recipient?

theorem SameOptions.parseArgs_eq {opts opts' : List Opt} (h : SameOptions opts opts')
    (hvalid : .invalid ∉ opts) : parseArgs opts = parseArgs opts' := by
  have hvalid' : .invalid ∉ opts' := fun hmem => hvalid ((h.flags .invalid rfl rfl).mpr hmem)
  rw [parseArgs, parseArgs, parseFrom_eq hvalid, parseFrom_eq hvalid']
  simp only [h.flags .help rfl rfl, h.flags .version rfl rfl, h.flags .sign rfl rfl,
    h.flags .aesEncrypt rfl rfl, h.flags .gpgEncrypt rfl rfl, h.flags .noDecrypt rfl rfl,
    h.flags .selfRecipient rfl rfl, h.code, h.recipients]

end Options

end Dpaste.CommandLine
