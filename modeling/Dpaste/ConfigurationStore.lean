import Dpaste.LabelledRuns
import Dpaste.ConfigurationLines
import Dpaste.TrimmedText

/-!
The configuration over any sequence of loads: its options, where their values come from, and
in which orders of lines it is the same.
-/

namespace Dpaste.ConfigurationStore

open Dpaste.LabelledRuns
open Dpaste.LibraryInterfaces
open Dpaste.TextFields
open Dpaste.ConfigurationFile
open Dpaste.ConfigurationLines
open Dpaste.TrimmedText

variable {config : StringMap} {known : Text → Bool} {line line' : Text}
  {files : List (Option Text)}

/-- One load after the other, each of a file of its own. -/
def loadAll : StringMap → List (Option Text) → Except Exn StringMap
  | config, [] => .ok config
  | config, file :: files => do
      let (_, config) ← load config file
      loadAll config files

section Values

/-- The value of an assignment stands behind an `=` of the line, and has no margins. -/
theorem value_in_line {key value : Text} (h : assignment known line = some (key, value)) :
    (∃ u v w, line = u ++ '=' :: (v ++ value ++ w)) ∧ Trimmed isSpace value := by
  induction line using assignment.induct known with
  | case1 => simp at h
  | case2 line hline hoption hvalue => simp [assignment_of_known hline hoption, hvalue] at h
  | case3 line hline hoption hvalue =>
      rw [assignment_of_known hline hoption, if_neg hvalue, Option.some.injEq,
        Prod.mk.injEq] at h
      obtain ⟨-, rfl⟩ := h
      have hmem : '=' ∈ line := by
        refine mem_of_afterFirst_ne_nil fun hnone => hvalue ?_
        rw [valueOf, hnone]
        rfl
      obtain ⟨v, w, hafter, _, _⟩ := exists_margins isSpace (afterFirst '=' line)
      refine ⟨⟨line.takeWhile (· ≠ '='), v, w, ?_⟩, trimmed_strip isSpace _⟩
      rw [valueOf, ← hafter]
      exact eq_append_afterFirst hmem
  | case4 line hline hoption ih =>
      rw [assignment_of_unknown (by simpa using hoption)] at h
      obtain ⟨⟨u, v, w, hafter⟩, hvalue⟩ := ih h
      have hmem : '=' ∈ line := by
        refine mem_of_afterFirst_ne_nil ?_
        rw [hafter]
        simp
      refine ⟨⟨line.takeWhile (· ≠ '=') ++ '=' :: u, v, w, ?_⟩, hvalue⟩
      rw [List.append_assoc, List.cons_append, ← hafter]
      exact eq_append_afterFirst hmem

/-- The value is not blank, has no spaces around it, and stands behind an `=` in a line of
one of the files. -/
structure Written (files : List (Option Text)) (value : Text) : Prop where
  not_nil : value ≠ []
  head : value.head? ≠ some ' '
  last : value.getLast? ≠ some ' '
  occurs : ∃ content line u v w, some content ∈ files ∧ line ∈ records '\n' content ∧
    line = u ++ '=' :: (v ++ value ++ w)

theorem written_of_assignment {content key value : Text} (hcontent : some content ∈ files)
    (hline : line ∈ records '\n' content) (h : assignment known line = some (key, value)) :
    Written files value := by
  obtain ⟨⟨u, v, w, hsplit⟩, htrimmed⟩ := value_in_line h
  obtain ⟨hhead, hlast⟩ := trimmed_iff.mp htrimmed
  exact {
    not_nil := (assignment_eq_some h).2
    head := hhead
    last := hlast
    occurs := ⟨content, line, u, v, w, hcontent, hline, hsplit⟩ }

end Values

section Effects

theorem assign_comm {key key' : Text} (h : key ≠ key') (value value' : Text) :
    assign (assign config key value) key' value' =
      assign (assign config key' value') key value := by
  simp only [assign, List.map_map]
  apply List.map_congr_left
  intro entry _
  by_cases hfirst : entry.1 = key
  · subst hfirst
    simp [h]
  · by_cases hsecond : entry.1 = key'
    · subst hsecond
      simp [hfirst]
    · simp [hfirst, hsecond]

theorem isOption_eq (hkeys : config.map (·.1) = optionNames) :
    isOption config = isOption defaults := by
  funext text
  rw [Bool.eq_iff_iff, isOption_iff, isOption_iff, hkeys, optionNames]

/-- What a line assigns depends on the names of the options only. -/
theorem effect_eq (hkeys : config.map (·.1) = optionNames) (line : Text) :
    effect config line = perform config (assignment (isOption defaults) line) := by
  rw [effect, isOption_eq hkeys]

end Effects

section Orders

/-- In some configuration the line changes the option. -/
def Changes (line key : Text) : Prop :=
  ∃ config config', config.map (·.1) = optionNames ∧
    readFields (line.length + 1) config line = .ok config' ∧
    config'.lookup key ≠ config.lookup key

/-- No option is changed by both lines. -/
def Independent (line line' : Text) : Prop := ∀ key, Changes line key → ¬Changes line' key

theorem changes_of_assignment {key value : Text} (hline : '\n' ∉ line)
    (h : assignment (isOption defaults) line = some (key, value)) : Changes line key := by
  rw [← isOption_eq keys_blanks] at h
  exact ⟨blanks, effect blanks line, keys_blanks,
    readFields_eq (Nat.lt_succ_self _) hline, lookup_effect_blanks h⟩

theorem effect_comm (hkeys : config.map (·.1) = optionNames) (hline : '\n' ∉ line)
    (hline' : '\n' ∉ line') (h : Independent line line') :
    effect (effect config line) line' = effect (effect config line') line := by
  rw [effect_eq ((effect_keys config line).trans hkeys),
    effect_eq ((effect_keys config line').trans hkeys), effect_eq hkeys, effect_eq hkeys]
  cases hassignment : assignment (isOption defaults) line with
  | none => rfl
  | some entry =>
      cases hassignment' : assignment (isOption defaults) line' with
      | none => rfl
      | some entry' =>
          refine assign_comm ?_ entry.2 entry'.2
          intro hsame
          have hchanges := changes_of_assignment hline hassignment
          have hchanges' := changes_of_assignment hline' hassignment'
          exact h entry.1 hchanges (hsame ▸ hchanges')

/-- A line changes one option at most, the same one in every configuration. -/
theorem changes_one (hline : '\n' ∉ line) :
    ∃ key, ∀ config, config.map (·.1) = optionNames →
      ∃ config', readFields (line.length + 1) config line = .ok config' ∧
        ∀ key' ≠ key, config'.lookup key' = config.lookup key' := by
  refine ⟨((assignment (isOption defaults) line).map (·.1)).getD [], ?_⟩
  intro config hkeys
  refine ⟨effect config line, readFields_eq (Nat.lt_succ_self _) hline, ?_⟩
  intro key' hother
  refine lookup_effect_other fun value h => hother ?_
  rw [← isOption_eq hkeys, h]
  rfl

/-- Loads agree on files whose lines differ in their order only, if the lines that change
an option keep their order. -/
theorem load_reordered (hkeys : config.map (·.1) = optionNames) {content content' : Text}
    (h : Reordered Independent (records '\n' content) (records '\n' content')) :
    load config (some content) = load config (some content') := by
  have hfold : (records '\n' content).foldl effect config =
      (records '\n' content').foldl effect config := by
    refine Reordered.foldl_eq (I := fun config => config.map (·.1) = optionNames)
      (L := fun line => '\n' ∉ line) ?_ ?_ h (fun _ => notMem_of_mem_records) hkeys
    · intro config line hkeys
      exact (effect_keys config line).trans hkeys
    · intro config line line' hkeys hline hline' hindependent
      exact effect_comm hkeys hline hline' hindependent
  rw [load_eq, load_eq, hfold]

end Orders

section Loads

/-- What the configuration keeps over the loads of the files: its options, and for each
option the default or a value from a file. -/
structure WellKept (files : List (Option Text)) (config : StringMap) : Prop where
  keys : config.map (·.1) = ["host".toList, "port".toList, "pgp_key_id".toList]
  values : ∀ key value, config.lookup key = some value →
    (key, value) ∈ defaults ∨ Written files value

theorem wellKept_defaults (files : List (Option Text)) : WellKept files defaults where
  keys := rfl
  values key value h := by
    obtain ⟨before, after, hsplit, _⟩ := List.lookup_eq_some_iff.mp h
    exact .inl (hsplit ▸ by simp)

theorem WellKept.effect {content : Text} (h : WellKept files config)
    (hcontent : some content ∈ files) (hline : line ∈ records '\n' content) :
    WellKept files (effect config line) where
  keys := (effect_keys config line).trans h.keys
  values key value hvalue := by
    by_cases hassigned : ∃ value, assignment (isOption config) line = some (key, value)
    · obtain ⟨value', hassignment⟩ := hassigned
      rw [lookup_effect_self hassignment, Option.some.injEq] at hvalue
      subst hvalue
      exact .inr (written_of_assignment hcontent hline hassignment)
    · rw [lookup_effect_other fun value' h' => hassigned ⟨value', h'⟩] at hvalue
      exact h.values key value hvalue

theorem WellKept.effects {content : Text} {lines : List Text} (h : WellKept files config)
    (hcontent : some content ∈ files) (hlines : ∀ line ∈ lines, line ∈ records '\n' content) :
    WellKept files (lines.foldl ConfigurationLines.effect config) := by
  induction lines generalizing config with
  | nil => exact h
  | cons line lines ih =>
      rw [List.forall_mem_cons] at hlines
      exact ih (h.effect hcontent hlines.1) hlines.2

theorem WellKept.load {file : Option Text} (h : WellKept files config) (hfile : file ∈ files) :
    ∃ result config', load config file = .ok (result, config') ∧ WellKept files config' := by
  cases file with
  | none => exact ⟨1, config, rfl, h⟩
  | some content =>
      exact ⟨0, _, load_eq config content, h.effects hfile fun _ => id⟩

theorem WellKept.loadAll {loaded : List (Option Text)} (h : WellKept files config)
    (hloaded : ∀ file ∈ loaded, file ∈ files) :
    ∃ config', loadAll config loaded = .ok config' ∧ WellKept files config' := by
  induction loaded generalizing config with
  | nil => exact ⟨config, rfl, h⟩
  | cons file loaded ih =>
      rw [List.forall_mem_cons] at hloaded
      obtain ⟨result, config', hload, hkept⟩ := h.load hloaded.1
      obtain ⟨config'', hrest, hkept'⟩ := ih hkept hloaded.2
      refine ⟨config'', ?_, hkept'⟩
      simp only [ConfigurationStore.loadAll, hload, bind, Except.bind, hrest]

theorem WellKept.lookup {key : Text} (h : WellKept files config) (hkey : key ∈ optionNames) :
    ∃ value, config.lookup key = some value := by
  have hoption : isOption config key = true := isOption_iff.mpr (h.keys ▸ hkey)
  exact Option.isSome_iff_exists.mp hoption

theorem WellKept.mapAt {σ : Type} {key : Text} (h : WellKept files config)
    (hkey : key ∈ optionNames) : ∃ value, mapAt config key = (pure value : Code σ Text) := by
  obtain ⟨value, hvalue⟩ := h.lookup hkey
  refine ⟨value, ?_⟩
  rw [LibraryInterfaces.mapAt, hvalue]

/-- What `Bin::Bin` takes from a configuration file, or from the defaults where there is
none. -/
structure Configured (file : Option Text) (conf : StringMap) (host port : Text) : Prop where
  load : ∃ result, load defaults file = .ok (result, conf)
  host : conf.lookup "host".toList = some host
  port : conf.lookup "port".toList = some port

theorem exists_configured (file : Option Text) :
    ∃ conf host port, Configured file conf host port ∧ WellKept [file] conf := by
  obtain ⟨result, conf, hload, hkept⟩ :=
    (wellKept_defaults [file]).load (List.mem_singleton_self file)
  obtain ⟨host, hhost⟩ := hkept.lookup (show "host".toList ∈ optionNames by decide)
  obtain ⟨port, hport⟩ := hkept.lookup (show "port".toList ∈ optionNames by decide)
  exact ⟨conf, host, port, ⟨⟨result, hload⟩, hhost, hport⟩, hkept⟩

/-- Any sequence of loads keeps the options, and their values are defaults or stand in a
loaded file. From there no lookup of an option fails, a line changes one option at most,
lines that change different options can be exchanged, and a file that cannot be opened
changes nothing. -/
theorem configuration_store {σ : Type} (files : List (Option Text)) :
    ∃ config, loadAll defaults files = .ok config ∧ WellKept files config ∧
      (∀ key ∈ optionNames, ∃ value, mapAt config key = (pure value : Code σ Text)) ∧
      (∀ line, '\n' ∉ line →
        ∃ key, ∀ config, config.map (·.1) = optionNames →
          ∃ config', readFields (line.length + 1) config line = .ok config' ∧
            ∀ key' ≠ key, config'.lookup key' = config.lookup key') ∧
      (∀ content content',
        Reordered Independent (records '\n' content) (records '\n' content') →
          load config (some content) = load config (some content')) ∧
      load config none = .ok (1, config) := by
  obtain ⟨config, hload, hkept⟩ := (wellKept_defaults files).loadAll fun _ => id
  refine ⟨config, hload, hkept, fun key => hkept.mapAt, fun _ => changes_one, ?_, rfl⟩
  intro content content'
  exact load_reordered hkept.keys

end Loads

end Dpaste.ConfigurationStore
