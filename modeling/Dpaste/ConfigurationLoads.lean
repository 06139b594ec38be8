import Dpaste.ConfigurationStore

/-!
What several loads come to. The last assignment to an option is the one that counts, in
whichever file it stands.
-/

namespace Dpaste.ConfigurationLoads

open Dpaste.LibraryInterfaces
open Dpaste.TextFields
open Dpaste.ConfigurationFile
open Dpaste.ConfigurationLines
open Dpaste.ConfigurationStore

section LastWins

variable {K V : Type*} [DecidableEq K]

/-- The value of the last assignment to a key. -/
def lastValue (assignments : List (K × V)) (key : K) : Option V := assignments.reverse.lookup key

theorem lastValue_append (earlier later : List (K × V)) (key : K) :
    lastValue (earlier ++ later) key =
      (lastValue later key).or (lastValue earlier key) := by
  rw [lastValue, List.reverse_append, List.lookup_append]
  rfl

theorem lastValue_singleton (key' : K) (value : V) (key : K) :
    lastValue [(key', value)] key = if key = key' then some value else none := by
  unfold lastValue
  by_cases hkey : key = key'
  · rw [if_pos hkey, hkey]
    exact List.lookup_cons_self
  · rw [if_neg hkey]
    simp [List.lookup_cons, beq_false_of_ne hkey]

/-- What is assigned again later need not have been assigned before. -/
theorem lastValue_again (first between : List (K × V)) (key : K) :
    lastValue (first ++ between ++ first) key = lastValue (between ++ first) key := by
  simp only [lastValue_append]
  cases lastValue first key with
  | none => rw [Option.none_or, Option.none_or, Option.or_none]
  | some value => rw [Option.some_or, Option.some_or]

/-- The entries once all the assignments are made. -/
def settled (entries assignments : List (K × V)) : List (K × V) :=
  entries.map fun entry => (entry.1, (lastValue assignments entry.1).getD entry.2)

theorem settled_congr {entries assignments assignments' : List (K × V)}
    (h : ∀ key, lastValue assignments key = lastValue assignments' key) :
    settled entries assignments = settled entries assignments' := by
  unfold settled
  apply List.map_congr_left
  intro entry _
  rw [h]

theorem settled_append (entries earlier later : List (K × V)) :
    settled entries (earlier ++ later) = settled (settled entries earlier) later := by
  simp only [settled, List.map_map]
  apply List.map_congr_left
  intro entry _
  simp only [Function.comp, lastValue_append]
  cases lastValue later entry.1 <;> rfl

end LastWins

section Loads

variable {config : StringMap} {files : List (Option Text)}

/-- The assignments that a text makes, line after line. -/
def assignmentsIn (content : Text) : List (Text × Text) :=
  (records '\n' content).filterMap (assignment (isOption defaults))

/-- Those of the files that can be opened. -/
def assignmentsOf (files : List (Option Text)) : List (Text × Text) :=
  files.flatMap fun
    | none => []
    | some content => assignmentsIn content

theorem assignmentsIn_append (u v : Text) :
    assignmentsIn (u ++ '\n' :: v) = assignmentsIn u ++ assignmentsIn v := by
  unfold assignmentsIn
  rcases records_append (d := '\n') u v with h | h
  · rw [h, List.filterMap_append]
  · rw [h, List.filterMap_append, List.filterMap_cons_none assignment_nil]

theorem settled_singleton (key value : Text) :
    settled config [(key, value)] = assign config key value := by
  unfold settled assign
  apply List.map_congr_left
  intro entry _
  rw [lastValue_singleton]
  by_cases hkey : entry.1 = key
  · rw [if_pos hkey, if_pos hkey, Option.getD_some]
  · rw [if_neg hkey, if_neg hkey, Option.getD_none]

theorem settled_nil : settled config [] = config := by
  unfold settled
  exact List.map_id' config

theorem keys_settled (assignments : List (Text × Text)) :
    (settled config assignments).map (·.1) = config.map (·.1) := by
  rw [settled, List.map_map]
  rfl

/-- The lines of a file settle the values that they assign. -/
theorem effects_eq {lines : List Text} (hkeys : config.map (·.1) = optionNames) :
    lines.foldl effect config =
      settled config (lines.filterMap (assignment (isOption defaults))) := by
  induction lines generalizing config with
  | nil => rw [List.foldl_nil, List.filterMap_nil, settled_nil]
  | cons line lines ih =>
      rw [List.foldl_cons, ih ((effect_keys config line).trans hkeys), effect_eq hkeys]
      cases hassigned : assignment (isOption defaults) line with
      | none => rw [List.filterMap_cons_none hassigned, perform]
      | some entry =>
          rw [List.filterMap_cons_some hassigned, ← List.singleton_append, settled_append,
            settled_singleton, perform]

theorem load_settles {content : Text} (hkeys : config.map (·.1) = optionNames) :
    load config (some content) = .ok (0, settled config (assignmentsIn content)) := by
  rw [load_eq, effects_eq hkeys, assignmentsIn]

theorem loadAll_settles (hkeys : config.map (·.1) = optionNames) :
    loadAll config files = .ok (settled config (assignmentsOf files)) := by
  induction files generalizing config with
  | nil => rw [assignmentsOf, List.flatMap_nil, settled_nil, loadAll]
  | cons file files ih =>
      cases file with
      | none =>
          show loadAll config files = _
          rw [ih hkeys]
          rfl
      | some content =>
          simp only [loadAll, load_settles hkeys, bind, Except.bind]
          rw [ih ((keys_settled _).trans hkeys), ← settled_append]
          rfl

/-- A line that sets an option, as the format is documented. -/
def optionLine (key value : Text) : Text := key ++ " = ".toList ++ value

theorem optionLine_eq (key value : Text) :
    optionLine key value = (key ++ [' ']) ++ '=' :: ' ' :: value := by
  simp [optionLine]

theorem assignmentsIn_optionLine {key value : Text} (hkey : key ∈ optionNames)
    (hline : '\n' ∉ value) (hne : value ≠ []) (htrimmed : Trimmed isSpace value) :
    assignmentsIn (optionLine key value) = [(key, value)] := by
  have hnames : ∀ key ∈ optionNames, '\n' ∉ key ∧ '=' ∉ key ++ [' '] ∧
      strip isSpace (key ++ [' ']) = key ∧ isOption defaults key = true := by decide
  obtain ⟨hnewline, hequals, hstrip, hknown⟩ := hnames key hkey
  have hbefore := forall_ne_of_notMem hequals
  have hoption : optionOf (optionLine key value) = key := by
    rw [optionOf, optionLine_eq, List.takeWhile_append_of_pos hbefore,
      List.takeWhile_cons_of_neg (by simp), List.append_nil, hstrip]
  have hmargin : ∀ c ∈ [' '], isSpace c = true := by
    intro c hc
    rw [List.mem_singleton.mp hc]
    rfl
  have hvalue : valueOf (optionLine key value) = value := by
    rw [valueOf, afterFirst, optionLine_eq, List.dropWhile_append_of_pos hbefore,
      List.dropWhile_cons_of_neg (by simp), List.tail_cons]
    exact strip_of_margins (u := [' ']) (v := []) (by simp) hmargin (by simp) htrimmed
  have hnil : optionLine key value ≠ [] := by simp [optionLine_eq]
  have hone : records '\n' (optionLine key value) = [optionLine key value] := by
    have hmem : '\n' ∉ optionLine key value := by
      simp [optionLine, hnewline, hline]
    rw [records_eq_cons hnil, afterFirst_of_notMem hmem, records,
      List.takeWhile_eq_self_iff.mpr (forall_ne_of_notMem hmem)]
  have hassigned : assignment (isOption defaults) (optionLine key value) = some (key, value) := by
    rw [assignment_of_known hnil (by rw [hoption, hknown]), hoption, hvalue, if_neg hne]
  rw [assignmentsIn, hone, List.filterMap_cons_some hassigned, List.filterMap_nil]

/-- A line at the end of a file sets its option, whatever stands before it. -/
theorem load_optionLine {key value : Text} (hkeys : config.map (·.1) = optionNames)
    (hkey : key ∈ optionNames) (hline : '\n' ∉ value) (hne : value ≠ [])
    (htrimmed : Trimmed isSpace value) (content : Text) :
    load config (some (content ++ '\n' :: optionLine key value)) =
      (load config (some content)).map fun r => (r.1, assign r.2 key value) := by
  rw [load_settles hkeys, load_settles hkeys, assignmentsIn_append,
    assignmentsIn_optionLine hkey hline hne htrimmed, settled_append, settled_singleton]
  rfl

/-- The files one after the other, in one file. -/
def joined (files : List (Option Text)) : Text :=
  files.flatMap fun
    | none => []
    | some content => content ++ ['\n']

theorem assignmentsIn_joined : assignmentsIn (joined files) = assignmentsOf files := by
  induction files with
  | nil => rfl
  | cons file files ih =>
      cases file with
      | none => exact ih
      | some content =>
          show assignmentsIn (content ++ ['\n'] ++ joined files) =
            assignmentsIn content ++ assignmentsOf files
          rw [← ih, ← assignmentsIn_append, List.append_assoc, List.singleton_append]

/-- After any loads: to load files again is the same as not to have loaded them before, and
to load files one after the other is the same as to load one file that holds them in this
order. Files that cannot be opened count for nothing. -/
theorem loads_compose (earlier files between : List (Option Text)) :
    loadAll defaults (earlier ++ files ++ between ++ files) =
        loadAll defaults (earlier ++ between ++ files) ∧
      loadAll defaults (earlier ++ files) =
        loadAll defaults (earlier ++ [some (joined files)]) := by
  have hkeys : defaults.map (·.1) = optionNames := rfl
  simp only [loadAll_settles hkeys, Except.ok.injEq]
  constructor
  · apply settled_congr
    intro key
    simp only [assignmentsOf, List.flatMap_append]
    rw [List.append_assoc, List.append_assoc, lastValue_append, ← List.append_assoc,
      lastValue_again, ← lastValue_append, ← List.append_assoc]
  · congr 1
    simp only [assignmentsOf, List.flatMap_append, List.flatMap_singleton]
    rw [assignmentsIn_joined, assignmentsOf]

end Loads

end Dpaste.ConfigurationLoads
