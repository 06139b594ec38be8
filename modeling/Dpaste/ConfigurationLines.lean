import Dpaste.ConfigurationFile

/-!
What a configuration file amounts to: the assignment of each of its lines, and which lines
are read otherwise than documented.
-/

namespace Dpaste.ConfigurationLines

open Dpaste.LibraryInterfaces
open Dpaste.TextFields
open Dpaste.ConfigurationFile

variable {config : StringMap} {known : Text → Bool} {line : Text}

/-- The text before the first `=` of a line, without surrounding spaces. -/
def optionOf (line : Text) : Text := strip isSpace (line.takeWhile (· ≠ '='))

/-- The text after the first `=` of a line, without surrounding spaces. -/
def valueOf (line : Text) : Text := strip isSpace (afterFirst '=' line)

section Assignments

/-- The assignment that the inner loop makes of a line: the first field that is a known
option gets the rest of the line, if that is not blank. -/
def assignment (known : Text → Bool) (line : Text) : Option (Text × Text) :=
  if line = [] then none
  else if known (optionOf line) then
    if valueOf line = [] then none else some (optionOf line, valueOf line)
  else assignment known (afterFirst '=' line)
termination_by line.length
decreasing_by exact afterFirst_length_lt ‹_›

@[simp] theorem assignment_nil : assignment known [] = none := by
  rw [assignment, if_pos rfl]

theorem assignment_of_known (hline : line ≠ []) (hknown : known (optionOf line) = true) :
    assignment known line =
      if valueOf line = [] then none else some (optionOf line, valueOf line) := by
  rw [assignment, if_neg hline, if_pos hknown]

theorem assignment_of_unknown (hknown : known (optionOf line) = false) :
    assignment known line = assignment known (afterFirst '=' line) := by
  by_cases hline : line = []
  · subst hline
    rfl
  · rw [assignment, if_neg hline, if_neg (by simp [hknown])]

def perform (config : StringMap) : Option (Text × Text) → StringMap
  | none => config
  | some (key, value) => assign config key value

def isOption (config : StringMap) (key : Text) : Bool := (config.lookup key).isSome

theorem readFields_nil (fuel : Nat) : readFields fuel config [] = .ok config := by
  cases fuel <;> rfl

/-- The inner loop makes one assignment at most, whatever the line. -/
theorem readFields_eq {fuel : Nat} (hfuel : line.length < fuel) (hline : '\n' ∉ line) :
    readFields fuel config line =
      .ok (perform config (assignment (isOption config) line)) := by
  induction fuel generalizing line with
  | zero => omega
  | succ fuel ih =>
      by_cases hempty : line = []
      · subst hempty
        rw [readFields_nil, assignment_nil]
        rfl
      · have hrest : '\n' ∉ afterFirst '=' line := fun h => hline (mem_of_mem_afterFirst h)
        have hlt := afterFirst_length_lt (d := '=') hempty
        cases hknown : config.lookup (optionOf line) with
        | none =>
            have hunknown : isOption config (optionOf line) = false := by
              rw [isOption, hknown, Option.isSome_none]
            rw [assignment_of_unknown hunknown, ← ih (by omega) hrest]
            simp only [optionOf] at hknown
            simp only [readFields, getline_eq_some hempty, trimStr_eq, bind, Except.bind, hknown]
        | some value =>
            have hoption : isOption config (optionOf line) = true := by
              rw [isOption, hknown, Option.isSome_some]
            rw [assignment_of_known hempty hoption]
            simp only [optionOf] at hknown
            simp only [readFields, getline_eq_some hempty, trimStr_eq, bind, Except.bind, hknown,
              getline_of_notMem hrest, readFields_nil]
            by_cases hvalue : strip isSpace (afterFirst '=' line) = []
            · simp [valueOf, hvalue, perform]
            · simp [valueOf, hvalue, perform, optionOf]

/-- What a line makes of the configuration. -/
def effect (config : StringMap) (line : Text) : StringMap :=
  perform config (assignment (isOption config) line)

theorem readLines_eq {fuel : Nat} {content : Text} (hfuel : content.length < fuel) :
    readLines fuel config content = .ok ((records '\n' content).foldl effect config) := by
  induction fuel generalizing content config with
  | zero => omega
  | succ fuel ih =>
      by_cases hempty : content = []
      · subst hempty
        rfl
      · have hrecords := records_eq_cons (d := '\n') hempty
        have hline : '\n' ∉ content.takeWhile (· ≠ '\n') :=
          notMem_of_mem_records (hrecords ▸ List.mem_cons_self)
        have hlt := afterFirst_length_lt (d := '\n') hempty
        rw [hrecords, List.foldl_cons, effect]
        simp only [readLines, getline_eq_some hempty, readFields_eq (Nat.lt_succ_self _) hline,
          bind, Except.bind]
        exact ih (by omega)

/-- A load of a file is the effect of its lines, one after the other. -/
theorem load_eq (config : StringMap) (content : Text) :
    load config (some content) = .ok (0, (records '\n' content).foldl effect config) := by
  simp only [load, readLines_eq (Nat.lt_succ_self _), bind, Except.bind]

end Assignments

section Options

theorem lookup_cons_of_ne {key k : Text} (h : key ≠ k) (v : Text) (config : StringMap) :
    List.lookup key ((k, v) :: config) = config.lookup key := by
  have hne : (key == k) = false := by simpa using h
  rw [List.lookup_cons, hne]

theorem lookup_assign (config : StringMap) (key value key' : Text) :
    (assign config key value).lookup key' =
      if key' = key then (config.lookup key').map fun _ => value else config.lookup key' := by
  induction config with
  | nil => simp [assign]
  | cons entry config ih =>
      obtain ⟨k, v⟩ := entry
      simp only [assign, List.map_cons] at ih ⊢
      by_cases hentry : key' = k
      · subst hentry
        by_cases hkey : key' = key <;> simp [hkey]
      · rw [lookup_cons_of_ne hentry, ← ih]
        split
        · exact lookup_cons_of_ne hentry value _
        · exact lookup_cons_of_ne hentry v _

theorem assign_keys (config : StringMap) (key value : Text) :
    (assign config key value).map (·.1) = config.map (·.1) := by
  rw [assign, List.map_map]
  apply List.map_congr_left
  intro entry _
  simp only [Function.comp_apply]
  split <;> rfl

theorem effect_keys (config : StringMap) (line : Text) :
    (effect config line).map (·.1) = config.map (·.1) := by
  rw [effect]
  cases assignment (isOption config) line with
  | none => rfl
  | some entry => exact assign_keys config entry.1 entry.2

theorem isOption_iff {key : Text} :
    isOption config key = true ↔ key ∈ config.map (·.1) := by
  rw [isOption, List.lookup_isSome_iff, List.mem_map]
  constructor
  · rintro ⟨entry, hmem, heq⟩
    exact ⟨entry, hmem, (beq_iff_eq.mp heq).symm⟩
  · rintro ⟨entry, hmem, rfl⟩
    exact ⟨entry, hmem, beq_self_eq_true _⟩

end Options

section Documented

def optionNames : List Text := defaults.map (·.1)

/-- The value of an option in a file: that of the last line of the option whose value is not
blank. -/
def specified (content key default : Text) : Text :=
  (((records '\n' content).filter fun line =>
    optionOf line = key ∧ valueOf line ≠ []).getLast?.map valueOf).getD default

/-- A line that does not begin with an option, but has one in a later field, before a text
that is not blank. -/
def Misread (line : Text) : Prop :=
  optionOf line ∉ optionNames ∧
    ∃ u v, line = u ++ '=' :: v ∧ optionOf v ∈ optionNames ∧ valueOf v ≠ []

theorem valueOf_ne_nil {u v : Text} (hoption : optionOf v ≠ []) :
    valueOf (u ++ '=' :: v) ≠ [] := by
  have hchar : ∃ c ∈ v, isSpace c = false := by
    by_contra hblank
    refine hoption (strip_eq_nil_iff.mpr fun c hc => ?_)
    by_contra hc'
    exact hblank ⟨c, (List.takeWhile_sublist _).subset hc, Bool.eq_false_iff.mpr hc'⟩
  obtain ⟨c, hc, hspace⟩ := hchar
  have hmem : c ∈ afterFirst '=' (u ++ '=' :: v) := by
    rcases afterFirst_append u v with h | ⟨u', h⟩
    · rw [h]
      exact hc
    · rw [h]
      exact List.mem_append_right u' (List.mem_cons_of_mem _ hc)
  intro hvalue
  rw [strip_eq_nil_iff.mp hvalue c hmem] at hspace
  cases hspace

theorem optionOf_nil : optionOf [] = [] := rfl

/-- A line amounts to an assignment exactly when one of its fields is an option that is
followed by a text that is not blank. -/
theorem assignment_ne_none_iff (hknown : known [] = false) :
    assignment known line ≠ none ↔
      known (optionOf line) = true ∧ valueOf line ≠ [] ∨
        ∃ u v, line = u ++ '=' :: v ∧ known (optionOf v) = true ∧ valueOf v ≠ [] := by
  have hne {text : Text} (h : known text = true) : text ≠ [] := by
    rintro rfl
    rw [hknown] at h
    cases h
  induction line using assignment.induct known with
  | case1 =>
      refine iff_of_false (by simp) ?_
      rintro (⟨hoption, _⟩ | ⟨u, v, hline, _⟩)
      · exact hne hoption optionOf_nil
      · simp at hline
  | case2 line hline hoption hvalue =>
      refine iff_of_false ?_ ?_
      · simp [assignment_of_known hline hoption, hvalue]
      · rintro (⟨_, h⟩ | ⟨u, v, rfl, hlater, _⟩)
        · exact h hvalue
        · exact valueOf_ne_nil (hne hlater) hvalue
  | case3 line hline hoption hvalue =>
      refine iff_of_true ?_ (.inl ⟨hoption, hvalue⟩)
      simp [assignment_of_known hline hoption, hvalue]
  | case4 line hline hoption ih =>
      have hunknown : known (optionOf line) = false := by simpa using hoption
      rw [assignment_of_unknown hunknown]
      refine ih.trans ?_
      constructor
      · intro h
        have hsplit : line = line.takeWhile (· ≠ '=') ++ '=' :: afterFirst '=' line := by
          refine eq_append_afterFirst ?_
          by_contra hnone
          rw [afterFirst_of_notMem hnone] at h
          rcases h with ⟨hlater, _⟩ | ⟨u, v, hempty, _⟩
          · exact hne hlater optionOf_nil
          · simp at hempty
        rcases h with ⟨hlater, hvalue⟩ | ⟨u, v, hafter, hlater, hvalue⟩
        · exact .inr ⟨_, _, hsplit, hlater, hvalue⟩
        · refine .inr ⟨line.takeWhile (· ≠ '=') ++ '=' :: u, v, ?_, hlater, hvalue⟩
          rw [List.append_assoc, List.cons_append, ← hafter]
          exact hsplit
      · rintro (⟨h, _⟩ | ⟨u, v, rfl, hlater, hvalue⟩)
        · exact absurd h hoption
        · rcases afterFirst_append u v with h | ⟨u', h⟩
          · rw [h]
            exact .inl ⟨hlater, hvalue⟩
          · exact .inr ⟨u', v, h, hlater, hvalue⟩

theorem assignment_eq_some {key value : Text} (h : assignment known line = some (key, value)) :
    known key = true ∧ value ≠ [] := by
  induction line using assignment.induct known with
  | case1 => simp at h
  | case2 line hline hoption hvalue => simp [assignment_of_known hline hoption, hvalue] at h
  | case3 line hline hoption hvalue =>
      rw [assignment_of_known hline hoption, if_neg hvalue, Option.some.injEq,
        Prod.mk.injEq] at h
      rw [← h.1, ← h.2]
      exact ⟨hoption, hvalue⟩
  | case4 line hline hoption ih =>
      rw [assignment_of_unknown (by simpa using hoption)] at h
      exact ih h

theorem isOption_nil (hkeys : config.map (·.1) = optionNames) : isOption config [] = false := by
  rw [Bool.eq_false_iff, Ne, isOption_iff, hkeys]
  decide

/-- The lines that are documented to be omitted are, unless they are misread. -/
theorem assignment_of_omitted (hkeys : config.map (·.1) = optionNames)
    (hoption : optionOf line ∉ optionNames) (hline : ¬Misread line) :
    assignment (isOption config) line = none := by
  by_contra hsome
  rcases (assignment_ne_none_iff (isOption_nil hkeys)).mp hsome with
    ⟨h, _⟩ | ⟨u, v, hsplit, h, hvalue⟩
  · exact hoption (hkeys ▸ isOption_iff.mp h)
  · exact hline ⟨hoption, u, v, hsplit, hkeys ▸ isOption_iff.mp h, hvalue⟩

theorem lookup_effect_self {key value : Text}
    (h : assignment (isOption config) line = some (key, value)) :
    (effect config line).lookup key = some value := by
  obtain ⟨old, hold⟩ := Option.isSome_iff_exists.mp (assignment_eq_some h).1
  rw [effect, h, perform, lookup_assign, if_pos rfl, hold, Option.map_some]

theorem lookup_effect_other {key : Text}
    (h : ∀ value, assignment (isOption config) line ≠ some (key, value)) :
    (effect config line).lookup key = config.lookup key := by
  rw [effect]
  cases hassignment : assignment (isOption config) line with
  | none => rfl
  | some entry =>
      obtain ⟨key', value'⟩ := entry
      rw [perform, lookup_assign, if_neg]
      rintro rfl
      exact h value' hassignment

/-- A line that is not misread has the documented effect on each option. -/
theorem lookup_effect {key value : Text} (hkeys : config.map (·.1) = optionNames)
    (hline : ¬Misread line) (hvalue : config.lookup key = some value) :
    (effect config line).lookup key =
      some (if optionOf line = key ∧ valueOf line ≠ [] then valueOf line else value) := by
  have hoption (text : Text) : isOption config text = true ↔ text ∈ optionNames := by
    rw [isOption_iff, hkeys]
  have hne (h : optionOf line ∈ optionNames) : line ≠ [] := by
    rintro rfl
    exact absurd h (by decide)
  by_cases hselected : optionOf line = key ∧ valueOf line ≠ []
  · obtain ⟨rfl, hblank⟩ := hselected
    have hknown : isOption config (optionOf line) = true := by
      rw [isOption, hvalue, Option.isSome_some]
    have hassignment := assignment_of_known (hne ((hoption _).mp hknown)) hknown
    rw [if_neg hblank] at hassignment
    rw [if_pos ⟨rfl, hblank⟩, lookup_effect_self hassignment]
  · rw [if_neg hselected, ← hvalue]
    apply lookup_effect_other
    intro assigned h
    by_cases hfirst : optionOf line ∈ optionNames
    · rw [assignment_of_known (hne hfirst) ((hoption _).mpr hfirst),
        Option.ite_none_left_eq_some, Option.some.injEq, Prod.mk.injEq] at h
      exact hselected ⟨h.2.1, h.1⟩
    · rw [assignment_of_omitted hkeys hfirst hline] at h
      cases h

/-- The value that the last selected line gives to an option. -/
theorem lookup_effects {lines : List Text} {key value : Text}
    (hkeys : config.map (·.1) = optionNames) (hlines : ∀ line ∈ lines, ¬Misread line)
    (hvalue : config.lookup key = some value) :
    (lines.foldl effect config).lookup key =
      some (((lines.filter fun line => optionOf line = key ∧ valueOf line ≠ []).getLast?.map
        valueOf).getD value) := by
  induction lines generalizing config value with
  | nil => exact hvalue
  | cons line lines ih =>
      rw [List.forall_mem_cons] at hlines
      have heffect := lookup_effect hkeys hlines.1 hvalue
      rw [List.foldl_cons, ih ((effect_keys config line).trans hkeys) hlines.2 heffect]
      by_cases hselected : optionOf line = key ∧ valueOf line ≠ []
      · rw [List.filter_cons_of_pos (by simpa using hselected), List.getLast?_cons,
          if_pos hselected]
        cases (lines.filter fun line =>
          optionOf line = key ∧ valueOf line ≠ []).getLast? <;> rfl
      · rw [List.filter_cons_of_neg (by simpa using hselected), if_neg hselected]

/-- A configuration in which every assignment shows. -/
def blanks : StringMap := optionNames.map (·, [])

theorem keys_blanks : blanks.map (·.1) = optionNames := rfl

theorem lookup_effect_blanks {key value : Text}
    (h : assignment (isOption blanks) line = some (key, value)) :
    (effect blanks line).lookup key ≠ blanks.lookup key := by
  obtain ⟨hkey, hvalue⟩ := assignment_eq_some h
  have hempty : ∀ key ∈ blanks.map (·.1), blanks.lookup key = some [] := by decide
  rw [lookup_effect_self h, hempty key (isOption_iff.mp hkey), Ne, Option.some.injEq]
  exact hvalue

theorem effect_ne_of_misread (h : Misread line) : effect blanks line ≠ blanks := by
  obtain ⟨_, u, v, hline, hlater, hvalue⟩ := h
  have hsome := (assignment_ne_none_iff (isOption_nil keys_blanks)).mpr
    (.inr ⟨u, v, hline, isOption_iff.mpr (keys_blanks ▸ hlater), hvalue⟩)
  obtain ⟨⟨key, value⟩, hassignment⟩ := Option.ne_none_iff_exists'.mp hsome
  intro heffect
  exact lookup_effect_blanks hassignment (congrArg (List.lookup key) heffect)

/-- A file is read as documented exactly when none of its lines has an option in a later
field only. -/
theorem load_documented_iff (content : Text) :
    (∃ config, load defaults (some content) = .ok (0, config) ∧
        (∀ key default, (key, default) ∈ defaults →
          config.lookup key = some (specified content key default)) ∧
        ∀ line ∈ records '\n' content, optionOf line ∉ optionNames →
          ∀ config', config'.map (·.1) = optionNames →
            readFields (line.length + 1) config' line = .ok config') ↔
      ∀ line ∈ records '\n' content, ¬Misread line := by
  have hread {line : Text} (hline : line ∈ records '\n' content) (config : StringMap) :
      readFields (line.length + 1) config line = .ok (effect config line) :=
    readFields_eq (Nat.lt_succ_self _) (notMem_of_mem_records hline)
  constructor
  · rintro ⟨_, _, _, homitted⟩ line hline hmisread
    have h := homitted line hline hmisread.1 blanks keys_blanks
    rw [hread hline, Except.ok.injEq] at h
    exact effect_ne_of_misread hmisread h
  · intro hlines
    refine ⟨_, load_eq defaults content, ?_, ?_⟩
    · intro key default hdefault
      have hlookup : ∀ entry ∈ defaults, defaults.lookup entry.1 = some entry.2 := by decide
      exact lookup_effects rfl hlines (hlookup (key, default) hdefault)
    · intro line hline hoption config hkeys
      rw [hread hline, Except.ok.injEq, effect]
      rw [assignment_of_omitted hkeys hoption (hlines line hline), perform]

/-- A line that begins with no option sets the host. -/
theorem load_documented_counterexample :
    optionOf "foo=host=1.2.3.4".toList ∉ optionNames ∧
      load defaults (some "foo=host=1.2.3.4".toList) =
        .ok (0, [("host".toList, "1.2.3.4".toList), ("port".toList, "6509".toList),
          ("pgp_key_id".toList, [])]) :=
  ⟨by decide, rfl⟩

end Documented

end Dpaste.ConfigurationLines
