import Dpaste.LibraryInterfaces
import Dpaste.TextFields

/-!
The configuration file: `trim_str` and the two nested loops of `ConfigurationFile::load`.
-/

namespace Dpaste.ConfigurationFile

open Dpaste.LibraryInterfaces
open Dpaste.TextFields

def isSpace (c : Char) : Bool := c = ' '

/-- `find_first_not_of(" ")`, where `none` stands for `npos`. -/
def findFirstNotOf (str : Text) : Option Nat := str.findIdx? fun c => !isSpace c

/-- `find_last_not_of(" ")`, where `none` stands for `npos`. -/
def findLastNotOf (str : Text) : Option Nat :=
  (str.reverse.findIdx? fun c => !isSpace c).map fun i => str.length - 1 - i

/-- `std::min` of the size of a string and a position in it. No size is above `npos`. -/
def minSize (str : Text) : Option Nat → Nat
  | some pos => min str.length pos
  | none => str.length

/-- `std::string::substr` of at most `count` characters. -/
def substrCount (str : Text) (pos count : Nat) : Except Exn Text :=
  if pos ≤ str.length then .ok ((str.drop pos).take count) else .error .outOfRange

def trimStr (str : Text) : Except Exn Text :=
  let first := minSize str (findFirstNotOf str)
  let last := minSize str (findLastNotOf str)
  substrCount str first (last - first + 1)

/-- The initial value of `config_`. -/
def defaults : StringMap :=
  [("host".toList, "127.0.0.1".toList), ("port".toList, "6509".toList), ("pgp_key_id".toList, [])]

/-- The assignment of a value to the entry under a key. -/
def assign (config : StringMap) (key value : Text) : StringMap :=
  config.map fun entry => if entry.1 = key then (entry.1, value) else entry

/-- The inner loop, on the stream of one line. The fuel bounds the number of fields. -/
def readFields : Nat → StringMap → Text → Except Exn StringMap
  | 0, config, _ => .ok config
  | fuel + 1, config, ss =>
      match getline '=' ss with
      | none => .ok config
      | some (argName, ss) => do
          let argName ← trimStr argName
          match config.lookup argName with
          | none => readFields fuel config ss
          | some _ => do
              let (arg, ss) := (getline '\n' ss).getD ([], [])
              let arg ← trimStr arg
              readFields fuel (if arg.isEmpty then config else assign config argName arg) ss

/-- The outer loop, on the stream of the file. The fuel bounds the number of lines. -/
def readLines : Nat → StringMap → Text → Except Exn StringMap
  | 0, config, _ => .ok config
  | fuel + 1, config, configFile =>
      match getline '\n' configFile with
      | none => .ok config
      | some (line, configFile) => do
          let config ← readFields (line.length + 1) config line
          readLines fuel config configFile

/-- `load`: the return value and what `config_` holds afterwards. There is no content when
the file cannot be opened. -/
def load (config : StringMap) : Option Text → Except Exn (Nat × StringMap)
  | none => .ok (1, config)
  | some content => do
      let config ← readLines (content.length + 1) config content
      .ok (0, config)

section Trimming

theorem findIdx?_margin {u v : Text} {c : Char} (hu : ∀ x ∈ u, isSpace x = true)
    (hc : isSpace c = false) :
    (u ++ c :: v).findIdx? (fun c => !isSpace c) = some u.length := by
  have hnone : u.findIdx? (fun c => !isSpace c) = none := by
    rw [List.findIdx?_eq_none_iff]
    intro x hx
    simp [hu x hx]
  simp [List.findIdx?_append, hnone, List.findIdx?_cons, hc]

theorem find_of_blank {str : Text} (h : ∀ c ∈ str, isSpace c = true) :
    findFirstNotOf str = none ∧ findLastNotOf str = none := by
  constructor
  · rw [findFirstNotOf, List.findIdx?_eq_none_iff]
    intro x hx
    simp [h x hx]
  · rw [findLastNotOf, Option.map_eq_none_iff, List.findIdx?_eq_none_iff]
    intro x hx
    simp [h x (List.mem_reverse.mp hx)]

theorem find_of_margins {str u m v : Text} (hstr : str = u ++ m ++ v)
    (hu : ∀ x ∈ u, isSpace x = true) (hv : ∀ x ∈ v, isSpace x = true) (hm : m ≠ [])
    (htrimmed : Trimmed isSpace m) :
    findFirstNotOf str = some u.length ∧ findLastNotOf str = some (u.length + m.length - 1) := by
  obtain ⟨hhead, hlast⟩ := htrimmed hm
  have hlen : str.length = u.length + m.length + v.length := by
    rw [hstr, List.length_append, List.length_append]
  constructor
  · obtain ⟨c, m', rfl⟩ := List.exists_cons_of_ne_nil hm
    rw [findFirstNotOf, hstr, List.append_assoc, List.cons_append]
    exact findIdx?_margin hu hhead
  · have hreverse : str.reverse =
        v.reverse ++ m.getLast hm :: (u ++ m.dropLast).reverse := by
      have hsplit : str = u ++ (m.dropLast ++ [m.getLast hm]) ++ v := by
        rw [List.dropLast_append_getLast hm, hstr]
      rw [hsplit]
      simp
    have hpos := List.length_pos_iff.mpr hm
    rw [findLastNotOf, hreverse,
      findIdx?_margin (fun x hx => hv x (List.mem_reverse.mp hx)) hlast, Option.map_some,
      List.length_reverse, hlen]
    congr 1
    omega

/-- `trim_str` does not raise, and takes the spaces at both ends away. -/
theorem trimStr_eq (str : Text) : trimStr str = .ok (strip isSpace str) := by
  by_cases hblank : strip isSpace str = []
  · obtain ⟨hfirst, hlast⟩ := find_of_blank (strip_eq_nil_iff.mp hblank)
    simp [trimStr, hfirst, hlast, minSize, substrCount, hblank]
  · obtain ⟨u, v, hstr, hu, hv⟩ := exists_margins isSpace str
    have htrimmed := trimmed_strip isSpace str
    generalize strip isSpace str = m at *
    obtain ⟨hfirst, hlast⟩ := find_of_margins hstr hu hv hblank htrimmed
    have hpos := List.length_pos_iff.mpr hblank
    have hlen : str.length = u.length + m.length + v.length := by
      rw [hstr, List.length_append, List.length_append]
    have hcount : u.length + m.length - 1 - u.length + 1 = m.length := by omega
    simp only [trimStr, hfirst, hlast, minSize, substrCount]
    rw [min_eq_right (by omega), min_eq_right (by omega), if_pos (by omega), hcount, hstr,
      List.append_assoc, List.drop_left, List.take_left]

end Trimming

end Dpaste.ConfigurationFile
