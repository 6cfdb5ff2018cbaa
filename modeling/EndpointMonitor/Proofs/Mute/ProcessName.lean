import EndpointMonitor.Mute.Rule
import Mathlib.Data.List.TakeWhile

/-!
The names of processes. A name is the last component of a path: it has no slash in it, and what
stands before it is nothing or ends in a slash. This ties the rules that select processes by their
names to those that select them by their paths.
-/

namespace EndpointMonitor

/-- What can stand before the last component of a path: nothing, or a text that ends in a slash. -/
def IsDirectory (start : String) : Prop := start = "" ∨ ∃ outer, start = outer ++ "/"

/-- What stands between the slashes of a path, before the first and after the last of them. -/
def pathComponents (path : String) : List String := (path.toList.splitOn '/').map String.ofList

namespace ProcessDescriptor

variable {p : ProcessDescriptor} {x : String}

theorem toList_name (p : ProcessDescriptor) :
    p.name.toList = (p.path.toList.reverse.takeWhile (· ≠ '/')).reverse :=
  String.toList_ofList

theorem slash_not_mem_name (p : ProcessDescriptor) : '/' ∉ p.name.toList := by
  intro inside
  rw [toList_name, List.mem_reverse] at inside
  have other := List.mem_takeWhile_imp inside
  simp at other

/-- The name is what a path ends with, from its last slash on or from its beginning. -/
theorem exists_directory (p : ProcessDescriptor) :
    ∃ start, IsDirectory start ∧ p.path = start ++ p.name := by
  have parts : p.path.toList =
      (p.path.toList.reverse.dropWhile (· ≠ '/')).reverse ++ p.name.toList := by
    rw [toList_name, ← List.reverse_append, List.takeWhile_append_dropWhile, List.reverse_reverse]
  have next := List.head?_dropWhile_not (· ≠ '/') p.path.toList.reverse
  generalize p.path.toList.reverse.dropWhile (· ≠ '/') = before at parts next
  refine ⟨String.ofList before.reverse, ?_, ?_⟩
  · cases before with
    | nil => exact .inl rfl
    | cons c outer =>
      -- The first character that is not part of the name is a slash.
      have slash : c = '/' := by simpa using next
      refine .inr ⟨String.ofList outer.reverse, ?_⟩
      apply String.toList_inj.1
      simp [slash]
  · apply String.toList_inj.1
    rw [parts, String.toList_append, String.toList_ofList]

/-- Nothing else without a slash stands after nothing or after a slash at the end of a path. -/
theorem name_eq_of_directory {start : String} (directory : IsDirectory start)
    (path : p.path = start ++ x) (plain : '/' ∉ x.toList) : p.name = x := by
  have taken : ∀ c ∈ x.toList.reverse, decide (c ≠ '/') = true := by
    intro c inside
    have other : c ≠ '/' := by
      rintro rfl
      exact plain (List.mem_reverse.1 inside)
    simpa using other
  have stops : (start.toList.reverse).takeWhile (· ≠ '/') = [] := by
    rcases directory with rfl | ⟨outer, rfl⟩
    · rfl
    · simp
  apply String.toList_inj.1
  rw [toList_name, path, String.toList_append, List.reverse_append,
    List.takeWhile_append_of_pos taken, stops, List.append_nil, List.reverse_reverse]

theorem name_eq_iff :
    p.name = x ↔ '/' ∉ x.toList ∧ ∃ start, IsDirectory start ∧ p.path = start ++ x := by
  constructor
  · rintro rfl
    exact ⟨slash_not_mem_name p, exists_directory p⟩
  · rintro ⟨plain, start, directory, path⟩
    exact name_eq_of_directory directory path plain

/-- A component after which no slash follows is the last one. -/
theorem getLast_pathComponents {path start : String} (directory : IsDirectory start)
    (parts : path = start ++ x) (plain : '/' ∉ x.toList) :
    (pathComponents path).getLast? = some x := by
  have whole : x.toList.splitOn '/' = [x.toList] := by
    rw [List.splitOn_eq_splitOnP]
    apply List.splitOnP_eq_singleton
    intro c inside
    have other : c ≠ '/' := by
      rintro rfl
      exact plain inside
    simpa using other
  rcases directory with rfl | ⟨outer, rfl⟩
  · have same : path.toList = x.toList := by simp [parts]
    simp [pathComponents, same, whole]
  · have cut : path.toList = outer.toList ++ '/' :: x.toList := by simp [parts]
    simp [pathComponents, cut, List.splitOn_append_cons_self, whole]

theorem getLast_pathComponents_path (p : ProcessDescriptor) :
    (pathComponents p.path).getLast? = some p.name := by
  obtain ⟨start, directory, path⟩ := exists_directory p
  exact getLast_pathComponents directory path (slash_not_mem_name p)

end ProcessDescriptor

namespace MuteProcessRule

open ProcessDescriptor

variable {p : ProcessDescriptor} {x : String}

theorem selects_name : (MuteProcessRule.name x).selects p = true ↔ p.name = x := by
  simp [selects, eq_comm]

theorem selects_pathPrefix :
    (MuteProcessRule.pathPrefix x).selects p = true ↔ ∃ rest, p.path = x ++ rest := by
  simp only [selects, beginsWith, List.isPrefixOf_iff_prefix]
  constructor
  · rintro ⟨rest, path⟩
    refine ⟨String.ofList rest, ?_⟩
    apply String.toList_inj.1
    rw [String.toList_append, String.toList_ofList, path]
  · rintro ⟨rest, path⟩
    exact ⟨rest.toList, by rw [path, String.toList_append]⟩

/-- No slash is in the name of a process, it stands at the end of the path after nothing or after a
slash, and nothing else does. So a rule for a name selects the processes whose path is that name or
ends in a slash and that name, if no slash is in it, and no process otherwise. A process that a rule
for a path selects is selected by the rule for its beginning, and of the rules for names just by the
one for the last component. -/
theorem name_rules_follow_path (p : ProcessDescriptor) :
    ('/' ∉ p.name.toList ∧ ∃ start, IsDirectory start ∧ p.path = start ++ p.name) ∧
    (∀ x start, '/' ∉ x.toList → IsDirectory start → p.path = start ++ x → x = p.name) ∧
    (∀ n, (MuteProcessRule.name n).selects p = true ↔
      '/' ∉ n.toList ∧ (p.path = n ∨ ∃ start, p.path = start ++ ("/" ++ n))) ∧
    ∀ q, (MuteProcessRule.pathLiteral q).selects p = true →
      (MuteProcessRule.pathPrefix q).selects p = true ∧
      ∀ x, (MuteProcessRule.name x).selects p = true ↔ (pathComponents q).getLast? = some x := by
  refine ⟨⟨slash_not_mem_name p, exists_directory p⟩, ?_, ?_, ?_⟩
  · intro x start plain directory path
    exact (name_eq_of_directory directory path plain).symm
  · intro n
    rw [selects_name, name_eq_iff]
    refine and_congr_right fun _ => ?_
    constructor
    · rintro ⟨start, rfl | ⟨outer, rfl⟩, path⟩
      · exact .inl (by simpa using path)
      · exact .inr ⟨outer, by rw [path, String.append_assoc]⟩
    · rintro (path | ⟨outer, path⟩)
      · exact ⟨"", .inl rfl, by simpa using path⟩
      · exact ⟨outer ++ "/", .inr ⟨outer, rfl⟩, by rw [path, String.append_assoc]⟩
  · intro q literal
    have path : q = p.path := by simpa [selects] using literal
    subst path
    refine ⟨selects_pathPrefix.2 ⟨"", by simp⟩, ?_⟩
    intro x
    rw [selects_name, getLast_pathComponents_path, Option.some.injEq]

/-- Behind a slash at the end of a path stands the empty name. -/
theorem empty_name_selected :
    let p : ProcessDescriptor := .ofPath 7 "/opt//wächter/"
    (MuteProcessRule.pathLiteral "/opt//wächter/").selects p = true ∧
      (MuteProcessRule.pathPrefix "/opt//wächter/").selects p = true ∧
      ∀ x, (MuteProcessRule.name x).selects p = true ↔ x = "" := by
  intro p
  obtain ⟨-, -, -, tied⟩ := name_rules_follow_path p
  have literal : (MuteProcessRule.pathLiteral "/opt//wächter/").selects p = true := by decide
  obtain ⟨begins, named⟩ := tied "/opt//wächter/" literal
  have last : (pathComponents "/opt//wächter/").getLast? = some "" := by decide
  refine ⟨literal, begins, ?_⟩
  intro x
  rw [named, last, Option.some.injEq, eq_comm]

end MuteProcessRule

end EndpointMonitor
