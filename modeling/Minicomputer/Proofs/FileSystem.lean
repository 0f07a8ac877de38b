import Minicomputer.FileSystem

/-!
# What is written is read

A path that a file can be written at leads to that file afterwards: writing changes the one node at
the end of the way, which was no directory before and so is not on the way.  Nothing of what the
file held before is left.

* `FileSystem.write_eq_ok_iff` -- where a file can be written;
* `FileSystem.read_of_write` -- and what is read there afterwards.
-/

namespace Minicomputer
namespace FileSystem

variable {files files' : FileSystem} {location other next : Location} {node : FileNode}
  {path : String} {content : Bytes}

/-! ## One component -/

/-- A name that a file or a directory can have. -/
structure Proper (name : String) : Prop where
  written : name ≠ ""
  own : name ≠ "."
  upper : name ≠ ".."
  short : name.utf8ByteSize ≤ maxNameBytes

/-- The component leads from a directory to a location. -/
inductive Enters (files : FileSystem) (location : Location) : String → Location → Prop
  | stay {name : String} (directory : files.isDirectory location = true)
      (own : name = "" ∨ name = ".") : Enters files location name location
  | up (directory : files.isDirectory location = true) :
      Enters files location ".." location.dropLast
  | down {name : String} (directory : files.isDirectory location = true) (proper : Proper name)
      (present : ∃ node, files.node? (location ++ [name]) = some node) :
      Enters files location name (location ++ [name])

theorem enter_eq_ok_iff {name : String} :
    files.enter location name = .ok next ↔ files.Enters location name next := by
  unfold enter
  constructor
  · intro entered
    split at entered
    next => cases entered
    next directory =>
    have directory' : files.isDirectory location = true := by simpa using directory
    split at entered
    next own =>
      cases entered
      exact .stay directory' own
    next other =>
    obtain ⟨written, own⟩ := not_or.mp other
    split at entered
    next up =>
      cases entered
      subst up
      exact .up directory'
    next upper =>
    split at entered
    next => cases entered
    next short =>
    split at entered
    next => cases entered
    next node present =>
      cases entered
      exact .down directory' ⟨written, own, upper, Nat.le_of_not_lt short⟩ ⟨node, present⟩
  · intro enters
    cases enters with
    | stay directory own => simp [directory, own]
    | up directory => simp [directory]
    | down directory proper present =>
      obtain ⟨node, found⟩ := present
      simp [directory, proper.written, proper.own, proper.upper, Nat.not_lt.mpr proper.short, found]

/-! ## One node changed -/

theorem lookup_filter_of_ne (nodes : List (Location × FileNode)) (different : other ≠ location) :
    (nodes.filter (·.1 ≠ location)).lookup other = nodes.lookup other := by
  induction nodes with
  | nil => rfl
  | cons entry rest ih =>
    obtain ⟨place, node⟩ := entry
    by_cases changed : place = location
    · subst changed
      rw [List.filter_cons_of_neg (by simp), ih, List.lookup_cons, beq_false_of_ne different]
    · rw [List.filter_cons_of_pos (by simpa using changed), List.lookup_cons, List.lookup_cons, ih]

theorem node?_set_self (below : location ≠ []) :
    (files.set location node).node? location = some node := by
  rw [node?, if_neg below, set, List.lookup_cons, beq_self_eq_true]

theorem node?_set_of_ne (different : other ≠ location) :
    (files.set location node).node? other = files.node? other := by
  rw [node?, node?, set, List.lookup_cons, beq_false_of_ne different]
  dsimp only
  rw [lookup_filter_of_ne _ different]

/-- Nothing is taken away. -/
theorem exists_node?_set (present : ∃ found, files.node? other = some found) :
    ∃ found, (files.set location node).node? other = some found := by
  by_cases changed : other = location
  · subst changed
    by_cases top : other = []
    · exact ⟨.directory, if_pos top⟩
    · exact ⟨node, node?_set_self top⟩
  · rw [node?_set_of_ne changed]
    exact present

/-! ## Ways that do not end at the file -/

section

variable (free : files.isDirectory location = false)

include free

/-- A file takes no directory's place. -/
theorem isDirectory_set_file (directory : files.isDirectory other = true) :
    (files.set location (.file content)).isDirectory other = true := by
  have different : other ≠ location := by
    rintro rfl
    rw [free] at directory
    cases directory
  rw [isDirectory, node?_set_of_ne different]
  exact directory

theorem Enters.set_file {name : String} (enters : files.Enters other name next) :
    (files.set location (.file content)).Enters other name next := by
  cases enters with
  | stay directory own => exact .stay (isDirectory_set_file free directory) own
  | up directory => exact .up (isDirectory_set_file free directory)
  | down directory proper present =>
    exact .down (isDirectory_set_file free directory) proper (exists_node?_set present)

theorem walk_set_file {names : List String} (walked : files.walk other names = .ok next) :
    (files.set location (.file content)).walk other names = .ok next := by
  induction names generalizing other with
  | nil => exact walked
  | cons name names ih =>
    rw [walk] at walked ⊢
    cases entered : files.enter other name with
    | error problem =>
      rw [entered] at walked
      cases walked
    | ok further =>
      rw [entered] at walked
      rw [enter_eq_ok_iff.mpr ((enter_eq_ok_iff.mp entered).set_file free)]
      exact ih walked

end

theorem walk_append {names names' : List String} (walked : files.walk other names = .ok next) :
    files.walk other (names ++ names') = files.walk next names' := by
  induction names generalizing other with
  | nil =>
    cases walked
    rfl
  | cons name names ih =>
    rw [List.cons_append, walk]
    rw [walk] at walked
    cases entered : files.enter other name with
    | error problem =>
      rw [entered] at walked
      cases walked
    | ok further =>
      rw [entered] at walked
      exact ih walked

/-! ## Writing -/

/-- A path without a slash at its end is cut before its last component. -/
theorem components_of_splitLast {parents : List String} {last : String}
    (cut : splitLast path = (parents, last, false)) :
    components path = parents ++ [last] ∧ last ≠ "" := by
  unfold splitLast at cut
  dsimp only at cut
  cases reversed : (components path).reverse with
  | nil =>
    rw [reversed] at cut
    cases cut
  | cons name names =>
    rw [reversed, List.dropWhile_cons] at cut
    by_cases blank : name = ""
    · -- What follows the last slash is blank, so the slash is noticed.
      subst blank
      simp only [decide_true, if_true, List.head?_cons] at cut
      split at cut <;> cases cut
    · simp only [blank, decide_false, Bool.false_eq_true, if_false, Prod.mk.injEq] at cut
      obtain ⟨rfl, rfl, -⟩ := cut
      refine ⟨?_, blank⟩
      rw [← List.reverse_cons, ← reversed, List.reverse_reverse]

/-- A path for writing goes through directories and ends with a name. -/
theorem exists_of_target (target : files.target path = .ok location) :
    pathError? path = none ∧ ∃ parents last parent, components path = parents ++ [last] ∧
      files.walk (files.startOf path) parents = .ok parent ∧
      files.isDirectory parent = true ∧ Proper last ∧ location = parent ++ [last] := by
  unfold FileSystem.target at target
  split at target
  next => cases target
  next passes =>
  split at target
  next parents last slash cut =>
  split at target
  next => cases target
  next parent walked =>
  split at target
  next => cases target
  next directory =>
  split at target
  next => cases target
  next other =>
  split at target
  next => cases target
  next short =>
    cases target
    simp only [not_or, Bool.not_eq_true] at other
    obtain ⟨slash, own, upper⟩ := other
    subst slash
    obtain ⟨components, written⟩ := components_of_splitLast cut
    exact ⟨passes, parents, last, parent, components, walked, by simpa using directory,
      ⟨written, own, upper, Nat.le_of_not_lt short⟩, rfl⟩

theorem write_eq_ok_iff :
    files.write path content = .ok files' ↔
      ∃ location, files.target path = .ok location ∧ files.isDirectory location = false ∧
        files' = files.set location (.file content) := by
  unfold write
  cases files.target path with
  | error problem => simp
  | ok location =>
    cases directory : files.isDirectory location with
    | true => simp [directory]
    | false =>
      simp only [Bool.false_eq_true, if_false, Except.ok.injEq, exists_eq_left', directory,
        true_and]
      exact eq_comm

/-- What has been written is read, whatever was there before. -/
theorem read_of_write (written : files.write path content = .ok files') :
    files'.read path = .ok content := by
  obtain ⟨location, target, free, rfl⟩ := write_eq_ok_iff.mp written
  obtain ⟨passes, parents, last, parent, cut, walked, directory, proper, rfl⟩ :=
    exists_of_target target
  have there : (files.set (parent ++ [last]) (.file content)).node? (parent ++ [last]) =
      some (.file content) := node?_set_self (by simp)
  have walked' : (files.set (parent ++ [last]) (.file content)).walk (files.startOf path) parents =
      .ok parent := walk_set_file free walked
  have enters : (files.set (parent ++ [last]) (.file content)).Enters parent last
      (parent ++ [last]) :=
    .down (isDirectory_set_file free directory) proper ⟨_, there⟩
  have leads : (files.set (parent ++ [last]) (.file content)).walk
      (files.startOf path) (components path) = .ok (parent ++ [last]) := by
    rw [cut, walk_append walked', walk, enter_eq_ok_iff.mpr enters]
    rfl
  unfold read
  rw [passes]
  dsimp only
  rw [show (files.set (parent ++ [last]) (.file content)).startOf path = files.startOf path from
    rfl, leads]
  dsimp only
  rw [there]

/-- A file can be written where there is a file already, of any content, and where there is
nothing. -/
theorem exists_write (target : files.target path = .ok location)
    (free : files.node? location ≠ some .directory) (content : Bytes) :
    ∃ files', files.write path content = .ok files' :=
  ⟨_, write_eq_ok_iff.mpr ⟨location, target, by simpa [isDirectory] using free, rfl⟩⟩

end FileSystem
end Minicomputer
