import Mathlib.Data.List.Basic
import Mathlib.Tactic.SplitIfs
import MiniPascal.Storage.FileSystem

/-!
# Reading back what was written

Writing a file changes what one location holds, and no directory. So paths lead where they led
before, and the path by which the file was written now leads to the new content (`read_of_write`).
-/

namespace MiniPascal

/-- Two steps in sequence succeed if each of them does. -/
theorem bind_eq_ok_iff {ε α β : Type} {x : Except ε α} {f : α → Except ε β} {b : β} :
    x >>= f = .ok b ↔ ∃ a, x = .ok a ∧ f a = .ok b := by
  change Except.bind x f = _ ↔ _
  cases x with
  | error e => simp [Except.bind]
  | ok a => simp [Except.bind]

namespace FileSystem

variable {system after : FileSystem} {location other : Location} {path name : String}
  {content : ByteArray}

theorem lookup_put_self (h : location ≠ []) (entry : Entry) :
    (system.put location entry).lookup location = some entry := by
  rw [lookup, if_neg h, put, List.lookup_cons, beq_self_eq_true]

theorem lookup_put_of_ne (h : other ≠ location) (entry : Entry) :
    (system.put location entry).lookup other = system.lookup other := by
  have hbeq : (other == location) = false := beq_eq_false_iff_ne.2 h
  rw [lookup, lookup, put, List.lookup_cons, hbeq]

/-- Whether a path says where a file can be put: it leads into a directory, but not to one. Whether
there is a file already does not matter. -/
def CanWrite (system : FileSystem) (path : String) : Prop :=
  ∃ location, system.target path = .ok location ∧ system.isDirectory location = false

/-- Writing puts the content at the location that the path says. -/
theorem write_eq_ok_iff : system.write path content = .ok after ↔
    ∃ location, system.target path = .ok location ∧ system.isDirectory location = false ∧
      after = system.put location (.file content) := by
  rw [write, bind_eq_ok_iff]
  refine exists_congr fun location => and_congr_right fun _ => ?_
  split_ifs with hdirectory
  · simp [hdirectory]
  · simp [hdirectory, eq_comm]

/-- A path can be written to, whatever the content. -/
theorem canWrite_iff : system.CanWrite path ↔ ∃ after, system.write path content = .ok after := by
  constructor
  · rintro ⟨location, htarget, hdirectory⟩
    exact ⟨_, write_eq_ok_iff.2 ⟨location, htarget, hdirectory, rfl⟩⟩
  · rintro ⟨after, h⟩
    obtain ⟨location, htarget, hdirectory, -⟩ := write_eq_ok_iff.1 h
    exact ⟨location, htarget, hdirectory⟩

/-! ### Paths lead where they led before -/

/-- What it takes to put a file where a path says. -/
theorem exists_of_target (h : system.target path = .ok location) :
    ∃ start parent name, system.startOf path = .ok start ∧
      (Path.names path).getLast? = some name ∧ name ≠ "." ∧ name ≠ ".." ∧
      system.follow start (Path.names path).dropLast = .ok parent ∧
      system.isDirectory parent = true ∧ Path.asksDirectory path = false ∧
      name.utf8ByteSize ≤ maxNameSize ∧ location = parent ++ [name] := by
  rw [target, bind_eq_ok_iff] at h
  obtain ⟨start, hstart, h⟩ := h
  split at h
  · cases h
  · obtain ⟨_, _, ⟨⟩⟩ := bind_eq_ok_iff.1 h
  · obtain ⟨_, _, ⟨⟩⟩ := bind_eq_ok_iff.1 h
  · next name hdot hdots hlast =>
    obtain ⟨parent, hparent, h⟩ := bind_eq_ok_iff.1 h
    split_ifs at h with hdirectory hasks hsize
    injection h with h
    exact ⟨start, parent, name, hstart, hlast, hdot, hdots, hparent, by simpa using hdirectory,
      Bool.eq_false_iff.2 hasks, Nat.not_lt.1 hsize, h.symm⟩

section Put

variable (hlocation : location ≠ []) (hdirectory : system.isDirectory location = false)
include hlocation hdirectory

/-- A new file is no directory, and directories stay. -/
theorem isDirectory_put (other : Location) :
    (system.put location (.file content)).isDirectory other = system.isDirectory other := by
  by_cases h : other = location
  · subst h
    rw [hdirectory, isDirectory, lookup_put_self hlocation]
  · rw [isDirectory, isDirectory, lookup_put_of_ne h]

/-- What a component names in a directory stays where it was. -/
theorem enter_put {next : Location} (h : system.enter other name = .ok next) :
    (system.put location (.file content)).enter other name = .ok next := by
  rw [enter] at h ⊢
  rw [isDirectory_put hlocation hdirectory]
  split_ifs at h with hparent hsize hnone
  injection h with h
  subst h
  have hsome : ((system.put location (.file content)).lookup (other.step name)).isNone = false := by
    by_cases hstep : other.step name = location
    · rw [hstep, lookup_put_self hlocation]
      rfl
    · rw [lookup_put_of_ne hstep]
      exact Bool.eq_false_iff.2 hnone
  rw [if_neg hparent, if_neg hsize, hsome]
  rfl

/-- A path that could be followed leads to the same location. -/
theorem follow_put {start last : Location} {names : List String}
    (h : system.follow start names = .ok last) :
    (system.put location (.file content)).follow start names = .ok last := by
  induction names generalizing start with
  | nil => exact h
  | cons name names ih =>
    rw [follow, List.foldlM_cons, bind_eq_ok_iff] at h
    obtain ⟨next, hnext, h⟩ := h
    rw [follow, List.foldlM_cons, bind_eq_ok_iff]
    exact ⟨next, enter_put hlocation hdirectory hnext, ih h⟩

end Put

/-- What was written is read back. -/
theorem read_of_write (h : system.write path content = .ok after) :
    after.read path = .ok content := by
  obtain ⟨location, htarget, hdirectory, rfl⟩ := write_eq_ok_iff.1 h
  obtain ⟨start, parent, name, hstart, hlast, hdot, hdots, hfollow, hparent, hasks, hsize, rfl⟩ :=
    exists_of_target htarget
  have hne : parent ++ [name] ≠ [] := by simp
  have hstep : Location.step parent name = parent ++ [name] := by
    rw [Location.step, if_neg hdot, if_neg hdots]
  have hnames : (Path.names path).dropLast ++ [name] = Path.names path :=
    List.dropLast_append_getLast? name hlast
  -- the way to the parent is the old one, and the last step leads to the new file
  have henter : (system.put (parent ++ [name]) (.file content)).enter parent name =
      .ok (parent ++ [name]) := by
    rw [enter, isDirectory_put hne hdirectory, hparent, hstep, lookup_put_self hne]
    rw [if_neg (Nat.not_lt.2 hsize)]
    rfl
  have hcomponents : (system.put (parent ++ [name]) (.file content)).follow start
      (Path.components path) = .ok (parent ++ [name]) := by
    rw [Path.components, hasks, ← hnames, follow, if_neg Bool.false_ne_true, List.append_nil,
      List.foldlM_append, bind_eq_ok_iff]
    exact ⟨parent, follow_put hne hdirectory hfollow, bind_eq_ok_iff.2 ⟨_, henter, rfl⟩⟩
  rw [read, bind_eq_ok_iff]
  refine ⟨start, hstart, bind_eq_ok_iff.2 ⟨_, hcomponents, ?_⟩⟩
  rw [lookup_put_self hne]

/-- What it means that a file is **saved**: a path leads to its content, and whatever is elsewhere
stays as it was, the working directory too. -/
structure Saved (before : FileSystem) (path : String) (content : ByteArray) (after : FileSystem) :
    Prop where
  read_eq : after.read path = .ok content
  lookup_eq : ∃ location, before.target path = .ok location ∧
    ∀ other, other ≠ location → after.lookup other = before.lookup other
  workingDirectory_eq : after.workingDirectory = before.workingDirectory

theorem saved_of_write (h : system.write path content = .ok after) :
    system.Saved path content after where
  read_eq := read_of_write h
  lookup_eq := by
    obtain ⟨location, htarget, -, rfl⟩ := write_eq_ok_iff.1 h
    exact ⟨location, htarget, fun _ hne => lookup_put_of_ne hne _⟩
  workingDirectory_eq := by
    obtain ⟨_, -, -, rfl⟩ := write_eq_ok_iff.1 h
    rfl

end FileSystem

end MiniPascal
