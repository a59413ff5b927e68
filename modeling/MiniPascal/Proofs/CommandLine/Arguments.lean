import MiniPascal.CommandLine.Options
import MiniPascal.Proofs.Storage

/-!
# Any order of arguments

The path, the flags and the output file may be given in any order (`Options.isFaithful_parse`).
Reading one of them does not stand in the way of another one, unless both are paths, both name an
output file or both are the same flag, so what is read after all of them does not depend on their
order.

Only this is asked of a reader of arguments that takes the place of `Options.parse`
(`ArgumentReader.IsFaithful`). What it makes of other command lines is its own business.
-/

namespace MiniPascal

/-- The name of a flag, which stands behind two dashes. `Switch.ofName?` reads it back as this flag.
Every flag has one, and some have a letter, too. -/
def Flag.name : Flag → String
  | .tokens => "tokens"
  | .print => "print"
  | .stats => "stats"
  | .verbose => "verbose"

namespace Options

/-- A part of a command line: what can be given in any order. An output file is one part with its
option. The parts of a line are permuted, and not its arguments. -/
inductive Piece where
  | path (path : String)
  | flag (flag : Flag)
  | output (file : String)

namespace Piece

/-- The arguments of a part of a command line, in the long form. They stand next to each other. -/
def args : Piece → List String
  | .path p => [p]
  | .flag f => ["--" ++ f.name]
  | .output file => ["--output", file]

/-- Whether two parts can be on one command line. Only parts of one kind cannot, and two flags can
unless they are the same. Parts that agree can be read in either order with the same result. -/
def Agrees : Piece → Piece → Prop
  | .path _, .path _ | .output _, .output _ => False
  | .flag f, .flag g => f ≠ g
  | _, _ => True

theorem Agrees.symm {a b : Piece} (h : a.Agrees b) : b.Agrees a := by
  cases a <;> cases b <;> first | trivial | exact h | exact Ne.symm h

end Piece

/-- Whether an argument can be a path or a value: it is not empty and looks like no option. One dash
alone is plain. The condition is met by every path that does not begin with a dash. -/
def IsPlain (arg : String) : Prop :=
  arg ≠ "" ∧ isDashed arg.toList = false

/-- Whether the arguments ask for a path, perhaps an output file, and some flags, in any order: they
are those of the parts, and the parts are just these. -/
def Asks (args : List String) (path : String) (output? : Option String) (flags : List Flag) :
    Prop :=
  IsPlain path ∧ (∀ file ∈ output?, IsPlain file) ∧ flags.Nodup ∧
    ∃ pieces : List Piece, args = pieces.flatMap Piece.args ∧
      pieces.Perm (.path path :: (output?.toList.map .output ++ flags.map .flag))

namespace Draft

/-- What has been read after one more part, which takes the place of an earlier one of its kind. On
a line where all parts agree there is no earlier one. -/
def add (draft : Draft) : Piece → Draft
  | .path path => { draft with path? := some path }
  | .flag flag => { draft with flags := flag :: draft.flags }
  | .output file => { draft with output? := some file }

/-- Whether a part can still be read: it is plain, and nothing read before stands in its way. Each
of the parts of a line is admitted when it is its turn. -/
def Admits (draft : Draft) : Piece → Prop
  | .path path => IsPlain path ∧ draft.path? = none
  | .flag flag => flag ∉ draft.flags
  | .output file => IsPlain file ∧ draft.output? = none

/-- A part does not stand in the way of one that agrees with it. -/
theorem Admits.add {draft : Draft} {a b : Piece} (h : draft.Admits b) (hagrees : a.Agrees b) :
    (draft.add a).Admits b := by
  cases a with
  | path =>
    cases b with
    | path => exact hagrees.elim
    | flag | output => exact h
  | flag f =>
    cases b with
    | flag g => exact fun hg => (List.mem_cons.1 hg).elim (Ne.symm hagrees) h
    | path | output => exact h
  | output =>
    cases b with
    | output => exact hagrees.elim
    | path | flag => exact h

end Draft

/-! ### Reading the parts -/

variable {draft : Draft}

theorem parseFrom_path {path : String} (hplain : IsPlain path) (hpath : draft.path? = none)
    (rest : List String) :
    parseFrom draft false (path :: rest) =
      parseFrom { draft with path? := some path } false rest := by
  obtain ⟨hne, hdashed⟩ := hplain
  have hset : draft.setPath path = .ok { draft with path? := some path } := by
    rw [Draft.setPath, hpath, Option.isSome_none, if_neg Bool.false_ne_true, if_neg hne]
  rw [parseFrom, if_neg Bool.false_ne_true]
  split
  · next h => rw [h] at hdashed; cases hdashed
  · next h => rw [h] at hdashed; cases hdashed
  · next h => rw [h] at hdashed; cases hdashed
  · rw [hset]
    rfl

/-- What follows two dashes is read as a long option. -/
theorem parseFrom_long {next : Draft} {awaiting : Bool} {arg : String} {c : Char} {cs : List Char}
    (harg : arg.toList = '-' :: '-' :: c :: cs)
    (hlong : draft.addLong (c :: cs) = .ok (next, awaiting))
    (rest : List String) : parseFrom draft false (arg :: rest) = parseFrom next awaiting rest := by
  rw [parseFrom, if_neg Bool.false_ne_true, harg]
  change (draft.addLong (c :: cs) >>= fun x => parseFrom x.1 x.2 rest) = _
  rw [hlong]
  rfl

theorem parseFrom_flag {flag : Flag} (hflag : flag ∉ draft.flags) (rest : List String) :
    parseFrom draft false (("--" ++ flag.name) :: rest) =
      parseFrom { draft with flags := flag :: draft.flags } false rest := by
  have hadd : draft.addFlag flag = .ok { draft with flags := flag :: draft.flags } := if_neg hflag
  have hlong : draft.addLong flag.name.toList =
      .ok ({ draft with flags := flag :: draft.flags }, false) := by
    cases flag <;> simp [Draft.addLong, Flag.name, Switch.ofName?, hadd]
  have harg : ("--" ++ flag.name).toList = '-' :: '-' :: flag.name.toList := by
    rw [String.toList_append]
    rfl
  obtain ⟨c, cs, hname⟩ : ∃ c cs, flag.name.toList = c :: cs := by
    cases flag <;> exact ⟨_, _, rfl⟩
  rw [hname] at hlong harg
  exact parseFrom_long harg hlong rest

theorem parseFrom_output {file : String} (hplain : IsPlain file) (houtput : draft.output? = none)
    (rest : List String) :
    parseFrom draft false ("--output" :: file :: rest) =
      parseFrom { draft with output? := some file } false rest := by
  obtain ⟨hne, hdashed⟩ := hplain
  have hset : draft.setOutput file = .ok { draft with output? := some file } := by
    rw [Draft.setOutput, if_neg hne, houtput, Option.isSome_none, if_neg Bool.false_ne_true]
  have hlong : draft.addLong "output".toList = .ok (draft, true) := by
    simp [Draft.addLong, Switch.ofName?]
  rw [parseFrom_long (c := 'o') (by decide) hlong, parseFrom, if_pos rfl, hdashed,
    if_neg Bool.false_ne_true, hset]
  rfl

/-- A part that is admitted is read. -/
theorem parseFrom_piece {piece : Piece} (h : draft.Admits piece) (rest : List String) :
    parseFrom draft false (piece.args ++ rest) = parseFrom (draft.add piece) false rest := by
  cases piece with
  | path => exact parseFrom_path h.1 h.2 rest
  | flag => exact parseFrom_flag h rest
  | output => exact parseFrom_output h.1 h.2 rest

/-- Parts that agree with each other are read one after the other. -/
theorem parseFrom_pieces {pieces : List Piece} (hadmits : ∀ piece ∈ pieces, draft.Admits piece)
    (hagree : pieces.Pairwise Piece.Agrees) :
    parseFrom draft false (pieces.flatMap Piece.args) = (pieces.foldl Draft.add draft).finish := by
  induction pieces generalizing draft with
  | nil => rfl
  | cons piece rest ih =>
    obtain ⟨hpiece, hrest⟩ := List.forall_mem_cons.1 hadmits
    obtain ⟨hfirst, hagree⟩ := List.pairwise_cons.1 hagree
    rw [List.flatMap_cons, parseFrom_piece hpiece, List.foldl_cons]
    exact ih (fun other hother => (hrest other hother).add (hfirst other hother)) hagree

/-! ### What is read after all of them -/

namespace Draft

theorem mem_flags_foldl {pieces : List Piece} {flag : Flag} :
    flag ∈ (pieces.foldl add draft).flags ↔ flag ∈ draft.flags ∨ .flag flag ∈ pieces := by
  induction pieces generalizing draft with
  | nil => simp
  | cons piece rest ih =>
    rw [List.foldl_cons, ih]
    cases piece <;> simp [add, or_assoc, or_left_comm]

/-- What no part sets stays as it is. -/
theorem foldl_eq_of_forall {α : Type} (get : Draft → α) {pieces : List Piece}
    (hkeep : ∀ piece ∈ pieces, ∀ draft : Draft, get (draft.add piece) = get draft) :
    get (pieces.foldl add draft) = get draft := by
  induction pieces generalizing draft with
  | nil => rfl
  | cons piece rest ih =>
    obtain ⟨hpiece, hrest⟩ := List.forall_mem_cons.1 hkeep
    rw [List.foldl_cons, ih hrest, hpiece]

/-- What one part sets, those that agree with it leave as it is. -/
theorem foldl_eq_of_mem {α : Type} (get : Draft → α) {piece : Piece} {a : α}
    (hset : ∀ draft : Draft, get (draft.add piece) = a)
    (hkeep : ∀ other, piece.Agrees other → ∀ draft : Draft, get (draft.add other) = get draft)
    {pieces : List Piece} (hagree : pieces.Pairwise Piece.Agrees) (h : piece ∈ pieces) :
    get (pieces.foldl add draft) = a := by
  obtain ⟨front, back, rfl⟩ := List.append_of_mem h
  have hback := (List.pairwise_cons.1 (List.pairwise_append.1 hagree).2.1).1
  rw [List.foldl_append, List.foldl_cons,
    foldl_eq_of_forall get fun other hother => hkeep other (hback other hother), hset]

theorem path?_foldl {pieces : List Piece} {path : String} (hagree : pieces.Pairwise Piece.Agrees)
    (h : .path path ∈ pieces) : (pieces.foldl add draft).path? = some path := by
  refine foldl_eq_of_mem Draft.path? (fun _ => rfl) (fun other hother _ => ?_) hagree h
  cases other with
  | path => exact hother.elim
  | flag | output => rfl

theorem output?_foldl {pieces : List Piece} {file : String} (hagree : pieces.Pairwise Piece.Agrees)
    (h : .output file ∈ pieces) : (pieces.foldl add draft).output? = some file := by
  refine foldl_eq_of_mem Draft.output? (fun _ => rfl) (fun other hother _ => ?_) hagree h
  cases other with
  | output => exact hother.elim
  | path | flag => rfl

theorem output?_foldl_eq_none {pieces : List Piece} (h : ∀ file, .output file ∉ pieces)
    (hdraft : draft.output? = none) : (pieces.foldl add draft).output? = none := by
  refine (foldl_eq_of_forall Draft.output? fun piece hpiece _ => ?_).trans hdraft
  cases piece with
  | output file => exact absurd hpiece (h file)
  | path | flag => rfl

end Draft

end Options

/-- A reader of arguments is **faithful** if it makes of a path, perhaps an output file and some
flags, in whatever order they are given, options that say just that. What it makes of any other
command line, such as one with short options, is left to it. -/
def ArgumentReader.IsFaithful (reader : ArgumentReader) : Prop :=
  ∀ args path output? flags, Options.Asks args path output? flags →
    ∃ options, reader args = .ok options ∧ options.path = path ∧ options.output? = output? ∧
      ∀ flag, options.has flag = true ↔ flag ∈ flags

namespace Options

/-- Whatever is asked for, in any order, is what the options say. -/
theorem isFaithful_parse : ArgumentReader.IsFaithful parse := by
  rintro args path output? flags ⟨hpath, houtput, hflags, pieces, rfl, hperm⟩
  have hmem : ∀ piece, piece ∈ pieces ↔ piece = .path path ∨
      (∃ file, output? = some file ∧ piece = .output file) ∨ ∃ flag ∈ flags, piece = .flag flag := by
    intro piece
    rw [hperm.mem_iff]
    simp [eq_comm]
  -- only two parts of one kind disagree, and there is one path, one output file and no flag twice
  have hagree : pieces.Pairwise Piece.Agrees := by
    refine (hperm.pairwise_iff fun {a b} (hab : a.Agrees b) => hab.symm).2 ?_
    refine List.pairwise_cons.2 ⟨?_, List.pairwise_append.2 ⟨?_, List.pairwise_map.2 hflags, ?_⟩⟩
    · simp [or_imp, forall_and, Piece.Agrees]
    · cases output? <;> simp
    · simp [Piece.Agrees]
  have hadmits : ∀ piece ∈ pieces, ({} : Draft).Admits piece := by
    intro piece hpiece
    obtain rfl | ⟨file, hfile, rfl⟩ | ⟨flag, -, rfl⟩ := (hmem piece).1 hpiece
    · exact ⟨hpath, rfl⟩
    · exact ⟨houtput file hfile, rfl⟩
    · exact List.not_mem_nil
  have hread := parseFrom_pieces hadmits hagree
  rw [Draft.finish, Draft.path?_foldl hagree ((hmem _).2 (.inl rfl))] at hread
  refine ⟨_, hread, rfl, ?_, fun flag => ?_⟩
  · cases output? with
    | some file => exact Draft.output?_foldl hagree ((hmem _).2 (.inr (.inl ⟨file, rfl, rfl⟩)))
    | none =>
      refine Draft.output?_foldl_eq_none (fun file hfile => ?_) rfl
      simpa using (hmem _).1 hfile
  · rw [has, decide_eq_true_iff, Draft.mem_flags_foldl, hmem]
    simp

end Options

end MiniPascal
