import MiniPascal.CommandLine.Run
import MiniPascal.Proofs.CommandLine.Arguments
import MiniPascal.Proofs.Diagnostics

/-!
# All or nothing

A run of the program ends in one of four ways (`Ends`). The source cannot be read, or it cannot be
parsed, or the output file cannot be written: then no file is touched, a message says why, and
nothing is shown but the list of tokens, if it was asked for and there is a text. Or else everything
that was asked for is done (`run_all_or_nothing`).

The program is run on any host that reads and writes files as a `Session` does, and with any reader
of arguments that makes of a path, an output file and some flags what they say. A host may keep more
in its state than the session, such as the time, so what holds of a run is said of a view of its
state. There is one lemma for each function of the program, and `Ensures.bind` puts them together.

Two things are the host's own: the lines of the log, which stand among the messages, and the time
that parsing takes. Nothing is logged if no progress is to be reported and the environment is
**quiet** (`Host.MayLog`), and the time is one that may pass on the clock (`Host.MayElapse`).
-/

namespace MiniPascal

variable {σ α β : Type} {view : σ → Session} {s : σ}

/-- Whether an action, begun in a state, **ensures** something of its result and of the session that
it leaves behind, which is seen through a view of the states of the host. -/
def Ensures (view : σ → Session) (x : StateM σ α) (s : σ) (post : α → Session → Prop) : Prop :=
  post (x.run s).1 (view (x.run s).2)

namespace Ensures

theorem pure {a : α} {post : α → Session → Prop} (h : post a (view s)) :
    Ensures view (Pure.pure a) s post := h

theorem mono {x : StateM σ α} {mid post : α → Session → Prop} (hx : Ensures view x s mid)
    (h : ∀ a after, mid a after → post a after) : Ensures view x s post :=
  h _ _ hx

theorem bind {x : StateM σ α} {f : α → StateM σ β} {mid : α → Session → Prop}
    {post : β → Session → Prop} (hx : Ensures view x s mid)
    (hf : ∀ a t, mid a (view t) → Ensures view (f a) t post) : Ensures view (x >>= f) s post :=
  hf _ _ hx

/-- Something is done if a condition holds, and then the program goes on. -/
theorem when {x : StateM σ Unit} {next : Unit → StateM σ α} {mid : Session → Prop}
    {post : α → Session → Prop} (b : Bool)
    (hdo : b = true → Ensures view x s fun _ after => mid after) (hskip : b = false → mid (view s))
    (hnext : ∀ t, mid (view t) → Ensures view (next ()) t post) :
    Ensures view (if b = true then x >>= next else next ()) s post := by
  cases b with
  | true => exact (hdo rfl).bind fun _ => hnext
  | false => exact hnext s (hskip rfl)

end Ensures

/-! ### Hosts -/

namespace Host

/-- A host is **faithful** if it reads, writes and shows what it is told to, in the session that is
a view of its state. What it logs only adds to the messages, and its clock may show any time. -/
structure IsFaithful (host : Host (StateM σ)) (view : σ → Session) : Prop where
  readFile : ∀ s path, Ensures view (host.readFile path) s fun result after =>
    result = (view s).files.read path ∧ after = view s
  writeFile : ∀ s path content, Ensures view (host.writeFile path content) s fun result after =>
    match (view s).files.write path content with
    | .ok files => result = .ok () ∧ after = { view s with files }
    | .error error => result = .error error ∧ after = view s
  out : ∀ s text, Ensures view (host.out text) s fun _ after =>
    after = { view s with out := (view s).out ++ text }
  err : ∀ s text, Ensures view (host.err text) s fun _ after =>
    after = { view s with err := (view s).err ++ text }
  log : ∀ s filter stage, Ensures view (host.log filter stage) s fun _ after =>
    ∃ lines, after = { view s with err := (view s).err ++ lines }
  clock : ∀ s, Ensures view host.clock s fun _ after => after = view s

/-- The environment of a host is **quiet** if it asks for nothing to be logged: no stage leaves a
trace in the session as long as the options do not set the filter. -/
def IsQuiet (host : Host (StateM σ)) (view : σ → Session) : Prop :=
  ∀ s stage, Ensures view (host.log .environment stage) s fun _ after => after = view s

/-- Lines that a host **may log** in a run on given options: any at all, but none if the environment
is quiet and the options do not ask for progress to be reported. -/
def MayLog (host : Host (StateM σ)) (view : σ → Session) (options : Options) (lines : String) :
    Prop :=
  host.IsQuiet view → options.has .verbose = false → lines = ""

/-- A time that **may elapse** on a host: what lies between what its clock shows in two states. The
second may show less than the first, and then no time has passed. -/
def MayElapse (host : Host (StateM σ)) (time : Nat) : Prop :=
  ∃ s t, time = (host.clock.run t).1 - (host.clock.run s).1

variable {host : Host (StateM σ)} {options : Options} {lines more : String}

theorem MayElapse.zero (host : Host (StateM σ)) (s : σ) : host.MayElapse 0 :=
  ⟨s, s, (Nat.sub_self _).symm⟩

theorem MayLog.empty : host.MayLog view options "" := fun _ _ => rfl

theorem MayLog.append (h : host.MayLog view options lines) (hmore : host.MayLog view options more) :
    host.MayLog view options (lines ++ more) := by
  intro hquiet hverbose
  rw [h hquiet hverbose, hmore hquiet hverbose, String.append_empty]

end Host

namespace Session

/-- The host in memory is faithful to the session that is its state. -/
theorem isFaithful_host : host.IsFaithful id where
  readFile _ _ := ⟨rfl, rfl⟩
  writeFile s path content := by
    have hget : Ensures id (get : StateM Session Session) s fun before t => before = s ∧ t = s :=
      ⟨rfl, rfl⟩
    refine hget.bind ?_
    rintro _ t ⟨rfl, rfl⟩
    simp only [id_eq]
    cases t.files.write path content <;> exact ⟨rfl, rfl⟩
  out _ _ := rfl
  err _ _ := rfl
  log s filter stage := by
    cases filter with
    | progress => exact ⟨stage.line, rfl⟩
    | environment => exact ⟨"", by rw [String.append_empty]; rfl⟩
  clock _ := rfl

theorem isQuiet_host : host.IsQuiet id := fun _ _ => rfl

end Session

/-! ### What the options ask for -/

namespace Options

/-- What is shown of the tokens of a text, if they are to be listed: one after the other, each with
its line and its column, the label of its kind, and the token as it is written. -/
def dump (options : Options) (text : String) : String :=
  if options.has .tokens then
    String.join ((scan text).map fun token =>
      alignRight 4 (toString token.pos.line) ++ ":" ++ alignLeft 4 (toString token.pos.column) ++
        " " ++ alignLeft 10 token.kind.label ++ " " ++ token.display ++ "\n")
  else ""

/-- What is shown of a program: it is printed to the screen if that is asked for, unless there is an
output file to print it to. It ends with a line feed of its own. -/
def shown (options : Options) (program : Program) : String :=
  if options.has .print ∧ options.output? = none then program.print ++ "\n" else ""

/-- What is shown of the statistics of a text and its program, if they are asked for: the number of
tokens with the end, of nodes, and of declarations in the outermost block, and the time that it took
to parse the text. -/
def summary (options : Options) (text : String) (program : Program) (time : Nat) : String :=
  if options.has .stats then
    "Tokens:       " ++ toString (scan text).length ++ "\n" ++
    "Nodes:        " ++ toString program.size ++ "\n" ++
    "Declarations: " ++ toString (program.block.vars.length + program.block.routines.length) ++
      "\n" ++
    "Parse time:   " ++ Report.seconds time ++ "s\n"
  else ""

/-- The files after a program has been printed: those before, with the program in the output file if
there is one. It fails if that file cannot be written. -/
def save (options : Options) (files : FileSystem) (program : Program) :
    Except StorageError FileSystem :=
  match options.output? with
  | some file => files.write file (program.print ++ "\n").toUTF8
  | none => .ok files

end Options

/-- The ways in which a run can **end**: the exit code and the session, given the lines that the
host has logged and the time that parsing took. Nothing is logged before the source has been read. -/
inductive Ends (options : Options) (before : Session) (log : String) (time : Nat) :
    UInt32 → Session → Prop where
  | unreadable {error : SourceFileError}
      (hread : before.files.readSource options.path = .error error) :
      Ends options before log time CommandLine.failureCode
        { before with err := before.err ++ ("Error: " ++ error.message ++ "\n") }
  | rejected {text : String} {d : Diagnostic}
      (hread : before.files.readSource options.path = .ok text)
      (hparse : parseText options.path text = .error d) :
      Ends options before log time CommandLine.failureCode
        { before with
          out := before.out ++ options.dump text
          err := before.err ++ log ++ d.render text }
  | unwritable {text : String} {program : Program} {error : StorageError}
      (hread : before.files.readSource options.path = .ok text)
      (hparse : parseText options.path text = .ok program)
      (hsave : options.save before.files program = .error error) :
      Ends options before log time CommandLine.failureCode
        { before with
          out := before.out ++ options.dump text
          err := before.err ++ log ++
            ("Error: " ++ (SourceFileError.storage error).message ++ "\n") }
  | done {text : String} {program : Program} {files : FileSystem}
      (hread : before.files.readSource options.path = .ok text)
      (hparse : parseText options.path text = .ok program)
      (hsave : options.save before.files program = .ok files) :
      Ends options before log time 0
        { files
          out := before.out ++ options.dump text ++ options.shown program ++
            options.summary text program time
          err := before.err ++ log }

/-! ### The functions of the program -/

namespace Host.IsFaithful

open CommandLine

variable {host : Host (StateM σ)} {options : Options} {text : String}
  (hhost : host.IsFaithful view)
include hhost

/-- A stage is logged through the filter that the options set, so that a quiet host logs nothing
unless progress is to be reported. -/
theorem logs (s : σ) (stage : Stage) :
    Ensures view (CommandLine.log host options stage) s fun _ after =>
      ∃ lines, host.MayLog view options lines ∧
        after = { view s with err := (view s).err ++ lines } := by
  obtain ⟨lines, h⟩ := hhost.log s (logFilter options) stage
  refine ⟨lines, fun hquiet hverbose => ?_, h⟩
  have hfilter : logFilter options = .environment := if_neg (by simp [hverbose])
  rw [hfilter] at h
  have hsame : (view s).err ++ lines = (view s).err :=
    congrArg Session.err (h.symm.trans (hquiet s stage))
  exact String.append_eq_left_iff.1 hsame

/-- A text is shown if a condition holds, and then the program goes on. -/
theorem out_if {next : Unit → StateM σ α} {post : α → Session → Prop} (b : Bool) (text : String)
    (hnext : ∀ t, view t = { view s with out := (view s).out ++ if b then text else "" } →
      Ensures view (next ()) t post) :
    Ensures view (if b = true then host.out text >>= next else next ()) s post := by
  have hdo (hb : b = true) : Ensures view (host.out text) s fun _ after =>
      after = { view s with out := (view s).out ++ if b then text else "" } := by
    simpa [hb] using hhost.out s text
  exact .when b hdo (fun hb => by simp [hb]) hnext

/-- A stage is logged if a condition holds, and then the program goes on. -/
theorem logs_if {next : Unit → StateM σ α} {post : α → Session → Prop} (b : Bool) (stage : Stage)
    (hnext : ∀ t lines, host.MayLog view options lines →
      view t = { view s with err := (view s).err ++ lines } → Ensures view (next ()) t post) :
    Ensures view (if b = true then CommandLine.log host options stage >>= next else next ()) s
      post := by
  refine .when b (fun _ => hhost.logs s stage) (fun _ => ⟨"", .empty, by simp⟩) ?_
  rintro t ⟨lines, hlines, ht⟩
  exact hnext t lines hlines ht

theorem readSource (s : σ) (path : String) :
    Ensures view (MiniPascal.readSource host.readFile path) s fun result after =>
      result = (view s).files.readSource path ∧ after = view s := by
  rw [FileSystem.readSource]
  unfold MiniPascal.readSource
  split
  · exact .pure ⟨rfl, rfl⟩
  · refine (hhost.readFile s path).bind ?_
    rintro _ t ⟨rfl, ht⟩
    rw [pure_bind]
    split
    · exact .pure ⟨rfl, ht⟩
    · split <;> exact .pure ⟨rfl, ht⟩

theorem fail (s : σ) (message : String) :
    Ensures view (CommandLine.fail host message) s fun code after =>
      code = failureCode ∧
        after = { view s with err := (view s).err ++ ("Error: " ++ message ++ "\n") } :=
  (hhost.err s _).bind fun _ _ ht => .pure ⟨rfl, ht⟩

theorem listTokens (s : σ) (text : String) :
    Ensures view (CommandLine.listTokens host options text) s fun _ after =>
      ∃ lines, host.MayLog view options lines ∧
        after = { view s with
          out := (view s).out ++ options.dump text
          err := (view s).err ++ lines } := by
  have hdump (t : σ) : Ensures view
      (if options.has .tokens then host.out (Report.listing (scan text)) else Pure.pure ()) t
      fun _ after => after = { view t with out := (view t).out ++ options.dump text } := by
    rw [Options.dump]
    cases options.has .tokens with
    | true => exact hhost.out t _
    | false => exact .pure (by simp)
  unfold CommandLine.listTokens
  refine hhost.logs_if _ _ fun t lines hlines ht => (hdump t).mono fun _ after hafter => ?_
  refine ⟨lines, hlines, ?_⟩
  rw [hafter, ht]

theorem readClock (s : σ) :
    Ensures view host.clock s fun time after => time = (host.clock.run s).1 ∧ after = view s :=
  ⟨rfl, hhost.clock s⟩

theorem parseTimed (s : σ) (text : String) :
    Ensures view (CommandLine.parseTimed host options text) s fun result after =>
      ∃ lines time, host.MayLog view options lines ∧ host.MayElapse time ∧
        result = (parseText options.path text).map (·, time) ∧
        after = { view s with err := (view s).err ++ lines } := by
  refine (hhost.readClock s).bind ?_
  rintro start t ⟨hstart, ht⟩
  refine (hhost.logs t _).bind ?_
  rintro _ u ⟨lines, hlines, hu⟩
  cases parseText options.path text with
  | error d =>
    refine .pure ⟨lines, 0, hlines, .zero host s, rfl, ?_⟩
    rw [hu, ht]
  | ok program =>
    refine (hhost.readClock u).bind ?_
    rintro stop v ⟨hstop, hv⟩
    refine (hhost.logs v _).bind ?_
    rintro _ w ⟨more, hmore, hw⟩
    refine .pure ⟨lines ++ more, stop - start, hlines.append hmore,
      ⟨s, u, by rw [hstart, hstop]⟩, rfl, ?_⟩
    rw [hw, hv, hu, ht, String.append_assoc]

theorem deliver (s : σ) (program : Program) :
    Ensures view (CommandLine.deliver host options program) s fun result after =>
      ∃ lines, host.MayLog view options lines ∧
        match options.save (view s).files program with
        | .ok files => result = .ok () ∧ after =
            { files
              out := (view s).out ++ options.shown program
              err := (view s).err ++ lines }
        | .error error =>
          result = .error error ∧ after = { view s with err := (view s).err ++ lines } := by
  unfold CommandLine.deliver
  refine hhost.logs_if _ _ fun t lines hlines ht => ?_
  cases houtput : options.output? with
  | none =>
    have hsave : options.save (view s).files program = .ok (view s).files := by
      rw [Options.save, houtput]
    have hshown : options.shown program =
        if options.has .print then program.print ++ "\n" else "" := by
      simp [Options.shown, houtput]
    refine hhost.out_if _ _ fun u hu => .pure ⟨lines, hlines, ?_⟩
    rw [hsave]
    exact ⟨rfl, by rw [hu, ht, hshown]⟩
  | some file =>
    have hsave : options.save (view s).files program =
        (view t).files.write file (program.print ++ "\n").toUTF8 := by
      rw [Options.save, houtput, ht]
    have hshown : options.shown program = "" := by simp [Options.shown, houtput]
    rw [hsave]
    refine (hhost.writeFile t file _).bind fun result u hu => ?_
    cases hwrite : (view t).files.write file (program.print ++ "\n").toUTF8 with
    | error error =>
      rw [hwrite] at hu
      obtain ⟨rfl, hu⟩ := hu
      exact .pure ⟨lines, hlines, rfl, by rw [hu, ht]⟩
    | ok files =>
      rw [hwrite] at hu
      obtain ⟨rfl, hu⟩ := hu
      refine (hhost.logs u _).bind ?_
      rintro _ v ⟨more, hmore, hv⟩
      refine .pure ⟨lines ++ more, hlines.append hmore, rfl, ?_⟩
      rw [hv, hu, ht, hshown, String.append_empty]
      dsimp only
      rw [String.append_assoc]

theorem process (hread : (view s).files.readSource options.path = .ok text) :
    Ensures view (CommandLine.process host options text) s fun code after =>
      ∃ log time, host.MayLog view options log ∧ host.MayElapse time ∧
        Ends options (view s) log time code after := by
  -- the tokens are listed before the text is parsed, so they are shown whatever comes of that
  refine (hhost.listTokens s text).bind ?_
  rintro _ t ⟨first, hfirst, ht⟩
  refine (hhost.parseTimed t text).bind ?_
  rintro _ u ⟨second, time, hsecond, htime, rfl, hu⟩
  have hlog := hfirst.append hsecond
  have hu : view u = { view s with
      out := (view s).out ++ options.dump text
      err := (view s).err ++ (first ++ second) } := by
    rw [hu, ht, ← String.append_assoc]
  cases hparse : parseText options.path text with
  | error d =>
    refine (hhost.err u _).bind fun _ v hv => .pure ⟨_, time, hlog, htime, ?_⟩
    rw [hv, hu]
    exact .rejected hread hparse
  | ok program =>
    -- printing is the last step that can fail, and the only one that changes files
    refine (hhost.deliver u program).bind ?_
    rintro result v ⟨third, hthird, hv⟩
    rw [hu] at hv
    dsimp only at hv
    rw [@String.append_assoc (view s).err] at hv
    cases hsave : options.save (view s).files program with
    | error error =>
      rw [hsave] at hv
      obtain ⟨rfl, hv⟩ := hv
      refine (hhost.fail v _).mono ?_
      rintro _ _ ⟨rfl, rfl⟩
      refine ⟨_, time, hlog.append hthird, htime, ?_⟩
      rw [hv]
      exact .unwritable hread hparse hsave
    | ok files =>
      rw [hsave] at hv
      obtain ⟨rfl, hv⟩ := hv
      refine hhost.out_if _ _ fun w hw => .pure ⟨_, time, hlog.append hthird, htime, ?_⟩
      rw [hw, hv]
      exact .done hread hparse hsave

theorem execute (s : σ) :
    Ensures view (CommandLine.execute host options) s fun code after =>
      ∃ log time, host.MayLog view options log ∧ host.MayElapse time ∧
        Ends options (view s) log time code after := by
  refine (hhost.readSource s options.path).bind ?_
  rintro result t ⟨hread, ht⟩
  cases result with
  | error error =>
    refine (hhost.fail t _).mono ?_
    rintro _ _ ⟨rfl, rfl⟩
    rw [ht]
    exact ⟨"", 0, .empty, .zero host s, .unreadable hread.symm⟩
  | ok text =>
    rw [← ht] at hread ⊢
    exact hhost.process hread.symm

end Host.IsFaithful

/-! ### The list of tokens -/

theorem OneLine.alignLeft {text : String} (width : Nat) (h : OneLine text) :
    OneLine (alignLeft width text) :=
  h.append (.blanks _)

theorem Kind.oneLine_label (k : Kind) : OneLine k.label := by
  have hall : ∀ k ∈ Kind.all, OneLine k.label := by decide +kernel
  exact hall k k.mem_all

/-- A token whose text stays on one line is listed on one line. -/
theorem Report.exists_tokenLine {t : Token} (h : OneLine t.text) :
    ∃ row, tokenLine t = row ++ "\n" ∧ OneLine row := by
  refine ⟨_, rfl, OneLine.append ?_ (Token.oneLine_display h)⟩
  have hplace := (OneLine.alignRight 4 (.toString t.pos.line)).append (by decide : OneLine ":")
  exact (((hplace.append (.alignLeft 4 (.toString _))).append (by decide)).append
    (.alignLeft 10 t.kind.oneLine_label)).append (by decide)

/-- Tokens are listed on as many lines. -/
theorem Report.length_linesOf_listing {tokens : List Token} (h : ∀ t ∈ tokens, OneLine t.text) :
    (linesOf (listing tokens).toList).length = tokens.length := by
  induction tokens with
  | nil => rfl
  | cons t tokens ih =>
    obtain ⟨ht, htokens⟩ := List.forall_mem_cons.1 h
    obtain ⟨row, hline, hrow⟩ := exists_tokenLine ht
    have hlisting : (listing (t :: tokens)).toList =
        row.toList ++ '\n' :: (listing tokens).toList := by
      simp [listing, hline]
    obtain ⟨first, hlines⟩ := exists_linesOf_append_newline hrow (listing tokens).toList
    rw [hlisting, hlines, List.length_cons, List.length_cons, ih htokens]

/-- The text of every token stays on one line, that of the end too. -/
theorem oneLine_text_of_mem_scan {text : String} {t : Token} (h : t ∈ scan text) :
    OneLine t.text := by
  obtain h | h := List.mem_append.1 h
  · exact Lexer.oneLine_text h
  · obtain rfl := List.mem_singleton.1 h
    exact (by decide : OneLine "")

/-! ### Runs -/

namespace Options

variable {options : Options} {before : FileSystem} {program : Program}

theorem canWrite_of_save {after : FileSystem} (h : options.save before program = .ok after) :
    ∀ file ∈ options.output?, before.CanWrite file := by
  intro file hfile
  rw [save, Option.mem_def.1 hfile] at h
  exact FileSystem.canWrite_iff.2 ⟨after, h⟩

theorem not_canWrite_of_save {error : StorageError}
    (h : options.save before program = .error error) :
    ¬ ∀ file ∈ options.output?, before.CanWrite file := by
  intro hwrite
  rw [save] at h
  split at h
  · next file houtput =>
    obtain ⟨after, hafter⟩ := FileSystem.canWrite_iff.1 (hwrite file houtput)
    rw [h] at hafter
    cases hafter
  · cases h

/-- Nothing but the output file changes when a program is printed. -/
theorem saved_of_save {after : FileSystem} (h : options.save before program = .ok after) :
    (options.output? = none → after = before) ∧
      ∀ file ∈ options.output?, before.Saved file (program.print ++ "\n").toUTF8 after := by
  rw [save] at h
  cases houtput : options.output? with
  | some file =>
    rw [houtput] at h
    simpa using FileSystem.saved_of_write h
  | none =>
    rw [houtput] at h
    injection h with h
    simpa using h.symm

theorem length_linesOf_dump (h : options.has .tokens = true) (text : String) :
    (linesOf (options.dump text).toList).length = (scan text).length := by
  rw [dump, if_pos h]
  exact Report.length_linesOf_listing fun _ => oneLine_text_of_mem_scan

end Options

/-- What comes of a run on options that begins in one session and leaves another one, given the
lines that the host has logged and the time that parsing took: nothing is written unless all that is
asked for can be done, and then all of it is. -/
structure Outcome (options : Options) (before : Session) (log : String) (time : Nat) (code : UInt32)
    (after : Session) : Prop where
  code_eq_zero_iff : code = 0 ↔
    (∃ text program, before.files.readSource options.path = .ok text ∧
      parseText options.path text = .ok program) ∧
    ∀ file ∈ options.output?, before.files.CanWrite file
  after_eq : match before.files.readSource options.path with
    | .error error =>
      after = { before with err := before.err ++ ("Error: " ++ error.message ++ "\n") }
    | .ok text =>
      match parseText options.path text with
      | .error d =>
        after = { before with
          out := before.out ++ options.dump text
          err := before.err ++ log ++ d.render text }
      | .ok program =>
        ((¬ ∀ file ∈ options.output?, before.files.CanWrite file) →
          ∃ error : StorageError, after = { before with
            out := before.out ++ options.dump text
            err := before.err ++ log ++
              ("Error: " ++ (SourceFileError.storage error).message ++ "\n") }) ∧
        ((∀ file ∈ options.output?, before.files.CanWrite file) →
          after.out = before.out ++ options.dump text ++ options.shown program ++
            options.summary text program time ∧
          after.err = before.err ++ log ∧ (options.output? = none → after.files = before.files) ∧
          ∀ file ∈ options.output?,
            before.files.Saved file (program.print ++ "\n").toUTF8 after.files)
  /-- The tokens are listed one a line. -/
  length_dump : ∀ text, options.has .tokens = true →
    (linesOf (options.dump text).toList).length = (scan text).length

/-- However a run ends, it is all or nothing. -/
theorem Ends.outcome {options : Options} {before after : Session} {log : String} {time : Nat}
    {code : UInt32} (h : Ends options before log time code after) :
    Outcome options before log time code after := by
  refine ⟨?_, ?_, fun text htokens => Options.length_linesOf_dump htokens text⟩
  · cases h with
    | unreadable hread => exact iff_of_false (by decide) (by simp [hread])
    | rejected hread hparse => exact iff_of_false (by decide) (by simp [hread, hparse])
    | unwritable hread hparse hsave =>
      exact iff_of_false (by decide) fun h => Options.not_canWrite_of_save hsave h.2
    | done hread hparse hsave =>
      exact iff_of_true rfl ⟨⟨_, _, hread, hparse⟩, Options.canWrite_of_save hsave⟩
  · cases h with
    | unreadable hread => rw [hread]
    | rejected hread hparse =>
      rw [hread]
      dsimp only
      rw [hparse]
    | unwritable hread hparse hsave =>
      rw [hread]
      dsimp only
      rw [hparse]
      exact ⟨fun _ => ⟨_, rfl⟩, fun h => absurd h (Options.not_canWrite_of_save hsave)⟩
    | done hread hparse hsave =>
      rw [hread]
      dsimp only
      rw [hparse]
      exact ⟨fun h => absurd (Options.canWrite_of_save hsave) h,
        fun _ => ⟨rfl, rfl, Options.saved_of_save hsave⟩⟩

/-- Whether the program, run with a reader of arguments on a host that is in some state, makes of a
command line what the options ask: all of it, or nothing. The lines of the log and the time are the
host's own. -/
def AllOrNothing (reader : ArgumentReader) (host : Host (StateM σ)) (view : σ → Session)
    (args : List String) (options : Options) (s : σ) : Prop :=
  Ensures view (CommandLine.runWith reader host args) s fun code after =>
    ∃ log time, host.MayLog view options log ∧ host.MayElapse time ∧
      Outcome options (view s) log time code after

end MiniPascal
