import MiniPascal.Proofs.Ids
import MiniPascal.Proofs.Natural
import MiniPascal.Proofs.Window.Rules

/-!
# Every call is a fresh one

A call of a parser with a window does what a call of the parser does that it is seen as
(`WindowParser.parse_view`). So what the window holds at the beginning of a call never matters, and
the id at which the counter stands is added to all ids (`Parser.parse_map_add`).
-/

namespace MiniPascal

/-! ### Counting from another id -/

/-- The change that adds a number to all ids, and leaves tokens alone: a parser that has been called
before numbers expressions from there on. -/
def Change.adding (n : ExprId) : Change :=
  .throughout (fun t => t) (· + n) (fun _ => rfl) fun i => by
    rw [UInt32.add_assoc, UInt32.add_comm 1 n, ← UInt32.add_assoc]

namespace Parse

variable {ts us : List Token} {i i' : ExprId}

theorem program_add {p : Program} (n : ExprId) (h : program ⟨ts, i⟩ = .ok p ⟨us, i'⟩) :
    program ⟨ts, i + n⟩ = .ok (p.map id (· + n)) ⟨us, i' + n⟩ := by
  have hrun := Natural.program_eq_ok (.adding n) rfl rfl h
  rw [Change.adding, Change.throughout, List.map_id', List.map_id'] at hrun
  exact hrun

theorem program_add_of_error {cause : Cause} (n : ExprId)
    (h : program ⟨ts, i⟩ = .error cause ⟨us, i'⟩) :
    program ⟨ts, i + n⟩ = .error cause ⟨us, i' + n⟩ := by
  have hrun := Natural.program_eq_error (.adding n) rfl rfl h
  rw [Change.adding, Change.throughout, List.map_id', List.map_id'] at hrun
  exact hrun

end Parse

/-- A call that begins with another id gives the same tree with other ids, or the same failure. -/
theorem Parser.parse_map_add (feed : Feed) (n : ExprId) :
    (Parser.mk feed n).parse.1 = (Parser.mk feed 0).parse.1.map (Program.map id (· + n)) := by
  rw [parse, parse]
  dsimp only
  cases hrun : Parse.program ⟨feed.tokens, 0⟩ with
  | ok p c =>
    have hadd := Parse.program_add n hrun
    rw [UInt32.zero_add] at hadd
    rw [hadd]
    rfl
  | error cause c =>
    have hadd := Parse.program_add_of_error n hrun
    rw [UInt32.zero_add] at hadd
    rw [hadd]
    rfl

/-! ### Calls -/

namespace WindowParser

variable {m : WindowParser}

/-- A call does what a call of the parser does that is seen, and leaves a later state. -/
theorem parse_view (hm : m.source.Ends) :
    m.parse.1 = m.view.parse.1.mapError .failure ∧ m.parse.2.view = m.view.parse.2 ∧
      m.Later m.parse.2 := by
  have hview : ∀ {m' : WindowParser}, m.Later m' → m'.view = m.view.moveTo m'.cursor :=
    fun later => congrArg (Parser.mk · _) later.feed
  have hagrees := Tracks.program m hm
  rw [parse, Parser.parse]
  change Agrees m _ (Parse.program ⟨m.view.feed.tokens, m.view.nextId⟩) at hagrees
  generalize Windowed.program m = r, Parse.program _ = r' at hagrees
  cases hagrees with
  | ok later => exact ⟨rfl, hview later, later⟩
  | error later =>
    refine ⟨?_, hview later, later⟩
    dsimp only
    rw [hview later]
    rfl

/-- Calls leave later states. -/
theorem later_after (hm : m.source.Ends) (count : Nat) : m.Later (m.after count) := by
  induction count generalizing m with
  | zero => exact .refl hm
  | succ count ih =>
    obtain ⟨-, -, later⟩ := parse_view hm
    exact later.trans (ih later.ends)

/-- Any number of calls give what those of the parser give that is seen. -/
theorem map_parseTimes_view (hm : m.source.Ends) (count : Nat) :
    (m.view.parseTimes count).map (Except.mapError Halt.failure) =
      (List.range count).map fun k => (m.after k).parse.1 := by
  induction count generalizing m with
  | zero => rfl
  | succ count ih =>
    obtain ⟨hresult, hview, later⟩ := parse_view hm
    rw [Parser.parseTimes, List.map_cons, ← hresult, ← hview, ih later.ends,
      List.range_succ_eq_map, List.map_cons, List.map_map]
    rfl

/-- What a call gives is what a fresh parser gives that has the same tokens before it, with the id
at which the counter stands added to all ids. The window does not matter. -/
theorem parse_eq_fresh (hm : m.source.Ends) {rest : TokenSource}
    (hrest : rest.next = (m.token, m.source)) (window : Lookback 2) :
    { m with window }.parse.1 =
      (ofSource rest).parse.1.map (Program.map id (· + m.nextId)) := by
  have hsource : (ofSource rest).source = m.source := congrArg Prod.snd hrest
  have htoken : (ofSource rest).token = m.token := congrArg Prod.fst hrest
  have hfresh : (ofSource rest).view = ⟨m.view.feed, 0⟩ := by
    rw [view, view, ahead, ahead, endToken, endToken, hsource, htoken]
    rfl
  obtain ⟨hresult, -⟩ := parse_view (m := { m with window }) hm
  obtain ⟨hresult', -⟩ := parse_view (m := ofSource rest) (hsource ▸ hm)
  rw [hresult, hresult', hfresh]
  change (Parser.mk m.view.feed m.nextId).parse.1.mapError _ = _
  rw [Parser.parse_map_add]
  cases (Parser.mk m.view.feed 0).parse.1 <;> rfl

/-! ### How calls end -/

/-- A call that returns a program has read it up to the end. -/
theorem reads_of_parse (hm : m.source.Ends) {p : Program} (h : m.parse.1 = .ok p) :
    ReadsProgram m.cursor p m.parse.2.cursor ∧ m.parse.2.token.kind = .eof := by
  have hagrees := Tracks.program m hm
  rw [← kind_cursor]
  rw [parse] at h ⊢
  generalize Windowed.program m = r, hrun : Parse.program m.cursor = r' at h hagrees
  cases hagrees with
  | ok later =>
    cases h
    exact Parse.readsProgram_of_program hrun
  | error later => cases h

/-- A call that fails does so at the token that is then in hand, and never for looking back. -/
theorem exists_failure_of_parse (hm : m.source.Ends) {halt : Halt} (h : m.parse.1 = .error halt) :
    ∃ cause, halt = .failure (m.parse.2.view.diagnose cause) := by
  have hagrees := Tracks.program m hm
  rw [parse] at h ⊢
  generalize Windowed.program m = r, Parse.program m.cursor = r' at h hagrees
  cases hagrees with
  | ok later => cases h
  | error later =>
    cases h
    exact ⟨_, rfl⟩

/-- At a token that is no `program`, a call takes nothing and fails. -/
theorem parse_of_ne (hk : m.token.kind ≠ .keyword .program) : m.parse =
    (.error (.failure (m.diagnostic (Windowed.expecting [.keyword .program] m.token))), m) := by
  have haccept : Windowed.accept [.keyword .program] m = .ok false m :=
    if_neg (mt List.mem_singleton.1 hk)
  have hrun : Windowed.program m =
      .error (.failure (m.diagnostic (Windowed.expecting [.keyword .program] m.token))) m := by
    change EStateM.bind (EStateM.bind (EStateM.bind _ _) _) _ m = _
    simp only [EStateM.bind, haccept]
    rfl
  rw [parse, hrun]

/-- At a token that is no `program`, no call moves the parser. -/
theorem after_of_ne (hk : m.token.kind ≠ .keyword .program) (count : Nat) : m.after count = m :=
  Function.iterate_fixed (congrArg Prod.snd (parse_of_ne hk)) count

/-- Programs that are returned by the first call and by those after it. -/
theorem programs_succ (m : WindowParser) (count : Nat) :
    m.programs (count + 1) = m.parse.1.toOption.toList ++ m.parse.2.programs count := by
  rw [programs, List.range_succ_eq_map, List.filterMap_cons, List.filterMap_map]
  rw [show m.after 0 = m from rfl]
  cases m.parse.1.toOption <;> rfl

theorem programs_of_ne (hk : m.token.kind ≠ .keyword .program) (count : Nat) :
    m.programs count = [] := by
  induction count with
  | zero => rfl
  | succ count ih =>
    rw [programs_succ, parse_of_ne hk]
    exact ih

/-- All ids of the programs that a parser returns are different, as long as there are not more of
them than ids. Whatever ids failing calls use up, at most one call returns a program. -/
theorem nodup_ids_programs (hm : m.source.Ends) (count : Nat)
    (hlength : ((m.programs count).flatMap Program.ids).length ≤ 2 ^ 32) :
    ((m.programs count).flatMap Program.ids).Nodup := by
  induction count generalizing m with
  | zero => exact List.nodup_nil
  | succ count ih =>
    rw [programs_succ] at hlength ⊢
    cases hresult : m.parse.1 with
    | error halt =>
      rw [hresult] at hlength
      obtain ⟨-, -, later⟩ := parse_view hm
      exact ih later.ends hlength
    | ok p =>
      obtain ⟨hreads, hend⟩ := reads_of_parse hm hresult
      have hrest : m.parse.2.programs count = [] := programs_of_ne (by simp [hend]) count
      rw [hresult, hrest] at hlength
      rw [hrest]
      change (p.ids ++ []).length ≤ 2 ^ 32 at hlength
      change (p.ids ++ []).Nodup
      rw [List.append_nil] at hlength ⊢
      exact hreads.countsUp.nodup hlength

/-- Every call is a fresh parse of what is left. After any number of calls, the token in hand and
the tokens that are not pulled yet are what is left of the source, and from there

* a call gives what a fresh parser gives, whatever the window holds, with the id at which the
  counter stands added to all ids;
* all calls up to there have given what those of a parser without a window give;
* all ids of the programs that they have returned are different;
* a call that fails does so at the token that it leaves in hand;
* after a call that returns a program, or fails at a token that is no `program`, no call takes a
  token any more, and all of them fail at the one in hand. -/
theorem parse_after {source : TokenSource} (h : source.Made) (count : Nat) :
    let m := (ofSource source).after count
    ((∃ taken, (source.take taken).2.next = (m.token, m.source)) ∧
      m.source.file = source.file ∧ m.source.lineCount = source.lineCount) ∧
    (∀ rest : TokenSource, rest.next = (m.token, m.source) → ∀ window : Lookback 2,
      { m with window }.parse.1 =
        (ofSource rest).parse.1.map (Program.map id (· + m.nextId))) ∧
    ((Parser.ofSource source).parseTimes count).map (Except.mapError .failure) =
      ((List.range count).map fun calls => ((ofSource source).after calls).parse.1) ∧
    ((((ofSource source).programs count).flatMap Program.ids).length ≤ 2 ^ 32 →
      (((ofSource source).programs count).flatMap Program.ids).Nodup) ∧
    (∀ halt, m.parse.1 = .error halt → ∃ d, halt = .failure d ∧ d.pos = m.parse.2.token.pos) ∧
    (m.parse.1.isOk = true ∨ m.parse.2.token.kind ≠ .keyword .program →
      ∀ calls, (ofSource source).after (count + 1 + calls) = m.parse.2 ∧
        m.parse.2.parse = (.error (.failure (m.parse.2.diagnostic
          (Windowed.expecting [.keyword .program] m.parse.2.token))), m.parse.2)) := by
  intro m
  have hsource : (ofSource source).source.Ends := h.ends.next
  have later : (ofSource source).Later m := later_after hsource count
  have hm : m.source.Ends := later.ends
  refine ⟨⟨later.pulled source 0 rfl, ?_, ?_⟩, ?_, ?_, ?_, ?_, ?_⟩
  · exact (congrArg Feed.file later.feed).trans source.file_next.1
  · exact (congrArg Feed.lineCount later.feed).trans source.file_next.2
  · exact fun rest hrest window => parse_eq_fresh hm hrest window
  · rw [← view_ofSource h.ends]
    exact map_parseTimes_view hsource count
  · exact nodup_ids_programs hsource count
  · intro halt hhalt
    obtain ⟨cause, rfl⟩ := exists_failure_of_parse hm hhalt
    exact ⟨_, rfl, congrArg Token.pos (head_view _)⟩
  · intro hends calls
    have hk : m.parse.2.token.kind ≠ .keyword .program := by
      rcases hends with hok | hne
      · cases hresult : m.parse.1 with
        | error halt =>
          rw [hresult] at hok
          cases hok
        | ok p => simp [(reads_of_parse hm hresult).2]
      · exact hne
    have hcalls : (ofSource source).after (count + 1 + calls) = m.parse.2.after calls := by
      rw [after, Nat.add_comm, Function.iterate_add_apply, Function.iterate_succ_apply']
      rfl
    exact ⟨hcalls.trans (after_of_ne hk calls), parse_of_ne hk⟩

/-- A call that fails at `program` has used up an id, and the next one goes on from there. -/
theorem parse_after_program :
    let source := TokenSource.lexer (Lexer.ofText
      "program a; begin x := y program b; begin x := y end." "p.pas")
    let m := (ofSource source).after 1
    source.Made ∧ (∃ rest : TokenSource, rest.next = (m.token, m.source) ∧
      m.parse.1 = (ofSource rest).parse.1.map (Program.map id (· + m.nextId))) ∧
    m.nextId = 1 ∧ (m.programs 1).flatMap Program.ids = [1] ∧
    (ofSource source).after 4 = m.parse.2 := by
  intro source m
  have hmade : source.Made := .text _ _
  obtain ⟨⟨⟨taken, hrest⟩, -⟩, hfresh, -, -, -, hends⟩ := parse_after hmade 1
  have hnext : m.nextId = 1 := by decide +kernel
  have hids : (m.programs 1).flatMap Program.ids = [1] := by decide +kernel
  have hok : m.parse.1.isOk = true := by decide +kernel
  exact ⟨hmade, ⟨_, hrest, hfresh _ hrest m.window⟩, hnext, hids, (hends (.inl hok) 2).1⟩

end WindowParser

end MiniPascal
