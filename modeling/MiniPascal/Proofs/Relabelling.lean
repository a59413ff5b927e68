import MiniPascal.Proofs.Grammar.FirstError

/-!
# Only kinds matter

If all tokens that a parser is given are replaced by others of the same kinds, the end token
included, nothing else changes. The parser returns a program if it did before, and that is the same
one with its tokens replaced. If it fails, it fails at the same place in the list, and the diagnostic
refers to the replaced token. So texts and positions go into programs and diagnostics, but no
decision depends on them.
-/

namespace MiniPascal

namespace Parser

/-! ### Streams with their end -/

/-- The tokens of a stream with an end token among them: if none is given, the one that the stream
makes for itself is the last. -/
def ended (ts : List Token) : List Token :=
  if ∃ t ∈ ts, t.kind = .eof then ts else withEnd ts

/-- No token ahead of a parser is for the end. -/
theorem kind_ne_eof_of_mem_tokens {ts : List Token} {t : Token}
    (h : t ∈ (ofTokens ts).feed.tokens) : t.kind ≠ .eof := by
  rw [tokens_eq_takeWhile] at h
  simpa using List.mem_takeWhile_imp h

/-- The token for the end is one. -/
theorem kind_eof (ts : List Token) : (ofTokens ts).feed.eof.kind = .eof := by
  simpa using List.find?_some (find?_withEnd ts)

/-- What is ahead of a fresh parser if an end token is given. -/
theorem feed_of_eq_append {ts us xs : List Token} {eof : Token} (h : ts = us ++ eof :: xs)
    (hus : ∀ u ∈ us, u.kind ≠ .eof) (heof : eof.kind = .eof) :
    (ofTokens ts).feed.tokens = us ∧ (ofTokens ts).feed.eof = eof := by
  have hts : withEnd ts = us ++ eof :: (xs ++ [TokenStream.eofAfter ts]) := by
    rw [withEnd, ← List.cons_append, ← List.append_assoc, ← h]
  exact (feed_of_withEnd hts hus).2 heof

/-- With its end token, a stream begins with what is ahead of a fresh parser. -/
theorem exists_ended_eq (ts : List Token) :
    ∃ xs, ended ts = (ofTokens ts).feed.tokens ++ (ofTokens ts).feed.eof :: xs := by
  unfold ended
  split
  · next h =>
    obtain ⟨t, ht, hkind⟩ := h
    obtain ⟨eof, hfind⟩ : ∃ eof, ts.find? (fun t => t.kind = .eof) = some eof :=
      Option.isSome_iff_exists.1 (List.find?_isSome.2 ⟨t, ht, decide_eq_true hkind⟩)
    obtain ⟨heof, us, xs, hts, hus⟩ := List.find?_eq_some_iff_append.1 hfind
    obtain ⟨htokens, hend⟩ :=
      feed_of_eq_append hts (fun u hu => by simpa using hus u hu) (of_decide_eq_true heof)
    exact ⟨xs, by rw [htokens, hend]; exact hts⟩
  · next h =>
    have hts : ∀ t ∈ ts, t.kind ≠ .eof := fun t ht heof => h ⟨t, ht, heof⟩
    obtain ⟨htokens, hend⟩ := (feed_of_withEnd rfl hts).2 (TokenStream.kind_eofAfter ts)
    exact ⟨[], by rw [htokens, hend]; rfl⟩

/-! ### Failures -/

/-- Whether a fresh parser over the given tokens **fails at** the one with the number `k`: it has
taken those before it, and points to its position. -/
structure FailsAt (ts : List Token) (k : Nat) (t : Token) (d : Diagnostic) : Prop where
  error : (ofTokens ts).parse.1 = .error d
  /-- The token at fault, which may be the end token. -/
  token : (ended ts)[k]? = some t
  /-- The tokens before it have been taken, and no others. -/
  taken : (ofTokens ts).feed.tokens = (ended ts).take k ++ (ofTokens ts).parse.2.feed.tokens
  pos : d.pos = t.pos

/-- A parser does not fail in two ways. -/
theorem FailsAt.unique {ts : List Token} {k k' : Nat} {t t' : Token} {d d' : Diagnostic}
    (h : FailsAt ts k t d) (h' : FailsAt ts k' t' d') : k = k' ∧ t = t' := by
  have htake : (ended ts).take k = (ended ts).take k' :=
    List.append_cancel_right (h.taken.symm.trans h'.taken)
  have hk : k = k' := by
    have hlt := (List.getElem?_eq_some_iff.1 h.token).1
    have hlt' := (List.getElem?_eq_some_iff.1 h'.token).1
    have hlength := congrArg List.length htake
    rw [List.length_take, List.length_take] at hlength
    omega
  subst hk
  exact ⟨rfl, Option.some.inj (h.token.symm.trans h'.token)⟩

/-- If the rule for programs fails, a fresh parser fails at the next token. -/
theorem failsAt_of_program {ts us : List Token} {cause : Cause} {c : Cursor}
    (hus : (ofTokens ts).feed.tokens = us ++ c.rest)
    (hrun : Parse.program ⟨(ofTokens ts).feed.tokens, 0⟩ = .error cause c) :
    ∃ d, FailsAt ts us.length (c.rest.headD (ofTokens ts).feed.eof) d := by
  obtain ⟨xs, hended⟩ := exists_ended_eq ts
  rw [hus, List.append_assoc] at hended
  have hnextId : (ofTokens ts).nextId = 0 := rfl
  have hparse : (ofTokens ts).parse =
      (.error (((ofTokens ts).moveTo c).diagnose cause), (ofTokens ts).moveTo c) := by
    rw [parse, hnextId, hrun]
  refine ⟨_, congrArg Prod.fst hparse, ?_, ?_, rfl⟩
  · rw [hended, List.getElem?_append_right (Nat.le_refl _), Nat.sub_self]
    cases c.rest <;> rfl
  · rw [hparse, hended, List.take_left]
    exact hus

/-- A fresh parser that fails does so at some token. -/
theorem exists_failsAt {ts : List Token} {d : Diagnostic} (h : (ofTokens ts).parse.1 = .error d) :
    ∃ k t, FailsAt ts k t d := by
  obtain ⟨us, c, cause, hus, -, hrun, -⟩ := exists_stop_of_error h
  obtain ⟨d', hfails⟩ := failsAt_of_program hus hrun
  cases h.symm.trans hfails.error
  exact ⟨_, _, hfails⟩

/-! ### Replaced tokens -/

section Replaced

variable {g : Token → Token} (hg : ∀ t, (g t).kind = t.kind)

include hg

/-- What is ahead of a parser is replaced with the tokens that it is given. -/
theorem feed_map_ended (ts : List Token) :
    (ofTokens ((ended ts).map g)).feed.tokens = (ofTokens ts).feed.tokens.map g ∧
      (ofTokens ((ended ts).map g)).feed.eof = g (ofTokens ts).feed.eof := by
  obtain ⟨xs, hended⟩ := exists_ended_eq ts
  have hmapped : (ended ts).map g =
      (ofTokens ts).feed.tokens.map g ++ g (ofTokens ts).feed.eof :: xs.map g := by
    rw [hended, List.map_append, List.map_cons]
  refine feed_of_eq_append hmapped (fun u hu => ?_) ((hg _).trans (kind_eof ts))
  obtain ⟨t, ht, rfl⟩ := List.mem_map.1 hu
  rw [hg]
  exact kind_ne_eof_of_mem_tokens ht

/-- A program that is returned is returned with its tokens replaced. -/
theorem parse_map_ended_of_ok {ts : List Token} {p : Program} (h : (ofTokens ts).parse.1 = .ok p) :
    (ofTokens ((ended ts).map g)).parse.1 = .ok (p.map g fun id => id) := by
  obtain ⟨⟨rest, n⟩, hrun⟩ := parse_eq_ok_iff.1 h
  have hmapped : Parse.program ⟨(ofTokens ts).feed.tokens.map g, 0⟩ =
      .ok (p.map g fun id => id) ⟨rest.map g, n⟩ :=
    Natural.program_eq_ok (.relabelling g hg) rfl rfl hrun
  rw [← (feed_map_ended hg ts).1] at hmapped
  exact parse_eq_ok_iff.2 ⟨_, hmapped⟩

/-- A parser that fails at a token fails at the token that replaces it. -/
theorem FailsAt.map {ts : List Token} {k : Nat} {t : Token} {d : Diagnostic}
    (h : FailsAt ts k t d) : ∃ d', FailsAt ((ended ts).map g) k (g t) d' := by
  obtain ⟨us, ⟨rest, n⟩, cause, hus, -, hrun, -⟩ := exists_stop_of_error h.error
  obtain ⟨d', hfails⟩ := failsAt_of_program hus hrun
  obtain ⟨rfl, rfl⟩ := h.unique hfails
  obtain ⟨htokens, heof⟩ := feed_map_ended hg ts
  have hmapped : Parse.program ⟨(ofTokens ts).feed.tokens.map g, 0⟩ =
      .error cause ⟨rest.map g, n⟩ :=
    Natural.program_eq_error (.relabelling g hg) rfl rfl hrun
  rw [← htokens] at hmapped
  have hus' : (ofTokens ((ended ts).map g)).feed.tokens = us.map g ++ rest.map g := by
    rw [htokens, hus, List.map_append]
  obtain ⟨e, hfails'⟩ := failsAt_of_program hus' hmapped
  rw [List.length_map, heof, List.headD_map] at hfails'
  exact ⟨e, hfails'⟩

/-- Whatever tokens are given to a fresh parser, if all of them are replaced by others of the same
kinds, it returns a program exactly if it did before, and that is the same one with its tokens
replaced. If it fails at some token, it then fails at the token that replaces it. -/
theorem parse_map_ended (ts : List Token) :
    (Accepts ((ended ts).map g) ↔ Accepts ts) ∧
      (∀ p, (ofTokens ts).parse.1 = .ok p →
        (ofTokens ((ended ts).map g)).parse.1 = .ok (p.map g fun id => id)) ∧
      (∀ d, (ofTokens ts).parse.1 = .error d → ∃ k t, FailsAt ts k t d) ∧
      ∀ k t d, FailsAt ts k t d → ∃ d', FailsAt ((ended ts).map g) k (g t) d' := by
  refine ⟨⟨?_, ?_⟩, fun p => parse_map_ended_of_ok hg, fun d => exists_failsAt,
    fun k t d h => h.map hg⟩
  · -- a failure would have stayed one
    rintro ⟨q, hq⟩
    cases h : (ofTokens ts).parse.1 with
    | ok p => exact ⟨p, h⟩
    | error d =>
      obtain ⟨k, t, hfails⟩ := exists_failsAt h
      obtain ⟨d', hfails'⟩ := hfails.map hg
      cases hq.symm.trans hfails'.error
  · rintro ⟨p, hp⟩
    exact ⟨_, parse_map_ended_of_ok hg hp⟩

end Replaced

/-- A number cannot be the name of a program, whatever its digits are and wherever it stands. -/
theorem parse_map_ended_number :
    let g : Token → Token := fun t => ⟨t.kind, "x", ⟨7, t.pos.column⟩⟩
    let ts : List Token :=
      [⟨.keyword .program, "program", ⟨1, 1⟩⟩, ⟨.literal .integer, "7", ⟨1, 9⟩⟩]
    (∀ t, (g t).kind = t.kind) ∧ ∃ d d', FailsAt ts 1 ⟨.literal .integer, "7", ⟨1, 9⟩⟩ d ∧
      FailsAt ((ended ts).map g) 1 ⟨.literal .integer, "x", ⟨7, 9⟩⟩ d' := by
  intro g ts
  have hg : ∀ t, (g t).kind = t.kind := fun _ => rfl
  have hrun : (match (ofTokens ts).parse.1 with
      | .error d => decide (d.pos = ⟨1, 9⟩)
      | .ok _ => false) = true := by decide +kernel
  split at hrun
  · next d hd =>
    have hfails : FailsAt ts 1 ⟨.literal .integer, "7", ⟨1, 9⟩⟩ d :=
      ⟨hd, rfl, by decide +kernel, of_decide_eq_true hrun⟩
    obtain ⟨d', hd'⟩ := (parse_map_ended hg ts).2.2.2 _ _ _ hfails
    exact ⟨hg, d, d', hfails, hd'⟩
  · cases hrun

end Parser

end MiniPascal
