import MiniPascal.Proofs.Grammar.Accepted
import MiniPascal.Proofs.Natural

/-!
# Failures are found at the first token that cannot go on

When a parser fails, the tokens before the one at fault can be completed to a program, since a run
follows the grammar. With the one at fault they cannot be completed any more: whatever comes behind
it, the parser fails in the same way, since it does not look further ahead. So a failure is reported
as early as it could be.
-/

namespace MiniPascal

namespace Parse

/-- What comes behind the token at which the rule for programs fails does not matter. -/
theorem program_error_of_append {ts : List Token} {t : Token} {r : List Token} {n n' : ExprId}
    {cause : Cause} (h : program ⟨ts ++ t :: r, n⟩ = .error cause ⟨t :: r, n'⟩)
    (r' : List Token) : program ⟨ts ++ t :: r', n⟩ = .error cause ⟨t :: r', n'⟩ := by
  -- the change of what comes behind, which keeps the kind of the token at fault
  let g : Change := ⟨id, id, t :: r, t :: r', fun _ => rfl, fun _ => rfl, rfl⟩
  have hsource : program (g.source ts n) = .error cause (g.source [] n') := h
  simpa [Change.target, g] using (Natural.program (g := g)).error hsource

/-- The tokens before the one at which the rule for programs fails can be completed. -/
theorem exists_completion {ts : List Token} {c' : Cursor} {n : ExprId} {cause : Cause}
    (h : program ⟨ts ++ c'.rest, n⟩ = .error cause c') :
    ∃ us, Derives (.rule .program) ((ts ++ us).map Token.kind) := by
  have hfollows := follows_program ⟨ts ++ c'.rest, n⟩
  rw [h] at hfollows
  obtain ⟨w, us, hw, hd⟩ := hfollows
  have hts : ts.map Token.kind = w := by
    have hkinds : ts.map Token.kind ++ c'.kinds = w ++ c'.kinds := List.map_append.symm.trans hw
    exact List.append_cancel_right hkinds
  refine ⟨us.map Token.bare, ?_⟩
  rw [List.map_append, hts, List.map_map]
  have hbare : Token.kind ∘ Token.bare = id := rfl
  rwa [hbare, List.map_id]

/-- A failing run stops in the tokens that it was given. -/
theorem exists_append_of_error {ts : List Token} {c' : Cursor} {n : ExprId} {cause : Cause}
    (h : program ⟨ts, n⟩ = .error cause c') : ∃ us, ts = us ++ c'.rest := by
  have hnatural := Natural.program (g := ⟨id, id, [], [], fun _ => rfl, fun _ => rfl, rfl⟩)
  have hreaches := hnatural.forward ⟨ts, n⟩
  rw [h] at hreaches
  obtain ⟨us, hus⟩ := hreaches
  exact ⟨us, hus.symm⟩

end Parse

namespace Parser

/-- The tokens of a stream together with the end token that the stream makes for itself, which may
be the one at fault. -/
def withEnd (ts : List Token) : List Token :=
  ts ++ [TokenStream.eofAfter ts]

/-- The tokens ahead of a fresh parser are those of the stream before its first end token. -/
theorem tokens_eq_takeWhile (ts : List Token) :
    (ofTokens ts).feed.tokens = (withEnd ts).takeWhile fun t => t.kind ≠ .eof := by
  change ts.takeWhile _ = _
  rw [withEnd, List.takeWhile_append]
  split
  · next h =>
    have heof : (TokenStream.eofAfter ts).kind = .eof := TokenStream.kind_eofAfter ts
    rw [List.takeWhile_cons_of_neg (by simp [heof]), List.append_nil]
    exact ((List.takeWhile_prefix _).eq_of_length h)
  · rfl

/-- The end of the input is at the first end token of the stream. -/
theorem find?_withEnd (ts : List Token) :
    (withEnd ts).find? (fun t => t.kind = .eof) = some (ofTokens ts).feed.eof := by
  have heof : (TokenStream.eofAfter ts).kind = .eof := TokenStream.kind_eofAfter ts
  change _ = some ((ts.find? fun t => t.kind = .eof).getD (TokenStream.eofAfter ts))
  rw [withEnd, List.find?_append, List.find?_singleton, heof]
  cases ts.find? fun t => t.kind = .eof <;> rfl

/-- What is ahead of a fresh parser, if the stream begins in the given way. -/
theorem feed_of_withEnd {us ts xs : List Token} {t : Token} (h : withEnd us = ts ++ t :: xs)
    (hts : ∀ u ∈ ts, u.kind ≠ .eof) :
    (t.kind ≠ .eof → ∃ r, (ofTokens us).feed.tokens = ts ++ t :: r) ∧
      (t.kind = .eof → (ofTokens us).feed.tokens = ts ∧ (ofTokens us).feed.eof = t) := by
  have hpos : ∀ u ∈ ts, decide (u.kind ≠ .eof) = true := fun u hu => decide_eq_true (hts u hu)
  constructor
  · intro ht
    refine ⟨xs.takeWhile fun t => t.kind ≠ .eof, ?_⟩
    rw [tokens_eq_takeWhile, h, List.takeWhile_append_of_pos hpos,
      List.takeWhile_cons_of_pos (by simpa using ht)]
  · intro ht
    constructor
    · rw [tokens_eq_takeWhile, h, List.takeWhile_append_of_pos hpos,
        List.takeWhile_cons_of_neg (by simp [ht]), List.append_nil]
    · have hfind : ts.find? (fun t => t.kind = .eof) = none :=
        List.find?_eq_none.2 fun u hu => by simpa using hts u hu
      have hfirst := find?_withEnd us
      rw [h, List.find?_append, hfind, Option.none_or,
        List.find?_cons_of_pos (by simpa using ht)] at hfirst
      exact (Option.some.inj hfirst).symm

/-- A parser fails if the rule for programs does, at the next token. -/
theorem parse_eq_error (parser : Parser) {cause : Cause} {c : Cursor}
    (h : Parse.program ⟨parser.feed.tokens, parser.nextId⟩ = .error cause c) :
    ∃ d, parser.parse.1 = .error d ∧ d.pos = (c.rest.headD parser.feed.eof).pos ∧
      d.message = cause.message (c.rest.headD parser.feed.eof) := by
  rw [parse, h]
  exact ⟨_, rfl, rfl, rfl⟩

/-- A parser that fails has taken some tokens, none of which is an error, and stops at the next one,
which is the token at fault. -/
theorem exists_stop_of_error {parser : Parser} {d : Diagnostic} (h : parser.parse.1 = .error d) :
    ∃ (us : List Token) (c : Cursor) (cause : Cause), parser.feed.tokens = us ++ c.rest ∧
      (∀ t ∈ us, t.kind ≠ .error) ∧
      Parse.program ⟨parser.feed.tokens, parser.nextId⟩ = .error cause c ∧
      parser.parse.2 = parser.moveTo c ∧ d = (parser.moveTo c).diagnose cause := by
  rw [parse] at h ⊢
  cases hrun : Parse.program ⟨parser.feed.tokens, parser.nextId⟩ with
  | ok p c =>
    rw [hrun] at h
    cases h
  | error cause c =>
    rw [hrun] at h
    obtain ⟨us, hus⟩ := Parse.exists_append_of_error hrun
    obtain ⟨vs, hvs⟩ := Parse.exists_completion (hus ▸ hrun)
    refine ⟨us, c, cause, hus, fun t ht => ?_, rfl, rfl, (Except.error.inj h).symm⟩
    exact (hvs.ne_eof_and_ne_error (List.mem_map_of_mem (List.mem_append_left vs ht))).2

/-- What it means that a failure over the given tokens is due to the token with the number `k`:
those before it can still become a program, and with it they cannot. -/
structure IsFirstError (ts : List Token) (d : Diagnostic) (k : Nat) (t : Token) : Prop where
  /-- The token at fault, which may be the end token. -/
  token : (withEnd ts)[k]? = some t
  pos : d.pos = t.pos
  /-- A lexical error speaks for itself. -/
  message : t.kind = .error → d.message = t.text
  /-- The tokens before the one at fault can be completed to a program. -/
  viable : ∃ us, (∀ u ∈ ts.take k ++ us, u.kind ≠ .eof) ∧ Accepts (ts.take k ++ us)
  /-- With the token at fault they cannot. -/
  stuck : t.kind ≠ .eof → ∀ us, ¬Accepts (ts.take (k + 1) ++ us)
  /-- At the end, they are no program themselves. -/
  incomplete : t.kind = .eof → ¬Accepts (ts.take k)
  /-- Tokens behind the one at fault do not matter. -/
  same : ∀ us, (withEnd us).take (k + 1) = (withEnd ts).take (k + 1) →
    ∃ d', (ofTokens us).parse.1 = .error d' ∧ d'.pos = d.pos ∧ d'.message = d.message
  /-- No lexical error is passed over. -/
  noError : ∀ i < k, ∀ u, ts[i]? = some u → u.kind ≠ .error

/-- Whatever a stream goes on with behind the token at which the rule for programs fails, a parser
fails there with the same message. -/
theorem parse_error_of_withEnd {ts : List Token} {c : Cursor} {cause : Cause}
    (hts : ∀ t ∈ ts ++ c.rest, t.kind ≠ .eof)
    (h : Parse.program ⟨ts ++ c.rest, 0⟩ = .error cause c) {t : Token}
    (ht : t = c.rest.headD (TokenStream.eofAfter ts)) {us xs : List Token}
    (hus : withEnd us = ts ++ t :: xs) :
    ∃ d, (ofTokens us).parse.1 = .error d ∧ d.pos = t.pos ∧ d.message = cause.message t := by
  have hfeed := feed_of_withEnd hus fun u hu => hts u (List.mem_append_left _ hu)
  -- the token at fault is the end token, or it is one of those that are given
  obtain ⟨_ | ⟨v, r⟩, n⟩ := c
  · obtain ⟨htokens, heof⟩ := hfeed.2 (ht ▸ TokenStream.kind_eofAfter ts)
    rw [List.append_nil, ← htokens] at h
    obtain ⟨d, hd, hpos, hmessage⟩ := parse_eq_error (ofTokens us) h
    rw [List.headD_nil, heof] at hpos hmessage
    exact ⟨d, hd, hpos, hmessage⟩
  · rw [List.headD_cons] at ht
    subst ht
    obtain ⟨r', hr'⟩ := hfeed.1 (hts t (by simp))
    have hrun := Parse.program_error_of_append h r'
    rw [← hr'] at hrun
    exact parse_eq_error (ofTokens us) hrun

/-- The token at which a stream goes on behind some of its tokens. -/
theorem exists_withEnd_eq (ts rest : List Token) :
    ∃ xs, withEnd (ts ++ rest) = ts ++ rest.headD (TokenStream.eofAfter ts) :: xs := by
  cases rest with
  | nil => exact ⟨[], by rw [List.append_nil]; rfl⟩
  | cons t r => exact ⟨r ++ [TokenStream.eofAfter (ts ++ t :: r)], List.append_assoc ..⟩

/-- A failure of the rule for programs is due to the token at which it stops. -/
theorem isFirstError_of_error {ts : List Token} {c : Cursor} {cause : Cause} {d : Diagnostic}
    (hts : ∀ t ∈ ts ++ c.rest, t.kind ≠ .eof)
    (hrun : Parse.program ⟨ts ++ c.rest, 0⟩ = .error cause c)
    (h : (ofTokens (ts ++ c.rest)).parse.1 = .error d) :
    IsFirstError (ts ++ c.rest) d ts.length (c.rest.headD (TokenStream.eofAfter ts)) := by
  obtain ⟨us, hus⟩ := Parse.exists_completion hrun
  obtain ⟨xs, hxs⟩ := exists_withEnd_eq ts c.rest
  generalize ht : c.rest.headD (TokenStream.eofAfter ts) = t at hxs
  -- every stream that goes on with the token at fault is rejected there
  have hfail : ∀ vs xs, withEnd vs = ts ++ t :: xs → ∃ d, (ofTokens vs).parse.1 = .error d ∧
      d.pos = t.pos ∧ d.message = cause.message t :=
    fun _ _ hvs => parse_error_of_withEnd hts hrun ht.symm hvs
  have hreject : ∀ vs xs, withEnd vs = ts ++ t :: xs → ¬Accepts vs := by
    rintro vs xs hvs ⟨p, hp⟩
    obtain ⟨d, hd, -⟩ := hfail vs xs hvs
    cases hp.symm.trans hd
  obtain ⟨d', hd', hpos, hmessage⟩ := hfail _ _ hxs
  cases h.symm.trans hd'
  have hnoEof : ∀ u ∈ ts ++ us, u.kind ≠ .eof := fun u hu =>
    (hus.ne_eof_and_ne_error (List.mem_map_of_mem hu)).1
  have hnoError : ∀ u ∈ ts, u.kind ≠ .error := fun u hu =>
    (hus.ne_eof_and_ne_error (List.mem_map_of_mem (List.mem_append_left us hu))).2
  refine ⟨by simp [hxs], hpos, fun hk => hmessage.trans (cause.message_of_error hk), ⟨us, ?_⟩,
    ?_, ?_, ?_, ?_⟩
  · rw [List.take_left]
    exact ⟨hnoEof, (accepts_iff hnoEof).2 hus⟩
  · intro hne vs
    cases hc : c.rest with
    | nil =>
      rw [hc, List.headD_nil] at ht
      exact absurd (ht ▸ TokenStream.kind_eofAfter ts) hne
    | cons u r =>
      rw [hc, List.headD_cons] at ht
      rw [ht, List.take_length_add_append]
      exact hreject _ _ (by rw [withEnd, List.append_assoc, List.append_assoc]; rfl)
  · intro hk
    cases hc : c.rest with
    | nil =>
      rw [hc, List.headD_nil] at ht
      rw [List.take_left]
      exact hreject ts [] (by rw [← ht]; rfl)
    | cons u r =>
      rw [hc, List.headD_cons] at ht
      exact absurd hk (hts t (by simp [hc, ht]))
  · intro vs hvs
    rw [hxs, List.take_length_add_append] at hvs
    have hsplit := (List.take_append_drop (ts.length + 1) (withEnd vs)).symm
    rw [hvs, List.append_assoc] at hsplit
    obtain ⟨d', hd', hpos', hmessage'⟩ := hfail vs _ hsplit
    exact ⟨d', hd', hpos'.trans hpos.symm, hmessage'.trans hmessage.symm⟩
  · intro i hi u hu
    rw [List.getElem?_append_left hi] at hu
    exact hnoError u (List.mem_of_getElem? hu)

/-- A parser that fails over tokens none of which is for the end fails at the first token with which
they cannot be the beginning of a program. -/
theorem exists_isFirstError {ts : List Token} (hts : ∀ t ∈ ts, t.kind ≠ .eof) {d : Diagnostic}
    (h : (ofTokens ts).parse.1 = .error d) : ∃ k t, IsFirstError ts d k t := by
  cases hrun : Parse.program ⟨ts, 0⟩ with
  | ok p c =>
    have hok : (ofTokens ts).parse.1 = .ok p :=
      parse_eq_ok_iff.2 ⟨c, by rw [tokens_ofTokens hts]; exact hrun⟩
    rw [hok] at h
    cases h
  | error cause c =>
    obtain ⟨ws, rfl⟩ := Parse.exists_append_of_error hrun
    exact ⟨_, _, isFirstError_of_error hts hrun h⟩

/-- A number cannot be the name of a program. -/
theorem exists_isFirstError_number :
    let ts : List Token :=
      [⟨.keyword .program, "program", ⟨1, 1⟩⟩, ⟨.literal .integer, "7", ⟨1, 9⟩⟩]
    ∃ e, (ofTokens ts).parse.1 = .error e ∧ e.pos = ⟨1, 9⟩ ∧ ∃ k t, IsFirstError ts e k t := by
  intro ts
  have hrun : (match (ofTokens ts).parse.1 with
      | .error e => decide (e.pos = ⟨1, 9⟩)
      | .ok _ => false) = true := by decide +kernel
  split at hrun
  · next e he =>
    exact ⟨e, he, of_decide_eq_true hrun, exists_isFirstError (by decide) he⟩
  · cases hrun

end Parser

end MiniPascal
