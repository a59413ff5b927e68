import MiniPascal.Parse.Parser
import MiniPascal.Proofs.Action
import MiniPascal.Proofs.Lexing.Trivia
import MiniPascal.Proofs.Window.Lookback
import MiniPascal.Window.Action

/-!
# What a parser with a window is seen to do

Seen from outside, a parser with a window is a parser that has all its tokens before it
(`WindowParser.view`): the token in hand and those that are not pulled yet, up to the first one for
the end. Its actions **track** those of the parser that it is seen as: from every state, whatever
the window holds, they lead to the same value or the same failure, and to a state that is seen as
the one the other parser is in (`Tracks`).

A rule may rely on the tokens that it has itself taken. So what is compared within a rule is a
single run, from a state in which the window is known as far as it has been filled
(`Agrees.accept_of_mem`).
-/

namespace MiniPascal

/-! ### Sources that end -/

/-- Whether what is ahead of a source **ends** well: the tokens before the end are none for the end,
and the one that is repeated then is. -/
structure TokenSource.Ends (source : TokenSource) : Prop where
  kind_ne : ∀ t ∈ source.feed.tokens, t.kind ≠ .eof
  kind_eof : source.feed.eof.kind = .eof

/-- Whether a source is a lexer of a text or a stream of tokens, from which any number of tokens may
have been pulled. -/
inductive TokenSource.Made : TokenSource → Prop where
  | text (text file : String) : Made (.lexer (.ofText text file))
  | tokens (tokens : List Token) (file : String) : Made (.stream (.ofTokens tokens file))
  | next {source : TokenSource} (made : Made source) : Made source.next.2

namespace TokenSource

theorem ends_text (text file : String) : (lexer (.ofText text file)).Ends :=
  ⟨fun _ => Segment.kind_ne_eof_of_mem_tokensFrom, rfl⟩

/-- The tokens of a stream are those before the first one for the end. -/
theorem ends_stream {s : TokenStream} (h : s.feed.eof.kind = .eof) : (stream s).Ends := by
  refine ⟨fun t ht => ?_, h⟩
  simpa using List.mem_takeWhile_imp ht

theorem ends_tokens (tokens : List Token) (file : String) :
    (stream (.ofTokens tokens file)).Ends := by
  refine ends_stream ?_
  change ((tokens.find? fun t => t.kind = .eof).getD (TokenStream.eofAfter tokens)).kind = .eof
  cases hfind : tokens.find? fun t => t.kind = .eof with
  | none => exact TokenStream.kind_eofAfter tokens
  | some t => simpa using List.find?_some hfind

/-- Pulling a token leaves a source that ends well, even if it is a token for the end. -/
theorem Ends.next {source : TokenSource} (h : source.Ends) : source.next.2.Ends := by
  cases source with
  | lexer l =>
    have htail : (lexer l).next.2.feed = (lexer l).feed.tail := l.feed_next.2
    refine ⟨fun t ht => h.kind_ne t ?_, ?_⟩
    · rw [htail] at ht
      exact List.mem_of_mem_tail ht
    · rw [htail]
      exact h.kind_eof
  | stream s =>
    refine ends_stream ?_
    have heof : s.feed.eof.kind = .eof := h.kind_eof
    cases hqueue : s.queue with
    | nil => simpa [TokenStream.next, hqueue] using heof
    | cons t ts =>
      by_cases ht : t.kind = .eof
      · simp only [TokenStream.next, hqueue, TokenStream.feed, ht, if_true]
        cases hfind : ts.find? fun u => u.kind = .eof with
        | none => exact ht
        | some u => simpa using List.find?_some hfind
      · simpa [TokenStream.next, hqueue, TokenStream.feed, ht] using heof

theorem Made.ends {source : TokenSource} (h : source.Made) : source.Ends := by
  induction h with
  | text text file => exact ends_text text file
  | tokens tokens file => exact ends_tokens tokens file
  | next _ ih => exact ih.next

/-- Pulling a token changes neither the name of the file nor the number of its lines. -/
theorem file_next (source : TokenSource) :
    source.next.2.file = source.file ∧ source.next.2.lineCount = source.lineCount := by
  cases source with
  | lexer l =>
    have htail : l.next.2.feed = l.feed.tail := l.feed_next.2
    exact ⟨congrArg Feed.file htail, congrArg Feed.lineCount htail⟩
  | stream s =>
    rw [next, TokenStream.next]
    cases s.queue <;> exact ⟨rfl, rfl⟩

/-- Pulling one token more is pulling one token from what is left. -/
theorem take_succ_snd (source : TokenSource) (count : Nat) :
    (source.take (count + 1)).2 = (source.take count).2.next.2 := by
  induction count generalizing source with
  | zero => rfl
  | succ count ih => exact ih source.next.2

end TokenSource

/-! ### Views -/

namespace WindowParser

/-- The token that stands for the end: the one in hand if the end has been reached, and otherwise
the one that the source will give then. -/
def endToken (m : WindowParser) : Token :=
  if m.token.kind = .eof then m.token else m.source.feed.eof

/-- The parser that a parser with a window is seen as: it is ahead of the same tokens, of which the
one in hand is the first. The window is not seen. -/
def view (m : WindowParser) : Parser :=
  ⟨⟨m.source.file, m.source.lineCount, m.ahead, m.endToken⟩, m.nextId⟩

/-- The cursor that the rules are seen to start from: the tokens of the view and its next id. -/
def cursor (m : WindowParser) : Cursor :=
  ⟨m.ahead, m.nextId⟩

variable {m m' m'' : WindowParser}

/-- The token in hand is the next one. -/
theorem kind_cursor (m : WindowParser) : m.cursor.kind = m.token.kind := by
  rw [cursor, ahead]
  split
  · next heof => exact heof.symm
  · rfl

/-- The token in hand is the head of the feed. -/
theorem head_view (m : WindowParser) : m.view.feed.head = m.token := by
  change m.ahead.headD m.endToken = m.token
  rw [ahead, endToken]
  split <;> rfl

/-- What is ahead of a parser that has just pulled a token is what was ahead of the source. -/
theorem ahead_of_next {source : TokenSource} (hsource : source.Ends)
    (h : source.next = (m.token, m.source)) :
    m.ahead = source.feed.tokens ∧ m.endToken = source.feed.eof := by
  have htoken : m.token = source.next.1 := (congrArg Prod.fst h).symm
  have hrest : m.source = source.next.2 := (congrArg Prod.snd h).symm
  rw [ahead, endToken, htoken, hrest]
  cases htokens : source.feed.tokens with
  | nil =>
    have hhead : source.next.1 = source.feed.eof := by
      rw [source.next_fst, Feed.head, htokens, List.headD_nil]
    rw [hhead, if_pos hsource.kind_eof, if_pos hsource.kind_eof]
    exact ⟨rfl, rfl⟩
  | cons t ts =>
    obtain ⟨hhead, hfeed⟩ := TokenSource.feed_next_of_cons htokens
    have ht : t.kind ≠ .eof := hsource.kind_ne t (htokens ▸ List.mem_cons_self)
    rw [hhead, if_neg ht, if_neg ht, hfeed]
    exact ⟨rfl, rfl⟩

/-- A token that is not for the end is followed by what is ahead after it, and the end stays. -/
theorem ahead_advance (hm : m.source.Ends) (hk : m.token.kind ≠ .eof) :
    m.ahead = m.token :: m.advance.ahead ∧ m.advance.endToken = m.endToken := by
  obtain ⟨hahead, hend⟩ := ahead_of_next (m := m.advance) hm rfl
  rw [hahead, hend, ahead, endToken, if_neg hk, if_neg hk]
  exact ⟨rfl, rfl⟩

/-- A parser at the beginning of a source is seen as one that has the feed before it. -/
theorem view_ofSource {source : TokenSource} (h : source.Ends) :
    (ofSource source).view = Parser.ofSource source := by
  obtain ⟨hahead, hend⟩ := ahead_of_next (m := ofSource source) h rfl
  obtain ⟨hfile, hlines⟩ := source.file_next
  rw [view, hahead, hend]
  change Parser.mk ⟨source.next.2.file, source.next.2.lineCount, _, _⟩ 0 = _
  rw [hfile, hlines]
  cases source <;> rfl

/-- Whether a state comes **later**: it is seen at another place of the same feed, and what it has
in hand and what it has not pulled yet are reached by pulling tokens. -/
structure Later (m m' : WindowParser) : Prop where
  ends : m'.source.Ends
  feed : m'.view.feed = { m.view.feed with tokens := m'.ahead }
  pulled : ∀ (source : TokenSource) (count : Nat),
    (source.take count).2.next = (m.token, m.source) →
      ∃ count', (source.take count').2.next = (m'.token, m'.source)

namespace Later

/-- The window and the next id may change without any token being taken. -/
theorem same (hm : m.source.Ends) (window : Lookback 2) (n : ExprId) :
    m.Later { m with window, nextId := n } :=
  ⟨hm, rfl, fun _ count h => ⟨count, h⟩⟩

theorem refl (hm : m.source.Ends) : m.Later m :=
  same hm m.window m.nextId

theorem trans (h : m.Later m') (h' : m'.Later m'') : m.Later m'' := by
  refine ⟨h'.ends, ?_, fun source count hpulled => ?_⟩
  · rw [h'.feed, h.feed]
  · obtain ⟨count', hpulled'⟩ := h.pulled source count hpulled
    exact h'.pulled source count' hpulled'

theorem advance (hm : m.source.Ends) (hk : m.token.kind ≠ .eof) : m.Later m.advance := by
  obtain ⟨-, hend⟩ := ahead_advance hm hk
  refine ⟨hm.next, ?_, fun source count hpulled => ⟨count + 1, ?_⟩⟩
  · obtain ⟨hfile, hlines⟩ := m.source.file_next
    change Feed.mk m.advance.source.file m.advance.source.lineCount _ _ = Feed.mk _ _ _ _
    rw [hend]
    exact congrArg₂ (Feed.mk · · _ _) hfile hlines
  · rw [TokenSource.take_succ_snd, hpulled]
    rfl

end Later

end WindowParser

/-! ### Runs -/

theorem Windowed.peek_bind {α : Type} (kinds : List Kind) (f : Bool → Windowed α)
    (m : WindowParser) : (peek kinds >>= f) m = f (decide (m.token.kind ∈ kinds)) m := rfl

open WindowParser

variable {α β ι : Type} {m m' : WindowParser}

/-- Whether a run from a state **agrees** with a run of the parser that it is seen as: both give the
same value, or fail with the same diagnostic, at states that agree again. -/
inductive Agrees (m : WindowParser) :
    EStateM.Result Halt WindowParser α → EStateM.Result Cause Cursor α → Prop where
  | ok {a : α} {m' : WindowParser} (later : m.Later m') : Agrees m (.ok a m') (.ok a m'.cursor)
  | error {cause : Cause} {m' : WindowParser} (later : m.Later m') :
    Agrees m (.error (.failure (m'.view.diagnose cause)) m') (.error cause m'.cursor)

/-- Whether all runs of an action agree with those of another, whatever the window holds. Each rule
of the parser tracks the rule of the same name. -/
def Tracks (a : Windowed α) (p : Parse α) : Prop :=
  ∀ m : WindowParser, m.source.Ends → Agrees m (a m) (p m.cursor)

namespace Agrees

variable {a : Windowed α} {p : Parse α} {f : α → Windowed β} {g : α → Parse β}
  {r : EStateM.Result Halt WindowParser α} {r' : EStateM.Result Cause Cursor α}

/-- A run that goes on from a later state. -/
theorem of_later (later : m.Later m') (h : Agrees m' r r') : Agrees m r r' := by
  cases h with
  | ok h => exact .ok (later.trans h)
  | error h => exact .error (later.trans h)

/-- Steps in sequence agree if the first steps do and the second ones do after them. -/
theorem bind {c : Cursor} (h : Agrees m (a m) (p c))
    (hf : ∀ x m', m.Later m' → Agrees m' (f x m') (g x m'.cursor)) :
    Agrees m ((a >>= f) m) ((p >>= g) c) := by
  change Agrees m (EStateM.bind a f m) (EStateM.bind p g c)
  rw [EStateM.bind, EStateM.bind]
  generalize a m = r, p c = r' at h
  cases h with
  | ok later => exact .of_later later (hf _ _ later)
  | error later => exact .error later

theorem pure (hm : m.source.Ends) (x : α) :
    Agrees m ((Pure.pure x : Windowed α) m) ((Pure.pure x : Parse α) m.cursor) :=
  .ok (.refl hm)

/-- A failure with a message that is that of its cause. -/
theorem fail (hm : m.source.Ends) {message : Token → String} {cause : Cause}
    (h : ∀ t, cause.message t = if t.kind = .error then t.text else message t) :
    Agrees m ((Windowed.fail message : Windowed α) m) (.error cause m.cursor) := by
  have hdiagnose : m.diagnostic (message m.token) = m.view.diagnose cause := by
    rw [Parser.diagnose, head_view, h]
    rfl
  rw [Windowed.fail, hdiagnose]
  exact .error (.refl hm)

/-! ### Taking tokens -/

section Take

variable {kinds : List Kind} {x y : Windowed α} {g : Token → Parse α}

/-- A token that is accepted is taken. -/
theorem accept_of_mem (hm : m.source.Ends) (hk : m.token.kind ∈ kinds) (heof : m.token.kind ≠ .eof)
    (h : Agrees m.advance (x m.advance) (g m.token m.advance.cursor)) :
    Agrees m ((Windowed.accept kinds >>= fun b => if b = true then x else y) m)
      ((Parse.take >>= g) m.cursor) := by
  have haccept :
      (Windowed.accept kinds >>= fun b => if b = true then x else y) m = x m.advance := by
    change EStateM.bind _ _ m = _
    rw [EStateM.bind, Windowed.accept, if_pos hk]
    rfl
  have hcursor : m.cursor = ⟨m.token :: m.advance.ahead, m.nextId⟩ :=
    congrArg (Cursor.mk · m.nextId) (ahead_advance hm heof).1
  rw [haccept, hcursor, Parse.take_bind]
  exact .of_later (.advance hm heof) h

/-- A token that is not accepted stays. -/
theorem accept_of_not_mem (hk : m.token.kind ∉ kinds) (h : Agrees m (y m) r') :
    Agrees m ((Windowed.accept kinds >>= fun b => if b = true then x else y) m) r' := by
  have haccept : (Windowed.accept kinds >>= fun b => if b = true then x else y) m = y m := by
    change EStateM.bind _ _ m = _
    rw [EStateM.bind, Windowed.accept, if_neg hk]
    rfl
  rw [haccept]
  exact h

/-- Right after a token was taken, it is the one before. -/
theorem prev {f : Token → Windowed α} (h : Agrees m.advance (f m.token m.advance) r') :
    Agrees m.advance ((Windowed.prev >>= f) m.advance) r' := by
  have hprev : Windowed.prev m.advance = .ok m.token m.advance := by
    rw [Windowed.prev, Windowed.back, advance, Lookback.back_zero_push]
  change Agrees _ (EStateM.bind _ f _) _
  rw [EStateM.bind, hprev]
  exact h

/-- Right after another token was taken, it is the one before the last. -/
theorem prevPrev {f : Token → Windowed α}
    (h : Agrees m.advance.advance (f m.token m.advance.advance) r') :
    Agrees m.advance.advance ((Windowed.prevPrev >>= f) m.advance.advance) r' := by
  have hprev : Windowed.prevPrev m.advance.advance = .ok m.token m.advance.advance := by
    rw [Windowed.prevPrev, Windowed.back, advance, advance,
      Lookback.back_succ_push _ _ (by decide), Lookback.back_zero_push]
  change Agrees _ (EStateM.bind _ f _) _
  rw [EStateM.bind, hprev]
  exact h

/-- A token of several kinds is taken, and then looked back at. -/
theorem accept_prev {f : Token → Windowed α} (hm : m.source.Ends) (hk : m.token.kind ∈ kinds)
    (heof : m.token.kind ≠ .eof) (h : Tracks (f m.token) (g m.token)) :
    Agrees m ((Windowed.accept kinds >>= fun b => if b = true then Windowed.prev >>= f else y) m)
      ((Parse.take >>= g) m.cursor) :=
  accept_of_mem hm hk heof (prev (h m.advance hm.next))

end Take

end Agrees

namespace Tracks

variable {a : Windowed α} {p : Parse α}

theorem pure (x : α) : Tracks (Pure.pure x) (Pure.pure x) :=
  fun _ hm => .pure hm x

theorem bind {f : α → Windowed β} {g : α → Parse β} (h : Tracks a p)
    (hf : ∀ x, Tracks (f x) (g x)) : Tracks (a >>= f) (p >>= g) :=
  fun m hm => .bind (h m hm) fun x m' later => hf x m' later.ends

theorem fail {message : Token → String} {cause : Cause}
    (h : ∀ t, cause.message t = if t.kind = .error then t.text else message t) :
    Tracks (Windowed.fail message : Windowed α) (throw cause) :=
  fun _ hm => .fail hm h

theorem freshId : Tracks Windowed.freshId Parse.freshId :=
  fun m hm => .ok (.same hm m.window (m.nextId + 1))

/-! ### Choices -/

section Choice

variable {k : Kind} {x y : Windowed α} {q : Parse α} {g : Token → Parse α}

/-- A choice by the kind of the token in hand, which stays. -/
theorem ifPeek (hx : Tracks x p) (hy : Tracks y q) :
    Tracks (Windowed.peek [k] >>= fun b => if b = true then x else y)
      (Parse.peek >>= fun k' => if k' = k then p else q) := by
  intro m hm
  rw [Windowed.peek_bind, Parse.peek_bind, kind_cursor]
  by_cases hk : m.token.kind = k
  · rw [if_pos hk, if_pos (by simp [hk])]
    exact hx m hm
  · rw [if_neg hk, if_neg (by simp [hk])]
    exact hy m hm

/-- A choice by the kind of the token in hand, which is taken if it is of this kind. -/
theorem ifAccept (hk : k ≠ .eof) (hx : ∀ t, Tracks x (g t)) (hy : Tracks y q) :
    Tracks (Windowed.accept [k] >>= fun b => if b = true then x else y)
      (Parse.peek >>= fun k' => if k' = k then Parse.take >>= g else q) := by
  intro m hm
  rw [Parse.peek_bind, kind_cursor]
  split
  · next heq =>
    exact .accept_of_mem hm (List.mem_singleton.2 heq) (heq ▸ hk) (hx m.token m.advance hm.next)
  · next hne => exact .accept_of_not_mem (mt List.mem_singleton.1 hne) (hy m hm)

end Choice

/-- A token of the kind is taken and looked back at. -/
theorem expect {k : Kind} (hk : k ≠ .eof) : Tracks (Windowed.expect [k]) (Parse.expect k) := by
  intro m hm
  rw [Windowed.expect, Parse.expect, Parse.peek_bind, kind_cursor]
  split
  · next heq =>
    have htake : (Parse.take >>= Pure.pure : Parse Token) = Parse.take := bind_pure Parse.take
    rw [← htake]
    refine .accept_of_mem hm (List.mem_singleton.2 heq) (heq ▸ hk) ?_
    have hprev : (Windowed.prev >>= Pure.pure : Windowed Token) = Windowed.prev :=
      bind_pure Windowed.prev
    rw [← hprev]
    exact .prev (.pure hm.next m.token)
  · next hne =>
    exact .accept_of_not_mem (mt List.mem_singleton.1 hne) (.fail hm fun _ => rfl)

theorem name : Tracks (Windowed.expect [.ident]) Parse.name :=
  expect nofun

/-- A token of the kind is taken and forgotten. -/
theorem expect_bind_of_unit {k : Kind} (hk : k ≠ .eof) (h : Tracks a p) :
    Tracks (Windowed.expect [k] >>= fun _ => a)
      ((Parse.expect k >>= fun _ => Pure.pure ()) >>= fun _ => p) := by
  rw [bind_assoc]
  exact .bind (.expect hk) fun _ => h

theorem keyword_bind {w : Keyword} (h : Tracks a p) :
    Tracks (Windowed.expect [.keyword w] >>= fun _ => a) (Parse.keyword w >>= fun _ => p) :=
  expect_bind_of_unit nofun h

theorem mark_bind {mk : Mark} (h : Tracks a p) :
    Tracks (Windowed.expect [.mark mk] >>= fun _ => a) (Parse.mark mk >>= fun _ => p) :=
  expect_bind_of_unit nofun h

/-! ### Recursion and lists -/

/-- Recursive actions track each other if one round does. -/
theorem fix {rule : (ι → Windowed α) → ι → Windowed α} {rule' : (ι → Parse α) → ι → Parse α}
    (step : ∀ self self', (∀ j, Tracks (self j) (self' j)) →
      ∀ i, Tracks (rule self i) (rule' self' i)) (i : ι) :
    Tracks (Windowed.fix rule i) (Parse.fix rule' i) := by
  intro m hm
  -- by induction on the number of tokens ahead, which gets smaller in the rounds that are followed
  induction hlength : m.ahead.length using Nat.strongRecOn generalizing i m with
  | _ length ih =>
    rw [Windowed.fix_eq, Parse.fix_eq]
    refine step _ _ (fun j m' hm' => ?_) i m hm
    change Agrees m' (if m'.ahead.length < m.ahead.length then _ else _)
      (if m'.ahead.length < m.ahead.length then _ else _)
    split
    · next shorter => exact ih m'.ahead.length (hlength ▸ shorter) j m' hm' rfl
    · exact .fail hm' fun _ => rfl

/-- Recursive actions that are not told anything. -/
theorem fix_unit {rule : (Unit → Windowed α) → Unit → Windowed α}
    {rule' : (Unit → Parse α) → Unit → Parse α}
    (step : ∀ self self', (∀ j, Tracks (self j) (self' j)) →
      Tracks (rule self ()) (rule' self' ())) :
    Tracks (Windowed.fix rule ()) (Parse.fix rule' ()) :=
  fix (fun self self' h _ => step self self' h) ()

theorem separated (h : Tracks a p) :
    Tracks (Windowed.separated a) (Parse.separated .comma p) :=
  .fix_unit fun _ _ hself => .bind h fun first =>
    .ifAccept nofun (fun _ => .bind (hself ()) fun rest => .pure (first :: rest)) (.pure [first])

/-- The closing parenthesis is taken where the items end, whether or not there are any. -/
theorem parenthesized (h : Tracks a p) :
    Tracks (Windowed.parenthesized a) (Parse.parenthesized p) := by
  have hclose : ∀ as : List α, Tracks
      (Windowed.expect [.mark .closeParen] >>= fun _ => Pure.pure as)
      (Parse.mark .closeParen >>= fun _ => Pure.pure as) := fun as => .mark_bind (.pure as)
  refine .mark_bind fun m hm => ?_
  rw [Windowed.itemsBefore, bind_assoc, Windowed.peek_bind, Parse.peek_bind, kind_cursor]
  by_cases hk : m.token.kind = .mark .closeParen
  · have htake : (Parse.take >>= fun _ => Pure.pure []) m.cursor =
        (Parse.mark .closeParen >>= fun _ => (Pure.pure [] : Parse (List α))) m.cursor := by
      have hkind : m.cursor.kind = .mark .closeParen := m.kind_cursor.trans hk
      simp [Parse.mark, Parse.expect, Parse.peek_bind, hkind]
    rw [if_pos hk, if_pos (by simp [hk]), pure_bind, htake]
    exact hclose [] m hm
  · rw [if_neg hk, if_neg (by simp [hk])]
    exact bind (separated h) hclose m hm

end Tracks

end MiniPascal
