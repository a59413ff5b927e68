import MiniPascal.Proofs.Lexing.Lexeme
import MiniPascal.Source.Lexer

/-!
# Writing tokens

A text **writes** a list of tokens if a scanner finds these tokens in it, whatever stands behind it,
as long as that begins with a character of a certain sort. Texts that write tokens are put together
by looking at the first character of the next one only (`Writes.append`), and blanks may stand
anywhere between them.

The tokens are found without their positions (`scanned`), since a text writes the same tokens
wherever it stands.
-/

namespace MiniPascal

/-- The tokens of a text, without their positions. Unlike a scan, it can be taken apart where a
token ends, since nothing depends on what stands before (`Writes`). -/
def scanned (cs : List Char) : List Token :=
  (Segment.ofText cs).filterMap fun segment => segment.token? .start

/-- Where segments stand matters for the positions of their tokens only. -/
theorem map_unplaced_tokensFrom (pos : Position) (segments : List Segment) :
    (Lexer.tokensFrom pos segments).map Token.unplaced =
      segments.filterMap fun segment => segment.token? .start := by
  induction segments generalizing pos with
  | nil => rfl
  | cons segment rest ih =>
    have hfirst : (segment.token? pos).map Token.unplaced = segment.token? .start := by
      unfold Segment.token?
      split <;> rfl
    -- the induction is for all positions, since the rest stands behind the segment
    rw [Lexer.tokensFrom, List.map_append, ih, List.filterMap_cons, ← hfirst]
    cases segment.token? pos <;> rfl

/-- The tokens that a lexer over a text gives. -/
theorem map_unplaced_tokens_ofText (file text : String) :
    (Lexer.ofText text file).feed.tokens.map Token.unplaced = scanned text.toList :=
  map_unplaced_tokensFrom .start (Segment.ofText text.toList)

/-- All tokens of a text, without their positions. -/
theorem map_unplaced_scan (text : String) :
    (scan text).map Token.unplaced = scanned text.toList ++ [⟨.eof, "", .start⟩] := by
  rw [← map_unplaced_tokens_ofText Feed.anonymous]
  exact List.map_append

theorem scanned_of_isWhiteSpace {c : Char} (h : isWhiteSpace c = true) (cs : List Char) :
    scanned (c :: cs) = scanned cs := by
  have hleading : Segment.leading c cs = (.blank, []) := by rw [Segment.leading, if_pos h]
  rw [scanned, Segment.ofText, Segment.ofLeading, hleading]
  rfl

theorem scanned_of_isLexeme {c : Char} {more rest : List Char} {k : Kind} {text : String}
    (h : Segment.IsLexeme c more k text) (hrest : k.EndsAt rest) :
    scanned (c :: (more ++ rest)) = ⟨k, text, .start⟩ :: scanned rest := by
  have hleading := Segment.leading_of_isLexeme h hrest
  rw [scanned, Segment.ofText, Segment.ofLeading, hleading]
  dsimp only
  rw [List.drop_left]
  rfl

/-! ### Tokens that can be written -/

namespace Token

/-- Whether a token is made from a lexeme, of which it has the kind and the text. Its position does
not matter. -/
def IsLexeme (t : Token) : Prop :=
  ∃ (c : Char) (more : List Char), Segment.IsLexeme c more t.kind t.text

private theorem isLexeme_of_mem_ofText {cs : List Char} {segment : Segment} {k : Kind}
    {text : String} (h : segment ∈ Segment.ofText cs) (hform : segment.form = .lexeme k text) :
    Segment.IsLexeme segment.first segment.more k text := by
  fun_induction Segment.ofText cs with
  | case1 => cases h
  | case2 c cs ih =>
    obtain rfl | h := List.mem_cons.1 h
    · exact Segment.isLexeme_of_leading (Prod.ext hform rfl)
    · exact ih h

/-- The tokens of a scanned text are errors or made from lexemes. -/
theorem isLexeme_of_mem_scanned {cs : List Char} {t : Token} (h : t ∈ scanned cs)
    (ht : t.kind ≠ .error) : t.IsLexeme := by
  obtain ⟨segment, hmem, htoken⟩ := List.mem_filterMap.1 h
  unfold Segment.token? at htoken
  split at htoken
  · cases htoken
  · cases htoken
  · next hform =>
    cases htoken
    exact ⟨_, _, isLexeme_of_mem_ofText hmem hform⟩
  · cases htoken
    exact absurd rfl ht

/-- The token of a fixed lexeme, as it is spelled. It stands at the start, where tokens without
positions stand. -/
def spelled (k : Kind) : Token :=
  ⟨k, k.spelling?.getD "", .start⟩

/-- A word of a fixed lexeme is read as what it is. -/
private theorem wordKind_of_spelling {k : Kind} {text : String} (hk : k ∈ Kind.words)
    (h : k.spelling? = some text) : text.toList ≠ [] ∧
      text.toList.head?.all Segment.isNameStart = true ∧
      text.toList.all Segment.isNamePart = true ∧ Segment.wordKind text = k := by
  -- there are finitely many words
  have hall : ∀ k ∈ Kind.words, ∀ text ∈ k.spelling?, text.toList ≠ [] ∧
      text.toList.head?.all Segment.isNameStart = true ∧
      text.toList.all Segment.isNamePart = true ∧ Segment.wordKind text = k := by
    decide +kernel
  exact hall k hk text h

/-- A symbol of a fixed lexeme is read as what it is. -/
private theorem ofSymbol?_of_spelling {k : Kind} {text : String} (hk : k ∉ Kind.words)
    (h : k.spelling? = some text) : text.toList ≠ [] ∧ Kind.ofSymbol? text.toList = some k := by
  cases k with
  | typeName ty => exact absurd (by cases ty <;> decide) hk
  | keyword w => exact absurd (by cases w <;> decide) hk
  | operator op =>
    cases op <;> cases h <;>
      first | exact ⟨by decide, rfl⟩ | exact absurd (by decide) hk
  | mark m => cases m <;> cases h <;> exact ⟨by decide, rfl⟩
  | ident | literal | eof | error => cases h

theorem spelled_eq {k : Kind} {text : String} (h : k.spelling? = some text) :
    spelled k = ⟨k, text, .start⟩ := by
  rw [spelled, h, Option.getD_some]

/-- Fixed lexemes are read as what they are. -/
theorem isLexeme_spelled {k : Kind} {text : String} (h : k.spelling? = some text) :
    (spelled k).IsLexeme := by
  have hlist : text = String.ofList text.toList := String.ofList_toList.symm
  rw [spelled_eq h]
  by_cases hk : k ∈ Kind.words
  · obtain ⟨hne, hstart, hparts, hkind⟩ := wordKind_of_spelling hk h
    obtain ⟨c, more, hchars⟩ := List.exists_cons_of_ne_nil hne
    rw [hchars] at hstart hparts hlist
    have hword := Segment.IsLexeme.word hstart (fun d hd =>
      List.all_eq_true.1 hparts d (List.mem_cons_of_mem c hd))
    rw [← hlist, hkind] at hword
    exact ⟨c, more, hword⟩
  · obtain ⟨hne, hsymbol⟩ := ofSymbol?_of_spelling hk h
    obtain ⟨c, more, hchars⟩ := List.exists_cons_of_ne_nil hne
    rw [hchars] at hsymbol hlist
    have hlexeme := Segment.IsLexeme.symbol hsymbol
    rw [← hlist] at hlexeme
    exact ⟨c, more, hlexeme⟩

/-- A token is displayed as its lexeme. -/
theorem IsLexeme.toList_display {t : Token} (h : t.IsLexeme) :
    ∃ (c : Char) (more : List Char), t.display.toList = c :: more ∧
      Segment.IsLexeme c more t.kind t.text := by
  obtain ⟨c, more, h⟩ := h
  exact ⟨c, more, h.display t.pos, h⟩

end Token

/-! ### Texts that write tokens -/

/-- A text **writes** tokens before any text that is empty or starts with a character that has the
property: scanned together, the tokens come first. -/
def Writes (p : Char → Prop) (text : String) (ts : List Token) : Prop :=
  ∀ rest, Starts p rest →
    scanned (text.toList ++ rest) = ts.map Token.unplaced ++ scanned rest

/-- A text writes tokens **freely** if it writes them whatever follows, as a text does that ends in
a blank or a semicolon. -/
abbrev WritesFreely (text : String) (ts : List Token) : Prop :=
  Writes (fun _ => True) text ts

/-- Whether the first character of a text, of which there must be one, has a property. It meets what
`Starts` asks of a text that follows. -/
def Begins (p : Char → Prop) (text : String) : Prop :=
  ∃ (c : Char) (cs : List Char), text.toList = c :: cs ∧ p c

namespace Begins

variable {p q : Char → Prop} {text : String}

theorem imp (h : Begins p text) (hpq : ∀ c, p c → q c) : Begins q text := by
  obtain ⟨c, cs, htext, hc⟩ := h
  exact ⟨c, cs, htext, hpq c hc⟩

theorem append (h : Begins p text) (text' : String) : Begins p (text ++ text') := by
  obtain ⟨c, cs, htext, hc⟩ := h
  exact ⟨c, cs ++ text'.toList, by rw [String.toList_append, htext, List.cons_append], hc⟩

theorem starts (h : Begins p text) (rest : List Char) : Starts p (text.toList ++ rest) := by
  obtain ⟨c, cs, htext, hc⟩ := h
  rw [htext]
  exact .cons hc

end Begins

namespace Writes

variable {p q : Char → Prop} {text text' : String} {ts us : List Token}

theorem nil : WritesFreely "" [] :=
  fun _ _ => rfl

theorem imp (h : Writes p text ts) (hqp : ∀ c, q c → p c) : Writes q text ts :=
  fun rest hrest => h rest (hrest.imp hqp)

/-- A text that writes tokens holds these tokens and no others. -/
theorem scanned_eq (h : Writes p text ts) : scanned text.toList = ts.map Token.unplaced := by
  have hscanned := h [] nofun
  have hnil : scanned [] = [] := by
    rw [scanned, Segment.ofText]
    rfl
  rw [List.append_nil, hnil, List.append_nil] at hscanned
  exact hscanned

/-- What comes next decides only by its first character whether the tokens before it end. -/
theorem append (h : Writes p text ts) (hbegins : Begins p text') (h' : Writes q text' us) :
    Writes q (text ++ text') (ts ++ us) := by
  intro rest hrest
  rw [String.toList_append, List.append_assoc, h _ (hbegins.starts rest), h' rest hrest,
    List.map_append, List.append_assoc]

/-- A text that writes tokens whatever follows can be followed by anything. -/
theorem append_of_free (h : WritesFreely text ts) (h' : Writes q text' us) :
    Writes q (text ++ text') (ts ++ us) := by
  intro rest hrest
  rw [String.toList_append, List.append_assoc, h _ (fun _ _ => trivial), h' rest hrest,
    List.map_append, List.append_assoc]

theorem of_free (h : WritesFreely text ts) : Writes p text ts :=
  h.imp fun _ _ => trivial

/-- White space writes nothing. -/
theorem whiteSpace (h : ∀ c ∈ text.toList, isWhiteSpace c = true) : WritesFreely text [] := by
  intro rest _
  generalize text.toList = cs at h
  induction cs with
  | nil => rfl
  | cons c cs ih =>
    rw [List.cons_append, scanned_of_isWhiteSpace (h c List.mem_cons_self)]
    exact ih fun d hd => h d (List.mem_cons_of_mem c hd)

theorem blank : WritesFreely " " [] :=
  whiteSpace (List.forall_mem_singleton.2 isWhiteSpace_space)

/-- A blank may stand before tokens. -/
theorem after_blank (h : Writes p text ts) : Writes p (" " ++ text) ts :=
  append_of_free blank h

/-- A blank may stand after tokens, and what follows it is free. -/
theorem before_blank (h : Writes p text ts) (hp : p ' ') : WritesFreely (text ++ " ") ts := by
  have happend := h.append ⟨' ', [], rfl, hp⟩ blank
  rw [List.append_nil] at happend
  exact happend

/-- A lexeme writes its token. -/
theorem token {t : Token} (h : t.IsLexeme) :
    Writes (fun c => t.kind.endsBefore c = true) t.display [t] := by
  intro rest hrest
  obtain ⟨c, more, hdisplay, hlexeme⟩ := h.toList_display
  rw [hdisplay, List.cons_append, scanned_of_isLexeme hlexeme hrest]
  rfl

/-- The spelling of a fixed lexeme writes its token. -/
theorem spelled {k : Kind} (h : k.spelling? = some text) :
    Writes (fun c => k.endsBefore c = true) text [Token.spelled k] := by
  have hdisplay : (Token.spelled k).display = text := by
    rw [Token.spelled_eq h]
    cases k <;> first | rfl | cases h
  have htoken := token (Token.isLexeme_spelled h)
  rw [hdisplay] at htoken
  exact htoken

end Writes

/-! ### Separators -/

/-- Whether a character **separates** tokens: those of every kind end before it. Blanks and line
feeds do, and some marks. -/
def separates (c : Char) : Prop :=
  Segment.isNamePart c = false ∧ c ≠ '.' ∧ c ≠ '*' ∧ c ≠ '=' ∧ c ≠ '>'

instance (c : Char) : Decidable (separates c) :=
  inferInstanceAs (Decidable (_ ∧ _))

theorem Kind.endsBefore_of_separates (k : Kind) {c : Char} (h : separates c) :
    k.endsBefore c = true := by
  obtain ⟨hname, hpoint, hstar, hequal, hgreater⟩ := h
  unfold Kind.endsBefore
  split
  · simp [hname]
  · split <;> simp_all

/-- Tokens of a word end before anything that is not part of a name. -/
theorem Kind.endsBefore_of_isWord {k : Kind} (hk : k.isWord = true) {c : Char}
    (h : Segment.isNamePart c = false) : k.endsBefore c = true := by
  unfold Kind.endsBefore
  rw [if_pos hk, h]
  rfl

/-- A lexeme that is no star can follow an opening parenthesis. -/
theorem Token.IsLexeme.begins {t : Token} (h : t.IsLexeme) (ht : t.kind ≠ .operator .times) :
    Begins (fun c => c ≠ '*') t.display := by
  obtain ⟨c, more, hdisplay, hlexeme⟩ := h.toList_display
  exact ⟨c, more, hdisplay, hlexeme.ne_star ht⟩

end MiniPascal
