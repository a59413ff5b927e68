import Mathlib.Data.List.Forall2
import MiniPascal.Print.Tree
import MiniPascal.Proofs.Lexing.Writing
import MiniPascal.Proofs.Printing.Formed
import MiniPascal.Proofs.Printing.Written
import MiniPascal.Syntax.Listing

/-!
# Printing writes the tokens of a tree

The text of a printed tree writes its tokens, if the tree is formed and its tokens are lexemes. Two
lexemes that must not touch have a blank, a line feed or a mark between them. Three tokens are
printed right in front of others: an opening parenthesis, which would begin a comment before a star,
a sign, which can stand before anything, and the last `end`, which the period follows.
-/

namespace MiniPascal

open Layout Token

/-! ### Pieces of text -/

theorem display_of_kind_eq_ident {t : Token} (h : t.kind = .ident) : t.display = t.text := by
  rw [display, h]

theorem display_of_kind_eq_operator {t : Token} {op : Operator} (h : t.kind = .operator op) :
    t.display = t.text := by
  rw [display, h]

/-- Whether a text writes tokens before separators and can follow an opening parenthesis, with which
a star would open a comment. -/
structure WritesItem (text : String) (ts : List Token) : Prop where
  writes : Writes separates text ts
  begins : Begins (fun c => c ≠ '*') text

/-- A name can be followed by any separator. -/
theorem WritesItem.of_ident {t : Token} (h : t.kind = .ident) (ht : t.IsLexeme) :
    WritesItem t.display [t] where
  writes := (Writes.token ht).imp fun _ => Kind.endsBefore_of_separates _
  begins := ht.begins (by rw [h]; decide)

namespace Writes

variable {p q : Char → Prop} {text text' : String} {ts : List Token}

theorem mark (m : Mark) : Writes (fun c => (Kind.mark m).endsBefore c = true) m.spelling
    [Token.spelled (.mark m)] :=
  spelled rfl

theorem closeParen : WritesFreely ")" [Token.spelled (.mark .closeParen)] :=
  (mark .closeParen).imp fun _ _ => rfl

theorem semicolon (h : Writes separates text ts) :
    WritesFreely (text ++ ";") (ts ++ [Token.spelled (.mark .semicolon)]) :=
  h.append ⟨';', [], rfl, by decide⟩ ((mark .semicolon).imp fun _ _ => rfl)

/-- A text whose end may be followed by a closing parenthesis can stand in parentheses. -/
theorem inParens (h : Writes separates text ts)
    (hbegins : Begins (fun c => c ≠ '*') (text ++ ")")) :
    WritesFreely ("(" ++ text ++ ")") (inParens ts) := by
  have hclose : WritesFreely (text ++ ")") (ts ++ [Token.spelled (.mark .closeParen)]) :=
    h.append ⟨')', [], rfl, by decide⟩ closeParen
  have hopen := (mark .openParen).append (hbegins.imp fun c hc => decide_eq_true hc) hclose
  rw [← String.append_assoc] at hopen
  exact hopen

end Writes

/-- Items with commas between them are empty or an item. -/
theorem writesItem_commaSeparated {texts : List String} {tss : List (List Token)}
    (h : List.Forall₂ WritesItem texts tss) :
    Writes separates (commaSeparated texts) (withCommas tss) ∧
      (texts ≠ [] → Begins (fun c => c ≠ '*') (commaSeparated texts)) := by
  induction h with
  | nil => exact ⟨Writes.nil.of_free, fun hne => absurd rfl hne⟩
  | @cons text ts texts tss hitem hrest ih =>
    cases hrest with
    | nil =>
      have htext : commaSeparated [text] = text := by
        simp [commaSeparated, String.intercalate_singleton]
      rw [htext, withCommas_singleton]
      exact ⟨hitem.writes, fun _ => hitem.begins⟩
    | @cons text' ts' texts tss hitem' hrest =>
      have htext : commaSeparated (text :: text' :: texts) =
          text ++ ", " ++ commaSeparated (text' :: texts) := String.intercalate_cons_cons
      have hcomma : WritesFreely ", " [Token.spelled (.mark .comma)] :=
        Writes.before_blank ((Writes.mark .comma).imp fun _ _ => rfl) rfl
      rw [htext, withCommas_cons_cons]
      refine ⟨?_, fun _ => (hitem.begins.append ", ").append _⟩
      -- the comma ends the item, and the blank behind it lets anything follow
      have hfirst := hitem.writes.append ⟨',', [' '], rfl, by decide⟩ hcomma
      have hall := hfirst.append_of_free ih.1
      rw [List.append_assoc] at hall
      exact hall

/-- Items in parentheses, with commas between them, can be followed by anything. -/
theorem writes_parenthesized {texts : List String} {tss : List (List Token)}
    (h : List.Forall₂ WritesItem texts tss) :
    WritesFreely (parenthesized texts) (inParens (withCommas tss)) := by
  obtain ⟨hwrites, hbegins⟩ := writesItem_commaSeparated h
  refine hwrites.inParens ?_
  cases texts with
  | nil => exact ⟨')', [], rfl, by decide⟩
  | cons text texts => exact (hbegins (List.cons_ne_nil text texts)).append ")"

/-- A call can be followed by anything. -/
theorem writes_call {callee : Token} {texts : List String} {tss : List (List Token)}
    (hcallee : callee.IsLexeme) (h : List.Forall₂ WritesItem texts tss) :
    WritesFreely (callee.display ++ " " ++ parenthesized texts)
      (callee :: inParens (withCommas tss)) := by
  have hspaced : WritesFreely (callee.display ++ " ") [callee] :=
    (Writes.token hcallee).before_blank (Kind.endsBefore_of_separates _ (by decide))
  exact hspaced.append_of_free (writes_parenthesized h)

/-! ### Expressions -/

namespace Expr

/-- The operator and the operand of a printed unary expression. -/
private theorem writesItem_unary {op : Token} {operand : Expr}
    (hop : op.kind = .operator .plus ∨ op.kind = .operator .minus ∨ op.kind = .operator .not)
    (hlexeme : op.IsLexeme) (hitem : WritesItem operand.print operand.written) (id : ExprId) :
    WritesItem (print (.unary id op operand)) (written (.unary id op operand)) := by
  have hdisplay : op.display = op.text := by
    obtain hop | hop | hop := hop <;> exact display_of_kind_eq_operator hop
  have hbegins : Begins (fun c => c ≠ '*') op.text := by
    rw [← hdisplay]
    refine hlexeme.begins ?_
    obtain hop | hop | hop := hop <;> rw [hop] <;> decide
  have hwrites := Writes.token hlexeme
  rw [hdisplay] at hwrites
  rw [print, written]
  -- a blank stands behind `not` only, and parentheses around a unary operand of it
  by_cases hnot : op.kind = .operator .not
  · have hspaced : WritesFreely (op.text ++ " ") [op] :=
      hwrites.before_blank (Kind.endsBefore_of_separates _ (by decide))
    rw [if_neg (not_not_intro hnot)]
    by_cases hunary : operand.isUnary = true
    · rw [if_pos hunary, if_pos ⟨hnot, hunary⟩]
      have htext : op.text ++ " (" ++ operand.print ++ ")" =
          op.text ++ " " ++ ("(" ++ operand.print ++ ")") := by
        have hopen : " (" = " " ++ "(" := rfl
        rw [hopen]
        simp only [String.append_assoc]
      rw [htext]
      exact ⟨hspaced.append_of_free (hitem.writes.inParens (hitem.begins.append ")")).of_free,
        (hbegins.append _).append _⟩
    · rw [if_neg hunary, if_neg fun hand => hunary hand.2]
      exact ⟨hspaced.append_of_free hitem.writes, (hbegins.append _).append _⟩
  · rw [if_pos hnot, if_neg fun hand => hnot hand.1]
    refine ⟨hwrites.append (hitem.begins.imp fun c _ => ?_) hitem.writes, hbegins.append _⟩
    -- a sign is a symbol of its own, whatever stands behind it
    obtain hop | hop | hop := hop
    · rw [hop]
      rfl
    · rw [hop]
      rfl
    · exact absurd hop hnot

mutual

/-- A printed expression writes its tokens. -/
theorem writesItem_print (e : Expr) (h : e.Formed) (ht : ∀ t ∈ e.tokens, t.IsLexeme) :
    WritesItem e.print e.written := by
  cases e with
  | literal _ value =>
    obtain ⟨ty, hty⟩ := h
    have hvalue : value.IsLexeme := ht value List.mem_cons_self
    exact ⟨(Writes.token hvalue).imp fun _ => Kind.endsBefore_of_separates _,
      hvalue.begins (by simp [hty])⟩
  | name _ token =>
    have htoken : token.IsLexeme := ht token List.mem_cons_self
    rw [print, written, ← display_of_kind_eq_ident h]
    exact .of_ident h htoken
  | unary id op operand =>
    obtain ⟨hop, hoperand⟩ := h
    obtain ⟨hlexeme, htokens⟩ := List.forall_mem_cons.1 ht
    exact writesItem_unary hop hlexeme (writesItem_print operand hoperand htokens) id
  | binary _ left op right =>
    obtain ⟨⟨level, o, hmem, hop⟩, hleft, hright⟩ := h
    obtain ⟨htLeft, htRest⟩ := List.forall_mem_append.1 ht
    obtain ⟨hlexeme, htRight⟩ := List.forall_mem_cons.1 htRest
    have hitemLeft := writesItem_print left hleft htLeft
    have hitemRight := writesItem_print right hright htRight
    have hblank : ∀ k : Kind, k.endsBefore ' ' = true := fun k =>
      k.endsBefore_of_separates (by decide)
    have hop : WritesFreely (op.text ++ " ") [op] := by
      rw [← display_of_kind_eq_operator hop]
      exact (Writes.token hlexeme).before_blank (hblank _)
    -- blanks stand around the operator, so its operands may begin and end as they like
    have hinner : Writes separates (left.print ++ " " ++ (op.text ++ " " ++ right.print))
        (left.written ++ op :: right.written) :=
      (hitemLeft.writes.before_blank (by decide)).append_of_free
        (hop.append_of_free hitemRight.writes)
    have htext : "(" ++ left.print ++ " " ++ op.text ++ " " ++ right.print ++ ")" =
        "(" ++ (left.print ++ " " ++ (op.text ++ " " ++ right.print)) ++ ")" := by
      simp only [String.append_assoc]
    have hparen : Begins (fun c => c ≠ '*') "(" := ⟨'(', [], rfl, by decide⟩
    rw [print, written, htext]
    exact ⟨(hinner.inParens ((hitemLeft.begins.append _).append _ |>.append _)).of_free,
      (hparen.append _).append _⟩
  | call _ callee args =>
    obtain ⟨hcallee, hargs⟩ := h
    obtain ⟨hlexeme, htokens⟩ := List.forall_mem_cons.1 ht
    exact ⟨(writes_call hlexeme (forall₂_writesItem args hargs htokens)).of_free,
      ((hlexeme.begins (by rw [hcallee]; decide)).append _).append _⟩

/-- The expressions of a list are printed as items. -/
theorem forall₂_writesItem (es : List Expr) (h : FormedList es)
    (ht : ∀ t ∈ tokensList es, t.IsLexeme) :
    List.Forall₂ WritesItem (printList es) (writtenList es) := by
  cases es with
  | nil => exact .nil
  | cons e es =>
    obtain ⟨he, hes⟩ := h
    obtain ⟨hfirst, hrest⟩ := List.forall_mem_append.1 ht
    exact .cons (writesItem_print e he hfirst) (forall₂_writesItem es hes hrest)

end

end Expr

/-! ### Statements -/

/-- Whether a character is not part of a name: words end before it. It is less than `separates` asks
for. -/
abbrev EndsWord (c : Char) : Prop :=
  Segment.isNamePart c = false

theorem endsWord_of_separates {c : Char} (h : separates c) : EndsWord c :=
  h.1

theorem endsWord_of_eq_newline (c : Char) (h : c = '\n') : EndsWord c := by
  rw [h]
  decide

namespace Writes

variable {p q : Char → Prop} {text inner : String} {ts : List Token}

theorem keyword (w : Keyword) : Writes EndsWord w.spelling [Token.spelled (.keyword w)] := by
  refine (spelled (k := .keyword w) rfl).imp fun c hc => ?_
  have hword : (Kind.keyword w).isWord = true := by cases w <;> decide
  exact Kind.endsBefore_of_isWord hword hc

theorem keyword_blank (w : Keyword) :
    WritesFreely (w.spelling ++ " ") [Token.spelled (.keyword w)] :=
  (keyword w).before_blank (by decide)

theorem begins_blank {text : String} : Begins separates (" " ++ text) :=
  Begins.append ⟨' ', [], rfl, by decide⟩ text

/-- A line writes what stands in it. -/
theorem line (h : Writes p text ts) (level : Nat) : Writes p (line level text) ts := by
  have hindent : WritesFreely ("\n" ++ indent level) [] := by
    refine whiteSpace fun c hc => ?_
    rw [String.toList_append, List.mem_append] at hc
    obtain hc | hc := hc
    · rw [List.mem_singleton.1 hc]
      exact isWhiteSpace_newline
    · rw [indent, String.toList_ofList] at hc
      rw [List.eq_of_mem_replicate hc]
      exact isWhiteSpace_space
  exact hindent.append_of_free h

/-- What an assignment is made to. -/
theorem assigned (h : Writes separates text ts) :
    WritesFreely (text ++ " := ") (ts ++ [Token.spelled (.mark .assign)]) := by
  have hmark : WritesFreely (":=" ++ " ") [Token.spelled (.mark .assign)] :=
    before_blank ((mark .assign).imp fun _ _ => rfl) rfl
  exact h.append ⟨' ', [':', '=', ' '], rfl, by decide⟩ hmark.after_blank

/-- A condition between two words. -/
theorem condition (h : WritesItem text ts) (w v : Keyword) (level : Nat) :
    Writes EndsWord (Layout.line level (w.spelling ++ " " ++ text ++ (" " ++ v.spelling)))
      (Token.spelled (.keyword w) :: (ts ++ [Token.spelled (.keyword v)])) := by
  have hfirst : Writes separates (w.spelling ++ " " ++ text) ([Token.spelled (.keyword w)] ++ ts) :=
    (keyword_blank w).append_of_free h.writes
  exact line (hfirst.append begins_blank (keyword v).after_blank) level

end Writes

theorem begins_line (level : Nat) (text : String) :
    Begins (fun c => c = '\n') (line level text) := by
  have hnewline : Begins (fun c => c = '\n') "\n" := ⟨'\n', [], rfl, rfl⟩
  exact (hnewline.append _).append _

theorem begins_enclose (level : Nat) (inner : String) :
    Begins (fun c => c = '\n') (enclose level inner) :=
  ((begins_line level "begin").append inner).append _

/-- Lines between `begin` and `end`. -/
theorem writes_enclose {inner : String} {ts : List Token} (h : WritesFreely inner ts)
    (level : Nat) (hbegins : Begins (fun c => c = '\n') (inner ++ line level "end")) :
    Writes EndsWord (enclose level inner) (inBlock ts) := by
  have hend := h.append_of_free ((Writes.keyword .end).line level)
  have hall := ((Writes.keyword .begin).line level).append
    (hbegins.imp endsWord_of_eq_newline) hend
  rw [← String.append_assoc] at hall
  exact hall

namespace Stmt

/-- Every statement begins a line. -/
theorem begins_print (s : Stmt) (level : Nat) : Begins (fun c => c = '\n') (s.print level) := by
  cases s with
  | write | read | assign | call => exact begins_line level _
  | ifThen | whileDo | forLoop => exact (begins_line level _).append _
  | repeatUntil => exact ((begins_line level _).append _).append _
  | ifElse => exact (((begins_line level _).append _).append _).append _
  | compound => exact begins_enclose level _

theorem begins_printList (ss : List Stmt) (level : Nat) {text : String}
    (h : Begins (fun c => c = '\n') text) :
    Begins (fun c => c = '\n') (printList ss level ++ text) := by
  cases ss with
  | nil => exact h
  | cons s ss => exact (((begins_print s level).append _).append _).append _

/-- Statements between `begin` and `end`. -/
theorem writes_inBlock {ss : List Stmt} {level : Nat}
    (h : WritesFreely (printList ss (level + 1)) (writtenList ss)) :
    Writes EndsWord (enclose level (printList ss (level + 1))) (inBlock (writtenList ss)) :=
  writes_enclose h level (begins_printList ss _ (begins_line _ _))

/-- A heading that ends in a word, and the statements below it. -/
theorem writes_headed {text : String} {ts : List Token} {ss : List Stmt} {level : Nat}
    (h : Writes EndsWord text ts)
    (hbody : WritesFreely (printList ss (level + 1)) (writtenList ss)) :
    Writes EndsWord (text ++ enclose level (printList ss (level + 1)))
      (ts ++ inBlock (writtenList ss)) :=
  -- the block begins with a line feed, before which the word ends
  h.append ((begins_enclose _ _).imp endsWord_of_eq_newline) (writes_inBlock hbody)

mutual

/-- A printed statement writes its tokens. -/
theorem writes_print (s : Stmt) (h : s.Formed) (ht : ∀ t ∈ s.tokens, t.IsLexeme) (level : Nat) :
    Writes separates (s.print level) s.written := by
  cases s with
  | write newline args =>
    have hlist := Expr.forall₂_writesItem args h ht
    have hword := Writes.keyword_blank (if newline then .writeln else .write)
    exact ((hword.append_of_free (writes_parenthesized hlist)).line level).of_free
  | read target =>
    have hitem := WritesItem.of_ident h (ht target List.mem_cons_self)
    have hparens : WritesFreely ("(" ++ target.display ++ ")") (inParens [target]) :=
      hitem.writes.inParens (hitem.begins.append ")")
    have hall := (Writes.keyword_blank .read).append_of_free hparens
    rw [← String.append_assoc, ← String.append_assoc] at hall
    exact (hall.line level).of_free
  | assign target value =>
    obtain ⟨htarget, hvalue⟩ := h
    obtain ⟨hlexeme, htokens⟩ := List.forall_mem_cons.1 ht
    have hitem := WritesItem.of_ident htarget hlexeme
    have hvalue := Expr.writesItem_print value hvalue htokens
    exact (hitem.writes.assigned.append_of_free hvalue.writes).line level
  | call callee args =>
    obtain ⟨hcallee, hargs⟩ := h
    obtain ⟨hlexeme, htokens⟩ := List.forall_mem_cons.1 ht
    have hlist := Expr.forall₂_writesItem args hargs htokens
    exact ((writes_call hlexeme hlist).line level).of_free
  | ifThen condition body =>
    obtain ⟨hcondition, hbody⟩ := h
    obtain ⟨htCondition, htBody⟩ := List.forall_mem_append.1 ht
    have hitem := Expr.writesItem_print condition hcondition htCondition
    have hlist := writes_printList body hbody htBody (level + 2)
    have hall := writes_headed (Writes.condition hitem .if .then level) hlist
    rw [List.cons_append, List.append_assoc, List.singleton_append] at hall
    exact hall.imp fun _ => endsWord_of_separates
  | ifElse condition body otherwise =>
    obtain ⟨hcondition, hbody, hotherwise⟩ := h
    obtain ⟨htFirst, htOtherwise⟩ := List.forall_mem_append.1 ht
    obtain ⟨htCondition, htBody⟩ := List.forall_mem_append.1 htFirst
    have hitem := Expr.writesItem_print condition hcondition htCondition
    have hlist := writes_printList body hbody htBody (level + 2)
    have hlist' := writes_printList otherwise hotherwise htOtherwise (level + 2)
    have hthen := writes_headed (Writes.condition hitem .if .then level) hlist
    have helse := hthen.append ((begins_line _ _).imp endsWord_of_eq_newline)
      ((Writes.keyword .else).line level)
    have hall := writes_headed helse hlist'
    simp only [List.cons_append, List.append_assoc] at hall
    exact hall.imp fun _ => endsWord_of_separates
  | whileDo condition body =>
    obtain ⟨hcondition, hbody⟩ := h
    obtain ⟨htCondition, htBody⟩ := List.forall_mem_append.1 ht
    have hitem := Expr.writesItem_print condition hcondition htCondition
    have hlist := writes_printList body hbody htBody (level + 2)
    have hall := writes_headed (Writes.condition hitem .while .do level) hlist
    rw [List.cons_append, List.append_assoc, List.singleton_append] at hall
    exact hall.imp fun _ => endsWord_of_separates
  | repeatUntil body condition =>
    obtain ⟨-, hbody, hcondition⟩ := h
    obtain ⟨htBody, htCondition⟩ := List.forall_mem_append.1 ht
    have hitem := Expr.writesItem_print condition hcondition htCondition
    have hlist := writes_printList body hbody htBody (level + 1)
    have huntil := (Writes.keyword_blank .until).append_of_free hitem.writes
    have hrest := hlist.append_of_free (huntil.line level)
    have hall := ((Writes.keyword .repeat).line level).append
      ((begins_printList _ _ (begins_line _ _)).imp endsWord_of_eq_newline) hrest
    rw [← String.append_assoc] at hall
    exact hall
  | forLoop counter first direction last body =>
    obtain ⟨hcounter, hfirst, hlast, hbody⟩ := h
    obtain ⟨hlexeme, htRest⟩ := List.forall_mem_cons.1 ht
    obtain ⟨htBounds, htBody⟩ := List.forall_mem_append.1 htRest
    obtain ⟨htFirst, htLast⟩ := List.forall_mem_append.1 htBounds
    have hcounter := WritesItem.of_ident hcounter hlexeme
    have hfirst := Expr.writesItem_print first hfirst htFirst
    have hlast := Expr.writesItem_print last hlast htLast
    have hlist := writes_printList body hbody htBody (level + 2)
    have hstart := ((Writes.keyword_blank .for).append_of_free hcounter.writes).assigned
    have hbound := (hstart.append_of_free hfirst.writes).before_blank (by decide)
    have hto := (hbound.append_of_free (Writes.keyword direction.keyword)).before_blank (by decide)
    have hheading := (hto.append_of_free hlast.writes).append Writes.begins_blank
      (Writes.keyword .do).after_blank
    have hall := writes_headed (hheading.line level) hlist
    simp only [List.cons_append, List.append_assoc, List.nil_append] at hall
    exact hall.imp fun _ => endsWord_of_separates
  | compound body =>
    have hlist := writes_printList body h ht (level + 1)
    exact (writes_inBlock hlist).imp fun _ => endsWord_of_separates

/-- Printed statements write their tokens. -/
theorem writes_printList (ss : List Stmt) (h : FormedList ss)
    (ht : ∀ t ∈ tokensList ss, t.IsLexeme) (level : Nat) :
    WritesFreely (printList ss level) (writtenList ss) := by
  cases ss with
  | nil => exact Writes.nil
  | cons s ss =>
    obtain ⟨hs, hss⟩ := h
    obtain ⟨htFirst, htRest⟩ := List.forall_mem_append.1 ht
    have hfirst := (writes_print s hs htFirst level).semicolon
    have hall := hfirst.append_of_free (writes_printList ss hss htRest level)
    rw [List.append_assoc] at hall
    exact hall

end

end Stmt

/-! ### Declarations -/

namespace VarDecl

theorem writes_typeName (ty : Ty) : Writes EndsWord ty.spelling [spelled (.typeName ty)] := by
  refine (Writes.spelled (k := .typeName ty) rfl).imp fun c hc => ?_
  have hword : (Kind.typeName ty).isWord = true := by cases ty <;> decide
  exact Kind.endsBefore_of_isWord hword hc

/-- A type after a colon. -/
theorem writes_typed {text : String} {ts : List Token} (h : Writes separates text ts) (ty : Ty) :
    Writes EndsWord (text ++ " : " ++ ty.spelling)
      (ts ++ [spelled (.mark .colon)] ++ [spelled (.typeName ty)]) := by
  have hcolon : WritesFreely (":" ++ " ") [spelled (.mark .colon)] :=
    (Writes.mark .colon).before_blank rfl
  have hbegins : Begins separates " : " := ⟨' ', [':', ' '], rfl, by decide⟩
  exact (h.append hbegins hcolon.after_blank).append_of_free (writes_typeName ty)

/-- A printed parameter list writes its tokens. -/
theorem writes_printParams {params : List VarDecl} (h : ∀ decl ∈ params, decl.Formed)
    (ht : ∀ t ∈ params.map name, t.IsLexeme) :
    WritesFreely (printParams params) (inParens (withCommas (params.map written))) := by
  refine writes_parenthesized ?_
  induction params with
  | nil => exact .nil
  | cons decl params ih =>
    obtain ⟨hdecl, hparams⟩ := List.forall_mem_cons.1 h
    obtain ⟨htDecl, htParams⟩ := List.forall_mem_cons.1 ht
    have hname := WritesItem.of_ident hdecl htDecl
    have hitem : WritesItem decl.print decl.written :=
      ⟨(writes_typed hname.writes decl.ty).imp fun _ => endsWord_of_separates,
        (hname.begins.append _).append _⟩
    exact .cons hitem (ih hparams htParams)

/-- The printed variables of one type write their tokens. -/
theorem writes_printGroup {vars : List VarDecl} (h : ∀ decl ∈ vars, decl.Formed)
    (ht : ∀ t ∈ vars.map name, t.IsLexeme) (level : Nat) (ty : Ty) :
    WritesFreely (printGroup vars level ty) (writtenGroup vars ty) := by
  have hnames : List.Forall₂ WritesItem ((ofType vars ty).map fun decl => decl.name.text)
      ((ofType vars ty).map fun decl => [decl.name]) := by
    rw [List.forall₂_map_left_iff, List.forall₂_map_right_iff, List.forall₂_same]
    intro decl hdecl
    have hmem : decl ∈ vars := (List.mem_filter.1 hdecl).1
    rw [← display_of_kind_eq_ident (h decl hmem)]
    exact .of_ident (h decl hmem) (ht _ (List.mem_map_of_mem hmem))
  have htyped := writes_typed (writesItem_commaSeparated hnames).1 ty
  have hline := (htyped.imp fun _ => endsWord_of_separates).semicolon.line level
  rw [List.append_assoc, List.append_assoc] at hline
  exact hline

/-- The printed variables of a block write their tokens. -/
theorem writes_printSection {vars : List VarDecl} (h : ∀ decl ∈ vars, decl.Formed)
    (ht : ∀ t ∈ vars.map name, t.IsLexeme) (level : Nat) :
    WritesFreely (printSection vars level) (writtenSection vars) := by
  have hgroups : ∀ tys : List Ty,
      WritesFreely (String.join (tys.map (printGroup vars (level + 1))))
        (tys.flatMap (writtenGroup vars)) := by
    intro tys
    induction tys with
    | nil => exact Writes.nil
    | cons ty tys ih =>
      rw [List.map_cons, String.join_cons, List.flatMap_cons]
      exact (writes_printGroup h ht (level + 1) ty).append_of_free ih
  unfold printSection writtenSection
  split
  · exact Writes.nil
  · next hempty =>
    have hvars : vars ≠ [] := fun hnil => hempty (List.isEmpty_iff.2 hnil)
    -- there is a variable, so at least one line follows the word
    obtain ⟨ty, tys, htypes⟩ := List.exists_cons_of_ne_nil (types_ne_nil hvars)
    have hbegins : Begins EndsWord
        (String.join ((types vars).map (printGroup vars (level + 1)))) := by
      rw [htypes, List.map_cons, String.join_cons]
      exact ((begins_line _ _).imp endsWord_of_eq_newline).append _
    exact ((Writes.keyword .var).line level).append hbegins (hgroups (types vars))

end VarDecl

mutual

/-- A printed block writes its tokens, before anything but a part of a name. -/
theorem Block.writes_print (b : Block) (h : b.Formed) (ht : ∀ t ∈ b.tokens, t.IsLexeme)
    (level : Nat) : Writes EndsWord (b.print level) b.written := by
  obtain ⟨vars, routines, body⟩ := b
  obtain ⟨hvars, hroutines, hbody⟩ := h
  obtain ⟨htFirst, htBody⟩ := List.forall_mem_append.1 ht
  obtain ⟨htVars, htRoutines⟩ := List.forall_mem_append.1 htFirst
  have hsection := VarDecl.writes_printSection hvars htVars level
  have hlist := Routine.writes_printList routines hroutines htRoutines level
  have hstmts := Stmt.writes_printList body hbody htBody (level + 1)
  exact (hsection.append_of_free hlist).append_of_free (Stmt.writes_inBlock hstmts)

/-- A printed routine writes its tokens. -/
theorem Routine.writes_print (r : Routine) (h : r.Formed) (ht : ∀ t ∈ r.tokens, t.IsLexeme)
    (level : Nat) : WritesFreely (r.print level) r.written := by
  obtain ⟨name, params, result, block⟩ := r
  obtain ⟨hname, hparams, hblock⟩ := h
  obtain ⟨hlexeme, htRest⟩ := List.forall_mem_cons.1 ht
  obtain ⟨htParams, htBlock⟩ := List.forall_mem_append.1 htRest
  have hitem := WritesItem.of_ident hname hlexeme
  have hlist := VarDecl.writes_printParams hparams htParams
  have hbody := Block.writes_print block hblock htBlock (level + 1)
  have hheading : ∀ w : Keyword, WritesFreely
      (w.spelling ++ " " ++ name.display ++ " " ++ VarDecl.printParams params)
      (spelled (.keyword w) :: name :: inParens (withCommas (params.map VarDecl.written))) :=
    fun w => (((Writes.keyword_blank w).append_of_free hitem.writes).before_blank
      (by decide)).append_of_free hlist
  -- what stands between the heading and the end is the same for both sorts of routines
  have hall : ∀ {text : String} {ts : List Token}, Writes separates text ts →
      WritesFreely (line level (text ++ ";") ++ block.print (level + 1) ++ ";")
        (ts ++ spelled (.mark .semicolon) :: (block.written ++ [spelled (.mark .semicolon)])) := by
    intro text ts h
    have hfirst := h.semicolon.line level
    have hblock := hfirst.append_of_free (hbody.imp fun _ => endsWord_of_separates)
    have hend := hblock.semicolon
    simp only [List.append_assoc, List.singleton_append] at hend
    exact hend
  cases result with
  | none => exact hall (hheading .procedure).of_free
  | some ty =>
    have htyped := VarDecl.writes_typed (hheading .function).of_free ty
    have hfunction := hall (htyped.imp fun _ => endsWord_of_separates)
    simp only [List.append_assoc, List.cons_append, List.nil_append] at hfunction
    exact hfunction

/-- Printed routines write their tokens. -/
theorem Routine.writes_printList (rs : List Routine) (h : Routine.FormedList rs)
    (ht : ∀ t ∈ Routine.tokensList rs, t.IsLexeme) (level : Nat) :
    WritesFreely (Routine.printList rs level) (Routine.writtenList rs) := by
  cases rs with
  | nil => exact Writes.nil
  | cons r rs =>
    obtain ⟨hr, hrs⟩ := h
    obtain ⟨htFirst, htRest⟩ := List.forall_mem_append.1 ht
    have hfirst := Routine.writes_print r hr htFirst level
    exact hfirst.append_of_free (Routine.writes_printList rs hrs htRest level)

end

/-- A printed program writes its tokens. -/
theorem Program.writes_print (p : Program) (h : p.Formed) (ht : ∀ t ∈ p.tokens, t.IsLexeme)
    (level : Nat) : WritesFreely (p.print level) p.written := by
  obtain ⟨name, block⟩ := p
  obtain ⟨hname, hblock⟩ := h
  obtain ⟨hlexeme, htBlock⟩ := List.forall_mem_cons.1 ht
  have hitem := WritesItem.of_ident hname hlexeme
  have hbody := block.writes_print hblock htBlock level
  have hheading := ((Writes.keyword_blank .program).append_of_free hitem.writes).semicolon
  have hperiod : WritesFreely "." [spelled (.mark .period)] :=
    (Writes.mark .period).imp fun _ _ => rfl
  -- the last `end` is a word, and the period is no part of one
  have hall := (hheading.append_of_free hbody).append ⟨'.', [], rfl, by decide⟩ hperiod
  simp only [List.cons_append, List.nil_append] at hall
  exact hall

/-- The tokens that a scanner finds in a printed program are those of its tree. -/
theorem Program.scanned_print (p : Program) (h : p.Formed) (ht : ∀ t ∈ p.tokens, t.IsLexeme)
    (level : Nat) : scanned (p.print level).toList = p.written.map Token.unplaced :=
  (p.writes_print h ht level).scanned_eq

end MiniPascal
