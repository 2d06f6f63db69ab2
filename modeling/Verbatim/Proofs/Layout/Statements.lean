import Verbatim.Parse
import Verbatim.Proofs.Derivation.Inside
import Verbatim.Proofs.Derivation.ParseStatement
import Verbatim.Proofs.Grammar.Statement
import Verbatim.Proofs.Layout.Blocks
import Verbatim.Proofs.Walk

/-!
# The layout of statements

The statement grammar takes its tokens along the layout of their run: a statement begins where
a line begins and ends where the next one does, a block lies between its markers, and the tokens
of expressions stay within a line. So the lines of a statement begin in the column of its block.
-/

namespace Verbatim

open Outline (tokensOf Every)

namespace Compound

/-- A statement, or a part of one, whose lines begin in the column, and whose blocks are laid out
in greater columns, each in one of its own. -/
inductive LaidOut (first : Nat → Token → Prop) : Nat → Compound → Prop
  | line {column : Nat} {l : Line} {token : Token} (hfirst : first column token)
      (htoken : (tokensOf l.pieces).head? = some token) : LaidOut first column (.stmt (.line l))
  | ifElse {column : Nat} {span : Span} {ifToken colon : Token} {condition : Expr} {body : Body}
      {elifs : List ElifClause} {orelse : Option BlockClause} (hif : first column ifToken)
      (hbody : LaidOut first column (.body body))
      (helifs : ∀ c ∈ elifs, LaidOut first column (.elif c))
      (horelse : ∀ c, orelse = some c → LaidOut first column (.clause .kwElse c)) :
      LaidOut first column (.stmt (.ifElse span ifToken condition colon body elifs orelse))
  | whileLoop {column : Nat} {span : Span} {whileToken colon : Token} {condition : Expr}
      {body : Body} {orelse : Option BlockClause} (hwhile : first column whileToken)
      (hbody : LaidOut first column (.body body))
      (horelse : ∀ c, orelse = some c → LaidOut first column (.clause .kwElse c)) :
      LaidOut first column (.stmt (.whileLoop span whileToken condition colon body orelse))
  | forLoop {column : Nat} {span : Span} {async : Option Token} {forToken inToken colon : Token}
      {targets source : Expr} {body : Body} {orelse : Option BlockClause}
      (hfor : first column (async.getD forToken)) (hbody : LaidOut first column (.body body))
      (horelse : ∀ c, orelse = some c → LaidOut first column (.clause .kwElse c)) :
      LaidOut first column
        (.stmt (.forLoop span async forToken targets inToken source colon body orelse))
  | tryBlock {column : Nat} {span : Span} {tryToken colon : Token} {body : Body}
      {handlers : List ExceptClause} {orelse finalizer : Option BlockClause}
      (htry : first column tryToken) (hbody : LaidOut first column (.body body))
      (hhandlers : ∀ c ∈ handlers, LaidOut first column (.handler c))
      (horelse : ∀ c, orelse = some c → LaidOut first column (.clause .kwElse c))
      (hfinalizer : ∀ c, finalizer = some c → LaidOut first column (.clause .kwFinally c)) :
      LaidOut first column (.stmt (.tryBlock span tryToken colon body handlers orelse finalizer))
  | withBlock {column : Nat} {span : Span} {async : Option Token} {withToken colon : Token}
      {items : Separated WithItem} {body : Body} (hwith : first column (async.getD withToken))
      (hbody : LaidOut first column (.body body)) :
      LaidOut first column (.stmt (.withBlock span async withToken items colon body))
  | funcDef {column : Nat} {span : Span} {decorators : List Decorator} {async : Option Token}
      {keyword name opener closer colon : Token} {params : Option Params}
      {returns : Option (Introduced Expr)} {body : Body}
      (hdecorators : ∀ d ∈ decorators, first column d.mark)
      (hkeyword : first column (async.getD keyword)) (hbody : LaidOut first column (.body body)) :
      LaidOut first column (.stmt (.funcDef span decorators async keyword name opener params
        closer returns colon body))
  | classDef {column : Nat} {span : Span} {decorators : List Decorator}
      {keyword name colon : Token} {arguments : Option ClassArguments} {body : Body}
      (hdecorators : ∀ d ∈ decorators, first column d.mark) (hkeyword : first column keyword)
      (hbody : LaidOut first column (.body body)) :
      LaidOut first column (.stmt (.classDef span decorators keyword name arguments colon body))
  | bodyLine {column : Nat} {l : Line} : LaidOut first column (.body (.line l))
  | block {column inner : Nat} {span : Span} {typeComment : Option Token}
      {newline indent dedent : Token} {statements : List Stmt} (hinner : column < inner)
      (hstatements : ∀ s ∈ statements, LaidOut first inner (.stmt s)) :
      LaidOut first column (.body (.block span typeComment newline indent statements dedent))
  | elif {column : Nat} {span : Span} {keyword colon : Token} {condition : Expr} {body : Body}
      (hkeyword : first column keyword) (hbody : LaidOut first column (.body body)) :
      LaidOut first column (.elif (.mk span keyword condition colon body))
  | clause {column : Nat} {kind : TokenKind} {span : Span} {keyword colon : Token} {body : Body}
      (hkeyword : first column keyword) (hbody : LaidOut first column (.body body)) :
      LaidOut first column (.clause kind (.mk span keyword colon body))
  | handler {column : Nat} {span : Span} {keyword colon : Token} {caught : Option Caught}
      {body : Body} (hkeyword : first column keyword)
      (hbody : LaidOut first column (.body body)) :
      LaidOut first column (.handler (.mk span keyword caught colon body))

end Compound

/-! ## Streams along a layout -/

namespace Stream

def AtLine (first : Nat → Token → Prop) (columns : List Nat) (s : Stream) : Prop :=
  Layout.Fits first ⟨columns, .lineStart⟩ s.tokens

def OnLine (first : Nat → Token → Prop) (columns : List Nat) (s : Stream) : Prop :=
  Layout.Fits first ⟨columns, .inLine⟩ s.tokens

/-- The keyword of a statement comes next, which begins its line unless `async` does. -/
def Heads (first : Nat → Token → Prop) (columns : List Nat) (async : Option Token) (s : Stream) :
    Prop :=
  async.elim (s.AtLine first columns) fun t =>
    first (columns.headD 0) t ∧ s.OnLine first columns

end Stream

theorem Outline.Every.isStructural_tokensOf {pieces : List Outline}
    (h : Every Event.Inline pieces) : ∀ t ∈ tokensOf pieces, t.kind.isStructural = false := by
  intro t ht
  rw [← Outline.filterMap_token?_eventsOf] at ht
  obtain ⟨event, hevent, htoken⟩ := List.mem_filterMap.mp ht
  cases event <;> cases htoken
  exact h _ hevent

namespace Parser.Leaves

variable {α β : Type} {s : Stream} {post : α → Stream → Prop} {first : Nat → Token → Prop}
  {columns : List Nat} {kind : TokenKind}

theorem bumpOver {f : Token → Parser α}
    (h : ∀ u, s.tokens = s.current :: u.tokens → Leaves (f s.current) u post) :
    Leaves (Parser.bump >>= f) s post := by
  intro a v ha
  obtain ⟨t, u, ht, hf⟩ := bind_eq_ok.mp ha
  obtain ⟨rfl, hupcoming, _⟩ := bump_eq_ok ht
  exact h u (by rw [Stream.tokens, hupcoming]; rfl) a v hf

theorem expectOver {f : Token → Parser α}
    (h : ∀ u, s.current.kind = kind → s.tokens = s.current :: u.tokens →
      Leaves (f s.current) u post) : Leaves (Parser.expect kind >>= f) s post := by
  intro a v ha
  obtain ⟨t, u, ht, hf⟩ := bind_eq_ok.mp ha
  obtain ⟨b, w, hb, hbump⟩ := bind_eq_ok.mp ht
  cases hb
  split at hbump
  · next hkind =>
    exact bumpOver (fun u => h u (beq_iff_eq.mp hkind)) a v (bind_eq_ok.mpr ⟨t, u, hbump, hf⟩)
  · exact absurd hbump fail_ne_ok

/-! ### Tokens along a layout -/

theorem firstToken {f : Token → Parser α} (hs : s.AtLine first columns)
    (hkind : s.current.kind = kind) (hinline : kind.isStructural = false)
    (h : ∀ t u, first (columns.headD 0) t → u.OnLine first columns → Leaves (f t) u post) :
    Leaves (Parser.bump >>= f) s post := by
  refine bumpOver fun u htokens => ?_
  rw [Stream.AtLine, htokens] at hs
  obtain ⟨hfirst, hu⟩ := hs.first_cons (hkind ▸ hinline)
  exact h _ u hfirst hu

theorem expectMore {f : Token → Parser α} (hs : s.OnLine first columns)
    (hinline : kind.isStructural = false)
    (h : ∀ t u, u.OnLine first columns → Leaves (f t) u post) :
    Leaves (Parser.expect kind >>= f) s post := by
  refine expectOver fun u hkind htokens => ?_
  rw [Stream.OnLine, htokens] at hs
  exact h _ u (hs.more_cons (hkind ▸ hinline))

theorem expectHead {async : Option Token} {f : Token → Parser α}
    (hs : s.Heads first columns async)
    (hinline : kind.isStructural = false)
    (h : ∀ t u, first (columns.headD 0) (async.getD t) → u.OnLine first columns →
      Leaves (f t) u post) :
    Leaves (Parser.expect kind >>= f) s post := by
  cases async with
  | some t => exact expectMore hs.2 hinline fun t' u hu => h t' u hs.1 hu
  | none =>
    refine expectOver fun u hkind htokens => ?_
    rw [Stream.Heads, Option.elim, Stream.AtLine, htokens] at hs
    obtain ⟨hfirst, hu⟩ := hs.first_cons (hkind ▸ hinline)
    exact h _ u hfirst hu

theorem expectNewline {f : Token → Parser α} (hs : s.OnLine first columns)
    (h : ∀ t u, u.AtLine first columns → Leaves (f t) u post) :
    Leaves (Parser.expect .newline >>= f) s post := by
  refine expectOver fun u hkind htokens => ?_
  rw [Stream.OnLine, htokens] at hs
  exact h _ u (hs.newline_cons hkind)

theorem indent {f : Token → Parser α} (hs : s.AtLine first columns)
    (hkind : s.current.kind = .indent)
    (h : ∀ t u inner, columns.headD 0 < inner → u.AtLine first (inner :: columns) →
      Leaves (f t) u post) :
    Leaves (Parser.bump >>= f) s post := by
  refine bumpOver fun u htokens => ?_
  rw [Stream.AtLine, htokens] at hs
  obtain ⟨inner, hinner, hu⟩ := hs.indent_cons hkind
  exact h _ u inner hinner hu

theorem expectDedent {inner : Nat} {f : Token → Parser α} (hs : s.AtLine first (inner :: columns))
    (h : ∀ t u, u.AtLine first columns → Leaves (f t) u post) :
    Leaves (Parser.expect .dedent >>= f) s post := by
  refine expectOver fun u hkind htokens => ?_
  rw [Stream.AtLine, htokens] at hs
  exact h _ u (hs.dedent_cons hkind)

/-- A part of a line, without structural markers. -/
theorem onLine {p : Parser β} {f : β → Parser α} {pieces : β → List Outline} {M : β → Prop}
    (hs : s.OnLine first columns) (hread : Yields p pieces) (hp : Returns p s M)
    (hpieces : ∀ b, M b → Every Event.Inline (pieces b))
    (h : ∀ b u, u.OnLine first columns → Leaves (f b) u post) : Leaves (p >>= f) s post := by
  intro a v ha
  obtain ⟨b, u, hb, hf⟩ := bind_eq_ok.mp ha
  rw [Stream.OnLine, (hread s b u hb).moves.tokens_eq] at hs
  exact h b u (hs.more_append (Every.isStructural_tokensOf (hpieces b (hp b u hb)))) a v hf

/-- The same for a part that may be left out. -/
theorem optionalOnLine {begins : TokenKind → Bool} {p : Parser β} {f : Option β → Parser α}
    {pieces : β → List Outline} {M : β → Prop} (hs : s.OnLine first columns)
    (hread : Yields p pieces) (hp : begins s.current.kind = true → Returns p s M)
    (hpieces : ∀ b, M b → Every Event.Inline (pieces b))
    (h : ∀ o u, u.OnLine first columns → Leaves (f o) u post) :
    Leaves (Parser.optional (.startedBy begins p) >>= f) s post := by
  refine .onLine hs (yields_optional (yields_startedBy hread))
    (.ofBind (.optionalBy hp fun _ _ ho => .pure ho)) (fun o ho => ?_) h
  exact Outline.every_elim.mpr fun b hb => hpieces b (ho b hb)

theorem eatTypeComment {f : Option Token → Parser α} (hs : s.OnLine first columns)
    (h : ∀ o u, u.OnLine first columns → Leaves (f o) u post) :
    Leaves (Parser.eat .typeComment >>= f) s post := by
  refine .onLine hs (yields_eat _) (fun o u ho => eat_eq_ok ho) (fun o ho => ?_) h
  refine Outline.every_ofOption.mpr fun t ht => ?_
  rw [Event.inline_token, ho t ht]
  rfl

end Parser.Leaves

namespace Grammar

open Verbatim.Parser

variable {s : Stream} {first : Nat → Token → Prop} {columns : List Nat}

/-! ## Lines -/

theorem lineBreak_ends : Leaves lineBreak s fun o u =>
    o = none → u.current.kind = .endOfFile ∨ u.current.kind = .dedent := by
  apply Leaves.peek
  split
  · exact .bump fun u => .pure (by simp)
  · next hkind => exact .pure fun _ => .inl hkind
  · next hkind => exact .pure fun _ => .inr hkind
  · exact .fail

theorem line_ends : Leaves line s fun l u =>
    l.newline = none → u.current.kind = .endOfFile ∨ u.current.kind = .dedent := by
  refine .start fun n => .skip fun small u => .skip fun r v => .skip fun typeComment w => ?_
  exact lineBreak_ends.bind fun newline x h => .spanFrom fun span => .pure h

/-- A line is a first token, the rest of it and a line break, if that is not left out. -/
theorem line_reads {l : Line} {u : Stream} (h : line s = .ok (l, u)) :
    ∃ t ts, (tokensOf l.pieces).head? = some t ∧
      (∀ t' ∈ t :: ts, t'.kind.isStructural = false) ∧
      s.tokens = t :: ts ++ (l.newline.toList ++ u.tokens) := by
  have hinline := (derived_line l u h).every_inline.isStructural_tokensOf
  obtain ⟨hread, -, -⟩ := (yields_line s l u h).inside
  obtain ⟨hmoves, hspanned⟩ := hread
  rw [Line.pieces] at hmoves hspanned ⊢
  have hne := (Outline.allSpanned_append.mp hspanned).1.tokensOf_ne_nil (by
    cases l.statements <;> simp [Separated.pieces])
  obtain ⟨t, ts, htokens⟩ := List.exists_cons_of_ne_nil hne
  rw [htokens] at hinline
  have hall := hmoves.tokens_eq
  rw [Outline.tokensOf_append, htokens, Outline.ofOption, Outline.tokensOf_map_token,
    List.append_assoc] at hall
  refine ⟨t, ts, ?_, hinline, hall⟩
  rw [Outline.tokensOf_append, htokens]
  rfl

/-- Behind a line the next one begins. -/
theorem atLine_of_onLine {l : Line} {u v : Stream} (h : line v = .ok (l, u))
    (hrest : Layout.Fits first ⟨columns, .inLine⟩ (l.newline.toList ++ u.tokens)) :
    u.AtLine first columns := by
  cases hnewline : l.newline with
  | none =>
    rw [hnewline] at hrest
    exact Layout.Fits.of_inLine hrest (line_ends l u h hnewline)
  | some t =>
    rw [hnewline] at hrest
    exact hrest.newline_cons ((derived_line l u h).newline t hnewline)

theorem line_onLine (hs : s.OnLine first columns) :
    Leaves line s fun _ u => u.AtLine first columns := by
  intro l u h
  obtain ⟨t, ts, -, hinline, htokens⟩ := line_reads h
  rw [Stream.OnLine, htokens] at hs
  exact atLine_of_onLine h (hs.more_append hinline)

theorem line_atLine (hs : s.AtLine first columns) : Leaves line s fun l u =>
    Compound.LaidOut first (columns.headD 0) (.stmt (.line l)) ∧ u.AtLine first columns := by
  intro l u h
  obtain ⟨t, ts, hhead, hinline, htokens⟩ := line_reads h
  obtain ⟨ht, hts⟩ := List.forall_mem_cons.mp hinline
  rw [Stream.AtLine, htokens] at hs
  obtain ⟨hfirst, hrest⟩ := hs.first_cons ht
  exact ⟨.line hfirst hhead, atLine_of_onLine h (hrest.more_append hts)⟩

theorem decorator_atLine (hs : s.AtLine first columns) (hkind : s.current.kind = .atSign) :
    Leaves decorator s fun d u => first (columns.headD 0) d.mark ∧ u.AtLine first columns := by
  refine .start fun n => .firstToken hs hkind rfl fun mark u hmark hu => ?_
  refine .onLine hu yields_aNamedTest derives_aNamedTest (fun _ => Derives.every_outline)
    fun e v hv => .eatTypeComment hv fun typeComment w hw => ?_
  exact .expectNewline hw fun newline x hx => .spanFrom fun span => .pure ⟨hmark, hx⟩

/-! ## Compound statements -/

section Statement

open Compound (LaidOut)

/-- What is asked of the parser of the statements inside. -/
def Lays (first : Nat → Token → Prop) (statement : Parser Stmt) : Prop :=
  ∀ s columns, s.AtLine first columns → Leaves statement s fun stmt u =>
    LaidOut first (columns.headD 0) (.stmt stmt) ∧ u.AtLine first columns

variable {statement : Parser Stmt} (hstatement : Lays first statement)

include hstatement

theorem laidOut_body (hs : s.OnLine first columns) : Leaves (body statement) s fun b u =>
    LaidOut first (columns.headD 0) (.body b) ∧ u.AtLine first columns := by
  refine .peek (.ite (fun _ => ?_) fun _ => ?_)
  · refine .start fun n => .eatTypeComment hs fun typeComment u hu => ?_
    refine .expectNewline hu fun newline v hv => .isAt (fun hindent => ?_) fun _ => .fail
    refine .indent hv hindent fun indent w inner hinner hw => ?_
    refine .manyKeeping hw (fun x hx _ => hstatement x _ hx) fun statements x hstatements hx => ?_
    refine .expectDedent hx fun dedent y hy => .spanFrom fun span => .pure ⟨?_, hy⟩
    exact .block hinner hstatements
  · exact (line_onLine hs).bind fun l _ hu => .pure ⟨.bodyLine, hu⟩

/-- The last steps of a clause, from its colon on. -/
theorem colonBody {α : Type} {f : Token → Body → Parser α} {post : α → Stream → Prop}
    (hs : s.OnLine first columns)
    (h : ∀ colon b u, LaidOut first (columns.headD 0) (.body b) → u.AtLine first columns →
      Leaves (f colon b) u post) :
    Leaves (do
      let colon ← expect .colon
      let body ← body statement
      f colon body) s post :=
  .expectMore hs rfl fun colon _ hu =>
    (laidOut_body hstatement hu).bind fun b v hb => h colon b v hb.1 hb.2

theorem laidOut_blockClause {kind : TokenKind} (hs : s.AtLine first columns)
    (hkind : s.current.kind = kind) (hinline : kind.isStructural = false) :
    Leaves (blockClause statement) s fun c u =>
      LaidOut first (columns.headD 0) (.clause kind c) ∧ u.AtLine first columns := by
  refine .start fun n => .firstToken hs hkind hinline fun keyword u hkeyword hu => ?_
  refine colonBody hstatement hu fun colon b v hb hv => ?_
  exact .spanFrom fun span => .pure ⟨.clause hkeyword hb, hv⟩

/-- A clause that only its keyword begins. -/
theorem laidOut_optionalClause {α : Type} {kind : TokenKind} {f : Option BlockClause → Parser α}
    {post : α → Stream → Prop} (hs : s.AtLine first columns) (hinline : kind.isStructural = false)
    (h : ∀ o u, (∀ c, o = some c → LaidOut first (columns.headD 0) (.clause kind c)) →
      u.AtLine first columns → Leaves (f o) u post) :
    Leaves (Parser.optional (.onKind kind (blockClause statement)) >>= f) s post :=
  .optionalKeeping hs
    (fun hkind => laidOut_blockClause hstatement hs (beq_iff_eq.mp hkind) hinline) h

theorem laidOut_elifClause (hs : s.AtLine first columns) (hkind : s.current.kind = .kwElif) :
    Leaves (elifClause statement) s fun c u =>
      LaidOut first (columns.headD 0) (.elif c) ∧ u.AtLine first columns := by
  refine .start fun n => .firstToken hs hkind rfl fun keyword u hkeyword hu => ?_
  refine .onLine hu yields_aNamedTest derives_aNamedTest (fun _ => Derives.every_outline)
    fun condition v hv => colonBody hstatement hv fun colon b w hb hw => ?_
  exact .spanFrom fun span => .pure ⟨.elif hkeyword hb, hw⟩

theorem laidOut_exceptClause (hs : s.AtLine first columns) (hkind : s.current.kind = .kwExcept) :
    Leaves (exceptClause statement) s fun c u =>
      LaidOut first (columns.headD 0) (.handler c) ∧ u.AtLine first columns := by
  refine .start fun n => .firstToken hs hkind rfl fun keyword u hkeyword hu => ?_
  refine .optionalOnLine hu yields_caught (fun _ => derived_caught) (fun _ => Caught.Derived.every)
    fun caught v hv => colonBody hstatement hv fun colon b w hb hw => ?_
  exact .spanFrom fun span => .pure ⟨.handler hkeyword hb, hw⟩

theorem laidOut_ifStatement (hs : s.AtLine first columns) (hkind : s.current.kind = .kwIf) :
    Leaves (ifStatement statement) s fun s u =>
      LaidOut first (columns.headD 0) (.stmt s) ∧ u.AtLine first columns := by
  refine .start fun n => .firstToken hs hkind rfl fun ifToken u hif hu => ?_
  refine .onLine hu yields_aNamedTest derives_aNamedTest (fun _ => Derives.every_outline)
    fun condition v hv => colonBody hstatement hv fun colon b w hb hw => ?_
  refine .manyKeeping hw
    (fun x hx hkind => laidOut_elifClause hstatement hx (beq_iff_eq.mp hkind))
    fun elifs x helifs hx => laidOut_optionalClause hstatement hx rfl fun orelse y horelse hy => ?_
  exact .spanFrom fun span => .pure ⟨.ifElse hif hb helifs horelse, hy⟩

theorem laidOut_whileStatement (hs : s.AtLine first columns)
    (hkind : s.current.kind = .kwWhile) :
    Leaves (whileStatement statement) s fun s u =>
      LaidOut first (columns.headD 0) (.stmt s) ∧ u.AtLine first columns := by
  refine .start fun n => .firstToken hs hkind rfl fun whileToken u hwhile hu => ?_
  refine .onLine hu yields_aNamedTest derives_aNamedTest (fun _ => Derives.every_outline)
    fun condition v hv => colonBody hstatement hv fun colon b w hb hw => ?_
  refine laidOut_optionalClause hstatement hw rfl fun orelse x horelse hx => ?_
  exact .spanFrom fun span => .pure ⟨.whileLoop hwhile hb horelse, hx⟩

theorem laidOut_forStatement {async : Option Token} (n : Nat)
    (hs : s.Heads first columns async) :
    Leaves (forStatement statement n async) s fun s u =>
      LaidOut first (columns.headD 0) (.stmt s) ∧ u.AtLine first columns := by
  refine .expectHead hs rfl fun forToken u hfor hu => ?_
  refine .onLine hu yields_anExprList derives_anExprList (fun _ => Derives.every_outline)
    fun targets v hv => .expectMore hv rfl fun inToken w hw => ?_
  refine .onLine hw yields_aTestList derives_aTestList (fun _ => Derives.every_outline)
    fun source x hx => colonBody hstatement hx fun colon b y hb hy => ?_
  refine laidOut_optionalClause hstatement hy rfl fun orelse z horelse hz => ?_
  exact .spanFrom fun span => .pure ⟨.forLoop hfor hb horelse, hz⟩

theorem laidOut_tryStatement (hs : s.AtLine first columns) (hkind : s.current.kind = .kwTry) :
    Leaves (tryStatement statement) s fun s u =>
      LaidOut first (columns.headD 0) (.stmt s) ∧ u.AtLine first columns := by
  refine .start fun n => .firstToken hs hkind rfl fun tryToken u htry hu => ?_
  refine colonBody hstatement hu fun colon b v hb hv => ?_
  refine .manyKeeping hv
    (fun x hx hkind => laidOut_exceptClause hstatement hx (beq_iff_eq.mp hkind))
    fun handlers w hhandlers hw => ?_
  -- an `else` is looked for only after a handler, and both ways go on alike from there
  have hrest : ∀ orelse u, u.AtLine first columns →
      (∀ c, orelse = some c → LaidOut first (columns.headD 0) (.clause .kwElse c)) →
      Leaves (do
        let finalizer ← Parser.optional (.onKind .kwFinally (blockClause statement))
        if handlers.isEmpty && finalizer.isNone then Parser.fail .expectedHandler
        else
          let span ← spanFrom n
          return Stmt.tryBlock span tryToken colon b handlers orelse finalizer) u
        fun s u => LaidOut first (columns.headD 0) (.stmt s) ∧ u.AtLine first columns := by
    intro orelse u hu horelse
    refine laidOut_optionalClause hstatement hu rfl fun finalizer v hfinalizer hv => ?_
    refine .ite (fun _ => .fail) fun _ => .spanFrom fun span => .pure ⟨?_, hv⟩
    exact .tryBlock htry hb hhandlers horelse hfinalizer
  refine .ite (fun _ => ?_) fun _ => ?_
  · exact hrest none w hw (by simp)
  · exact laidOut_optionalClause hstatement hw rfl fun orelse x horelse hx =>
      hrest orelse x hx horelse

theorem laidOut_withStatement {async : Option Token} (n : Nat)
    (hs : s.Heads first columns async) :
    Leaves (withStatement statement n async) s fun s u =>
      LaidOut first (columns.headD 0) (.stmt s) ∧ u.AtLine first columns := by
  refine .expectHead hs rfl fun withToken u hwith hu => ?_
  refine .onLine hu (yields_separated yields_withItem)
    (.ofBind (.separated (fun _ => derived_withItem) fun _ _ h => .pure h))
    (fun items h => every_row rfl h fun _ => WithItem.Derived.every) fun items v hv => ?_
  refine colonBody hstatement hv fun colon b w hb hw => ?_
  exact .spanFrom fun span => .pure ⟨.withBlock hwith hb, hw⟩

theorem laidOut_funcDef {decorators : List Decorator} {async : Option Token} (n : Nat)
    (hdecorators : ∀ d ∈ decorators, first (columns.headD 0) d.mark)
    (hs : s.Heads first columns async) :
    Leaves (funcDef statement n decorators async) s fun s u =>
      LaidOut first (columns.headD 0) (.stmt s) ∧ u.AtLine first columns := by
  refine .expectHead hs rfl fun keyword u hkeyword hu => .expectMore hu rfl fun name v hv => ?_
  refine .expectMore hv rfl fun opener w hw => ?_
  refine .optionalOnLine hw (yields_withRules fun _ h => yields_params h true _)
    (fun _ => withRules_returns fun _ h => derives_params h true _) (fun _ h => h.every_own)
    fun params x hx => .expectMore hx rfl fun closer y hy => ?_
  refine .optionalOnLine hy (yields_introduced yields_aTest)
    (fun hkind => introduced_returns (beq_iff_eq.mp hkind) fun _ => derives_aTest)
    (fun part h => every_introduced rfl h fun _ => Derives.every_outline)
    fun returns z hz => colonBody hstatement hz fun colon b _ hb hend => ?_
  exact .spanFrom fun span => .pure ⟨.funcDef hdecorators hkeyword hb, hend⟩

theorem laidOut_classDef {decorators : List Decorator} (n : Nat)
    (hdecorators : ∀ d ∈ decorators, first (columns.headD 0) d.mark)
    (hs : s.AtLine first columns) :
    Leaves (classDef statement n decorators) s fun s u =>
      LaidOut first (columns.headD 0) (.stmt s) ∧ u.AtLine first columns := by
  have hheads : s.Heads first columns none := hs
  refine .expectHead hheads rfl fun keyword u hkeyword hu => ?_
  refine .expectMore hu rfl fun name v hv => ?_
  refine .optionalOnLine hv yields_classArguments
    (fun hkind => derived_classArguments (beq_iff_eq.mp hkind))
    (fun _ => ClassArguments.Derived.every) fun arguments w hw => ?_
  refine colonBody hstatement hw fun colon b x hb hx => ?_
  exact .spanFrom fun span => .pure ⟨.classDef hdecorators hkeyword hb, hx⟩

theorem laidOut_asyncStatement (hs : s.AtLine first columns)
    (hkind : s.current.kind = .kwAsync) :
    Leaves (asyncStatement statement) s fun s u =>
      LaidOut first (columns.headD 0) (.stmt s) ∧ u.AtLine first columns := by
  refine .start fun n => .firstToken hs hkind rfl fun async u hasync hu => .peek ?_
  have hheads : u.Heads first columns (some async) := ⟨hasync, hu⟩
  split
  · exact laidOut_funcDef hstatement n (by simp) hheads
  · exact laidOut_forStatement hstatement n hheads
  · exact laidOut_withStatement hstatement n hheads
  · exact .fail

theorem laidOut_decorated (hs : s.AtLine first columns) :
    Leaves (decorated statement) s fun s u =>
      LaidOut first (columns.headD 0) (.stmt s) ∧ u.AtLine first columns := by
  refine .start fun n => ?_
  refine .manyKeeping hs (fun u hu hkind => decorator_atLine hu (beq_iff_eq.mp hkind))
    fun decorators u hdecorators hu => .peek ?_
  split
  · exact laidOut_funcDef hstatement n hdecorators hu
  · exact laidOut_classDef hstatement n hdecorators hu
  · next hkind =>
    refine .firstToken hu hkind rfl fun async v hasync hv => ?_
    exact .isAt (fun _ => laidOut_funcDef hstatement n hdecorators ⟨hasync, hv⟩) fun _ => .fail
  · exact .fail

theorem laidOut_statementBody : Lays first (statementBody statement) := by
  intro s columns hs
  apply Leaves.peek
  split
  · next hkind => exact laidOut_ifStatement hstatement hs hkind
  · next hkind => exact laidOut_whileStatement hstatement hs hkind
  · exact .start fun n => laidOut_forStatement hstatement n hs
  · next hkind => exact laidOut_tryStatement hstatement hs hkind
  · exact .start fun n => laidOut_withStatement hstatement n hs
  · exact .start fun n => laidOut_funcDef hstatement n (by simp) hs
  · exact .start fun n => laidOut_classDef hstatement n (by simp) hs
  · exact laidOut_decorated hstatement hs
  · next hkind => exact laidOut_asyncStatement hstatement hs hkind
  · exact .fail
  · exact (line_atLine hs).bind fun l u h => .pure h

end Statement

/-! ## Tying the knot -/

theorem laidOut_statementUpTo (n : Nat) : Lays first (statementUpTo n) := by
  induction n with
  | zero => exact fun _ _ _ => .fail
  | succ n ih => exact laidOut_statementBody ih

theorem laidOut_statement : Lays first statement := by
  intro s columns hs stmt u h
  exact laidOut_statementUpTo _ s columns hs stmt u h

/-- The statements of a module begin in column zero. -/
theorem laidOut_moduleRoot (hs : s.AtLine first []) : Returns moduleRoot s fun tree =>
    ∀ s ∈ tree.statements, Compound.LaidOut first 0 (.stmt s) := by
  refine .start fun n => ?_
  refine .manyKeeping hs (fun u hu _ => laidOut_statement u [] hu)
    fun statements u hstatements _ => ?_
  exact .skip fun last v => .spanFrom fun span => .pure hstatements

end Grammar

end Verbatim
