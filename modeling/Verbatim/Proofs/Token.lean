import Verbatim.Token

/-!
# Tokens in a row

Facts about the tokens of a source that both the scanner and the grammar are proved
against: which kinds have no text, and what it means for tokens to stand in order.
-/

namespace Verbatim

namespace TokenKind

def isZeroWidth : TokenKind → Bool
  | .indent | .dedent | .endOfFile => true
  | _ => false

theorem isZeroWidth_iff {kind : TokenKind} :
    kind.isZeroWidth = true ↔ kind = .indent ∨ kind = .dedent ∨ kind = .endOfFile := by
  cases kind <;> decide

end TokenKind

def Token.InOrder (tokens : List Token) : Prop :=
  tokens.Pairwise fun a b => a.span.stop ≤ b.span.start

/-- A span from the start of the first of some tokens to the end of the last one. -/
def Span.Spans (a : Span) (tokens : List Token) : Prop :=
  ∃ first last, tokens.head? = some first ∧ tokens.getLast? = some last ∧
    a = Span.upTo first.span.start last.span.stop

theorem Span.Spans.ne_nil {a : Span} {tokens : List Token} (h : a.Spans tokens) :
    tokens ≠ [] := by
  obtain ⟨first, last, hfirst, _⟩ := h
  rintro rfl
  cases hfirst

theorem Span.upTo_start_stop (a : Span) : Span.upTo a.start a.stop = a := by
  have := a.start_le_stop
  simp only [Span.upTo]
  congr 1
  omega

end Verbatim
