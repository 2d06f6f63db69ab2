import Verbatim.Tree.Outline

/-!
# Writing trees back

A buffer takes up text, tokens with their trivia, and whole trees. A tree writes its tokens
in order, so a tree that was parsed from a source writes that source.
-/

namespace Verbatim

structure SourceBuffer where
  text : Text
deriving DecidableEq, Repr

namespace SourceBuffer

def empty : SourceBuffer := ⟨[]⟩

def addText (buffer : SourceBuffer) (t : Text) : SourceBuffer :=
  ⟨buffer.text ++ t⟩

def addToken (buffer : SourceBuffer) (token : Token) : SourceBuffer :=
  buffer.addText token.fullText

def addTokens (buffer : SourceBuffer) (tokens : List Token) : SourceBuffer :=
  tokens.foldl addToken buffer

def addPieces (buffer : SourceBuffer) (pieces : List Outline) : SourceBuffer :=
  buffer.addTokens (Outline.tokensOf pieces)

def size (buffer : SourceBuffer) : Nat :=
  Text.size buffer.text

def isEmpty (buffer : SourceBuffer) : Bool :=
  buffer.text.isEmpty

theorem text_addTokens (buffer : SourceBuffer) (tokens : List Token) :
    (buffer.addTokens tokens).text = buffer.text ++ Text.ofTokens tokens := by
  induction tokens generalizing buffer with
  | nil => simp [addTokens, Text.ofTokens]
  | cons token tokens ih =>
    have := ih (buffer.addToken token)
    simp only [addTokens, List.foldl_cons, Text.ofTokens, List.flatMap_cons] at this ⊢
    rw [this]
    simp [addToken, addText]

theorem text_addPieces (buffer : SourceBuffer) (pieces : List Outline) :
    (buffer.addPieces pieces).text = buffer.text ++ Outline.sourceOf pieces :=
  text_addTokens buffer _

end SourceBuffer

end Verbatim
