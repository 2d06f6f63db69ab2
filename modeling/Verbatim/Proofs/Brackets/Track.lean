import Verbatim.Bracket
import Verbatim.Token

/-!
# Brackets in a row of tokens

An opener opens a bracket at its offset, and a closer closes the innermost open one if that
is of its shape. A row of tokens that closes all that it opens can stand inside any brackets.
-/

namespace Verbatim

namespace Token

/-- The open brackets after a token, innermost first, if the token may stand there. -/
def track (opened : List (Bracket × Nat)) (token : Token) : Option (List (Bracket × Nat)) :=
  match token.kind.opens?, token.kind.closes? with
  | some bracket, _ => some ((bracket, token.span.start) :: opened)
  | none, none => some opened
  | none, some bracket =>
    match opened with
    | [] => none
    | (opener, _) :: outer => if opener = bracket then some outer else none

/-- The open brackets after some tokens. -/
def trackAll (opened : List (Bracket × Nat)) (tokens : List Token) :
    Option (List (Bracket × Nat)) :=
  tokens.foldlM track opened

/-- The tokens leave the brackets that are open around them as they are. -/
def Closed (tokens : List Token) : Prop :=
  ∀ opened, trackAll opened tokens = some opened

variable {opened opened' : List (Bracket × Nat)} {token : Token} {tokens : List Token}

theorem track_of_no_bracket (hopens : token.kind.opens? = none)
    (hcloses : token.kind.closes? = none) : token.track opened = some opened := by
  simp [track, hopens, hcloses]

theorem track_opener {b : Bracket} (h : token.kind = b.openKind) :
    token.track opened = some ((b, token.span.start) :: opened) := by
  rw [track, TokenKind.opens?_eq_some_iff.mpr h]

theorem track_closer {b : Bracket} {offset : Nat} (h : token.kind = b.closeKind) :
    token.track ((b, offset) :: opened) = some opened := by
  have hopens : token.kind.opens? = none := by
    rw [h]
    cases b <;> decide
  simp [track, hopens, TokenKind.closes?_eq_some_iff.mpr h]

theorem trackAll_cons :
    trackAll opened (token :: tokens) =
      (token.track opened).bind fun opened => trackAll opened tokens := by
  rw [trackAll, List.foldlM_cons]
  rfl

theorem trackAll_append {more : List Token} (h : trackAll opened tokens = some opened') :
    trackAll opened (tokens ++ more) = trackAll opened' more := by
  rw [trackAll, List.foldlM_append]
  change (trackAll opened tokens).bind _ = _
  rw [h]
  rfl

theorem trackAll_singleton : trackAll opened [token] = token.track opened := by
  rw [trackAll_cons]
  exact Option.bind_fun_some _

theorem closed_nil : Closed [] :=
  fun _ => rfl

theorem closed_append {more : List Token} (h : Closed tokens) (h' : Closed more) :
    Closed (tokens ++ more) := by
  intro opened
  rw [trackAll_append (h opened)]
  exact h' opened

theorem closed_singleton (hopens : token.kind.opens? = none)
    (hcloses : token.kind.closes? = none) : Closed [token] := by
  intro opened
  rw [trackAll_singleton]
  exact track_of_no_bracket hopens hcloses

theorem closed_enclosed {b : Bracket} {opener closer : Token} (hopener : opener.kind = b.openKind)
    (hcloser : closer.kind = b.closeKind) (h : Closed tokens) :
    Closed (opener :: (tokens ++ [closer])) := by
  intro opened
  rw [trackAll_cons, track_opener hopener, Option.bind_some, trackAll_append (h _),
    trackAll_singleton, track_closer hcloser]

end Token

end Verbatim
