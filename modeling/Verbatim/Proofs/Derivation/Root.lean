import Verbatim.Proofs.Derivation.Inside
import Verbatim.Proofs.Derivation.ParseStatement
import Verbatim.Proofs.Grammar.Root

/-!
# Parsed sources are derived

Whatever a source parses to, from any of the entry points, the tree as a whole and every node
in it are derived.
-/

namespace Verbatim

open Outline (Every)

namespace Grammar

open Verbatim.Parser

variable {s : Stream}

theorem newlines_leave {α : Type} {f : List Token → Parser α} {post : α → Stream → Prop}
    (h : ∀ newlines u, (∀ t ∈ newlines, t.kind = .newline) → Leaves (f newlines) u post) :
    Leaves (newlines >>= f) s post := by
  refine .manyBy (fun u hkind => ?_) h
  intro t v ht
  rw [(bump_eq_ok ht).1]
  exact beq_iff_eq.mp hkind

theorem endOfFile_leaves {α : Type} {f : Token → Parser α} {post : α → Stream → Prop}
    (h : ∀ t u, t.kind = .endOfFile → Leaves (f t) u post) :
    Leaves (endOfFile >>= f) s post := by
  intro a v ha
  obtain ⟨t, u, ht, hf⟩ := bind_eq_ok.mp ha
  exact h t u (endOfFile_eq_ok ht).2.1 a v hf

theorem moduleRoot_returns : Returns moduleRoot s ModuleTree.Derived := by
  refine .start fun n => .manyBy (fun u _ => derived_statement) fun statements u h => ?_
  exact endOfFile_leaves fun last v hlast => .spanFrom fun span => .pure ⟨h, hlast⟩

theorem expressionRoot_returns : Returns expressionRoot s ExpressionTree.Derived := by
  refine .start fun n => derives_aTestList.bind fun body u h => ?_
  refine newlines_leave fun newlines v hnewlines => endOfFile_leaves fun last w hlast => ?_
  exact .spanFrom fun span => .pure ⟨h, hnewlines, hlast⟩

theorem signatureRoot_returns : Returns signatureRoot s SignatureTree.Derived := by
  refine .start fun n => .expect fun opener u hopener => ?_
  refine .optionalBy (fun _ => withRules_returns fun _ h => derives_typeList h)
    fun arguments v harguments => .expect fun closer w hcloser => .expect fun arrow x harrow => ?_
  refine derives_aTest.bind fun result y hresult => ?_
  refine newlines_leave fun newlines z hnewlines => endOfFile_leaves fun last _ hlast => ?_
  exact .spanFrom fun span =>
    .pure ⟨hopener, harguments, hcloser, harrow, hresult, hnewlines, hlast⟩

end Grammar

theorem Parses.composes {options : Options} {t : Text} {span : Span} {pieces : List Outline}
    {C : List Outline → Prop} (h : Parses options t span pieces) (hC : ComposesBlocks C) :
    C pieces := by
  cases h with
  | @module tree h =>
    obtain ⟨s, u, -, hroot⟩ := parseWith_eq_ok h
    exact (Grammar.moduleRoot_returns tree u hroot).composes hC
  | @expression tree h =>
    obtain ⟨s, u, -, hroot⟩ := parseWith_eq_ok h
    exact (Grammar.expressionRoot_returns tree u hroot).composes hC
  | @signature tree h =>
    obtain ⟨s, u, -, hroot⟩ := parseWith_eq_ok h
    exact (Grammar.signatureRoot_returns tree u hroot).composes hC

theorem Parses.every_derived {options : Options} {t : Text} {span : Span} {pieces : List Outline}
    (h : Parses options t span pieces) : Every Event.Derived pieces :=
  h.composes Outline.derived_composes

end Verbatim
