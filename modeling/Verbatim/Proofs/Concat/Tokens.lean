import Verbatim.Proofs.Concat.LastBreak
import Verbatim.Proofs.Concat.Resume

/-!
# The tokens of two texts

The first text has its tokens up to the seam, where its open blocks are closed at the end of the
text. With the other text behind it the same blocks are closed by the first line of that one. So
both have the same tokens in front of the seam, and behind it there are those of the other text.
-/

namespace Verbatim

namespace Scanner

variable {s u : Scanner} {options : Options} {tokens tokens' : List Token} {a b : Text}

/-! ## Runs -/

theorem Scans.steps {failure : Option LexicalError} (h : s.Scans tokens failure)
    (hnone : failure = none) : ∃ u, s.Steps tokens u ∧ u.rest = [] := by
  induction h with
  | fault => cases hnone
  | done hnext hlast => exact ⟨_, .snoc .refl hnext, rest_of_endOfFile hnext hlast⟩
  | step hnext _ _ ih =>
    obtain ⟨u, hsteps, hrest⟩ := ih hnone
    exact ⟨u, .cons hnext hsteps, hrest⟩

theorem Scans.unique {failure failure' : Option LexicalError} (h : s.Scans tokens failure)
    (h' : s.Scans tokens' failure') : tokens = tokens' ∧ failure = failure' := by
  induction h generalizing tokens' failure' with
  | fault hnext =>
    cases h' with
    | fault hother =>
      cases hnext.symm.trans hother
      exact ⟨rfl, rfl⟩
    | done hother => cases hnext.symm.trans hother
    | step hother => cases hnext.symm.trans hother
  | done hnext hlast =>
    cases h' with
    | fault hother => cases hnext.symm.trans hother
    | done hother =>
      cases hnext.symm.trans hother
      exact ⟨rfl, rfl⟩
    | step hother hkind =>
      cases hnext.symm.trans hother
      exact absurd hlast hkind
  | step hnext hkind _ ih =>
    cases h' with
    | fault hother => cases hnext.symm.trans hother
    | done hother hlast =>
      cases hnext.symm.trans hother
      exact absurd hlast hkind
    | step hother _ hrest =>
      cases hnext.symm.trans hother
      obtain ⟨rfl, rfl⟩ := ih hrest
      exact ⟨rfl, rfl⟩

theorem Steps.scans {failure : Option LexicalError} (h : s.Steps tokens u)
    (htokens : ∀ token ∈ tokens, token.kind ≠ .endOfFile) (hu : u.Scans tokens' failure) :
    s.Scans (tokens ++ tokens') failure := by
  induction h generalizing tokens' with
  | refl => exact hu
  | snoc _ hnext ih =>
    obtain ⟨hbefore, hlast⟩ := List.forall_mem_append.mp htokens
    rw [List.append_assoc]
    exact ih hbefore (.step hnext (hlast _ (List.mem_singleton_self _)) hu)

/-- A run goes on from where the first of its steps lead. -/
theorem Scans.of_steps {before : List Token} (h : s.Scans tokens none)
    (hsteps : s.Steps before u)
    (hinside : ∀ t ∈ before, t.kind ≠ .endOfFile) :
    ∃ more, tokens = before ++ more ∧ u.Scans more none := by
  induction hsteps with
  | refl => exact ⟨tokens, rfl, h⟩
  | snoc _ hnext ih =>
    obtain ⟨hbefore, hlast⟩ := List.forall_mem_append.mp hinside
    obtain ⟨more, rfl, hmore⟩ := ih hbefore
    rcases hmore.of_next hnext with ⟨hend, -⟩ | ⟨rest, -, rfl, hrest⟩
    · exact absurd hend (hlast _ (List.mem_singleton_self _))
    · exact ⟨rest, by rw [List.append_assoc, List.singleton_append], hrest⟩

/-- A token of a run comes from a step that the tokens in front of it lead up to. -/
theorem Scans.exists_step {before after : List Token} {token : Token}
    (h : s.Scans (before ++ token :: after) none) :
    ∃ y z, s.Steps before y ∧ y.next = (.ok token, z) ∧ ∀ t ∈ before, t.kind ≠ .endOfFile := by
  induction before generalizing s with
  | nil =>
    cases h with
    | done hnext => exact ⟨s, _, .refl, hnext, List.forall_mem_nil _⟩
    | step hnext => exact ⟨s, _, .refl, hnext, List.forall_mem_nil _⟩
  | cons first before ih =>
    generalize hrest : before ++ token :: after = rest at h
    rw [List.cons_append, hrest] at h
    cases h with
    | done => simp at hrest
    | step hnext hkind hmore =>
      subst hrest
      obtain ⟨y, z, hsteps, hlast, hinside⟩ := ih hmore
      exact ⟨y, z, .cons hnext hsteps, hlast, List.forall_mem_cons.mpr ⟨hkind, hinside⟩⟩

theorem scans_nil (options : Options) :
    (ofText options []).Scans [⟨.endOfFile, .empty 0, [], []⟩] none :=
  .done rfl rfl

/-! ## Where the seam is -/

theorem Steps.newline (h : (ofText options a).Steps tokens u) (hstart : u.atLineStart = true) :
    ∀ token ∈ tokens.getLast?, token.kind = .newline := by
  cases h with
  | refl => simp
  | snoc before hnext =>
    have hturn := before.attempts.steady.turn
    rw [hnext] at hturn
    intro token hmem
    rw [List.getLast?_concat, Option.mem_some_iff] at hmem
    subst hmem
    cases hturn with
    | indent _ _ _ _ _ _ _ atLineStart => simp [hstart] at atLineStart
    | dedent _ _ _ _ _ _ _ _ atLineStart => simp [hstart] at atLineStart
    | token takes => simpa [hstart] using takes.atLineStart

theorem Steps.tabSize_eq (h : (ofText options a).Steps tokens u) (hstart : u.atLineStart = true) :
    u.tabSize = options.effectiveTabSize := by
  have hplaced : Placed options.effectiveTabSize u := by
    clear hstart
    induction h with
    | refl => exact .inr ⟨_, .start rfl rfl rfl rfl rfl⟩
    | snoc _ hnext ih => exact ih.next hnext
  rcases hplaced with hended | ⟨layout, hlaid⟩
  · rw [hended.atLineStart] at hstart
    cases hstart
  · cases hlaid with
    | start htabSize => exact htabSize
    | indent hu => exact hu.tabSize
    | dedents hu => exact hu.tabSize
    | inside htabSize => exact htabSize

/-- An empty text is all in front of a seam. -/
theorem leadsToSeam_nil (options : Options) :
    (ofText options []).LeadsToSeam [] (ofText options []) := by
  refine .blank rfl fun b => ?_
  refine ⟨{ (ofText options []).extend b with atLineStart := false }, ⟨.inl rfl, ?_⟩,
    enterLineIfDue_of_atLineStart rfl⟩
  exact ⟨rfl, rfl, rfl, rfl, rfl⟩

/-- A text that is empty or whose last byte is in a line break has a seam at its end. -/
theorem Scans.exists_seam (h : (ofText options a).Scans tokens none)
    (hclosed : Token.trackAll [] tokens = some [])
    (hseam : a = [] ∨ Token.EndInBreak tokens a.size) :
    ∃ before after u, tokens = before ++ after ∧ (ofText options a).LeadsToSeam before u ∧
      u.Scans after none := by
  rcases hseam with rfl | hbreak
  · exact ⟨[], tokens, ofText options [], rfl, leadsToSeam_nil options, h⟩
  · obtain ⟨u, hsteps, hrest⟩ := h.steps rfl
    obtain ⟨hends, hlast⟩ := hbreak.breaksAt hsteps hrest
    have hend : (ofText options a).textEnd = a.size := Nat.zero_add _
    exact h.leadsToSeam rfl (steady_ofText options a) hends hclosed (by rwa [hend])

/-- A row of markers at one place. -/
abbrev dedents (offset n : Nat) : List Token :=
  List.replicate n ⟨.dedent, .empty offset, [], []⟩

/-- At the end of the text the open blocks are closed. -/
theorem LeadsToSeam.after {before after : List Token}
    (h : (ofText options a).LeadsToSeam before u) (hafter : u.Scans after none) :
    ∃ offset last, after = dedents offset u.columns.length ++ [last] ∧
      last.kind = .endOfFile := by
  obtain ⟨offset, tokens', hscans, hwords⟩ := h.atEnd.scans h.steps.attempts.steady h.atLineStart
    (h.steps.tabSize_eq h.atLineStart) (scans_nil options) (by simp)
  obtain ⟨last, rfl, hlast⟩ := List.map_eq_singleton_iff.mp hwords
  refine ⟨offset, last, (hafter.unique hscans).1, ?_⟩
  exact Relabelling.words.kind_eq hlast

/-- Where the tokens of both texts together come from: those of the first one but for the last,
with which its text ends, and those of the other one. -/
structure Appends (options : Options) (a b : Text) (init tokens₂ init' tokens₂' : List Token) :
    Prop where
  scans : (ofText options (a ++ b)).Scans (init' ++ tokens₂') none
  front : init'.map Relabelling.words.token = init.map Relabelling.words.token
  behind : tokens₂'.map Relabelling.words.token = tokens₂.map Relabelling.words.token
  closed : ∀ t ∈ init.getLast?, t.kind = .newline ∨ t.kind = .dedent

theorem Scans.inside {init : List Token} {last : Token} (h : s.Scans (init ++ [last]) none) :
    ∀ t ∈ init, t.kind ≠ .endOfFile := by
  induction init generalizing s with
  | nil => simp
  | cons first init ih =>
    generalize hrest : init ++ [last] = rest at h
    rw [List.cons_append, hrest] at h
    cases h with
    | done => simp at hrest
    | step _ hkind hmore =>
      subst hrest
      exact List.forall_mem_cons.mpr ⟨hkind, ih hmore⟩

theorem Scans.append {tokens₂ : List Token} (h : (ofText options a).Scans tokens none)
    (hclosed : Token.trackAll [] tokens = some [])
    (hseam : a = [] ∨ Token.EndInBreak tokens a.size)
    (h₂ : (ofText options b).Scans tokens₂ none) (hfirst : ∀ t ∈ tokens₂.head?, t.kind ≠ .indent) :
    ∃ init last init' tokens₂', tokens = init ++ [last] ∧ last.kind = .endOfFile ∧
      Appends options a b init tokens₂ init' tokens₂' := by
  obtain ⟨before, after, u, rfl, hleads, hafter⟩ := h.exists_seam hclosed hseam
  obtain ⟨offset, last, rfl, hlast⟩ := hleads.after hafter
  obtain ⟨before', z, hsteps, hfront, hz⟩ := hleads.further b
  obtain ⟨offset', tokens₂', hscans, hbehind⟩ := hz.scans hleads.steps.attempts.steady
    hleads.atLineStart (hleads.steps.tabSize_eq hleads.atLineStart) h₂ hfirst
  rw [← List.append_assoc] at h
  refine ⟨before ++ dedents offset u.columns.length, last,
    before' ++ dedents offset' u.columns.length, tokens₂', (List.append_assoc _ _ _).symm, hlast,
    ?_, ?_, hbehind, ?_⟩
  · rw [List.append_assoc]
    have hinside := (List.forall_mem_append.mp h.inside).1
    exact hsteps.scans (Relabelling.forall_kind_ne hfront hinside) hscans
  · rw [List.map_append, List.map_append, hfront, dedents, dedents, List.map_replicate,
      List.map_replicate]
    rfl
  · intro t ht
    rw [List.getLast?_append, dedents, List.getLast?_replicate] at ht
    split at ht
    · exact .inl (hleads.steps.newline hleads.atLineStart t ht)
    · cases ht
      exact .inr rfl

end Scanner

end Verbatim
