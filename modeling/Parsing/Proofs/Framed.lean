import Parsing.Proofs.Copies

/-!
# Runs through the same frames

Two runs whose sessions have the same frames open the same frames and find the same cells filled, so
that they build the same parsers at the same moments.  A comparison is *framed* if the sessions that
it compares have the same frames, and go on comparing when both open a frame or both build a cell
(`Comparison.Framed`).  For such a comparison the remaining operations are in step as well: a text
that is built anew (`Framed.fresh`) and a deferred parser (`Framed.enter`), provided that what is
built for them is.

Most comparisons are of this kind: the sessions have the same frames, and something holds of the
two journals that the building of cells does not touch (`framed_of_journals`).
-/

namespace Parsing

variable {ε : Type} {ρ ρ' : Type → Type} {α : Type}

/-- Sessions that compare have the same frames, and go on comparing when both build something. -/
structure Comparison.Framed (L : Comparison) : Prop where
  frames {s t : Session} (h : L.session s t) : s.frames = t.frames
  openFrame {s t : Session} (h : L.session s t) : L.session s.openFrame.2 t.openFrame.2
  fill {s t : Session} (h : L.session s t) (cell : Cell) (frame : Frame) :
    L.session (s.fill cell frame) (t.fill cell frame)
  built {s t : Session} (h : L.session s t) (cell : Cell) (label : Option String)
    (succeeded : Bool) :
    L.session (s.record (.built cell label succeeded)) (t.record (.built cell label succeeded))

namespace Comparison

variable {L : Comparison}

/-- Sessions may be compared by their frames and by anything about their journals that does not
depend on the cells built. -/
theorem framed_of_journals (J : List Event → List Event → Prop)
    (iff : ∀ s t, L.session s t ↔ s.frames = t.frames ∧ J s.journal t.journal)
    (built : ∀ {j j'}, J j j' → ∀ cell label succeeded,
      J (.built cell label succeeded :: j) (.built cell label succeeded :: j')) : L.Framed where
  frames h := ((iff _ _).mp h).1
  openFrame {s t} h := by
    obtain ⟨frames, journals⟩ := (iff s t).mp h
    exact (iff _ _).mpr ⟨congrArg (Array.push · []) frames, journals⟩
  fill {s t} h cell frame := by
    obtain ⟨frames, journals⟩ := (iff s t).mp h
    exact (iff _ _).mpr ⟨congrArg
      (Array.modify · cell.frame fun sites => (cell.site, frame) :: sites) frames, journals⟩
  built {s t} h cell label succeeded := by
    obtain ⟨frames, journals⟩ := (iff s t).mp h
    exact (iff _ _).mpr ⟨frames, built journals cell label succeeded⟩

namespace Framed

variable (hL : L.Framed)

include hL

theorem fresh {p p' : Frame → Behaviour ε α} (hp : ∀ frame, L.InStep (p frame) (p' frame)) :
    L.InStep (Behaviour.fresh p) (Behaviour.fresh p') := by
  intro c c' s t hc hs
  have same : s.openFrame.1 = t.openFrame.1 := congrArg Array.size (hL.frames hs)
  show L.Reply (p s.openFrame.1 c _) (p' t.openFrame.1 c' _)
  rw [← same]
  exact hp s.openFrame.1 c c' _ _ hc (hL.openFrame hs)

/-- Deferred parsers are entered in step if what is built for them in each frame runs in step, or
raises the same exception. -/
theorem enter {g : Grammar ε ρ} {g' : Grammar ε ρ'}
    {run : {α : Type} → Parser ε ρ α → Behaviour ε α}
    {run' : {α : Type} → Parser ε ρ' α → Behaviour ε α} (cell : Cell) {rule : ρ α} {rule' : ρ' α}
    (label : g.label rule = g'.label rule')
    (build : ∀ frame, Agree (fun p p' => L.InStep (run p) (run' p')) (g.build rule frame)
      (g'.build rule' frame)) :
    L.InStep (g.enter run cell rule) (g'.enter run' cell rule') := by
  intro c c' s t hc hs
  have full : s.built? cell = t.built? cell := by
    unfold Session.built?
    rw [hL.frames hs]
  simp only [Grammar.enter, full]
  cases t.built? cell with
  | some frame =>
      have h := build frame
      dsimp only
      generalize g.build rule frame = x, g'.build rule' frame = x' at h ⊢
      cases h with
      | ok h => exact h c c' s t hc hs
      | error e => exact .thrown (.raised e) hs
  | none =>
      -- The sessions have as many frames, so both build in the same one.
      have same : s.openFrame.1 = t.openFrame.1 := congrArg Array.size (hL.frames hs)
      have h := build t.openFrame.1
      simp only [same, label]
      generalize g.build rule t.openFrame.1 = x, g'.build rule' t.openFrame.1 = x' at h ⊢
      cases h with
      | ok h => exact h c c' _ _ hc (hL.fill (hL.built (hL.openFrame hs) ..) ..)
      | error e => exact .thrown (.raised e) (hL.built (hL.openFrame hs) ..)

end Framed

end Comparison

end Parsing
