import Mathlib.Order.Bounds.Defs
import Parsing.Brackets
import Parsing.Proofs.Recognition
import Parsing.Proofs.Stops

/-!
# Nested brackets are recognised

A group of brackets is the rendering of a finite tree, whose children stand between the brackets of
their parent.  **The parser reads the group with which a text begins, and comes to the height of its
tree; if the text begins with none, it fails at the end of the longest beginning of the text that a
group begins with too** (`run_brackets`).

Two things are shown along the grammar.  A run recognises the groups where its fuel exceeds the
number of characters that remain (`entered_recognises`): a repetition between brackets is entered
with one character less.  And a run that fails has read the beginning of a group and stopped before
something that is no bracket at all, or it has read nothing before something that opens none
(`Halted`).  A group within a group that fails behind its bracket fails for all that are around it,
while one that is not there ends the repetition, whose place is then looked at once more, for the
closing bracket.
-/

namespace Parsing.Brackets

open Behaviour (Recognises Stops)
open Parsing.Parser hiding pure

/-! ### Trees -/

/-- A finite tree, as the list of its children. -/
inductive Tree where
  | node (children : List Tree)

mutual

/-- The brackets of a node with its children between them. -/
def Tree.render : Tree → List Char
  | .node children => '[' :: (renderAll children ++ [']'])

/-- Trees one behind the other. -/
def renderAll : List Tree → List Char
  | [] => []
  | tree :: trees => tree.render ++ renderAll trees

end

mutual

/-- The number of nodes from the root to the deepest leaf. -/
def Tree.height : Tree → Nat
  | .node children => 1 + (heights children).max?.getD 0

/-- The heights of trees. -/
def heights : List Tree → List Nat
  | [] => []
  | tree :: trees => tree.height :: heights trees

end

/-- The brackets. -/
def bracket (x : Char) : Bool := x == '[' || x == ']'

theorem Tree.render_ne_nil (tree : Tree) : tree.render ≠ [] := by
  cases tree
  simp [Tree.render]

theorem renderAll_append (trees trees' : List Tree) :
    renderAll (trees ++ trees') = renderAll trees ++ renderAll trees' := by
  induction trees with
  | nil => rfl
  | cons tree trees ih => rw [List.cons_append, renderAll, renderAll, ih, List.append_assoc]

mutual

/-- There is nothing but brackets in a rendering. -/
theorem Tree.bracket_of_mem {x : Char} : ∀ tree : Tree, x ∈ tree.render → bracket x = true
  | .node children, h => by
      rcases List.mem_cons.mp h with rfl | h
      · rfl
      · rcases List.mem_append.mp h with h | h
        · exact bracket_of_mem_renderAll children h
        · cases List.mem_singleton.mp h
          rfl

theorem bracket_of_mem_renderAll {x : Char} :
    ∀ trees : List Tree, x ∈ renderAll trees → bracket x = true
  | [], h => nomatch h
  | tree :: trees, h => by
      rcases List.mem_append.mp h with h | h
      · exact tree.bracket_of_mem h
      · exact bracket_of_mem_renderAll trees h

end

mutual

/-- A text begins with the rendering of at most one tree. -/
theorem Tree.render_append_inj {r r' : List Char} : ∀ {tree tree' : Tree},
    tree.render ++ r = tree'.render ++ r' → tree = tree' ∧ r = r'
  | .node children, .node children', h => by
      simp only [Tree.render, List.cons_append, List.append_assoc, List.cons.injEq, true_and] at h
      obtain ⟨rfl, rfl⟩ := renderAll_append_inj h
      exact ⟨rfl, rfl⟩

theorem renderAll_append_inj {r r' : List Char} : ∀ {trees trees' : List Tree},
    renderAll trees ++ ']' :: r = renderAll trees' ++ ']' :: r' → trees = trees' ∧ r = r'
  | [], [], h => ⟨rfl, (List.cons.inj h).2⟩
  | [], .node _ :: _, h => by simp [renderAll, Tree.render] at h
  | .node _ :: _, [], h => by simp [renderAll, Tree.render] at h
  | tree :: trees, tree' :: trees', h => by
      simp only [renderAll, List.append_assoc] at h
      obtain ⟨rfl, behind⟩ := Tree.render_append_inj h
      obtain ⟨rfl, rfl⟩ := renderAll_append_inj behind
      exact ⟨rfl, rfl⟩

end

/-! ### Groups are recognised -/

/-- The words that render a tree, with its height. -/
def Group (w : List Char) (h : Nat) : Prop := ∃ tree : Tree, tree.render = w ∧ tree.height = h

theorem star_group_iff {w : List Char} {hs : List Nat} :
    Star Group w hs ↔ ∃ trees, renderAll trees = w ∧ heights trees = hs := by
  constructor
  · intro h
    induction h with
    | nil => exact ⟨[], rfl, rfl⟩
    | cons h _ ih =>
        obtain ⟨tree, rfl, rfl⟩ := h
        obtain ⟨trees, rfl, rfl⟩ := ih
        exact ⟨tree :: trees, rfl, rfl⟩
  · rintro ⟨trees, rfl, rfl⟩
    induction trees with
    | nil => exact .nil
    | cons tree trees ih => exact .cons ⟨tree, rfl, rfl⟩ ih

section

variable {ε : Type} {ρ : Type → Type} {rule : ρ Nat}
  {enter : {α : Type} → Cell → ρ α → Behaviour ε α} {rounds n : Nat}

/-- If the groups between the brackets are recognised where fewer than `n` characters remain, then
so is the group where fewer than `n + 1` do. -/
theorem group_recognises
    (inner : ∀ cell, Recognises n (enter cell rule) Group (fun _ => True) (Avoids (· == '[')))
    (hn : n + 1 ≤ rounds) (cell : Cell) :
    Recognises (n + 1) ((group rule cell : Parser ε ρ Nat).behaviour enter rounds) Group
      (fun _ => True) (Avoids (· == '[')) := by
  have item : Recognises n ((deferred cell rule : Parser ε ρ Nat).behaviour enter rounds) Group
      (fun _ => True) (Avoids (· == '[')) := inner cell
  have items : Recognises n
      ((many (deferred cell rule) : Parser ε ρ (List Nat)).behaviour enter rounds) (Star Group)
      (Avoids (· == '[')) fun _ => False :=
    many_recognises item (by rintro _ _ ⟨tree, rfl, -⟩; exact tree.render_ne_nil)
      (fun _ _ _ _ _ => trivial) (fun _ => id) (Nat.le_of_succ_le hn)
  have closed := keepLeft_recognises items (char_recognises ']') (by
    rintro _ _ r ⟨rfl, -⟩ -
    exact Avoids.cons_iff.mpr rfl)
  have opened := keepRight_recognises_behind (n := n + 1) (char_recognises '[') closed
    (by rintro _ _ ⟨rfl, -⟩; exact Nat.le_refl _) (fun _ _ _ _ _ => trivial)
  refine (map_recognises (fun inner => 1 + inner.max?.getD 0) opened).of_iff fun w h => ?_
  constructor
  · rintro ⟨hs, ⟨_, _, _, ⟨rfl, -⟩, ⟨v, _, _, star, ⟨rfl, -⟩, rfl⟩, rfl⟩, rfl⟩
    obtain ⟨trees, rfl, rfl⟩ := star_group_iff.mp star
    exact ⟨.node trees, rfl, rfl⟩
  · rintro ⟨⟨trees⟩, rfl, rfl⟩
    exact ⟨heights trees, ⟨['['], _, '[', ⟨rfl, rfl⟩,
      ⟨renderAll trees, _, ']', star_group_iff.mpr ⟨trees, rfl, rfl⟩, ⟨rfl, rfl⟩, rfl⟩, rfl⟩, rfl⟩

end

theorem entered_meets {n : Nat} {cell : Cell} {c : Cursor} {Q : Verdict Empty Nat → Prop}
    (h : ∀ frame, ((group .group ⟨frame, 0⟩).behaviour (grammar.entered n) n).Meets c Q) :
    (grammar.entered (n + 1) cell .group).Meets c Q := by
  refine Grammar.enter_meets (fun frame p hp => ?_) fun _ _ hp => nomatch hp
  cases hp
  rw [Grammar.run_eq]
  exact h frame

theorem entered_recognises : ∀ (n : Nat) (cell : Cell),
    Recognises n (grammar.entered (n + 1) cell .group) Group (fun _ => True) (Avoids (· == '['))
  | 0, _ => .zero ..
  | n + 1, _ => by
      -- What is between the brackets is entered behind the first of them, with one unit of fuel
      -- less and one character less.
      have h (frame : Frame) :=
        group_recognises (entered_recognises n) (Nat.le_refl (n + 1)) ⟨frame, 0⟩
      exact ⟨fun c hc => entered_meets fun frame => (h frame).sound c hc,
        fun hc hw hr hd => entered_meets fun frame => (h frame).complete hc hw hr hd,
        fun c hc hN => entered_meets fun frame => (h frame).absent c hc hN⟩

/-! ### Where a group breaks off -/

/-- What has been read of a group, and what stands behind it, where a run fails: nothing, before
what opens no group, or the beginning of a group, before what is no bracket. -/
inductive Halted : List Char → List Char → Prop where
  | absent {r : List Char} (h : ∀ x ∈ r.head?, x ≠ '[') : Halted [] r
  | broken {u v r : List Char} {tree : Tree} (begun : u ≠ []) (h : tree.render = u ++ v)
      (wrong : ∀ x ∈ r.head?, bracket x = false) : Halted u r

theorem Halted.of_nil {r : List Char} (h : Halted [] r) : ∀ x ∈ r.head?, x ≠ '[' := by
  cases h with
  | absent h => exact h
  | broken begun _ _ => exact absurd rfl begun

/-- The beginning of the text that has been read is the longest that a group begins with too. -/
theorem Halted.isGreatest {u r : List Char} (h : Halted u r) :
    IsGreatest {n | n ≤ (u ++ r).length ∧ ∃ (tree : Tree) (v : List Char),
      tree.render = (u ++ r).take n ++ v} u.length := by
  constructor
  · refine ⟨by simp, ?_⟩
    rw [List.take_left]
    cases h with
    | absent _ => exact ⟨.node [], _, rfl⟩
    | broken _ h _ => exact ⟨_, _, h⟩
  · rintro n ⟨hn, tree, v, begun⟩
    refine Nat.le_of_not_lt fun further => ?_
    cases r with
    | nil => exact absurd hn (by simpa using further)
    | cons x r =>
        -- The group would have to go on with `x`.
        obtain ⟨k, rfl⟩ := Nat.exists_eq_add_of_lt further
        rw [Nat.add_assoc, List.take_length_add_append, List.take_succ_cons, List.append_assoc,
          List.cons_append] at begun
        cases h with
        | absent none =>
            obtain ⟨children⟩ := tree
            obtain ⟨rfl, -⟩ := List.cons.inj begun
            exact none _ rfl rfl
        | broken _ _ wrong =>
            have within : x ∈ tree.render := by
              rw [begun]
              exact List.mem_append_right _ List.mem_cons_self
            have none := wrong x rfl
            rw [tree.bracket_of_mem within] at none
            cases none

section

variable {ε α : Type}

/-- The behaviour reads groups, and is halted where it fails. -/
abbrev Groups (p : Behaviour ε α) : Prop :=
  p.Stops (fun w _ => ∃ tree : Tree, tree.render = w) Halted fun _ => True

variable {ρ : Type → Type} {rule : ρ Nat} {enter : {α : Type} → Cell → ρ α → Behaviour ε α}
  {rounds : Nat}

variable (inner : ∀ cell, Groups (enter cell rule))

include inner

/-- What is between the brackets and the bracket that closes them: it stops behind trees with that
bracket, or in the middle of such. -/
theorem closed_stops (cell : Cell) :
    (((many (deferred cell rule)).keepLeft (char ']') :
      Parser ε ρ (List Nat)).behaviour enter rounds).Stops
      (fun w _ => ∃ trees, renderAll trees ++ [']'] = w)
      (fun u r => (∀ x ∈ r.head?, bracket x = false) ∧
        ∃ trees v, renderAll trees ++ [']'] = u ++ v) fun _ => True := by
  have items : ((many (deferred cell rule) : Parser ε ρ (List Nat)).behaviour enter rounds).Stops
      _ _ (fun _ => True) :=
    .map (.gather (fun hs h => h :: hs) (I := fun w => ∃ trees, renderAll trees = w)
      (inner cell) ⟨[], rfl⟩ (by
        rintro _ _ _ ⟨trees, rfl⟩ ⟨tree, rfl⟩
        exact ⟨trees ++ [tree], by simp [renderAll_append, renderAll]⟩)
      (fun _ _ _ => id) rounds [])
  refine .bind items (fun _ => .map (char_stops ']')) ?_ ?_ ?_ fun _ _ _ _ => id
  · rintro _ _ r ⟨⟨trees, rfl⟩, -⟩ rfl
    exact ⟨trees, rfl⟩
  · rintro _ r ⟨_, u, rfl, begun, ⟨trees, rfl⟩, halted⟩
    cases halted with
    | absent _ => exact absurd rfl begun
    | @broken _ v _ tree _ h wrong =>
        exact ⟨wrong, trees ++ [tree], v ++ [']'], by simp [renderAll_append, renderAll, h]⟩
  · rintro _ _ r ⟨⟨trees, rfl⟩, none⟩ ⟨rfl, shut⟩
    have opens : ∀ x ∈ r.head?, x ≠ '[' := by
      rcases none with halted | ⟨tree, h⟩
      · exact halted.of_nil
      · exact absurd h tree.render_ne_nil
    refine ⟨fun x hx => ?_, trees, [']'], by simp⟩
    simp [bracket, opens x hx, shut x hx]

theorem group_groups (cell : Cell) :
    Groups ((group rule cell : Parser ε ρ Nat).behaviour enter rounds) := by
  refine .map (.bind (char_stops '[') (fun _ => closed_stops inner cell) ?_ ?_ ?_
    fun _ _ _ _ => id)
  · rintro _ _ r rfl ⟨trees, rfl⟩
    exact ⟨.node trees, rfl⟩
  · rintro _ r ⟨rfl, none⟩
    exact .absent none
  · rintro _ u r rfl ⟨wrong, trees, v, h⟩
    have render : (Tree.node trees).render = '[' :: u ++ v := congrArg ('[' :: ·) h
    exact .broken (List.cons_ne_nil _ _) render wrong

end

theorem entered_groups : ∀ (n : Nat) (cell : Cell), Groups (grammar.entered n cell .group)
  | 0, _ => fun _ _ => trivial
  | n + 1, _ => fun c => entered_meets fun frame => group_groups (entered_groups n) ⟨frame, 0⟩ c

/-! ### Runs -/

theorem run_recognises : ∀ fuel : Nat,
    Recognises fuel (grammar.run fuel parser) Group (fun _ => True) (Avoids (· == '['))
  | 0 => .zero ..
  | n + 1 => by
      rw [Grammar.run_eq]
      exact group_recognises (entered_recognises n) (Nat.le_refl _) ⟨0, 0⟩

theorem run_groups (fuel : Nat) : Groups (grammar.run fuel parser) := by
  rw [Grammar.run_eq]
  exact group_groups (entered_groups fuel) ⟨0, 0⟩

/-- **The parser recognises exactly the balanced groups of brackets.**  A run on a text, with more
fuel than there are characters, ends.  It succeeds if and only if the text begins with a group, with
the height of the tree that the group renders, at the end of the group; and there is at most one
such tree.  If there is none, the run fails behind the longest beginning of the text that can be
completed to a group. -/
theorem run_brackets (text : Array Char) (s : Session) {fuel : Nat} (enough : text.size < fuel) :
    (∀ h rest, (∃ s', grammar.run fuel parser (.start text) s = (.success h rest, s')) ↔
      ∃ tree : Tree, tree.render <+: text.toList ∧ tree.height = h ∧
        rest.text = text ∧ rest.offset = tree.render.length) ∧
    (∀ tree tree' : Tree, tree.render <+: text.toList → tree'.render <+: text.toList →
      tree = tree') ∧
    ((∃ tree : Tree, tree.render <+: text.toList) ∨
      ∃ (k : Nat) (e : ParseError) (s' : Session),
        grammar.run fuel parser (.start text) s = (.failure k e, s') ∧
        IsGreatest {n | n ≤ text.size ∧
          ∃ (tree : Tree) (v : List Char), tree.render = text.toList.take n ++ v} k) := by
  have reads {tree : Tree} {rest : Cursor} : (Cursor.start text).Reads tree.render rest ↔
      tree.render <+: text.toList ∧ rest.text = text ∧ rest.offset = tree.render.length := by
    rw [Cursor.reads_iff, show (Cursor.start text).offset = 0 from rfl, Nat.zero_add]
    rfl
  have short : (Cursor.start text).remaining.length < fuel := by
    rwa [Cursor.length_remaining]
  have sound := (run_recognises fuel).sound (.start text) short s
  have stopped := run_groups fuel (.start text) s
  have complete {tree : Tree} {rest : Cursor} (h : (Cursor.start text).Reads tree.render rest) :=
    Behaviour.meets_success_iff.mp
      ((run_recognises fuel).complete short ⟨tree, rfl, rfl⟩ h trivial) s
  refine ⟨fun h rest => ⟨?_, ?_⟩, ?_, ?_⟩
  · rintro ⟨s', ran⟩
    rw [ran] at sound
    obtain ⟨_, read, tree, rfl, rfl⟩ := sound
    obtain ⟨begins, ht, ho⟩ := reads.mp read
    exact ⟨tree, begins, rfl, ht, ho⟩
  · rintro ⟨tree, begins, rfl, ht, ho⟩
    exact complete (reads.mpr ⟨begins, ht, ho⟩)
  · rintro tree tree' ⟨r, hr⟩ ⟨r', hr'⟩
    exact (Tree.render_append_inj (hr.trans hr'.symm)).1
  · generalize ran : grammar.run fuel parser (.start text) s = reply at sound stopped
    obtain ⟨o, s'⟩ := reply
    cases o with
    | success h rest =>
        obtain ⟨_, read, tree, rfl, -⟩ := sound
        exact .inl ⟨tree, (reads.mp read).1⟩
    | failure offset e =>
        obtain ⟨u, d, read, rfl, halted⟩ := stopped
        have whole : text.toList = u ++ d.remaining := read.2
        have greatest := halted.isGreatest
        rw [← whole, Array.length_toList] at greatest
        have behind : d.offset = u.length := read.offset_eq.trans (Nat.zero_add _)
        exact .inr ⟨u.length, e, s', by rw [behind], greatest⟩
    | thrown fault =>
        obtain ⟨exception, -⟩ := sound
        nomatch exception
    | exhausted => exact sound.elim

/-- A group with a bracket too many behind it, and one that is broken off by the end of the text. -/
theorem run_brackets_nested :
    let text := "[[][[]]]]".toList.toArray
    let broken := "[[]".toList.toArray
    (text.size < 10 ∧
      ∃ s', grammar.run 10 parser (.start text) .start = (.success 3 ⟨text, 8, by decide⟩, s')) ∧
    (broken.size < 4 ∧ IsGreatest {n | n ≤ broken.size ∧
      ∃ (tree : Tree) (v : List Char), tree.render = broken.toList.take n ++ v} 3) := by
  intro text broken
  refine ⟨⟨by decide, ?_⟩, by decide, ?_⟩
  · refine ((run_brackets text .start (by decide)).1 3 ⟨text, 8, by decide⟩).mpr ?_
    exact ⟨.node [.node [], .node [.node []]], ⟨[']'], rfl⟩, rfl, rfl, rfl⟩
  · have failed : grammar.run 4 parser (.start broken) .start = (.failure 3 _, _) := rfl
    obtain ⟨succeeds, -, ⟨tree, begins⟩ | ⟨k, _, _, ran, greatest⟩⟩ :=
      run_brackets broken .start (show broken.size < 4 by decide)
    · have inside : tree.render.length ≤ broken.size := begins.length_le
      obtain ⟨_, ran⟩ := (succeeds tree.height ⟨broken, tree.render.length, inside⟩).mpr
        ⟨tree, begins, rfl, rfl, rfl⟩
      cases failed.symm.trans ran
    · obtain rfl : k = 3 := by
        have := failed.symm.trans ran
        simp only [Prod.mk.injEq, Outcome.failure.injEq] at this
        omega
      exact greatest

end Parsing.Brackets
