import Parsing.Proofs.Endings
import Parsing.Proofs.Separators

/-!
# Printed lists

A list is printed item by item, with a separator between the items or behind each of them.
`p.ReadsBack print separator xs` says that `p` reads back what is printed for an item of `xs`
wherever nothing stands behind it or the separator does, and that it fails empty at the end of the
text.  An item that is printed may well contain the separator.

**Then the ways of separating items read back the lists that are printed their way**
(`Grammar.run_readsBack`).  What a loop finds behind an item is the end or a separator, whichever
item it is, so that the items are read one by one (`ReadsBack.items_between`,
`ReadsBack.items_ended`).  A separator behind the last item dangles, and that is the one case in
which the loops part (`ReadsBack.hanging`).
-/

namespace Parsing

variable {ε : Type} {ρ : Type → Type} {α β : Type}

namespace Cursor

/-- The text ends here, or it goes on with the separator. -/
def Breaks (c : Cursor) (separator : String) : Prop :=
  c.remaining = [] ∨ separator.toList <+: c.remaining

/-- With a separator before each of them, items begin with one. -/
theorem Breaks.between {c d : Cursor} {separator : String} {print : α → String} {xs : List α}
    (read : c.Reads (xs.flatMap fun x => separator.toList ++ (print x).toList) d)
    (h : d.Breaks separator) : c.Breaks separator := by
  cases xs with
  | nil => exact Reads.nil_iff.mp read ▸ h
  | cons _ _ =>
      rw [Breaks, read.2, List.flatMap_cons, List.append_assoc, List.append_assoc]
      exact .inr (List.prefix_append _ _)

end Cursor

namespace Behaviour

/-- `p` reads back the items `xs` as they are printed, where the text breaks off behind them; where
it has ended `p` fails empty. -/
structure ReadsBack (p : Behaviour ε α) (print : α → String) (separator : String) (xs : List α) :
    Prop where
  item {x : α} {c d : Cursor} (hx : x ∈ xs) (read : c.Reads (print x).toList d)
    (behind : d.Breaks separator) : p.Meets c (· = .success x d)
  missing {c : Cursor} (h : c.remaining = []) : p.Refuses c

theorem string_of_end {text : String} (ht : text ≠ "") {c : Cursor} (h : c.remaining = [])
    (s : Session) : ∃ e, (string text : Behaviour ε String) c s = (.failure c.offset e, s) := by
  refine string_of_absent (fun starts => ht ?_) s
  rw [h, List.prefix_nil] at starts
  exact String.toList_eq_nil_iff.mp starts

namespace ReadsBack

variable {p : Behaviour ε α} {print : α → String} {separator : String} {xs ys : List α}
  {c d : Cursor} {x : α}

theorem mono (h : p.ReadsBack print separator xs) (sub : ∀ x ∈ ys, x ∈ xs) :
    p.ReadsBack print separator ys where
  item hx := h.item (sub _ hx)
  missing := h.missing

theorem tail (h : p.ReadsBack print separator (x :: xs)) : p.ReadsBack print separator xs :=
  h.mono fun _ => List.mem_cons_of_mem x

theorem head (h : p.ReadsBack print separator (x :: xs)) (read : c.Reads (print x).toList d)
    (behind : d.Breaks separator) (s : Session) : ∃ t, p c s = (.success x d, t) :=
  meets_success_iff.mp (h.item List.mem_cons_self read behind) s

/-- Something is printed for every item: at the end of the text none is read. -/
theorem print_ne_nil (h : p.ReadsBack print separator (x :: xs)) : (print x).toList ≠ [] := by
  intro nothing
  let c : Cursor := .start #[]
  have read : c.Reads (print x).toList c := nothing ▸ .refl c
  obtain ⟨t, there⟩ := h.head read (.inl rfl) .start
  obtain ⟨e, t', missing⟩ := meets_failure_iff.mp (h.missing (c := c) rfl) .start
  cases there.symm.trans missing

/-! ### Items one by one -/

/-- Items with a separator before each of them. -/
theorem items_between (h : p.ReadsBack print separator xs)
    (read : c.Reads (xs.flatMap fun x => separator.toList ++ (print x).toList) d)
    (behind : d.Breaks separator) (s : Session) :
    ∃ t, (p.separated (string separator)).Items c s xs d t := by
  induction xs generalizing c s with
  | nil =>
      cases Cursor.Reads.nil_iff.mp read
      exact ⟨s, .nil d s⟩
  | cons x xs ih =>
      rw [List.flatMap_cons] at read
      obtain ⟨c₂, both, rest⟩ := read.split
      obtain ⟨c₁, found, item⟩ := both.split
      -- Behind this item stands the separator of the next one, or what stands behind them all.
      obtain ⟨s₂, there⟩ := h.head item (.between rest behind) s
      obtain ⟨t, items⟩ := ih h.tail rest s₂
      have moved : c₂.offset ≠ c.offset := fun same =>
        h.print_ne_nil (List.append_eq_nil_iff.mp (both.eq_nil_iff.mpr same)).2
      have once : p.separated (string separator) c s = (.success x c₂, s₂) :=
        bind_eq_success_iff.mpr ⟨separator, c₁, s, string_of_reads found s, there⟩
      exact ⟨t, .cons once moved items⟩

/-- Items with a separator behind each of them. -/
theorem items_ended (h : p.ReadsBack print separator xs)
    (read : c.Reads (xs.flatMap fun x => (print x).toList ++ separator.toList) d) (s : Session) :
    ∃ t, (p.ended (string separator)).Items c s xs d t := by
  induction xs generalizing c s with
  | nil =>
      cases Cursor.Reads.nil_iff.mp read
      exact ⟨s, .nil d s⟩
  | cons x xs ih =>
      rw [List.flatMap_cons] at read
      obtain ⟨c₂, both, rest⟩ := read.split
      obtain ⟨c₁, item, found⟩ := both.split
      obtain ⟨s₂, there⟩ := h.head item (.inr ⟨c₂.remaining, found.2.symm⟩) s
      obtain ⟨t, items⟩ := ih h.tail rest s₂
      have moved : c₂.offset ≠ c.offset := fun same =>
        h.print_ne_nil (List.append_eq_nil_iff.mp (both.eq_nil_iff.mpr same)).1
      have once : p.ended (string separator) c s = (.success x c₂, s₂) :=
        ended_eq_success_iff.mpr ⟨c₁, s₂, separator, there, string_of_reads found s₂⟩
      exact ⟨t, .cons once moved items⟩

/-- Behind the last item a separator dangles. -/
theorem hanging (h : p.ReadsBack print separator (x :: xs)) (hs : separator ≠ "") {c' d' : Cursor}
    (first : c.Reads (print x).toList c')
    (read : c'.Reads (xs.flatMap fun x => separator.toList ++ (print x).toList) d')
    (last : d'.Reads separator.toList d) (ends : d.remaining = []) (s : Session) :
    ∃ e t, p.Hanging (string separator) c s (x :: xs) d e t := by
  have behind : d'.Breaks separator := .inr ⟨d.remaining, last.2.symm⟩
  obtain ⟨s₁, there⟩ := h.head first (.between read behind) s
  obtain ⟨t, items⟩ := h.tail.items_between read behind s₁
  obtain ⟨e, t', missing⟩ := meets_failure_iff.mp (h.missing ends) t
  have moved : d.offset ≠ d'.offset := fun same =>
    hs (String.toList_eq_nil_iff.mp (last.eq_nil_iff.mpr same))
  exact ⟨e, t', there, items, separator, t, string_of_reads last t, moved, missing⟩

end ReadsBack

end Behaviour

/-! ### Texts -/

section

variable (print : α → String) (separator : String) (x : α) (xs : List α)

theorem toList_intercalate_cons : (separator.intercalate ((x :: xs).map print)).toList =
    (print x).toList ++ xs.flatMap fun x => separator.toList ++ (print x).toList := by
  induction xs generalizing x with
  | nil => simp
  | cons y xs ih =>
      rw [List.map_cons, List.map_cons, String.intercalate_cons_cons, ← List.map_cons,
        String.toList_append, String.toList_append, ih y, List.flatMap_cons]
      simp only [List.append_assoc]

theorem toList_join_ended : (String.join (xs.map fun x => print x ++ separator)).toList =
    xs.flatMap fun x => (print x).toList ++ separator.toList := by
  simp [String.toList_join, List.flatMap_map]

/-- A separator behind each item is one between the items and one behind the last. -/
theorem flatMap_ended_cons : (x :: xs).flatMap (fun x => (print x).toList ++ separator.toList) =
    (print x).toList ++
      ((xs.flatMap fun x => separator.toList ++ (print x).toList) ++ separator.toList) := by
  induction xs generalizing x with
  | nil => simp
  | cons y xs ih =>
      rw [List.flatMap_cons, ih y, List.flatMap_cons]
      simp only [List.append_assoc]

end

namespace Grammar

open Parsing.Behaviour (Hanging ReadsBack)
open Parsing.Decimal (TooManyDigits)
open Parsing.Parser (anyChar endBy many sepBy sepBy1 sepEndBy sepEndBy1 string)

variable {g : Grammar ε ρ} {p : Parser ε ρ α} {print : α → String} {separator : String}
  {xs : List α} {c d c' d' : Cursor} {x : α}

/-! ### Lists -/

theorem meaning_separated (p : Parser ε ρ α) (separator : String) :
    g.meaning ((string separator).keepRight p) =
      (g.meaning p).separated (Behaviour.string separator) := by
  rw [meaning_keepRight, meaning_string]

theorem sepBy1_readsBack (h : (g.meaning p).ReadsBack print separator (x :: xs))
    (hs : separator ≠ "") (first : c.Reads (print x).toList c')
    (read : c'.Reads (xs.flatMap fun x => separator.toList ++ (print x).toList) d)
    (ends : d.remaining = []) (s : Session) :
    ∃ t, g.meaning (sepBy1 p (string separator)) c s = (.success (x :: xs) d, t) := by
  obtain ⟨s₁, there⟩ := h.head first (.between read (.inl ends)) s
  obtain ⟨t, items⟩ := h.tail.items_between read (.inl ends) s₁
  obtain ⟨e, spent⟩ := Behaviour.string_of_end (ε := ε) hs ends t
  rw [← meaning_separated] at items
  have none : (g.meaning ((string separator).keepRight p)).NoItem d t t := by
    rw [meaning_separated]
    exact .inl ⟨e, Behaviour.bind_eq_failure_iff.mpr (.inl spent)⟩
  have rest := meaning_many_success_iff.mpr ⟨t, items, none⟩
  refine ⟨t, ?_⟩
  rw [(g.sepBy1_indistinct p _).meaning_eq, meaning_bind]
  refine Behaviour.bind_eq_success_iff.mpr ⟨x, c', s₁, there, ?_⟩
  rw [meaning_map]
  exact Behaviour.map_eq_success_iff.mpr ⟨xs, rest, rfl⟩

/-- Where `sepBy1` succeeds no separator is left hanging. -/
theorem sepEndBy1_of_sepBy1 {separator : Parser ε ρ β} {s t : Session}
    (h : g.meaning (sepBy1 p separator) c s = (.success xs d, t)) :
    g.meaning (sepEndBy1 p separator) c s = (.success xs d, t) := by
  rw [meaning_sepEndBy1_eq, h]
  intro ys d' e s' hanging
  cases (meaning_sepBy1_of_hanging hanging).symm.trans h

theorem endBy_readsBack (h : (g.meaning p).ReadsBack print separator xs)
    (read : c.Reads (xs.flatMap fun x => (print x).toList ++ separator.toList) d)
    (ends : d.remaining = []) (s : Session) :
    ∃ t, g.meaning (endBy p (string separator)) c s = (.success xs d, t) := by
  obtain ⟨t, items⟩ := h.items_ended read s
  obtain ⟨e, t', missing⟩ := Behaviour.meets_failure_iff.mp (h.missing ends) t
  refine ⟨t', meaning_many_success_iff.mpr ⟨t, ?_, .inl ⟨e, ?_⟩⟩⟩
  · rwa [meaning_keepLeft, meaning_string]
  · rw [meaning_keepLeft]
    exact Behaviour.bind_eq_failure_iff.mpr (.inl missing)

/-! An alternative that reads nothing is entered where there are no items. -/

section

variable {q : Parser ε ρ α} {y : α}

theorem alt_pure_success (h : (g.meaning q).Meets c (· = .success x d)) :
    (g.meaning (q.alt (.pure y))).Meets c (· = .success x d) := by
  rw [meaning_alt]
  exact .alt (h.of_eq rfl)

theorem alt_pure_failure {o : Int} (h : (g.meaning q).Meets c (· = .failure o))
    (committed : o ≠ c.offset) : (g.meaning (q.alt (.pure y))).Meets c (· = .failure o) := by
  rw [meaning_alt]
  exact .alt (h.of_eq (by simp [committed]))

theorem alt_pure_refuses (h : (g.meaning q).Refuses c) :
    (g.meaning (q.alt (.pure y))).Meets c (· = .success y c) := by
  rw [meaning_alt, meaning_pure]
  exact .alt (h.of_eq (by simpa using .pure rfl))

end

theorem sepBy1_refuses {separator : Parser ε ρ β} (h : (g.meaning p).Refuses c) :
    (g.meaning (sepBy1 p separator)).Refuses c := by
  rw [sepBy1, meaning_bind]
  exact .bind (h.of_eq rfl)

theorem sepEndBy1_refuses {separator : Parser ε ρ β} (h : (g.meaning p).Refuses c) :
    (g.meaning (sepEndBy1 p separator)).Refuses c := by
  rw [sepEndBy1, meaning_map, meaning_bind]
  exact .map (.bind (h.of_eq rfl))

/-! ### The texts as a whole -/

theorem between_readsBack (h : (g.meaning p).ReadsBack print separator (x :: xs))
    (hs : separator ≠ "")
    (hc : c.remaining = (separator.intercalate ((x :: xs).map print)).toList) :
    (g.meaning (sepBy1 p (string separator))).Meets c (· = .success (x :: xs) c.last) ∧
      (g.meaning (sepEndBy1 p (string separator))).Meets c (· = .success (x :: xs) c.last) := by
  have whole := c.reads_last
  rw [hc, toList_intercalate_cons] at whole
  obtain ⟨c', first, read⟩ := whole.split
  have reads := sepBy1_readsBack h hs first read c.last_remaining
  exact ⟨Behaviour.meets_success_iff.mpr reads,
    Behaviour.meets_success_iff.mpr fun s => (reads s).imp fun _ => sepEndBy1_of_sepBy1⟩

theorem ended_readsBack (h : (g.meaning p).ReadsBack print separator (x :: xs))
    (hs : separator ≠ "")
    (hc : c.remaining = (String.join ((x :: xs).map fun x => print x ++ separator)).toList) :
    (g.meaning (endBy p (string separator))).Meets c (· = .success (x :: xs) c.last) ∧
      (g.meaning (sepEndBy1 p (string separator))).Meets c (· = .success (x :: xs) c.last) ∧
      (g.meaning (sepBy1 p (string separator))).Meets c (· = .failure c.text.size) := by
  have whole := c.reads_last
  rw [hc, toList_join_ended] at whole
  have items := endBy_readsBack h whole c.last_remaining
  rw [flatMap_ended_cons] at whole
  obtain ⟨c', first, rest⟩ := whole.split
  obtain ⟨d', read, last⟩ := rest.split
  have hanging (s : Session) := h.hanging hs first read last c.last_remaining s
  rw [← meaning_string (g := g)] at hanging
  refine ⟨Behaviour.meets_success_iff.mpr items, Behaviour.meets_success_iff.mpr fun s => ?_,
    Behaviour.meets_failure_iff.mpr fun s => ?_⟩
  · obtain ⟨e, t, hanging⟩ := hanging s
    exact ⟨t, meaning_sepEndBy1_of_hanging hanging⟩
  · obtain ⟨e, t, hanging⟩ := hanging s
    exact ⟨e, t, meaning_sepBy1_of_hanging hanging⟩

/-- **Printed lists are read back.**  Let `p` read back what is printed for the items, and let the
separator not be empty.  Where the items are printed with the separator between them, `sepBy` and
`sepEndBy` read the list and come to the end of the text, and so do the two that want one item at
least.  Where the separator is printed behind each item, `endBy` and the two `sepEndBy` read the
list, while the two `sepBy` fail at the end of the text.  Where nothing is printed, all that do not
want an item read the empty list. -/
theorem run_readsBack (g : Grammar ε ρ) (hs : separator ≠ "") (hxs : xs ≠ [])
    (h : (g.meaning p).ReadsBack print separator xs) :
    (∀ c, c.remaining = (separator.intercalate (xs.map print)).toList →
      (g.meaning (sepBy p (string separator))).Meets c (· = .success xs c.last) ∧
      (g.meaning (sepBy1 p (string separator))).Meets c (· = .success xs c.last) ∧
      (g.meaning (sepEndBy p (string separator))).Meets c (· = .success xs c.last) ∧
      (g.meaning (sepEndBy1 p (string separator))).Meets c (· = .success xs c.last)) ∧
    (∀ c, c.remaining = (String.join (xs.map fun x => print x ++ separator)).toList →
      (g.meaning (endBy p (string separator))).Meets c (· = .success xs c.last) ∧
      (g.meaning (sepEndBy p (string separator))).Meets c (· = .success xs c.last) ∧
      (g.meaning (sepEndBy1 p (string separator))).Meets c (· = .success xs c.last) ∧
      (g.meaning (sepBy p (string separator))).Meets c (· = .failure c.text.size) ∧
      (g.meaning (sepBy1 p (string separator))).Meets c (· = .failure c.text.size)) ∧
    ∀ c, c.remaining = [] →
      (g.meaning (sepBy p (string separator))).Meets c (· = .success [] c) ∧
      (g.meaning (endBy p (string separator))).Meets c (· = .success [] c) ∧
      (g.meaning (sepEndBy p (string separator))).Meets c (· = .success [] c) := by
  obtain ⟨x, xs, rfl⟩ := List.exists_cons_of_ne_nil hxs
  refine ⟨fun c hc => ?_, fun c hc => ?_, fun c hc => ?_⟩
  · obtain ⟨between, trailing⟩ := between_readsBack h hs hc
    exact ⟨alt_pure_success between, between, alt_pure_success trailing, trailing⟩
  · obtain ⟨ended, trailing, fails⟩ := ended_readsBack h hs hc
    have further : (c.text.size : Int) ≠ c.offset := by
      have some : c.remaining ≠ [] := by
        rw [hc, toList_join_ended, flatMap_ended_cons]
        exact fun none => h.print_ne_nil (List.append_eq_nil_iff.mp none).1
      have shorter := List.length_pos_iff.mpr some
      rw [Cursor.length_remaining] at shorter
      omega
    exact ⟨ended, alt_pure_success trailing, trailing, alt_pure_failure fails further, fails⟩
  · have none : (g.meaning p).ReadsBack print separator [] :=
      h.mono fun _ hx => absurd hx List.not_mem_nil
    have items := endBy_readsBack none (.refl c) hc
    exact ⟨alt_pure_refuses (sepBy1_refuses (h.missing hc)), Behaviour.meets_success_iff.mpr items,
      alt_pure_refuses (sepEndBy1_refuses (h.missing hc))⟩

/-- Any characters, commas among them, with commas between them and behind them. -/
theorem run_readsBack_commas :
    let g := Json.grammar .standard
    let xs := ['a', ',', 'b']
    let between : Cursor := .start #['a', ',', ',', ',', 'b']
    let ended : Cursor := .start #['a', ',', ',', ',', 'b', ',']
    let comma : Parser TooManyDigits Json.Rule String := string ","
    (g.meaning anyChar).ReadsBack String.singleton "," xs ∧
    (g.meaning (sepBy anyChar comma)).Meets between (· = .success xs between.last) ∧
    (g.meaning (endBy anyChar comma)).Meets ended (· = .success xs ended.last) ∧
    (g.meaning (sepEndBy anyChar comma)).Meets ended (· = .success xs ended.last) ∧
    (g.meaning (sepBy anyChar comma)).Meets ended (· = .failure 6) := by
  intro g xs between ended comma
  have h : (g.meaning anyChar).ReadsBack String.singleton "," xs := {
    item := fun {x c d} _ read _ => Behaviour.meets_success_iff.mpr fun s => by
      rw [String.toList_singleton] at read
      exact ⟨s, anyChar_of_reads read s⟩
    missing := fun {c} none => Behaviour.meets_failure_iff.mpr fun s => by
      have spent : c.peek = .none := by rw [c.peek_eq_head_remaining, none]; rfl
      obtain ⟨e, he⟩ := anyChar_of_none (g := g) spent s
      exact ⟨e, s, he⟩ }
  obtain ⟨joined, closed, -⟩ := run_readsBack g (by decide) (by decide) h
  obtain ⟨by_comma, -⟩ := joined between (by simp [between, xs, Cursor.remaining, Cursor.start])
  obtain ⟨each, last, -, fails, -⟩ :=
    closed ended (by simp [ended, xs, Cursor.remaining, Cursor.start])
  exact ⟨h, by_comma, each, last, fails⟩

end Grammar

end Parsing
