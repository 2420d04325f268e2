import Mathlib.Order.Std
import Parsing.ParseError

/-!
# The order of parse errors

Errors are compared field by field: by message and then by suggestions, lists of suggestions member
by member, suggestions by completion and then by hint, texts by code point.  `Precedes` says of
each of these what it is for one to stand before another, without the comparison that runs; the
comparison decides it (`compare_eq_lt_iff`).

The laws of the comparison rise from the fields to the whole: it is oriented and transitive, and it
tells apart whatever differs, so errors are **linearly ordered**.  A beginning that two lists share
has no part in their comparison (`compare_append_left`), so suggestions put in front of two errors
leave these as they stood to each other (`compare_withSuggestions`).

A stable sort keeps the members of a list in their order that are on one level
(`filter_mergeSort`).  Errors on one level are equal, so stability shows in where they came from
(`sortedPlaces`), and not in the sorted list: that is the same for every order in which its members
are given (`sort_eq_of_perm`), as for the distinct errors of a list.
-/

namespace Parsing

/-! ### Comparing by two fields -/

section Fields

variable {α β γ : Type} [Ord β] [Ord γ] {f : α → β} {g : α → γ}

theorem compareLex_eq_lt_iff [Std.LawfulEqOrd β] {a b : α} :
    compareLex (compareOn f) (compareOn g) a b = .lt ↔
      compare (f a) (f b) = .lt ∨ f a = f b ∧ compare (g a) (g b) = .lt := by
  simp only [compareLex, compareOn, Ordering.then_eq_lt, Std.LawfulEqCmp.compare_eq_iff_eq]

/-- Where two fields make up a value, comparing by them tells values apart. -/
theorem lawfulEqCmp_compareLex [Std.LawfulEqOrd β] [Std.LawfulEqOrd γ]
    (ext : ∀ a b, f a = f b → g a = g b → a = b) :
    Std.LawfulEqCmp (compareLex (compareOn f) (compareOn g)) where
  compare_self {a} := by
    simp only [compareLex, compareOn, Std.ReflCmp.compare_self]
    rfl
  eq_of_compare {a b} h := by
    obtain ⟨hf, hg⟩ := compareLex_eq_eq.mp h
    exact ext a b (Std.LawfulEqOrd.eq_of_compare hf) (Std.LawfulEqOrd.eq_of_compare hg)

end Fields

/-! ### Comparing lists -/

section Lists

variable {α : Type} [Ord α]

theorem compare_list_eq_lt_iff [Std.LawfulEqOrd α] {xs ys : List α} :
    compare xs ys = .lt ↔ xs.Lex (fun x y => compare x y = .lt) ys := by
  induction xs generalizing ys with
  | nil =>
      cases ys with
      | nil => simp
      | cons y ys => simp
  | cons x xs ih =>
      cases ys with
      | nil => simp
      | cons y ys =>
          simp only [List.compare_cons_cons, Ordering.then_eq_lt, List.cons_lex_cons_iff, ih,
            Std.LawfulEqCmp.compare_eq_iff_eq]

/-- A beginning that two lists share has no part in their comparison. -/
theorem compare_append_left [Std.ReflOrd α] (zs xs ys : List α) :
    compare (zs ++ xs) (zs ++ ys) = compare xs ys := by
  induction zs with
  | nil => rfl
  | cons z zs ih =>
      calc compare (z :: (zs ++ xs)) (z :: (zs ++ ys))
          = (compare z z).then (compare (zs ++ xs) (zs ++ ys)) := List.compare_cons_cons
        _ = (Ordering.eq).then (compare xs ys) := by rw [Std.ReflOrd.compare_self, ih]

end Lists

/-! ### Sorting lists -/

section Sorting

variable {α : Type} {le : α → α → Bool}

/-- **Sorting is stable**: it keeps the order of the members that are on one level. -/
theorem filter_mergeSort (trans : ∀ x y z, le x y → le y z → le x z)
    (total : ∀ x y, le x y || le y x) {p : α → Bool} (level : ∀ x y, p x → p y → le x y)
    (xs : List α) : (xs.mergeSort le).filter p = xs.filter p := by
  have sorted : (xs.filter p).Pairwise fun x y => le x y = true :=
    List.pairwise_filter.mpr (List.pairwise_of_forall fun x y => level x y)
  have kept : (xs.filter p).Sublist ((xs.mergeSort le).filter p) := by
    simpa only [List.filter_filter, Bool.and_self] using
      (List.sublist_mergeSort trans total sorted List.filter_sublist).filter p
  have length : (xs.filter p).length = ((xs.mergeSort le).filter p).length :=
    ((List.mergeSort_perm xs le).filter p).length_eq.symm
  exact (kept.eq_of_length length).symm

/-- Two members on one level stand in the sorted list as they were given. -/
theorem pair_sublist_of_mergeSort {xs : List α} {x y : α} (h : [x, y].Sublist (xs.mergeSort le))
    (trans : ∀ x y z, le x y → le y z → le x z) (total : ∀ x y, le x y || le y x)
    (hxy : le x y) (hyx : le y x) : [x, y].Sublist xs := by
  -- Whatever is on the level of `x` is on one level, by way of `x`.
  have level (u v : α) (hu : le x u && le u x) (hv : le x v && le v x) : le u v :=
    trans u x v (Bool.and_eq_true_iff.mp hu).2 (Bool.and_eq_true_iff.mp hv).1
  have kept := h.filter fun z => le x z && le z x
  rw [filter_mergeSort trans total level] at kept
  have both : [x, y].filter (fun z => le x z && le z x) = [x, y] := by
    have hxx : le x x := trans x y x hxy hyx
    simp [hxx, hxy, hyx]
  exact both ▸ kept.trans List.filter_sublist

/-- Members that are sorted with their places still tell where they came from. -/
theorem getElem?_of_mem_mergeSort {le : α × Nat → α × Nat → Bool} {xs : List α} {x : α × Nat}
    (h : x ∈ xs.zipIdx.mergeSort le) : xs[x.2]? = some x.1 :=
  List.mem_zipIdx_iff_getElem?.mp (List.mem_mergeSort.mp h)

theorem nodup_eraseDups [DecidableEq α] (xs : List α) : xs.eraseDups.Nodup := by
  match xs with
  | [] => simp
  | x :: xs =>
      rw [List.eraseDups_cons, List.nodup_cons]
      exact ⟨by simp, nodup_eraseDups _⟩
termination_by xs.length
decreasing_by exact Nat.lt_succ_of_le (List.length_filter_le _ _)

end Sorting

/-! ### What it is to stand before another -/

/-- A text stands before another if it has the lower code point at the first place where they part,
or else if it is a proper beginning. -/
def Text.Precedes (s t : String) : Prop := s.toList.Lex (fun c d => c.toNat < d.toNat) t.toList

/-- A suggestion stands before another by completion, or by hint if the completions are equal. -/
def Suggestion.Precedes (a b : Suggestion) : Prop :=
  Text.Precedes a.completion b.completion ∨
    a.completion = b.completion ∧ Text.Precedes a.hint b.hint

/-- An error stands before another by message, or by suggestions if the messages are equal. -/
def ParseError.Precedes (d e : ParseError) : Prop :=
  Text.Precedes d.message e.message ∨
    d.message = e.message ∧ d.suggestions.Lex Suggestion.Precedes e.suggestions

theorem Text.compare_eq_lt_iff {s t : String} : compare s t = .lt ↔ Text.Precedes s t :=
  compareOfLessAndEq_eq_lt

namespace Suggestion

instance : Std.TransOrd Suggestion :=
  inferInstanceAs (Std.TransCmp (compareLex (compareOn completion) (compareOn hint)))

instance : Std.LawfulEqOrd Suggestion :=
  lawfulEqCmp_compareLex fun _ _ completions hints =>
    congr (congrArg Suggestion.mk completions) hints

theorem compare_eq_lt_iff {a b : Suggestion} : compare a b = .lt ↔ a.Precedes b := by
  have fields : compare a b = .lt ↔ compare a.completion b.completion = .lt ∨
      a.completion = b.completion ∧ compare a.hint b.hint = .lt := compareLex_eq_lt_iff
  simp only [fields, Text.compare_eq_lt_iff, Precedes]

end Suggestion

namespace ParseError

/-! ### Errors in order -/

instance : Std.TransOrd ParseError :=
  inferInstanceAs (Std.TransCmp (compareLex (compareOn message) (compareOn suggestions)))

instance : Std.LawfulEqOrd ParseError :=
  lawfulEqCmp_compareLex fun _ _ messages suggestions =>
    congr (congrArg ParseError.mk messages) suggestions

theorem compare_eq_lt_iff {d e : ParseError} : compare d e = .lt ↔ d.Precedes e := by
  have fields : compare d e = .lt ↔ compare d.message e.message = .lt ∨
      d.message = e.message ∧ compare d.suggestions e.suggestions = .lt := compareLex_eq_lt_iff
  simp only [fields, compare_list_eq_lt_iff, Text.compare_eq_lt_iff, Suggestion.compare_eq_lt_iff,
    Precedes]

/-- A list of suggestions stands behind its proper beginnings. -/
example : compare (⟨"m", [⟨"a", ""⟩]⟩ : ParseError) ⟨"m", [⟨"a", ""⟩, ⟨"a", ""⟩]⟩ = .lt := by decide

instance : Std.LawfulOrderOrd ParseError where
  isLE_compare _ _ := Iff.rfl
  isGE_compare d e := by
    rw [Std.OrientedCmp.isGE_eq_isLE]
    rfl

instance : Std.LawfulOrderLT ParseError := .of_ord ParseError fun _ _ => Iff.rfl

instance : LinearOrder ParseError := .ofStd ParseError

/-! ### Suggestions put in front -/

theorem compare_withSuggestions (d e : ParseError) (s : List Suggestion) :
    compare (d.withSuggestions s) (e.withSuggestions s) = compare d e :=
  congrArg (compare d.message e.message).then (compare_append_left s d.suggestions e.suggestions)

theorem withSuggestions_lt_iff {d e : ParseError} {s : List Suggestion} :
    d.withSuggestions s < e.withSuggestions s ↔ d < e := by
  rw [← Std.compare_eq_lt, compare_withSuggestions, Std.compare_eq_lt]

theorem withSuggestions_inj {d e : ParseError} {s : List Suggestion} :
    d.withSuggestions s = e.withSuggestions s ↔ d = e := by
  rw [← Std.compare_eq_eq_iff_eq, compare_withSuggestions, Std.compare_eq_eq_iff_eq]

/-! ### Sorting -/

theorem isLE_trans (c d e : ParseError) (hcd : (compare c d).isLE) (hde : (compare d e).isLE) :
    (compare c e).isLE :=
  Std.TransOrd.isLE_trans hcd hde

theorem isLE_total (d e : ParseError) : (compare d e).isLE || (compare e d).isLE :=
  Bool.or_eq_true_iff.mpr (le_total d e)

theorem sort_perm (errors : List ParseError) : (sort errors).Perm errors :=
  List.mergeSort_perm _ _

theorem sort_sorted (errors : List ParseError) : (sort errors).Pairwise (· ≤ ·) :=
  List.pairwise_mergeSort isLE_trans isLE_total errors

/-- A sorted list does not tell in which order its members were given. -/
theorem sort_eq_of_perm {errors errors' : List ParseError} (h : errors.Perm errors') :
    sort errors = sort errors' :=
  ((sort_perm errors).trans (h.trans (sort_perm errors').symm)).eq_of_pairwise
    (fun _ _ _ _ => le_antisymm) (sort_sorted errors) (sort_sorted errors')

/-! #### Places -/

theorem sortedPlaces_perm (errors : List ParseError) :
    (sortedPlaces errors).Perm (List.range errors.length) := by
  have := (List.mergeSort_perm errors.zipIdx fun a b => (compare a.1 b.1).isLE).map Prod.snd
  rwa [List.zipIdx_map_snd, ← List.range_eq_range'] at this

theorem sortedPlaces_errors (errors : List ParseError) :
    (sortedPlaces errors).map (errors[·]?) = (sort errors).map some := by
  calc (sortedPlaces errors).map (errors[·]?)
      = (errors.zipIdx.mergeSort fun a b => (compare a.1 b.1).isLE).map (errors[·.2]?) := by
        rw [sortedPlaces, List.map_map]
        rfl
    _ = (errors.zipIdx.mergeSort fun a b => (compare a.1 b.1).isLE).map fun x => some x.1 :=
        List.map_congr_left fun _ => getElem?_of_mem_mergeSort
    _ = ((errors.zipIdx.mergeSort fun a b => (compare a.1 b.1).isLE).map Prod.fst).map some := by
        rw [List.map_map]
        rfl
    _ = (sort errors).map some := by
        rw [List.map_mergeSort (s := fun a b => (compare a b).isLE) fun _ _ _ _ => rfl,
          List.zipIdx_map_fst, sort]

/-- Of equal errors the one that came first stays first. -/
theorem sortedPlaces_stable (errors : List ParseError) :
    (sortedPlaces errors).Pairwise fun i j => errors[i]? = errors[j]? → i < j := by
  rw [sortedPlaces, List.pairwise_map, List.pairwise_iff_forall_sublist]
  intro a b sorted same
  have atA : errors[a.2]? = some a.1 := getElem?_of_mem_mergeSort (sorted.subset (.head _))
  have atB : errors[b.2]? = some b.1 :=
    getElem?_of_mem_mergeSort (sorted.subset (.tail _ (.head _)))
  have equal : a.1 = b.1 := by rwa [atA, atB, Option.some_inj] at same
  -- On one level they stand as in the numbered list, whose numbers increase.
  have given : [a, b].Sublist errors.zipIdx :=
    pair_sublist_of_mergeSort sorted (fun x y z => isLE_trans x.1 y.1 z.1)
      (fun x y => isLE_total x.1 y.1) (le_of_eq equal) (le_of_eq equal.symm)
  have increasing : errors.zipIdx.Pairwise fun x y => x.2 < y.2 := by
    rw [← List.pairwise_map (f := Prod.snd), List.zipIdx_map_snd]
    exact List.pairwise_lt_range'
  exact increasing.forall_sublist given

/-! #### Distinct errors -/

theorem mem_sortDistinct {errors : List ParseError} {e : ParseError} :
    e ∈ sortDistinct errors ↔ e ∈ errors :=
  List.mem_mergeSort.trans List.mem_eraseDups

theorem sortDistinct_increasing (errors : List ParseError) :
    (sortDistinct errors).Pairwise (· < ·) := by
  have distinct : (sortDistinct errors).Pairwise (· ≠ ·) :=
    (sort_perm errors.eraseDups).nodup_iff.mpr (nodup_eraseDups errors)
  exact ((sort_sorted errors.eraseDups).and distinct).imp fun h => lt_of_le_of_ne h.1 h.2

/-- However the distinct errors of a list are listed, sorting them comes to the same. -/
theorem sort_eq_sortDistinct {errors distinct : List ParseError} (nodup : distinct.Nodup)
    (same : ∀ e, e ∈ distinct ↔ e ∈ errors) : sort distinct = sortDistinct errors :=
  sort_eq_of_perm ((List.perm_ext_iff_of_nodup nodup (nodup_eraseDups errors)).mpr fun e =>
    (same e).trans List.mem_eraseDups.symm)

/-! ### The order as a whole -/

/-- **Parse errors are totally ordered**, field by field, and suggestions put in front of them act
on the order.  Of two errors one stands before the other or they are equal, and the comparison says
which; `≤` is reflexive, transitive, antisymmetric and total, `<` is its strict part, and the
comparison read from the right gives the converses of both.

Sorting gives the same errors in order, and its places are those of the list, equal errors in the
order in which they came.  The distinct errors of a list come out strictly increasing, none lost
and none added, whatever order they were taken in.

Putting suggestions in front twice is to put them in front together, and putting none changes
nothing.  The same suggestions in front of two errors leave them as they stood to each other, and
keep apart what was apart. -/
theorem totally_ordered :
    (∀ d e : ParseError,
      (d < e ↔ d.Precedes e) ∧ (compare d e = .eq ↔ d = e) ∧
      ((compare d e).isLT ↔ d < e) ∧ ((compare d e).isLE ↔ d ≤ e) ∧
      ((compare d e).isGT ↔ e < d) ∧ ((compare d e).isGE ↔ e ≤ d)) ∧
    ((∀ e : ParseError, e ≤ e) ∧ (∀ c d e : ParseError, c ≤ d → d ≤ e → c ≤ e) ∧
      (∀ d e : ParseError, d ≤ e → e ≤ d → d = e) ∧ (∀ d e : ParseError, d ≤ e ∨ e ≤ d) ∧
      ∀ d e : ParseError, d < e ↔ d ≤ e ∧ d ≠ e) ∧
    (∀ errors : List ParseError,
      (sort errors).Pairwise (· ≤ ·) ∧ (sort errors).Perm errors ∧
      (sortedPlaces errors).map (errors[·]?) = (sort errors).map some ∧
      (sortedPlaces errors).Perm (List.range errors.length) ∧
      (sortedPlaces errors).Pairwise fun i j => errors[i]? = errors[j]? → i < j) ∧
    (∀ errors : List ParseError,
      (sortDistinct errors).Pairwise (· < ·) ∧ (∀ e, e ∈ sortDistinct errors ↔ e ∈ errors) ∧
      ∀ distinct : List ParseError, distinct.Nodup → (∀ e, e ∈ distinct ↔ e ∈ errors) →
        sort distinct = sortDistinct errors) ∧
    (∀ (e : ParseError) (a b : List Suggestion),
      (e.withSuggestions b).withSuggestions a = e.withSuggestions (a ++ b)) ∧
    (∀ e : ParseError, e.withSuggestions [] = e) ∧
    ∀ (s : List Suggestion) (d e : ParseError),
      (d < e ↔ d.withSuggestions s < e.withSuggestions s) ∧
      (d = e ↔ d.withSuggestions s = e.withSuggestions s) := by
  refine ⟨fun d e => ?_, ?_, fun errors => ?_, fun errors => ?_, withSuggestions_withSuggestions,
    withSuggestions_nil, fun s d e => ⟨withSuggestions_lt_iff.symm, withSuggestions_inj.symm⟩⟩
  · exact ⟨compare_eq_lt_iff, Std.compare_eq_eq_iff_eq,
      Ordering.isLT_iff_eq_lt.trans Std.compare_eq_lt, Std.isLE_compare,
      Ordering.isGT_iff_eq_gt.trans Std.compare_eq_gt, Std.isGE_compare⟩
  · exact ⟨le_refl, fun _ _ _ => le_trans, fun _ _ => le_antisymm, le_total,
      fun _ _ => Std.lt_iff_le_and_ne⟩
  · exact ⟨sort_sorted errors, sort_perm errors, sortedPlaces_errors errors,
      sortedPlaces_perm errors, sortedPlaces_stable errors⟩
  · exact ⟨sortDistinct_increasing errors, fun _ => mem_sortDistinct,
      fun _ => sort_eq_sortDistinct⟩

/-- The same completion stands behind with a hint, whatever is suggested after it without. -/
theorem totally_ordered_hint :
    let plain : ParseError := ⟨"expecting word", [⟨"let", ""⟩]⟩
    let longer : ParseError := ⟨"expecting word", [⟨"let", ""⟩, ⟨"in", ""⟩]⟩
    let hinted : ParseError := ⟨"expecting word", [⟨"let", "keyword"⟩]⟩
    plain ≤ longer ∧ longer ≤ hinted ∧ plain ≤ hinted ∧
      sort [hinted, longer, plain] = sortDistinct [longer, plain, hinted, plain] := by
  intro plain longer hinted
  have shorter : plain ≤ longer := by decide
  have unhinted : longer ≤ hinted := by decide
  have distinct : [hinted, longer, plain].Nodup := by decide
  have same (e : ParseError) :
      e ∈ [hinted, longer, plain] ↔ e ∈ [longer, plain, hinted, plain] := by
    simp only [List.mem_cons, List.not_mem_nil]
    grind
  obtain ⟨-, ⟨-, trans, -⟩, -, distinctly, -⟩ := totally_ordered
  exact ⟨shorter, unhinted, trans plain longer hinted shorter unhinted,
    (distinctly _).2.2 _ distinct same⟩

end ParseError

end Parsing
