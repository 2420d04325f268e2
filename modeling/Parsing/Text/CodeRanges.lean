/-!
# Ranges of code points

A class of characters is kept as closed ranges of code points, ascending and apart.  `covers`
looks a code point up; on a list in order it says exactly whether some range holds it
(`covers_iff`).
-/

namespace Parsing.Text

/-- Closed ranges of code points, lowest first. -/
abbrev CodeRanges := List (Nat × Nat)

namespace CodeRanges

/-- Whether a code point lies in one of the ranges: the first range that does not end below it
decides. -/
def covers : CodeRanges → Nat → Bool
  | [], _ => false
  | (low, high) :: rest, n => if n ≤ high then decide (low ≤ n) else covers rest n

/-- Every range holds a code point, and starts above the end of the one before. -/
def Ordered : CodeRanges → Prop
  | [] => True
  | (low, high) :: rest => low ≤ high ∧ (∀ r ∈ rest, high < r.1) ∧ Ordered rest

theorem covers_iff {ranges : CodeRanges} (ordered : ranges.Ordered) (n : Nat) :
    ranges.covers n = true ↔ ∃ r ∈ ranges, r.1 ≤ n ∧ n ≤ r.2 := by
  induction ranges with
  | nil => simp [covers]
  | cons r rest ih =>
    obtain ⟨low, high⟩ := r
    obtain ⟨_, above, ordered⟩ := ordered
    by_cases h : n ≤ high
    · simp only [covers, h, if_true, decide_eq_true_eq, List.mem_cons]
      refine ⟨fun hl => ⟨_, .inl rfl, hl, h⟩, ?_⟩
      rintro ⟨r, rfl | hr, hl, hh⟩
      · exact hl
      · have := above r hr
        omega
    · simp only [covers, h, if_false, ih ordered, List.mem_cons]
      refine ⟨fun ⟨r, hr, hn⟩ => ⟨r, .inr hr, hn⟩, ?_⟩
      rintro ⟨r, rfl | hr, hn⟩
      · exact absurd hn.2 h
      · exact ⟨r, hr, hn⟩

end CodeRanges

end Parsing.Text
