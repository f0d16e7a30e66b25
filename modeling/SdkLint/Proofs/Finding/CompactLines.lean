import Mathlib.Algebra.Order.Ring.Nat
import SdkLint.Finding.Listing
import SdkLint.Proofs.Text.OneLine

/-!
# The lines of the compact listing

The compact listing writes every violation and a line feed behind it.  What else there is in line
feeds comes from the violations themselves: if their files and codes are on one line, from their
messages.

Main definition:

- `Report.HasLineEach`: the lines of the compact listing are the violations, one each and in order.

Main results:

- Theorem `Report.hasLineEach_iff`: this is so exactly if every violation is on one line.
- Theorem `Report.countFeeds_compact`: the number of line feeds of the listing.
-/

namespace SdkLint

/-! ## Lines of a text -/

namespace Text

theorem rawLines_append_line {cs : List Char} (h : '\n' ∉ cs) (rest : List Char) :
    rawLines (cs ++ '\n' :: rest) = (cs ++ ['\n']) :: rawLines rest := by
  induction cs with
  | nil => simp [rawLines]
  | cons c cs ih =>
    obtain ⟨hc, hcs⟩ := not_or.1 (List.mem_cons.not.1 h)
    rw [List.cons_append, rawLines, if_neg (Ne.symm hc), ih hcs]
    rfl

/-- In a line there is no line feed but the one that ends it. -/
theorem notMem_of_mem_rawLines {cs line : List Char} (h : line ++ ['\n'] ∈ rawLines cs) :
    '\n' ∉ line := by
  induction cs generalizing line with
  | nil => cases h
  | cons c cs ih =>
    rw [rawLines] at h
    split at h
    · rcases List.mem_cons.1 h with hfirst | hlater
      · rename_i hc
        obtain rfl : line = [] := by simpa [hc] using hfirst
        exact List.not_mem_nil
      · exact ih hlater
    · rename_i hc
      split at h
      · rename_i hnone
        obtain ⟨rfl, hfeed⟩ : line = [] ∧ '\n' = c := by
          simpa [List.append_eq_singleton_iff] using h
        exact List.not_mem_nil
      · rename_i first rest hrest
        rcases List.mem_cons.1 h with hfirst | hlater
        · cases line with
          | nil => simp_all
          | cons d line =>
            obtain ⟨rfl, rfl⟩ : d = c ∧ line ++ ['\n'] = first := by simpa using hfirst
            have hline := ih (hrest ▸ List.mem_cons_self)
            exact List.mem_cons.not.2 (not_or.2 ⟨Ne.symm hc, hline⟩)
        · exact ih (hrest ▸ List.mem_cons_of_mem _ hlater)

end Text

open Text

/-! ## Violations -/

theorem Severity.oneLine_name (s : Severity) : OneLine s.name := by
  cases s <;> decide

namespace Violation

variable {v : Violation}

/-- On the line of a violation all line feeds are those of its message, if its file and its code have
none. -/
theorem countFeeds_line (hfile : OneLine v.location.file) (hcode : OneLine v.code) :
    countFeeds v.line = countFeeds v.message := by
  have hplace : OneLine (v.place ++ ": " ++ v.severity.name ++ " [" ++ v.code ++ "] ") := by
    simp +decide [place, hfile, hcode, v.severity.oneLine_name]
  rw [line, countFeeds_append, countFeeds_eq_zero.2 hplace, Nat.zero_add]

theorem oneLine_line_iff (hfile : OneLine v.location.file) (hcode : OneLine v.code) :
    OneLine v.line ↔ OneLine v.message := by
  rw [← countFeeds_eq_zero, ← countFeeds_eq_zero, countFeeds_line hfile hcode]

end Violation

/-! ## The listing -/

namespace Report

variable {r : Report}

/-- The lines of the compact listing are the violations, one each and in order. -/
def HasLineEach (r : Report) : Prop :=
  rawLines r.compact.toList = r.violations.map fun v => v.line.toList ++ ['\n']

instance (r : Report) : Decidable r.HasLineEach :=
  inferInstanceAs (Decidable (_ = _))

theorem toList_compact (r : Report) :
    r.compact.toList = r.violations.flatMap fun v => v.line.toList ++ ['\n'] := by
  rw [compact, String.toList_join, List.flatMap_map]
  exact List.flatMap_congr fun v _ => String.toList_append

/-- The compact listing has a line for each violation exactly if every violation is on one line. -/
theorem hasLineEach_iff : r.HasLineEach ↔ ∀ v ∈ r.violations, OneLine v.line := by
  rw [HasLineEach, toList_compact]
  constructor
  · intro h v hv
    have hmem : v.line.toList ++ ['\n'] ∈ r.violations.map fun v => v.line.toList ++ ['\n'] :=
      List.mem_map.2 ⟨v, hv, rfl⟩
    rw [← h] at hmem
    exact notMem_of_mem_rawLines hmem
  · intro h
    generalize r.violations = violations at h
    induction violations with
    | nil => rfl
    | cons v violations ih =>
      obtain ⟨hv, hrest⟩ := List.forall_mem_cons.1 h
      rw [List.flatMap_cons, List.append_assoc, List.singleton_append, rawLines_append_line hv,
        ih hrest, List.map_cons]

/-- The line feeds of the compact listing are one for each violation and those of the messages. -/
theorem countFeeds_compact
    (h : ∀ v ∈ r.violations, OneLine v.location.file ∧ OneLine v.code) :
    countFeeds r.compact =
      r.violations.length + (r.violations.map fun v => countFeeds v.message).sum := by
  rw [countFeeds, toList_compact]
  generalize r.violations = violations at h
  induction violations with
  | nil => rfl
  | cons v violations ih =>
    obtain ⟨⟨hfile, hcode⟩, hrest⟩ := List.forall_mem_cons.1 h
    have hline : v.line.toList.count '\n' = countFeeds v.message :=
      Violation.countFeeds_line hfile hcode
    rw [List.flatMap_cons, List.count_append, List.count_append, hline, ih hrest,
      List.count_singleton_self, List.length_cons, List.map_cons, List.sum_cons]
    omega

end Report

end SdkLint
