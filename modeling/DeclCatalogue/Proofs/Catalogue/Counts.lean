import DeclCatalogue.Proofs.Catalogue.Replay
import Mathlib.Algebra.GroupWithZero.Nat

/-!
# Counting the records of a context

The line that is printed for a context counts the records of each list of its bucket, and leaves out
the lists that are empty. `size_ofPushes` says that the bucket of some pushes holds as many records
as there are pushes; so the counts in the line add up to the number of records that were pushed
under the context, and since a bucket is only made for a push, at least one of them is shown
(`shownCounts_replay`).
-/

namespace DeclCatalogue

namespace Bucket

/-- The counts that the line of a context shows. -/
def shownCounts (b : Bucket) : List (String × Nat) :=
  b.counts.filter fun c => c.2 ≠ 0

/-- How many records a bucket holds. -/
def size (b : Bucket) : Nat :=
  (b.counts.map (·.2)).sum

/-- Counts that are left out add nothing. -/
theorem sum_shownCounts (b : Bucket) : (b.shownCounts.map (·.2)).sum = b.size := by
  unfold shownCounts size
  induction b.counts with
  | nil => rfl
  | cons c rest ih =>
    by_cases hzero : c.2 = 0
    · rw [List.filter_cons_of_neg (by simpa using hzero), ih, List.map_cons, List.sum_cons, hzero,
        Nat.zero_add]
    · rw [List.filter_cons_of_pos (by simpa using hzero), List.map_cons, List.sum_cons, ih,
        List.map_cons, List.sum_cons]

/-- A push to a context adds one record. -/
theorem size_add {p : Push} (h : p.context?.isSome = true) (b : Bucket) :
    (b.add p).size = b.size + 1 := by
  cases p with
  | declaration heading record context =>
    cases heading <;> simp [add, addDeclaration, size, counts] <;> omega
  | variableRecord record context => simp [add, addVariable, size, counts]; omega
  | exportRecord record context => simp [add, addExport, size, counts]; omega
  | namespaceName name => cases h
  | importRecord record => cases h

/-- **A bucket holds a record for each of its pushes.** -/
theorem size_ofPushes {ps : List Push} (h : ∀ p ∈ ps, p.context?.isSome = true) :
    (ofPushes ps).size = ps.length := by
  induction ps using List.reverseRecOn with
  | nil => rfl
  | append_singleton rest p ih =>
    have hrest : ∀ q ∈ rest, q.context?.isSome = true := fun q hq => h q (List.mem_append_left _ hq)
    have hp := h p (List.mem_append_right _ (List.mem_singleton_self p))
    rw [ofPushes_append_singleton, size_add hp, ih hrest, List.length_append, List.length_singleton]

theorem shownCounts_ne_nil {b : Bucket} (h : b.isEmpty = false) : b.shownCounts ≠ [] := by
  intro hnone
  have hzero := List.filter_eq_nil_iff.mp hnone
  unfold isEmpty at h
  obtain ⟨c, hc, hcount⟩ := List.all_eq_false.mp h
  exact hzero c hc (by simpa using hcount)

end Bucket

/-- Whatever goes to the bucket of a key has a context. -/
theorem Push.context?_of_goesTo {key : Json} {p : Push} (h : p.goesTo key = true) :
    p.context?.isSome = true := by
  obtain ⟨context, hcontext, -⟩ := (Option.any_eq_true _ _).mp h
  exact Option.isSome_iff_exists.mpr ⟨context, hcontext⟩

/-- **The counts of a context** add up to the number of records pushed under it, and some are shown.
-/
theorem Catalogue.shownCounts_replay {ps : List Push} (h : ∀ p ∈ ps, p.isUsable = true)
    {entry : Json × Bucket} (hentry : entry ∈ (Catalogue.empty.replay ps).buckets) :
    (entry.2.shownCounts.map (·.2)).sum = ps.countP (Push.goesTo entry.1) ∧
      entry.2.shownCounts ≠ [] := by
  rw [replay_empty h] at hentry
  refine ⟨?_, Bucket.shownCounts_ne_nil (ofPushes_not_isEmpty h hentry)⟩
  obtain ⟨key, -, rfl⟩ := List.mem_map.mp hentry
  rw [Bucket.sum_shownCounts, List.countP_eq_length_filter]
  exact Bucket.size_ofPushes fun p hp => Push.context?_of_goesTo (List.mem_filter.mp hp).2

end DeclCatalogue
