import Mathlib.Data.List.Dedup
import Mathlib.Data.List.Destutter
import Mathlib.Data.List.Sort

/-! Sorting followed by the removal of neighbours that are equal: a list that says no
more than which elements there are. -/
namespace SolanaArbBot.Lib
variable {α : Type} [DecidableEq α] (r : α → α → Prop) [DecidableRel r]

def sortDedup (l : List α) : List α := (l.insertionSort r).destutter (· ≠ ·)

variable {r} [Std.Total r] [IsTrans α r] [Std.Antisymm r]

theorem sortDedup_eq_dedup (l : List α) : sortDedup r l = (l.insertionSort r).dedup :=
  (List.pairwise_insertionSort r l).destutter_eq_dedup

theorem mem_sortDedup {l : List α} {x : α} : x ∈ sortDedup r l ↔ x ∈ l := by
  rw [sortDedup_eq_dedup, List.mem_dedup, List.mem_insertionSort]

theorem nodup_sortDedup (l : List α) : (sortDedup r l).Nodup := by
  rw [sortDedup_eq_dedup]
  exact List.nodup_dedup _

end SolanaArbBot.Lib
