import Mathlib

/-! Any number of threads over a shared state, one of them taking a step at a
time. A quantity of the whole is a part for the shared state and one for each
thread, and a step has to be looked at for the thread that takes it alone. -/
namespace SolanaArbBot.Lib

structure Pool (S T : Type) where
  shared : S
  threads : List T

namespace Pool
variable {S T M : Type} {ts : List T} {i : Nat} {t t' : T}

def update (p : Pool S T) (i : Nat) (s' : S) (t' : T) : Pool S T := ⟨s', p.threads.set i t'⟩

def spawn (p : Pool S T) (t : T) : Pool S T := ⟨p.shared, p.threads ++ [t]⟩

/-- A quantity of the shared state and of each thread, added up. -/
def total [AddCommMonoid M] (f : S → M) (w : T → M) (p : Pool S T) : M :=
  f p.shared + (p.threads.map w).sum

theorem mem_set (hi : t ∈ ts.set i t') : t = t' ∨ t ∈ ts := by
  rcases List.mem_or_eq_of_mem_set hi with h | h
  · exact Or.inr h
  · exact Or.inl h

/-- Replacing a thread exchanges its share of the sum. -/
theorem sum_set [AddCommMonoid M] (w : T → M) (h : ts[i]? = some t) (t' : T) :
    ((ts.set i t').map w).sum + w t = (ts.map w).sum + w t' := by
  induction ts generalizing i with
  | nil => cases h
  | cons u us ih =>
    cases i with
    | zero =>
      cases h
      simp only [List.set_cons_zero, List.map_cons, List.sum_cons]
      exact add_right_comm _ _ _ |>.trans (by rw [add_comm (w t'), add_right_comm])
    | succ i =>
      simp only [List.set_cons_succ, List.map_cons, List.sum_cons, add_assoc]
      rw [ih h]

variable {p : Pool S T} {s' : S}

/-- After a step a thread is the one that took it or stands as before. -/
theorem getElem?_update {j : Nat} {u : T} (h : (p.update i s' t').threads[j]? = some u) :
    (j = i ∧ u = t') ∨ p.threads[j]? = some u := by
  rw [update, List.getElem?_set] at h
  split at h
  · next he =>
    split at h
    · exact Or.inl ⟨he.symm, (Option.some.inj h).symm⟩
    · cases h
  · exact Or.inr h

theorem getElem?_update_self (h : p.threads[i]? = some t) : (p.update i s' t').threads[i]? = some t' :=
  List.getElem?_set_self (List.getElem?_eq_some_iff.mp h).1

theorem getElem?_update_ne {j : Nat} (h : i ≠ j) : (p.update i s' t').threads[j]? = p.threads[j]? :=
  List.getElem?_set_ne h

theorem getElem?_spawn {j : Nat} {u : T} (h : (p.spawn t).threads[j]? = some u) :
    (j = p.threads.length ∧ u = t) ∨ p.threads[j]? = some u := by
  rw [spawn, List.getElem?_append] at h
  split at h
  · exact Or.inr h
  · next hj =>
    rw [List.getElem?_singleton] at h
    split at h
    · exact Or.inl ⟨by omega, (Option.some.inj h).symm⟩
    · cases h

/-- A step exchanges its thread's share of a quantity and that of the shared state. -/
theorem total_update_add [AddCommMonoid M] (f : S → M) (w : T → M) (h : p.threads[i]? = some t)
    (s' : S) (t' : T) :
    (p.update i s' t').total f w + (f p.shared + w t) = p.total f w + (f s' + w t') := by
  have hs := sum_set w h t'
  calc f s' + ((p.threads.set i t').map w).sum + (f p.shared + w t)
      = f s' + f p.shared + (((p.threads.set i t').map w).sum + w t) := add_add_add_comm _ _ _ _
    _ = f p.shared + f s' + ((p.threads.map w).sum + w t') := by rw [hs, add_comm (f s')]
    _ = f p.shared + (p.threads.map w).sum + (f s' + w t') := add_add_add_comm _ _ _ _

/-- A step that keeps its thread's share of a quantity keeps the quantity. -/
theorem total_update [AddCancelCommMonoid M] {f : S → M} {w : T → M} (h : p.threads[i]? = some t)
    (hk : f s' + w t' = f p.shared + w t) : (p.update i s' t').total f w = p.total f w := by
  have he := total_update_add f w h s' t'
  rw [hk] at he
  exact add_right_cancel he

theorem total_spawn [AddCommMonoid M] (f : S → M) (w : T → M) (p : Pool S T) (t : T) :
    (p.spawn t).total f w = p.total f w + w t := by
  simp [total, spawn, add_assoc]

/-- A step that does not raise its thread's share does not raise the quantity. -/
theorem total_update_le [AddCommMonoid M] [PartialOrder M] [IsOrderedCancelAddMonoid M]
    {f : S → M} {w : T → M} (h : p.threads[i]? = some t) (hk : f s' + w t' ≤ f p.shared + w t) :
    (p.update i s' t').total f w ≤ p.total f w := by
  have he := total_update_add f w h s' t'
  apply le_of_add_le_add_right (a := f p.shared + w t)
  rw [he]
  exact add_le_add_right hk _

theorem sum_eq_zero [AddCommMonoid M] {w : T → M} (h : ∀ t ∈ ts, w t = 0) : (ts.map w).sum = 0 := by
  induction ts with
  | nil => rfl
  | cons u us ih =>
    rw [List.map_cons, List.sum_cons, h u List.mem_cons_self, zero_add]
    exact ih fun t ht => h t (List.mem_cons_of_mem _ ht)

/-- Threads that each count for nothing or for one are counted. -/
theorem sum_indicator (q : T → Bool) (ts : List T) :
    (ts.map fun t => if q t then (1 : Int) else 0).sum = ts.countP q := by
  induction ts with
  | nil => rfl
  | cons u us ih =>
    rw [List.map_cons, List.sum_cons, List.countP_cons, ih]
    split <;> push_cast <;> omega

/-- Threads that are all on a list are no more than it is long. -/
theorem countP_le_length {q : T → Bool} {is : List Nat} (h : ∀ i t, ts[i]? = some t → q t → i ∈ is) :
    ts.countP q ≤ is.length := by
  rw [← List.length_findIdxs (s := 0)]
  refine (List.subperm_of_subset List.nodup_findIdxs ?_).length_le
  intro i hi
  obtain ⟨hlt, hq⟩ := List.mem_findIdxs_iff_exists_getElem_pos.mp hi
  exact h i _ (List.getElem?_eq_getElem hlt) hq

end Pool
end SolanaArbBot.Lib
