import Mathlib

/-! Requests that run side by side, of which the first success counts. Once there is one
the others are dropped, and when all have failed the last failure counts. -/
namespace SolanaArbBot.Lib

/-- The members still running, the last failure, and the success once there is one. The
last field is kept for the record: who came in, in order, with what. -/
structure Race (I E A : Type) where
  pending : List I
  lastErr : Option E
  won : Option A
  arrived : List (I × Except E A)

namespace Race
variable {I E A : Type}

def start (members : List I) : Race I E A := ⟨members, none, none, []⟩

def arrive [DecidableEq I] (r : Race I E A) (i : I) (result : Except E A) : Option (Race I E A) :=
  if r.won.isNone ∧ i ∈ r.pending then
    let r := { r with pending := r.pending.erase i, arrived := r.arrived ++ [(i, result)] }
    match result with
    | .ok a => some { r with won := some a }
    | .error e => some { r with lastErr := some e }
  else none

def outcome (fallback : E) (r : Race I E A) : Option (Except E A) :=
  match r.won with
  | some a => some (.ok a)
  | none => if r.pending.isEmpty then some (.error (r.lastErr.getD fallback)) else none

def failures (arrived : List (I × Except E A)) : List E :=
  arrived.filterMap fun c => match c.2 with
    | .error e => some e
    | .ok _ => none

/-- Everyone is accounted for, and only the last to come in may have succeeded. -/
structure Fair (members : List I) (r : Race I E A) : Prop where
  everyone : (r.arrived.map Prod.fst ++ r.pending).Perm members
  running : r.won = none → (∀ c ∈ r.arrived, ∃ e, c.2 = .error e) ∧ r.lastErr = (failures r.arrived).getLast?
  decided : ∀ a, r.won = some a → ∃ before i, r.arrived = before ++ [(i, .ok a)] ∧
    ∀ c ∈ before, ∃ e, c.2 = .error e

variable {members : List I} {r r' : Race I E A}

theorem Fair.start (members : List I) : Fair members (Race.start members : Race I E A) where
  everyone := List.Perm.refl _
  running _ := ⟨fun _ hc => absurd hc List.not_mem_nil, rfl⟩
  decided a h := by cases h

section Arrive
variable [DecidableEq I] {i : I} {result : Except E A}

theorem arrive_cases (h : r.arrive i result = some r') : r.won = none ∧ i ∈ r.pending ∧
    r'.pending = r.pending.erase i ∧ r'.arrived = r.arrived ++ [(i, result)] ∧
      ((∃ a, result = .ok a ∧ r'.won = some a ∧ r'.lastErr = r.lastErr) ∨
        ∃ e, result = .error e ∧ r'.won = none ∧ r'.lastErr = some e) := by
  unfold arrive at h
  split at h
  · next hc =>
    obtain ⟨hwon, hi⟩ := hc
    have hnone := Option.isNone_iff_eq_none.mp hwon
    cases result with
    | ok a =>
      cases h
      exact ⟨hnone, hi, rfl, rfl, Or.inl ⟨a, rfl, rfl, rfl⟩⟩
    | error e =>
      cases h
      exact ⟨hnone, hi, rfl, rfl, Or.inr ⟨e, rfl, hnone, rfl⟩⟩
  · cases h

theorem Fair.arrive (hf : Fair members r) (h : r.arrive i result = some r') : Fair members r' := by
  obtain ⟨hnone, hi, hpending, harrived, hresult⟩ := arrive_cases h
  obtain ⟨hall, hlast⟩ := hf.running hnone
  refine ⟨?_, ?_, ?_⟩
  · rw [hpending, harrived, List.map_append, List.append_assoc]
    exact ((List.perm_cons_erase hi).symm.append_left _).trans hf.everyone
  · intro hrunning
    rcases hresult with ⟨a, _, hwon, _⟩ | ⟨e, rfl, _, herr⟩
    · rw [hwon] at hrunning
      cases hrunning
    · rw [herr, harrived]
      refine ⟨?_, ?_⟩
      · exact List.forall_mem_append.mpr ⟨hall, List.forall_mem_singleton.mpr ⟨e, rfl⟩⟩
      · simp [failures]
  · intro a hwon
    rcases hresult with ⟨a', rfl, hwon', _⟩ | ⟨e, _, hwon', _⟩
    · rw [hwon'] at hwon
      cases hwon
      exact ⟨r.arrived, i, harrived, hall⟩
    · rw [hwon'] at hwon
      cases hwon

end Arrive

/-- A success is returned as soon as someone succeeds, and it is the first one. -/
theorem Fair.outcome_ok (hf : Fair members r) {fallback : E} {a : A}
    (h : r.outcome fallback = some (.ok a)) : ∃ before i, r.arrived = before ++ [(i, .ok a)] ∧
      ∀ c ∈ before, ∃ e, c.2 = .error e := by
  apply hf.decided
  unfold outcome at h
  split at h
  · next hwon =>
    cases h
    exact hwon
  · split at h <;> cases h

/-- A failure is returned only when everyone failed, and it is the last one. -/
theorem Fair.outcome_error (hf : Fair members r) {fallback e : E}
    (h : r.outcome fallback = some (.error e)) : (r.arrived.map Prod.fst).Perm members ∧
      (∀ c ∈ r.arrived, ∃ e, c.2 = .error e) ∧
      ((members = [] ∧ e = fallback) ∨ ∃ before i, r.arrived = before ++ [(i, .error e)]) := by
  unfold outcome at h
  split at h
  · cases h
  · next hwon =>
    obtain ⟨hall, hlast⟩ := hf.running hwon
    split at h
    · next hempty =>
      have heveryone := hf.everyone
      rw [List.isEmpty_iff.mp hempty, List.append_nil] at heveryone
      refine ⟨heveryone, hall, ?_⟩
      cases h
      cases harrived : r.arrived using List.reverseRecOn with
      | nil =>
        rw [hlast, harrived]
        rw [harrived] at heveryone
        exact Or.inl ⟨heveryone.nil_eq.symm, rfl⟩
      | append_singleton before c _ =>
        obtain ⟨i, result⟩ := c
        obtain ⟨e, he⟩ := hall (i, result) (harrived ▸ List.mem_append_right _ List.mem_cons_self)
        cases he
        refine Or.inr ⟨before, i, ?_⟩
        rw [hlast, harrived]
        simp [failures]
    · cases h

/-- As long as nothing is returned, someone is still running, and may come in with anything. -/
theorem arrive_isSome [DecidableEq I] {fallback : E} (h : r.outcome fallback = none) :
    ∃ i ∈ r.pending, ∀ result, (r.arrive i result).isSome := by
  unfold outcome at h
  split at h
  · cases h
  · next hwon =>
    split at h
    · cases h
    · next hpending =>
      obtain ⟨i, hi⟩ := List.exists_mem_of_ne_nil _ fun hnil => hpending (List.isEmpty_iff.mpr hnil)
      refine ⟨i, hi, ?_⟩
      intro result
      unfold arrive
      rw [if_pos ⟨Option.isNone_iff_eq_none.mpr hwon, hi⟩]
      cases result <;> rfl

end Race
end SolanaArbBot.Lib
