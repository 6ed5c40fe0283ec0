import SolanaArbBot.Lib.Runs

/-! A value that lives in memory and is saved now and then. A save writes down the
value it was begun with; a crash falls back to the last save that was completed. -/
namespace SolanaArbBot.Lib

structure Checkpointed (S : Type) where
  live : S
  taken : Option S
  saved : Option S

inductive CheckpointOp (L : Type) where
  | change (l : L)
  | take
  | commit
  | abandon
  | crash

/-- What one step does, for the changes of the live value and for what a crash
makes of the last save. -/
inductive CheckpointStep {S L : Type} (Change : S → L → S → Prop) (Recover : Option S → S → Prop) :
    Checkpointed S → CheckpointOp L → Checkpointed S → Prop
  | change {c} (l) {s} (h : Change c.live l s) :
      CheckpointStep Change Recover c (.change l) { c with live := s }
  | take {c} : CheckpointStep Change Recover c .take { c with taken := some c.live }
  | commit {c} {s} (h : c.taken = some s) :
      CheckpointStep Change Recover c .commit { c with taken := none, saved := some s }
  | abandon {c} : CheckpointStep Change Recover c .abandon { c with taken := none }
  | crash {c} {s} (h : Recover c.saved s) :
      CheckpointStep Change Recover c .crash { c with live := s, taken := none }

namespace Checkpointed
variable {S L : Type} {Change : S → L → S → Prop} {Recover : Option S → S → Prop}

def start (s : S) : Checkpointed S := ⟨s, none, none⟩

/-- The saves after a step that leaves the given value live. -/
def next (c : Checkpointed S) (op : CheckpointOp L) (live : S) : Checkpointed S :=
  match op with
  | .change _ => { c with live := live }
  | .take => { c with live := live, taken := some live }
  | .commit => { live := live, taken := none, saved := c.taken }
  | .abandon => { c with live := live, taken := none }
  | .crash => { c with live := live, taken := none }

/-- A step is determined by its label and the value it leaves live. -/
theorem eq_next {c c' : Checkpointed S} {op : CheckpointOp L}
    (h : CheckpointStep Change Recover c op c') : c' = c.next op c'.live := by
  cases h with
  | commit h =>
    rw [next, h]
  | _ => rfl

variable (Change Recover) in
/-- A step of the saves leads to a state of the view, or without a step c is in it. -/
def Matched (V : Checkpointed S → Prop) (c : Checkpointed S) : Option (CheckpointOp L) → Prop
  | none => V c
  | some op => ∃ c', CheckpointStep Change Recover c op c' ∧ V c'

section Follow
variable {M E : Type} {C : M → E → M → Prop} (view : E → Option (CheckpointOp L)) (live : M → S)

/-- The saves along a trace of a machine, whose events are saves, changes or neither. -/
def follow (c : Checkpointed S) (tr : List (E × M)) : Checkpointed S :=
  tr.foldl (fun c e => match view e.1 with
    | none => c
    | some op => c.next op (live e.2)) c

theorem follow_append (c : Checkpointed S) (tr tr' : List (E × M)) :
    follow view live c (tr ++ tr') = follow view live (follow view live c tr) tr' :=
  List.foldl_append

theorem follow_concat (c : Checkpointed S) (tr : List (E × M)) (e : E × M) :
    follow view live c (tr ++ [e]) = match view e.1 with
      | none => follow view live c tr
      | some op => (follow view live c tr).next op (live e.2) := List.foldl_append

/-- A machine whose steps are matched by steps of the saves refines them: its traces
give traces of the saves, in the order of its events. -/
theorem follow_refines {V : M → Checkpointed S → Prop} (hlive : ∀ m c, V m c → c.live = live m)
    (hstep : ∀ m c e m', V m c → C m e m' → Matched Change Recover (V m') c (view e))
    {m : M} {c : Checkpointed S} (h0 : V m c) {tr : List (E × M)} (htr : AllSteps C m tr) :
    V (lastState m tr) (follow view live c tr) ∧
      ∃ ctr, AllSteps (CheckpointStep Change Recover) c ctr ∧
        labels ctr = (labels tr).filterMap view ∧ lastState c ctr = follow view live c tr := by
  induction tr generalizing m c with
  | nil => exact ⟨h0, [], trivial, rfl, rfl⟩
  | cons e tr ih =>
    have hs := hstep m c e.1 e.2 h0 htr.1
    have hfollow : follow view live c (e :: tr) = follow view live (match view e.1 with
      | none => c
      | some op => c.next op (live e.2)) tr := rfl
    rw [hfollow, labels_cons]
    cases hv : view e.1 with
    | none =>
      rw [hv] at hs
      rw [List.filterMap_cons_none hv]
      exact ih hs htr.2
    | some op =>
      rw [hv] at hs
      obtain ⟨c', hc, hV⟩ := hs
      have hnext : c' = c.next op (live e.2) := hlive e.2 c' hV ▸ eq_next hc
      obtain ⟨hlast, ctr, hctr, hlabels, hend⟩ := ih hV htr.2
      dsimp only
      rw [← hnext, List.filterMap_cons_some hv]
      exact ⟨hlast, (op, c') :: ctr, ⟨hc, hctr⟩, congrArg _ hlabels, hend⟩

end Follow

def Everywhere (P : S → Prop) (c : Checkpointed S) : Prop :=
  P c.live ∧ (∀ s ∈ c.taken, P s) ∧ ∀ s ∈ c.saved, P s

theorem everywhere_start {P : S → Prop} {s : S} (h : P s) : (start s).Everywhere P :=
  ⟨h, fun _ he => (nomatch he), fun _ he => (nomatch he)⟩

/-- What changes keep, and recovery from a value that has it gives, holds everywhere. -/
theorem everywhere_step {P : S → Prop} {c c' : Checkpointed S} {op : CheckpointOp L}
    (h : c.Everywhere P) (hs : CheckpointStep Change Recover c op c')
    (hchange : ∀ s l t, op = .change l → P s → Change s l t → P t)
    (hrecover : ∀ o t, (∀ s ∈ o, P s) → Recover o t → P t) : c'.Everywhere P := by
  obtain ⟨hl, ht, hv⟩ := h
  cases hs with
  | change l hc => exact ⟨hchange _ l _ rfl hl hc, ht, hv⟩
  | take =>
    refine ⟨hl, ?_, hv⟩
    intro s he
    cases he
    exact hl
  | commit hc =>
    refine ⟨hl, fun _ he => (nomatch he), ?_⟩
    intro s he
    cases he
    exact ht _ hc
  | abandon => exact ⟨hl, fun _ he => (nomatch he), hv⟩
  | crash hc => exact ⟨hrecover _ _ hv hc, fun _ he => (nomatch he), hv⟩

/-- The saves in order: what is saved is below what is being saved, and both are
below what is live. -/
structure Ordered (le : S → S → Prop) (c : Checkpointed S) : Prop where
  saved_live : ∀ s ∈ c.saved, le s c.live
  taken_live : ∀ s ∈ c.taken, le s c.live
  saved_taken : ∀ s ∈ c.saved, ∀ t ∈ c.taken, le s t

theorem ordered_start {le : S → S → Prop} (s : S) : (start s).Ordered le :=
  ⟨fun _ he => (nomatch he), fun _ he => (nomatch he), fun _ he => (nomatch he)⟩

/-- Changes only grow the value, and recovery gives back what was saved. -/
structure Growing (le : S → S → Prop) (Change : S → L → S → Prop) (Recover : Option S → S → Prop) :
    Prop where
  refl : ∀ s, le s s
  trans : ∀ s t u, le s t → le t u → le s u
  change : ∀ s l t, Change s l t → le s t
  recover : ∀ s t, Recover (some s) t → le s t

namespace Growing
variable {le : S → S → Prop} (hg : Growing le Change Recover)
include hg

/-- Saves stay in order. -/
theorem ordered_step {c c' : Checkpointed S} {op : CheckpointOp L} (h : c.Ordered le)
    (hs : CheckpointStep Change Recover c op c') : c'.Ordered le := by
  obtain ⟨hsl, htl, hst⟩ := h
  cases hs with
  | change l hc =>
    exact ⟨fun s he => hg.trans _ _ _ (hsl s he) (hg.change _ _ _ hc),
      fun s he => hg.trans _ _ _ (htl s he) (hg.change _ _ _ hc), hst⟩
  | take =>
    refine ⟨hsl, ?_, ?_⟩
    · intro s he
      cases he
      exact hg.refl _
    · intro s he t ht
      cases ht
      exact hsl s he
  | commit hc =>
    refine ⟨?_, fun _ he => (nomatch he), fun _ _ _ he => (nomatch he)⟩
    intro s he
    cases he
    exact htl _ hc
  | abandon => exact ⟨hsl, fun _ he => (nomatch he), fun _ _ _ he => (nomatch he)⟩
  | crash hc =>
    refine ⟨?_, fun _ he => (nomatch he), fun _ _ _ he => (nomatch he)⟩
    intro s he
    exact hg.recover s _ (Option.mem_def.mp he ▸ hc)

/-- A step saves nothing smaller than what was saved. -/
theorem saved_step {c c' : Checkpointed S} {op : CheckpointOp L} (h : c.Ordered le)
    (hs : CheckpointStep Change Recover c op c') : ∀ s ∈ c.saved, ∃ s' ∈ c'.saved, le s s' := by
  cases hs with
  | commit hc => exact fun s he => ⟨_, rfl, h.saved_taken s he _ hc⟩
  | change l hc => exact fun s he => ⟨s, he, hg.refl s⟩
  | take => exact fun s he => ⟨s, he, hg.refl s⟩
  | abandon => exact fun s he => ⟨s, he, hg.refl s⟩
  | crash hc => exact fun s he => ⟨s, he, hg.refl s⟩

/-- What was saved once is below what is saved, and below what is live, ever after. -/
theorem saved_forever {c : Checkpointed S} (h : c.Ordered le)
    {tr : List (CheckpointOp L × Checkpointed S)}
    (htr : AllSteps (CheckpointStep Change Recover) c tr) {s : S} (hs : s ∈ c.saved) :
    le s (lastState c tr).live ∧ ∃ s' ∈ (lastState c tr).saved, le s s' := by
  have hrun := htr.invariant (I := fun c => c.Ordered le ∧ ∃ s' ∈ c.saved, le s s')
    ⟨h, s, hs, hg.refl s⟩ (by
      rintro a op b ⟨ho, s', hs', hle⟩ hstep
      obtain ⟨s'', hs'', hle'⟩ := hg.saved_step ho hstep s' hs'
      exact ⟨hg.ordered_step ho hstep, s'', hs'', hg.trans _ _ _ hle hle'⟩)
  obtain ⟨ho, s', hs', hle⟩ := hrun
  exact ⟨hg.trans _ _ _ hle (ho.saved_live s' hs'), s', hs', hle⟩

end Growing
end Checkpointed
end SolanaArbBot.Lib
