import Mathlib.Data.List.Induction
import Mathlib.Tactic.Common

/-! Traces of a labelled transition system: each step is listed with its label
and the state it led to, so a property can speak of every step of a run. -/
namespace SolanaArbBot.Lib
variable {S L : Type} {C : S → L → S → Prop}

/-- Every step of the trace from s meets C. -/
def AllSteps (C : S → L → S → Prop) (s : S) : List (L × S) → Prop
  | [] => True
  | e :: tr => C s e.1 e.2 ∧ AllSteps C e.2 tr

instance AllSteps.decidable (C : S → L → S → Prop) [∀ s l t, Decidable (C s l t)] :
    (s : S) → (tr : List (L × S)) → Decidable (AllSteps C s tr)
  | _, [] => isTrue trivial
  | _, e :: tr =>
    have := AllSteps.decidable C e.2 tr
    inferInstanceAs (Decidable (C _ e.1 e.2 ∧ AllSteps C e.2 tr))

def SomeStep (C : S → L → S → Prop) (s : S) : List (L × S) → Prop
  | [] => False
  | e :: tr => C s e.1 e.2 ∨ SomeStep C e.2 tr

def lastState (s : S) : List (L × S) → S
  | [] => s
  | e :: tr => lastState e.2 tr

def labels (tr : List (L × S)) : List L := tr.map Prod.fst

@[simp] theorem labels_nil : labels ([] : List (L × S)) = [] := rfl

@[simp] theorem labels_cons (e : L × S) (tr : List (L × S)) :
    labels (e :: tr) = e.1 :: labels tr := rfl

@[simp] theorem labels_append (tr tr' : List (L × S)) :
    labels (tr ++ tr') = labels tr ++ labels tr' := List.map_append

@[simp] theorem lastState_append (s : S) (tr tr' : List (L × S)) :
    lastState s (tr ++ tr') = lastState (lastState s tr) tr' := by
  induction tr generalizing s with
  | nil => rfl
  | cons e tr ih => exact ih e.2

theorem allSteps_append {s : S} {tr tr' : List (L × S)} :
    AllSteps C s (tr ++ tr') ↔ AllSteps C s tr ∧ AllSteps C (lastState s tr) tr' := by
  induction tr generalizing s with
  | nil => exact ⟨fun h => ⟨trivial, h⟩, fun h => h.2⟩
  | cons e tr ih => exact (and_congr_right fun _ => ih).trans and_assoc.symm

theorem someStep_append {s : S} {tr tr' : List (L × S)} :
    SomeStep C s (tr ++ tr') ↔ SomeStep C s tr ∨ SomeStep C (lastState s tr) tr' := by
  induction tr generalizing s with
  | nil => exact (false_or _).to_iff.symm
  | cons e tr ih => exact (or_congr_right ih).trans or_assoc.symm

/-- What some step meets, some step of a longer trace meets. -/
theorem SomeStep.append {s : S} {tr : List (L × S)} (h : SomeStep C s tr) (tr' : List (L × S)) :
    SomeStep C s (tr ++ tr') := someStep_append.mpr (Or.inl h)

/-- What the last step meets, some step meets. -/
theorem SomeStep.last {s t : S} {l : L} {tr : List (L × S)} (h : C (lastState s tr) l t) :
    SomeStep C s (tr ++ [(l, t)]) := someStep_append.mpr (Or.inr (Or.inl h))

/-- A step that some condition singles out has its label in the trace. -/
theorem SomeStep.exists_label {s : S} {tr : List (L × S)} (h : SomeStep C s tr) :
    ∃ t l t', C t l t' ∧ l ∈ labels tr := by
  induction tr generalizing s with
  | nil => exact h.elim
  | cons e tr ih =>
    rcases h with h | h
    · exact ⟨_, _, _, h, List.mem_cons_self⟩
    · obtain ⟨t, l, t', hc, hm⟩ := ih h
      exact ⟨t, l, t', hc, List.mem_cons_of_mem _ hm⟩

theorem SomeStep.mono {D : S → L → S → Prop} {s : S} {tr : List (L × S)} (h : SomeStep C s tr)
    (hd : ∀ s l t, C s l t → D s l t) : SomeStep D s tr := by
  induction tr generalizing s with
  | nil => exact h
  | cons e tr ih => exact h.imp (hd _ _ _) ih

/-- Of a step that some condition singles out, what all steps meet holds as well. -/
theorem SomeStep.and {D : S → L → S → Prop} {s : S} {tr : List (L × S)} (h : SomeStep C s tr)
    (hd : AllSteps D s tr) : SomeStep (fun s l t => C s l t ∧ D s l t) s tr := by
  induction tr generalizing s with
  | nil => exact h.elim
  | cons e tr ih =>
    rcases h with h | h
    · exact Or.inl ⟨h, hd.1⟩
    · exact Or.inr (ih h hd.2)

theorem SomeStep.exists_step {D : S → L → S → Prop} {s : S} {tr : List (L × S)} (h : SomeStep C s tr)
    (hd : AllSteps D s tr) : ∃ t l t', C t l t' ∧ D t l t' := by
  obtain ⟨t, l, t', hc, _⟩ := (h.and hd).exists_label
  exact ⟨t, l, t', hc⟩

/-- A condition on labels alone is one on the labels of the trace. -/
theorem allSteps_label_iff {D : L → Prop} {s : S} {tr : List (L × S)} :
    AllSteps (fun _ l _ => D l) s tr ↔ ∀ l ∈ labels tr, D l := by
  induction tr generalizing s with
  | nil => simp [AllSteps]
  | cons e tr ih =>
    rw [labels_cons, List.forall_mem_cons, ← ih (s := e.2)]
    rfl

theorem AllSteps.mono {D : S → L → S → Prop} {s : S} {tr : List (L × S)} (h : AllSteps C s tr)
    (hd : ∀ s l t, C s l t → D s l t) : AllSteps D s tr := by
  induction tr generalizing s with
  | nil => trivial
  | cons e tr ih => exact ⟨hd _ _ _ h.1, ih h.2⟩

/-- Each step of a trace is one that its condition singles out. -/
theorem allSteps_someStep (s : S) (tr : List (L × S)) :
    AllSteps (fun s' l t => ∀ D : S → L → S → Prop, D s' l t → SomeStep D s tr) s tr := by
  induction tr generalizing s with
  | nil => trivial
  | cons e tr ih => exact ⟨fun D hd => Or.inl hd, (ih e.2).mono fun _ _ _ h D hd => Or.inr (h D hd)⟩

/-- What every step keeps, given the trace so far, holds at the end of the trace. -/
theorem AllSteps.history {P : List (L × S) → S → Prop} {s : S} {tr : List (L × S)}
    (h : AllSteps C s tr) (h0 : P [] s)
    (hs : ∀ tr l t, P tr (lastState s tr) → C (lastState s tr) l t → P (tr ++ [(l, t)]) t) :
    P tr (lastState s tr) := by
  induction tr using List.reverseRecOn with
  | nil => exact h0
  | append_singleton tr e ih =>
    obtain ⟨hp, hc, _⟩ := allSteps_append.mp h
    rw [lastState_append]
    exact hs tr e.1 e.2 (ih hp) hc

/-- The invariant rule. -/
theorem AllSteps.invariant {I : S → Prop} {s : S} {tr : List (L × S)} (h : AllSteps C s tr)
    (h0 : I s) (hs : ∀ s l t, I s → C s l t → I t) : I (lastState s tr) :=
  h.history (P := fun _ s => I s) h0 fun _ l t => hs _ l t

/-- An invariant holds in every state of the trace. -/
theorem AllSteps.forall_states {I : S → Prop} {s : S} {tr : List (L × S)} (h : AllSteps C s tr)
    (h0 : I s) (hs : ∀ s l t, I s → C s l t → I t) : ∀ e ∈ tr, I e.2 := by
  induction tr generalizing s with
  | nil => exact fun e he => absurd he List.not_mem_nil
  | cons e tr ih =>
    have hi := hs _ _ _ h0 h.1
    exact List.forall_mem_cons.mpr ⟨hi, ih h.2 hi⟩

theorem AllSteps.and {D : S → L → S → Prop} {s : S} {tr : List (L × S)} (h : AllSteps C s tr)
    (hd : AllSteps D s tr) : AllSteps (fun s l t => C s l t ∧ D s l t) s tr := by
  induction tr generalizing s with
  | nil => trivial
  | cons e tr ih => exact ⟨⟨h.1, hd.1⟩, ih h.2 hd.2⟩

/-- Under an invariant every step has it before and after. -/
theorem AllSteps.withInvariant {I : S → Prop} {s : S} {tr : List (L × S)} (h : AllSteps C s tr)
    (h0 : I s) (hs : ∀ s l t, I s → C s l t → I t) :
    AllSteps (fun s l t => I s ∧ C s l t ∧ I t) s tr := by
  induction tr generalizing s with
  | nil => trivial
  | cons e tr ih =>
    have hi := hs _ _ _ h0 h.1
    exact ⟨⟨h0, h.1, hi⟩, ih h.2 hi⟩

/-- After a past that meets A, steps that meet the conditions one after the other, the last
of them listed first. -/
inductive InTurn (A : List (L × S) → Prop) (s : S) :
    List (S → L → S → Prop) → List (L × S) → Prop where
  | past {tr} (h : A tr) (tr' : List (L × S)) : InTurn A s [] (tr ++ tr')
  | step {Cs C tr l t} (h : InTurn A s Cs tr) (hc : C (lastState s tr) l t) (tr' : List (L × S)) :
    InTurn A s (C :: Cs) (tr ++ (l, t) :: tr')

theorem InTurn.append {A : List (L × S) → Prop} {s : S} {Cs : List (S → L → S → Prop)}
    {tr : List (L × S)} (h : InTurn A s Cs tr) (tr' : List (L × S)) : InTurn A s Cs (tr ++ tr') := by
  cases h with
  | past h tr₁ =>
    rw [List.append_assoc]
    exact .past h _
  | step h hc tr₁ =>
    rw [List.append_assoc, List.cons_append]
    exact .step h hc _

/-- The next condition is met by the next step. -/
theorem InTurn.last {A : List (L × S) → Prop} {s t : S} {l : L} {Cs : List (S → L → S → Prop)}
    {tr : List (L × S)} (h : InTurn A s Cs tr) (hc : C (lastState s tr) l t) :
    InTurn A s (C :: Cs) (tr ++ [(l, t)]) := .step h hc []

/-- What holds of the past holds as well of what follows from it. -/
theorem InTurn.mono {A B : List (L × S) → Prop} {s : S} {Cs : List (S → L → S → Prop)}
    {tr : List (L × S)} (h : InTurn A s Cs tr) (hd : ∀ past, past <+: tr → A past → B past) :
    InTurn B s Cs tr := by
  induction h with
  | past h tr' => exact .past (hd _ (List.prefix_append _ _) h) tr'
  | step h hc tr' ih =>
    exact .step (ih fun past hp => hd past (hp.trans (List.prefix_append _ _))) hc tr'

/-- A step-by-step translation carries traces of one system to another. -/
theorem AllSteps.simulate {S' L' : Type} {D : S' → L' → S' → Prop} (f : S → S') (g : L → L')
    {s : S} {tr : List (L × S)} (h : AllSteps C s tr)
    (hd : ∀ s l t, C s l t → D (f s) (g l) (f t)) :
    AllSteps D (f s) (tr.map fun e => (g e.1, f e.2)) := by
  induction tr generalizing s with
  | nil => trivial
  | cons e tr ih => exact ⟨hd _ _ _ h.1, ih h.2⟩

theorem lastState_map {S' L' : Type} (f : S → S') (g : L → L') (s : S) (tr : List (L × S)) :
    lastState (f s) (tr.map fun e => (g e.1, f e.2)) = f (lastState s tr) := by
  induction tr generalizing s with
  | nil => rfl
  | cons e tr ih => exact ih e.2

/-- The part of a trace that another system takes part in. -/
def project {S' L' : Type} (f : S → S') (g : L → Option L') (tr : List (L × S)) : List (L' × S') :=
  tr.filterMap fun e => (g e.1).map fun l => (l, f e.2)

/-- When each step is one of the other system or leaves it alone, its part of a trace is a
trace of its own, and ends where the whole ends. -/
theorem AllSteps.project {S' L' : Type} {D : S' → L' → S' → Prop} (f : S → S') (g : L → Option L')
    {s : S} {tr : List (L × S)} (h : AllSteps C s tr)
    (hsome : ∀ s l t l', C s l t → g l = some l' → D (f s) l' (f t))
    (hnone : ∀ s l t, C s l t → g l = none → f t = f s) :
    AllSteps D (f s) (project f g tr) ∧ lastState (f s) (project f g tr) = f (lastState s tr) := by
  induction tr generalizing s with
  | nil => exact ⟨trivial, rfl⟩
  | cons e tr ih =>
    obtain ⟨hall, hlast⟩ := ih h.2
    rw [Lib.project, List.filterMap_cons]
    cases hg : g e.1 with
    | none =>
      rw [hnone _ _ _ h.1 hg] at hall hlast
      exact ⟨hall, hlast⟩
    | some l => exact ⟨⟨hsome _ _ _ _ h.1 hg, hall⟩, hlast⟩

/-- When a step from a good state leads to a good state exactly if it meets D,
a trace stays good exactly if all its steps meet D. -/
theorem forall_states_iff {D : S → L → S → Prop} {P : S → Prop} {s : S} {tr : List (L × S)}
    (h : AllSteps C s tr) (h0 : P s) (hd : ∀ s l t, P s → C s l t → (P t ↔ D s l t)) :
    (∀ e ∈ tr, P e.2) ↔ AllSteps D s tr := by
  induction tr generalizing s with
  | nil => exact ⟨fun _ => trivial, fun _ _ he => absurd he List.not_mem_nil⟩
  | cons e tr ih =>
    have hiff := hd _ _ _ h0 h.1
    rw [List.forall_mem_cons]
    constructor
    · rintro ⟨he, hr⟩
      exact ⟨hiff.mp he, (ih h.2 he).mp hr⟩
    · rintro ⟨he, hr⟩
      have hp := hiff.mpr he
      exact ⟨hp, (ih h.2 hp).mpr hr⟩

/-- When a step leads to a good state exactly if it comes from one and meets D, a
trace ends in a good state exactly if all its steps meet D. -/
theorem last_iff_allSteps {D : S → L → S → Prop} {P : S → Prop} {s : S} {tr : List (L × S)}
    (h : AllSteps C s tr) (h0 : P s) (hd : ∀ s l t, C s l t → (P t ↔ P s ∧ D s l t)) :
    P (lastState s tr) ↔ AllSteps D s tr := by
  induction tr using List.reverseRecOn with
  | nil => exact iff_of_true h0 trivial
  | append_singleton tr e ih =>
    obtain ⟨hp, hc, _⟩ := allSteps_append.mp h
    rw [lastState_append, allSteps_append, ← ih hp]
    exact (hd _ _ _ hc).trans (and_congr_right fun _ => (and_iff_left trivial).symm)

section Annotate
variable {N : Type} (note : N → L → S → N)

/-- Carry a note along a trace, which every step brings up to date. -/
def annotate (n : N) : List (L × S) → List (L × (S × N))
  | [] => []
  | e :: tr => (e.1, (e.2, note n e.1 e.2)) :: annotate (note n e.1 e.2) tr

theorem lastState_annotate (s : S) (n : N) (tr : List (L × S)) :
    (lastState (s, n) (annotate note n tr)).1 = lastState s tr := by
  induction tr generalizing s n with
  | nil => rfl
  | cons e tr ih => exact ih e.2 _

theorem map_annotate (n : N) (tr : List (L × S)) :
    (annotate note n tr).map (fun e => (e.1, e.2.1)) = tr := by
  induction tr generalizing n with
  | nil => rfl
  | cons e tr ih => exact congrArg (e :: ·) (ih _)

theorem AllSteps.annotate {s : S} {tr : List (L × S)} (h : AllSteps C s tr) (n : N) :
    AllSteps (fun x l y => C x.1 l y.1 ∧ y.2 = note x.2 l y.1) (s, n) (annotate note n tr) := by
  induction tr generalizing s n with
  | nil => trivial
  | cons e tr ih => exact ⟨⟨h.1, rfl⟩, ih h.2 _⟩

end Annotate

/-- Take the labels in turn, up to the first that the step function refuses. -/
def follow (step : S → L → Option S) (s : S) : List L → List (L × S)
  | [] => []
  | l :: ls =>
    match step s l with
    | none => []
    | some t => (l, t) :: follow step t ls

theorem allSteps_follow (step : S → L → Option S) (s : S) (ls : List L) :
    AllSteps (fun s l t => step s l = some t) s (follow step s ls) := by
  induction ls generalizing s with
  | nil => trivial
  | cons l ls ih =>
    unfold follow
    split
    · trivial
    · next t h => exact ⟨h, ih t⟩

end SolanaArbBot.Lib
