import SolanaArbBot.Lib.Runs

/-! A system that others look at while it runs, and act on what they saw. Looks and acts fall
anywhere between the steps, and an act as long after its look as is allowed. -/
namespace SolanaArbBot.Lib
variable {S L O : Type} (C : S → L → S → Prop) (look : S → O → Prop) (prompt : S → S → Prop)

/-- What was seen, the state it was seen in, and the state in which it is acted on. -/
structure Act (S O : Type) where
  seen : O
  looked : S
  acted : S

/-- The looks that nobody has acted on, and the acts so far. -/
structure Watch (S O : Type) where
  pending : List (O × S)
  acts : List (Act S O)

inductive Watched : S × Watch S O → Option L → S × Watch S O → Prop where
  | step {s l t w} (h : C s l t) : Watched (s, w) (some l) (t, w)
  | look {s w o} (h : look s o) : Watched (s, w) none (s, { w with pending := (o, s) :: w.pending })
  | act {s o looked pre post acts} (h : prompt looked s) : Watched
      (s, ⟨pre ++ (o, looked) :: post, acts⟩) none (s, ⟨pre ++ post, acts ++ [⟨o, looked, s⟩]⟩)

/-- Every act that is possible in the state, on what was seen there or before. -/
def ActsOk (Ok : Act S O → Prop) (w : S × List S) : Prop :=
  ∀ u ∈ w.2, ∀ o, look u o → prompt u w.1 → Ok ⟨o, u, w.1⟩

/-- The states so far, the last one first. -/
def visit (past : List S) (_ : L) (s : S) : List S := s :: past

variable {C look prompt} {s : S} {w : Watch S O}

def systemSteps (tr : List (Option L × (S × Watch S O))) : List (L × S) :=
  tr.filterMap fun e => e.1.map fun l => (l, e.2.1)

theorem systemSteps_append (tr tr' : List (Option L × (S × Watch S O))) :
    systemSteps (tr ++ tr') = systemSteps tr ++ systemSteps tr' := List.filterMap_append

/-- The system does in a watched run what it does alone. -/
theorem lastState_systemSteps {tr : List (Option L × (S × Watch S O))}
    (h : AllSteps (Watched C look prompt) (s, w) tr) :
    lastState s (systemSteps tr) = (lastState (s, w) tr).1 := by
  induction tr generalizing s w with
  | nil => rfl
  | cons e tr ih =>
    obtain ⟨l, t⟩ := e
    cases h.1 with
    | step _ => exact ih h.2
    | look _ => exact ih h.2
    | act _ => exact ih h.2

def unwatched (w : Watch S O) (tr : List (L × S)) : List (Option L × (S × Watch S O)) :=
  tr.map fun e => (some e.1, (e.2, w))

theorem allSteps_unwatched (w : Watch S O) {tr : List (L × S)} (h : AllSteps C s tr) :
    AllSteps (Watched C look prompt) (s, w) (unwatched w tr) :=
  h.simulate (fun s => (s, w)) some fun _ _ _ hs => Watched.step hs

theorem lastState_unwatched (w : Watch S O) (tr : List (L × S)) :
    lastState (s, w) (unwatched w tr) = (lastState s tr, w) :=
  lastState_map (fun s => (s, w)) some s tr

theorem systemSteps_unwatched (w : Watch S O) (tr : List (L × S)) : systemSteps (unwatched w tr) = tr := by
  induction tr with
  | nil => rfl
  | cons e tr ih => exact congrArg (e :: ·) ih

/-- The states so far are those that the parts of the run so far end in. -/
theorem mem_visited {u : S} {tr : List (L × S)} :
    u ∈ (lastState (s, [s]) (annotate visit [s] tr)).2 ↔ ∃ pre, pre <+: tr ∧ lastState s pre = u := by
  have hgen (past : List S) (s : S) : u ∈ (lastState (s, s :: past) (annotate visit (s :: past) tr)).2 ↔
      u ∈ past ∨ ∃ pre, pre <+: tr ∧ lastState s pre = u := by
    induction tr generalizing s past with
    | nil =>
      rw [annotate, lastState, List.mem_cons, or_comm]
      refine or_congr_right ⟨?_, ?_⟩
      · rintro rfl
        exact ⟨[], List.prefix_rfl, rfl⟩
      · rintro ⟨pre, hpre, rfl⟩
        rw [List.prefix_nil.mp hpre]
        rfl
    | cons e tr ih =>
      refine (ih (s :: past) e.2).trans ?_
      rw [List.mem_cons, or_assoc, or_left_comm]
      refine or_congr_right ⟨?_, ?_⟩
      · rintro (rfl | ⟨pre, hpre, rfl⟩)
        · exact ⟨[], List.nil_prefix, rfl⟩
        · exact ⟨e :: pre, (List.prefix_cons_inj e).mpr hpre, rfl⟩
      · rintro ⟨pre, hpre, rfl⟩
        rcases List.prefix_cons_iff.mp hpre with rfl | ⟨pre', rfl, hpre'⟩
        · exact Or.inl rfl
        · exact Or.inr ⟨pre', hpre', rfl⟩
  simpa using hgen [] s

theorem mem_visit {past : List S} {tr : List (L × S)} : ∀ e ∈ annotate visit past tr, e.2.1 ∈ e.2.2 := by
  induction tr generalizing past with
  | nil => exact fun e he => absurd he List.not_mem_nil
  | cons e tr ih => exact List.forall_mem_cons.mpr ⟨List.mem_cons_self, ih⟩

/-- What every state of the run meets, all states so far meet. -/
theorem forall_visited {P : S → Prop} {tr : List (L × S)} (h0 : P s) (h : ∀ e ∈ tr, P e.2) :
    ∀ e ∈ annotate visit [s] tr, P e.2.1 ∧ ∀ u ∈ e.2.2, P u := by
  have hgen (past : List S) (hpast : ∀ u ∈ past, P u) :
      ∀ e ∈ annotate visit past tr, P e.2.1 ∧ ∀ u ∈ e.2.2, P u := by
    induction tr generalizing past with
    | nil => exact fun e he => absurd he List.not_mem_nil
    | cons e tr ih =>
      obtain ⟨he, htr⟩ := List.forall_mem_cons.mp h
      have hnext := List.forall_mem_cons.mpr ⟨he, hpast⟩
      exact List.forall_mem_cons.mpr ⟨⟨he, hnext⟩, ih htr _ hnext⟩
  exact hgen [s] (List.forall_mem_singleton.mpr h0)

/-- What holds where each part of an annotated run ends holds at its start and after each step. -/
theorem forall_prefix_iff {N : Type} {note : N → L → S → N} {P : S × N → Prop} {n : N}
    {tr : List (L × S)} :
    (∀ pre, pre <+: tr → P (lastState (s, n) (annotate note n pre))) ↔
      P (s, n) ∧ ∀ e ∈ annotate note n tr, P e.2 := by
  induction tr generalizing s n with
  | nil =>
    constructor
    · intro h
      exact ⟨h [] List.prefix_rfl, fun e he => absurd he List.not_mem_nil⟩
    · rintro ⟨h, _⟩ pre hpre
      rw [List.prefix_nil.mp hpre]
      exact h
  | cons e tr ih =>
    rw [annotate, List.forall_mem_cons, ← ih]
    constructor
    · intro h
      exact ⟨h [] List.nil_prefix, fun pre hpre => h (e :: pre) ((List.prefix_cons_inj e).mpr hpre)⟩
    · rintro ⟨h, hall⟩ pre hpre
      rcases List.prefix_cons_iff.mp hpre with rfl | ⟨pre', rfl, hpre'⟩
      · exact h
      · exact hall pre' hpre'

private theorem exists_act {tr tr' : List (L × S)} (h : AllSteps C s (tr ++ tr')) {o : O}
    (ho : look (lastState s tr) o) (hp : prompt (lastState s tr) (lastState s (tr ++ tr'))) :
    ∃ run, AllSteps (Watched C look prompt) (s, ⟨[], []⟩) run ∧ systemSteps run = tr ++ tr' ∧
      (lastState (s, ⟨[], []⟩) run).2.acts = [⟨o, lastState s tr, lastState s (tr ++ tr')⟩] := by
  obtain ⟨h1, h2⟩ := allSteps_append.mp h
  rw [lastState_append] at hp ⊢
  let u := lastState s tr
  let t := lastState u tr'
  have hlook : Watched C look prompt (u, ⟨[], []⟩) none (u, ⟨[(o, u)], []⟩) := .look ho
  have hact : Watched C look prompt (t, ⟨[] ++ (o, u) :: [], []⟩) none (t, ⟨[], [⟨o, u, t⟩]⟩) := .act hp
  refine ⟨unwatched ⟨[], []⟩ tr ++ (none, (u, ⟨[(o, u)], []⟩)) ::
    (unwatched ⟨[(o, u)], []⟩ tr' ++ [(none, (t, ⟨[], [⟨o, u, t⟩]⟩))]), ?_, ?_, ?_⟩
  · refine allSteps_append.mpr ⟨allSteps_unwatched _ h1, ?_⟩
    rw [lastState_unwatched]
    refine ⟨hlook, allSteps_append.mpr ⟨allSteps_unwatched _ h2, ?_⟩⟩
    rw [lastState_unwatched]
    exact ⟨hact, trivial⟩
  · rw [systemSteps_append, systemSteps_unwatched]
    refine congrArg (tr ++ ·) ?_
    exact (systemSteps_append _ _).trans ((congrArg (· ++ _) (systemSteps_unwatched _ _)).trans
      (List.append_nil _))
  · rw [lastState_append]
    exact congrArg (fun x : S × Watch S O => x.2.acts) (lastState_append _ _ _)

/-- What waits to be acted on was seen in an earlier state, and what was done is fine, when
everything is that can be seen and acted on in a part of the run. -/
private theorem watched_ok {Ok : Act S O → Prop} {tr : List (L × S)}
    (hok : ∀ pre post, pre ++ post <+: tr → ∀ o, look (lastState s pre) o →
      prompt (lastState s pre) (lastState s (pre ++ post)) →
        Ok ⟨o, lastState s pre, lastState s (pre ++ post)⟩)
    {run : List (Option L × (S × Watch S O))} (h : AllSteps (Watched C look prompt) (s, ⟨[], []⟩) run)
    (hrun : systemSteps run <+: tr) :
    (∀ p ∈ (lastState (s, ⟨[], []⟩) run).2.pending,
      look p.2 p.1 ∧ ∃ pre, pre <+: systemSteps run ∧ lastState s pre = p.2) ∧
    ∀ x ∈ (lastState (s, ⟨[], []⟩) run).2.acts, Ok x := by
  induction run using List.reverseRecOn with
  | nil => exact ⟨fun p hp => absurd hp List.not_mem_nil, fun x hx => absurd hx List.not_mem_nil⟩
  | append_singleton run e ih =>
    obtain ⟨hprev, hstep, _⟩ := allSteps_append.mp h
    rw [systemSteps_append] at hrun ⊢
    rw [lastState_append]
    have hpre : systemSteps run <+: tr := (List.prefix_append _ _).trans hrun
    have hlast := lastState_systemSteps hprev
    obtain ⟨hpending, hacts⟩ := ih hprev hpre
    obtain ⟨l, t⟩ := e
    generalize lastState (s, ⟨[], []⟩) run = now at hstep hpending hacts hlast
    cases hstep with
    | step _ =>
      refine ⟨fun p hp => ?_, hacts⟩
      obtain ⟨hlook, pre, hpre, hseen⟩ := hpending p hp
      exact ⟨hlook, pre, hpre.trans (List.prefix_append _ _), hseen⟩
    | look ho =>
      refine ⟨List.forall_mem_cons.mpr ⟨⟨ho, _, List.prefix_append _ _, hlast⟩, fun p hp => ?_⟩, hacts⟩
      obtain ⟨hlook, pre, hpre, hseen⟩ := hpending p hp
      exact ⟨hlook, pre, hpre.trans (List.prefix_append _ _), hseen⟩
    | @act u o looked waiting waiting' acts hprompt =>
      have hall : ∀ p ∈ waiting ++ waiting', p ∈ waiting ++ (o, looked) :: waiting' := by
        intro p hp
        rw [List.mem_append, List.mem_cons]
        exact (List.mem_append.mp hp).imp_right Or.inr
      refine ⟨fun p hp => ?_, List.forall_mem_append.mpr ⟨hacts, List.forall_mem_singleton.mpr ?_⟩⟩
      · obtain ⟨hlook, pre, hpre, hseen⟩ := hpending p (hall p hp)
        exact ⟨hlook, pre, hpre.trans (List.prefix_append _ _), hseen⟩
      · obtain ⟨hlook, pre, ⟨post, hpost⟩, hseen⟩ :=
          hpending (o, looked) (List.mem_append_right _ List.mem_cons_self)
        cases hseen
        cases (congrArg (lastState s) hpost).trans hlast
        exact hok pre post (hpost ▸ hpre) o hlook hprompt

/-- However the looks and the acts fall, all acts are fine, exactly when in every state of the
run all those are that are possible there. -/
theorem acts_iff {Ok : Act S O → Prop} {tr : List (L × S)} (h : AllSteps C s tr) :
    (∀ run, AllSteps (Watched C look prompt) (s, ⟨[], []⟩) run → systemSteps run <+: tr →
      ∀ x ∈ (lastState (s, ⟨[], []⟩) run).2.acts, Ok x) ↔
    ActsOk look prompt Ok (s, [s]) ∧ ∀ e ∈ annotate visit [s] tr, ActsOk look prompt Ok e.2 := by
  rw [← forall_prefix_iff]
  constructor
  · rintro hall pre ⟨rest, rfl⟩ u hu o ho hp
    obtain ⟨pre, ⟨post, rfl⟩, rfl⟩ := mem_visited.mp hu
    rw [lastState_annotate] at hp ⊢
    obtain ⟨run, hrun, hsteps, hacts⟩ := exists_act (allSteps_append.mp h).1 ho hp
    refine hall run hrun (hsteps ▸ List.prefix_append _ _) _ ?_
    rw [hacts]
    exact List.mem_singleton_self _
  · intro hall run hrun hsteps
    refine (watched_ok (fun pre post hpre o ho hp => ?_) hrun hsteps).2
    have hok := hall (pre ++ post) hpre (lastState s pre)
      (mem_visited.mpr ⟨pre, List.prefix_append _ _, rfl⟩) o ho
    rw [lastState_annotate] at hok
    exact hok hp

end SolanaArbBot.Lib
