import SolanaArbBot.Arbitrage.Steps

/-! How many submissions start in a second. The limiters bound the slots they
grant, and the build between a slot and its submission moves the starts. -/
namespace SolanaArbBot.Arbitrage
open Lib TemplateCache

def Config.limit (cfg : Config) : Path → Option UInt32
  | .rest => some cfg.maxBundlesPerSecond
  | .grpc => cfg.grpcMaxBundlesPerSecond

def Shared.limiter (s : Shared) : Path → Option RateLimiter
  | .rest => some s.jitoLimiter
  | .grpc => s.jitoGrpcLimiter

def Config.rate (cfg : Config) (path : Path) : Nat := ((cfg.limit path).map UInt32.toNat).getD 0

def Shared.sentOn (s : Shared) (path : Path) : List Submission :=
  s.sent.filter fun e => decide (e.path = path)

/-- In every window of a second no more submissions start on a path than its limit. -/
def RateHeld (cfg : Config) (s : Shared) : Prop :=
  ∀ path, Spaced (cfg.rate path) second ((s.sentOn path).map Submission.startedAt)

/-- The limiters are the ones of the configuration, and they track what they granted. -/
structure Limits (cfg : Config) (s : Shared) : Prop where
  limit : ∀ path, (s.limiter path).map RateLimiter.maxPerSecond = cfg.limit path
  tracks : ∀ path l, s.limiter path = some l → ∃ last ≤ s.now, l.Tracks (s.granted path) last
  none : ∀ path, s.limiter path = none → s.granted path = []

namespace Limits
variable {cfg : Config} {s s' : Shared} {pc pc' : Pc} {es : List Effect}

/-- The slots granted on a path are within its limit. -/
theorem spaced (h : Limits cfg s) (path : Path) : Spaced (cfg.rate path) second (s.granted path) := by
  cases hl : s.limiter path with
  | none =>
    rw [h.none path hl]
    exact Spaced.nil _ _
  | some l =>
    obtain ⟨last, _, ht⟩ := h.tracks path l hl
    have hm := h.limit path
    rw [hl, Option.map_some] at hm
    rw [Config.rate, ← hm]
    exact ht.spaced

theorem init (store : StoreInner) (now : Int) : Limits cfg (start cfg store now).shared where
  limit path := by
    cases path with
    | rest => rfl
    | grpc =>
      cases h : cfg.grpcMaxBundlesPerSecond <;>
        simp [start, Shared.limiter, Config.limit, h, RateLimiter.new]
  tracks path l hl := by
    refine ⟨now, le_rfl, ?_⟩
    cases path with
    | rest =>
      cases hl
      exact RateLimiter.Tracks.new _ _
    | grpc =>
      obtain ⟨m, _, rfl⟩ := Option.map_eq_some_iff.mp hl
      exact RateLimiter.Tracks.new _ _
  none _ _ := rfl

/-- Time may pass, and what has nothing to do with the limiters may change. -/
theorem frame (h : Limits cfg s) (hl : s'.limiter = s.limiter) (hg : s'.granted = s.granted)
    (hnow : s.now ≤ s'.now) : Limits cfg s' := by
  refine ⟨?_, ?_, ?_⟩
  · intro path
    rw [hl]
    exact h.limit path
  · intro path l hs
    rw [hl] at hs
    rw [hg]
    obtain ⟨last, hle, ht⟩ := h.tracks path l hs
    exact ⟨last, hle.trans hnow, ht⟩
  · intro path hs
    rw [hl] at hs
    rw [hg]
    exact h.none path hs

/-- A call of one limiter, and its log. -/
theorem acquire (h : Limits cfg s) (path : Path) {l : RateLimiter} (hl : s.limiter path = some l)
    (hlim : ∀ q, s'.limiter q = if q = path then some (l.tryAcquire s.now).1 else s.limiter q)
    (hgr : ∀ q, s'.granted q =
      if q = path ∧ (l.tryAcquire s.now).2 then s.granted q ++ [s.now] else s.granted q)
    (hnow : s'.now = s.now) : Limits cfg s' := by
  obtain ⟨last, hle, ht⟩ := h.tracks path l hl
  obtain ⟨hnew, hmax⟩ := ht.tryAcquire hle
  refine ⟨?_, ?_, ?_⟩
  · intro q
    rw [hlim]
    by_cases hq : q = path
    · subst hq
      rw [if_pos rfl, Option.map_some, hmax, ← h.limit q, hl, Option.map_some]
    · rw [if_neg hq, h.limit]
  · intro q l' hl'
    rw [hlim] at hl'
    rw [hgr, hnow]
    by_cases hq : q = path
    · subst hq
      rw [if_pos rfl] at hl'
      cases hl'
      refine ⟨s.now, le_rfl, ?_⟩
      simpa using hnew
    · rw [if_neg hq] at hl'
      rw [if_neg fun hc => hq hc.1]
      exact h.tracks q l' hl'
  · intro q hq'
    rw [hlim] at hq'
    by_cases hq : q = path
    · rw [if_pos hq] at hq'
      cases hq'
    · rw [if_neg hq] at hq'
      rw [hgr, if_neg fun hc => hq hc.1]
      exact h.none q hq'

theorem advance (h : Limits cfg s) (ha : Advance cfg s pc s' es pc') : Limits cfg s' := by
  cases ha with
  | jitoGranted hg | jitoRefused hg =>
    apply h.acquire .rest rfl
    · intro q
      cases q <;> rfl
    · intro q
      cases q <;> simp [Shared.grant, hg]
    · rfl
  | grpcGranted hl hg | grpcRefused hl hg =>
    apply h.acquire .grpc hl
    · intro q
      cases q <;> rfl
    · intro q
      cases q <;> simp [Shared.grant, hg]
    · rfl
  | _ => exact h.frame rfl rfl le_rfl

theorem step {p p' : State} {a : Action} (h : Limits cfg p.shared) (hs : Moves cfg p a p') :
    Limits cfg p'.shared := by
  cases hs with
  | tick => exact h.frame rfl rfl (Int.le_add_of_nonneg_right (Int.natCast_nonneg _))
  | check => exact h
  | @effect _ _ e => cases e <;> exact h.frame rfl rfl le_rfl
  | advance _ ha => exact h.advance ha

end Limits

section Slots
variable (cfg : Config) (path : Path) (q : Int → Bool)

/-- One if the slot is on the path and has the property. -/
def slot (p : Path) (grantedAt : Int) : Int := if p = path ∧ q grantedAt then 1 else 0

/-- Slots used for a submission, less the slots granted. -/
def Shared.slots (s : Shared) : Int :=
  ((s.sentOn path).map Submission.grantedAt).countP q - (s.granted path).countP q

def Pc.slots : Pc → Int
  | .building _ useGrpc grantedAt => slot path q (submitPath cfg useGrpc) grantedAt
  | .ready _ useGrpc grantedAt => slot path q (submitPath cfg useGrpc) grantedAt
  | _ => 0

theorem slot_nonneg (p : Path) (grantedAt : Int) : 0 ≤ slot path q p grantedAt := by
  unfold slot
  split <;> omega

theorem Pc.slots_nonneg (pc : Pc) : 0 ≤ pc.slots cfg path q := by
  cases pc with
  | building | ready => exact slot_nonneg path q _ _
  | _ => exact le_rfl

theorem slots_grant (s : Shared) (p : Path) :
    (s.grant p).slots path q = s.slots path q - slot path q p s.now := by
  by_cases hp : path = p
  · simp only [Shared.slots, Shared.sentOn, Shared.grant, slot, hp, if_pos, List.countP_append,
      List.countP_singleton, true_and]
    push_cast
    ring
  · simp [Shared.slots, Shared.sentOn, Shared.grant, slot, hp, Ne.symm hp]

theorem slots_submit (s : Shared) (item : ReadyInstruction) (useGrpc : Bool) (grantedAt : Int) :
    (submit cfg s item useGrpc grantedAt).slots path q =
      s.slots path q + slot path q (submitPath cfg useGrpc) grantedAt := by
  by_cases hp : submitPath cfg useGrpc = path
  · simp [Shared.slots, Shared.sentOn, submit, hp, slot, List.countP_singleton]
    ring
  · simp [Shared.slots, Shared.sentOn, submit, hp, slot]

variable {cfg}

theorem submitPath_true {s : Shared} {l : RateLimiter} (h : Limits cfg s)
    (hl : s.jitoGrpcLimiter = some l) : submitPath cfg true = .grpc := by
  have hm := h.limit .grpc
  simp only [Shared.limiter, hl, Option.map_some, Config.limit] at hm
  simp [submitPath, ← hm]

/-- Outside of a build, slots go from granted to held and from held to used. -/
theorem slots_advance_eq {s s' : Shared} {pc pc' : Pc} {es : List Effect} (h : Limits cfg s)
    (ha : Advance cfg s pc s' es pc') (hb : ∀ item useGrpc t, pc ≠ .building item useGrpc t) :
    s'.slots path q + pc'.slots cfg path q = s.slots path q + pc.slots cfg path q := by
  cases ha with
  | @lookMissed tier | @promoteMissed tier => cases tier <;> rfl
  | jitoGranted hg =>
    simp only [slots_grant, Pc.slots, add_zero]
    exact sub_add_cancel _ _
  | grpcGranted hl hg =>
    simp only [slots_grant, Pc.slots, submitPath_true h hl, add_zero]
    exact sub_add_cancel _ _
  | submit => simp only [slots_submit, Pc.slots, add_zero]
  | buildDropped | built => exact absurd rfl (hb _ _ _)
  | _ => rfl

/-- A slot that is held or used was granted before. -/
theorem slots_advance {s s' : Shared} {pc pc' : Pc} {es : List Effect} (h : Limits cfg s)
    (ha : Advance cfg s pc s' es pc') :
    s'.slots path q + pc'.slots cfg path q ≤ s.slots path q + pc.slots cfg path q := by
  by_cases hb : ∀ item useGrpc t, pc ≠ .building item useGrpc t
  · exact (slots_advance_eq path q h ha hb).le
  · cases ha with
    | buildDropped => exact add_le_add_right (Pc.slots_nonneg cfg path q _) _
    | built => exact le_rfl
    | _ => exact absurd (fun _ _ _ => Pc.noConfusion) hb

end Slots

/-- The limiters are in order, and each slot used or held was granted. -/
structure Granted (cfg : Config) (p : State) : Prop where
  limits : Limits cfg p.shared
  covers : ∀ path q, p.total (Shared.slots path q) (fun t => t.pc.slots cfg path q) ≤ 0

variable {cfg : Config} {p p' : State} {a : Action}

theorem Granted.init (store : StoreInner) (now : Int) : Granted cfg (start cfg store now) where
  limits := Limits.init store now
  covers path q := by
    rw [Pool.total, Pool.sum_eq_zero]
    · exact le_rfl
    · intro t ht
      rw [List.eq_of_mem_replicate ht]
      rfl

theorem Granted.step (h : Granted cfg p) (hs : Moves cfg p a p') : Granted cfg p' where
  limits := h.limits.step hs
  covers path q := by
    refine le_trans (hs.total_le ?_ ?_ ?_ ?_) (h.covers path q)
    · intro s now
      rfl
    · intro mint amount onlyDirect
      rfl
    · intro s e es pc
      cases e <;> exact le_rfl
    · intro pc s' es pc' _ ha
      exact slots_advance path q h.limits ha

/-- The slots that submissions use are within the limit. -/
theorem Granted.spaced (h : Granted cfg p) (path : Path) :
    Spaced (cfg.rate path) second ((p.shared.sentOn path).map Submission.grantedAt) := by
  intro t
  have hc := h.covers path fun x => decide (InWindow second t x)
  have hn : 0 ≤ (p.threads.map fun t' =>
      t'.pc.slots cfg path fun x => decide (InWindow second t x)).sum := by
    apply List.sum_nonneg
    intro x hx
    obtain ⟨t', _, rfl⟩ := List.mem_map.mp hx
    exact Pc.slots_nonneg cfg path _ _
  have hs := h.limits.spaced path t
  simp only [Pool.total, Shared.slots] at hc
  omega

/-- The submission that an action starts: which client it asked for, and when its
slot was granted. -/
def starting (p : State) : Action → Option (Bool × Int)
  | .act i _ =>
    match p.threads[i]? with
    | some ⟨[], .ready _ useGrpc grantedAt⟩ => some (useGrpc, grantedAt)
    | _ => none
  | _ => none

/-- A submission that starts now keeps away from those on its path whose slots
were granted a second or more before or after its own. -/
def KeepsApart (cfg : Config) (p : State) (a : Action) : Prop :=
  ∀ new ∈ starting p a, ∀ e ∈ p.shared.sent, e.path = submitPath cfg new.1 →
    second ≤ |new.2 - e.grantedAt| → second ≤ |p.shared.now - e.startedAt|

instance (cfg : Config) (p : State) (a : Action) : Decidable (KeepsApart cfg p a) :=
  inferInstanceAs (Decidable (∀ new ∈ starting p a, _))

def Apart (s : Shared) : Prop :=
  ∀ e ∈ s.sent, ∀ e' ∈ s.sent, e.path = e'.path →
    second ≤ |e'.grantedAt - e.grantedAt| → second ≤ |e'.startedAt - e.startedAt|

theorem Apart.submit {s : Shared} (h : Apart s) {item : ReadyInstruction} {useGrpc : Bool}
    {grantedAt : Int}
    (hk : ∀ e ∈ s.sent, e.path = submitPath cfg useGrpc →
      second ≤ |grantedAt - e.grantedAt| → second ≤ |s.now - e.startedAt|) :
    Apart (submit cfg s item useGrpc grantedAt) := by
  intro e he e' he' hpath hg
  rcases List.mem_append.mp he with he | he <;> rcases List.mem_append.mp he' with he' | he'
  · exact h e he e' he' hpath hg
  · cases List.mem_singleton.mp he'
    exact hk e he hpath hg
  · cases List.mem_singleton.mp he
    rw [abs_sub_comm] at hg ⊢
    exact hk e' he' hpath.symm hg
  · cases List.mem_singleton.mp he
    cases List.mem_singleton.mp he'
    rw [sub_self, abs_zero] at hg
    exact absurd hg (by decide)

theorem Apart.step (h : Apart p.shared) (hs : Moves cfg p a p') (hk : KeepsApart cfg p a) :
    Apart p'.shared := by
  cases hs with
  | tick | check => exact h
  | @effect _ _ e => cases e <;> exact h
  | advance hi ha =>
    cases ha with
    | submit =>
      apply h.submit
      apply hk (_, _)
      rw [starting, hi]
      rfl
    | _ => exact h

theorem Apart.rateHeld (h : Apart p.shared) (hg : Granted cfg p) : RateHeld cfg p.shared := by
  intro path
  apply spaced_of_separated Submission.grantedAt Submission.startedAt (hg.spaced path)
  intro e he e' he' hfar
  obtain ⟨he, hp⟩ := List.mem_filter.mp he
  obtain ⟨he', hp'⟩ := List.mem_filter.mp he'
  apply h e he e' he' ((of_decide_eq_true hp).trans (of_decide_eq_true hp').symm)
  exact le_abs.mpr (Or.inl (by omega))

/-- While every submission keeps apart from the earlier ones, the limits hold at
the point of submission. -/
theorem rate_held_of_apart {store : StoreInner} {now : Int} {tr : List (Action × State)}
    (h : IsRun cfg (start cfg store now) tr)
    (hk : AllSteps (fun p a _ => KeepsApart cfg p a) (start cfg store now) tr) :
    ∀ e ∈ tr, RateHeld cfg e.2.shared := by
  have hi : ∀ e ∈ tr, Granted cfg e.2 ∧ Apart e.2.shared := by
    apply (AllSteps.and h hk).forall_states (I := fun p => Granted cfg p ∧ Apart p.shared)
    · refine ⟨Granted.init store now, ?_⟩
      intro e he
      cases he
    · rintro p a p' ⟨hg, ha⟩ ⟨hs, hk⟩
      exact ⟨hg.step (step_cases hs), ha.step (step_cases hs) hk⟩
  intro e he
  exact (hi e he).2.rateHeld (hi e he).1

/-- Two submissions a second apart, each as soon as its slot is granted. -/
def promptBuilds : List Action :=
  sampleTrade 2 ++ sampleTrade 3 ++ sampleAcquire 0 ++ sampleSend 0 ++ [.tick 1000000000] ++
    sampleAcquire 1 ++ sampleSend 1

theorem rate_held_promptBuilds :
    (∀ e ∈ sampleTrace promptBuilds, RateHeld sampleConfig e.2.shared) ∧
      (sampleState promptBuilds).shared.sent.map Submission.startedAt = [0, 1000000000] :=
  ⟨rate_held_of_apart (trace_isRun _ _ _) (by decide), by decide⟩

/-- The first build takes a second, so both submissions start together. -/
def delayedBuild : List Action :=
  sampleTrade 2 ++ sampleTrade 3 ++ sampleAcquire 0 ++ [.tick 1000000000] ++
    sampleAcquire 1 ++ sampleSend 1 ++ sampleSend 0

theorem delayed_build_bursts :
    Reachable sampleConfig (sampleState delayedBuild) ∧
      ¬ RateHeld sampleConfig (sampleState delayedBuild).shared := by
  refine ⟨sampleState_reachable _, ?_⟩
  intro h
  exact absurd (h .rest 1000000000) (by decide)

end SolanaArbBot.Arbitrage
