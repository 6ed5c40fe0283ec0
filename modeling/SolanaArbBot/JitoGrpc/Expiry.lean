import SolanaArbBot.JitoGrpc.Tokens

/-! When a region sends no expired token. A failed re-authentication leaves the token in its
cell, every bundle goes on carrying it, and a bundle may leave some time after its token was
looked up. -/
namespace SolanaArbBot.JitoGrpc
open Lib

/-- The request leaves within the delay of its look-up, where there is a bound on it. -/
def Prompt (delay : Option Nat) (looked now : Region) : Prop :=
  ∀ d ∈ delay, now.monotonic ≤ looked.monotonic + d

instance (delay : Option Nat) (looked now : Region) : Decidable (Prompt delay looked now) :=
  inferInstanceAs (Decidable (∀ d ∈ delay, now.monotonic ≤ looked.monotonic + d))

/-- When the request leaves it carries no expired token, and no token at all when so many
re-authentications in a row have failed. -/
def Proper (patience : Nat) (x : Act Region SendBundleRequest) : Prop :=
  (∀ t ∈ x.looked.tokens, x.seen.authorization = some (bearer t) → x.acted.nowSecs < t.accessExpiresAt) ∧
  (patience ≤ x.acted.failures → x.seen.authorization = none)

section
variable (parses : String → Bool) (patience : Nat) (delay : Option Nat)

/-- What is sent when some bundle is. -/
def LooksUp (r : Region) (req : SendBundleRequest) : Prop := ∃ txBytes, sendToRegion parses r txBytes = .ok req

/-- Whatever look-ups and sends fall in between the steps of the loop, all requests are proper. -/
def AlwaysProper (r : Region) (tr : List (LoopAction × Region)) : Prop :=
  ∀ run, AllSteps (Watched (fun r a r' => Region.step r a = some r') (LooksUp parses) (Prompt delay))
      (r, ⟨[], []⟩) run →
    systemSteps run <+: tr → ∀ x ∈ (lastState (r, ⟨[], []⟩) run).2.acts, Proper patience x

/-- The tokens that a request may carry which leaves now, after these states of the region. -/
def carried (past : List Region) (now : Region) : List Tokens :=
  (past.filter fun u => Prompt delay u now).filterMap fun u => u.tokens.filter fun t => parses (bearer t)

/-- No token that may be on its way is expired, and no renewal has kept failing with one. -/
def Fresh (w : Region × List Region) : Prop :=
  ∀ t ∈ carried parses delay w.2 w.1, w.1.nowSecs < t.accessExpiresAt ∧ w.1.failures < patience

def Region.later (r : Region) (elapsed nowSecs : Nat) : Region :=
  { r with monotonic := r.monotonic + elapsed, nowSecs := nowSecs }

/-- The clock does not reach the expiry of a token held or still on its way, a token that is
stored is not expired, and no row of failed handshakes gets that long with one on its way. -/
def StaysFresh (w : Region × List Region) : LoopAction → Prop
  | .tick elapsed nowSecs =>
    ∀ t ∈ carried parses delay (w.1.later elapsed nowSecs :: w.2) (w.1.later elapsed nowSecs),
      nowSecs < t.accessExpiresAt
  | .go =>
    match w.1.pc with
    | .storing new => parses (bearer new) → w.1.nowSecs < new.accessExpiresAt
    | .storingAccess new => ∀ t ∈ w.1.tokens,
        parses (bearer (t.withAccess new)) → w.1.nowSecs < timestampSecs new.expiresAtUtc
    | _ => True
  | .auth challenge tokens =>
    w.1.pc = .authenticating → (authenticate challenge tokens).toOption = none →
      carried parses delay w.2 w.1 ≠ [] → w.1.failures + 1 < patience
  | .refresh _ => True

instance (w : Region × List Region) : Decidable (Fresh parses patience delay w) :=
  inferInstanceAs (Decidable (∀ t ∈ carried parses delay w.2 w.1,
    w.1.nowSecs < t.accessExpiresAt ∧ w.1.failures < patience))

instance (w : Region × List Region) : (a : LoopAction) → Decidable (StaysFresh parses patience delay w a)
  | .tick elapsed nowSecs => inferInstanceAs (Decidable (∀ t ∈ carried parses delay
      (w.1.later elapsed nowSecs :: w.2) (w.1.later elapsed nowSecs), nowSecs < t.accessExpiresAt))
  | .go =>
    match h : w.1.pc with
    | .storing new => decidable_of_iff (parses (bearer new) → w.1.nowSecs < new.accessExpiresAt)
        (by simp only [StaysFresh, h])
    | .storingAccess new => decidable_of_iff (∀ t ∈ w.1.tokens,
        parses (bearer (t.withAccess new)) → w.1.nowSecs < timestampSecs new.expiresAtUtc)
        (by simp only [StaysFresh, h])
    | .absent | .top | .sleeping _ | .authenticating | .takeRefresh | .refreshing _ | .backoff _ =>
      isTrue (by simp only [StaysFresh, h])
  | .auth challenge tokens => inferInstanceAs (Decidable (w.1.pc = .authenticating →
      (authenticate challenge tokens).toOption = none →
        carried parses delay w.2 w.1 ≠ [] → w.1.failures + 1 < patience))
  | .refresh _ => isTrue trivial

end

variable {parses : String → Bool} {patience : Nat} {delay : Option Nat} {r r' now : Region}
  {past : List Region} {a : LoopAction} {t : Tokens}

theorem mem_carried : t ∈ carried parses delay past now ↔
    ∃ u ∈ past, Prompt delay u now ∧ t ∈ u.tokens ∧ parses (bearer t) := by
  simp [carried, List.mem_filterMap, Option.filter_eq_some_iff, and_assoc]

theorem Prompt.refl : Prompt delay r r := fun _ _ => Nat.le_add_right _ _

theorem forall_carried_cons {P : Tokens → Prop} : (∀ t ∈ carried parses delay (r :: past) now, P t) ↔
    (Prompt delay r now → ∀ t ∈ r.tokens, parses (bearer t) → P t) ∧
      ∀ t ∈ carried parses delay past now, P t := by
  constructor
  · intro h
    refine ⟨fun hp t ht hparses => h t (mem_carried.mpr ⟨r, List.mem_cons_self, hp, ht, hparses⟩), ?_⟩
    intro t ht
    obtain ⟨u, hu, hp⟩ := mem_carried.mp ht
    exact h t (mem_carried.mpr ⟨u, List.mem_cons_of_mem _ hu, hp⟩)
  · rintro ⟨hnow, hpast⟩ t ht
    obtain ⟨u, hu, hp, htok, hparses⟩ := mem_carried.mp ht
    rcases List.mem_cons.mp hu with rfl | hu
    · exact hnow hp t htok hparses
    · exact hpast t (mem_carried.mpr ⟨u, hu, hp, htok, hparses⟩)

/-- What can be looked up and sent now is proper. -/
theorem actsOk_iff {w : Region × List Region} :
    ActsOk (LooksUp parses) (Prompt delay) (Proper patience) w ↔ Fresh parses patience delay w := by
  constructor
  · intro h t ht
    obtain ⟨u, hu, hp, htok, hparses⟩ := mem_carried.mp ht
    have hreq : sendToRegion parses u [] = .ok ⟨some (bearer t), [[]]⟩ := by
      simp only [sendToRegion, Option.mem_def.mp htok, hparses, if_true]
    obtain ⟨hexpiry, hfail⟩ := h u hu _ ⟨[], hreq⟩ hp
    refine ⟨hexpiry t htok rfl, Nat.lt_of_not_le fun hle => ?_⟩
    cases hfail hle
  · rintro h u hu req ⟨txBytes, hreq⟩ hp
    unfold sendToRegion at hreq
    split at hreq
    · next t ht =>
      split at hreq
      · next hparses =>
        cases hreq
        obtain ⟨hexpiry, hfail⟩ := h t (mem_carried.mpr ⟨u, hu, hp, ht, hparses⟩)
        refine ⟨fun t' ht' _ => ?_, fun hle => absurd hfail (Nat.not_lt.mpr hle)⟩
        cases ht.symm.trans ht'
        exact hexpiry
      · cases hreq
    · cases hreq
      exact ⟨fun t _ h => (by cases h), fun _ => rfl⟩

/-- A step that leaves the clocks and the failures as they are keeps the tokens on their way
unexpired, exactly when the token that it leaves in the cell is. -/
private theorem fresh_cons_iff (hnow : r'.nowSecs = r.nowSecs) (hmono : r'.monotonic = r.monotonic)
    (hfail : r'.failures = r.failures ∨ r'.failures < patience) (h : Fresh parses patience delay (r, past)) :
    Fresh parses patience delay (r', r' :: past) ↔ ∀ t ∈ r'.tokens, parses (bearer t) →
      r'.nowSecs < t.accessExpiresAt ∧ r'.failures < patience := by
  refine forall_carried_cons.trans ((and_iff_left ?_).trans (forall_prop_of_true Prompt.refl))
  intro t ht
  obtain ⟨u, hu, hp, htok⟩ := mem_carried.mp ht
  unfold Prompt at hp
  rw [hmono] at hp
  obtain ⟨hexpiry, hlt⟩ := h t (mem_carried.mpr ⟨u, hu, hp, htok⟩)
  refine ⟨hnow ▸ hexpiry, ?_⟩
  rcases hfail with heq | hlt
  · exact heq ▸ hlt
  · exact hlt

private theorem Fresh.next (h : Fresh parses patience delay (r, past)) (hr : r ∈ past)
    (htokens : r'.tokens = r.tokens) (hnow : r'.nowSecs = r.nowSecs) (hmono : r'.monotonic = r.monotonic)
    (hfail : r'.failures = r.failures) : Fresh parses patience delay (r', r' :: past) := by
  refine (fresh_cons_iff hnow hmono (Or.inl hfail) h).mpr ?_
  rw [htokens, hnow, hfail]
  exact fun t ht hp => h t (mem_carried.mpr ⟨r, hr, Prompt.refl, ht, hp⟩)

/-- From a fresh past a step leads to a fresh one exactly when it keeps it so. -/
theorem fresh_step_iff (hn : 0 < patience) (hr : r ∈ past) (h : Fresh parses patience delay (r, past))
    (hs : r.step a = some r') :
    Fresh parses patience delay (r', r' :: past) ↔ StaysFresh parses patience delay (r, past) a := by
  have hheld (t : Tokens) (ht : t ∈ r.tokens) (hp : parses (bearer t)) :
      r.nowSecs < t.accessExpiresAt ∧ r.failures < patience :=
    h t (mem_carried.mpr ⟨r, hr, Prompt.refl, ht, hp⟩)
  cases Region.step_cases hs with
  | @tick elapsed nowSecs =>
    constructor
    · intro h' t ht
      exact (h' t ht).1
    · intro h' t ht
      refine ⟨h' t ht, ?_⟩
      obtain ⟨u, hu, hp, htok, hparses⟩ := mem_carried.mp ht
      rcases List.mem_cons.mp hu with rfl | hu
      · exact (hheld t htok hparses).2
      · have hbefore : Prompt delay u r := fun d hd => Nat.le_trans (Nat.le_add_right _ _) (hp d hd)
        exact (h t (mem_carried.mpr ⟨u, hu, hbefore, htok, hparses⟩)).2
  | sleep hpc | wakeToAuth hpc _ _ | wakeToRefresh hpc _ _ | sendRefresh hpc _ | noRefresh hpc _
  | resume hpc _ =>
    simp only [StaysFresh, hpc]
    exact iff_of_true (h.next hr rfl rfl rfl rfl) trivial
  | store hpc =>
    refine (fresh_cons_iff ?_ ?_ (Or.inr ?_) h).trans ?_
    · rfl
    · rfl
    · exact hn
    · simp [StaysFresh, hpc, hn]
  | storeAccess hpc =>
    refine (fresh_cons_iff ?_ ?_ (Or.inr ?_) h).trans ?_
    · rfl
    · rfl
    · exact hn
    · cases ht : r.tokens <;> simp [StaysFresh, hpc, hn, ht, Tokens.withAccess]
  | authenticated hpc hauth =>
    refine iff_of_true (h.next hr rfl rfl rfl rfl) ?_
    intro _ hfail
    rw [hauth] at hfail
    cases hfail
  | authFailed hpc hauth =>
    simp only [StaysFresh, hpc, hauth, Except.toOption, true_implies]
    constructor
    · intro h' hne
      obtain ⟨t, ht⟩ := List.exists_mem_of_ne_nil _ hne
      obtain ⟨u, hu, hp⟩ := mem_carried.mp ht
      exact (h' t (mem_carried.mpr ⟨u, List.mem_cons_of_mem _ hu, hp⟩)).2
    · intro h' t ht
      obtain ⟨u, hu, hp, htok, hparses⟩ := mem_carried.mp ht
      have hold : t ∈ carried parses delay past r := by
        rcases List.mem_cons.mp hu with rfl | hu
        · exact mem_carried.mpr ⟨r, hr, Prompt.refl, htok, hparses⟩
        · exact mem_carried.mpr ⟨u, hu, hp, htok, hparses⟩
      exact ⟨(h t hold).1, h' (List.ne_nil_of_mem hold)⟩
  | refreshFailed | refreshEmpty | refreshed =>
    exact iff_of_true (h.next hr rfl rfl rfl rfl) trivial

/-- However look-ups and sends fall, a region sends proper requests only, exactly when it
starts fresh and every step of its loop and its clock keeps it so. -/
theorem alwaysProper_iff {tr : List (LoopAction × Region)} (hn : 0 < patience) (h : IsLoopRun r tr) :
    AlwaysProper parses patience delay r tr ↔ Fresh parses patience delay (r, [r]) ∧
      AllSteps (fun w a _ => StaysFresh parses patience delay w a) (r, [r]) (annotate visit [r] tr) := by
  refine (acts_iff h).trans ?_
  simp only [actsOk_iff]
  refine and_congr_right fun h0 => ?_
  refine Iff.trans ?_ (forall_states_iff (P := fun w => w.1 ∈ w.2 ∧ Fresh parses patience delay w)
    (h.annotate visit [r]) ⟨List.mem_singleton_self r, h0⟩ ?_)
  · exact forall₂_congr fun e he => (and_iff_right (mem_visit e he)).symm
  · rintro ⟨r, past⟩ a ⟨r', past'⟩ ⟨hr, hfresh⟩ ⟨hs, hpast⟩
    dsimp only [visit] at hpast
    subst hpast
    exact (and_iff_right List.mem_cons_self).trans (fresh_step_iff hn hr hfresh hs)

def visibleAscii (v : String) : Bool :=
  v.toList.all fun c => decide (32 ≤ c.toNat) && decide (c.toNat < 127)

def sampleRegion : Region := connectRegion (.ok ⟨"a", 1100, "r", 9000⟩) 1000 0

def sampleLoop (actions : List LoopAction) : List (LoopAction × Region) :=
  follow Region.step sampleRegion actions

/-- The loop wakes a minute before the expiry, and the service renews the token. -/
def renewed : List LoopAction :=
  [.go, .tick 40 1040, .go, .go, .refresh (.ok (some ⟨"b", some 2000⟩)), .go, .tick 60 1100]

theorem alwaysProper_renewed : AlwaysProper visibleAscii 1 (some 1) sampleRegion (sampleLoop renewed) :=
  (alwaysProper_iff Nat.one_pos (allSteps_follow _ _ _)).mpr (by decide)

/-- The service is down when the loop wakes, and still down when the token expires. -/
def outage : List LoopAction :=
  [.go, .tick 40 1040, .go, .go, .refresh (.error "unavailable"),
    .auth (.error "unavailable") (.error "unavailable"), .tick 60 1100]

theorem outage_sends_expired :
    IsLoopRun sampleRegion (sampleLoop outage) ∧ labels (sampleLoop outage) = outage ∧
      ∀ delay, ¬ AlwaysProper visibleAscii 3 delay sampleRegion (sampleLoop outage) := by
  refine ⟨allSteps_follow _ _ _, rfl, ?_⟩
  intro delay h
  have hall := ((acts_iff (allSteps_follow _ _ _)).mp h).2
  let now := lastState sampleRegion (sampleLoop outage)
  have hlast := hall _ (List.getLast_mem (l := annotate visit [sampleRegion] (sampleLoop outage)) (by decide))
  have hproper := hlast now (by decide) ⟨some "Bearer a", [[1, 2, 3]]⟩ ⟨[1, 2, 3], rfl⟩ Prompt.refl
  exact absurd (hproper.1 ⟨"a", 1100, "r", 9000⟩ rfl rfl) (by decide)

end SolanaArbBot.JitoGrpc
