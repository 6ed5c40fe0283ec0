import SolanaArbBot.JitoGrpc.Expiry

/-! The time that a renewal may take. The loop wakes a minute before its token expires;
whatever it meets then, failed handshakes and empty replies included, no expired token is
sent as long as it has a new one before that minute is over. -/
namespace SolanaArbBot.JitoGrpc
open Lib

/-- When the loop planned to wake with the token that it stored last, and whether it has
received a new one since. -/
structure Renewal where
  due : Nat
  renewed : Bool
  deriving DecidableEq

def Renewal.next (n : Renewal) (_ : LoopAction) (r : Region) : Renewal :=
  match r.pc with
  | .storing _ | .storingAccess _ => { n with renewed := true }
  | .sleeping wake => if n.renewed then ⟨wake, false⟩ else n
  | _ => n

/-- Both clocks show the same seconds passing, a renewal is over within the slack, and
the tokens of the service last longer than that. -/
def Timely (slack : Nat) (w : Region × Renewal) : LoopAction → Prop
  | .tick elapsed nowSecs =>
    nowSecs = w.1.nowSecs + elapsed ∧ w.1.monotonic + elapsed < w.2.due + slack
  | .auth challenge tokens => ∀ new ∈ (authenticate challenge tokens).toOption,
      w.1.nowSecs + slack + 70 ≤ new.accessExpiresAt
  | .refresh reply => ∀ token ∈ reply.toOption, ∀ new ∈ token,
      w.1.nowSecs + slack + 70 ≤ timestampSecs new.expiresAtUtc
  | .go => True

instance (slack : Nat) (w : Region × Renewal) : (a : LoopAction) → Decidable (Timely slack w a)
  | .tick elapsed nowSecs => inferInstanceAs (Decidable
      (nowSecs = w.1.nowSecs + elapsed ∧ w.1.monotonic + elapsed < w.2.due + slack))
  | .auth challenge tokens => inferInstanceAs (Decidable (∀ new ∈ (authenticate challenge tokens).toOption,
      w.1.nowSecs + slack + 70 ≤ new.accessExpiresAt))
  | .refresh reply => inferInstanceAs (Decidable (∀ token ∈ reply.toOption, ∀ new ∈ token,
      w.1.nowSecs + slack + 70 ≤ timestampSecs new.expiresAtUtc))
  | .go => isTrue trivial

/-- Every renewal of the run is over in time. -/
def InTime (slack : Nat) (r : Region) (tr : List (LoopAction × Region)) : Prop :=
  AllSteps (fun w a _ => Timely slack w a) (r, ⟨r.monotonic, true⟩)
    (annotate Renewal.next ⟨r.monotonic, true⟩ tr)

section
variable (slack start epoch : Nat) (r : Region) (n : Renewal)

/-- A token that is good for as long past the time due. The time due is one of the clock
that only goes on, the expiry one of the wall clock, and these are their first readings. -/
def Lasts (secs expiresAt : Nat) : Prop := n.due + secs + epoch ≤ expiresAt + start

/-- Where the loop may be. Every failed handshake takes it forty seconds further. -/
def Stage : Prop :=
  match r.pc with
  | .absent => False
  | .top =>
    (n.renewed = true → r.failures = 0 ∧ ∀ t ∈ r.tokens, Lasts start epoch n (slack + 70) t.accessExpiresAt) ∧
      (n.renewed = false → n.due + 40 * r.failures ≤ r.monotonic + 10)
  | .sleeping wake => n.renewed = false ∧ n.due + 40 * r.failures ≤ wake
  | .authenticating | .takeRefresh | .refreshing _ =>
    n.renewed = false ∧ n.due + 40 * r.failures ≤ r.monotonic
  | .storing new => n.renewed = true ∧ Lasts start epoch n (slack + 70) new.accessExpiresAt
  | .storingAccess new =>
    n.renewed = true ∧ Lasts start epoch n (slack + 70) (timestampSecs new.expiresAtUtc)
  | .backoff wake => n.renewed = false ∧ n.due + 40 * r.failures ≤ wake + 10

/-- What holds while renewals are over in time. -/
structure Renewing : Prop where
  clocks : r.nowSecs + start = r.monotonic + epoch
  inTime : r.monotonic < n.due + slack
  failures : r.failures < 3
  held : ∃ t, r.tokens = some t ∧ Lasts start epoch n 60 t.accessExpiresAt
  stage : Stage slack start epoch r n

end

variable {slack start epoch : Nat} {r r' : Region} {n : Renewal} {a : LoopAction}

theorem Lasts.mono {secs secs' expiresAt : Nat} (h : Lasts start epoch n secs expiresAt)
    (hle : secs' ≤ secs) : Lasts start epoch n secs' expiresAt := by
  unfold Lasts at h ⊢
  omega

/-- A token that lasts a minute past the time due is still good when the request leaves. -/
theorem Renewing.unexpired {delay : Nat} {now : Region} {t : Tokens} (hslack : slack + delay ≤ 60)
    (h : Renewing slack start epoch r n) (hclocks : now.nowSecs + start = now.monotonic + epoch)
    (hp : Prompt (some delay) r now) (ht : t ∈ r.tokens) : now.nowSecs < t.accessExpiresAt := by
  obtain ⟨_, hin, _, ⟨t', ht', hlasts⟩, _⟩ := h
  rw [ht', Option.mem_some_iff] at ht
  subst ht
  have hsoon : now.monotonic ≤ r.monotonic + delay := hp delay rfl
  unfold Lasts at hlasts
  omega

private theorem sleepSecs_le {t : Tokens} {now : Nat} (h : now + 70 < t.accessExpiresAt) :
    now + sleepSecs (some t) now + 60 ≤ t.accessExpiresAt := by
  dsimp only [sleepSecs]
  omega

private theorem ten_le_sleepSecs (tokens : Option Tokens) (now : Nat) : 10 ≤ sleepSecs tokens now := by
  cases tokens with
  | none => exact (by decide : 10 ≤ 300)
  | some t =>
    dsimp only [sleepSecs]
    omega

private theorem Stage.next_eq (h : Stage slack start epoch r n) (hpc : r'.pc = r.pc) :
    n.next a r' = n := by
  unfold Renewal.next
  rw [hpc]
  cases hr : r.pc with
  | storing | storingAccess =>
    simp only [Stage, hr] at h
    rw [← h.1]
  | sleeping wake =>
    simp only [Stage, hr] at h
    simp only [h.1, Bool.false_eq_true, if_false]
  | _ => rfl

private theorem Stage.later (h : Stage slack start epoch r n) (elapsed nowSecs : Nat) :
    Stage slack start epoch { r with monotonic := r.monotonic + elapsed, nowSecs := nowSecs } n := by
  cases hpc : r.pc with
  | absent | sleeping | storing | storingAccess | backoff =>
    simp only [Stage, hpc] at h ⊢
    try exact h
  | top =>
    simp only [Stage, hpc] at h ⊢
    refine ⟨h.1, fun hr => ?_⟩
    have hlate := h.2 hr
    omega
  | authenticating | takeRefresh | refreshing =>
    simp only [Stage, hpc] at h ⊢
    exact ⟨h.1, by omega⟩

/-- Going to sleep, the loop plans to wake a minute before its token expires, or keeps to
the time that was due when its renewal has not succeeded yet. -/
private theorem Renewing.sleep (h : Renewing slack start epoch r n) (hpc : r.pc = .top) :
    let r' := { r with pc := .sleeping (r.monotonic + sleepSecs r.tokens r.nowSecs) }
    Renewing slack start epoch r' (n.next .go r') := by
  intro r'
  obtain ⟨hclocks, hin, hfail, hheld, hstage⟩ := h
  simp only [Stage, hpc] at hstage
  have hten := ten_le_sleepSecs r.tokens r.nowSecs
  cases hr : n.renewed with
  | true =>
    obtain ⟨t, htok, _⟩ := hheld
    obtain ⟨hzero, hlong⟩ := hstage.1 hr
    have hlong := hlong t htok
    unfold Lasts at hlong
    have hle : r.nowSecs + sleepSecs (some t) r.nowSecs + 60 ≤ t.accessExpiresAt := sleepSecs_le (by omega)
    rw [← htok] at hle
    have hnext : n.next .go r' = ⟨r.monotonic + sleepSecs r.tokens r.nowSecs, false⟩ := if_pos hr
    rw [hnext]
    refine ⟨hclocks, ?_, hfail, ⟨t, htok, ?_⟩, rfl, ?_⟩
    · dsimp only [r']
      omega
    · unfold Lasts
      dsimp only
      omega
    · dsimp only [r']
      omega
  | false =>
    have hlate := hstage.2 hr
    have hnext : n.next .go r' = n := if_neg (by rw [hr]; decide)
    rw [hnext]
    refine ⟨hclocks, hin, hfail, hheld, hr, ?_⟩
    dsimp only [r']
    omega

theorem Renewing.step (hslack : slack ≤ 60) (h : Renewing slack start epoch r n)
    (ht : Timely slack (r, n) a) (hs : r.step a = some r') :
    Renewing slack start epoch r' (n.next a r') := by
  have hsleep := h.sleep
  obtain ⟨hclocks, hin, hfail, hheld, hstage⟩ := h
  cases Region.step_cases hs with
  | @tick elapsed nowSecs =>
    obtain ⟨hnow, hlt⟩ := ht
    dsimp only at hnow hlt
    have hnext : n.next (.tick elapsed nowSecs)
        { r with monotonic := r.monotonic + elapsed, nowSecs := nowSecs } = n := hstage.next_eq rfl
    rw [hnext]
    refine ⟨?_, hlt, hfail, hheld, hstage.later elapsed nowSecs⟩
    dsimp only
    omega
  | sleep hpc => exact hsleep hpc
  | wakeToAuth hpc hwake | wakeToRefresh hpc hwake =>
    simp only [Stage, hpc] at hstage
    exact ⟨hclocks, hin, hfail, hheld, hstage.1, Nat.le_trans hstage.2 hwake⟩
  | @store new hpc =>
    simp only [Stage, hpc] at hstage
    obtain ⟨hr, hlong⟩ := hstage
    refine ⟨hclocks, hin, Nat.succ_pos 2, ⟨new, rfl, hlong.mono (by omega)⟩, fun _ => ⟨rfl, ?_⟩, ?_⟩
    · intro t ht
      cases ht
      exact hlong
    · intro hf
      cases hr.symm.trans hf
  | sendRefresh hpc =>
    simp only [Stage, hpc] at hstage
    exact ⟨hclocks, hin, hfail, hheld, hstage⟩
  | noRefresh hpc hnone =>
    obtain ⟨t, htok, _⟩ := hheld
    cases htok.symm.trans hnone
  | @storeAccess new hpc =>
    simp only [Stage, hpc] at hstage
    obtain ⟨hr, hlong⟩ := hstage
    obtain ⟨t, htok, _⟩ := hheld
    refine ⟨hclocks, hin, Nat.succ_pos 2, ⟨t.withAccess new, ?_, hlong.mono (by omega)⟩, fun _ => ⟨rfl, ?_⟩, ?_⟩
    · dsimp only
      rw [htok]
      rfl
    · intro t' ht'
      rw [htok] at ht'
      cases ht'
      exact hlong
    · intro hf
      cases hr.symm.trans hf
  | resume hpc hwake =>
    simp only [Stage, hpc] at hstage
    obtain ⟨hr, hlate⟩ := hstage
    refine ⟨hclocks, hin, hfail, hheld, fun hf => ?_, fun _ => ?_⟩
    · cases hr.symm.trans hf
    · change n.due + 40 * r.failures ≤ r.monotonic + 10
      omega
  | @authenticated challenge tokens new hpc hauth =>
    simp only [Stage, hpc] at hstage
    have hlife : r.nowSecs + slack + 70 ≤ new.accessExpiresAt := ht new (by rw [hauth]; rfl)
    refine ⟨hclocks, hin, hfail, hheld, rfl, ?_⟩
    change n.due + (slack + 70) + epoch ≤ new.accessExpiresAt + start
    omega
  | authFailed hpc hauth =>
    -- within the slack there is no third failure
    simp only [Stage, hpc] at hstage
    refine ⟨hclocks, hin, ?_, hheld, hstage.1, ?_⟩
    · change r.failures + 1 < 3
      omega
    · change n.due + 40 * (r.failures + 1) ≤ r.monotonic + 30 + 10
      omega
  | refreshFailed hpc =>
    simp only [Stage, hpc] at hstage
    exact ⟨hclocks, hin, hfail, hheld, hstage⟩
  | refreshEmpty hpc =>
    simp only [Stage, hpc] at hstage
    obtain ⟨hr, hlate⟩ := hstage
    refine ⟨hclocks, hin, hfail, hheld, fun hf => ?_, fun _ => ?_⟩
    · cases hr.symm.trans hf
    · change n.due + 40 * r.failures ≤ r.monotonic + 10
      omega
  | @refreshed _ new hpc =>
    simp only [Stage, hpc] at hstage
    have hlife : r.nowSecs + slack + 70 ≤ timestampSecs new.expiresAtUtc := ht (some new) rfl new rfl
    refine ⟨hclocks, hin, hfail, hheld, rfl, ?_⟩
    change n.due + (slack + 70) + epoch ≤ timestampSecs new.expiresAtUtc + start
    omega

/-- The region keeps to its renewals, whichever time is due. -/
def KeepsUp (slack start epoch : Nat) (r : Region) : Prop := ∃ n, Renewing slack start epoch r n

/-- What is looked up in one such state and sent in another is proper. -/
theorem KeepsUp.proper {delay : Nat} {now : Region} {req : SendBundleRequest}
    (hslack : slack + delay ≤ 60) (h : KeepsUp slack start epoch r) (hnow : KeepsUp slack start epoch now)
    (hp : Prompt (some delay) r now) : Proper 3 ⟨req, r, now⟩ := by
  obtain ⟨n, hr⟩ := h
  obtain ⟨_, hnow⟩ := hnow
  exact ⟨fun t ht _ => hr.unexpired hslack hnow.clocks hp ht,
    fun hle => absurd hnow.failures (Nat.not_lt.mpr hle)⟩

/-- While renewals are over in time, the region keeps up from its start on. -/
theorem InTime.keepsUp {slack nowSecs monotonic : Nat} {t : Tokens} {tr : List (LoopAction × Region)}
    (hpos : 0 < slack) (hslack : slack ≤ 60) (hlife : nowSecs + slack + 70 ≤ t.accessExpiresAt)
    (h : IsLoopRun (connectRegion (.ok t) nowSecs monotonic) tr)
    (ht : InTime slack (connectRegion (.ok t) nowSecs monotonic) tr) :
    KeepsUp slack monotonic nowSecs (connectRegion (.ok t) nowSecs monotonic) ∧
      ∀ e ∈ tr, KeepsUp slack monotonic nowSecs e.2 := by
  have h0 : Renewing slack monotonic nowSecs (connectRegion (.ok t) nowSecs monotonic)
      ⟨monotonic, true⟩ := by
    have hlasts : Lasts monotonic nowSecs ⟨monotonic, true⟩ (slack + 70) t.accessExpiresAt := by
      unfold Lasts
      dsimp only
      omega
    refine ⟨Nat.add_comm _ _, Nat.lt_add_of_pos_right hpos, Nat.succ_pos 2,
      ⟨t, rfl, hlasts.mono (by omega)⟩, fun _ => ⟨rfl, ?_⟩, fun hf => Bool.noConfusion hf⟩
    intro t' ht'
    cases ht'
    exact hlasts
  refine ⟨⟨_, h0⟩, ?_⟩
  have hall := ((h.annotate Renewal.next ⟨monotonic, true⟩).and ht).forall_states
    (I := fun w => Renewing slack monotonic nowSecs w.1 w.2) h0 (by
      rintro ⟨r, n⟩ a ⟨r', n'⟩ hi ⟨⟨hs, hn⟩, htimely⟩
      dsimp only at hn
      subst hn
      exact hi.step hslack htimely hs)
  intro e he
  rw [← map_annotate Renewal.next ⟨monotonic, true⟩ tr] at he
  obtain ⟨e', he', rfl⟩ := List.mem_map.mp he
  exact ⟨_, hall e' he'⟩

def retriedRegion : Region := connectRegion (.ok ⟨"a", 1200, "r", 9000⟩) 1000 0

/-- The service is down when the loop wakes, and up again forty seconds later. -/
def retried : List LoopAction :=
  [.go, .tick 140 1140, .go, .go, .refresh (.error "unavailable"),
    .auth (.error "unavailable") (.error "unavailable"), .tick 30 1170, .go, .go, .tick 10 1180, .go, .go,
    .refresh (.ok (some ⟨"b", some 2000⟩)), .go, .go, .tick 300 1480]

end SolanaArbBot.JitoGrpc
