import SolanaArbBot.Arbitrage.Balance
import SolanaArbBot.Arbitrage.Reporter

/-! Nothing is lost or doubled between the counters and the reports. A swap moves a
value, a write closes a window, and each check adds what its exits have in common. -/
namespace SolanaArbBot.Arbitrage
open Lib TemplateCache

/-! What a step of the process adds -/

def TokenMetrics.perform (m : TokenMetrics) : Option Effect → TokenMetrics
  | some (.countToken mint c n) => m.fetchAdd mint c n
  | _ => m

private theorem Advance.tokens {cfg : Config} {s s' : Shared} {pc pc' : Pc} {es : List Effect}
    (h : Advance cfg s pc s' es pc') : s'.tokens = s.tokens := by
  cases h <;> rfl

theorem tokens_step {cfg : Config} {p p' : State} {a : Action} (h : step cfg p a = some p') :
    p'.shared.tokens = p.shared.tokens.perform (performed p a) := by
  have hm := step_cases h
  cases hm with
  | tick => rfl
  | check => rfl
  | effect ht =>
    rename_i i o e es pc
    have hp : performed p (.act i o) = some e := by rw [performed, ht]; rfl
    rw [hp]
    cases e <;> rfl
  | advance ht ha =>
    rename_i i o pc s' es pc'
    have hp : performed p (.act i o) = none := by rw [performed, ht]; rfl
    rw [hp]
    exact ha.tokens

private theorem value_perform {mints : List String} {mint : String} (hm : mint ∈ mints)
    (c : TokenCounter) (stats : Stats) (m : TokenMetrics) (e : Option Effect) :
    (stats.perform mints e).value mints mint c + m mint c =
      stats.value mints mint c + (m.perform e) mint c := by
  cases e with
  | none => rfl
  | some e =>
    cases e with
    | countToken mint' c' n =>
      rw [Stats.perform, TokenMetrics.perform, TokenMetrics.fetchAdd]
      cases hi : statIndex mints mint' with
      | none =>
        have hne : mint ≠ mint' := by
          rintro rfl
          obtain ⟨i, hsome⟩ := exists_statIndex hm
          rw [hi] at hsome
          cases hsome
        simp [hne]
      | some i =>
        dsimp only
        rw [Stats.value_set, getElem?_of_statIndex hi]
        simp only [Option.some.injEq, eq_comm (a := mint')]
        split <;> omega
    | _ => rfl

/-! The reports and the counters -/

/-- What the reporter took in the window it is about to report. -/
def Reporter.inProgress (r : Reporter) : Stats :=
  match r.pc with
  | .waiting => fun _ _ => 0
  | .swapping _ snap _ => snap

def Reporting.unreported (s : Reporting) : Stats := fun i c => s.reporter.inProgress i c + s.stats i c

private theorem Reporting.unreported_eq {s : Reporting} {ts : String} {snap : Stats}
    {todo : List (Nat × TokenCounter)} (hpc : s.reporter.pc = .swapping ts snap todo) :
    s.unreported = fun i c => snap i c + s.stats i c := by
  have hprog : s.reporter.inProgress = snap := by rw [Reporter.inProgress, hpc]
  rw [← hprog]
  rfl

private theorem Reporting.unreported_waiting {s : Reporting} (hpc : s.reporter.pc = .waiting) :
    s.unreported = fun i c => 0 + s.stats i c := by
  have hprog : s.reporter.inProgress = fun _ _ => 0 := by rw [Reporter.inProgress, hpc]
  funext i c
  exact congrArg (· + s.stats i c) (congrFun (congrFun hprog i) c)

/-- The counters still to be taken have no value in the window yet. -/
def Reporter.Fresh (r : Reporter) : Prop :=
  match r.pc with
  | .waiting => True
  | .swapping _ snap todo => todo.Nodup ∧ ∀ q ∈ todo, snap q.1 q.2 = 0

/-- The windows closed since the last report of thirty minutes. -/
def Reporter.closed (r : Reporter) : Nat :=
  match r.pc with
  | .waiting => r.windows
  | .swapping _ _ _ => r.windows - 1

def sumOver (files : List ReportFile) (mint : String) (c : TokenCounter) : Nat :=
  (files.map (ReportFile.value mint c)).sum

/-- What a report of thirty minutes adds up. -/
structure Reporter.Windows (mints : List String) (r : Reporter) : Prop where
  count : r.fiveMinutes.length = 6 * r.thirtyMinutes.length + r.closed
  closed_lt : r.closed < 6
  open_pos : r.pc ≠ .waiting → 1 ≤ r.windows
  acc : ∀ mint c, r.acc.value mints mint c =
    sumOver (r.fiveMinutes.drop (6 * r.thirtyMinutes.length)) mint c
  thirty : ∀ k file, r.thirtyMinutes[k]? = some file → ∀ mint c,
    file.value mint c = sumOver ((r.fiveMinutes.drop (6 * k)).take 6) mint c

structure Reporting.Inv (cfg : Config) (s : Reporting) : Prop where
  conserved : ∀ mint ∈ cfg.tokenMints, ∀ c,
    sumOver s.reporter.fiveMinutes mint c + s.unreported.value cfg.tokenMints mint c =
      s.process.shared.tokens mint c
  fresh : s.reporter.Fresh
  windows : s.reporter.Windows cfg.tokenMints

theorem sumOver_append (files files' : List ReportFile) (mint : String) (c : TokenCounter) :
    sumOver (files ++ files') mint c = sumOver files mint c + sumOver files' mint c := by
  simp [sumOver]

private theorem six_append {files : List ReportFile} {k : Nat} (h : 6 * k + 6 ≤ files.length)
    (file : ReportFile) : ((files ++ [file]).drop (6 * k)).take 6 = (files.drop (6 * k)).take 6 := by
  rw [List.drop_append_of_le_length (by omega), List.take_append_of_le_length]
  rw [List.length_drop]
  omega

section Windows
variable {mints : List String} {r : Reporter} {ts : String} {snap : Stats}

private theorem Reporter.Windows.full (h : r.Windows mints) {k : Nat} {file : ReportFile}
    (hk : r.thirtyMinutes[k]? = some file) : 6 * k + 6 ≤ r.fiveMinutes.length := by
  have hcount := h.count
  obtain ⟨hk, _⟩ := List.getElem?_eq_some_iff.mp hk
  omega

private theorem Reporter.Windows.acc_add (h : r.Windows mints) (ts : String) (mint : String)
    (c : TokenCounter) :
    Stats.value mints mint c (fun i d => r.acc i d + snap i d) =
      sumOver ((r.fiveMinutes ++ [writeJson (snapshots mints snap) ts 5]).drop
        (6 * r.thirtyMinutes.length)) mint c := by
  have hcount := h.count
  rw [Stats.value_add, h.acc, List.drop_append_of_le_length (by omega), sumOver_append]
  congr 1
  simp [sumOver, Stats.value]

private theorem Reporter.Windows.closeWindow (h : r.Windows mints)
    (hpc : r.pc = .swapping ts snap []) : (r.closeWindow mints ts snap).Windows mints := by
  have hclosed : r.closed = r.windows - 1 := by rw [closed, hpc]
  have hpos : 1 ≤ r.windows := h.open_pos (by rw [hpc]; exact ReporterPc.noConfusion)
  have hcount := h.count
  have hlt := h.closed_lt
  rw [hclosed] at hcount hlt
  unfold Reporter.closeWindow
  dsimp only
  split
  · have hlen : (r.fiveMinutes ++ [writeJson (snapshots mints snap) ts 5]).length =
        6 * (r.thirtyMinutes.length + 1) := by
      rw [List.length_append, List.length_singleton]
      omega
    refine ⟨?_, Nat.zero_lt_succ 5, fun hw => absurd rfl hw, ?_, ?_⟩
    · rw [hlen, List.length_append, List.length_singleton]
      rfl
    · intro mint c
      rw [List.length_append, List.length_singleton, ← hlen, List.drop_length, Stats.value_zero]
      rfl
    · intro k file hk mint c
      rw [List.getElem?_append] at hk
      split at hk
      · rw [six_append (h.full hk), h.thirty k file hk]
      · next hge =>
        rw [List.getElem?_singleton] at hk
        split at hk
        · next hz =>
          have hlast : k = r.thirtyMinutes.length := by omega
          cases hk
          rw [value_writeJson, ← Stats.value, h.acc_add ts, hlast, List.take_of_length_le]
          rw [List.length_drop, hlen]
          omega
        · cases hk
  · next hopen =>
    refine ⟨?_, Nat.lt_of_not_ge hopen, fun hw => absurd rfl hw, h.acc_add ts, ?_⟩
    · rw [Reporter.closed]
      dsimp only
      rw [List.length_append, List.length_singleton]
      omega
    · intro k file hk mint c
      rw [six_append (h.full hk), h.thirty k file hk]

end Windows

theorem swaps_nodup (n : Nat) : (swaps n).Nodup := by
  have hrow (i : Nat) : (TokenCounter.all.map fun c => (i, c)).Nodup :=
    List.Nodup.map (fun _ _ h => (Prod.mk.inj h).2) (by decide)
  refine List.nodup_flatMap.mpr ⟨fun i _ => hrow i, List.nodup_range.imp ?_⟩
  rintro i j hne ⟨k, c⟩ hi hj
  obtain ⟨_, _, he⟩ := List.mem_map.mp hi
  obtain ⟨_, _, he'⟩ := List.mem_map.mp hj
  exact hne ((Prod.mk.inj he).1.trans (Prod.mk.inj he').1.symm)

theorem Reporting.start_inv (cfg : Config) (store : StoreInner) (now : Int) :
    (start cfg store now).Inv cfg where
  conserved mint _ c := by
    have hzero : (start cfg store now).unreported = fun _ _ => 0 := rfl
    rw [hzero, Stats.value_zero]
    rfl
  fresh := trivial
  windows :=
    { count := rfl
      closed_lt := Nat.zero_lt_succ 5
      open_pos := fun h => absurd rfl h
      acc := fun mint c => Stats.value_zero _ _ _
      thirty := fun k file h => by cases h }

section Steps
variable {cfg : Config} {s s' : Reporting}

private theorem Reporting.Inv.process {a : Action} {p : State} (h : s.Inv cfg)
    (hp : Arbitrage.step cfg s.process a = some p) :
    Reporting.Inv cfg { s with
      process := p, stats := s.stats.perform cfg.tokenMints (performed s.process a) } where
  conserved mint hm c := by
    have hbefore := h.conserved mint hm c
    have hadd := value_perform hm c s.stats s.process.shared.tokens (performed s.process a)
    rw [← tokens_step hp] at hadd
    unfold unreported at hbefore ⊢
    rw [Stats.value_add] at hbefore ⊢
    dsimp only
    omega
  fresh := h.fresh
  windows := h.windows

private theorem Reporting.Inv.tick {ts : String} (h : s.Inv cfg) (hpc : s.reporter.pc = .waiting) :
    Reporting.Inv cfg { s with
      reporter := { s.reporter with
        pc := .swapping ts (fun _ _ => 0) (swaps cfg.tokenMints.length)
        windows := s.reporter.windows + 1 } } where
  conserved mint hm c := by
    have hbefore := h.conserved mint hm c
    rw [unreported_waiting hpc] at hbefore
    exact hbefore
  fresh := ⟨swaps_nodup _, fun _ _ => rfl⟩
  windows := by
    have hclosed : s.reporter.closed = s.reporter.windows := by rw [Reporter.closed, hpc]
    exact {
      count := h.windows.count.trans (by rw [hclosed]; rfl)
      closed_lt := hclosed ▸ h.windows.closed_lt
      open_pos := fun _ => Nat.le_add_left 1 _
      acc := h.windows.acc
      thirty := h.windows.thirty }

private theorem Reporting.Inv.swap {ts : String} {snap : Stats} {i : Nat} {c : TokenCounter}
    {todo : List (Nat × TokenCounter)} (h : s.Inv cfg)
    (hpc : s.reporter.pc = .swapping ts snap ((i, c) :: todo)) :
    Reporting.Inv cfg { s with
      stats := s.stats.set i c 0
      reporter := { s.reporter with pc := .swapping ts (snap.set i c (s.stats i c)) todo } } := by
  have hfresh : ((i, c) :: todo).Nodup ∧ ∀ q ∈ (i, c) :: todo, snap q.1 q.2 = 0 := by
    have hf := h.fresh
    rwa [Reporter.Fresh, hpc] at hf
  obtain ⟨hnodup, hzero⟩ := hfresh
  obtain ⟨hnew, hrest⟩ := List.nodup_cons.mp hnodup
  have hclosed : s.reporter.closed = s.reporter.windows - 1 := by rw [Reporter.closed, hpc]
  refine ⟨?_, ⟨hrest, ?_⟩, ⟨?_, ?_, ?_, h.windows.acc, h.windows.thirty⟩⟩
  · -- what the counter loses the window gains, where it had nothing yet
    intro mint hm d
    have hbefore := h.conserved mint hm d
    have hmove : (fun j e => (snap.set i c (s.stats i c)) j e + (s.stats.set i c 0) j e) =
        fun j e => snap j e + s.stats j e := by
      funext j e
      rw [Stats.set, Stats.set]
      split
      · next he =>
        rw [he.1, he.2, hzero (i, c) List.mem_cons_self]
        omega
      · rfl
    rw [unreported_eq hpc, ← hmove] at hbefore
    exact hbefore
  · intro q hq
    have hne : ¬ (q.1 = i ∧ q.2 = c) := by
      rintro ⟨h1, h2⟩
      have hqe : q = (i, c) := Prod.ext h1 h2
      exact hnew (hqe ▸ hq)
    rw [Stats.set, if_neg hne]
    exact hzero q (List.mem_cons_of_mem _ hq)
  · exact h.windows.count.trans (by rw [hclosed]; rfl)
  · have hlt := h.windows.closed_lt
    rw [hclosed] at hlt
    exact hlt
  · intro _
    exact h.windows.open_pos (by rw [hpc]; exact ReporterPc.noConfusion)

private theorem Reporting.Inv.closeWindow {ts : String} {snap : Stats} (h : s.Inv cfg)
    (hpc : s.reporter.pc = .swapping ts snap []) :
    Reporting.Inv cfg { s with reporter := s.reporter.closeWindow cfg.tokenMints ts snap } := by
  have hwait : (s.reporter.closeWindow cfg.tokenMints ts snap).pc = .waiting := by
    unfold Reporter.closeWindow
    dsimp only
    split <;> rfl
  have hfive : (s.reporter.closeWindow cfg.tokenMints ts snap).fiveMinutes =
      s.reporter.fiveMinutes ++ [writeJson (snapshots cfg.tokenMints snap) ts 5] := by
    unfold Reporter.closeWindow
    dsimp only
    split <;> rfl
  refine ⟨?_, ?_, h.windows.closeWindow hpc⟩
  · intro mint hm c
    have hbefore := h.conserved mint hm c
    rw [unreported_eq hpc, Stats.value_add] at hbefore
    rw [unreported_waiting hwait, Stats.value_add, Stats.value_zero, hfive, sumOver_append]
    have hone : sumOver [writeJson (snapshots cfg.tokenMints snap) ts 5] mint c =
        snap.value cfg.tokenMints mint c := by
      simp [sumOver, Stats.value]
    dsimp only
    omega
  · rw [Reporter.Fresh, hwait]
    trivial

theorem Reporting.Inv.step {a : ReportingAction} (h : s.Inv cfg) (hs : Reporting.step cfg s a = some s') :
    s'.Inv cfg := by
  cases a with
  | process a =>
    obtain ⟨p, hp, rfl⟩ := Option.map_eq_some_iff.mp hs
    exact h.process hp
  | tick ts =>
    simp only [Reporting.step] at hs
    split at hs
    · next hpc =>
      cases hs
      exact h.tick hpc
    · cases hs
  | report =>
    simp only [Reporting.step] at hs
    split at hs
    · cases hs
    · next hpc =>
      cases hs
      exact h.swap hpc
    · next hpc =>
      cases hs
      exact h.closeWindow hpc

end Steps

/-! What the exits of a quote check have in common -/

def isTokenUpdate : Effect → Bool
  | .countToken _ _ _ => true
  | _ => false

/-- The thread has updates of a token's counters to come. -/
def Thread.inQuoteCheck (t : Thread) : Bool :=
  match t.pc with
  | .awaitQuote1 _ _ _ | .awaitQuote2 _ _ _ _ => true
  | _ => t.todo.any isTokenUpdate

/-- Weights of the counters of one mint, and what a check that waits for a quote has
yet to add, by whichever of its exits. -/
structure CheckWeights where
  counter : TokenCounter → Int
  owed : Int
  sent : 2 * counter .qSent + owed = 0
  fail : counter .routeFail = owed
  notProfitable : counter .routeOk + counter .notProfitable = owed
  profitable : counter .routeOk + counter .profitable = owed

namespace CheckWeights
variable (w : CheckWeights) (cfg : Config) (mint : String)

def shared (s : Shared) : Int := (TokenCounter.all.map fun c => w.counter c * s.tokens mint c).sum

@[simp] def effect : Effect → Int
  | .countToken mint' c n => if mint' = mint then w.counter c * n else 0
  | _ => 0

def todo (es : List Effect) : Int := (es.map (w.effect mint)).sum

def pc : Pc → Int
  | .awaitQuote1 mint' _ _ | .awaitQuote2 mint' _ _ _ =>
    if mint' = mint ∧ cfg.tokenMints.contains mint then w.owed else 0
  | _ => 0

def thread (t : Thread) : Int := w.todo mint t.todo + w.pc cfg mint t.pc

@[simp] theorem todo_nil : w.todo mint [] = 0 := rfl

@[simp] theorem todo_cons (e : Effect) (es : List Effect) :
    w.todo mint (e :: es) = w.effect mint e + w.todo mint es := by
  simp [todo]

@[simp] theorem todo_append (es es' : List Effect) :
    w.todo mint (es ++ es') = w.todo mint es + w.todo mint es' := by
  simp [todo]

@[simp] theorem todo_countToken (mint' : String) (c : TokenCounter) (n : Nat) :
    w.todo mint (countToken cfg mint' c n) =
      if mint' = mint ∧ cfg.tokenMints.contains mint then w.counter c * n else 0 := by
  unfold countToken
  by_cases hm : mint' = mint
  · subst hm
    split <;> simp_all
  · split <;> simp [hm]

@[simp] theorem todo_countQuoted (mint' : String) :
    w.todo mint (countQuoted cfg mint') =
      if mint' = mint ∧ cfg.tokenMints.contains mint then w.counter .routeOk else 0 := by
  rw [countQuoted, todo_cons, todo_countToken, Nat.cast_one, mul_one]
  exact zero_add _

@[simp] theorem todo_countDropped (reason : Counter) : w.todo mint (countDropped reason) = 0 := rfl

@[simp] theorem todo_serveFromRam (sig : Sig) (ix : SwapInstructionsResponse) (hopCount : Nat) :
    w.todo mint (serveFromRam sig ix hopCount) = 0 := rfl

@[simp] theorem todo_afterSwapIxs (job : Job) (fetchMs : Nat) (e : SwapIxError) :
    w.todo mint (afterSwapIxs cfg job fetchMs (.error e)) = 0 := rfl

@[simp] theorem todo_takeFromMetis (job : Job) (ix : SwapInstructionsResponse) (fetchMs : Nat) :
    w.todo mint (takeFromMetis cfg job ix fetchMs) = 0 := by
  unfold takeFromMetis saveRoute
  split <;> rfl

@[simp] theorem todo_putBack (item : ReadyInstruction) : w.todo mint (putBack item) = 0 := by
  unfold putBack
  split <;> rfl

@[simp] theorem pc_next (tier : Tier) (job : Job) : w.pc cfg mint (tier.next job) = 0 := by
  cases tier <;> rfl

/-- An operation moves its weight from the thread to the counters. -/
theorem shared_run (e : Effect) (s : Shared) :
    w.shared mint (e.run s) = w.shared mint s + w.effect mint e := by
  cases e with
  | countToken mint' c n =>
    rw [effect]
    by_cases hm : mint' = mint
    · subst hm
      rw [if_pos rfl]
      simp only [shared, Effect.run, TokenMetrics.fetchAdd, true_and, TokenCounter.all,
        List.map_cons, List.map_nil, List.sum_cons, List.sum_nil]
      cases c <;> simp <;> ring
    · rw [if_neg hm, add_zero]
      have hsame : (s.tokens.fetchAdd mint' c n) mint = s.tokens mint := by
        funext d
        rw [TokenMetrics.fetchAdd, if_neg (fun h => hm h.1.symm)]
      simp only [shared, Effect.run, hsame]
  | _ => exact (add_zero _).symm

/-- Every branch adds what its check owed: the two exits of a failed quote, the two
without a profit and the one with it. -/
theorem advance {s s' : Shared} {pc pc' : Pc} {es : List Effect} (h : Advance cfg s pc s' es pc') :
    w.todo mint es + w.pc cfg mint pc' = w.pc cfg mint pc := by
  cases h with
  | noQuote1 | noQuote2 => simp [CheckWeights.pc, w.fail]
  | quote1 => simp [CheckWeights.pc]
  | notProfitable | samePool =>
    simp only [CheckWeights.pc, todo_append, todo_cons, todo_countQuoted, todo_countToken, effect,
      Nat.cast_one, mul_one, zero_add, add_zero]
    split
    · exact w.notProfitable
    · rfl
  | profitable =>
    simp only [CheckWeights.pc, todo_append, todo_countQuoted, todo_countToken, Nat.cast_one,
      mul_one, add_zero]
    split
    · exact w.profitable
    · rfl
  | lookMissed | promoteMissed =>
    rw [todo_nil, pc_next]
    rfl
  | _ => simp [CheckWeights.pc]

theorem check (mint' : String) (amount : UInt64) (onlyDirect : Bool) :
    w.thread cfg mint (quoteCheck cfg mint' amount onlyDirect) = 0 := by
  simp only [thread, quoteCheck, todo_cons, todo_countToken, effect, CheckWeights.pc, zero_add]
  split
  · have hsent := w.sent
    push_cast
    linarith
  · rfl

/-- The weights of the counters and of the checks under way cancel out. -/
theorem total_step {p p' : State} {a : Action} (hm : Moves cfg p a p') :
    p'.total (w.shared mint) (w.thread cfg mint) = p.total (w.shared mint) (w.thread cfg mint) := by
  cases hm with
  | tick => rfl
  | check => rw [Pool.total_spawn, w.check, add_zero]
  | effect ht =>
    apply Pool.total_update ht
    rw [thread, thread, todo_cons, shared_run]
    ring
  | advance ht ha =>
    apply Pool.total_update ht
    have hs : w.shared mint _ = w.shared mint _ := congrArg
      (fun m : TokenMetrics => (TokenCounter.all.map fun c => w.counter c * m mint c).sum) ha.tokens
    rw [thread, thread, todo_nil, zero_add, hs, w.advance cfg mint ha]

theorem total_start (store : StoreInner) (now : Int) :
    (start cfg store now).total (w.shared mint) (w.thread cfg mint) = 0 := by
  have hidle : w.thread cfg mint ⟨[], .idle⟩ = 0 := rfl
  simp [Pool.total, start, shared, TokenCounter.all, hidle]

private theorem todo_eq_zero {es : List Effect} (h : es.any isTokenUpdate = false) :
    w.todo mint es = 0 := by
  rw [todo]
  apply Pool.sum_eq_zero
  intro e he
  have hno := List.any_eq_false.mp h e he
  cases e with
  | countToken => exact absurd rfl hno
  | _ => rfl

private theorem thread_eq_zero {t : Thread} (h : t.inQuoteCheck = false) :
    w.thread cfg mint t = 0 := by
  obtain ⟨es, pc⟩ := t
  cases pc with
  | awaitQuote1 | awaitQuote2 => cases h
  | _ => exact (add_zero _).trans (w.todo_eq_zero mint h)

/-- Without a check under way the counters alone cancel out. -/
theorem shared_eq_zero {p : State} (h : p.total (w.shared mint) (w.thread cfg mint) = 0)
    (hq : ∀ t ∈ p.threads, t.inQuoteCheck = false) : w.shared mint p.shared = 0 := by
  have hzero : ∀ t ∈ p.threads, w.thread cfg mint t = 0 := fun t ht => w.thread_eq_zero cfg mint (hq t ht)
  rw [Pool.total, Pool.sum_eq_zero hzero, add_zero] at h
  exact h

/-- Two quotes for each check that comes to an end. -/
def sentTwice : CheckWeights where
  counter := fun
    | .qSent => 1
    | .routeOk | .routeFail => -2
    | .profitable | .notProfitable => 0
  owed := -2
  sent := rfl
  fail := rfl
  notProfitable := rfl
  profitable := rfl

def judged : CheckWeights where
  counter := fun
    | .qSent | .routeFail => 0
    | .routeOk => 1
    | .profitable | .notProfitable => -1
  owed := 0
  sent := rfl
  fail := rfl
  notProfitable := rfl
  profitable := rfl

end CheckWeights

section Runs
variable {cfg : Config} {store : StoreInner} {now : Int} {tr : List (ReportingAction × Reporting)}

private theorem process_moves {s s' : Reporting} {a : ReportingAction}
    (h : Reporting.step cfg s a = some s') :
    s'.process = s.process ∨ ∃ b, Moves cfg s.process b s'.process := by
  cases a with
  | process a =>
    obtain ⟨p, hp, rfl⟩ := Option.map_eq_some_iff.mp h
    exact Or.inr ⟨a, step_cases hp⟩
  | tick ts =>
    simp only [Reporting.step] at h
    split at h <;> cases h
    exact Or.inl rfl
  | report =>
    simp only [Reporting.step] at h
    split at h <;> cases h <;> exact Or.inl rfl

theorem IsReportingRun.inv (h : IsReportingRun cfg store now tr) :
    (lastState (Reporting.start cfg store now) tr).Inv cfg :=
  h.invariant (Reporting.start_inv cfg store now) fun _ _ _ hi hs => hi.step hs

theorem IsReportingRun.total (h : IsReportingRun cfg store now tr) (w : CheckWeights) (mint : String) :
    (lastState (Reporting.start cfg store now) tr).process.total (w.shared mint) (w.thread cfg mint) =
      0 := by
  refine h.invariant (I := fun s => s.process.total (w.shared mint) (w.thread cfg mint) = 0)
    (w.total_start cfg mint store now) ?_
  intro s a s' hi hs
  rcases process_moves hs with he | ⟨b, hm⟩
  · rw [he]
    exact hi
  · exact (w.total_step cfg mint hm).trans hi

/-- In every run, at every moment: for each token and each counter the reports, the
window being taken and the counter add up to what was ever added; each report of thirty
minutes adds up the six windows that are its own; and whenever no quote check is under
way two quotes were sent for each route found or failed, and each found one was judged. -/
theorem statistics_exact (h : IsReportingRun cfg store now tr) :
    let s := lastState (Reporting.start cfg store now) tr
    (∀ mint ∈ cfg.tokenMints, ∀ c,
      (s.reporter.fiveMinutes.map (ReportFile.value mint c)).sum +
        s.reporter.inProgress.value cfg.tokenMints mint c + s.stats.value cfg.tokenMints mint c =
        s.process.shared.tokens mint c) ∧
    (s.reporter.thirtyMinutes.length = s.reporter.fiveMinutes.length / 6 ∧
      ∀ k file, s.reporter.thirtyMinutes[k]? = some file → ∀ mint c, file.value mint c =
        (((s.reporter.fiveMinutes.drop (6 * k)).take 6).map (ReportFile.value mint c)).sum) ∧
    ((∀ t ∈ s.process.threads, t.inQuoteCheck = false) → ∀ mint,
      s.process.shared.tokens mint .qSent =
        2 * (s.process.shared.tokens mint .routeOk + s.process.shared.tokens mint .routeFail) ∧
      s.process.shared.tokens mint .routeOk =
        s.process.shared.tokens mint .profitable + s.process.shared.tokens mint .notProfitable) := by
  intro s
  have hi : s.Inv cfg := h.inv
  refine ⟨?_, ⟨?_, hi.windows.thirty⟩, ?_⟩
  · intro mint hm c
    have hconserved := hi.conserved mint hm c
    have hvalue : s.unreported.value cfg.tokenMints mint c = _ :=
      Stats.value_add _ _ _ s.reporter.inProgress s.stats
    rw [hvalue, sumOver, ← Nat.add_assoc] at hconserved
    exact hconserved
  · have hcount := hi.windows.count
    have hlt := hi.windows.closed_lt
    omega
  · intro hq mint
    have hsent : CheckWeights.sentTwice.shared mint s.process.shared = 0 :=
      CheckWeights.shared_eq_zero _ cfg mint (h.total _ mint) hq
    have hjudged : CheckWeights.judged.shared mint s.process.shared = 0 :=
      CheckWeights.shared_eq_zero _ cfg mint (h.total _ mint) hq
    simp only [CheckWeights.shared, CheckWeights.sentTwice, CheckWeights.judged, TokenCounter.all,
      List.map_cons, List.map_nil, List.sum_cons, List.sum_nil] at hsent hjudged
    constructor <;> omega

def oneToken : Config := { sampleConfig with tokenMints := ["out"] }

/-- A check that finds no route, in the middle of which the reporter takes a window. -/
def failedCheck : List ReportingAction :=
  [.process (.check "out" 1 false), .process (.act 2 .go), .process (.act 2 .go), .tick "t"] ++
    List.replicate 6 .report ++ [.process (.act 2 (.quote none)), .process (.act 2 .go)]

def failedCheckRun : List (ReportingAction × Reporting) :=
  follow (Reporting.step oneToken) (Reporting.start oneToken .new 0) failedCheck

theorem statistics_exact_failedCheck :
    let s := lastState (Reporting.start oneToken .new 0) failedCheckRun
    s.process.shared.tokens "out" .qSent = 2 ∧
      s.process.shared.tokens "out" .qSent = 2 * (s.process.shared.tokens "out" .routeOk +
        s.process.shared.tokens "out" .routeFail) :=
  ⟨by decide, ((statistics_exact (allSteps_follow _ _ _)).2.2 (by decide) "out").1⟩

end Runs
end SolanaArbBot.Arbitrage
