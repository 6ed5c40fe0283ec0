import SolanaArbBot.Arbitrage.Steps

/-! The statistics per token: the counters that quote checks add to, and the reporter
that now and then takes them, one counter at a time, and resets them to zero.
Counters and their sums are totals, of which the words of 64 bits are the residues. -/
namespace SolanaArbBot.Arbitrage
open Lib

def TokenCounter.all : List TokenCounter :=
  [.qSent, .routeOk, .routeFail, .profitable, .notProfitable]

/-- A value for each counter of each token, by the token's place in the list. -/
abbrev Stats := Nat → TokenCounter → Nat

def Stats.set (stats : Stats) (i : Nat) (c : TokenCounter) (v : Nat) : Stats := fun j d =>
  if j = i ∧ d = c then v else stats j d

/-- The place of a mint's counters. Of a mint listed twice the index keeps the last. -/
def statIndex (mints : List String) (mint : String) : Option Nat :=
  ((HashMap.collect mints.zipIdx).get mint).filter fun i => decide (i < mints.length)

structure TokenSnapshot where
  mint : String
  counts : TokenCounter → Nat

def snapshots (mints : List String) (stats : Stats) : List TokenSnapshot :=
  mints.zipIdx.map fun (mint, i) => { mint := mint, counts := stats i }

structure ReportFile where
  updatedAt : String
  windowMinutes : Nat
  total : TokenCounter → Nat
  tokens : List TokenSnapshot

def reportedBefore (a b : TokenSnapshot) : Bool :=
  decide (b.counts .profitable < a.counts .profitable) ||
    (decide (a.counts .profitable = b.counts .profitable) &&
      decide (b.counts .routeOk ≤ a.counts .routeOk))

def writeJson (snapshots : List TokenSnapshot) (timestamp : String) (windowMin : Nat) : ReportFile :=
  let sorted := snapshots.mergeSort reportedBefore
  { updatedAt := timestamp
    windowMinutes := windowMin
    total := fun c => (sorted.map fun r => r.counts c).sum
    tokens := sorted }

/-- Between two reports the reporter waits; for a report it takes one counter after another. -/
inductive ReporterPc where
  | waiting
  | swapping (ts : String) (snap : Stats) (todo : List (Nat × TokenCounter))

/-- The reporter. The last two fields are kept for the record: the reports of five
and of thirty minutes, each of which overwrites the one before. -/
structure Reporter where
  pc : ReporterPc
  acc : Stats
  windows : Nat
  fiveMinutes : List ReportFile
  thirtyMinutes : List ReportFile

def swaps (tokens : Nat) : List (Nat × TokenCounter) :=
  (List.range tokens).flatMap fun i => TokenCounter.all.map fun c => (i, c)

/-- The end of a window. The sixth one also ends the thirty minutes. -/
def Reporter.closeWindow (mints : List String) (r : Reporter) (ts : String) (snap : Stats) :
    Reporter :=
  let acc : Stats := fun i c => r.acc i c + snap i c
  let fiveMinutes := r.fiveMinutes ++ [writeJson (snapshots mints snap) ts 5]
  if r.windows ≥ 6 then
    { pc := .waiting
      acc := fun _ _ => 0
      windows := 0
      fiveMinutes := fiveMinutes
      thirtyMinutes := r.thirtyMinutes ++ [writeJson (snapshots mints acc) ts 30] }
  else { r with pc := .waiting, acc := acc, fiveMinutes := fiveMinutes }

/-- The process with the counters of its tokens and their reporter. -/
structure Reporting where
  process : State
  stats : Stats
  reporter : Reporter

inductive ReportingAction where
  | process (a : Action)
  | tick (timestamp : String)
  | report

def performed (p : State) : Action → Option Effect
  | .act i _ => (p.threads[i]?).bind fun t => t.todo.head?
  | _ => none

def Stats.perform (mints : List String) (stats : Stats) : Option Effect → Stats
  | some (.countToken mint c n) =>
    match statIndex mints mint with
    | some i => stats.set i c (stats i c + n)
    | none => stats
  | _ => stats

/-- The process takes a step, or the reporter does: its timer goes off, it swaps the
next counter with zero, or it writes what it took. -/
def Reporting.step (cfg : Config) (s : Reporting) : ReportingAction → Option Reporting
  | .process a =>
    (Arbitrage.step cfg s.process a).map fun p =>
      { s with process := p, stats := s.stats.perform cfg.tokenMints (performed s.process a) }
  | .tick timestamp =>
    match s.reporter.pc with
    | .waiting =>
      some { s with
        reporter := { s.reporter with
          pc := .swapping timestamp (fun _ _ => 0) (swaps cfg.tokenMints.length)
          windows := s.reporter.windows + 1 } }
    | .swapping _ _ _ => none
  | .report =>
    match s.reporter.pc with
    | .waiting => none
    | .swapping ts snap ((i, c) :: todo) =>
      some { s with
        stats := s.stats.set i c 0
        reporter := { s.reporter with pc := .swapping ts (snap.set i c (s.stats i c)) todo } }
    | .swapping ts snap [] =>
      some { s with reporter := s.reporter.closeWindow cfg.tokenMints ts snap }

def Reporting.start (cfg : Config) (store : TemplateCache.StoreInner) (now : Int) : Reporting where
  process := Arbitrage.start cfg store now
  stats := fun _ _ => 0
  reporter := {
    pc := .waiting
    acc := fun _ _ => 0
    windows := 0
    fiveMinutes := []
    thirtyMinutes := [] }

def IsReportingRun (cfg : Config) (store : TemplateCache.StoreInner) (now : Int)
    (tr : List (ReportingAction × Reporting)) : Prop :=
  AllSteps (fun s a s' => Reporting.step cfg s a = some s') (Reporting.start cfg store now) tr

/-! The place of a mint -/

theorem getElem?_of_statIndex {mints : List String} {mint : String} {i : Nat}
    (h : statIndex mints mint = some i) : mints[i]? = some mint :=
  List.mem_zipIdx_iff_getElem?.mp (HashMap.mem_of_get_collect (Option.filter_eq_some_iff.mp h).1)

theorem exists_statIndex {mints : List String} {mint : String} (h : mint ∈ mints) :
    ∃ i, statIndex mints mint = some i := by
  have hkey : mint ∈ mints.zipIdx.map Prod.fst := by
    rw [List.zipIdx_map_fst]
    exact h
  obtain ⟨i, hget⟩ := HashMap.exists_get_collect hkey
  have hi := List.mem_zipIdx_iff_getElem?.mp (HashMap.mem_of_get_collect hget)
  obtain ⟨hlt, _⟩ := List.getElem?_eq_some_iff.mp hi
  exact ⟨i, by rw [statIndex, hget, Option.filter_some, if_pos (decide_eq_true hlt)]⟩

def Stats.word (stats : Stats) (i : Nat) (c : TokenCounter) : UInt64 := UInt64.ofNat (stats i c)

/-- An addition to a total adds to its word, and a swap with zero zeroes it. -/
theorem Stats.word_set (stats : Stats) (i j : Nat) (c d : TokenCounter) (n : Nat) :
    (stats.set i c (stats i c + n)).word j d =
      (if j = i ∧ d = c then stats.word j d + UInt64.ofNat n else stats.word j d) ∧
    (stats.set i c 0).word j d = if j = i ∧ d = c then 0 else stats.word j d := by
  simp only [word, set]
  constructor
  · split
    · next h => rw [h.1, h.2, UInt64.ofNat_add]
    · rfl
  · split <;> rfl

/-! Values of a mint, over all rows that have it -/

def valueIn (mint : String) (c : TokenCounter) (rows : List TokenSnapshot) : Nat :=
  (rows.map fun r => if r.mint = mint then r.counts c else 0).sum

def ReportFile.value (mint : String) (c : TokenCounter) (file : ReportFile) : Nat :=
  valueIn mint c file.tokens

def Stats.value (mints : List String) (mint : String) (c : TokenCounter) (stats : Stats) : Nat :=
  valueIn mint c (snapshots mints stats)

section Values
variable (mints : List String) (mint : String) (c : TokenCounter)

@[simp] theorem value_writeJson (rows : List TokenSnapshot) (ts : String) (windowMin : Nat) :
    (writeJson rows ts windowMin).value mint c = valueIn mint c rows :=
  ((List.mergeSort_perm rows reportedBefore).map _).sum_eq

theorem Stats.value_eq (stats : Stats) :
    stats.value mints mint c =
      (mints.zipIdx.map fun p => if p.1 = mint then stats p.2 c else 0).sum := by
  rw [value, valueIn, snapshots, List.map_map]
  rfl

@[simp] theorem Stats.value_zero : Stats.value mints mint c (fun _ _ => 0) = 0 := by
  simp [Stats.value_eq]

theorem Stats.value_add (stats stats' : Stats) :
    Stats.value mints mint c (fun i d => stats i d + stats' i d) =
      stats.value mints mint c + stats'.value mints mint c := by
  rw [value_eq, value_eq, value_eq, ← List.sum_map_add]
  congr 1
  apply List.map_congr_left
  intro p _
  split <;> rfl

private theorem sum_single_row (i n k : Nat) :
    ((mints.zipIdx k).map fun p => if p.1 = mint then (if p.2 = i then n else 0) else 0).sum =
      if k ≤ i ∧ mints[i - k]? = some mint then n else 0 := by
  induction mints generalizing k with
  | nil => simp
  | cons m mints ih =>
    rw [List.zipIdx_cons, List.map_cons, List.sum_cons, ih]
    rcases Nat.lt_trichotomy i k with hlt | rfl | hlt
    · have h1 : ¬ k ≤ i := by omega
      have h2 : ¬ k + 1 ≤ i := by omega
      simp [h1, h2, Nat.ne_of_gt hlt]
    · simp
    · have h1 : k ≤ i := by omega
      have h2 : k + 1 ≤ i := by omega
      have hpos : i - k = (i - (k + 1)) + 1 := by omega
      rw [hpos, List.getElem?_cons_succ]
      simp [h1, h2, Nat.ne_of_lt hlt]

/-- Adding to one counter adds to the value of the mint of its row. -/
theorem Stats.value_set (stats : Stats) (i : Nat) (c' : TokenCounter) (n : Nat) :
    (stats.set i c' (stats i c' + n)).value mints mint c =
      stats.value mints mint c + if mints[i]? = some mint ∧ c = c' then n else 0 := by
  have hadd : stats.set i c' (stats i c' + n) =
      fun j d => stats j d + if j = i ∧ d = c' then n else 0 := by
    funext j d
    rw [set]
    split
    · next h => rw [h.1, h.2]
    · rfl
  rw [hadd, value_add, value_eq mints mint c (fun j d => if j = i ∧ d = c' then n else 0)]
  congr 1
  by_cases hc : c = c'
  · have hrow := sum_single_row mints mint i n 0
    simp only [Nat.zero_le, true_and, Nat.sub_zero] at hrow
    simpa [hc] using hrow
  · simp [hc]

end Values
end SolanaArbBot.Arbitrage
