import SolanaArbBot.Arbitrage.Scan
import SolanaArbBot.Arbitrage.Steps

/-! The scanner over the bot: one cycle after the other, it keeps a buffer of quote checks
going and carries one pair at a time through the tiers. -/
namespace SolanaArbBot.Arbitrage
open Lib TemplateCache

/-- What is left of the cycle, the threads of the checks in the buffer, and the thread of
the pair that is being handled. -/
structure Scanner where
  todo : List (UInt64 × String × Bool)
  buffer : List Nat
  handled : Option Nat

structure ScanState where
  bot : State
  scanner : Scanner

/-- The scanner starts a cycle, pulls a pair into the buffer, polls a check, goes on with the
pair it handles; or the workers, the tasks of the third tier and the clock go on. -/
inductive ScanAction where
  | cycle
  | pull (amount : UInt64) (mint : String) (onlyDirect : Bool)
  | poll (i : Nat) (o : Outcome)
  | handle (i : Nat) (o : Outcome)
  | other (i : Nat) (o : Outcome)
  | tick (elapsed : Nat)

/-- A check that is over leaves the buffer, and its pair is handled, if it has one. -/
def Scanner.settle (scanner : Scanner) (i : Nat) : Option Thread → Scanner
  | some ⟨[], .done⟩ => { scanner with buffer := scanner.buffer.erase i }
  | some ⟨[], .handle _⟩ => { scanner with buffer := scanner.buffer.erase i, handled := some i }
  | _ => scanner

/-- A pair is handled until it is dropped, queued, or left to a task of its own. -/
def Scanner.finish (scanner : Scanner) : Option Thread → Scanner
  | some ⟨[], .done⟩ | some ⟨[], .awaitSwapIxs _⟩ => { scanner with handled := none }
  | _ => scanner

section Step
variable (cfg : Config) (maxConcurrentQuotes : Nat) (allPairs : List (UInt64 × String × Bool))

def maxConcurrent : Nat := min (max maxConcurrentQuotes 1) (max allPairs.length 1)

def scanStep (s : ScanState) : ScanAction → Option ScanState
  | .cycle =>
    if s.scanner.todo = [] ∧ s.scanner.buffer = [] ∧ s.scanner.handled = none then
      some { s with scanner := ⟨allPairs, [], none⟩ }
    else none
  | .pull amount mint onlyDirect =>
    if s.scanner.todo.head? = some (amount, mint, onlyDirect) ∧ s.scanner.handled = none ∧
        s.scanner.buffer.length < maxConcurrent maxConcurrentQuotes allPairs then
      (step cfg s.bot (.check mint amount onlyDirect)).map fun bot =>
        ⟨bot, ⟨s.scanner.todo.tail, s.scanner.buffer ++ [s.bot.threads.length], none⟩⟩
    else none
  | .poll i o =>
    if i ∈ s.scanner.buffer ∧ s.scanner.handled = none then
      (step cfg s.bot (.act i o)).map fun bot => ⟨bot, s.scanner.settle i bot.threads[i]?⟩
    else none
  | .handle i o =>
    if s.scanner.handled = some i then
      (step cfg s.bot (.act i o)).map fun bot => ⟨bot, s.scanner.finish bot.threads[i]?⟩
    else none
  | .other i o =>
    if i ∉ s.scanner.buffer ∧ s.scanner.handled ≠ some i then
      (step cfg s.bot (.act i o)).map fun bot => { s with bot := bot }
    else none
  | .tick elapsed => (step cfg s.bot (.tick elapsed)).map fun bot => { s with bot := bot }

def scanStart (store : StoreInner) (now : Int) : ScanState := ⟨start cfg store now, ⟨[], [], none⟩⟩

def IsScan (s : ScanState) (tr : List (ScanAction × ScanState)) : Prop :=
  AllSteps (fun s a s' => scanStep cfg maxConcurrentQuotes allPairs s a = some s') s tr

end Step

def ScanAction.act : ScanAction → Option Action
  | .cycle => none
  | .pull amount mint onlyDirect => some (.check mint amount onlyDirect)
  | .poll i o | .handle i o | .other i o => some (.act i o)
  | .tick elapsed => some (.tick elapsed)

def botSteps (tr : List (ScanAction × ScanState)) : List (Action × State) :=
  project ScanState.bot ScanAction.act tr

def ScanAction.pulled : ScanAction → Option (UInt64 × String × Bool)
  | .pull amount mint onlyDirect => some (amount, mint, onlyDirect)
  | _ => none

/-- Within quote_check. -/
def Pc.quoting : Pc → Bool
  | .awaitQuote1 _ _ _ | .awaitQuote2 _ _ _ _ | .passed _ => true
  | _ => false

/-- In the hands of the scanner, between the quotes and the queue. -/
def Pc.inTiers : Pc → Bool
  | .handle _ | .look _ _ _ | .promote _ _ _ | .checkHops _ | .hopIndex _ | .fallback _ => true
  | _ => false

section Moves
variable {cfg : Config} {maxConcurrentQuotes : Nat} {allPairs : List (UInt64 × String × Bool)}
  {s s' : ScanState} {a : ScanAction}

inductive ScanMoves (cfg : Config) (maxConcurrentQuotes : Nat) (allPairs : List (UInt64 × String × Bool))
    (s : ScanState) : ScanAction → ScanState → Prop where
  | cycle (htodo : s.scanner.todo = []) (hbuffer : s.scanner.buffer = [])
    (hhandled : s.scanner.handled = none) :
    ScanMoves cfg maxConcurrentQuotes allPairs s .cycle { s with scanner := ⟨allPairs, [], none⟩ }
  | pull {amount mint onlyDirect rest} (htodo : s.scanner.todo = (amount, mint, onlyDirect) :: rest)
    (hhandled : s.scanner.handled = none)
    (hroom : s.scanner.buffer.length < maxConcurrent maxConcurrentQuotes allPairs) :
    ScanMoves cfg maxConcurrentQuotes allPairs s (.pull amount mint onlyDirect)
      ⟨s.bot.spawn (quoteCheck cfg mint amount onlyDirect),
        ⟨rest, s.scanner.buffer ++ [s.bot.threads.length], none⟩⟩
  | poll {i o bot} (hi : i ∈ s.scanner.buffer) (hhandled : s.scanner.handled = none)
    (hs : step cfg s.bot (.act i o) = some bot) :
    ScanMoves cfg maxConcurrentQuotes allPairs s (.poll i o) ⟨bot, s.scanner.settle i bot.threads[i]?⟩
  | handle {i o bot} (hhandled : s.scanner.handled = some i) (hs : step cfg s.bot (.act i o) = some bot) :
    ScanMoves cfg maxConcurrentQuotes allPairs s (.handle i o) ⟨bot, s.scanner.finish bot.threads[i]?⟩
  | other {i o bot} (hi : i ∉ s.scanner.buffer) (hhandled : s.scanner.handled ≠ some i)
    (hs : step cfg s.bot (.act i o) = some bot) :
    ScanMoves cfg maxConcurrentQuotes allPairs s (.other i o) { s with bot := bot }
  | tick {elapsed} : ScanMoves cfg maxConcurrentQuotes allPairs s (.tick elapsed)
      { s with bot := { s.bot with shared := { s.bot.shared with now := s.bot.shared.now + elapsed } } }

theorem scanStep_cases (h : scanStep cfg maxConcurrentQuotes allPairs s a = some s') :
    ScanMoves cfg maxConcurrentQuotes allPairs s a s' := by
  cases a with
  | cycle =>
    simp only [scanStep] at h
    split at h
    · next hc =>
      cases h
      exact .cycle hc.1 hc.2.1 hc.2.2
    · cases h
  | pull amount mint onlyDirect =>
    simp only [scanStep] at h
    split at h
    · next hc =>
      obtain ⟨htodo, hhandled, hroom⟩ := hc
      obtain ⟨rest, hrest⟩ := List.head?_eq_some_iff.mp htodo
      cases h
      rw [hrest, List.tail_cons]
      exact .pull hrest hhandled hroom
    · cases h
  | poll i o =>
    simp only [scanStep] at h
    split at h
    · next hc =>
      obtain ⟨bot, hs, rfl⟩ := Option.map_eq_some_iff.mp h
      exact .poll hc.1 hc.2 hs
    · cases h
  | handle i o =>
    simp only [scanStep] at h
    split at h
    · next hc =>
      obtain ⟨bot, hs, rfl⟩ := Option.map_eq_some_iff.mp h
      exact .handle hc hs
    · cases h
  | other i o =>
    simp only [scanStep] at h
    split at h
    · next hc =>
      obtain ⟨bot, hs, rfl⟩ := Option.map_eq_some_iff.mp h
      exact .other hc.1 hc.2 hs
    · cases h
  | tick elapsed =>
    cases h
    exact .tick

/-- A check is in the buffer while it asks for quotes, and the pair between the quotes and
the queue is the one being handled. -/
structure Paced (maxConcurrentQuotes : Nat) (allPairs : List (UInt64 × String × Bool)) (s : ScanState) :
    Prop where
  room : s.scanner.buffer.length ≤ maxConcurrent maxConcurrentQuotes allPairs
  quoting : ∀ i t, s.bot.threads[i]? = some t → t.pc.quoting → i ∈ s.scanner.buffer
  inTiers : ∀ i t, s.bot.threads[i]? = some t → t.pc.inTiers → s.scanner.handled = some i
  handled : ∀ i t, s.scanner.handled = some i → s.bot.threads[i]? = some t → t.pc.quoting = false

/-- Only a check asks for quotes, and only it hands over a pair. -/
theorem Advance.pacing {p p' : Shared} {pc pc' : Pc} {es : List Effect} (h : Advance cfg p pc p' es pc') :
    (pc'.quoting → pc.quoting) ∧
      (pc'.inTiers → pc.inTiers ∨ pc.quoting ∧ es = [] ∧ ∃ pair, pc' = .handle pair) := by
  constructor
  · intro hq
    cases h with
    | quote1 | profitable => rfl
    | lookMissed | promoteMissed => next tier _ _ => cases tier <;> cases hq
    | _ => cases hq
  · intro ht
    cases h with
    | passed => exact Or.inr ⟨rfl, rfl, _, rfl⟩
    | _ => first | exact Or.inl rfl | cases ht

/-- A step of one thread keeps the pace when the scanner keeps up with that thread. -/
private theorem Paced.change {bot : State} {scanner : Scanner} {i : Nat} {t : Thread}
    (h : Paced maxConcurrentQuotes allPairs s) (ht : bot.threads[i]? = some t)
    (hkeep : ∀ j, i ≠ j → bot.threads[j]? = s.bot.threads[j]?)
    (hroom : scanner.buffer.length ≤ s.scanner.buffer.length)
    (hbuffer : ∀ j, i ≠ j → j ∈ s.scanner.buffer → j ∈ scanner.buffer)
    (hhandled : ∀ j, i ≠ j → (scanner.handled = some j ↔ s.scanner.handled = some j))
    (hquoting : t.pc.quoting → i ∈ scanner.buffer) (htiers : t.pc.inTiers → scanner.handled = some i)
    (hout : scanner.handled = some i → t.pc.quoting = false) :
    Paced maxConcurrentQuotes allPairs ⟨bot, scanner⟩ := by
  refine ⟨hroom.trans h.room, ?_, ?_, ?_⟩
  · intro j u hu hq
    rcases eq_or_ne i j with rfl | hj
    · exact hquoting (Option.some.inj (ht.symm.trans hu) ▸ hq)
    · exact hbuffer j hj (h.quoting j u (hkeep j hj ▸ hu) hq)
  · intro j u hu hin
    rcases eq_or_ne i j with rfl | hj
    · exact htiers (Option.some.inj (ht.symm.trans hu) ▸ hin)
    · exact (hhandled j hj).mpr (h.inTiers j u (hkeep j hj ▸ hu) hin)
  · intro j u hj hu
    rcases eq_or_ne i j with rfl | hij
    · exact Option.some.inj (ht.symm.trans hu) ▸ hout hj
    · exact h.handled j u ((hhandled j hij).mp hj) (hkeep j hij ▸ hu)

private theorem act_pacing {p p' : State} {i : Nat} {o : Outcome}
    (h : Arbitrage.step cfg p (.act i o) = some p') :
    ∃ t t', p.threads[i]? = some t ∧ p'.threads[i]? = some t' ∧
      (∀ j, i ≠ j → p'.threads[j]? = p.threads[j]?) ∧ (t'.pc.quoting → t.pc.quoting) ∧
      (t'.pc.inTiers → t.pc.inTiers ∨ t.pc.quoting ∧ ∃ pair, t' = ⟨[], .handle pair⟩) := by
  rcases act_cases h with ⟨e, es, pc, ht, rfl⟩ | ⟨pc, s', es, pc', ht, ha, rfl⟩
  · exact ⟨_, _, ht, Pool.getElem?_update_self ht, fun _ hj => Pool.getElem?_update_ne hj, id, Or.inl⟩
  · obtain ⟨hquoting, htiers⟩ := (advance_cases ha).pacing
    refine ⟨_, _, ht, Pool.getElem?_update_self ht, fun _ hj => Pool.getElem?_update_ne hj, hquoting, ?_⟩
    intro hin
    rcases htiers hin with hold | ⟨hold, rfl, pair, rfl⟩
    · exact Or.inl hold
    · exact Or.inr ⟨hold, pair, rfl⟩

private theorem settle_cases (scanner : Scanner) (i : Nat) (t : Thread) :
    (t.pc = .done ∧ scanner.settle i (some t) = { scanner with buffer := scanner.buffer.erase i }) ∨
      (∃ pair, t = ⟨[], .handle pair⟩ ∧
        scanner.settle i (some t) = { scanner with buffer := scanner.buffer.erase i, handled := some i }) ∨
      (∀ pair, t ≠ ⟨[], .handle pair⟩) ∧ scanner.settle i (some t) = scanner := by
  unfold Scanner.settle
  split
  · next he =>
    cases he
    exact Or.inl ⟨rfl, rfl⟩
  · next pair he =>
    cases he
    exact Or.inr (Or.inl ⟨pair, rfl, rfl⟩)
  · next hne => exact Or.inr (Or.inr ⟨fun pair he => hne pair (congrArg some he), rfl⟩)

private theorem finish_cases (scanner : Scanner) (t : Thread) :
    (t.pc.inTiers = false ∧ scanner.finish (some t) = { scanner with handled := none }) ∨
      scanner.finish (some t) = scanner := by
  unfold Scanner.finish
  split
  · next he =>
    cases he
    exact Or.inl ⟨rfl, rfl⟩
  · next he =>
    cases he
    exact Or.inl ⟨rfl, rfl⟩
  · exact Or.inr rfl

private theorem Paced.pull {amount : UInt64} {mint : String} {onlyDirect : Bool}
    {rest : List (UInt64 × String × Bool)} (h : Paced maxConcurrentQuotes allPairs s)
    (hhandled : s.scanner.handled = none)
    (hroom : s.scanner.buffer.length < maxConcurrent maxConcurrentQuotes allPairs) :
    Paced maxConcurrentQuotes allPairs
      ⟨s.bot.spawn (quoteCheck cfg mint amount onlyDirect),
        ⟨rest, s.scanner.buffer ++ [s.bot.threads.length], none⟩⟩ where
  room := by
    rw [List.length_append, List.length_singleton]
    exact hroom
  quoting j u hu hq := by
    rcases Pool.getElem?_spawn hu with ⟨rfl, _⟩ | hold
    · exact List.mem_append_right _ List.mem_cons_self
    · exact List.mem_append_left _ (h.quoting j u hold hq)
  inTiers j u hu hin := by
    rcases Pool.getElem?_spawn hu with ⟨_, rfl⟩ | hold
    · cases hin
    · exact hhandled ▸ h.inTiers j u hold hin
  handled _ _ he := by cases he

private theorem Paced.poll {bot : State} {i : Nat} {o : Outcome} (h : Paced maxConcurrentQuotes allPairs s)
    (hi : i ∈ s.scanner.buffer) (hhandled : s.scanner.handled = none)
    (hs : Arbitrage.step cfg s.bot (.act i o) = some bot) :
    Paced maxConcurrentQuotes allPairs ⟨bot, s.scanner.settle i bot.threads[i]?⟩ := by
  obtain ⟨t, t', ht, ht', hkeep, _, htiers⟩ := act_pacing hs
  have herase (j : Nat) (hj : i ≠ j) (hm : j ∈ s.scanner.buffer) : j ∈ s.scanner.buffer.erase i :=
    (List.mem_erase_of_ne hj.symm).mpr hm
  rw [ht']
  rcases settle_cases s.scanner i t' with ⟨hdone, he⟩ | ⟨pair, rfl, he⟩ | ⟨hne, he⟩
  · rw [he]
    refine h.change ht' hkeep List.length_erase_le herase (fun _ _ => Iff.rfl) ?_ ?_ ?_
    · intro hq
      rw [hdone] at hq
      cases hq
    · intro hin
      rw [hdone] at hin
      cases hin
    · intro hc
      cases hhandled.symm.trans hc
  · rw [he]
    refine h.change ht' hkeep List.length_erase_le herase ?_ ?_ (fun _ => rfl) (fun _ => rfl)
    · intro j hj
      rw [hhandled]
      exact ⟨fun hc => absurd (Option.some.inj hc) hj, (fun hc => by cases hc)⟩
    · intro hq
      cases hq
  · rw [he]
    refine h.change ht' hkeep le_rfl (fun _ _ hm => hm) (fun _ _ => Iff.rfl) (fun _ => hi) ?_ ?_
    · intro hin
      rcases htiers hin with hold | ⟨_, pair, hpair⟩
      · exact h.inTiers i t ht hold
      · exact absurd hpair (hne pair)
    · intro hc
      cases hhandled.symm.trans hc

private theorem Paced.handle {bot : State} {i : Nat} {o : Outcome} (h : Paced maxConcurrentQuotes allPairs s)
    (hhandled : s.scanner.handled = some i) (hs : Arbitrage.step cfg s.bot (.act i o) = some bot) :
    Paced maxConcurrentQuotes allPairs ⟨bot, s.scanner.finish bot.threads[i]?⟩ := by
  obtain ⟨t, t', ht, ht', hkeep, hstays, _⟩ := act_pacing hs
  have hnot : t'.pc.quoting = false := by
    rw [← Bool.not_eq_true]
    intro hq
    rw [h.handled i t hhandled ht] at hstays
    cases hstays hq
  have hquoting (hq : t'.pc.quoting) : i ∈ s.scanner.buffer := by
    rw [hnot] at hq
    cases hq
  rw [ht']
  rcases finish_cases s.scanner t' with ⟨hout, he⟩ | he
  · rw [he]
    refine h.change ht' hkeep le_rfl (fun _ _ hm => hm) ?_ hquoting ?_ (fun _ => hnot)
    · intro j hj
      rw [hhandled]
      exact ⟨(fun hc => by cases hc), fun hc => absurd (Option.some.inj hc) hj⟩
    · intro hin
      rw [hout] at hin
      cases hin
  · rw [he]
    exact h.change ht' hkeep le_rfl (fun _ _ hm => hm) (fun _ _ => Iff.rfl) hquoting (fun _ => hhandled)
      (fun _ => hnot)

private theorem Paced.other {bot : State} {i : Nat} {o : Outcome} (h : Paced maxConcurrentQuotes allPairs s)
    (hi : i ∉ s.scanner.buffer) (hhandled : s.scanner.handled ≠ some i)
    (hs : Arbitrage.step cfg s.bot (.act i o) = some bot) :
    Paced maxConcurrentQuotes allPairs { s with bot := bot } := by
  obtain ⟨t, t', ht, ht', hkeep, hstays, htiers⟩ := act_pacing hs
  have hnot : ¬ t.pc.quoting := fun hq => hi (h.quoting i t ht hq)
  refine h.change ht' hkeep le_rfl (fun _ _ hm => hm) (fun _ _ => Iff.rfl) ?_ ?_ ?_
  · intro hq
    exact absurd (hstays hq) hnot
  · intro hin
    rcases htiers hin with hold | ⟨hq, _⟩
    · exact h.inTiers i t ht hold
    · exact absurd hq hnot
  · intro hc
    exact absurd hc hhandled

/-- Every step of the scan keeps the pace. -/
theorem Paced.step (h : Paced maxConcurrentQuotes allPairs s)
    (hs : scanStep cfg maxConcurrentQuotes allPairs s a = some s') : Paced maxConcurrentQuotes allPairs s' := by
  cases scanStep_cases hs with
  | cycle _ hbuffer hhandled =>
    refine ⟨Nat.zero_le _, ?_, ?_, fun j u hj => by cases hj⟩
    · rw [← hbuffer]
      exact h.quoting
    · rw [← hhandled]
      exact h.inTiers
  | pull _ hhandled hroom => exact h.pull hhandled hroom
  | poll hi hhandled hact => exact h.poll hi hhandled hact
  | handle hhandled hact => exact h.handle hhandled hact
  | other hi hhandled hact => exact h.other hi hhandled hact
  | tick => exact ⟨h.room, h.quoting, h.inTiers, h.handled⟩

/-- Only a new cycle and a pull change what is left of the cycle. -/
theorem scanStep_todo (hs : scanStep cfg maxConcurrentQuotes allPairs s a = some s') :
    (a = .cycle ∧ s.scanner.todo = [] ∧ s'.scanner.todo = allPairs) ∨
      s.scanner.todo = a.pulled.toList ++ s'.scanner.todo := by
  cases scanStep_cases hs with
  | cycle htodo => exact Or.inl ⟨rfl, htodo, rfl⟩
  | pull htodo => exact Or.inr htodo
  | poll =>
    right
    unfold Scanner.settle
    split <;> rfl
  | handle =>
    right
    unfold Scanner.finish
    split <;> rfl
  | other => exact Or.inr rfl
  | tick => exact Or.inr rfl

end Moves

section Runs
variable {cfg : Config} {maxConcurrentQuotes : Nat} {allPairs : List (UInt64 × String × Bool)}
  {store : StoreInner} {now : Int} {tr : List (ScanAction × ScanState)}

/-- What was pulled, and what is left of the cycle, are whole cycles. -/
theorem pulled_cycles (h : IsScan cfg maxConcurrentQuotes allPairs (scanStart cfg store now) tr) :
    ∃ k, (labels tr).filterMap ScanAction.pulled ++ (lastState (scanStart cfg store now) tr).scanner.todo =
      (List.replicate k allPairs).flatten := by
  refine AllSteps.history (P := fun tr s => ∃ k, (labels tr).filterMap ScanAction.pulled ++ s.scanner.todo =
    (List.replicate k allPairs).flatten) h ⟨0, rfl⟩ ?_
  rintro tr a s' ⟨k, hk⟩ hs
  rw [labels_append, List.filterMap_append]
  rcases scanStep_todo hs with ⟨rfl, htodo, hnew⟩ | htodo
  · refine ⟨k + 1, ?_⟩
    rw [htodo, List.append_nil] at hk
    rw [hk, hnew, List.replicate_succ', List.flatten_append]
    simp [ScanAction.pulled]
  · refine ⟨k, ?_⟩
    rw [← hk, htodo, List.append_assoc]
    cases hp : a.pulled <;> simp [hp]

/-- The bot's part of a scan is a run of its own. -/
theorem botSteps_isRun (h : IsScan cfg maxConcurrentQuotes allPairs (scanStart cfg store now) tr) :
    IsRun cfg (start cfg store now) (botSteps tr) ∧
      lastState (start cfg store now) (botSteps tr) = (lastState (scanStart cfg store now) tr).bot := by
  refine AllSteps.project ScanState.bot ScanAction.act h ?_ ?_
  · intro s a s' b hs hb
    cases scanStep_cases hs with
    | cycle => cases hb
    | pull | tick => cases hb; rfl
    | poll _ _ hact | handle _ hact | other _ _ hact => cases hb; exact hact
  · intro s a s' hs hb
    cases scanStep_cases hs with
    | cycle => rfl
    | _ => cases hb

/-- In every state of every scan over an exact range, what was pulled is cycle after cycle of
each amount with each token, no more checks than the buffer holds wait for quotes, and at most
one pair is between the quotes and the queue. The bot underneath takes a run of its own. -/
theorem scan_paced {minLamports maxLamports stepLamports : UInt64}
    (hexact : ScanExact cfg.tokenMints minLamports maxLamports stepLamports)
    (hpairs : AllPairs cfg.tokenMints minLamports maxLamports stepLamports allPairs)
    (h : IsScan cfg maxConcurrentQuotes allPairs (scanStart cfg store now) tr) :
    let s := lastState (scanStart cfg store now) tr
    (∃ amounts k, ScanAmounts minLamports maxLamports stepLamports amounts ∧
      (labels tr).filterMap ScanAction.pulled ++ s.scanner.todo =
        (List.replicate k (amounts.flatMap (pairsAt cfg.tokenMints))).flatten) ∧
    s.bot.threads.countP (fun t => t.pc.quoting) ≤ maxConcurrent maxConcurrentQuotes allPairs ∧
    s.bot.threads.countP (fun t => t.pc.inTiers) ≤ 1 ∧
    IsRun cfg (start cfg store now) (botSteps tr) ∧ lastState (start cfg store now) (botSteps tr) = s.bot := by
  have hidle (f : Pc → Bool) (hf : f .idle = false) (i : Nat) (t : Thread)
      (ht : (start cfg store now).threads[i]? = some t) : ¬ f t.pc := by
    rw [(List.mem_replicate.mp (List.mem_of_getElem? ht)).2, hf]
    exact Bool.false_ne_true
  have hpaced : Paced maxConcurrentQuotes allPairs (lastState (scanStart cfg store now) tr) :=
    AllSteps.invariant h
      ⟨Nat.zero_le _, fun i t ht hq => absurd hq (hidle Pc.quoting rfl i t ht),
        fun i t ht hin => absurd hin (hidle Pc.inTiers rfl i t ht), fun i t hi => by cases hi⟩
      fun _ _ _ hp hs => hp.step hs
  obtain ⟨amounts, hamounts, hlisted⟩ := hexact
  obtain ⟨k, hk⟩ := pulled_cycles h
  rw [hpairs.unique hlisted] at hk
  refine ⟨⟨amounts, k, hamounts, hk⟩, ?_, ?_, botSteps_isRun h⟩
  · exact (Pool.countP_le_length hpaced.quoting).trans hpaced.room
  · exact (Pool.countP_le_length fun i t ht hin =>
      Option.mem_toList.mpr (hpaced.inTiers i t ht hin)).trans Option.length_toList_le

end Runs

end SolanaArbBot.Arbitrage
