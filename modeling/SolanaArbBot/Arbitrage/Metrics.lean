import Mathlib.Data.Finmap
import Mathlib.Data.List.Sort

/-! The counters of the funnel, as totals since the start of the process. Each is
held in a word of 64 bits, whose additions wrap: the total modulo 2 ^ 64. -/
namespace SolanaArbBot.Arbitrage

/-- The counters of Metrics; the depth gauge is kept apart, because it goes down too. -/
inductive Counter where
  | metisReqSent
  | metisRespTotal
  | metisRespOk
  | swapIxOk
  | ixFromRam
  | ixFromMetis
  | routeTemplateHit
  | hopTemplateAllHit
  | hopTemplateMissing
  | swapIxFailed
  | swapIxTimeout
  | swapIxHttp
  | swapIxNetwork
  | swapIxParse
  | droppedMultiHop
  | droppedMergeFail
  | droppedNoServe
  | droppedSamePool
  | queueIn
  | droppedStale
  | txBuildFailed
  | txTooLarge
  | droppedAccountLocks
  | calcDone
  | rateRequeued
  | jitoSendFailed
  | jitoSent
  | txDropped
  | metisFetchMsTotal
  | metisFetchSamples
  deriving DecidableEq

abbrev Metrics := Counter → Nat

def Metrics.fetchAdd (m : Metrics) (c : Counter) (n : Nat) : Metrics := fun c' =>
  if c' = c then m c' + n else m c'

def Metrics.word (m : Metrics) (c : Counter) : UInt64 := UInt64.ofNat (m c)

inductive TokenCounter where
  | qSent
  | routeOk
  | routeFail
  | profitable
  | notProfitable
  deriving DecidableEq

abbrev TokenMetrics := String → TokenCounter → Nat

def TokenMetrics.fetchAdd (m : TokenMetrics) (mint : String) (c : TokenCounter) (n : Nat) :
    TokenMetrics := fun mint' c' => if mint' = mint ∧ c' = c then m mint' c' + n else m mint' c'

def TokenMetrics.word (m : TokenMetrics) (mint : String) (c : TokenCounter) : UInt64 :=
  UInt64.ofNat (m mint c)

/-- Adding to a total adds to its word. -/
theorem Metrics.word_fetchAdd (m : Metrics) (c c' : Counter) (n : Nat) :
    (m.fetchAdd c n).word c' = if c' = c then m.word c' + UInt64.ofNat n else m.word c' := by
  rw [word, fetchAdd]
  split
  · exact UInt64.ofNat_add _ _
  · rfl

theorem TokenMetrics.word_fetchAdd (m : TokenMetrics) (mint mint' : String) (c c' : TokenCounter) (n : Nat) :
    (m.fetchAdd mint c n).word mint' c' =
      if mint' = mint ∧ c' = c then m.word mint' c' + UInt64.ofNat n else m.word mint' c' := by
  rw [word, fetchAdd]
  split
  · exact UInt64.ofNat_add _ _
  · rfl

/-- While fewer than 2 ^ 64 events were counted the word is the total. -/
theorem Metrics.toNat_word {m : Metrics} {c : Counter} (h : m c < 2 ^ 64) : (m.word c).toNat = m c := by
  rw [word, UInt64.toNat_ofNat']
  exact Nat.mod_eq_of_lt h

end SolanaArbBot.Arbitrage
