import SolanaArbBot.Lib.Decimal
import SolanaArbBot.Metis
import SolanaArbBot.TemplateCache.HopKey

/-! What the scanner decides from the two quotes of a circular trade. -/
namespace SolanaArbBot.Arbitrage
open Lib

def jitoTipLamports : UInt64 := 1600

def networkFeeLamports : UInt64 := 5000

/-- The smallest output worth landing, as the scanner requests it. -/
def onChainFloor (amount : UInt64) : UInt64 := amount + jitoTipLamports + networkFeeLamports

def saturatingAdd (a b : UInt64) : UInt64 :=
  if a.toNat + b.toNat < 2 ^ 64 then a + b else UInt64.ofNat (2 ^ 64 - 1)

def forbiddenDexProgramIds : List String := []

def forbiddenDexLabels : List String := []

/-- The DEXes that a route must avoid, by label and by program. -/
structure ForbiddenDexes where
  labels : List String := forbiddenDexLabels
  programIds : List String := forbiddenDexProgramIds

def toAsciiLowercase (s : String) : String := s.map Char.toLower

def bannedLabel (labels : List String) (label : String) : Bool :=
  labels.any fun banned =>
    toAsciiLowercase label = toAsciiLowercase banned ||
      TemplateCache.contains (toAsciiLowercase label) (toAsciiLowercase banned)

def routeUsesForbiddenDex (forbidden : ForbiddenDexes) (quote : QuoteResponse) : Bool :=
  (quote.routePlan.asArray.getD []).any fun hop =>
    match hop.get "swapInfo" with
    | none => false
    | some swapInfo =>
      (((swapInfo.get "label").bind Value.asStr).map (bannedLabel forbidden.labels)).getD false ||
        (swapInfo.asObject.getD []).any fun field =>
          (field.2.asStr.map fun s => forbidden.programIds.contains s).getD false

def ammKeys (quote : QuoteResponse) : List String :=
  (quote.routePlan.asArray.getD []).filterMap fun hop =>
    ((hop.get "swapInfo").bind (·.get "ammKey")).bind Value.asStr

/-- Going out and back through one pool pays its fee twice. -/
def routesSharePool (q1 q2 : QuoteResponse) : Bool :=
  (ammKeys q2).any fun key => (ammKeys q1).contains key

/-- A circular trade whose quotes promise enough. -/
structure QuotePair where
  amount : UInt64
  quote1 : QuoteResponse
  quote2 : QuoteResponse
  hopCount : Nat
  onlyDirect : Bool

/-- The amount quoted for the way back; a quote of nothing counts as no route. -/
def tokenAmount (quote1 : QuoteResponse) : Option Nat :=
  (parseUnsigned (2 ^ 64) quote1.outAmount).filter fun v => decide (0 < v)

inductive Verdict where
  | notProfitable
  | samePool
  | profitable (pair : QuotePair)

def legHops (quote : QuoteResponse) : Nat := (quote.routePlan.asArray.map List.length).getD 1

def judge (forbidden : ForbiddenDexes) (amount minProfitLamports : UInt64) (onlyDirect : Bool)
    (quote1 quote2 : QuoteResponse) : Verdict :=
  let outputWsol := (parseUnsigned (2 ^ 64) quote2.outAmount).getD 0
  if outputWsol ≤ (saturatingAdd amount minProfitLamports).toNat then .notProfitable
  else if routeUsesForbiddenDex forbidden quote1 || routeUsesForbiddenDex forbidden quote2 then
    .notProfitable
  else if routesSharePool quote1 quote2 then .samePool
  else .profitable {
    amount := amount
    quote1 := quote1
    quote2 := quote2
    hopCount := legHops quote1 + legHops quote2
    onlyDirect := onlyDirect }

end SolanaArbBot.Arbitrage
