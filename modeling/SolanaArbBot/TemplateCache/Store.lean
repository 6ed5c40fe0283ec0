import SolanaArbBot.TemplateCache.HopKey
import SolanaArbBot.TemplateCache.Patching

/-! The two-segment route store and its hop-pair index. A lookup takes the lock
twice: once to look, once to promote a template found in the cold segment. -/
namespace SolanaArbBot.TemplateCache
open Lib

/-- Routes per segment; hot and cold together are meant to hold at most twice this. -/
def routeSegCap : Nat := 2000

structure HopTemplate where
  dex : DexKind
  poolOrAmmKey : String
  inputMint : String
  outputMint : String
  direction : DirectionParams
  remainingAccountsHash : UInt64
  seenCount : UInt64
  firstSeenSlot : Option UInt64
  lastSeenSlot : Option UInt64
  deriving DecidableEq

structure StoreInner where
  routesHot : HashMap Sig RouteTemplate
  routesCold : HashMap Sig RouteTemplate
  hops : HashMap HopKey HopTemplate
  hopPairIndex : HashMap String Sig
  deriving DecidableEq

def StoreInner.new : StoreInner := ⟨.empty, .empty, .empty, .empty⟩

/-- A full hot segment becomes the cold one, whose routes are dropped. -/
def pushHotRoute (g : StoreInner) (sig : Sig) (tmpl : RouteTemplate) : StoreInner :=
  let g := if g.routesHot.len ≥ routeSegCap then
    { g with routesCold := g.routesHot, routesHot := .empty } else g
  { g with routesHot := g.routesHot.insert sig tmpl }

def RouteTemplate.hit (t : RouteTemplate) : RouteTemplate := { t with hitCount := t.hitCount + 1 }

inductive FirstLook where
  | answer (r : Option RouteTemplate)
  | inCold

/-- First critical section of a lookup. -/
def getRouteRead (g : StoreInner) (sig : Sig) : FirstLook :=
  match g.routesHot.get sig with
  | some t => .answer (some t)
  | none => if !g.routesCold.containsKey sig then .answer none else .inCold

/-- Second critical section of a lookup, entered after the lock was dropped. -/
def getRouteWrite (g : StoreInner) (sig : Sig) : StoreInner × Option RouteTemplate :=
  match g.routesCold.get sig with
  | some t =>
    (pushHotRoute { g with routesCold := g.routesCold.remove sig } sig t.hit, some t.hit)
  | none => (g, g.routesHot.get sig)

/-- A lookup with nothing in between its two critical sections. -/
def getRoute (g : StoreInner) (sig : Sig) : StoreInner × Option RouteTemplate :=
  match getRouteRead g sig with
  | .answer r => (g, r)
  | .inCold => getRouteWrite g sig

def recordRouteHit (g : StoreInner) (sig : Sig) : StoreInner :=
  if g.routesHot.containsKey sig then
    { g with routesHot := g.routesHot.modify sig RouteTemplate.hit }
  else if g.routesCold.containsKey sig then
    { g with routesCold := g.routesCold.modify sig RouteTemplate.hit }
  else g

/-- A repeated route counts as seen and keeps the first response per amount. -/
def RouteTemplate.learn (inAmount : UInt64) (swapIxs : SwapInstructionsResponse)
    (t : RouteTemplate) : RouteTemplate :=
  { t with
    seenCount := t.seenCount + 1
    amountVariants := t.amountVariants.orInsert inAmount swapIxs }

/-- Where a response encodes the two amounts it was requested with. -/
def responseOffsets (swapIxs : SwapInstructionsResponse) (inAmount quotedOut : UInt64) :
    Option (Nat × Nat) :=
  (Base64.decode swapIxs.swapInstruction.data).bind fun d => discoverOffsets d inAmount quotedOut

def firstTemplate (sig : Sig) (swapIxs : SwapInstructionsResponse) (inAmount quotedOut : UInt64) :
    RouteTemplate :=
  let offsets := responseOffsets swapIxs inAmount quotedOut
  { routeSignature := sig
    swapIxs := swapIxs
    templateInAmount := inAmount
    templateQuotedOut := quotedOut
    inAmountOffset := offsets.map Prod.fst
    quotedOutOffset := offsets.map Prod.snd
    amountVariants := HashMap.empty.insert inAmount swapIxs
    seenCount := 1
    hitCount := 0 }

/-- Index a new route by its pair of hops; the first signature of a pair stays. -/
def indexHopPair (g : StoreInner) (routePlan : Value) (sig : Sig) : StoreInner :=
  match hopPairKey routePlan with
  | some pairKey => { g with hopPairIndex := g.hopPairIndex.orInsert pairKey sig }
  | none => g

def insertRoute (g : StoreInner) (sig : Sig) (swapIxs : SwapInstructionsResponse)
    (inAmount quotedOut : UInt64) (routePlan : Value) : StoreInner :=
  if g.routesHot.containsKey sig then
    { g with routesHot := g.routesHot.modify sig (RouteTemplate.learn inAmount swapIxs) }
  else if g.routesCold.containsKey sig then
    { g with routesCold := g.routesCold.modify sig (RouteTemplate.learn inAmount swapIxs) }
  else
    indexHopPair (pushHotRoute g sig (firstTemplate sig swapIxs inAmount quotedOut)) routePlan sig

/-- The signature a plan is looked up under in the second tier. -/
def hopPairSig (g : StoreInner) (routePlan : Value) : Option Sig :=
  (hopPairKey routePlan).bind g.hopPairIndex.get

def getRouteForHops (g : StoreInner) (routePlan : Value) : StoreInner × Option RouteTemplate :=
  match hopPairSig g routePlan with
  | none => (g, none)
  | some sig => getRoute g sig

/-- Hops of a plan with a template, as (all hit, number missing). -/
def checkHops (g : StoreInner) (routePlan : Value) : Bool × Nat :=
  let missing := (routePlan.asArray.getD []).countP fun hop =>
    !((hopKey hop).map g.hops.containsKey).getD false
  (missing == 0, missing)

def recordHop (contextSlot : Option UInt64) (g : StoreInner) (hop : Value) : StoreInner :=
  match hopKey hop with
  | none => g
  | some key =>
    let hops := g.hops.orInsert key {
      dex := key.dex
      poolOrAmmKey := key.poolOrAmmKey
      inputMint := key.inputMint
      outputMint := key.outputMint
      direction := key.direction
      remainingAccountsHash := key.remainingAccountsHash
      seenCount := 0
      firstSeenSlot := contextSlot
      lastSeenSlot := contextSlot }
    { g with
      hops := hops.modify key fun ent =>
        { ent with seenCount := ent.seenCount + 1, lastSeenSlot := contextSlot } }

def recordHops (g : StoreInner) (routePlan : Value) (contextSlot : Option UInt64) : StoreInner :=
  (routePlan.asArray.getD []).foldl (recordHop contextSlot) g

def routeCount (g : StoreInner) : Nat := g.routesHot.len + g.routesCold.len

/-! What each operation does to the template stored under a signature. -/

/-- The template stored under a signature, hot before cold. -/
def StoreInner.find (g : StoreInner) (sig : Sig) : Option RouteTemplate :=
  (g.routesHot.get sig).or (g.routesCold.get sig)

def StoreInner.Live (g : StoreInner) (sig : Sig) : Prop := (g.find sig).isSome

end SolanaArbBot.TemplateCache
