import SolanaArbBot.Lib.Observation

/-! One region of the block engine client: the access token that its background
loop renews and that every bundle sent to the region carries. -/
namespace SolanaArbBot.JitoGrpc
open Lib

/-- Active tokens. Times are unix seconds. -/
structure Tokens where
  access : String
  accessExpiresAt : Nat
  refresh : String
  refreshExpiresAt : Nat
  deriving DecidableEq

/-- A token as the auth service sends it. -/
structure Token where
  value : String
  expiresAtUtc : Option Int
  deriving DecidableEq

structure GenerateAuthTokensResponse where
  accessToken : Option Token
  refreshToken : Option Token

def timestampSecs : Option Int → Nat
  | some seconds => (max seconds 0).toNat
  | none => 0

def authenticate (challenge : Except String String)
    (tokens : Except String GenerateAuthTokensResponse) : Except String Tokens := do
  let _ ← challenge
  let tokenResp ← tokens
  match tokenResp.accessToken, tokenResp.refreshToken with
  | none, _ => .error "no access_token in response"
  | some _, none => .error "no refresh_token in response"
  | some access, some refresh =>
    return {
      access := access.value
      accessExpiresAt := timestampSecs access.expiresAtUtc
      refresh := refresh.value
      refreshExpiresAt := timestampSecs refresh.expiresAtUtc }

/-- Where the refresh loop stands; a region that never authenticated has none. -/
inductive LoopPc where
  | absent
  | top
  | sleeping (wake : Nat)
  | authenticating
  | storing (new : Tokens)
  | takeRefresh
  | refreshing (refreshToken : String)
  | storingAccess (new : Token)
  | backoff (wake : Nat)
  deriving DecidableEq

/-- A region. The wall clock is what now_secs reads and may be set, the other clock
only goes on. The last field is kept for the record: the failed re-authentications
since a token was last stored. -/
structure Region where
  tokens : Option Tokens
  pc : LoopPc
  nowSecs : Nat
  monotonic : Nat
  failures : Nat
  deriving DecidableEq

def sleepSecs (tokens : Option Tokens) (now : Nat) : Nat :=
  match tokens with
  | some t => min (max (t.accessExpiresAt - now - 60) 10) 300
  | none => 300

def needsFullReauth (tokens : Option Tokens) (now : Nat) : Bool :=
  match tokens with
  | some t => decide (t.refreshExpiresAt - now < 120)
  | none => true

def retrySecs : Nat := 30

inductive LoopAction where
  | tick (elapsed : Nat) (nowSecs : Nat)
  | go
  | auth (challenge : Except String String) (tokens : Except String GenerateAuthTokensResponse)
  | refresh (reply : Except String (Option Token))

def Tokens.withAccess (t : Tokens) (new : Token) : Tokens :=
  { t with access := new.value, accessExpiresAt := timestampSecs new.expiresAtUtc }

/-- The clocks go on, or the loop takes its next step. A reply to a refresh without
an access token leads back to the top, as does a pause. -/
def Region.step (r : Region) : LoopAction → Option Region
  | .tick elapsed nowSecs => some { r with monotonic := r.monotonic + elapsed, nowSecs := nowSecs }
  | .go =>
    match r.pc with
    | .top => some { r with pc := .sleeping (r.monotonic + sleepSecs r.tokens r.nowSecs) }
    | .sleeping wake =>
      if wake ≤ r.monotonic then
        if needsFullReauth r.tokens r.nowSecs then some { r with pc := .authenticating }
        else some { r with pc := .takeRefresh }
      else none
    | .storing new => some { r with tokens := some new, failures := 0, pc := .top }
    | .takeRefresh =>
      match r.tokens with
      | some t => some { r with pc := .refreshing t.refresh }
      | none => some { r with pc := .top }
    | .storingAccess new =>
      some { r with tokens := r.tokens.map fun t => t.withAccess new, failures := 0, pc := .top }
    | .backoff wake => if wake ≤ r.monotonic then some { r with pc := .top } else none
    | _ => none
  | .auth challenge tokens =>
    match r.pc with
    | .authenticating =>
      match authenticate challenge tokens with
      | .ok new => some { r with pc := .storing new }
      | .error _ =>
        some { r with pc := .backoff (r.monotonic + retrySecs), failures := r.failures + 1 }
    | _ => none
  | .refresh reply =>
    match r.pc with
    | .refreshing _ =>
      match reply with
      | .error _ => some { r with pc := .authenticating }
      | .ok none => some { r with pc := .top }
      | .ok (some new) => some { r with pc := .storingAccess new }
    | _ => none

inductive Region.Moves (r : Region) : LoopAction → Region → Prop
  | tick {elapsed nowSecs} : Moves r (.tick elapsed nowSecs)
      { r with monotonic := r.monotonic + elapsed, nowSecs := nowSecs }
  | sleep (hpc : r.pc = .top) :
      Moves r .go { r with pc := .sleeping (r.monotonic + sleepSecs r.tokens r.nowSecs) }
  | wakeToAuth {wake} (hpc : r.pc = .sleeping wake) (hwake : wake ≤ r.monotonic)
      (hshort : needsFullReauth r.tokens r.nowSecs) : Moves r .go { r with pc := .authenticating }
  | wakeToRefresh {wake} (hpc : r.pc = .sleeping wake) (hwake : wake ≤ r.monotonic)
      (hlong : ¬ needsFullReauth r.tokens r.nowSecs) : Moves r .go { r with pc := .takeRefresh }
  | store {new} (hpc : r.pc = .storing new) :
      Moves r .go { r with tokens := some new, failures := 0, pc := .top }
  | sendRefresh {t} (hpc : r.pc = .takeRefresh) (ht : r.tokens = some t) :
      Moves r .go { r with pc := .refreshing t.refresh }
  | noRefresh (hpc : r.pc = .takeRefresh) (ht : r.tokens = none) :
      Moves r .go { r with pc := .top }
  | storeAccess {new} (hpc : r.pc = .storingAccess new) : Moves r .go
      { r with tokens := r.tokens.map fun t => t.withAccess new, failures := 0, pc := .top }
  | resume {wake} (hpc : r.pc = .backoff wake) (hwake : wake ≤ r.monotonic) :
      Moves r .go { r with pc := .top }
  | authenticated {challenge tokens new} (hpc : r.pc = .authenticating)
      (hauth : authenticate challenge tokens = .ok new) :
      Moves r (.auth challenge tokens) { r with pc := .storing new }
  | authFailed {challenge tokens e} (hpc : r.pc = .authenticating)
      (hauth : authenticate challenge tokens = .error e) : Moves r (.auth challenge tokens)
      { r with pc := .backoff (r.monotonic + retrySecs), failures := r.failures + 1 }
  | refreshFailed {token e} (hpc : r.pc = .refreshing token) :
      Moves r (.refresh (.error e)) { r with pc := .authenticating }
  | refreshEmpty {token} (hpc : r.pc = .refreshing token) :
      Moves r (.refresh (.ok none)) { r with pc := .top }
  | refreshed {token new} (hpc : r.pc = .refreshing token) :
      Moves r (.refresh (.ok (some new))) { r with pc := .storingAccess new }

private theorem go_cases {r r' : Region} (h : r.step .go = some r') : r.Moves .go r' := by
  cases hpc : r.pc with
  | absent | authenticating | refreshing => simp [Region.step, hpc] at h
  | top =>
    simp only [Region.step, hpc, Option.some.injEq] at h
    exact h ▸ .sleep hpc
  | sleeping wake =>
    simp only [Region.step, hpc] at h
    split at h
    · next hwake =>
      split at h <;> cases h
      · exact .wakeToAuth hpc hwake ‹_›
      · exact .wakeToRefresh hpc hwake ‹_›
    · cases h
  | storing new =>
    simp only [Region.step, hpc, Option.some.injEq] at h
    exact h ▸ .store hpc
  | takeRefresh =>
    simp only [Region.step, hpc] at h
    split at h <;> cases h
    · exact .sendRefresh hpc ‹_›
    · exact .noRefresh hpc ‹_›
  | storingAccess new =>
    simp only [Region.step, hpc, Option.some.injEq] at h
    exact h ▸ .storeAccess hpc
  | backoff wake =>
    simp only [Region.step, hpc] at h
    split at h <;> cases h
    exact .resume hpc ‹_›

theorem Region.step_cases {r r' : Region} {a : LoopAction} (h : r.step a = some r') :
    r.Moves a r' := by
  cases a with
  | tick elapsed nowSecs =>
    cases h
    exact .tick
  | go => exact go_cases h
  | auth challenge tokens =>
    simp only [Region.step] at h
    split at h
    · next hpc =>
      split at h <;> cases h
      · exact .authenticated hpc ‹_›
      · exact .authFailed hpc ‹_›
    · cases h
  | refresh reply =>
    simp only [Region.step] at h
    split at h
    · next hpc =>
      split at h <;> cases h
      · exact .refreshFailed hpc
      · exact .refreshEmpty hpc
      · exact .refreshed hpc
    · cases h

def IsLoopRun (r : Region) (tr : List (LoopAction × Region)) : Prop :=
  AllSteps (fun r a r' => r.step a = some r') r tr

/-- A region as connect_region leaves it: the loop is spawned only when the first
handshake succeeded. -/
def connectRegion (first : Except String Tokens) (nowSecs monotonic : Nat) : Region where
  tokens := first.toOption
  pc := if first.toOption.isSome then .top else .absent
  nowSecs := nowSecs
  monotonic := monotonic
  failures := 0

/-- What the search service receives: the metadata, and the packets of the bundle. -/
structure SendBundleRequest where
  authorization : Option String
  packets : List (List UInt8)
  deriving DecidableEq

section Send
variable (parses : String → Bool)

def bearer (t : Tokens) : String := "Bearer " ++ t.access

/-- Up to the await: the request, with the token in the cell if there is one. The cell is not
looked at again when the request leaves. -/
def sendToRegion (r : Region) (txBytes : List UInt8) : Except String SendBundleRequest :=
  match r.tokens with
  | some t => if parses (bearer t) then .ok ⟨some (bearer t), [txBytes]⟩ else .error "invalid access token"
  | none => .ok ⟨none, [txBytes]⟩

end Send
end SolanaArbBot.JitoGrpc
