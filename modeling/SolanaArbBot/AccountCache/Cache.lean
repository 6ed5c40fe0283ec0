import SolanaArbBot.Lib.HashMap
import SolanaArbBot.Lib.Pool
import SolanaArbBot.Lib.Runs
import SolanaArbBot.Transaction.Solana

/-! The hot account cache: one task inserts what a subscription streams, and any
number of callers look, fetch over RPC and insert. Neither looks before inserting. -/
namespace SolanaArbBot.AccountCache
open Lib Transaction

/-- An account as cached. The slot at which it was produced is kept for the record. -/
structure Account where
  lamports : UInt64
  data : List UInt8
  owner : Pubkey
  executable : Bool
  rentEpoch : UInt64
  slot : UInt64
  deriving DecidableEq

/-- A key of 32 bytes, where the slice has that length. -/
def tryFrom (bytes : List UInt8) : Option Pubkey :=
  if h : bytes.length = 32 then some ⟨bytes, h⟩ else none

def zeroKey : Pubkey := ⟨List.replicate 32 0, List.length_replicate⟩

/-- An account as it comes over the stream. -/
structure AccountInfo where
  pubkey : List UInt8
  lamports : UInt64
  owner : List UInt8
  executable : Bool
  rentEpoch : UInt64
  data : List UInt8

def AccountInfo.toAccount (info : AccountInfo) (slot : UInt64) : Account where
  lamports := info.lamports
  data := info.data
  owner := (tryFrom info.owner).getD zeroKey
  executable := info.executable
  rentEpoch := info.rentEpoch
  slot := slot

inductive UpdateOneof where
  | account (slot : UInt64) (info : Option AccountInfo)
  | ping
  | other

/-- What the tasks share. The last field is kept for the record: what the process
has received for each key, by stream or by RPC. -/
structure Shared where
  inner : HashMap Pubkey Account
  streamSlot : UInt64
  connected : Bool
  received : Pubkey → List Account

def Shared.receive (s : Shared) (pubkey : Pubkey) (account : Account) : Shared :=
  { s with
    received := fun k => if k = pubkey then s.received k ++ [account] else s.received k }

def Shared.insert (s : Shared) (pubkey : Pubkey) (account : Account) : Shared :=
  { s with inner := s.inner.insert pubkey account }

def UpdateOneof.brings : UpdateOneof → Option (Pubkey × Account)
  | .account slot (some info) => (tryFrom info.pubkey).map fun pk => (pk, info.toAccount slot)
  | _ => none

def onUpdate (s : Shared) (u : UpdateOneof) : Shared :=
  let s :=
    match u with
    | .account slot _ => { s with streamSlot := slot }
    | _ => s
  match u.brings with
  | some (pk, account) => (s.receive pk account).insert pk account
  | none => s

/-- Where a caller stands in its batch of keys. -/
inductive Caller where
  | check (pubkey : Pubkey) (rest : List Pubkey)
  | read (pubkey : Pubkey) (rest : List Pubkey)
  | insert (pubkey : Pubkey) (account : Account) (rest : List Pubkey)
  | done

/-- A batch, one key after the other; a failed fetch is skipped. A single call of
get_or_fetch is a batch of one. -/
def prefetch : List Pubkey → Caller
  | [] => .done
  | pk :: rest => .check pk rest

/-- The next step of a caller; what the RPC node replies is known when it is asked. -/
def Caller.advance (s : Shared) (reply : Option Account) : Caller → Option (Shared × Caller)
  | .check pk rest =>
    match s.inner.get pk with
    | some _ => some (s, prefetch rest)
    | none => some (s, .read pk rest)
  | .read pk rest =>
    match reply with
    | none => some (s, prefetch rest)
    | some account => some (s.receive pk account, .insert pk account rest)
  | .insert pk account rest => some (s.insert pk account, prefetch rest)
  | .done => none

abbrev State := Pool Shared Caller

inductive Action where
  | connect
  | disconnect
  | update (u : UpdateOneof)
  | call (pubkeys : List Pubkey)
  | act (caller : Nat) (reply : Option Account)

def step (p : State) : Action → Option State
  | .connect =>
    if p.shared.connected then none else some { p with shared := { p.shared with connected := true } }
  | .disconnect =>
    if p.shared.connected then some { p with shared := { p.shared with connected := false } } else none
  | .update u => if p.shared.connected then some { p with shared := onUpdate p.shared u } else none
  | .call pubkeys => some (p.spawn (prefetch pubkeys))
  | .act i reply =>
    match p.threads[i]? with
    | none => none
    | some c => (c.advance p.shared reply).map fun (s, c') => p.update i s c'

/-- An empty cache, before the subscription is spawned. The slot counter is seeded. -/
def start (slot : UInt64) : State where
  shared := {
    inner := .empty
    streamSlot := slot
    connected := false
    received := fun _ => [] }
  threads := []

def IsRun (slot : UInt64) (tr : List (Action × State)) : Prop :=
  AllSteps (fun p a p' => step p a = some p') (start slot) tr

end SolanaArbBot.AccountCache
