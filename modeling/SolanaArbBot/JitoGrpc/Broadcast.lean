import SolanaArbBot.JitoGrpc.Renewal
import SolanaArbBot.Lib.Pool
import SolanaArbBot.Lib.Race

/-! The gRPC client of the block engine: its regions, each with its loop, and any number of
calls that send a bundle to all of them side by side. -/
namespace SolanaArbBot.JitoGrpc
open Lib

/-- The regions that were reached, under their endpoints. -/
structure JitoGrpcClient where
  regions : List (String × Region)

/-- What comes of connecting to an endpoint that is reached: the first handshake, and what the
clocks show after it. -/
structure Connection where
  first : Except String Tokens
  nowSecs : Nat
  monotonic : Nat

def Connection.region (c : Connection) : Region := connectRegion c.first c.nowSecs c.monotonic

/-- Connect to one endpoint after the other; those that cannot be reached are skipped. -/
def JitoGrpcClient.new (endpoints : List (String × Except String Connection)) :
    Except String JitoGrpcClient :=
  let regions := endpoints.filterMap fun e => e.2.toOption.map fun c => (e.1, c.region)
  if regions.isEmpty then .error "no Jito gRPC regions could be reached" else .ok ⟨regions⟩

inductive SendReply where
  | timedOut
  | failed
  | accepted (uuid : String)

def SendReply.result (endpoint : String) : SendReply → Except String String
  | .timedOut => .error s!"Jito gRPC SendBundle timed out at {endpoint}"
  | .failed => .error s!"Jito gRPC SendBundle failed at {endpoint}"
  | .accepted uuid => .ok uuid

/-- A request that a call has ready, and for the record the region as it was looked up in. -/
structure Ask where
  region : Nat
  request : SendBundleRequest
  looked : Region

/-- A call of send_bundle under way: the requests it has made, the regions to which they have
left, and how it stands. -/
structure SendBundle where
  txBytes : List UInt8
  asks : List Ask
  posted : List Nat
  race : Race Nat String String

/-- A call, unless it has failed before it began to send. -/
abbrev Call := Except String SendBundle

def JitoGrpcClient.sendBundle (client : JitoGrpcClient) (serialized : Option (List UInt8)) : Call :=
  match serialized with
  | none => .error "failed to serialize transaction"
  | some txBytes => .ok ⟨txBytes, [], [], .start (List.range client.regions.length)⟩

def SendBundle.returns (call : SendBundle) : Option (Except String String) :=
  call.race.outcome "no Jito gRPC regions configured"

abbrev State := Pool JitoGrpcClient Call

/-- A region's loop or clock goes on, a call is made, it looks up a region's token, its request
to the region leaves, or it hears from the region. -/
inductive Action where
  | loop (i : Nat) (a : LoopAction)
  | call (serialized : Option (List UInt8))
  | ask (c i : Nat)
  | post (c i : Nat)
  | reply (c i : Nat) (r : SendReply)

section Step
variable (parses : String → Bool)

/-- A call asks each region once, and none once it has returned. -/
def SendBundle.ask (call : SendBundle) (i : Nat) (r : Region) : Option SendBundle :=
  if call.race.won.isNone ∧ i ∈ call.race.pending ∧ i ∉ call.asks.map Ask.region then
    match sendToRegion parses r call.txBytes with
    | .ok req => some { call with asks := call.asks ++ [⟨i, req, r⟩] }
    | .error e => (call.race.arrive i (.error e)).map fun race => { call with race := race }
  else none

/-- The request leaves unless it was dropped. -/
def SendBundle.post (call : SendBundle) (i : Nat) : Option SendBundle :=
  if call.race.won.isNone ∧ i ∈ call.race.pending ∧ i ∈ call.asks.map Ask.region ∧ i ∉ call.posted then
    some { call with posted := call.posted ++ [i] }
  else none

/-- A request can fail without having left. -/
def SendBundle.repliers (call : SendBundle) : SendReply → List Nat
  | .accepted _ => call.posted
  | .timedOut | .failed => call.asks.map Ask.region

def SendBundle.hear (call : SendBundle) (i : Nat) (endpoint : String) (r : SendReply) : Option SendBundle :=
  if i ∈ call.repliers r then
    (call.race.arrive i (r.result endpoint)).map fun race => { call with race := race }
  else none

def turn (p : State) (c i : Nat) (f : SendBundle → String → Region → Option SendBundle) : Option State :=
  match p.threads[c]?, p.shared.regions[i]? with
  | some (.ok call), some (endpoint, r) =>
    (f call endpoint r).map fun call' => p.update c p.shared (.ok call')
  | _, _ => none

def step (p : State) : Action → Option State
  | .loop i a =>
    match p.shared.regions[i]? with
    | none => none
    | some (endpoint, r) => (r.step a).map fun r' =>
        { p with shared := ⟨p.shared.regions.set i (endpoint, r')⟩ }
  | .call serialized => some (p.spawn (p.shared.sendBundle serialized))
  | .ask c i => turn p c i fun call _ r => call.ask parses i r
  | .post c i => turn p c i fun call _ _ => call.post i
  | .reply c i reply => turn p c i fun call endpoint _ => call.hear i endpoint reply

def IsRun (client : JitoGrpcClient) (tr : List (Action × State)) : Prop :=
  AllSteps (fun p a p' => step parses p a = some p') ⟨client, []⟩ tr

end Step

inductive Moves (parses : String → Bool) (p : State) : Action → State → Prop where
  | loop {i a endpoint r r'} (hi : p.shared.regions[i]? = some (endpoint, r)) (hr : r.step a = some r') :
    Moves parses p (.loop i a) { p with shared := ⟨p.shared.regions.set i (endpoint, r')⟩ }
  | call {serialized} : Moves parses p (.call serialized) (p.spawn (p.shared.sendBundle serialized))
  | ask {c i call call' endpoint r} (hc : p.threads[c]? = some (.ok call))
    (hi : p.shared.regions[i]? = some (endpoint, r)) (h : call.ask parses i r = some call') :
    Moves parses p (.ask c i) (p.update c p.shared (.ok call'))
  | post {c i call call' endpoint r} (hc : p.threads[c]? = some (.ok call))
    (hi : p.shared.regions[i]? = some (endpoint, r)) (h : call.post i = some call') :
    Moves parses p (.post c i) (p.update c p.shared (.ok call'))
  | reply {c i call call' endpoint r reply} (hc : p.threads[c]? = some (.ok call))
    (hi : p.shared.regions[i]? = some (endpoint, r)) (h : call.hear i endpoint reply = some call') :
    Moves parses p (.reply c i reply) (p.update c p.shared (.ok call'))

section Runs
variable {parses : String → Bool} {p p' p₀ : State} {a : Action} {tr : List (Action × State)}

theorem turn_cases {c i : Nat} {f : SendBundle → String → Region → Option SendBundle}
    (h : turn p c i f = some p') : ∃ call endpoint r call', p.threads[c]? = some (.ok call) ∧
      p.shared.regions[i]? = some (endpoint, r) ∧ f call endpoint r = some call' ∧
        p' = p.update c p.shared (.ok call') := by
  unfold turn at h
  split at h
  · next call endpoint r hc hi =>
    obtain ⟨call', hcall, rfl⟩ := Option.map_eq_some_iff.mp h
    exact ⟨call, endpoint, r, call', hc, hi, hcall, rfl⟩
  · cases h

theorem step_cases (h : step parses p a = some p') : Moves parses p a p' := by
  cases a with
  | loop i a =>
    simp only [step] at h
    split at h
    · cases h
    · next endpoint r hi =>
      obtain ⟨r', hr, rfl⟩ := Option.map_eq_some_iff.mp h
      exact .loop hi hr
  | call =>
    cases h
    exact .call
  | ask c i =>
    obtain ⟨call, endpoint, r, call', hc, hi, hcall, rfl⟩ := turn_cases h
    exact .ask hc hi hcall
  | post c i =>
    obtain ⟨call, endpoint, r, call', hc, hi, hcall, rfl⟩ := turn_cases h
    exact .post hc hi hcall
  | reply c i reply =>
    obtain ⟨call, endpoint, r, call', hc, hi, hcall, rfl⟩ := turn_cases h
    exact .reply hc hi hcall

/-- What a call does when it turns to a region. -/
theorem SendBundle.ask_cases {call call' : SendBundle} {i : Nat} {r : Region}
    (h : call.ask parses i r = some call') : i ∉ call.asks.map Ask.region ∧
      ((∃ req, sendToRegion parses r call.txBytes = .ok req ∧
        call' = { call with asks := call.asks ++ [⟨i, req, r⟩] }) ∨
      ∃ e race, call.race.arrive i (.error e) = some race ∧ call' = { call with race := race }) := by
  unfold SendBundle.ask at h
  split at h
  · next hc =>
    refine ⟨hc.2.2, ?_⟩
    split at h
    · next req hreq =>
      cases h
      exact Or.inl ⟨req, hreq, rfl⟩
    · next e _ =>
      obtain ⟨race, hrace, rfl⟩ := Option.map_eq_some_iff.mp h
      exact Or.inr ⟨e, race, hrace, rfl⟩
  · cases h

theorem SendBundle.post_cases {call call' : SendBundle} {i : Nat} (h : call.post i = some call') :
    i ∈ call.asks.map Ask.region ∧ i ∉ call.posted ∧ call' = { call with posted := call.posted ++ [i] } := by
  unfold SendBundle.post at h
  split at h
  · next hc =>
    cases h
    exact ⟨hc.2.2.1, hc.2.2.2, rfl⟩
  · cases h

theorem SendBundle.hear_cases {call call' : SendBundle} {i : Nat} {endpoint : String} {reply : SendReply}
    (h : call.hear i endpoint reply = some call') : (∀ uuid, reply = .accepted uuid → i ∈ call.posted) ∧
    ∃ race, call.race.arrive i (reply.result endpoint) = some race ∧ call' = { call with race := race } := by
  unfold SendBundle.hear at h
  split at h
  · next hc =>
    obtain ⟨race, hrace, rfl⟩ := Option.map_eq_some_iff.mp h
    refine ⟨fun uuid he => ?_, race, hrace, rfl⟩
    subst he
    exact hc
  · cases h

end Runs

section History
variable (parses : String → Bool) (p₀ : State) (tr : List (Action × State)) (c : Nat)

/-- The call looked up the token that the region held just then. -/
def Asked (txBytes : List UInt8) (x : Ask) : Prop :=
  SomeStep (fun p a _ => a = .ask c x.region ∧
    (∃ endpoint, p.shared.regions[x.region]? = some (endpoint, x.looked)) ∧
    sendToRegion parses x.looked txBytes = .ok x.request) p₀ tr

def Posted (i : Nat) : Prop := SomeStep (fun _ a _ => a = .post c i) p₀ tr

def Accepted (i : Nat) (uuid : String) : Prop :=
  SomeStep (fun _ a _ => a = .reply c i (.accepted uuid)) p₀ tr

/-- The call has asked no region twice, and its race is fair and fed by the regions. -/
structure CallOk (call : SendBundle) : Prop where
  once : (call.asks.map Ask.region).Nodup
  asked : ∀ x ∈ call.asks, Asked parses p₀ tr c call.txBytes x
  postedOnce : call.posted.Nodup
  posted : ∀ i ∈ call.posted, i ∈ call.asks.map Ask.region ∧ Posted p₀ tr c i
  fair : call.race.Fair (List.range p₀.shared.regions.length)
  accepted : ∀ i uuid, (i, .ok uuid) ∈ call.race.arrived → i ∈ call.posted ∧ Accepted p₀ tr c i uuid

end History

/-- Every call of the run has its past in it. -/
structure Traced (parses : String → Bool) (p₀ : State) (tr : List (Action × State)) (p : State) : Prop where
  regions : p.shared.regions.length = p₀.shared.regions.length
  calls : ∀ c call, p.threads[c]? = some (.ok call) → CallOk parses p₀ tr c call
  failed : ∀ (c : Nat) (e : String), p.threads[c]? = some (.error e) → e = "failed to serialize transaction"

section Runs
variable {parses : String → Bool} {p₀ p' : State} {tr : List (Action × State)} {a : Action} {c i : Nat}
  {call call' : SendBundle}

theorem CallOk.append (h : CallOk parses p₀ tr c call) (tr' : List (Action × State)) :
    CallOk parses p₀ (tr ++ tr') c call where
  once := h.once
  asked x hx := (h.asked x hx).append tr'
  postedOnce := h.postedOnce
  posted i hi := (h.posted i hi).imp_right fun hp => hp.append tr'
  fair := h.fair
  accepted i uuid hm := (h.accepted i uuid hm).imp_right fun hp => hp.append tr'

private theorem CallOk.start (txBytes : List UInt8) :
    CallOk parses p₀ tr c ⟨txBytes, [], [], .start (List.range p₀.shared.regions.length)⟩ where
  once := List.nodup_nil
  asked _ hq := absurd hq List.not_mem_nil
  postedOnce := List.nodup_nil
  posted _ hi := absurd hi List.not_mem_nil
  fair := Race.Fair.start _
  accepted _ _ hm := absurd hm List.not_mem_nil

private theorem CallOk.arrive {result : Except String String} {race : Race Nat String String}
    (h : CallOk parses p₀ tr c call) (hr : call.race.arrive i result = some race)
    (hok : ∀ uuid, result = .ok uuid → i ∈ call.posted ∧ Accepted p₀ tr c i uuid) :
    CallOk parses p₀ tr c { call with race := race } := by
  refine ⟨h.once, h.asked, h.postedOnce, h.posted, h.fair.arrive hr, ?_⟩
  obtain ⟨_, _, _, harrived, _⟩ := Race.arrive_cases hr
  intro j uuid hm
  rw [harrived] at hm
  rcases List.mem_append.mp hm with hm | hm
  · exact h.accepted j uuid hm
  · cases List.mem_singleton.mp hm
    exact hok uuid rfl

private theorem CallOk.ask {endpoint : String} {r : Region}
    (h : CallOk parses p₀ tr c call) (hi : (lastState p₀ tr).shared.regions[i]? = some (endpoint, r))
    (ha : call.ask parses i r = some call') (p' : State) :
    CallOk parses p₀ (tr ++ [(.ask c i, p')]) c call' := by
  have hold := h.append [(.ask c i, p')]
  obtain ⟨hnew, ⟨req, hreq, rfl⟩ | ⟨e, race, hrace, rfl⟩⟩ := SendBundle.ask_cases ha
  · refine ⟨?_, ?_, hold.postedOnce, ?_, hold.fair, hold.accepted⟩
    · rw [List.map_append]
      exact List.Nodup.append h.once (List.nodup_singleton _) (List.disjoint_singleton.mpr hnew)
    · exact List.forall_mem_append.mpr ⟨hold.asked,
        List.forall_mem_singleton.mpr (SomeStep.last ⟨rfl, ⟨endpoint, hi⟩, hreq⟩)⟩
    · intro j hj
      rw [List.map_append]
      exact (hold.posted j hj).imp_left (List.mem_append_left _)
  · exact hold.arrive hrace fun uuid he => by cases he

private theorem CallOk.post (h : CallOk parses p₀ tr c call) (hp : call.post i = some call') (p' : State) :
    CallOk parses p₀ (tr ++ [(.post c i, p')]) c call' := by
  have hold := h.append [(.post c i, p')]
  obtain ⟨hasked, hnew, rfl⟩ := SendBundle.post_cases hp
  refine ⟨hold.once, hold.asked, ?_, ?_, hold.fair, ?_⟩
  · exact List.Nodup.append h.postedOnce (List.nodup_singleton _) (List.disjoint_singleton.mpr hnew)
  · exact List.forall_mem_append.mpr ⟨hold.posted,
      List.forall_mem_singleton.mpr ⟨hasked, SomeStep.last rfl⟩⟩
  · intro j uuid hm
    exact (hold.accepted j uuid hm).imp_left (List.mem_append_left _)

private theorem CallOk.hear {endpoint : String} {reply : SendReply}
    (h : CallOk parses p₀ tr c call) (hh : call.hear i endpoint reply = some call') (p' : State) :
    CallOk parses p₀ (tr ++ [(.reply c i reply, p')]) c call' := by
  obtain ⟨hposted, race, hrace, rfl⟩ := SendBundle.hear_cases hh
  refine (h.append _).arrive hrace ?_
  intro uuid he
  cases reply with
  | accepted uuid' =>
    cases he
    exact ⟨hposted uuid rfl, SomeStep.last rfl⟩
  | timedOut | failed => cases he

private theorem Traced.update (h : Traced parses p₀ tr (lastState p₀ tr))
    (hcall : CallOk parses p₀ (tr ++ [(a, p')]) c call') :
    Traced parses p₀ (tr ++ [(a, p')]) ((lastState p₀ tr).update c (lastState p₀ tr).shared (.ok call')) := by
  refine ⟨h.regions, ?_, ?_⟩
  · intro c' call hc'
    rcases Pool.getElem?_update hc' with ⟨rfl, heq⟩ | hc'
    · cases heq
      exact hcall
    · exact (h.calls c' call hc').append _
  · intro c' e hc'
    rcases Pool.getElem?_update hc' with ⟨_, heq⟩ | hc'
    · cases heq
    · exact h.failed c' e hc'

private theorem Traced.step (h : Traced parses p₀ tr (lastState p₀ tr))
    (hs : Moves parses (lastState p₀ tr) a p') : Traced parses p₀ (tr ++ [(a, p')]) p' := by
  cases hs with
  | loop hi hr =>
    refine ⟨?_, fun c call hc => (h.calls c call hc).append _, h.failed⟩
    dsimp only
    rw [List.length_set]
    exact h.regions
  | @call serialized =>
    refine ⟨h.regions, ?_, ?_⟩
    · intro c call hc
      rcases Pool.getElem?_spawn hc with ⟨_, hcall⟩ | hc
      · cases serialized with
        | none => cases hcall
        | some txBytes =>
          rw [JitoGrpcClient.sendBundle, h.regions] at hcall
          cases hcall
          exact CallOk.start txBytes
      · exact (h.calls c call hc).append _
    · intro c e hc
      rcases Pool.getElem?_spawn hc with ⟨_, hcall⟩ | hc
      · cases serialized with
        | none =>
          cases hcall
          rfl
        | some txBytes => cases hcall
      · exact h.failed c e hc
  | ask hc hi ha => exact h.update ((h.calls _ _ hc).ask hi ha _)
  | post hc hi hp => exact h.update ((h.calls _ _ hc).post hp _)
  | reply hc hi hh => exact h.update ((h.calls _ _ hc).hear hh _)

theorem IsRun.traced {client : JitoGrpcClient} (h : IsRun parses client tr) :
    Traced parses ⟨client, []⟩ tr (lastState ⟨client, []⟩ tr) :=
  AllSteps.history (P := fun tr p => Traced parses ⟨client, []⟩ tr p) h
    ⟨rfl, fun _ _ hc => (by cases hc), fun _ _ hc => (by cases hc)⟩ fun _ _ _ ht hs => ht.step (step_cases hs)

/-- What a call of send_bundle does, at any time and once it has returned. -/
structure Sends (parses : String → Bool) (p₀ : State) (tr : List (Action × State)) (c : Nat)
    (call : SendBundle) : Prop where
  /-- It asks each region at most once, with the token that the region holds then. -/
  asks : (call.asks.map Ask.region).Nodup ∧ ∀ x ∈ call.asks, Asked parses p₀ tr c call.txBytes x
  /-- Each request leaves at most once. -/
  posts : call.posted.Nodup ∧ ∀ i ∈ call.posted, i ∈ call.asks.map Ask.region ∧ Posted p₀ tr c i
  /-- It returns the first success, -/
  ok : ∀ uuid, call.returns = some (.ok uuid) → ∃ before i, call.race.arrived = before ++ [(i, .ok uuid)] ∧
    (∀ x ∈ before, ∃ e, x.2 = .error e) ∧ i ∈ call.posted ∧ Accepted p₀ tr c i uuid
  /-- or the last failure when every region has failed. -/
  error : ∀ e, call.returns = some (.error e) →
    (call.race.arrived.map Prod.fst).Perm (List.range p₀.shared.regions.length) ∧
      (∀ x ∈ call.race.arrived, ∃ e, x.2 = .error e) ∧
      ∃ before i, call.race.arrived = before ++ [(i, .error e)]
  /-- Until then there is a region that it can ask, to which its request can leave, or from
  which it can hear anything. -/
  waits : call.returns = none → ∃ i, (step parses (lastState p₀ tr) (.ask c i)).isSome ∨
    (step parses (lastState p₀ tr) (.post c i)).isSome ∨
    ∀ r, (step parses (lastState p₀ tr) (.reply c i r)).isSome
  /-- After that it does nothing more. -/
  stops : call.returns.isSome → ∀ i r, step parses (lastState p₀ tr) (.ask c i) = none ∧
    step parses (lastState p₀ tr) (.post c i) = none ∧ step parses (lastState p₀ tr) (.reply c i r) = none

/-- A call fails before it sends anything, or settles. -/
def Settles (parses : String → Bool) (p₀ : State) (tr : List (Action × State)) (c : Nat) : Call → Prop
  | .error e => e = "failed to serialize transaction"
  | .ok call => Sends parses p₀ tr c call

/-- Once a call has returned, nobody is out. -/
theorem not_running (h : call.returns.isSome) : ¬ (call.race.won.isNone ∧ i ∈ call.race.pending) := by
  rintro ⟨hwon, hi⟩
  rw [SendBundle.returns, Race.outcome, Option.isNone_iff_eq_none.mp hwon] at h
  simp [List.ne_nil_of_mem hi] at h

theorem turn_eq {p : State} {f : SendBundle → String → Region → Option SendBundle} {endpoint : String}
    {r : Region} (hc : p.threads[c]? = some (.ok call)) (hi : p.shared.regions[i]? = some (endpoint, r)) :
    turn p c i f = (f call endpoint r).map fun call' => p.update c p.shared (.ok call') := by
  simp only [turn, hc, hi]

theorem turn_eq_none {p : State} {f : SendBundle → String → Region → Option SendBundle}
    (hc : p.threads[c]? = some (.ok call)) (hf : ∀ endpoint r, f call endpoint r = none) :
    turn p c i f = none := by
  cases hi : p.shared.regions[i]? with
  | none => simp only [turn, hc, hi]
  | some region => rw [turn_eq hc hi, hf, Option.map_none]

private theorem CallOk.waits (h : CallOk parses p₀ tr c call)
    (hlen : (lastState p₀ tr).shared.regions.length = p₀.shared.regions.length)
    (hc : (lastState p₀ tr).threads[c]? = some (.ok call)) (hnone : call.returns = none) :
    ∃ i, (step parses (lastState p₀ tr) (.ask c i)).isSome ∨
      (step parses (lastState p₀ tr) (.post c i)).isSome ∨
      ∀ r, (step parses (lastState p₀ tr) (.reply c i r)).isSome := by
  obtain ⟨i, hi, harrive⟩ := Race.arrive_isSome hnone
  have hlt : i < (lastState p₀ tr).shared.regions.length := by
    rw [hlen]
    exact List.mem_range.mp (h.fair.everyone.subset (List.mem_append_right _ hi))
  have hregion := List.getElem?_eq_getElem hlt
  obtain ⟨race, hrace⟩ := Option.isSome_iff_exists.mp (harrive (.ok ""))
  have hwon := Option.isNone_iff_eq_none.mpr (Race.arrive_cases hrace).1
  have hturn {f : SendBundle → String → Region → Option SendBundle}
      (hf : ∀ endpoint r, (f call endpoint r).isSome) : (turn (lastState p₀ tr) c i f).isSome := by
    rw [turn_eq hc hregion, Option.isSome_map]
    exact hf _ _
  refine ⟨i, ?_⟩
  by_cases hasked : i ∈ call.asks.map Ask.region
  · refine Or.inr ?_
    by_cases hposted : i ∈ call.posted
    · refine Or.inr fun r => hturn fun endpoint region => ?_
      have hreplies : i ∈ call.repliers r := by
        cases r with
        | accepted => exact hposted
        | timedOut | failed => exact hasked
      rw [SendBundle.hear, if_pos hreplies, Option.isSome_map]
      exact harrive _
    · refine Or.inl (hturn fun endpoint region => ?_)
      rw [SendBundle.post, if_pos ⟨hwon, hi, hasked, hposted⟩]
      rfl
  · refine Or.inl (hturn fun endpoint region => ?_)
    rw [SendBundle.ask, if_pos ⟨hwon, hi, hasked⟩]
    split
    · rfl
    · rw [Option.isSome_map]
      exact harrive _

private theorem stops_of_returns {p : State} (hc : p.threads[c]? = some (.ok call)) (h : call.returns.isSome)
    (i : Nat) (r : SendReply) : step parses p (.ask c i) = none ∧ step parses p (.post c i) = none ∧
      step parses p (.reply c i r) = none := by
  have hnot := not_running (i := i) h
  refine ⟨turn_eq_none hc fun endpoint region => ?_, turn_eq_none hc fun endpoint region => ?_,
    turn_eq_none hc fun endpoint region => ?_⟩
  · exact if_neg fun hcond => hnot ⟨hcond.1, hcond.2.1⟩
  · exact if_neg fun hcond => hnot ⟨hcond.1, hcond.2.1⟩
  · rw [SendBundle.hear, Race.arrive, if_neg hnot, Option.map_none, ite_self]

/-- A client has at least one region, each as it was connected. -/
theorem new_ok {endpoints : List (String × Except String Connection)} {client : JitoGrpcClient}
    (h : JitoGrpcClient.new endpoints = .ok client) :
    client.regions ≠ [] ∧ ∀ e ∈ client.regions, ∃ c, (e.1, .ok c) ∈ endpoints ∧ e.2 = c.region := by
  unfold JitoGrpcClient.new at h
  dsimp only at h
  split at h
  · cases h
  · next hne =>
    cases h
    refine ⟨fun hnil => hne (List.isEmpty_iff.mpr hnil), ?_⟩
    intro e he
    obtain ⟨⟨endpoint, result⟩, hmem, hmap⟩ := List.mem_filterMap.mp he
    obtain ⟨c, hresult, rfl⟩ := Option.map_eq_some_iff.mp hmap
    cases result with
    | error e => cases hresult
    | ok c' =>
      cases hresult
      exact ⟨c, hmem, rfl⟩

/-- Each region of the client has a connection of its own. -/
theorem exists_connections {endpoints : List (String × Except String Connection)} {client : JitoGrpcClient}
    (h : JitoGrpcClient.new endpoints = .ok client) : ∃ conn : Nat → Connection, ∀ i endpoint r,
      client.regions[i]? = some (endpoint, r) →
        (endpoint, .ok (conn i)) ∈ endpoints ∧ r = (conn i).region := by
  have hex (i : Nat) : ∃ c, ∀ endpoint r, client.regions[i]? = some (endpoint, r) →
      (endpoint, .ok c) ∈ endpoints ∧ r = Connection.region c := by
    cases hi : client.regions[i]? with
    | none => exact ⟨⟨.error "", 0, 0⟩, fun _ _ hr => by cases hr⟩
    | some e =>
      obtain ⟨c, hc⟩ := (new_ok h).2 e (List.mem_of_getElem? hi)
      refine ⟨c, fun endpoint r hr => ?_⟩
      cases hr
      exact hc
  choose conn hconn using hex
  exact ⟨conn, hconn⟩

end Runs

def loopSteps (i : Nat) (tr : List (Action × State)) : List (LoopAction × Region) :=
  tr.filterMap fun e => match e.1 with
    | .loop j a => if j = i then (e.2.shared.regions[i]?).map fun r => (a, r.2) else none
    | _ => none

def RegionsMeet (Q : Nat → Region → Prop) (p : State) : Prop :=
  ∀ (i : Nat) (endpoint : String) (r : Region), p.shared.regions[i]? = some (endpoint, r) → Q i r

/-- What every region met when a call asked it, and the requests that came of it. -/
def AsksMeet (parses : String → Bool) (Q : Nat → Region → Prop) (p : State) : Prop :=
  ∀ (c : Nat) (call : SendBundle), p.threads[c]? = some (.ok call) →
    ∀ x ∈ call.asks, LooksUp parses x.looked x.request ∧ Q x.region x.looked

/-- The requests that leave in a step. -/
def leaving (p : State) : Action → List (Act Region SendBundleRequest)
  | .post c i =>
    match p.threads[c]?, p.shared.regions[i]? with
    | some (.ok call), some (_, r) =>
      (call.asks.filter fun x => x.region = i).map fun x => ⟨x.request, x.looked, r⟩
    | _, _ => []
  | _ => []

section Loops
variable {parses : String → Bool} {p p' : State} {a : Action} {tr : List (Action × State)} {i : Nat}
  {endpoint : String} {r : Region} {Q : Nat → Region → Prop}

theorem leaving_cases {x : Act Region SendBundleRequest} (h : x ∈ leaving p a) :
    ∃ (c : Nat) (call : SendBundle) (y : Ask) (endpoint : String), p.threads[c]? = some (.ok call) ∧
      y ∈ call.asks ∧ p.shared.regions[y.region]? = some (endpoint, x.acted) ∧
        x.seen = y.request ∧ x.looked = y.looked := by
  cases a with
  | post c i =>
    simp only [leaving] at h
    split at h
    · next call endpoint r hc hi =>
      obtain ⟨y, hy, rfl⟩ := List.mem_map.mp h
      obtain ⟨hmem, hregion⟩ := List.mem_filter.mp hy
      rw [← of_decide_eq_true hregion] at hi
      exact ⟨c, call, y, endpoint, hc, hmem, hi, rfl, rfl⟩
    · cases h
  | loop | call | ask | reply => cases h

private theorem Moves.region (h : Moves parses p a p') (hi : p.shared.regions[i]? = some (endpoint, r))
    (tr : List (Action × State)) :
    (∃ b r', r.step b = some r' ∧ p'.shared.regions[i]? = some (endpoint, r') ∧
      loopSteps i ((a, p') :: tr) = (b, r') :: loopSteps i tr) ∨
      (p'.shared.regions[i]? = some (endpoint, r) ∧ loopSteps i ((a, p') :: tr) = loopSteps i tr) := by
  cases h with
  | @loop j b endpoint' r₁ r' hj hr =>
    by_cases hji : j = i
    · subst hji
      cases hi.symm.trans hj
      refine Or.inl ⟨b, r', hr, ?_⟩
      have hlt : j < p.shared.regions.length := (List.getElem?_eq_some_iff.mp hi).1
      simp [loopSteps, hlt]
    · refine Or.inr ?_
      simp [loopSteps, hji, hi]
  | call | ask | post | reply => exact Or.inr ⟨hi, rfl⟩

/-- The loops of the regions run as they do alone. -/
theorem IsLoopRun.of_run (h : AllSteps (fun p a p' => step parses p a = some p') p tr)
    (hi : p.shared.regions[i]? = some (endpoint, r)) : IsLoopRun r (loopSteps i tr) := by
  induction tr generalizing p r with
  | nil => trivial
  | cons e tr ih =>
    rcases (step_cases h.1).region hi tr with ⟨b, r', hr, hi', he⟩ | ⟨hi', he⟩
    · rw [he]
      exact ⟨hr, ih h.2 hi'⟩
    · rw [he]
      exact ih h.2 hi'

private theorem Moves.regions_length (h : Moves parses p a p') :
    p'.shared.regions.length = p.shared.regions.length := by
  cases h with
  | loop => exact List.length_set
  | call | ask | post | reply => rfl

/-- What the regions meet at the start and after each step of their loops, they meet
whenever the client takes a step. -/
theorem allSteps_regions (h : AllSteps (fun p a p' => step parses p a = some p') p tr)
    (hall : ∀ i endpoint r, p.shared.regions[i]? = some (endpoint, r) →
      Q i r ∧ ∀ e ∈ loopSteps i tr, Q i e.2) : AllSteps (fun p _ _ => RegionsMeet Q p) p tr := by
  induction tr generalizing p with
  | nil => trivial
  | cons e tr ih =>
    refine ⟨fun i endpoint r hi => (hall i endpoint r hi).1, ih h.2 ?_⟩
    intro i endpoint r hi
    have hlt : i < p.shared.regions.length := by
      rw [← (step_cases h.1).regions_length]
      exact (List.getElem?_eq_some_iff.mp hi).1
    have hold := List.getElem?_eq_getElem hlt
    obtain ⟨hq, hrest⟩ := hall i _ _ hold
    rcases (step_cases h.1).region hold tr with ⟨b, r', _, hi', he⟩ | ⟨hi', he⟩
    · rw [he, List.forall_mem_cons] at hrest
      cases hi.symm.trans hi'
      exact hrest
    · rw [he] at hrest
      cases hi.symm.trans hi'
      exact ⟨hq, hrest⟩

private theorem AsksMeet.update {c : Nat} {call' : SendBundle} (h : AsksMeet parses Q p)
    (hcall : ∀ x ∈ call'.asks, LooksUp parses x.looked x.request ∧ Q x.region x.looked) :
    AsksMeet parses Q (p.update c p.shared (.ok call')) := by
  intro c' call hc'
  rcases Pool.getElem?_update hc' with ⟨_, heq⟩ | hc'
  · cases heq
    exact hcall
  · exact h c' call hc'

private theorem AsksMeet.step (h : AsksMeet parses Q p) (hq : RegionsMeet Q p) (hs : Moves parses p a p') :
    AsksMeet parses Q p' := by
  cases hs with
  | loop => exact h
  | @call serialized =>
    intro c call hc
    rcases Pool.getElem?_spawn hc with ⟨_, hcall⟩ | hc
    · cases serialized with
      | none => cases hcall
      | some txBytes =>
        cases hcall
        exact fun x hx => absurd hx List.not_mem_nil
    · exact h c call hc
  | ask hc hi ha =>
    have hold := h _ _ hc
    refine h.update ?_
    obtain ⟨_, ⟨req, hreq, rfl⟩ | ⟨e, race, _, rfl⟩⟩ := SendBundle.ask_cases ha
    · exact List.forall_mem_append.mpr ⟨hold, List.forall_mem_singleton.mpr ⟨⟨_, hreq⟩, hq _ _ _ hi⟩⟩
    · exact hold
  | post hc hi hp =>
    have hold := h _ _ hc
    obtain ⟨_, _, rfl⟩ := SendBundle.post_cases hp
    exact h.update hold
  | reply hc hi hh =>
    have hold := h _ _ hc
    obtain ⟨_, race, _, rfl⟩ := SendBundle.hear_cases hh
    exact h.update hold

/-- A region whose first handshake failed never holds a token. -/
theorem connectRegion_error_tokens {e : String} {nowSecs monotonic : Nat}
    {tr : List (LoopAction × Region)} (h : IsLoopRun (connectRegion (.error e) nowSecs monotonic) tr) :
    ∀ x ∈ tr, x.2.tokens = none ∧ x.2.pc = .absent :=
  AllSteps.forall_states (I := fun r : Region => r.tokens = none ∧ r.pc = .absent) h ⟨rfl, rfl⟩ (by
    rintro r a r' ⟨htokens, hpc⟩ hs
    cases Region.step_cases hs with
    | tick => exact ⟨htokens, hpc⟩
    | _ => simp_all)

/-- A region connected like this one holds no token, or keeps up with its renewals. -/
def Sound (slack : Nat) (c : Connection) (r : Region) : Prop :=
  match c.first with
  | .error _ => r.tokens = none
  | .ok _ => KeepsUp slack c.monotonic c.nowSecs r

theorem Sound.proper {slack delay : Nat} {c : Connection} {now : Region} {req : SendBundleRequest}
    (hslack : slack + delay ≤ 60) (h : Sound slack c r) (hnow : Sound slack c now)
    (hreq : LooksUp parses r req) (hp : Prompt (some delay) r now) : Proper 3 ⟨req, r, now⟩ := by
  unfold Sound at h hnow
  split at h
  · next hfirst =>
    obtain ⟨txBytes, hreq⟩ := hreq
    rw [sendToRegion, h] at hreq
    cases hreq
    exact ⟨fun t _ hauth => (by cases hauth), fun _ => rfl⟩
  · next hfirst =>
    rw [hfirst] at hnow
    exact KeepsUp.proper hslack h hnow hp

theorem Sound.of_run {slack : Nat} {c : Connection} {tr : List (LoopAction × Region)} (hpos : 0 < slack)
    (hslack : slack ≤ 60) (hlife : ∀ t, c.first = .ok t → c.nowSecs + slack + 70 ≤ t.accessExpiresAt)
    (h : IsLoopRun c.region tr) (ht : c.region.tokens.isSome → InTime slack c.region tr) :
    Sound slack c c.region ∧ ∀ e ∈ tr, Sound slack c e.2 := by
  obtain ⟨first, nowSecs, monotonic⟩ := c
  cases first with
  | error e => exact ⟨rfl, fun x hx => (connectRegion_error_tokens h x hx).1⟩
  | ok t => exact InTime.keepsUp hpos hslack (hlife t rfl) h (ht rfl)

end Loops

/-- New York authenticates, and Salt Lake City, a second later, does not. -/
def sampleEndpoints : List (String × Except String Connection) :=
  [("ny", .ok ⟨.ok ⟨"a", 1200, "r", 9000⟩, 1000, 0⟩), ("tokyo", .error "failed to connect"),
    ("slc", .ok ⟨.error "pubkey not approved", 1001, 1⟩)]

def sampleClient : JitoGrpcClient :=
  ⟨[("ny", retriedRegion), ("slc", connectRegion (.error "pubkey not approved") 1001 1)]⟩

def sampleRun (actions : List Action) : List (Action × State) :=
  follow (step visibleAscii) ⟨sampleClient, []⟩ actions

def secondAccepts : List Action :=
  [.call (some [1, 2, 3]), .ask 0 1, .ask 0 0, .post 0 0, .post 0 1, .reply 0 0 .timedOut,
    .reply 0 1 (.accepted "id")]

/-- Bundles before and after a renewal that takes two attempts. The first leaves a second after
its token was looked up. -/
def renewedBetween : List Action :=
  [.call (some [1, 2, 3]), .ask 0 0, .loop 0 (.tick 1 1001), .post 0 0, .ask 0 1, .post 0 1, .loop 0 .go,
    .loop 0 (.tick 139 1140)] ++ (retried.drop 2).map (.loop 0) ++ [.call (some [4]), .ask 1 0, .post 1 0]

end SolanaArbBot.JitoGrpc
