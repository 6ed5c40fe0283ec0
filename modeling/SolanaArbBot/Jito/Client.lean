import SolanaArbBot.Lib.Base64
import SolanaArbBot.Lib.Race
import SolanaArbBot.Lib.Runs

/-! The REST client of the block engine. A bundle is posted to all endpoints side by side,
and the first of them that accepts it decides. -/
namespace SolanaArbBot.Jito
open Lib

structure JitoClient where
  bundleUrls : List String

def trimEndSlashes (url : String) : String := String.ofList (url.toList.rdropWhile (· == '/'))

def JitoClient.new (baseUrls : List String) (uuid : String) : JitoClient where
  bundleUrls := baseUrls.map fun url => trimEndSlashes url ++ "/api/v1/bundles?uuid=" ++ uuid

structure SendBundleConfig where
  encoding : String

structure SendBundleRpcRequest where
  jsonrpc : String
  id : Nat
  method : String
  params : List String × SendBundleConfig

structure RpcError where
  code : Int
  message : String

structure RpcResponse where
  result : Option String
  error : Option RpcError

/-- A status, and how it is shown. -/
structure StatusCode where
  code : Nat
  text : String

def StatusCode.isSuccess (status : StatusCode) : Bool := decide (200 ≤ status.code ∧ status.code < 300)

/-- What comes of a request: it fails, or it is answered, with a body that can be read or not. -/
inductive HttpReply where
  | failed
  | response (status : StatusCode) (body : Option String)

def bundleRequest (txBytes : List UInt8) : SendBundleRpcRequest where
  jsonrpc := "2.0"
  id := 1
  method := "sendBundle"
  params := ([Base64.encode txBytes], ⟨"base64"⟩)

section Endpoint
variable (parse : String → Option RpcResponse)

def sendToEndpoint (url : String) : HttpReply → Except String String
  | .failed => .error s!"Jito sendBundle to {url} failed"
  | .response status body =>
    let text := body.getD ""
    if status.isSuccess = false then .error s!"Jito HTTP error at {url}: {status.text} -- {text}"
    else
      match body.bind parse with
      | none => .error "failed to parse Jito response"
      | some rpcResp =>
        match rpcResp.error, rpcResp.result with
        | some err, _ => .error s!"Jito RPC error at {url}: code={err.code}, message={err.message}"
        | none, none => .error "Jito returned no result and no error"
        | none, some bundleId => .ok bundleId

def Accepts (reply : HttpReply) (bundleId : String) : Prop :=
  ∃ status body, reply = .response status (some body) ∧ status.isSuccess ∧
    parse body = some ⟨some bundleId, none⟩

/-- A call that is under way: what is posted, and to whom. -/
structure SendBundle where
  request : SendBundleRpcRequest
  race : Race String String String

def JitoClient.sendBundle (client : JitoClient) : Option (List UInt8) → Except String SendBundle
  | none => .error "failed to serialize transaction"
  | some txBytes => .ok ⟨bundleRequest txBytes, .start client.bundleUrls⟩

def SendBundle.step (call : SendBundle) (reply : String × HttpReply) : Option SendBundle :=
  (call.race.arrive reply.1 (sendToEndpoint parse reply.1 reply.2)).map fun race => { call with race := race }

def SendBundle.returns (call : SendBundle) : Option (Except String String) :=
  call.race.outcome "no Jito endpoints configured"

end Endpoint

section Calls
variable {parse : String → Option RpcResponse} {client : JitoClient} {call call' : SendBundle}
  {txBytes : List UInt8} {tr : List ((String × HttpReply) × SendBundle)}

def IsCall (parse : String → Option RpcResponse) (call : SendBundle)
    (tr : List ((String × HttpReply) × SendBundle)) : Prop :=
  AllSteps (fun call reply call' => call.step parse reply = some call') call tr

theorem sendToEndpoint_ok_iff {url bundleId : String} {reply : HttpReply} :
    sendToEndpoint parse url reply = .ok bundleId ↔ Accepts parse reply bundleId := by
  constructor
  · intro h
    cases reply with
    | failed => cases h
    | response status body =>
      simp only [sendToEndpoint] at h
      split at h
      · cases h
      · next hstatus =>
        split at h
        · cases h
        · next rpcResp hparse =>
          obtain ⟨text, rfl, htext⟩ := Option.bind_eq_some_iff.mp hparse
          split at h
          · cases h
          · cases h
          · next herror hresult =>
            cases h
            refine ⟨status, text, rfl, Bool.not_eq_false _ ▸ hstatus, ?_⟩
            rw [htext, ← hresult, ← herror]
  · rintro ⟨status, body, rfl, hstatus, hparse⟩
    simp [sendToEndpoint, hstatus, hparse]

private theorem sendToEndpoint_error {url : String} {reply : HttpReply} {e : String}
    (h : sendToEndpoint parse url reply = .error e) (bundleId : String) : ¬ Accepts parse reply bundleId := by
  intro ha
  rw [sendToEndpoint_ok_iff.mpr ha] at h
  cases h

/-- The record of the race is what the endpoints replied. -/
def arrivals (parse : String → Option RpcResponse) (replies : List (String × HttpReply)) :
    List (String × Except String String) := replies.map fun c => (c.1, sendToEndpoint parse c.1 c.2)

/-- The race so far is fair, and what it knows is what the endpoints replied. -/
structure Reported (parse : String → Option RpcResponse) (urls : List String)
    (replies : List (String × HttpReply)) (call : SendBundle) : Prop where
  fair : call.race.Fair urls
  arrived : call.race.arrived = arrivals parse replies

theorem Reported.step {urls : List String} {replies : List (String × HttpReply)} {reply : String × HttpReply}
    (h : Reported parse urls replies call) (hs : call.step parse reply = some call') :
    Reported parse urls (replies ++ [reply]) call' := by
  obtain ⟨race, harrive, rfl⟩ := Option.map_eq_some_iff.mp hs
  refine ⟨h.fair.arrive harrive, ?_⟩
  obtain ⟨_, _, _, harrived, _⟩ := Race.arrive_cases harrive
  rw [harrived, h.arrived, arrivals, arrivals, List.map_append]
  rfl

theorem IsCall.reported (h : IsCall parse ⟨bundleRequest txBytes, .start client.bundleUrls⟩ tr) :
    Reported parse client.bundleUrls (labels tr)
      (lastState ⟨bundleRequest txBytes, .start client.bundleUrls⟩ tr) := by
  refine AllSteps.history (P := fun tr call => Reported parse client.bundleUrls (labels tr) call) h ?_ ?_
  · exact ⟨Race.Fair.start _, rfl⟩
  · intro tr reply call' hr hs
    rw [labels_append]
    exact hr.step hs

private theorem arrivals_eq_append {replies : List (String × HttpReply)}
    {before : List (String × Except String String)} {c : String × Except String String}
    (h : arrivals parse replies = before ++ [c]) :
    ∃ replies' reply, replies = replies' ++ [reply] ∧ arrivals parse replies' = before ∧
      (reply.1, sendToEndpoint parse reply.1 reply.2) = c := by
  obtain ⟨replies', last, rfl, hbefore, hlast⟩ := List.map_eq_append_iff.mp h
  obtain ⟨reply, rfl, hreply⟩ := List.map_eq_singleton_iff.mp hlast
  exact ⟨replies', reply, rfl, hbefore, hreply⟩

private theorem not_accepts_of_arrivals {replies : List (String × HttpReply)}
    (h : ∀ c ∈ arrivals parse replies, ∃ e, c.2 = .error e) :
    ∀ c ∈ replies, ∀ bundleId, ¬ Accepts parse c.2 bundleId := by
  intro c hc
  obtain ⟨e, he⟩ := h _ (List.mem_map_of_mem hc)
  exact sendToEndpoint_error he

/-- What send_bundle returns after these replies, and that until then it takes any further
one from some endpoint that is still out. -/
structure Returns (parse : String → Option RpcResponse) (client : JitoClient)
    (replies : List (String × HttpReply)) (call : SendBundle) : Prop where
  ok : ∀ bundleId, call.returns = some (.ok bundleId) → ∃ before url reply,
    replies = before ++ [(url, reply)] ∧ url ∈ client.bundleUrls ∧ Accepts parse reply bundleId ∧
      ∀ c ∈ before, ∀ bundleId, ¬ Accepts parse c.2 bundleId
  error : ∀ e, call.returns = some (.error e) → (replies.map Prod.fst).Perm client.bundleUrls ∧
    (∀ c ∈ replies, ∀ bundleId, ¬ Accepts parse c.2 bundleId) ∧
    ((client.bundleUrls = [] ∧ e = "no Jito endpoints configured") ∨
      ∃ before url reply, replies = before ++ [(url, reply)] ∧ sendToEndpoint parse url reply = .error e)
  waits : call.returns = none → ∃ url ∈ client.bundleUrls, ∀ reply, (call.step parse (url, reply)).isSome

private theorem Reported.returns {replies : List (String × HttpReply)}
    (hr : Reported parse client.bundleUrls replies call) : Returns parse client replies call := by
  refine ⟨?_, ?_, ?_⟩
  · intro bundleId hok
    obtain ⟨before, url, harrived, hfailed⟩ := hr.fair.outcome_ok hok
    rw [hr.arrived] at harrived
    obtain ⟨replies, ⟨url', reply⟩, rfl, rfl, hlast⟩ := arrivals_eq_append harrived
    obtain ⟨rfl, hreply⟩ := Prod.mk.inj hlast
    have hurl : url' ∈ client.bundleUrls := by
      apply hr.fair.everyone.subset
      rw [hr.arrived, harrived]
      exact List.mem_append_left _ (List.mem_map_of_mem (List.mem_append_right _ List.mem_cons_self))
    exact ⟨replies, url', reply, rfl, hurl, sendToEndpoint_ok_iff.mp hreply, not_accepts_of_arrivals hfailed⟩
  · intro e herror
    obtain ⟨heveryone, hfailed, hlast⟩ := hr.fair.outcome_error herror
    rw [hr.arrived] at heveryone hfailed hlast
    refine ⟨?_, not_accepts_of_arrivals hfailed, ?_⟩
    · rw [arrivals, List.map_map] at heveryone
      exact heveryone
    · rcases hlast with hnone | ⟨before, url, harrived⟩
      · exact Or.inl hnone
      · obtain ⟨replies, ⟨url', reply⟩, hlabels, _, hlast⟩ := arrivals_eq_append harrived
        obtain ⟨rfl, hreply⟩ := Prod.mk.inj hlast
        exact Or.inr ⟨replies, url', reply, hlabels, hreply⟩
  · intro hnone
    obtain ⟨url, hpending, harrive⟩ := Race.arrive_isSome hnone
    refine ⟨url, hr.fair.everyone.subset (List.mem_append_right _ hpending), ?_⟩
    intro reply
    rw [SendBundle.step, Option.isSome_map]
    exact harrive _

end Calls

def sampleParse (body : String) : Option RpcResponse :=
  if body = "accepted" then some ⟨some "id", none⟩ else some ⟨none, some ⟨-32097, body⟩⟩

def sampleClient : JitoClient := .new ["https://ny.block/", "https://slc.block"] "u"

/-- New York is busy, and Salt Lake City accepts. -/
def sampleReplies : List (String × HttpReply) :=
  [("https://ny.block/api/v1/bundles?uuid=u", .response ⟨429, "429 Too Many Requests"⟩ none),
    ("https://slc.block/api/v1/bundles?uuid=u", .response ⟨200, "200 OK"⟩ (some "accepted"))]

end SolanaArbBot.Jito
