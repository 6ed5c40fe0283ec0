import SolanaArbBot.JitoGrpc.Tokens

/-! What follows an empty refresh reply. The loop goes back to its top, and whether
it authenticates next is decided by the refresh token's lifetime when it wakes. -/
namespace SolanaArbBot.JitoGrpc
open Lib

/-- A handshake is owed from an empty reply until the next one is begun. -/
def owes (owed : Bool) (a : LoopAction) (r : Region) : Bool :=
  match r.pc, a with
  | .authenticating, _ => false
  | _, .refresh (.ok none) => true
  | _, _ => owed

def requestsRefresh (r : Region) : LoopAction → Bool
  | .go => decide (r.pc = .takeRefresh) && r.tokens.isSome
  | _ => false

/-- No refresh is requested while a handshake is owed. -/
def ReauthFirst (r : Region) (tr : List (LoopAction × Region)) : Prop :=
  AllSteps (fun w a _ => requestsRefresh w.1 a → w.2 = false) (r, false) (annotate owes false tr)

/-- A loop that wakes owing a handshake finds its refresh token about to expire. -/
def wakesShort (w : Region × Bool) (a : LoopAction) : Bool :=
  match w.1.pc, a with
  | .sleeping _, .go => !w.2 || needsFullReauth w.1.tokens w.1.nowSecs
  | _, _ => true

def ShortWhenOwed (r : Region) (tr : List (LoopAction × Region)) : Prop :=
  AllSteps (fun w a _ => wakesShort w a) (r, false) (annotate owes false tr)

/-- While a handshake is owed the loop is on its way to its next decision. -/
def Waiting (w : Region × Bool) : Prop :=
  w.2 = true → w.1.pc = .top ∨ ∃ wake, w.1.pc = .sleeping wake

/-- The loop has decided on another refresh while a handshake is owed. -/
def Late (w : Region × Bool) : Prop :=
  w.2 = true ∧ w.1.pc = .takeRefresh ∧ w.1.tokens.isSome = true

section Steps
variable {r r' : Region} {owed : Bool} {a : LoopAction}

private theorem waiting_step (hs : r.step a = some r') (hw : Waiting (r, owed))
    (hc : wakesShort (r, owed) a) : Waiting (r', owes owed a r') := by
  cases Region.step_cases hs with
  | tick =>
    intro ho
    refine hw ?_
    unfold owes at ho
    split at ho
    · cases ho
    · contradiction
    · exact ho
  | sleep => exact fun _ => Or.inr ⟨_, rfl⟩
  | wakeToAuth => exact fun ho => Bool.noConfusion ho
  | wakeToRefresh hpc _ hlong =>
    intro ho
    have hshort : (!owed || needsFullReauth r.tokens r.nowSecs) = true := by
      simpa only [wakesShort, hpc] using hc
    rw [show owed = true from ho] at hshort
    exact absurd hshort hlong
  | store | storeAccess | resume | refreshEmpty => exact fun _ => Or.inl rfl
  | sendRefresh hpc | noRefresh hpc | authenticated hpc | authFailed hpc | refreshed hpc =>
    intro ho
    rcases hw ho with h | ⟨_, h⟩ <;> cases hpc.symm.trans h
  | refreshFailed => exact fun ho => Bool.noConfusion ho

private theorem late_step (hs : r.step a = some r') (hl : Late (r, owed))
    (hp : requestsRefresh r a → owed = false) : Late (r', owes owed a r') := by
  obtain ⟨ho, hpc, ht⟩ := hl
  dsimp only at ho hpc ht
  subst ho
  cases Region.step_cases hs with
  | tick => exact ⟨by simp only [owes, hpc], hpc, ht⟩
  | sendRefresh | noRefresh =>
    have hreq : requestsRefresh r .go := by
      simp only [requestsRefresh, hpc, ht, decide_true, Bool.and_self]
    cases hp hreq
  | sleep h | wakeToAuth h | wakeToRefresh h | store h | storeAccess h | resume h | authenticated h
  | authFailed h | refreshFailed h | refreshEmpty h | refreshed h => cases hpc.symm.trans h

private theorem late_of_wake (hs : r.step a = some r') (hc : ¬ wakesShort (r, owed) a) :
    Late (r', owes owed a r') := by
  cases Region.step_cases hs with
  | wakeToRefresh hpc _ hlong =>
    have hnot : ¬ (!owed || needsFullReauth r.tokens r.nowSecs) = true := by
      simpa only [wakesShort, hpc] using hc
    rw [Bool.or_eq_true, not_or, Bool.not_eq_true', Bool.not_eq_false] at hnot
    refine ⟨hnot.1, rfl, ?_⟩
    cases ht : r.tokens with
    | none =>
      rw [ht] at hlong
      exact absurd rfl hlong
    | some t => rfl
  | wakeToAuth hpc _ hshort =>
    simp only [wakesShort, hpc, hshort, Bool.or_true, not_true_eq_false] at hc
  | sleep hpc | store hpc | sendRefresh hpc | noRefresh hpc | storeAccess hpc | resume hpc =>
    simp [wakesShort, hpc] at hc
  | tick | authenticated | authFailed | refreshFailed | refreshEmpty | refreshed =>
    simp [wakesShort] at hc

end Steps

section Runs
variable {r : Region} {tr : List (LoopAction × Region)}

private theorem reauthFirst_of_wakes (h : IsLoopRun r tr) (hshort : ShortWhenOwed r tr) :
    ReauthFirst r tr := by
  have hinv := ((h.annotate owes false).and hshort).withInvariant (I := Waiting)
    (fun ho => Bool.noConfusion ho) (by
      rintro ⟨r, owed⟩ a ⟨r', owed'⟩ hw ⟨⟨hs, hn⟩, hc⟩
      dsimp only at hn
      subst hn
      exact waiting_step hs hw hc)
  refine hinv.mono ?_
  rintro ⟨r, owed⟩ a w' ⟨hw, _⟩ hreq
  cases owed with
  | false => rfl
  | true =>
    cases a with
    | go =>
      rw [requestsRefresh, Bool.and_eq_true, decide_eq_true_eq] at hreq
      rcases hw rfl with hpc | ⟨_, hpc⟩ <;> cases hpc.symm.trans hreq.1
    | _ => cases hreq

/-- Where no refresh was requested too early, the run has woken short every time, or
has just decided on such a request. -/
private theorem short_or_late (h : IsLoopRun r tr) (hfirst : ReauthFirst r tr) :
    ShortWhenOwed r tr ∨ Late (lastState (r, false) (annotate owes false tr)) := by
  have hhist := (h.annotate owes false).history
    (P := fun tr w => AllSteps (fun w a _ => requestsRefresh w.1 a → w.2 = false) (r, false) tr →
      AllSteps (fun w a _ => wakesShort w a) (r, false) tr ∨ Late w)
    (fun _ => Or.inl trivial) (by
      rintro tr a ⟨r', owed'⟩ ih ⟨hs, hn⟩ hp
      obtain ⟨hbefore, hreq, _⟩ := allSteps_append.mp hp
      dsimp only at hn
      subst hn
      rcases ih hbefore with hc | hl
      · by_cases hw : wakesShort (lastState (r, false) tr) a
        · exact Or.inl (allSteps_append.mpr ⟨hc, hw, trivial⟩)
        · exact Or.inr (late_of_wake hs hw)
      · exact Or.inr (late_step hs hl hreq))
  exact hhist hfirst

end Runs

/-- In every run in which the loop, whenever it wakes owing a handshake, finds its
refresh token about to expire, no refresh is requested before the handshake; and unless
the run stops right before a request, in no other run. -/
theorem reauthFirst_of_short {r : Region} {tr : List (LoopAction × Region)} (h : IsLoopRun r tr) :
    (ShortWhenOwed r tr → ReauthFirst r tr) ∧
      ((lastState r tr).pc ≠ .takeRefresh → ReauthFirst r tr → ShortWhenOwed r tr) := by
  refine ⟨reauthFirst_of_wakes h, ?_⟩
  intro hend hfirst
  rcases short_or_late h hfirst with hc | hl
  · exact hc
  · rw [← lastState_annotate owes r false tr] at hend
    exact absurd hl.2.1 hend

def reauthRegion (refreshExpiresAt : Nat) : Region :=
  connectRegion (.ok ⟨"a", 1100, "r", refreshExpiresAt⟩) 1000 0

/-- An empty reply, and the next time the loop wakes. -/
def emptyReply : List LoopAction :=
  [.go, .tick 40 1040, .go, .go, .refresh (.ok none), .go, .tick 10 1050, .go]

/-- The refresh token runs out before the loop wakes again. -/
theorem reauthFirst_short :
    ReauthFirst (reauthRegion 1165) (follow Region.step (reauthRegion 1165) emptyReply) :=
  (reauthFirst_of_short (allSteps_follow _ _ _)).1 (by
    unfold ShortWhenOwed
    decide)

/-- A refresh token that lasts is sent again. -/
theorem empty_reply_refreshes_again :
    ∃ tr, IsLoopRun (reauthRegion 9000) tr ∧ labels tr = emptyReply ++ [.go] ∧
      ¬ ReauthFirst (reauthRegion 9000) tr := by
  refine ⟨follow Region.step (reauthRegion 9000) (emptyReply ++ [.go]), allSteps_follow _ _ _, rfl, ?_⟩
  unfold ReauthFirst
  decide

end SolanaArbBot.JitoGrpc
