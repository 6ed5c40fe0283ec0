import SolanaArbBot.AccountCache.Cache

/-! When the cache holds the newest account received for each key. Whoever inserts
last wins, so it depends on the order in which accounts arrive. -/
namespace SolanaArbBot.AccountCache
open Lib Transaction

/-- Nothing received for the key is newer than the account. -/
def NoNewer (s : Shared) (pubkey : Pubkey) (account : Account) : Prop :=
  ∀ b ∈ s.received pubkey, b.slot ≤ account.slot

/-- What is cached for the key was received for it, and is the newest of that. -/
def CurrentAt (s : Shared) (pubkey : Pubkey) : Prop :=
  ∀ a, s.inner.get pubkey = some a → a ∈ s.received pubkey ∧ NoNewer s pubkey a

/-- The cache has not gone back in time for any key. -/
def Current (s : Shared) : Prop := ∀ pubkey, CurrentAt s pubkey

/-- A fetched account that arrives is no newer than what was cached in the
meantime, if anything was, and one that is inserted has nothing newer beside it. -/
def Caller.InOrder (s : Shared) (reply : Option Account) : Caller → Prop
  | .read pk _ => ∀ a ∈ reply, ∀ c ∈ s.inner.get pk, a.slot ≤ c.slot
  | .insert pk a _ => NoNewer s pk a
  | _ => True

/-- The step comes in the order of slots; so does a streamed account when nothing
newer was received for its key. -/
def InOrder (p : State) : Action → Prop
  | .update u => ∀ x ∈ u.brings, NoNewer p.shared x.1 x.2
  | .act i reply => ∀ c ∈ p.threads[i]?, c.InOrder p.shared reply
  | _ => True

instance (s : Shared) (pubkey : Pubkey) (account : Account) : Decidable (NoNewer s pubkey account) :=
  inferInstanceAs (Decidable (∀ b ∈ s.received pubkey, b.slot ≤ account.slot))

instance (s : Shared) (reply : Option Account) : (c : Caller) → Decidable (c.InOrder s reply)
  | .read pk _ => inferInstanceAs (Decidable (∀ a ∈ reply, ∀ c ∈ s.inner.get pk, a.slot ≤ c.slot))
  | .insert pk a _ => inferInstanceAs (Decidable (NoNewer s pk a))
  | .check _ _ => isTrue trivial
  | .done => isTrue trivial

instance (p : State) : (act : Action) → Decidable (InOrder p act)
  | .update u => inferInstanceAs (Decidable (∀ x ∈ u.brings, NoNewer p.shared x.1 x.2))
  | .act i reply => inferInstanceAs (Decidable (∀ c ∈ p.threads[i]?, c.InOrder p.shared reply))
  | .connect => isTrue trivial
  | .disconnect => isTrue trivial
  | .call _ => isTrue trivial

variable {s : Shared} {pk : Pubkey} {a : Account}

theorem mem_receive {k : Pubkey} {b : Account} :
    b ∈ (s.receive pk a).received k ↔ b ∈ s.received k ∨ (k = pk ∧ b = a) := by
  by_cases hk : k = pk
  · simp [Shared.receive, hk]
  · simp [Shared.receive, hk]

theorem noNewer_receive : NoNewer (s.receive pk a) pk a ↔ NoNewer s pk a := by
  simp only [NoNewer, mem_receive]
  constructor
  · intro h b hb
    exact h b (Or.inl hb)
  · rintro h b (hb | ⟨_, rfl⟩)
    · exact h b hb
    · exact UInt64.le_refl _

theorem currentAt_receive_of_ne {k : Pubkey} (hk : k ≠ pk) :
    CurrentAt (s.receive pk a) k ↔ CurrentAt s k := by
  have hr : (s.receive pk a).received k = s.received k := if_neg hk
  simp only [CurrentAt, NoNewer, hr]
  exact Iff.rfl

/-- A received account leaves a current cache current when it is no newer than
what is cached. -/
theorem current_receive (h : Current s) :
    Current (s.receive pk a) ↔ ∀ c ∈ s.inner.get pk, a.slot ≤ c.slot := by
  constructor
  · intro h' c hc
    exact (h' pk c hc).2 a (mem_receive.mpr (Or.inr ⟨rfl, rfl⟩))
  · intro hc k c hk
    refine ⟨mem_receive.mpr (Or.inl (h k c hk).1), ?_⟩
    intro b hb
    rcases mem_receive.mp hb with hb | ⟨rfl, rfl⟩
    · exact (h k c hk).2 b hb
    · exact hc c hk

/-- An inserted account is current when nothing newer was received. -/
theorem current_insert (h : ∀ k, k ≠ pk → CurrentAt s k) (hm : a ∈ s.received pk) :
    Current (s.insert pk a) ↔ NoNewer s pk a := by
  have hself : (s.insert pk a).inner.get pk = some a := by
    rw [Shared.insert, HashMap.get_insert, if_pos rfl]
  constructor
  · intro h'
    exact (h' pk a hself).2
  · intro hn k c hk
    by_cases hkp : k = pk
    · subst hkp
      cases hself.symm.trans hk
      exact ⟨hm, hn⟩
    · rw [Shared.insert, HashMap.get_insert, if_neg hkp] at hk
      exact h k hkp c hk

/-- What callers are about to insert was received. -/
def Pending (p : State) : Prop :=
  ∀ pk a rest, Caller.insert pk a rest ∈ p.threads → a ∈ p.shared.received pk

theorem prefetch_ne_insert (pubkeys : List Pubkey) (rest : List Pubkey) :
    prefetch pubkeys ≠ .insert pk a rest := by
  cases pubkeys <;> exact Caller.noConfusion

/-- The account that a caller inserts next is the one it just received. -/
theorem advance_insert {reply : Option Account} {c c' : Caller} {s' : Shared} {rest : List Pubkey}
    (h : c.advance s reply = some (s', c')) (hc : c' = .insert pk a rest) : a ∈ s'.received pk := by
  subst hc
  cases c with
  | check k rest' =>
    rw [Caller.advance] at h
    split at h
    · exact absurd (Prod.mk.inj (Option.some.inj h)).2 (prefetch_ne_insert _ _)
    · cases h
  | read k rest' =>
    cases reply with
    | none => exact absurd (Prod.mk.inj (Option.some.inj h)).2 (prefetch_ne_insert _ _)
    | some b =>
      cases h
      exact mem_receive.mpr (Or.inr ⟨rfl, rfl⟩)
  | insert k b rest' => exact absurd (Prod.mk.inj (Option.some.inj h)).2 (prefetch_ne_insert _ _)
  | done => cases h

/-- What has been received stays received. -/
theorem advance_received {reply : Option Account} {c c' : Caller} {s' : Shared}
    (h : c.advance s reply = some (s', c')) {k : Pubkey} {b : Account} (hb : b ∈ s.received k) :
    b ∈ s'.received k := by
  cases c with
  | check k' rest' =>
    rw [Caller.advance] at h
    split at h <;> cases h <;> exact hb
  | read k' rest' =>
    cases reply with
    | none =>
      cases h
      exact hb
    | some b' =>
      cases h
      exact mem_receive.mpr (Or.inl hb)
  | insert k' b' rest' =>
    cases h
    exact hb
  | done => cases h

/-- A caller's step keeps a current cache current exactly when it is in order. -/
theorem advance_current_iff {reply : Option Account} {c c' : Caller} {s' : Shared} (hc : Current s)
    (hp : ∀ pk a rest, c = .insert pk a rest → a ∈ s.received pk)
    (h : c.advance s reply = some (s', c')) : Current s' ↔ c.InOrder s reply := by
  cases c with
  | check k rest =>
    rw [Caller.advance] at h
    split at h <;> cases h <;> exact iff_of_true hc trivial
  | read k rest =>
    cases reply with
    | none =>
      cases h
      exact iff_of_true hc fun a ha => absurd ha (by simp)
    | some b =>
      cases h
      simp only [Caller.InOrder, Option.mem_some_iff, forall_eq']
      exact current_receive hc
  | insert k b rest =>
    cases h
    exact current_insert (fun k _ => hc k) (hp k b rest rfl)
  | done => cases h

/-- A message inserts what it brings, and sets the slot counter aside from that. -/
theorem onUpdate_eq (s : Shared) (u : UpdateOneof) :
    ∃ slot, onUpdate s u =
      match u.brings with
      | some (pk, a) => ({ s with streamSlot := slot }.receive pk a).insert pk a
      | none => { s with streamSlot := slot } := by
  cases u with
  | account slot info => exact ⟨slot, rfl⟩
  | ping => exact ⟨s.streamSlot, rfl⟩
  | other => exact ⟨s.streamSlot, rfl⟩

variable {p p' : State} {act : Action}

inductive Moves (p : State) : Action → State → Prop where
  | connect : Moves p .connect { p with shared := { p.shared with connected := true } }
  | disconnect : Moves p .disconnect { p with shared := { p.shared with connected := false } }
  | update {u} : Moves p (.update u) { p with shared := onUpdate p.shared u }
  | call {pubkeys} : Moves p (.call pubkeys) (p.spawn (prefetch pubkeys))
  | act {i reply c s' c'} (hi : p.threads[i]? = some c)
    (ha : c.advance p.shared reply = some (s', c')) : Moves p (.act i reply) (p.update i s' c')

theorem step_cases (h : step p act = some p') : Moves p act p' := by
  cases act with
  | connect =>
    rw [step] at h
    split at h <;> cases h
    exact .connect
  | disconnect =>
    rw [step] at h
    split at h <;> cases h
    exact .disconnect
  | update u =>
    rw [step] at h
    split at h <;> cases h
    exact .update
  | call pubkeys =>
    cases h
    exact .call
  | act i reply =>
    rw [step] at h
    split at h
    · cases h
    · next c hi =>
      obtain ⟨⟨s', c'⟩, ha, rfl⟩ := Option.map_eq_some_iff.mp h
      exact .act hi ha

theorem Pending.step (h : Pending p) (hs : step p act = some p') : Pending p' := by
  intro pk a rest hm
  cases step_cases hs with
  | connect => exact h pk a rest hm
  | disconnect => exact h pk a rest hm
  | @update u =>
    obtain ⟨slot, hu⟩ := onUpdate_eq p.shared u
    have hold := h pk a rest hm
    dsimp only
    rw [hu]
    split
    · exact mem_receive.mpr (Or.inl hold)
    · exact hold
  | call =>
    rcases List.mem_append.mp hm with hm | hm
    · exact h pk a rest hm
    · exact absurd (List.mem_singleton.mp hm).symm (prefetch_ne_insert _ _)
  | act hi ha =>
    rcases Pool.mem_set hm with hc | hm
    · exact advance_insert ha hc.symm
    · exact advance_received ha (h pk a rest hm)

/-- From a current cache a step leads to a current one exactly when it is in order. -/
theorem current_step_iff (hp : Pending p) (hc : Current p.shared) (hs : step p act = some p') :
    Current p'.shared ↔ InOrder p act := by
  cases step_cases hs with
  | connect => exact iff_of_true hc trivial
  | disconnect => exact iff_of_true hc trivial
  | @update u =>
    obtain ⟨slot, hu⟩ := onUpdate_eq p.shared u
    simp only [hu, InOrder]
    split
    · next pk a hb =>
      have hother : ∀ k, k ≠ pk → CurrentAt ({ p.shared with streamSlot := slot }.receive pk a) k :=
        fun k hk => (currentAt_receive_of_ne hk).mpr (hc k)
      rw [current_insert hother (mem_receive.mpr (Or.inr ⟨rfl, rfl⟩)), noNewer_receive, hb]
      simp only [Option.mem_some_iff, forall_eq']
      exact Iff.rfl
    · next hb =>
      rw [hb]
      exact iff_of_true hc fun x hx => absurd hx (by simp)
  | call => exact iff_of_true hc trivial
  | @act i reply c s' c' hi ha =>
    have horder : InOrder p (.act i reply) ↔ c.InOrder p.shared reply := by
      simp only [InOrder, hi, Option.mem_some_iff, forall_eq']
    rw [horder]
    apply advance_current_iff hc ?_ ha
    rintro pk a rest rfl
    exact hp pk a rest (List.mem_of_getElem? hi)

def Overwrites (p : State) : Action → Prop
  | .act i _ => ∃ pk a rest c, p.threads[i]? = some (.insert pk a rest) ∧
      p.shared.inner.get pk = some c ∧ a.slot < c.slot
  | _ => False

theorem InOrder.not_overwrites (h : InOrder p act) (hc : Current p.shared) : ¬ Overwrites p act := by
  cases act with
  | act i reply =>
    rintro ⟨pk, a, rest, c, hi, hget, hlt⟩
    have hle : c.slot ≤ a.slot := h (.insert pk a rest) hi c (hc pk c hget).1
    exact absurd hlt (UInt64.not_lt.mpr hle)
  | _ => exact id

/-- The cache never goes back in time: it holds the newest account received for
each key after every step, and no fetched account replaces a newer one. -/
def NeverBack (p : State) (tr : List (Action × State)) : Prop :=
  (∀ e ∈ tr, Current e.2.shared) ∧ AllSteps (fun p act _ => ¬ Overwrites p act) p tr

/-- A run never goes back in time exactly when all its steps come in the order of slots. -/
theorem cache_neverBack_iff {slot : UInt64} {tr : List (Action × State)} (h : IsRun slot tr) :
    NeverBack (start slot) tr ↔ AllSteps (fun p act _ => InOrder p act) (start slot) tr := by
  have hpend : Pending (start slot) := fun _ _ _ hm => absurd hm List.not_mem_nil
  have hstart : Current (start slot).shared := fun pk a ha => by cases ha
  have hrun := AllSteps.withInvariant h hpend fun p act p' hp hs => hp.step hs
  have hiff := forall_states_iff (P := fun p => Current p.shared) hrun hstart
    fun p act p' hc hs => current_step_iff hs.1 hc hs.2.1
  constructor
  · rintro ⟨hcurrent, _⟩
    exact hiff.mp hcurrent
  · intro horder
    refine ⟨hiff.mpr horder, ?_⟩
    have hboth := (hrun.and horder).withInvariant (I := fun p => Current p.shared) hstart
      fun p act p' hc hs => (current_step_iff hs.1.1 hc hs.1.2.1).mpr hs.2
    exact hboth.mono fun p act p' hs => hs.2.1.2.not_overwrites hs.1

def sampleTrace (acts : List Action) : List (Action × State) := follow step (start 1) acts

/-- A vault of the pool registry, and its balance at a slot. -/
def sampleVault (slot : UInt64) : Account := ⟨0, [], zeroKey, false, 0, slot⟩

def sampleUpdate (slot : UInt64) : Action :=
  .update (.account slot (some ⟨zeroKey.bytes, 0, zeroKey.bytes, false, 0, []⟩))

/-- The vault is prefetched first, and streamed after that. -/
def warmThenStream : List Action :=
  [.connect, .call [zeroKey], .act 0 none, .act 0 (some (sampleVault 5)), .act 0 none, sampleUpdate 7]

theorem cache_neverBack_warm : NeverBack (start 1) (sampleTrace warmThenStream) :=
  (cache_neverBack_iff (allSteps_follow step (start 1) _)).mpr (by decide)

/-- The vault is streamed between the read and the insertion of a prefetch. -/
def slowPrefetch : List Action :=
  [.connect, .call [zeroKey], .act 0 none, .act 0 (some (sampleVault 5)), sampleUpdate 7, .act 0 none]

theorem slow_prefetch_goes_back :
    IsRun 1 (sampleTrace slowPrefetch) ∧ labels (sampleTrace slowPrefetch) = slowPrefetch ∧
      ¬ NeverBack (start 1) (sampleTrace slowPrefetch) := by
  refine ⟨allSteps_follow step (start 1) _, rfl, ?_⟩
  rintro ⟨hcurrent, _⟩
  have hlast := hcurrent _ (List.getLast_mem (l := sampleTrace slowPrefetch) (by decide))
  have hcached := (hlast zeroKey (sampleVault 5) (by decide)).2 (sampleVault 7) (by decide)
  exact absurd hcached (by decide)

end SolanaArbBot.AccountCache
