import SolanaArbBot.Lib.SlidingWindow

/-! The limiter of bundle submissions. It stamps a granted slot at once, whatever
the caller does with the slot afterwards. Instants are nanoseconds. -/
namespace SolanaArbBot.Arbitrage
open Lib

def second : Int := 1000000000

structure RateLimiter where
  maxPerSecond : UInt32
  timestamps : List Int
  deriving DecidableEq

def RateLimiter.new (maxPerSecond : UInt32) : RateLimiter := ⟨maxPerSecond, []⟩

/-- Forget the stamps of a second ago or more, then take a slot if one is free.
The number of stamps is compared as a 32-bit word. -/
def RateLimiter.tryAcquire (l : RateLimiter) (now : Int) : RateLimiter × Bool :=
  let timestamps := l.timestamps.filter fun t => decide (now - second < t)
  if UInt32.ofNat timestamps.length < l.maxPerSecond then
    ({ l with timestamps := timestamps ++ [now] }, true)
  else ({ l with timestamps := timestamps }, false)

/-- The limiter after a sequence of calls, the last of them at the given instant,
that granted slots at the instants of the log. -/
structure RateLimiter.Tracks (l : RateLimiter) (granted : List Int) (last : Int) : Prop where
  recent : l.timestamps = granted.filter fun t => decide (last - second < t)
  spaced : Spaced l.maxPerSecond.toNat second granted
  size : l.timestamps.length ≤ l.maxPerSecond.toNat

namespace RateLimiter.Tracks

theorem new (maxPerSecond : UInt32) (last : Int) :
    (RateLimiter.new maxPerSecond).Tracks [] last :=
  ⟨rfl, Spaced.nil _ _, Nat.zero_le _⟩

variable {l : RateLimiter} {granted : List Int} {last now : Int}

private theorem kept (h : l.Tracks granted last) (hle : last ≤ now) :
    (l.timestamps.filter fun t => decide (now - second < t)) =
      granted.filter fun t => decide (now - second < t) := by
  rw [h.recent, List.filter_filter]
  apply List.filter_congr
  intro t _
  simp only [Bool.and_eq_left_iff_imp, decide_eq_true_eq]
  omega

private theorem lt_iff (h : l.Tracks granted last) (hle : last ≤ now) :
    UInt32.ofNat (l.timestamps.filter fun t => decide (now - second < t)).length < l.maxPerSecond ↔
      (granted.filter fun t => decide (now - second < t)).length < l.maxPerSecond.toNat := by
  have hlen : (granted.filter fun t => decide (now - second < t)).length ≤ l.maxPerSecond.toNat := by
    rw [← h.kept hle]
    exact (List.length_filter_le _ _).trans h.size
  have hword : l.maxPerSecond.toNat < 2 ^ 32 := l.maxPerSecond.toNat_lt
  rw [h.kept hle, UInt32.lt_iff_toNat_lt, UInt32.toNat_ofNat', Nat.mod_eq_of_lt (by omega)]

/-- A call logs its instant when it grants a slot. -/
theorem tryAcquire (h : l.Tracks granted last) (hle : last ≤ now) :
    (l.tryAcquire now).1.Tracks (if (l.tryAcquire now).2 then granted ++ [now] else granted) now ∧
      (l.tryAcquire now).1.maxPerSecond = l.maxPerSecond := by
  unfold RateLimiter.tryAcquire
  dsimp only
  split
  · next hlt =>
    have hfew := (h.lt_iff hle).mp hlt
    refine ⟨⟨?_, h.spaced.concat hfew, ?_⟩, rfl⟩
    · rw [if_pos rfl, List.filter_append, h.kept hle]
      rw [List.filter_cons_of_pos]
      · rfl
      · exact decide_eq_true (by rw [second]; omega)
    · rw [List.length_append, h.kept hle]
      exact hfew
  · refine ⟨⟨h.kept hle, h.spaced, ?_⟩, rfl⟩
    exact (List.length_filter_le _ _).trans h.size

end RateLimiter.Tracks

/-! Sequences of calls. -/

def RateLimiter.after (l : RateLimiter) : List Int → RateLimiter
  | [] => l
  | now :: later => (l.tryAcquire now).1.after later

def RateLimiter.grants (l : RateLimiter) : List Int → List Int
  | [] => []
  | now :: later =>
    let r := l.tryAcquire now
    if r.2 then now :: r.1.grants later else r.1.grants later

theorem RateLimiter.grants_sublist (l : RateLimiter) (instants : List Int) :
    (l.grants instants).Sublist instants := by
  induction instants generalizing l with
  | nil => exact List.Sublist.slnil
  | cons now later ih =>
    rw [RateLimiter.grants]
    split
    · exact (ih _).cons_cons now
    · exact (ih _).cons now

/-- Calls in the order of time log exactly the slots they were granted. -/
theorem RateLimiter.Tracks.after {l : RateLimiter} {granted : List Int} {last : Int}
    {instants : List Int} (h : l.Tracks granted last) (hs : instants.Pairwise (· ≤ ·))
    (hle : ∀ t ∈ instants, last ≤ t) :
    ∃ last', (∀ now, last ≤ now → (∀ t ∈ instants, t ≤ now) → last' ≤ now) ∧
      (l.after instants).Tracks (granted ++ l.grants instants) last' ∧
      (l.after instants).maxPerSecond = l.maxPerSecond := by
  induction instants generalizing l granted last with
  | nil =>
    refine ⟨last, fun now hnow _ => hnow, ?_, rfl⟩
    rw [RateLimiter.grants, List.append_nil]
    exact h
  | cons t later ih =>
    obtain ⟨htl, hs⟩ := List.pairwise_cons.mp hs
    obtain ⟨ht, hm⟩ := h.tryAcquire (hle t List.mem_cons_self)
    obtain ⟨last', hlast, ht', hm'⟩ := ih ht hs htl
    refine ⟨last', ?_, ?_, hm'.trans hm⟩
    · intro now _ hall
      obtain ⟨htn, hall⟩ := List.forall_mem_cons.mp hall
      exact hlast now htn hall
    · have hg : granted ++ l.grants (t :: later) =
          (if (l.tryAcquire t).2 then granted ++ [t] else granted) ++
            (l.tryAcquire t).1.grants later := by
        rw [RateLimiter.grants]
        split
        · exact List.append_cons granted t _
        · rfl
      rw [hg]
      exact ht'

/-- A refused call finds as many slots granted within the last second as there are. -/
theorem RateLimiter.Tracks.refused {l : RateLimiter} {granted : List Int} {last now : Int}
    (h : l.Tracks granted last) (hle : last ≤ now) (hr : (l.tryAcquire now).2 = false) :
    l.maxPerSecond.toNat ≤ granted.countP fun t => decide (now - second < t) := by
  rw [List.countP_eq_length_filter, ← Nat.not_lt]
  intro hlt
  rw [RateLimiter.tryAcquire, if_pos ((h.lt_iff hle).mpr hlt)] at hr
  cases hr

/-- Calls at instants in order, a second or more after the origin of the clock:
no window of a second holds more grants than the limit, a refusal follows a full
second of grants, and the stamps stay sorted and within the limit. -/
theorem RateLimiter.slidingWindow_sound (m : UInt32) (instants : List Int)
    (ho : ∀ t ∈ instants, second ≤ t) (hs : instants.Pairwise (· ≤ ·)) :
    Spaced m.toNat second ((RateLimiter.new m).grants instants) ∧
    (∀ before now later, instants = before ++ now :: later →
      (((RateLimiter.new m).after before).tryAcquire now).2 = false →
      m.toNat ≤ ((RateLimiter.new m).grants before).countP fun t => decide (now - second < t)) ∧
    ∀ before later, instants = before ++ later →
      ((RateLimiter.new m).after before).timestamps.Pairwise (· ≤ ·) ∧
      ((RateLimiter.new m).after before).timestamps.length ≤ m.toNat ∧
      (UInt32.ofNat ((RateLimiter.new m).after before).timestamps.length).toNat =
        ((RateLimiter.new m).after before).timestamps.length := by
  have hrun {before : List Int} (hb : before.Sublist instants) :=
    (RateLimiter.Tracks.new m second).after (hs.sublist hb) fun t ht => ho t (hb.subset ht)
  refine ⟨?_, ?_, ?_⟩
  · obtain ⟨last, _, ht, hm⟩ := hrun (List.Sublist.refl instants)
    have hspaced := ht.spaced
    rw [hm] at hspaced
    exact hspaced
  · rintro before now later rfl hr
    obtain ⟨last, hlast, ht, hm⟩ := hrun (List.sublist_append_left before (now :: later))
    have hnow : now ∈ before ++ now :: later := List.mem_append_right _ List.mem_cons_self
    have hall : ∀ t ∈ before, t ≤ now := fun t hb =>
      (List.pairwise_append.mp hs).2.2 t hb now List.mem_cons_self
    have hfull := ht.refused (hlast now (ho now hnow) hall) hr
    rw [hm] at hfull
    exact hfull
  · rintro before later rfl
    have hb := List.sublist_append_left before later
    obtain ⟨last, _, ht, hm⟩ := hrun hb
    have hsize := ht.size
    rw [hm] at hsize
    refine ⟨?_, hsize, ?_⟩
    · rw [ht.recent]
      exact ((hs.sublist hb).sublist ((RateLimiter.new m).grants_sublist before)).filter _
    · have hword : m.toNat < 2 ^ 32 := m.toNat_lt
      rw [UInt32.toNat_ofNat', Nat.mod_eq_of_lt (hsize.trans_lt hword)]

/-- Three calls on a limit of one, the second refused and the third a second later. -/
theorem RateLimiter.slidingWindow_sound_refusal :
    (RateLimiter.new 1).grants [1000000000, 1000000001, 2000000000] = [1000000000, 2000000000] ∧
    Spaced 1 second ((RateLimiter.new 1).grants [1000000000, 1000000001, 2000000000]) :=
  ⟨by decide, (RateLimiter.slidingWindow_sound 1 _ (by decide) (by decide)).1⟩

end SolanaArbBot.Arbitrage
