import SolanaArbBot.TemplateCache.Runs

/-! Where every stored template comes from: the insertion that created it, and
for each cached amount the earliest response since then. -/
namespace SolanaArbBot.TemplateCache
open Lib

def Op.responseFor (sig : Sig) (amount : UInt64) : Op → Option SwapInstructionsResponse
  | .insertRoute s ix a _ _ => if s = sig ∧ a = amount then some ix else none
  | _ => none

def earliestResponse (sig : Sig) (amount : UInt64) (ops : List Op) :
    Option SwapInstructionsResponse :=
  ops.findSome? (Op.responseFor sig amount)

/-- The operations after the last restart, which forgets the cached amounts. -/
def sinceRestart (ops : List Op) : List Op :=
  ops.foldl (fun acc op => match op with
    | .restart => []
    | op => acc ++ [op]) []

/-- The steps since a signature last came alive, the creating insertion first. -/
structure LiveSince (sig : Sig) (op : Op) (tr since : List (Op × StoreInner)) : Prop where
  split : ∃ pre, tr = pre ++ since ∧ (finalStore pre).find sig = none
  first : ∃ g post, since = (op, g) :: post
  live : ∀ e ∈ since, e.2.Live sig

/-- What the history of a run says about a template found under a signature. -/
structure Provenance (tr : List (Op × StoreInner)) (sig : Sig) (t : RouteTemplate) : Prop where
  created : ∃ plan since,
    LiveSince sig (.insertRoute sig t.swapIxs t.templateInAmount t.templateQuotedOut plan) tr since ∧
    ∀ amount, t.amountVariants.get amount =
      earliestResponse sig amount (sinceRestart (labels since))
  inOffset : t.inAmountOffset =
    (responseOffsets t.swapIxs t.templateInAmount t.templateQuotedOut).map Prod.fst
  outOffset : t.quotedOutOffset =
    (responseOffsets t.swapIxs t.templateInAmount t.templateQuotedOut).map Prod.snd

theorem sinceRestart_concat_restart (ops : List Op) : sinceRestart (ops ++ [.restart]) = [] := by
  rw [sinceRestart, List.foldl_concat]

theorem sinceRestart_concat {op : Op} (ops : List Op) (h : op ≠ .restart) :
    sinceRestart (ops ++ [op]) = sinceRestart ops ++ [op] := by
  rw [sinceRestart, List.foldl_concat]
  cases op with
  | restart => exact absurd rfl h
  | _ => rfl

/-- Without a restart every operation counts. -/
theorem sinceRestart_eq_self {ops : List Op} (h : .restart ∉ ops) : sinceRestart ops = ops := by
  induction ops using List.reverseRecOn with
  | nil => rfl
  | append_singleton ops op ih =>
    rw [List.mem_append, List.mem_singleton, not_or] at h
    rw [sinceRestart_concat ops (Ne.symm h.2), ih h.1]

theorem sinceRestart_subset (ops : List Op) : sinceRestart ops ⊆ ops := by
  induction ops using List.reverseRecOn with
  | nil => exact List.Subset.refl _
  | append_singleton ops op ih =>
    by_cases hr : op = .restart
    · rw [hr, sinceRestart_concat_restart]
      exact List.nil_subset _
    · rw [sinceRestart_concat ops hr]
      exact List.append_subset.mpr
        ⟨List.subset_append_of_subset_left _ ih, List.subset_append_right _ _⟩

theorem earliestResponse_append (sig : Sig) (amount : UInt64) (ops ops' : List Op) :
    earliestResponse sig amount (ops ++ ops') =
      (earliestResponse sig amount ops).or (earliestResponse sig amount ops') :=
  List.findSome?_append

theorem earliestResponse_concat (sig : Sig) (amount : UInt64) (ops : List Op) (op : Op) :
    earliestResponse sig amount (ops ++ [op]) =
      (earliestResponse sig amount ops).or (op.responseFor sig amount) := by
  rw [earliestResponse_append]
  exact congrArg _ List.findSome?_singleton

/-- The earliest response is the response of one of the insertions. -/
theorem earliestResponse_mem {sig : Sig} {amount : UInt64} {ops : List Op}
    {ix : SwapInstructionsResponse} (h : earliestResponse sig amount ops = some ix) :
    ∃ quotedOut plan, .insertRoute sig ix amount quotedOut plan ∈ ops := by
  obtain ⟨op, hm, ho⟩ := List.exists_of_findSome?_eq_some h
  cases op with
  | insertRoute s ix' a q plan =>
    rw [Op.responseFor] at ho
    split at ho
    · next he =>
      obtain ⟨rfl, rfl⟩ := he
      cases ho
      exact ⟨q, plan, hm⟩
    · cases ho
  | _ => cases ho

theorem responseFor_of_not_insertsAt {sig : Sig} {op : Op} (h : ¬ op.InsertsAt sig)
    (amount : UInt64) : op.responseFor sig amount = none := by
  cases op with
  | insertRoute s ix a q plan =>
    rw [Op.responseFor, if_neg]
    rintro ⟨rfl, _⟩
    exact h ⟨ix, a, q, plan, rfl⟩
  | _ => rfl

theorem LiveSince.concat {sig : Sig} {op : Op} {tr since : List (Op × StoreInner)}
    (h : LiveSince sig op tr since) {e : Op × StoreInner} (he : e.2.Live sig) :
    LiveSince sig op (tr ++ [e]) (since ++ [e]) where
  split := by
    obtain ⟨pre, rfl, hn⟩ := h.split
    exact ⟨pre, List.append_assoc _ _ _, hn⟩
  first := by
    obtain ⟨g, post, rfl⟩ := h.first
    exact ⟨g, post ++ [e], rfl⟩
  live := by
    intro e' hm
    rcases List.mem_append.mp hm with hm | hm
    · exact h.live e' hm
    · rw [List.mem_singleton.mp hm]
      exact he

theorem LiveSince.mem {sig : Sig} {op : Op} {tr since : List (Op × StoreInner)}
    (h : LiveSince sig op tr since) : op ∈ labels tr ∧ labels since ⊆ labels tr := by
  obtain ⟨pre, rfl, _⟩ := h.split
  obtain ⟨g, post, rfl⟩ := h.first
  rw [labels_append]
  exact ⟨List.mem_append_right _ List.mem_cons_self, List.subset_append_right _ _⟩

section Steps
variable {tr : List (Op × StoreInner)} {g : StoreInner} {op : Op} {sig : Sig} {t u : RouteTemplate}

/-- A template that is found again after a step with the same base keeps its
provenance, when the step changes its cached amounts as it changes the history. -/
private theorem Provenance.concat (h : Provenance tr sig t) (hf : g.find sig = some u)
    (hix : u.swapIxs = t.swapIxs) (hin : u.templateInAmount = t.templateInAmount)
    (hout : u.templateQuotedOut = t.templateQuotedOut)
    (ho : u.inAmountOffset = t.inAmountOffset ∧ u.quotedOutOffset = t.quotedOutOffset)
    (hv : ∀ ops amount, t.amountVariants.get amount = earliestResponse sig amount (sinceRestart ops) →
      u.amountVariants.get amount = earliestResponse sig amount (sinceRestart (ops ++ [op]))) :
    Provenance (tr ++ [(op, g)]) sig u := by
  obtain ⟨⟨plan, since, hl, hvar⟩, h1, h2⟩ := h
  have hlive : g.Live sig := by rw [StoreInner.Live, hf]; rfl
  refine ⟨⟨plan, since ++ [(op, g)], ?_, ?_⟩, ?_, ?_⟩
  · rw [hix, hin, hout]
    exact hl.concat hlive
  · intro amount
    rw [labels_append]
    exact hv _ amount (hvar amount)
  · rw [ho.1, hix, hin, hout, h1]
  · rw [ho.2, hix, hin, hout, h2]

private theorem earliest_concat (hr : op ≠ .restart) (ops : List Op) (amount : UInt64) :
    earliestResponse sig amount (sinceRestart (ops ++ [op])) =
      (earliestResponse sig amount (sinceRestart ops)).or (op.responseFor sig amount) := by
  rw [sinceRestart_concat ops hr, earliestResponse_concat]

private theorem provenance_step (hg : Step (finalStore tr) op g) (hi : (finalStore tr).Inv)
    (hp : ∀ sig t, (finalStore tr).find sig = some t → Provenance tr sig t)
    (hf : g.find sig = some t) : Provenance (tr ++ [(op, g)]) sig t := by
  cases hg.origin hi hf with
  | kept _ hu ho hr =>
    refine (hp sig t hu).concat hf rfl rfl rfl ⟨rfl, rfl⟩ ?_
    intro ops amount hv
    rw [earliest_concat hr, responseFor_of_not_insertsAt ho, Option.or_none, hv]
  | hit u hu ho hr =>
    refine (hp sig u hu).concat hf rfl rfl rfl ⟨rfl, rfl⟩ ?_
    intro ops amount hv
    rw [earliest_concat hr, responseFor_of_not_insertsAt ho, Option.or_none, ← hv]
    rfl
  | learned ix a q plan u hu ho =>
    subst ho
    refine (hp sig u hu).concat hf rfl rfl rfl ⟨rfl, rfl⟩ ?_
    intro ops amount hv
    rw [earliest_concat Op.noConfusion, ← hv]
    refine (HashMap.get_orInsert _ _ _ _).trans ?_
    simp only [Op.responseFor, true_and, eq_comm]
  | created ix a q plan hn ho =>
    subst ho
    refine ⟨⟨plan, [(.insertRoute sig ix a q plan, g)], ⟨⟨tr, rfl, hn⟩, ⟨g, [], rfl⟩, ?_⟩, ?_⟩,
      rfl, rfl⟩
    · intro e he
      rw [List.mem_singleton.mp he, StoreInner.Live, hf]
      rfl
    · intro amount
      refine (HashMap.get_insert _ _ _ _).trans ?_
      simp only [labels_cons, labels_nil, HashMap.get_empty]
      rw [sinceRestart_eq_self (by simp), earliestResponse, List.findSome?_singleton, Op.responseFor]
      simp only [true_and, eq_comm]
  | reloaded u hu ho =>
    subst ho
    refine (hp sig u hu).concat hf rfl rfl rfl ⟨rfl, rfl⟩ ?_
    intro ops amount _
    rw [sinceRestart_concat_restart]
    rfl

end Steps

/-- Every template found at the end of a run has its provenance in that run. -/
theorem IsRun.provenance {tr : List (Op × StoreInner)} (h : IsRun tr) {sig : Sig}
    {t : RouteTemplate} (hf : (finalStore tr).find sig = some t) : Provenance tr sig t := by
  have hall := h.history (P := fun tr g => g.Inv ∧ ∀ sig t, g.find sig = some t → Provenance tr sig t)
    ⟨StoreInner.new_inv, fun _ _ hf => by cases hf⟩ (by
      rintro tr op g ⟨hi, hp⟩ hs
      exact ⟨hi.step hs, fun sig t hf => provenance_step hs hi hp hf⟩)
  exact hall.2 sig t hf

namespace Provenance
variable {tr : List (Op × StoreInner)} {sig : Sig} {t : RouteTemplate}

/-- The base response was inserted together with the base amounts. -/
theorem base (h : Provenance tr sig t) :
    ∃ plan, .insertRoute sig t.swapIxs t.templateInAmount t.templateQuotedOut plan ∈ labels tr := by
  obtain ⟨plan, since, hl, _⟩ := h.created
  exact ⟨plan, hl.mem.1⟩

/-- A cached amount was inserted with its response. -/
theorem variant (h : Provenance tr sig t) {amount : UInt64} {ix : SwapInstructionsResponse}
    (hv : t.amountVariants.get amount = some ix) :
    ∃ quotedOut plan, .insertRoute sig ix amount quotedOut plan ∈ labels tr := by
  obtain ⟨plan, since, hl, hvar⟩ := h.created
  rw [hvar] at hv
  obtain ⟨q, p, hm⟩ := earliestResponse_mem hv
  exact ⟨q, p, hl.mem.2 (sinceRestart_subset _ hm)⟩

end Provenance
end SolanaArbBot.TemplateCache
