import SolanaArbBot.Arbitrage.Quotes
import SolanaArbBot.TemplateCache.Provenance
import SolanaArbBot.TemplateCache.RoundTrip

/-! Serving from the store against asking Metis. For a route whose responses
differ only in the two amounts, a patched template is the response itself. -/
namespace SolanaArbBot.TemplateCache
open Lib
open Arbitrage (onChainFloor jitoTipLamports networkFeeLamports)

/-- A route structure as Metis answers for it: the instruction data holds the two
amounts side by side and nothing else in the response depends on them. -/
structure RouteShape where
  pre : List UInt8
  post : List UInt8
  rest : SwapInstructionsResponse
  fits : pre.length + 16 + post.length < 2 ^ 64

namespace RouteShape

def data (m : RouteShape) (inAmount floor : UInt64) : List UInt8 :=
  m.pre ++ (leBytes inAmount ++ (leBytes floor ++ m.post))

/-- The response for an amount and the floor that goes with it. -/
def response (m : RouteShape) (amount : UInt64) : SwapInstructionsResponse :=
  m.rest.withData (Base64.encode (m.data amount (onChainFloor amount)))

end RouteShape

/-- An operation that inserts under the signature only what Metis answers for the
route, with the amounts it was asked for. -/
def Op.Genuine (m : RouteShape) (sig : Sig) (op : Op) : Prop :=
  ∀ ix a q plan, op = .insertRoute sig ix a q plan → ix = m.response a ∧ q = onChainFloor a

/-- A template that stems from the responses of one route structure. -/
structure Faithful (m : RouteShape) (t : RouteTemplate) : Prop where
  base : t.swapIxs = m.response t.templateInAmount
  floor : t.templateQuotedOut = onChainFloor t.templateInAmount
  offsets : (t.inAmountOffset = none ∧ t.quotedOutOffset = none) ∨
    (t.inAmountOffset = some m.pre.length ∧ t.quotedOutOffset = some (m.pre.length + 8))
  variants : ∀ amount v, t.amountVariants.get amount = some v → v = m.response amount

namespace RouteShape
variable (m : RouteShape)

theorem data_length (a b : UInt64) : (m.data a b).length = m.pre.length + 16 + m.post.length := by
  simp only [data, List.length_append, leBytes_length]
  omega

theorem data_window (a b : UInt64) :
    window (m.data a b) m.pre.length 8 = leBytes a ∧
      window (m.data a b) (m.pre.length + 8) 8 = leBytes b := by
  constructor
  · have h := window_append m.pre (leBytes a) (leBytes b ++ m.post)
    rwa [List.append_assoc] at h
  · have h := window_append_right m.pre (leBytes a) (leBytes b ++ m.post) 8
    rw [leBytes_length] at h
    rw [data, h]
    exact List.take_left' (leBytes_length b)

/-- Wherever else the amounts may occur, discovery finds the two slots or nothing. -/
theorem responseOffsets_eq (a : UInt64) :
    responseOffsets (m.response a) a (onChainFloor a) = some (m.pre.length, m.pre.length + 8) ∨
      responseOffsets (m.response a) a (onChainFloor a) = none := by
  have hd : Base64.decode (m.response a).swapInstruction.data = some (m.data a (onChainFloor a)) :=
    Base64.decode_encode _
  obtain ⟨hin, hout⟩ := m.data_window a (onChainFloor a)
  unfold responseOffsets
  rw [hd, Option.bind_some]
  exact discoverOffsets_of_window (by rw [m.data_length]; omega) hin hout

/-- Overwriting the two slots turns one response's data into another's. -/
theorem splice_data (a b a' b' : UInt64) :
    splice (splice (m.data a b) m.pre.length (leBytes a')) (m.pre.length + 8) (leBytes b') =
      m.data a' b' := by
  have h1 : splice (m.data a b) m.pre.length (leBytes a') = m.data a' b :=
    splice_append m.pre (leBytes a) (leBytes a') (leBytes b ++ m.post) rfl
  have h2 := splice_append (m.pre ++ leBytes a') (leBytes b) (leBytes b') m.post rfl
  rw [List.length_append, leBytes_length, List.append_assoc, List.append_assoc] at h2
  rw [h1]
  exact h2

end RouteShape

/-- A template whose base is a response of the route has the offsets of its slots, or none. -/
theorem Provenance.faithful {m : RouteShape} {tr : List (Op × StoreInner)} {sig : Sig} {t : RouteTemplate}
    (hp : Provenance tr sig t) (hix : t.swapIxs = m.response t.templateInAmount)
    (hq : t.templateQuotedOut = onChainFloor t.templateInAmount) :
    Faithful m { t with amountVariants := .empty } := by
  refine ⟨hix, hq, ?_, fun _ _ hv => (by cases hv)⟩
  dsimp only
  rw [hp.inOffset, hp.outOffset, hix, hq]
  rcases m.responseOffsets_eq t.templateInAmount with h | h
  · right
    rw [h]
    exact ⟨rfl, rfl⟩
  · left
    rw [h]
    exact ⟨rfl, rfl⟩

/-- Under genuine insertions every template found for the route is faithful. -/
theorem faithful_of_provenance {m : RouteShape} {tr : List (Op × StoreInner)} {sig : Sig}
    {t : RouteTemplate} (ho : ∀ op ∈ labels tr, op.Genuine m sig) (hp : Provenance tr sig t) :
    Faithful m t := by
  obtain ⟨plan, hbase⟩ := hp.base
  obtain ⟨hix, hq⟩ := ho _ hbase _ _ _ _ rfl
  refine ⟨hix, hq, (hp.faithful hix hq).offsets, ?_⟩
  intro amount v hv
  obtain ⟨q, p, hmem⟩ := hp.variant hv
  exact (ho _ hmem _ _ _ _ rfl).1

/-- A faithful template serves the response for the amount, or nothing. -/
theorem Faithful.serve {m : RouteShape} {t : RouteTemplate} (h : Faithful m t)
    (amount newOut : UInt64) :
    serveRoute t amount newOut = .ok none ∨ serveRoute t amount newOut = .ok (some (m.response amount)) := by
  unfold serveRoute
  cases hv : t.amountVariants.get amount with
  | some v =>
    right
    rw [h.variants amount v hv]
  | none =>
    rcases h.offsets with ⟨hi, ho⟩ | ⟨hi, ho⟩
    · left
      rw [hi]
    · right
      have hfloor : amount + (t.templateQuotedOut - t.templateInAmount) = onChainFloor amount := by
        rw [h.floor]
        unfold Arbitrage.onChainFloor
        grind
      have hlen := m.data_length t.templateInAmount (onChainFloor t.templateInAmount)
      have hfits := m.fits
      have hpatch : patchAmountsB64 (Base64.encode (m.data t.templateInAmount
          (onChainFloor t.templateInAmount))) m.pre.length (m.pre.length + 8) amount
          (onChainFloor amount) = .ok (some (Base64.encode (m.data amount (onChainFloor amount)))) := by
        rw [patchAmountsB64_encode _ _ (by omega) (by omega) (by omega), m.splice_data]
      have hdata : t.swapIxs.swapInstruction.data =
          Base64.encode (m.data t.templateInAmount (onChainFloor t.templateInAmount)) := by
        rw [h.base]
        rfl
      simp only [hi, ho, hfloor]
      rw [hdata, hpatch, h.base]
      rfl

theorem Faithful.hit {m : RouteShape} {t : RouteTemplate} (h : Faithful m t) : Faithful m t.hit :=
  ⟨h.base, h.floor, h.offsets, h.variants⟩

/-- On every run that inserts only genuine responses for a route, whatever a
lookup of the route then finds serves each amount with the very response that
Metis would give, or declines. Amounts near the word size need no exception. -/
theorem serveRoute_eq_metis (m : RouteShape) (sig : Sig) {tr : List (Op × StoreInner)}
    (h : IsRun tr) (ho : ∀ op ∈ labels tr, op.Genuine m sig) {t : RouteTemplate}
    (ht : (getRoute (finalStore tr) sig).2 = some t) (amount : UInt64) :
    serveRoute t amount (onChainFloor amount) = .ok none ∨
      serveRoute t amount (onChainFloor amount) = .ok (some (m.response amount)) := by
  apply Faithful.serve
  rcases getRoute_found h.inv ht with hf | ⟨u, hf, rfl⟩
  · exact faithful_of_provenance ho (h.provenance hf)
  · exact (faithful_of_provenance ho (h.provenance hf)).hit

/-- A route whose data is a discriminator, the two amounts and one byte more. -/
def swapShape : RouteShape := ⟨[0xc1, 0x20, 0x9b, 0x33, 0x41, 0xd6, 0x9c, 0x81], [0xff], default, by decide⟩

def learnedTrace : List (Op × StoreInner) :=
  let g₁ := insertRoute .new 7 (swapShape.response 5) 5 6605 samplePlan
  let g₂ := insertRoute g₁ 7 (swapShape.response 9) 9 6609 samplePlan
  let g₃ := (getRoute g₂ 7).1
  [(.insertRoute 7 (swapShape.response 5) 5 6605 samplePlan, g₁),
    (.insertRoute 7 (swapShape.response 9) 9 6609 samplePlan, g₂), (.getRoute 7, g₃),
    (.recordRouteHit 7, recordRouteHit g₃ 7)]

private theorem learnedTrace_run : IsRun learnedTrace :=
  ⟨.insertRoute _ _ _ _ _, .insertRoute _ _ _ _ _, .getRoute _, .recordRouteHit _, trivial⟩

private theorem learnedTrace_serves :
    ∃ t, (finalStore learnedTrace).find 7 = some t ∧ serveRoute t.reload 8 6608 ≠ .ok none :=
  ⟨_, rfl, by decide⟩

/-- After a restart the route is served at an amount that was never asked for. -/
theorem serveRoute_eq_metis_restarted :
    ∃ g t, IsRun (learnedTrace ++ [(.restart, g)]) ∧ (getRoute g 7).2 = some t ∧
      serveRoute t 8 6608 = .ok (some (swapShape.response 8)) := by
  obtain ⟨g, hre⟩ := exists_restarted (finalStore learnedTrace)
  have hrun : IsRun (learnedTrace ++ [(.restart, g)]) :=
    allSteps_append.mpr ⟨learnedTrace_run, .restart hre, trivial⟩
  have hgen : ∀ op ∈ labels (learnedTrace ++ [(.restart, g)]), op.Genuine swapShape 7 := by
    intro op hm ix a q plan he
    subst he
    simp only [learnedTrace, labels_append, labels_cons, labels_nil, List.mem_append, List.mem_cons,
      List.not_mem_nil, or_false, Op.insertRoute.injEq, reduceCtorEq] at hm
    rcases hm with ⟨_, rfl, rfl, rfl, _⟩ | ⟨_, rfl, rfl, rfl, _⟩
    · exact ⟨rfl, rfl⟩
    · exact ⟨rfl, rfl⟩
  obtain ⟨u, hu, hserved⟩ := learnedTrace_serves
  have hspec := hre.spec learnedTrace_run.inv
  have hfind : g.find 7 = some u.reload := by rw [hspec.find, hu, Option.map_some]
  have hi : g.Inv := hspec.inv learnedTrace_run.inv
  obtain ⟨t, ht⟩ := Option.isSome_iff_exists.mp ((getRoute_isSome hi 7).mpr (by
    rw [StoreInner.Live, hfind]
    rfl))
  have hlast : (getRoute (finalStore (learnedTrace ++ [(.restart, g)])) 7).2 = some t := by
    rw [finalStore, lastState_append]
    exact ht
  refine ⟨g, t, hrun, ht, (serveRoute_eq_metis swapShape 7 hrun hgen hlast 8).resolve_left ?_⟩
  rcases getRoute_found hi ht with hf | ⟨v, hf, rfl⟩
  · rw [hfind] at hf
    cases hf
    exact hserved
  · rw [hfind] at hf
    cases hf
    exact hserved

end SolanaArbBot.TemplateCache
