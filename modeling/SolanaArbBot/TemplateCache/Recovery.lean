import SolanaArbBot.Lib.Checkpoint
import SolanaArbBot.TemplateCache.Persistence
import SolanaArbBot.TemplateCache.Provenance

/-! routes.json across crashes: the store and its file behave as a value with
checkpoints, whatever fails and wherever the process stops. -/
namespace SolanaArbBot.TemplateCache
open Lib

def StoreChange (g : StoreInner) (op : Op) (g' : StoreInner) : Prop := op ≠ .restart ∧ Step g op g'

/-- The routes a start comes up with, for the store of the last completed save. -/
def RoutesRecovered : Option StoreInner → StoreInner → Prop
  | none, g => g.routesHot = .empty ∧ g.routesCold = .empty ∧ g.hopPairIndex = .empty
  | some saved, g => RestartSpec saved g

def routesEvent : MachineEvent → Option (CheckpointOp Op)
  | .store op => some (.change op)
  | .beginFlush => some .take
  | .routesRenamed => some .commit
  | .routesWriteFailed => some .abandon
  | .routesRenameFailed => some .abandon
  | .crash => some .crash
  | _ => none

/-- The live store, the one being saved and the last one that was saved. -/
def saves (tr : List (MachineEvent × Machine)) : Checkpointed StoreInner :=
  .follow routesEvent Machine.store (.start .new) tr

def storeOps (tr : List (MachineEvent × Machine)) : List Op :=
  (labels tr).filterMap fun
    | .store op => some op
    | _ => none

/-- Every template stems from insertions: its base response was inserted with its base
amounts, which it finds again in the bytes, and so was each cached amount. -/
structure Sourced (ops : List Op) (g : StoreInner) : Prop where
  inv : g.Inv
  base : ∀ sig t, g.find sig = some t →
    ∃ plan, .insertRoute sig t.swapIxs t.templateInAmount t.templateQuotedOut plan ∈ ops
  offsets : ∀ sig t, g.find sig = some t →
    t.inAmountOffset =
      (responseOffsets t.swapIxs t.templateInAmount t.templateQuotedOut).map Prod.fst ∧
    t.quotedOutOffset =
      (responseOffsets t.swapIxs t.templateInAmount t.templateQuotedOut).map Prod.snd
  variants : ∀ sig t amount ix, g.find sig = some t → t.amountVariants.get amount = some ix →
    ∃ quotedOut plan, .insertRoute sig ix amount quotedOut plan ∈ ops

/-- The machine as a store with checkpoints: routes.json is absent before the first
save, and holds a flush of the saved store after it. -/
structure RoutesView (m : Machine) (c : Checkpointed StoreInner) : Prop where
  live : c.live = m.store
  writing : ∀ file, m.flush = .writeRoutes file → ∃ g, c.taken = some g ∧ Flushed g file
  written : m.flush = .renameRoutes → ∃ file g, m.base.get (tmpName routesPath) = some (some file) ∧
    c.taken = some g ∧ Flushed g file
  absent : m.base.get routesPath = none → c.saved = none
  present : ∀ text, m.base.get routesPath = some text →
    ∃ file g, text = some file ∧ c.saved = some g ∧ Flushed g file
  inv : c.Everywhere StoreInner.Inv

/-- A start brings back the routes of the last completed save. -/
theorem RoutesView.recovered {m : Machine} {c : Checkpointed StoreInner} (h : RoutesView m c)
    {g : StoreInner} (hb : Booted m.base m.hopsDir g) : RoutesRecovered c.saved g := by
  obtain ⟨_, _, hops, _, _, g₁, rfl, hroutes⟩ := hb.spec
  cases hbase : m.base.get routesPath with
  | none =>
    rw [hbase] at hroutes
    rw [h.absent hbase]
    cases hroutes
    exact ⟨rfl, rfl, rfl⟩
  | some text =>
    obtain ⟨file, g, rfl, hs, hf⟩ := h.present text hbase
    rw [hbase] at hroutes
    rw [hs]
    have hi := h.inv.2.2 g hs
    have hspec : RestartSpec g g₁ := Restarted.spec hi ⟨file, hf, hroutes⟩
    exact ⟨hspec.cold, hspec.hot, hspec.index, hspec.len⟩

private theorem RoutesRecovered.inv {o : Option StoreInner} {g : StoreInner}
    (ho : ∀ s ∈ o, s.Inv) (h : RoutesRecovered o g) : g.Inv := by
  cases o with
  | none =>
    obtain ⟨hh, hc, _⟩ := h
    refine ⟨fun sig => Or.inl ?_, fun sig t ht => ?_, fun sig t ht => ?_⟩
    · rw [hh, HashMap.get_empty]
    · rw [hh, HashMap.get_empty] at ht
      cases ht
    · rw [hc, HashMap.get_empty] at ht
      cases ht
  | some s => exact RestartSpec.inv h (ho s rfl)

private theorem inv_step {c c' : Checkpointed StoreInner} {op : CheckpointOp Op}
    (h : c.Everywhere StoreInner.Inv) (hs : CheckpointStep StoreChange RoutesRecovered c op c') :
    c'.Everywhere StoreInner.Inv :=
  Checkpointed.everywhere_step h hs (fun _ _ _ _ hi hc => hi.step hc.2) fun _ _ ho hr => hr.inv ho

/-- A step of the machine is a step of the store with checkpoints, or none. -/
theorem RoutesView.step {m m' : Machine} {e : MachineEvent} {c : Checkpointed StoreInner}
    (h : RoutesView m c) (hs : MachineStep m e m') :
    Checkpointed.Matched StoreChange RoutesRecovered (RoutesView m') c (routesEvent e) := by
  have hi := h.inv
  have hlive := h.live
  cases hs with
  | @store g op hr ho =>
    have hc : CheckpointStep StoreChange RoutesRecovered c (.change op) { c with live := g } :=
      .change op ⟨hr, hlive ▸ ho⟩
    exact ⟨_, hc, rfl, h.writing, h.written, h.absent, h.present, inv_step hi hc⟩
  | @beginFlush file hpc hf =>
    have hc : CheckpointStep StoreChange RoutesRecovered c .take { c with taken := some c.live } :=
      .take
    refine ⟨_, hc, hlive, ?_, ?_, h.absent, h.present, inv_step hi hc⟩
    · intro file' he
      cases he
      exact ⟨_, congrArg some hlive, hf⟩
    · intro he
      cases he
  | @routesWritten file hpc =>
    obtain ⟨g, hg, hf⟩ := h.writing file hpc
    refine ⟨hlive, ?_, ?_, ?_, ?_, hi⟩
    · intro file' he
      cases he
    · intro _
      exact ⟨file, g, (HashMap.get_insert _ _ _ _).trans (if_pos rfl), hg, hf⟩
    · intro ha
      rw [HashMap.get_insert, if_neg routesPath_ne_tmp] at ha
      exact h.absent ha
    · intro text ht
      rw [HashMap.get_insert, if_neg routesPath_ne_tmp] at ht
      exact h.present text ht
  | @routesWriteFailed file base hpc ht =>
    have hc : CheckpointStep StoreChange RoutesRecovered c .abandon { c with taken := none } :=
      .abandon
    have hget := ht.get_ne routesPath_ne_tmp
    refine ⟨_, hc, hlive, ?_, ?_, ?_, ?_, inv_step hi hc⟩
    · intro file' he
      cases he
    · intro he
      cases he
    · intro ha
      exact h.absent (hget ▸ ha)
    · intro text ha
      exact h.present text (hget ▸ ha)
  | routesRenamed hpc =>
    obtain ⟨file, g, htmp, hg, hf⟩ := h.written hpc
    have hc : CheckpointStep StoreChange RoutesRecovered c .commit
        { c with taken := none, saved := some g } := .commit hg
    have hget := Directory.get_rename_target htmp routesPath
    refine ⟨_, hc, hlive, ?_, ?_, ?_, ?_, inv_step hi hc⟩
    · intro file' he
      cases he
    · intro he
      cases he
    · intro ha
      rw [hget] at ha
      cases ha
    · intro text ha
      rw [hget] at ha
      cases ha
      exact ⟨file, g, rfl, rfl, hf⟩
  | routesRenameFailed hpc =>
    have hc : CheckpointStep StoreChange RoutesRecovered c .abandon { c with taken := none } :=
      .abandon
    refine ⟨_, hc, hlive, ?_, ?_, h.absent, h.present, inv_step hi hc⟩
    · intro file' he
      cases he
    · intro he
      cases he
  | crash hb =>
    have hc := h.recovered hb
    refine ⟨_, .crash hc, rfl, ?_, ?_, h.absent, h.present, inv_step hi (.crash hc)⟩
    · intro file' he
      cases he
    · intro he
      cases he
  | _ =>
    refine ⟨hlive, ?_, ?_, h.absent, h.present, hi⟩
    · intro file' he
      cases he
    · intro he
      cases he

theorem RoutesView.start : RoutesView .new (.start .new) where
  live := rfl
  writing _ he := by cases he
  written he := by cases he
  absent _ := rfl
  present text he := by
    rw [Machine.new, HashMap.get_empty] at he
    cases he
  inv := Checkpointed.everywhere_start StoreInner.new_inv

/-- The machine refines the store with checkpoints. -/
theorem saves_refine {tr : List (MachineEvent × Machine)} (h : IsMachineRun tr) :
    RoutesView (finalMachine tr) (saves tr) ∧
      ∃ ctr, AllSteps (CheckpointStep StoreChange RoutesRecovered) (.start .new) ctr ∧
        labels ctr = (labels tr).filterMap routesEvent ∧ lastState (.start .new) ctr = saves tr :=
  Checkpointed.follow_refines routesEvent Machine.store (fun _ _ hv => hv.live)
    (fun _ _ _ _ hv hs => hv.step hs) .start h

/-! Where the templates come from -/

namespace Sourced
variable {ops ops' : List Op} {g g' : StoreInner}

theorem mono (h : Sourced ops g) (hs : ops ⊆ ops') : Sourced ops' g where
  inv := h.inv
  base sig t hf := by
    obtain ⟨plan, hm⟩ := h.base sig t hf
    exact ⟨plan, hs hm⟩
  offsets := h.offsets
  variants sig t amount ix hf hv := by
    obtain ⟨q, plan, hm⟩ := h.variants sig t amount ix hf hv
    exact ⟨q, plan, hs hm⟩

theorem empty (hi : g.Inv) (hn : ∀ sig, g.find sig = none) : Sourced ops g where
  inv := hi
  base sig t hf := by rw [hn] at hf; cases hf
  offsets sig t hf := by rw [hn] at hf; cases hf
  variants sig t _ _ hf := by rw [hn] at hf; cases hf

/-- An operation adds at most what it inserts. -/
theorem step {op : Op} (h : Sourced ops g) (hr : op ≠ .restart) (hs : Step g op g')
    (hm : ops ⊆ ops') (hop : op ∈ ops') : Sourced ops' g' := by
  have h := h.mono hm
  refine ⟨h.inv.step hs, ?_, ?_, ?_⟩
  · intro sig t hf
    cases hs.origin h.inv hf with
    | kept _ hu => exact h.base sig t hu
    | hit u hu => exact h.base sig u hu
    | learned ix a q plan u hu => exact h.base sig u hu
    | created ix a q plan _ ho => exact ⟨plan, ho ▸ hop⟩
    | reloaded _ _ ho => exact absurd ho hr
  · intro sig t hf
    cases hs.origin h.inv hf with
    | kept _ hu => exact h.offsets sig t hu
    | hit u hu => exact h.offsets sig u hu
    | learned ix a q plan u hu => exact h.offsets sig u hu
    | created => exact ⟨rfl, rfl⟩
    | reloaded _ _ ho => exact absurd ho hr
  · intro sig t amount ix hf hv
    cases hs.origin h.inv hf with
    | kept _ hu => exact h.variants sig t amount ix hu hv
    | hit u hu => exact h.variants sig u amount ix hu hv
    | learned ix' a q plan u hu ho =>
      rw [RouteTemplate.learn, HashMap.get_orInsert] at hv
      rcases Option.or_eq_some_iff.mp hv with hv | ⟨_, hv⟩
      · exact h.variants sig u amount ix hu hv
      · split at hv
        · next ha =>
          cases hv
          exact ⟨q, plan, ha ▸ ho ▸ hop⟩
        · cases hv
    | created ix' a q plan _ ho =>
      rw [firstTemplate, HashMap.get_insert] at hv
      split at hv
      · next ha =>
        cases hv
        exact ⟨q, plan, ha ▸ ho ▸ hop⟩
      · rw [HashMap.get_empty] at hv
        cases hv
    | reloaded _ _ ho => exact absurd ho hr

/-- A crash invents nothing. -/
theorem recovered {o : Option StoreInner} (ho : ∀ s ∈ o, Sourced ops s) (h : RoutesRecovered o g) :
    Sourced ops g := by
  have hi : g.Inv := h.inv fun s hs => (ho s hs).inv
  cases o with
  | none =>
    obtain ⟨hh, hc, _⟩ := h
    refine empty hi fun sig => ?_
    rw [StoreInner.find, hh, hc, HashMap.get_empty, Option.none_or]
  | some s =>
    have hs := ho s rfl
    have hspec : RestartSpec s g := h
    refine ⟨hi, ?_, ?_, ?_⟩
    · intro sig t hf
      rw [hspec.find] at hf
      obtain ⟨u, hu, rfl⟩ := Option.map_eq_some_iff.mp hf
      exact hs.base sig u hu
    · intro sig t hf
      rw [hspec.find] at hf
      obtain ⟨u, hu, rfl⟩ := Option.map_eq_some_iff.mp hf
      exact hs.offsets sig u hu
    · intro sig t amount ix hf hv
      rw [hspec.find] at hf
      obtain ⟨u, _, rfl⟩ := Option.map_eq_some_iff.mp hf
      rw [RouteTemplate.reload, HashMap.get_empty] at hv
      cases hv

end Sourced

def CheckpointOp.changed : CheckpointOp Op → Option Op
  | .change op => some op
  | _ => none

theorem storeOps_eq (tr : List (MachineEvent × Machine)) :
    ((labels tr).filterMap routesEvent).filterMap CheckpointOp.changed = storeOps tr := by
  rw [List.filterMap_filterMap, storeOps]
  congr 1
  funext e
  cases e <;> rfl

/-- Everything in memory, being saved or saved stems from the changes of the run. -/
theorem sourced_everywhere {ctr : List (CheckpointOp Op × Checkpointed StoreInner)}
    (h : AllSteps (CheckpointStep StoreChange RoutesRecovered) (.start .new) ctr) :
    (lastState (.start .new) ctr).Everywhere (Sourced ((labels ctr).filterMap CheckpointOp.changed)) := by
  refine h.history (P := fun ctr c =>
    c.Everywhere (Sourced ((labels ctr).filterMap CheckpointOp.changed))) ?_ ?_
  · exact Checkpointed.everywhere_start (Sourced.empty StoreInner.new_inv fun _ => rfl)
  · intro ctr op c hev hs
    rw [labels_append, List.filterMap_append]
    obtain ⟨hl, ht, hv⟩ := hev
    have hsub := List.subset_append_left ((labels ctr).filterMap CheckpointOp.changed)
      ((labels [(op, c)]).filterMap CheckpointOp.changed)
    refine Checkpointed.everywhere_step
      ⟨hl.mono hsub, fun s hs => (ht s hs).mono hsub, fun s hs => (hv s hs).mono hsub⟩ hs ?_ ?_
    · intro g l g' hop hg hc
      subst hop
      exact hg.step hc.1 hc.2 (List.Subset.refl _) (List.mem_append_right _ (List.mem_singleton.mpr rfl))
    · exact fun _ _ ho hr => Sourced.recovered ho hr

/-- The store was being saved from this moment of the run on. -/
def SaveBegan (tr : List (MachineEvent × Machine)) (g : StoreInner) : Prop :=
  ∃ pre m, pre ++ [(.beginFlush, m)] <+: tr ∧ m.store = g

private theorem SaveBegan.append {tr : List (MachineEvent × Machine)} {g : StoreInner} (h : SaveBegan tr g)
    (tr' : List (MachineEvent × Machine)) : SaveBegan (tr ++ tr') g := by
  obtain ⟨pre, m, hp, rfl⟩ := h
  exact ⟨pre, m, hp.trans (List.prefix_append _ _), rfl⟩

private theorem routesEvent_take {e : MachineEvent} (h : routesEvent e = some .take) : e = .beginFlush := by
  cases e with
  | beginFlush => rfl
  | _ => cases h

/-- What is being saved, or saved, was the store when a save began. -/
theorem saveBegan_of_saves (tr : List (MachineEvent × Machine)) :
    (∀ g ∈ (saves tr).taken, SaveBegan tr g) ∧ ∀ g ∈ (saves tr).saved, SaveBegan tr g := by
  induction tr using List.reverseRecOn with
  | nil => exact ⟨fun _ he => (nomatch he), fun _ he => (nomatch he)⟩
  | append_singleton tr e ih =>
    obtain ⟨ht, hs⟩ := ih
    have ht := fun g hg => (ht g hg).append [e]
    have hs := fun g hg => (hs g hg).append [e]
    rw [saves, Checkpointed.follow_concat]
    cases he : routesEvent e.1 with
    | none => exact ⟨ht, hs⟩
    | some op =>
      cases op with
      | change l => exact ⟨ht, hs⟩
      | take =>
        refine ⟨fun g hg => ?_, hs⟩
        cases hg
        exact ⟨tr, e.2, routesEvent_take he ▸ List.prefix_rfl, rfl⟩
      | commit => exact ⟨fun _ hg => (nomatch hg), ht⟩
      | abandon => exact ⟨fun _ hg => (nomatch hg), hs⟩
      | crash => exact ⟨fun _ hg => (nomatch hg), hs⟩

/-- What is ever served stems from the swap-instruction responses of this installation:
whatever fails and wherever the process stops, the store keeps its invariant, and each of
its templates has the response and the amounts of an insertion made in the run. -/
theorem sourced_across_crashes {tr : List (MachineEvent × Machine)} (h : IsMachineRun tr) :
    Sourced (storeOps tr) (finalMachine tr).store := by
  obtain ⟨hv, ctr, hctr, hlabels, hlast⟩ := saves_refine h
  have hev := sourced_everywhere hctr
  rw [hlabels, storeOps_eq, hlast] at hev
  exact hv.live ▸ hev.1

def oneRoute : StoreInner := insertRoute .new 7 default 5 6605 .null

/-- One route is inserted and saved. -/
theorem exists_savedRun : ∃ tr, IsMachineRun tr ∧ (saves tr).saved = some oneRoute ∧
    storeOps tr = [.insertRoute 7 default 5 6605 .null] := by
  obtain ⟨file, hf⟩ := exists_flushed oneRoute
  let base : Directory RouteFile := HashMap.empty.insert (tmpName routesPath) (some file)
  refine ⟨[(.store (.insertRoute 7 default 5 6605 .null), ⟨oneRoute, .idle, .empty, .empty⟩),
    (.beginFlush, ⟨oneRoute, .writeRoutes file, .empty, .empty⟩),
    (.routesWritten, ⟨oneRoute, .renameRoutes, base, .empty⟩),
    (.routesRenamed, ⟨oneRoute, .snapshotHops, base.rename (tmpName routesPath) routesPath, .empty⟩)],
    ⟨?_, ?_, ?_, ?_, trivial⟩, rfl, rfl⟩
  · exact .store _ Op.noConfusion (.insertRoute ..)
  · exact .beginFlush rfl hf
  · exact .routesWritten rfl
  · exact .routesRenamed rfl

theorem sourced_across_crashes_one : ∃ tr, IsMachineRun tr ∧ .crash ∈ labels tr ∧
    Sourced [.insertRoute 7 default 5 6605 .null] (finalMachine tr).store := by
  obtain ⟨tr, h, _, hops⟩ := exists_savedRun
  obtain ⟨g, hb⟩ := exists_booted (finalMachine tr).base (finalMachine tr).hopsDir
  have hrun : IsMachineRun (tr ++ [(.crash, { finalMachine tr with store := g, flush := .idle })]) :=
    allSteps_append.mpr ⟨h, .crash hb, trivial⟩
  refine ⟨_, hrun, ?_, ?_⟩
  · rw [labels_append]
    exact List.mem_append_right _ List.mem_cons_self
  · have hsourced := sourced_across_crashes hrun
    rw [storeOps, labels_append, List.filterMap_append] at hsourced
    change Sourced (storeOps tr ++ []) _ at hsourced
    rw [hops] at hsourced
    exact hsourced

end SolanaArbBot.TemplateCache
