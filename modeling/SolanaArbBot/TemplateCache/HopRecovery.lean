import SolanaArbBot.Lib.Checkpoint
import SolanaArbBot.TemplateCache.Persistence

/-! The hop files across crashes. Each DEX has a file of its own, saved at a moment of
its own: the hops of each DEX behave as a value with checkpoints, which only grows. -/
namespace SolanaArbBot.TemplateCache
open Lib

abbrev Hops := HopKey → Option HopTemplate

def noHops : Hops := fun _ => none

def hopsOf (d : DexKind) (g : StoreInner) : Hops := fun k => if k.dex = d then g.hops.get k else none

def hopsEvent (d : DexKind) : MachineEvent → Option (CheckpointOp Op)
  | .store op => some (.change op)
  | .snapshotHops => some .take
  | .hopsRenamed stem => if stem = d.fileStem then some .commit else none
  | .hopsWriteFailed stem => if stem = d.fileStem then some .abandon else none
  | .hopsRenameFailed stem => if stem = d.fileStem then some .abandon else none
  | .crash => some .crash
  | _ => none

def hopSaves (d : DexKind) (tr : List (MachineEvent × Machine)) : Checkpointed Hops :=
  .follow (hopsEvent d) (fun m => hopsOf d m.store) (.start noHops) tr

def HopsChange (d : DexKind) (s : Hops) (op : Op) (s' : Hops) : Prop :=
  op ≠ .restart ∧ ∃ g g', hopsOf d g = s ∧ hopsOf d g' = s' ∧ Step g op g'

/-- A start brings back the last save, and nothing where there is none. -/
def HopsRecovered (o : Option Hops) (s : Hops) : Prop := s = o.getD noHops

/-- The templates of a file are the hops of one DEX under their flattened keys. -/
structure Holds (d : DexKind) (templates : HashMap String HopTemplate) (s : Hops) : Prop where
  keyed : ∀ k t, s k = some t → k.dex = d ∧ t.key = k ∧ k.Colonless
  get : ∀ id t, templates.get id = some t ↔ ∃ k, s k = some t ∧ id = k.templateId

def OnDisk (dir : HopsDir) (k : HopKey) (t : HopTemplate) : Prop :=
  ∃ file, dir.get (hopFileName k.dex.fileStem) = some (some file) ∧
    file.templates.get k.templateId = some t ∧ t.key = k

/-- The groups still to be written, with the one whose file waits for its rename. -/
def FlushPc.todo : FlushPc → Groups
  | .writeHops todo => todo
  | .renameHops _ todo => todo
  | _ => []

/-- The machine as the hops of one DEX with checkpoints. -/
structure HopsView (d : DexKind) (m : Machine) (c : Checkpointed Hops) : Prop where
  live : c.live = hopsOf d m.store
  writing : ∀ dex templates, (d.fileStem, dex, templates) ∈ m.flush.todo →
    ∃ s, c.taken = some s ∧ Holds d templates s
  written : ∀ todo, m.flush = .renameHops d.fileStem todo →
    ∃ file s, m.hopsDir.get (tmpName (hopFileName d.fileStem)) = some (some file) ∧
      c.taken = some s ∧ Holds d file.templates s
  absent : m.hopsDir.get (hopFileName d.fileStem) = none → c.saved = none
  present : ∀ text, m.hopsDir.get (hopFileName d.fileStem) = some text →
    ∃ file s, text = some file ∧ c.saved = some s ∧ Holds d file.templates s

/-- What holds of the machine beside the views of the single DEXes. -/
structure HopsInv (m : Machine) : Prop where
  keyed : HopsKeyed m.store.hops
  stems : ∀ p ∈ m.flush.todo, p.2.1.fileStem = p.1
  distinct : (m.flush.todo.map Prod.fst).Nodup
  toRename : ∀ stem todo, m.flush = .renameHops stem todo →
    (∃ dex : DexKind, stem = dex.fileStem) ∧ stem ∉ todo.map Prod.fst
  names : ∀ name, m.hopsDir.containsKey name → extension name = some "json" →
    ∃ dex : DexKind, name = hopFileName dex.fileStem

theorem tmpName_ne_hopFileName (path stem : String) : tmpName (hopFileName path) ≠ hopFileName stem :=
  (hopFileName_ne_tmp stem path).symm

theorem extension_tmpName (stem : String) : extension (tmpName (hopFileName stem)) ≠ some "json" := by
  have htmp : extension (tmpName (hopFileName stem)) = some "tmp" := by
    simp [extension, tmpName, hopFileName, String.toList_append]
  rw [htmp]
  decide

/-- What a flush writes for each DEX are its hops. -/
theorem HopGroups.spec {g : StoreInner} {groups : Groups} (hk : HopsKeyed g.hops)
    (h : HopGroups g groups) : (groups.map Prod.fst).Nodup ∧
      ∀ stem dex templates, (stem, dex, templates) ∈ groups →
        dex.fileStem = stem ∧ Holds dex templates (hopsOf dex g) := by
  obtain ⟨hops, hl, hg⟩ := h
  obtain ⟨hstems, hfind⟩ := groupHops_spec hk hl
  refine ⟨hg.keys_nodup, ?_⟩
  intro stem dex templates hm
  have hget := hg.mem_iff.mp hm
  have hstem := hstems stem dex templates hget
  refine ⟨hstem, ?_, ?_⟩
  · intro k t hkt
    unfold hopsOf at hkt
    split at hkt
    · next hd => exact ⟨hd, hk k t hkt⟩
    · cases hkt
  · intro id t
    have hplace : (hops.foldl groupHop .empty).find (stem, id) = templates.get id := by
      rw [ByDex.find, hget, Option.bind_some]
    rw [← hplace, hfind]
    constructor
    · rintro ⟨k, hkt, hp⟩
      obtain ⟨hs, hid⟩ := Prod.mk.inj hp
      have hdex := DexKind.fileStem_injective (hs.trans hstem.symm)
      exact ⟨k, (if_pos hdex).trans hkt, hid.symm⟩
    · rintro ⟨k, hkt, rfl⟩
      unfold hopsOf at hkt
      split at hkt
      · next hd => exact ⟨k, hkt, by rw [HopKey.place, hd, hstem]⟩
      · cases hkt

section Recovery
variable {m : Machine} {c : DexKind → Checkpointed Hops}

/-- The file of a DEX holds a hop exactly if it was saved. -/
theorem HopsView.onDisk_iff {d : DexKind} {c : Checkpointed Hops} (h : HopsView d m c)
    {k : HopKey} (hd : k.dex = d) (t : HopTemplate) :
    OnDisk m.hopsDir k t ↔ c.saved.getD noHops k = some t := by
  subst hd
  constructor
  · rintro ⟨file, hg, ht, hkey⟩
    obtain ⟨_, s, hfile, hs, hh⟩ := h.present _ hg
    cases hfile
    obtain ⟨k', hk', hid⟩ := (hh.get _ _).mp ht
    obtain ⟨_, hkey', _⟩ := hh.keyed k' t hk'
    rw [hs, Option.getD_some, ← hkey, hkey']
    exact hk'
  · intro hk
    cases hg : m.hopsDir.get (hopFileName k.dex.fileStem) with
    | none =>
      rw [h.absent hg] at hk
      cases hk
    | some text =>
      obtain ⟨file, s, rfl, hs, hh⟩ := h.present text hg
      rw [hs] at hk
      exact ⟨file, hg, (hh.get _ _).mpr ⟨k, hk, rfl⟩, (hh.keyed k t hk).2.1⟩

/-- The hops a start comes up with are those in the files. -/
theorem booted_hops (hi : HopsInv m) (hv : ∀ d, HopsView d m (c d)) {g : StoreInner}
    (hb : Booted m.base m.hopsDir g) (k : HopKey) (t : HopTemplate) :
    g.hops.get k = some t ↔ OnDisk m.hopsDir k t := by
  obtain ⟨g₀, count, hops, hl, rfl, g₁, rfl, _⟩ := hb.spec
  obtain ⟨l, hmem, hr⟩ := hl.spec
  have hg₀ : g₀.hops = (l.foldl loadHop (.new, 0)).1.hops := congrArg (fun r => r.1.hops) hr
  have hl : ∀ t, t ∈ l ↔ OnDisk m.hopsDir t.key t := by
    intro t
    rw [hmem]
    constructor
    · rintro ⟨name, file, id, hx, hg, ht⟩
      obtain ⟨dex, rfl⟩ := hi.names name (HashMap.containsKey_iff.mpr ⟨_, hg⟩) hx
      obtain ⟨_, s, hfile, _, hh⟩ := (hv dex).present _ hg
      cases hfile
      obtain ⟨k, hk, rfl⟩ := (hh.get id t).mp ht
      obtain ⟨rfl, rfl, _⟩ := hh.keyed k t hk
      exact ⟨file, hg, ht, rfl⟩
    · rintro ⟨file, hg, ht, _⟩
      exact ⟨_, file, _, extension_hopFileName t.key.dex.fileStem_ne_empty, hg, ht⟩
  have hnew : StoreInner.new.hops.get k = none := HashMap.get_empty k
  dsimp only
  rw [hg₀, get_foldl_loadHop, hnew, Option.none_or]
  constructor
  · intro hf
    obtain ⟨rfl, hm⟩ := key_of_find hf
    exact (hl t).mp hm
  · intro hd
    have hkey : t.key = k := by
      obtain ⟨_, _, _, hkey⟩ := hd
      exact hkey
    cases hf : l.find? fun t => decide (k = t.key) with
    | none =>
      have hno := List.find?_eq_none.mp hf t ((hl t).mpr (hkey ▸ hd))
      exact absurd (decide_eq_true hkey.symm) hno
    | some u =>
      obtain ⟨hkey', hm⟩ := key_of_find hf
      have hu := (hl u).mp hm
      rw [← hkey'] at hu
      have hsu := ((hv k.dex).onDisk_iff rfl u).mp hu
      rw [((hv k.dex).onDisk_iff rfl t).mp hd] at hsu
      rw [Option.some.inj hsu]

/-- What is saved for a DEX are hops of it, under their keys. -/
theorem HopsView.saved_keyed {d : DexKind} {c : Checkpointed Hops} (h : HopsView d m c) {s : Hops}
    (hs : c.saved = some s) {k : HopKey} {t : HopTemplate} (hk : s k = some t) :
    k.dex = d ∧ t.key = k ∧ k.Colonless := by
  cases hg : m.hopsDir.get (hopFileName d.fileStem) with
  | none =>
    rw [h.absent hg] at hs
    cases hs
  | some text =>
    obtain ⟨file, s', _, hs', hh⟩ := h.present text hg
    rw [hs] at hs'
    cases hs'
    exact hh.keyed k t hk

theorem booted_hopsOf (hi : HopsInv m) (hv : ∀ d, HopsView d m (c d)) {g : StoreInner}
    (hb : Booted m.base m.hopsDir g) (d : DexKind) :
    HopsRecovered (c d).saved (hopsOf d g) := by
  funext k
  unfold hopsOf
  split
  · next hd =>
    apply Option.ext
    intro t
    exact (booted_hops hi hv hb k t).trans ((hv d).onDisk_iff hd t)
  · next hd =>
    cases hs : (c d).saved with
    | none => rfl
    | some s =>
      rw [Option.getD_some]
      cases hk : s k with
      | none => rfl
      | some t => exact absurd ((hv d).saved_keyed hs hk).1 hd

theorem booted_keyed (hi : HopsInv m) (hv : ∀ d, HopsView d m (c d)) {g : StoreInner}
    (hb : Booted m.base m.hopsDir g) : HopsKeyed g.hops := by
  intro k t hk
  have hs := ((hv k.dex).onDisk_iff rfl t).mp ((booted_hops hi hv hb k t).mp hk)
  obtain ⟨s, hsaved, hst⟩ : ∃ s, (c k.dex).saved = some s ∧ s k = some t := by
    cases ho : (c k.dex).saved with
    | none =>
      rw [ho] at hs
      cases hs
    | some s =>
      rw [ho] at hs
      exact ⟨s, rfl, hs⟩
  exact ((hv k.dex).saved_keyed hsaved hst).2

def MachineEvent.Colonless : MachineEvent → Prop
  | .store op => (HopOp.store op).Colonless
  | _ => True

/-- Replacing the file of one DEX leaves the files of the others. -/
private theorem rename_other (dir : HopsDir) {stem stem' : String} (h : stem ≠ stem') :
    (Directory.rename dir (tmpName (hopFileName stem')) (hopFileName stem')).get (hopFileName stem) =
      dir.get (hopFileName stem) :=
  Directory.get_rename_ne (tmpName_ne_hopFileName stem' stem).symm fun he => h (hopFileName_injective he)

theorem HopsInv.step (hi : HopsInv m) (hv : ∀ d, HopsView d m (c d)) {e : MachineEvent} {m' : Machine}
    (hc : e.Colonless) (hs : MachineStep m e m') : HopsInv m' := by
  have hkeyed := hi.keyed
  cases hs with
  | store op hr ho => exact ⟨hkeyed.step hc (.store op ho), hi.stems, hi.distinct, hi.toRename, hi.names⟩
  | @snapshotHops groups hpc hg =>
    obtain ⟨hn, hspec⟩ := hg.spec hkeyed
    refine ⟨hkeyed, ?_, hn, ?_, hi.names⟩
    · rintro ⟨stem, dex, templates⟩ hm
      exact (hspec stem dex templates hm).1
    · intro _ _ he
      cases he
  | @hopsWritten stem dex templates todo hpc =>
    have hst := hi.stems
    have hdi := hi.distinct
    rw [hpc] at hst hdi
    obtain ⟨hstem, hst⟩ := List.forall_mem_cons.mp hst
    obtain ⟨hnot, hdi⟩ := List.nodup_cons.mp hdi
    refine ⟨hkeyed, hst, hdi, ?_, ?_⟩
    · intro stem' todo' he
      cases he
      exact ⟨⟨dex, hstem.symm⟩, hnot⟩
    · intro name hk hx
      by_cases hn : name = tmpName (hopFileName stem)
      · exact absurd hx (hn ▸ extension_tmpName stem)
      · rw [HashMap.containsKey, HashMap.get_insert, if_neg hn] at hk
        exact hi.names name hk hx
  | @hopsWriteFailed stem dex templates todo dir hpc ht =>
    have hst := hi.stems
    have hdi := hi.distinct
    rw [hpc] at hst hdi
    refine ⟨hkeyed, (List.forall_mem_cons.mp hst).2, (List.nodup_cons.mp hdi).2, ?_, ?_⟩
    · intro _ _ he
      cases he
    · intro name hk hx
      by_cases hn : name = tmpName (hopFileName stem)
      · exact absurd hx (hn ▸ extension_tmpName stem)
      · rw [HashMap.containsKey, ht.get_ne hn] at hk
        exact hi.names name hk hx
  | @hopsRenamed stem todo hpc =>
    have hst := hi.stems
    have hdi := hi.distinct
    rw [hpc] at hst hdi
    obtain ⟨⟨dex, hstem⟩, _⟩ := hi.toRename stem todo hpc
    refine ⟨hkeyed, hst, hdi, ?_, ?_⟩
    · intro _ _ he
      cases he
    · intro name hk hx
      by_cases hn : name = hopFileName stem
      · exact ⟨dex, hstem ▸ hn⟩
      · by_cases ht : name = tmpName (hopFileName stem)
        · exact absurd hx (ht ▸ extension_tmpName stem)
        · rw [HashMap.containsKey, Directory.get_rename_ne ht hn] at hk
          exact hi.names name hk hx
  | @hopsRenameFailed stem todo hpc =>
    have hst := hi.stems
    have hdi := hi.distinct
    rw [hpc] at hst hdi
    refine ⟨hkeyed, hst, hdi, ?_, hi.names⟩
    intro _ _ he
    cases he
  | crash hb =>
    refine ⟨booted_keyed hi hv hb, fun _ hm => absurd hm List.not_mem_nil, List.nodup_nil, ?_, hi.names⟩
    intro _ _ he
    cases he
  | _ =>
    refine ⟨hkeyed, fun _ hm => absurd hm List.not_mem_nil, List.nodup_nil, ?_, hi.names⟩
    intro _ _ he
    cases he

private theorem not_head {stem : String} {p : DexKind × HashMap String HopTemplate} {todo : Groups}
    (hn : (((stem, p) :: todo).map Prod.fst).Nodup) {q : DexKind × HashMap String HopTemplate} :
    (stem, q) ∉ todo := fun hm => (List.nodup_cons.mp hn).1 (List.mem_map.mpr ⟨_, hm, rfl⟩)

/-- A step of the machine is a step of the hops of each DEX, or none. -/
theorem HopsView.step {d : DexKind} (hi : HopsInv m) (hv : ∀ d, HopsView d m (c d)) {e : MachineEvent}
    {m' : Machine} (hs : MachineStep m e m') :
    Checkpointed.Matched (HopsChange d) HopsRecovered (HopsView d m') (c d) (hopsEvent d e) := by
  have h := hv d
  have hlive := h.live
  cases hs with
  | @store g op hr ho =>
    have hc : CheckpointStep (HopsChange d) HopsRecovered (c d) (.change op)
        { c d with live := hopsOf d g } := .change op ⟨hr, m.store, g, hlive.symm, rfl, ho⟩
    exact ⟨_, hc, rfl, h.writing, h.written, h.absent, h.present⟩
  | @snapshotHops groups hpc hg =>
    have hc : CheckpointStep (HopsChange d) HopsRecovered (c d) .take
        { c d with taken := some (c d).live } := .take
    refine ⟨_, hc, hlive, ?_, ?_, h.absent, h.present⟩
    · intro dex templates hm
      obtain ⟨hstem, hh⟩ := (hg.spec hi.keyed).2 _ _ _ hm
      have hdex := DexKind.fileStem_injective hstem
      subst hdex
      exact ⟨_, rfl, hlive ▸ hh⟩
    · intro _ he
      cases he
  | @hopsWritten stem dex templates todo hpc =>
    have hw := h.writing
    rw [hpc] at hw
    refine ⟨hlive, fun dex' t hm => hw dex' t (List.mem_cons_of_mem _ hm), ?_, ?_, ?_⟩
    · intro todo' he
      cases he
      obtain ⟨s, hs, hh⟩ := hw dex templates List.mem_cons_self
      exact ⟨hopFile dex templates, s, (HashMap.get_insert _ _ _ _).trans (if_pos rfl), hs, hh⟩
    · intro ha
      rw [HashMap.get_insert, if_neg (tmpName_ne_hopFileName _ _).symm] at ha
      exact h.absent ha
    · intro text ha
      rw [HashMap.get_insert, if_neg (tmpName_ne_hopFileName _ _).symm] at ha
      exact h.present text ha
  | @hopsWriteFailed stem dex templates todo dir hpc ht =>
    have hw := h.writing
    have hdi := hi.distinct
    rw [hpc] at hw hdi
    have hget := ht.get_ne (tmpName_ne_hopFileName stem d.fileStem).symm
    by_cases hd : stem = d.fileStem
    · have he : hopsEvent d (.hopsWriteFailed stem) = some .abandon := if_pos hd
      have hc : CheckpointStep (HopsChange d) HopsRecovered (c d) .abandon
          { c d with taken := none } := .abandon
      rw [he]
      subst hd
      refine ⟨_, hc, hlive, fun _ _ hm => absurd hm (not_head hdi), ?_, ?_, ?_⟩
      · intro _ he
        cases he
      · exact fun ha => h.absent (hget ▸ ha)
      · exact fun text ha => h.present text (hget ▸ ha)
    · have he : hopsEvent d (.hopsWriteFailed stem) = none := if_neg hd
      rw [he]
      refine ⟨hlive, fun dex' t hm => hw dex' t (List.mem_cons_of_mem _ hm), ?_, ?_, ?_⟩
      · intro _ he
        cases he
      · exact fun ha => h.absent (hget ▸ ha)
      · exact fun text ha => h.present text (hget ▸ ha)
  | @hopsRenamed stem todo hpc =>
    have hw := h.writing
    rw [hpc] at hw
    obtain ⟨_, hnot⟩ := hi.toRename stem todo hpc
    by_cases hd : stem = d.fileStem
    · have he : hopsEvent d (.hopsRenamed stem) = some .commit := if_pos hd
      rw [he]
      subst hd
      obtain ⟨file, s, htmp, hs, hh⟩ := h.written todo hpc
      have hget := Directory.get_rename_target htmp (hopFileName d.fileStem)
      refine ⟨_, .commit hs, hlive, ?_, ?_, ?_, ?_⟩
      · exact fun dex t hm => absurd (List.mem_map.mpr ⟨_, hm, rfl⟩) hnot
      · intro _ he
        cases he
      · intro ha
        rw [hget] at ha
        cases ha
      · intro text ha
        rw [hget] at ha
        cases ha
        exact ⟨file, s, rfl, rfl, hh⟩
    · have he : hopsEvent d (.hopsRenamed stem) = none := if_neg hd
      rw [he]
      have hget := rename_other m.hopsDir (Ne.symm hd)
      refine ⟨hlive, hw, ?_, ?_, ?_⟩
      · intro _ he
        cases he
      · exact fun ha => h.absent (hget ▸ ha)
      · exact fun text ha => h.present text (hget ▸ ha)
  | @hopsRenameFailed stem todo hpc =>
    have hw := h.writing
    rw [hpc] at hw
    obtain ⟨_, hnot⟩ := hi.toRename stem todo hpc
    by_cases hd : stem = d.fileStem
    · have he : hopsEvent d (.hopsRenameFailed stem) = some .abandon := if_pos hd
      have hc : CheckpointStep (HopsChange d) HopsRecovered (c d) .abandon
          { c d with taken := none } := .abandon
      rw [he]
      subst hd
      refine ⟨_, hc, hlive, ?_, ?_, h.absent, h.present⟩
      · exact fun dex t hm => absurd (List.mem_map.mpr ⟨_, hm, rfl⟩) hnot
      · intro _ he
        cases he
    · have he : hopsEvent d (.hopsRenameFailed stem) = none := if_neg hd
      rw [he]
      refine ⟨hlive, hw, ?_, h.absent, h.present⟩
      intro _ he
      cases he
  | crash hb =>
    refine ⟨_, .crash (booted_hopsOf hi hv hb d), rfl, fun _ _ hm => (nomatch hm), ?_, h.absent, h.present⟩
    intro _ he
    cases he
  | _ =>
    refine ⟨hlive, fun _ _ hm => (nomatch hm), ?_, h.absent, h.present⟩
    intro _ he
    cases he

end Recovery
/-! Growth -/

def Grows (s s' : Hops) : Prop := ∀ k, (s k).isSome → (s' k).isSome

private theorem containsKey_recordHop (slot : Option UInt64) (g : StoreInner) (hop : Value)
    {k : HopKey} (h : g.hops.containsKey k) : (recordHop slot g hop).hops.containsKey k := by
  unfold recordHop
  split
  · exact h
  · dsimp only
    rw [HashMap.containsKey_modify, HashMap.containsKey, HashMap.get_orInsert, Option.isSome_or]
    exact Bool.or_eq_true_iff.mpr (Or.inl h)

/-- Recording hops loses none. -/
theorem containsKey_recordHops (g : StoreInner) (plan : Value) (slot : Option UInt64) {k : HopKey}
    (h : g.hops.containsKey k) : (recordHops g plan slot).hops.containsKey k := by
  unfold recordHops
  induction plan.asArray.getD [] generalizing g with
  | nil => exact h
  | cons hop hops ih => exact ih _ (containsKey_recordHop slot g hop h)

theorem HopsChange.grows {d : DexKind} {s s' : Hops} {op : Op} (h : HopsChange d s op s') :
    Grows s s' := by
  obtain ⟨hr, g, g', rfl, rfl, hs⟩ := h
  intro k hk
  unfold hopsOf at hk ⊢
  split at hk
  · next hd =>
    rw [if_pos hd]
    rcases hs.hops_cases hr with he | ⟨plan, slot, _, rfl⟩
    · rw [he]
      exact hk
    · exact containsKey_recordHops g plan slot hk
  · cases hk

theorem hops_growing (d : DexKind) : Checkpointed.Growing Grows (HopsChange d) HopsRecovered where
  refl _ _ hk := hk
  trans _ _ _ h h' k hk := h' k (h k hk)
  change _ _ _ h := h.grows
  recover s t h k hk := by
    rw [HopsRecovered, Option.getD_some] at h
    exact h ▸ hk

/-! Runs -/

/-- The hops that a run records are free of the separator. -/
def ColonlessRun (tr : List (MachineEvent × Machine)) : Prop := ∀ e ∈ labels tr, e.Colonless

/-- The hops of one DEX with checkpoints, as part of the whole machine. -/
def HopsState (d : DexKind) (m : Machine) (c : Checkpointed Hops) : Prop :=
  HopsInv m ∧ ∃ all : DexKind → Checkpointed Hops, all d = c ∧ ∀ d, HopsView d m (all d)

theorem HopsState.view {d : DexKind} {m : Machine} {c : Checkpointed Hops} (h : HopsState d m c) :
    HopsView d m c := by
  obtain ⟨_, all, rfl, hv⟩ := h
  exact hv d

theorem HopsState.start (d : DexKind) : HopsState d .new (.start noHops) := by
  refine ⟨⟨HopsKeyed.empty, fun _ hm => (nomatch hm), List.nodup_nil, ?_, ?_⟩,
    fun _ => .start noHops, rfl, fun d => ⟨?_, fun _ _ hm => (nomatch hm), ?_, fun _ => rfl, ?_⟩⟩
  · intro _ _ he
    cases he
  · intro name hk
    rw [HashMap.containsKey, Machine.new, HashMap.get_empty] at hk
    cases hk
  · funext k
    unfold hopsOf
    split
    · exact (HashMap.get_empty k).symm
    · rfl
  · intro _ he
    cases he
  · intro text he
    rw [Machine.new, HashMap.get_empty] at he
    cases he

theorem HopsState.step {d : DexKind} {m m' : Machine} {c : Checkpointed Hops} {e : MachineEvent}
    (h : HopsState d m c) (hc : e.Colonless) (hs : MachineStep m e m') :
    Checkpointed.Matched (HopsChange d) HopsRecovered (HopsState d m') c (hopsEvent d e) := by
  obtain ⟨hi, all, rfl, hv⟩ := h
  have hi' := hi.step hv hc hs
  have hall : ∀ d, ∃ c', HopsView d m' c' ∧ match hopsEvent d e with
      | none => all d = c'
      | some op => CheckpointStep (HopsChange d) HopsRecovered (all d) op c' := by
    intro d
    have hstep := HopsView.step (d := d) hi hv hs
    cases he : hopsEvent d e with
    | none =>
      rw [he] at hstep
      exact ⟨all d, hstep, rfl⟩
    | some op =>
      rw [he] at hstep
      obtain ⟨c', hc', hv'⟩ := hstep
      exact ⟨c', hv', hc'⟩
  choose all' hv' hs' using hall
  have hd := hs' d
  cases he : hopsEvent d e with
  | none =>
    rw [he] at hd
    exact ⟨hi', all', hd.symm, hv'⟩
  | some op =>
    rw [he] at hd
    exact ⟨all' d, hd, hi', all', rfl, hv'⟩

/-- From any state on, the machine refines the hops of each DEX with checkpoints. -/
theorem HopsState.refines {d : DexKind} {m : Machine} {c : Checkpointed Hops} (h : HopsState d m c)
    {tr : List (MachineEvent × Machine)} (htr : AllSteps MachineStep m tr) (hc : ColonlessRun tr) :
    let c' := Checkpointed.follow (hopsEvent d) (fun m => hopsOf d m.store) c tr
    HopsState d (lastState m tr) c' ∧
      ∃ ctr, AllSteps (CheckpointStep (HopsChange d) HopsRecovered) c ctr ∧
        labels ctr = (labels tr).filterMap (hopsEvent d) ∧ lastState c ctr = c' :=
  Checkpointed.follow_refines (hopsEvent d) (fun m => hopsOf d m.store)
    (C := fun m e m' => MachineStep m e m' ∧ e.Colonless) (fun _ _ hv => hv.view.live)
    (fun _ _ _ _ hv hs => hv.step hs.2 hs.1) h (htr.and (allSteps_label_iff.mpr hc))

theorem HopsState.run {tr : List (MachineEvent × Machine)} (h : IsMachineRun tr) (hc : ColonlessRun tr)
    (d : DexKind) : HopsState d (finalMachine tr) (hopSaves d tr) :=
  ((HopsState.start d).refines h hc).1

/-- What is saved of a DEX is below what is live. -/
theorem hopSaves_ordered {tr : List (MachineEvent × Machine)} (h : IsMachineRun tr) (hc : ColonlessRun tr)
    (d : DexKind) : (hopSaves d tr).Ordered Grows := by
  obtain ⟨_, ctr, hctr, _, hlast⟩ := (HopsState.start d).refines h hc
  rw [hopSaves, ← hlast]
  exact hctr.invariant (I := fun c => c.Ordered Grows) (Checkpointed.ordered_start _)
    fun _ _ _ ho hs => (hops_growing d).ordered_step ho hs

theorem ColonlessRun.left {tr tr' : List (MachineEvent × Machine)} (h : ColonlessRun (tr ++ tr')) :
    ColonlessRun tr := fun e he => h e (labels_append tr tr' ▸ List.mem_append_left _ he)

theorem ColonlessRun.right {tr tr' : List (MachineEvent × Machine)} (h : ColonlessRun (tr ++ tr')) :
    ColonlessRun tr' := fun e he => h e (labels_append tr tr' ▸ List.mem_append_right _ he)

def oneKey : HopKey := ⟨.raydiumV2, "pool", "WSOL", "MINT", .none, 0⟩

def oneHop : HopTemplate := ⟨.raydiumV2, "pool", "WSOL", "MINT", .none, 0, 1, none, none⟩

def onePlan : Value := .array [sampleHop 100 "pool" "WSOL" "MINT"]

/-- The hop is recorded, and a flush whose first write fails saves it. -/
theorem exists_savedHopRun : ∃ tr, IsMachineRun tr ∧ ColonlessRun tr ∧
    OnDisk (finalMachine tr).hopsDir oneKey oneHop := by
  let g := recordHops .new onePlan none
  let templates : HashMap String HopTemplate := HashMap.empty.insert oneKey.templateId oneHop
  let dir : HopsDir :=
    HashMap.empty.insert (tmpName (hopFileName "raydium_v2")) (some (hopFile .raydiumV2 templates))
  obtain ⟨file, hf⟩ := exists_flushed g
  have hhops : g.hops = HashMap.empty.insert oneKey oneHop := by decide
  have hgroup : [(oneKey, oneHop)].foldl groupHop .empty =
      HashMap.empty.insert "raydium_v2" (.raydiumV2, templates) := by decide
  refine ⟨[(.store (.recordHops onePlan none), ⟨g, .idle, .empty, .empty⟩),
    (.beginFlush, ⟨g, .writeRoutes file, .empty, .empty⟩),
    (.routesWriteFailed, ⟨g, .snapshotHops, .empty, .empty⟩),
    (.snapshotHops, ⟨g, .writeHops [("raydium_v2", .raydiumV2, templates)], .empty, .empty⟩),
    (.hopsWritten "raydium_v2", ⟨g, .renameHops "raydium_v2" [], .empty, dir⟩),
    (.hopsRenamed "raydium_v2", ⟨g, .writeHops [], .empty,
      Directory.rename dir (tmpName (hopFileName "raydium_v2")) (hopFileName "raydium_v2")⟩)],
    ⟨?_, ?_, ?_, ?_, ?_, ?_, trivial⟩, ?_, ?_⟩
  · exact .store _ Op.noConfusion (.recordHops ..)
  · exact .beginFlush rfl hf
  · exact .routesWriteFailed rfl .untouched
  · refine .snapshotHops rfl ⟨[(oneKey, oneHop)], hhops ▸ HashMap.listing_single _ _, ?_⟩
    rw [hgroup]
    exact HashMap.listing_single _ _
  · exact .hopsWritten rfl
  · exact .hopsRenamed rfl
  · intro e he
    simp only [labels_cons, labels_nil, List.mem_cons, List.not_mem_nil, or_false] at he
    rcases he with rfl | rfl | rfl | rfl | rfl | rfl
    · exact (by decide : ∀ hop ∈ onePlan.asArray.getD [], ∀ k ∈ hopKey hop, k.Colonless)
    all_goals trivial
  · exact ⟨hopFile .raydiumV2 templates, Directory.get_rename_target (HashMap.get_insert _ _ _ _) _,
      HashMap.get_insert _ _ _ _, rfl⟩

end SolanaArbBot.TemplateCache
