import SolanaArbBot.TemplateCache.Runs

/-! The hop files, one per DEX: what a flush writes and what a load into a store
adds. Directories and maps are visited in some order. -/
namespace SolanaArbBot.TemplateCache
open Lib

structure DexHopFile where
  schemaVersion : UInt32
  dex : DexKind
  templates : HashMap String HopTemplate

/-- What is read from each file of a directory, nothing where it is not a hop file. -/
abbrev HopsDir := HashMap String (Option DexHopFile)

/-- The text after the last dot of a file name, when there is some before it. -/
def extension (name : String) : Option String :=
  let after := name.toList.reverse.takeWhile (· ≠ '.')
  match name.toList.reverse.dropWhile (· ≠ '.') with
  | '.' :: before => if before = [] then none else some (String.ofList after.reverse)
  | _ => none

def HopTemplate.key (tmpl : HopTemplate) : HopKey where
  dex := tmpl.dex
  poolOrAmmKey := tmpl.poolOrAmmKey
  inputMint := tmpl.inputMint
  outputMint := tmpl.outputMint
  direction := tmpl.direction
  remainingAccountsHash := tmpl.remainingAccountsHash

/-- Load one template, counting it; a hop that is known stays. -/
def loadHop (s : StoreInner × Nat) (tmpl : HopTemplate) : StoreInner × Nat :=
  ({ s.1 with hops := s.1.hops.orInsert tmpl.key tmpl }, s.2 + 1)

def loadFromDisk (g : StoreInner) (files : List (List (String × HopTemplate))) : StoreInner × Nat :=
  files.foldl (fun s templates => templates.foldl (fun s p => loadHop s p.2) s) (g, 0)

def hopFiles (entries : List (String × Option DexHopFile)) : List DexHopFile :=
  entries.filterMap fun entry => if extension entry.1 = some "json" then entry.2 else none

/-- A store and a count that loading the directory may give. -/
def LoadedHops (g : StoreInner) (dir : HopsDir) (r : StoreInner × Nat) : Prop :=
  ∃ entries files, dir.Listing entries ∧
    List.Forall₂ (fun (file : DexHopFile) l => file.templates.Listing l) (hopFiles entries) files ∧
    r = loadFromDisk g files

/-- The templates of each DEX under the stem of its file. -/
abbrev ByDex := HashMap String (DexKind × HashMap String HopTemplate)

def groupHop (byDex : ByDex) (p : HopKey × HopTemplate) : ByDex :=
  let stem := p.1.dex.fileStem
  (byDex.orInsert stem (p.1.dex, .empty)).modify stem fun (dex, map) =>
    (dex, map.insert p.1.templateId p.2)

def HopsDir.rename (dir : HopsDir) (source target : String) : HopsDir :=
  match dir.get source with
  | some file => (dir.remove source).insert target file
  | none => dir

def writeHopFile (dir : HopsDir) (p : String × DexKind × HashMap String HopTemplate) : HopsDir :=
  let (stem, dex, templates) := p
  let path := stem ++ ".json"
  let file : DexHopFile := { schemaVersion := 1, dex := dex, templates := templates }
  let tmp := path ++ ".tmp"
  HopsDir.rename (dir.insert tmp (some file)) tmp path

/-- A directory that flushing the hops of the store into another may leave. -/
def FlushedHops (g : StoreInner) (dir dir' : HopsDir) : Prop :=
  ∃ hops byDex, g.hops.Listing hops ∧ (hops.foldl groupHop .empty).Listing byDex ∧
    dir' = byDex.foldl writeHopFile dir

/-! Runs of the store that load hop files at any time. -/

inductive HopOp where
  | store (op : Op)
  | load (dir : HopsDir)

inductive HopStep : StoreInner → HopOp → StoreInner → Prop
  | store {g g'} (op) (h : Step g op g') : HopStep g (.store op) g'
  | load {g g' count} (dir) (h : LoadedHops g dir (g', count)) : HopStep g (.load dir) g'

abbrev IsHopRun (tr : List (HopOp × StoreInner)) : Prop := AllSteps HopStep .new tr

def HopOp.Colonless : HopOp → Prop
  | .store (.recordHops plan _) => ∀ hop ∈ plan.asArray.getD [], ∀ k ∈ hopKey hop, k.Colonless
  | .store _ => True
  | .load dir => ∀ name file id tmpl, dir.get name = some (some file) →
      file.templates.get id = some tmpl → tmpl.key.Colonless

/-- Each template repeats its key, whose names are free of the separator. -/
def HopsKeyed (hops : HashMap HopKey HopTemplate) : Prop :=
  ∀ k t, hops.get k = some t → t.key = k ∧ k.Colonless

/-! Loading -/

theorem loadFromDisk_eq (g : StoreInner) (files : List (List (String × HopTemplate))) :
    loadFromDisk g files = (files.flatten.map Prod.snd).foldl loadHop (g, 0) := by
  rw [loadFromDisk, List.foldl_map, List.foldl_flatten]

theorem get_foldl_loadHop (l : List HopTemplate) (s : StoreInner × Nat) (k : HopKey) :
    (l.foldl loadHop s).1.hops.get k =
      (s.1.hops.get k).or (l.find? fun t => decide (k = t.key)) := by
  induction l generalizing s with
  | nil => rw [List.foldl_nil, List.find?_nil, Option.or_none]
  | cons t l ih =>
    rw [List.foldl_cons, ih, loadHop]
    dsimp only
    rw [HashMap.get_orInsert, Option.or_assoc, List.find?_cons]
    by_cases h : k = t.key
    · simp [h]
    · simp [h]

theorem key_of_find {k : HopKey} {l : List HopTemplate} {t : HopTemplate}
    (h : (l.find? fun t => decide (k = t.key)) = some t) : k = t.key ∧ t ∈ l := by
  have hkey := List.find?_some h
  exact ⟨of_decide_eq_true hkey, List.mem_of_find?_eq_some h⟩

private theorem mem_flatten_listings {fs : List DexHopFile} {files : List (List (String × HopTemplate))}
    (h : List.Forall₂ (fun (file : DexHopFile) l => file.templates.Listing l) fs files)
    (id : String) (t : HopTemplate) :
    (id, t) ∈ files.flatten ↔ ∃ file ∈ fs, file.templates.get id = some t := by
  induction h with
  | nil => simp
  | cons hl _ ih => rw [List.flatten_cons, List.mem_append, ih, hl.mem_iff, List.exists_mem_cons_iff]

private theorem mem_hopFiles {dir : HopsDir} {entries : List (String × Option DexHopFile)}
    (h : dir.Listing entries) (file : DexHopFile) :
    file ∈ hopFiles entries ↔
      ∃ name, extension name = some "json" ∧ dir.get name = some (some file) := by
  rw [hopFiles, List.mem_filterMap]
  constructor
  · rintro ⟨⟨name, contents⟩, hm, he⟩
    by_cases hx : extension name = some "json"
    · rw [if_pos hx] at he
      exact ⟨name, hx, he ▸ h.mem_iff.mp hm⟩
    · rw [if_neg hx] at he
      cases he
  · rintro ⟨name, hx, hg⟩
    exact ⟨(name, some file), h.mem_iff.mpr hg, if_pos hx⟩

/-- What a load adds: for each key one of the templates that have it. -/
theorem LoadedHops.spec {g : StoreInner} {dir : HopsDir} {r : StoreInner × Nat}
    (h : LoadedHops g dir r) : ∃ l : List HopTemplate,
      (∀ t, t ∈ l ↔ ∃ name file id, extension name = some "json" ∧
        dir.get name = some (some file) ∧ file.templates.get id = some t) ∧
      r = l.foldl loadHop (g, 0) := by
  obtain ⟨entries, files, he, hf, rfl⟩ := h
  refine ⟨files.flatten.map Prod.snd, ?_, loadFromDisk_eq g files⟩
  intro t
  rw [List.mem_map]
  constructor
  · rintro ⟨⟨id, t⟩, hm, rfl⟩
    obtain ⟨file, hfile, ht⟩ := (mem_flatten_listings hf id t).mp hm
    obtain ⟨name, hx, hg⟩ := (mem_hopFiles he file).mp hfile
    exact ⟨name, file, id, hx, hg, ht⟩
  · rintro ⟨name, file, id, hx, hg, ht⟩
    have hfile := (mem_hopFiles he file).mpr ⟨name, hx, hg⟩
    exact ⟨(id, t), (mem_flatten_listings hf id t).mpr ⟨file, hfile, ht⟩, rfl⟩

theorem LoadedHops.get {g : StoreInner} {dir : HopsDir} {r : StoreInner × Nat}
    (h : LoadedHops g dir r) {k : HopKey} {t : HopTemplate} (hk : r.1.hops.get k = some t) :
    g.hops.get k = some t ∨ (k = t.key ∧ ∃ name file id, extension name = some "json" ∧
      dir.get name = some (some file) ∧ file.templates.get id = some t) := by
  obtain ⟨l, hl, rfl⟩ := h.spec
  rw [get_foldl_loadHop] at hk
  rcases Option.or_eq_some_iff.mp hk with hk | ⟨_, hk⟩
  · exact Or.inl hk
  · obtain ⟨hkey, hm⟩ := key_of_find hk
    exact Or.inr ⟨hkey, (hl t).mp hm⟩

/-! The invariant of the hop map -/

private theorem pushHotRoute_hops (g : StoreInner) (sig : Sig) (t : RouteTemplate) :
    (pushHotRoute g sig t).hops = g.hops := by
  unfold pushHotRoute
  split <;> rfl

private theorem insertRoute_hops (g : StoreInner) (sig : Sig) (ix : SwapInstructionsResponse)
    (a q : UInt64) (plan : Value) : (insertRoute g sig ix a q plan).hops = g.hops := by
  unfold insertRoute indexHopPair
  split
  · rfl
  · split
    · rfl
    · split <;> exact pushHotRoute_hops g sig (firstTemplate sig ix a q)

private theorem getRouteWrite_hops (g : StoreInner) (sig : Sig) :
    (getRouteWrite g sig).1.hops = g.hops := by
  unfold getRouteWrite
  split
  · exact pushHotRoute_hops _ _ _
  · rfl

private theorem getRoute_hops (g : StoreInner) (sig : Sig) : (getRoute g sig).1.hops = g.hops := by
  rcases getRoute_cases g sig with h | h
  · rw [h]
  · rw [h, getRouteWrite_hops]

private theorem recordRouteHit_hops (g : StoreInner) (sig : Sig) :
    (recordRouteHit g sig).hops = g.hops := by
  unfold recordRouteHit
  split
  · rfl
  · split <;> rfl

/-- Only recording hops changes the hops, while the process runs. -/
theorem Step.hops_cases {g g' : StoreInner} {op : Op} (h : Step g op g') (hr : op ≠ .restart) :
    g'.hops = g.hops ∨ ∃ plan slot, op = .recordHops plan slot ∧ g' = TemplateCache.recordHops g plan slot := by
  cases h with
  | recordHops plan slot => exact Or.inr ⟨plan, slot, rfl, rfl⟩
  | restart => exact absurd rfl hr
  | insertRoute sig ix a q plan => exact Or.inl (insertRoute_hops g sig ix a q plan)
  | getRouteRead sig => exact Or.inl rfl
  | getRouteWrite sig => exact Or.inl (getRouteWrite_hops g sig)
  | getRoute sig => exact Or.inl (getRoute_hops g sig)
  | getRouteForHops plan =>
    rcases getRouteForHops_store g plan with he | ⟨sig, he⟩
    · exact Or.inl (congrArg _ he)
    · exact Or.inl (by rw [he, getRouteWrite_hops])
  | recordRouteHit sig => exact Or.inl (recordRouteHit_hops g sig)

namespace HopsKeyed

theorem empty : HopsKeyed .empty := by
  intro k t h
  rw [HashMap.get_empty] at h
  cases h

private theorem recordHop {slot : Option UInt64} {g : StoreInner} {hop : Value} (h : HopsKeyed g.hops)
    (hc : ∀ k ∈ hopKey hop, k.Colonless) : HopsKeyed (recordHop slot g hop).hops := by
  unfold TemplateCache.recordHop
  split
  · exact h
  · next key hk =>
    intro k t ht
    dsimp only at ht
    rw [HashMap.get_modify, HashMap.get_orInsert] at ht
    by_cases he : k = key
    · subst he
      rw [if_pos rfl, if_pos rfl] at ht
      refine ⟨?_, hc k hk⟩
      cases hg : g.hops.get k with
      | none =>
        rw [hg, Option.none_or, Option.map_some] at ht
        cases ht
        rfl
      | some u =>
        rw [hg, Option.some_or, Option.map_some] at ht
        cases ht
        exact (h k u hg).1
    · rw [if_neg he, if_neg he, Option.or_none] at ht
      exact h k t ht

private theorem recordHops {g : StoreInner} {plan : Value} {slot : Option UInt64}
    (h : HopsKeyed g.hops)
    (hc : ∀ hop ∈ plan.asArray.getD [], ∀ k ∈ hopKey hop, k.Colonless) :
    HopsKeyed (recordHops g plan slot).hops := by
  unfold TemplateCache.recordHops
  generalize plan.asArray.getD [] = hops at hc
  induction hops generalizing g with
  | nil => exact h
  | cons hop l ih =>
    obtain ⟨hhead, htail⟩ := List.forall_mem_cons.mp hc
    exact ih (h.recordHop hhead) htail

theorem step {g g' : StoreInner} {op : HopOp} (h : HopsKeyed g.hops) (hc : op.Colonless)
    (hs : HopStep g op g') : HopsKeyed g'.hops := by
  cases hs with
  | store op hs =>
    cases hs with
    | recordHops plan slot => exact h.recordHops hc
    | restart hr => exact hr.hops ▸ empty
    | insertRoute sig ix a q plan => exact (insertRoute_hops g sig ix a q plan).symm ▸ h
    | getRouteRead sig => exact h
    | getRouteWrite sig => exact (getRouteWrite_hops g sig).symm ▸ h
    | getRoute sig => exact (getRoute_hops g sig).symm ▸ h
    | getRouteForHops plan =>
      rcases getRouteForHops_store g plan with he | ⟨sig, he⟩
      · exact he.symm ▸ h
      · rw [he, getRouteWrite_hops]
        exact h
    | recordRouteHit sig => exact (recordRouteHit_hops g sig).symm ▸ h
  | load dir hl =>
    intro k t hk
    rcases hl.get hk with hk | ⟨rfl, name, file, id, _, hg, ht⟩
    · exact h k t hk
    · exact ⟨rfl, hc name file id t hg ht⟩

theorem run {tr : List (HopOp × StoreInner)} (h : IsHopRun tr)
    (hc : ∀ op ∈ labels tr, op.Colonless) : HopsKeyed (lastState StoreInner.new tr).hops := by
  have hall := h.and (allSteps_label_iff.mpr hc)
  exact hall.invariant (I := fun g => HopsKeyed g.hops) empty fun _ _ _ hk hs => hk.step hs.2 hs.1

end HopsKeyed

/-! Flushing -/

def ByDex.find (byDex : ByDex) (place : String × String) : Option HopTemplate :=
  (byDex.get place.1).bind fun group => group.2.get place.2

def HopKey.place (k : HopKey) : String × String := (k.dex.fileStem, k.templateId)

theorem HopKey.place_inj {k k' : HopKey} (h : k.Colonless) (h' : k'.Colonless)
    (he : k.place = k'.place) : k = k' := by
  have hdex := DexKind.fileStem_injective (Prod.mk.inj he).1
  have hid := congrArg String.toList (Prod.mk.inj he).2
  obtain ⟨hpool, hinput, houtput, hdir, hhash⟩ := templateId_inj h h' hid
  cases k
  cases k'
  simp_all

/-- A group holds the templates of one DEX, under the stem of that DEX. -/
def ByDex.Stems (byDex : ByDex) : Prop :=
  ∀ stem dex templates, byDex.get stem = some (dex, templates) → dex.fileStem = stem

private theorem get_groupHop (byDex : ByDex) (p : HopKey × HopTemplate) (stem : String) :
    (groupHop byDex p).get stem =
      if stem = p.1.dex.fileStem then
        some ((byDex.get stem).getD (p.1.dex, .empty) |>.1,
          ((byDex.get stem).getD (p.1.dex, .empty)).2.insert p.1.templateId p.2)
      else byDex.get stem := by
  rw [groupHop, HashMap.get_modify, HashMap.get_orInsert]
  split
  · cases byDex.get stem <;> rfl
  · rw [Option.or_none]

private theorem find_groupHop (byDex : ByDex) (p : HopKey × HopTemplate) (place : String × String) :
    (groupHop byDex p).find place = if place = p.1.place then some p.2 else byDex.find place := by
  obtain ⟨stem, id⟩ := place
  rw [ByDex.find, get_groupHop, ByDex.find, HopKey.place]
  by_cases hs : stem = p.1.dex.fileStem
  · rw [if_pos hs, Option.bind_some]
    dsimp only
    rw [HashMap.get_insert]
    by_cases hid : id = p.1.templateId
    · rw [if_pos hid, if_pos (by rw [hs, hid])]
    · rw [if_neg hid, if_neg (fun he => hid (Prod.mk.inj he).2)]
      cases byDex.get stem with
      | none => exact HashMap.get_empty id
      | some group => rfl
  · rw [if_neg hs, if_neg (fun he => hs (Prod.mk.inj he).1)]

private theorem stems_groupHop {byDex : ByDex} (h : byDex.Stems) (p : HopKey × HopTemplate) :
    (groupHop byDex p).Stems := by
  intro stem dex templates hg
  rw [get_groupHop] at hg
  split at hg
  · next hs =>
    cases hb : byDex.get stem with
    | none =>
      rw [hb] at hg
      cases hg
      exact hs.symm
    | some group =>
      rw [hb] at hg
      cases hg
      exact h stem group.1 group.2 hb
  · exact h stem dex templates hg

/-- Grouping keeps at each place what collecting the hops by their places keeps. -/
private theorem foldl_groupHop (l : List (HopKey × HopTemplate)) (byDex : ByDex)
    (m : HashMap (String × String) HopTemplate) (hb : byDex.Stems)
    (h : ∀ place, byDex.find place = m.get place) :
    (l.foldl groupHop byDex).Stems ∧ ∀ place, (l.foldl groupHop byDex).find place =
      ((l.map fun p => (p.1.place, p.2)).foldl (fun m p => m.insert p.1 p.2) m).get place := by
  induction l generalizing byDex m with
  | nil => exact ⟨hb, h⟩
  | cons p l ih =>
    apply ih
    · exact stems_groupHop hb p
    · intro place
      rw [find_groupHop, HashMap.get_insert, h]

/-- With templates under their keys no two hops share a place. -/
theorem groupHops_spec {hops : HashMap HopKey HopTemplate} (hk : HopsKeyed hops)
    {l : List (HopKey × HopTemplate)} (hl : hops.Listing l) :
    (l.foldl groupHop .empty).Stems ∧ ∀ place t,
      (l.foldl groupHop .empty).find place = some t ↔ ∃ k, hops.get k = some t ∧ k.place = place := by
  obtain ⟨hstems, hfind⟩ := foldl_groupHop l .empty .empty (by
    intro stem dex templates h
    rw [HashMap.get_empty] at h
    cases h) (by
    intro place
    rw [ByDex.find, HashMap.get_empty, HashMap.get_empty]
    rfl)
  refine ⟨hstems, ?_⟩
  have hn : ((l.map fun p => (p.1.place, p.2)).map Prod.fst).Nodup := by
    rw [List.map_map]
    refine List.Nodup.map_on ?_ hl.keys_nodup.of_map
    rintro ⟨k, t⟩ hm ⟨k', t'⟩ hm' he
    obtain ⟨_, hc⟩ := hk k t (hl.mem_iff.mp hm)
    obtain ⟨_, hc'⟩ := hk k' t' (hl.mem_iff.mp hm')
    have hkk := HopKey.place_inj hc hc' he
    subst hkk
    have ht := (hl.mem_iff.mp hm).symm.trans (hl.mem_iff.mp hm')
    rw [Option.some.inj ht]
  intro place t
  rw [hfind]
  refine (HashMap.get_collect hn place t).trans ?_
  rw [List.mem_map]
  constructor
  · rintro ⟨⟨k, u⟩, hm, he⟩
    cases he
    exact ⟨k, hl.mem_iff.mp hm, rfl⟩
  · rintro ⟨k, hg, rfl⟩
    exact ⟨(k, t), hl.mem_iff.mpr hg, rfl⟩

def hopFileName (stem : String) : String := stem ++ ".json"

theorem hopFileName_injective : Function.Injective hopFileName := by
  intro stem stem' h
  have hl := congrArg String.toList h
  rw [hopFileName, hopFileName, String.toList_append, String.toList_append] at hl
  exact String.toList_injective (List.append_cancel_right hl)

theorem hopFileName_ne_tmp (stem stem' : String) : hopFileName stem ≠ hopFileName stem' ++ ".tmp" := by
  intro h
  have hl := congrArg (fun s => s.toList.getLast?) h
  simp [hopFileName, String.toList_append] at hl

theorem extension_hopFileName {stem : String} (h : stem ≠ "") :
    extension (hopFileName stem) = some "json" := by
  have hrev : stem.toList.reverse ≠ [] := by
    rw [Ne, List.reverse_eq_nil_iff]
    exact fun he => h (String.toList_injective he)
  simp [extension, hopFileName, String.toList_append, hrev]

theorem DexKind.fileStem_ne_empty (d : DexKind) : d.fileStem ≠ "" := by
  cases d <;> decide

private theorem writeHopFile_eq {dir : HopsDir} {p : String × DexKind × HashMap String HopTemplate}
    (h : dir.get (hopFileName p.1 ++ ".tmp") = none) :
    writeHopFile dir p = dir.insert (hopFileName p.1) (some ⟨1, p.2.1, p.2.2⟩) := by
  obtain ⟨stem, dex, templates⟩ := p
  apply HashMap.ext_get
  intro name
  have htmp : (dir.insert (hopFileName stem ++ ".tmp") (some ⟨1, dex, templates⟩)).get
      (hopFileName stem ++ ".tmp") = some (some ⟨1, dex, templates⟩) := by
    rw [HashMap.get_insert, if_pos rfl]
  rw [writeHopFile]
  dsimp only
  rw [HopsDir.rename, ← hopFileName, htmp]
  dsimp only
  rw [HashMap.get_insert, HashMap.get_insert, HashMap.get_remove, HashMap.get_insert]
  split
  · rfl
  · split
    · next hn => rw [hn]; exact h.symm
    · rfl

private theorem foldl_writeHopFile (l : List (String × DexKind × HashMap String HopTemplate))
    (dir : HopsDir) (h : ∀ stem, dir.get (hopFileName stem ++ ".tmp") = none) :
    l.foldl writeHopFile dir =
      (l.map fun p => (hopFileName p.1, some (⟨1, p.2.1, p.2.2⟩ : DexHopFile))).foldl
        (fun dir p => dir.insert p.1 p.2) dir := by
  induction l generalizing dir with
  | nil => rfl
  | cons p l ih =>
    rw [List.foldl_cons, List.map_cons, List.foldl_cons, writeHopFile_eq (h p.1)]
    apply ih
    intro stem
    rw [HashMap.get_insert, if_neg (hopFileName_ne_tmp p.1 stem).symm, h]

/-- What stands in the files of a flushed directory: each hop in the file of its DEX,
under its flattened key. -/
theorem FlushedHops.spec {g : StoreInner} (hk : HopsKeyed g.hops) {dir : HopsDir}
    (h : FlushedHops g .empty dir) (name : String) (dex : DexKind) (id : String) (t : HopTemplate) :
    (∃ file, dir.get name = some (some file) ∧ file.dex = dex ∧ file.templates.get id = some t) ↔
      ∃ k, g.hops.get k = some t ∧ name = hopFileName k.dex.fileStem ∧ dex = k.dex ∧
        id = k.templateId := by
  obtain ⟨hops, byDex, hl, hg, rfl⟩ := h
  obtain ⟨hstems, hfind⟩ := groupHops_spec hk hl
  have hn : ((byDex.map fun p =>
      (hopFileName p.1, some (⟨1, p.2.1, p.2.2⟩ : DexHopFile))).map Prod.fst).Nodup := by
    rw [List.map_map]
    have hkeys := hg.keys_nodup.map hopFileName_injective
    rwa [List.map_map] at hkeys
  rw [foldl_writeHopFile byDex .empty fun _ => HashMap.get_empty _, ← HashMap.collect]
  constructor
  · rintro ⟨file, hfile, rfl, ht⟩
    obtain ⟨⟨stem, dex, templates⟩, hm, he⟩ := List.mem_map.mp ((HashMap.get_collect hn _ _).mp hfile)
    cases he
    have hget := hg.mem_iff.mp hm
    have hplace : (hops.foldl groupHop .empty).find (stem, id) = some t := by
      rw [ByDex.find, hget]
      exact ht
    obtain ⟨k, hkt, hp⟩ := (hfind (stem, id) t).mp hplace
    obtain ⟨hstem, hid⟩ := Prod.mk.inj hp
    have hdex := DexKind.fileStem_injective ((hstems stem dex templates hget).trans hstem.symm)
    exact ⟨k, hkt, by rw [hstem], hdex, hid.symm⟩
  · rintro ⟨k, hkt, rfl, rfl, rfl⟩
    obtain ⟨⟨dex, templates⟩, hget, ht⟩ :=
      Option.bind_eq_some_iff.mp ((hfind k.place t).mpr ⟨k, hkt, rfl⟩)
    have hdex := DexKind.fileStem_injective (hstems _ dex templates hget)
    refine ⟨⟨1, dex, templates⟩, ?_, hdex, ht⟩
    rw [HashMap.get_collect hn]
    exact List.mem_map.mpr ⟨_, hg.mem_iff.mpr hget, rfl⟩

/-- Loading the flushed files into a store without hops gives the hops again. -/
theorem FlushedHops.load {g : StoreInner} (hk : HopsKeyed g.hops) {dir : HopsDir}
    (h : FlushedHops g .empty dir) {r : StoreInner × Nat} (hl : LoadedHops .new dir r) :
    r.1.hops = g.hops := by
  obtain ⟨l, hmem, rfl⟩ := hl.spec
  have hl : ∀ t, t ∈ l ↔ g.hops.get t.key = some t := by
    intro t
    rw [hmem]
    constructor
    · rintro ⟨name, file, id, _, hg, ht⟩
      obtain ⟨k, hkt, _⟩ := (h.spec hk name file.dex id t).mp ⟨file, hg, rfl, ht⟩
      rw [(hk k t hkt).1]
      exact hkt
    · intro hkt
      obtain ⟨file, hg, _, ht⟩ := (h.spec hk _ _ _ t).mpr ⟨t.key, hkt, rfl, rfl, rfl⟩
      exact ⟨_, file, _, extension_hopFileName t.key.dex.fileStem_ne_empty, hg, ht⟩
  apply HashMap.ext_get
  intro k
  have hnew : StoreInner.new.hops.get k = none := HashMap.get_empty k
  rw [get_foldl_loadHop, hnew, Option.none_or]
  apply Option.ext
  intro t
  constructor
  · intro hf
    obtain ⟨rfl, hm⟩ := key_of_find hf
    exact (hl t).mp hm
  · intro hkt
    have hkey := (hk k t hkt).1
    cases hf : l.find? fun t => decide (k = t.key) with
    | none =>
      have hno := List.find?_eq_none.mp hf t ((hl t).mpr (hkey ▸ hkt))
      exact absurd (decide_eq_true hkey.symm) hno
    | some u =>
      obtain ⟨hkey', hm⟩ := key_of_find hf
      have hu := (hl u).mp hm
      rw [← hkey', hkt] at hu
      exact hu.symm

/-- The hops of every store reached from the empty one come back from their files: no
two of them share a place on disk, each stands in the file of its DEX, and every plan
finds the same hops. -/
theorem hops_round_trip {tr : List (HopOp × StoreInner)} (h : IsHopRun tr)
    (hc : ∀ op ∈ labels tr, op.Colonless) {dir : HopsDir} {g' : StoreInner} {count : Nat}
    (hf : FlushedHops (lastState StoreInner.new tr) .empty dir) (hl : LoadedHops .new dir (g', count)) :
    let g := lastState StoreInner.new tr
    g'.hops = g.hops ∧
    (∀ k k', g.hops.containsKey k → g.hops.containsKey k' →
      k.dex.fileStem = k'.dex.fileStem → k.templateId = k'.templateId → k = k') ∧
    (∀ k t, g.hops.get k = some t → t.key = k ∧ ∃ file,
      dir.get (k.dex.fileStem ++ ".json") = some (some file) ∧ file.dex = k.dex ∧
        file.templates.get k.templateId = some t) ∧
    ∀ plan, checkHops g' plan = checkHops g plan := by
  intro g
  have hk : HopsKeyed g.hops := HopsKeyed.run h hc
  have hhops : g'.hops = g.hops := hf.load hk hl
  refine ⟨hhops, ?_, ?_, ?_⟩
  · intro k k' hg hg' hstem hid
    obtain ⟨t, ht⟩ := HashMap.containsKey_iff.mp hg
    obtain ⟨t', ht'⟩ := HashMap.containsKey_iff.mp hg'
    exact HopKey.place_inj (hk k t ht).2 (hk k' t' ht').2 (Prod.ext hstem hid)
  · intro k t ht
    exact ⟨(hk k t ht).1, (hf.spec hk _ _ _ t).mpr ⟨k, ht, rfl, rfl, rfl⟩⟩
  · intro plan
    rw [checkHops, checkHops, hhops]

/-- A flush can always be written, and loading it is always possible. -/
theorem exists_flushedHops (g : StoreInner) (dir : HopsDir) : ∃ dir', FlushedHops g dir dir' := by
  obtain ⟨hops, hl⟩ := g.hops.exists_listing
  obtain ⟨byDex, hg⟩ := (hops.foldl groupHop .empty).exists_listing
  exact ⟨_, hops, byDex, hl, hg, rfl⟩

theorem exists_loadedHops (g : StoreInner) (dir : HopsDir) : ∃ r, LoadedHops g dir r := by
  have hfiles : ∀ fs : List DexHopFile, ∃ files : List (List (String × HopTemplate)),
      List.Forall₂ (fun (file : DexHopFile) l => file.templates.Listing l) fs files := by
    intro fs
    induction fs with
    | nil => exact ⟨[], .nil⟩
    | cons file fs ih =>
      obtain ⟨files, hfs⟩ := ih
      obtain ⟨l, hl⟩ := file.templates.exists_listing
      exact ⟨l :: files, .cons hl hfs⟩
  obtain ⟨entries, he⟩ := dir.exists_listing
  obtain ⟨files, hf⟩ := hfiles (hopFiles entries)
  exact ⟨_, entries, files, he, hf, rfl⟩

/-- The round trip of the hops of one plan. -/
theorem hops_round_trip_one : ∃ dir g' count,
    FlushedHops (recordHops .new samplePlan (some 5)) .empty dir ∧ LoadedHops .new dir (g', count) ∧
      checkHops g' samplePlan = (true, 0) := by
  obtain ⟨dir, hf⟩ := exists_flushedHops (recordHops .new samplePlan (some 5)) .empty
  obtain ⟨⟨g', count⟩, hl⟩ := exists_loadedHops .new dir
  have hrun : IsHopRun [(.store (.recordHops samplePlan (some 5)), recordHops .new samplePlan (some 5))] :=
    ⟨.store _ (.recordHops samplePlan (some 5)), trivial⟩
  have hc : ∀ op ∈ labels [(HopOp.store (.recordHops samplePlan (some 5)),
      recordHops .new samplePlan (some 5))], op.Colonless := by
    intro op hm
    rw [List.mem_singleton.mp hm]
    exact (by decide : ∀ hop ∈ samplePlan.asArray.getD [], ∀ k ∈ hopKey hop, k.Colonless)
  refine ⟨dir, g', count, hf, hl, ?_⟩
  rw [(hops_round_trip hrun hc hf hl).2.2.2 samplePlan]
  decide

end SolanaArbBot.TemplateCache
