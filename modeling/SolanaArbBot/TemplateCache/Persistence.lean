import SolanaArbBot.Lib.Directory
import SolanaArbBot.TemplateCache.HopFiles

/-! The store beside its files: the flush task writing them one call at a time while
the bot goes on, calls that fail, and crashes at any moment with a start over. -/
namespace SolanaArbBot.TemplateCache
open Lib

def routesPath : String := "routes.json"

def tmpName (path : String) : String := path ++ ".tmp"

/-- The groups of hop templates still to be written, each under its file stem. -/
abbrev Groups := List (String × DexKind × HashMap String HopTemplate)

inductive FlushPc where
  | idle
  | writeRoutes (file : RouteFile)
  | renameRoutes
  | snapshotHops
  | writeHops (todo : Groups)
  | renameHops (stem : String) (todo : Groups)

/-- The memory of the running process and the files of the cache directory and of
its hops directory. -/
structure Machine where
  store : StoreInner
  flush : FlushPc
  base : Directory RouteFile
  hopsDir : HopsDir

def Machine.new : Machine := ⟨.new, .idle, .empty, .empty⟩

inductive MachineEvent where
  | store (op : Op)
  | beginFlush
  | routesWritten
  | routesWriteFailed
  | routesRenamed
  | routesRenameFailed
  | snapshotHops
  | hopsWritten (stem : String)
  | hopsWriteFailed (stem : String)
  | hopsRenamed (stem : String)
  | hopsRenameFailed (stem : String)
  | endFlush
  | crash

def HopGroups (g : StoreInner) (groups : Groups) : Prop :=
  ∃ hops, g.hops.Listing hops ∧ (hops.foldl groupHop .empty).Listing groups

def hopFile (dex : DexKind) (templates : HashMap String HopTemplate) : DexHopFile :=
  { schemaVersion := 1, dex := dex, templates := templates }

/-- What loading the routes of a directory into a store may give. -/
def LoadedRoutes (g : StoreInner) (base : Directory RouteFile) (g' : StoreInner) : Prop :=
  match base.get routesPath with
  | some (some file) => ∃ pairs, file.hopPairs.Listing pairs ∧
      g' = (loadRoutesFromDisk g file.routes pairs).1
  | _ => g' = g

/-- The store a start of the process may come up with: the hops first, then the routes. -/
def Booted (base : Directory RouteFile) (hopsDir : HopsDir) (g : StoreInner) : Prop :=
  ∃ g₀ count, LoadedHops .new hopsDir (g₀, count) ∧ LoadedRoutes g₀ base g

/-- One step. A crash in the middle of a write is one that follows a failed write. -/
inductive MachineStep : Machine → MachineEvent → Machine → Prop
  | store {m g} (op) (hr : op ≠ .restart) (h : Step m.store op g) :
      MachineStep m (.store op) { m with store := g }
  | beginFlush {m file} (hpc : m.flush = .idle) (h : Flushed m.store file) :
      MachineStep m .beginFlush { m with flush := .writeRoutes file }
  | routesWritten {m file} (hpc : m.flush = .writeRoutes file) :
      MachineStep m .routesWritten { m with
        flush := .renameRoutes
        base := m.base.insert (tmpName routesPath) (some file) }
  | routesWriteFailed {m file base} (hpc : m.flush = .writeRoutes file)
      (h : m.base.Torn (tmpName routesPath) base) :
      MachineStep m .routesWriteFailed { m with flush := .snapshotHops, base := base }
  | routesRenamed {m} (hpc : m.flush = .renameRoutes) :
      MachineStep m .routesRenamed { m with
        flush := .snapshotHops
        base := m.base.rename (tmpName routesPath) routesPath }
  | routesRenameFailed {m} (hpc : m.flush = .renameRoutes) :
      MachineStep m .routesRenameFailed { m with flush := .snapshotHops }
  | snapshotHops {m groups} (hpc : m.flush = .snapshotHops) (h : HopGroups m.store groups) :
      MachineStep m .snapshotHops { m with flush := .writeHops groups }
  | hopsWritten {m stem dex templates todo}
      (hpc : m.flush = .writeHops ((stem, dex, templates) :: todo)) :
      MachineStep m (.hopsWritten stem) { m with
        flush := .renameHops stem todo
        hopsDir := m.hopsDir.insert (tmpName (hopFileName stem)) (some (hopFile dex templates)) }
  | hopsWriteFailed {m stem dex templates todo dir}
      (hpc : m.flush = .writeHops ((stem, dex, templates) :: todo))
      (h : Directory.Torn m.hopsDir (tmpName (hopFileName stem)) dir) :
      MachineStep m (.hopsWriteFailed stem) { m with flush := .writeHops todo, hopsDir := dir }
  | hopsRenamed {m stem todo} (hpc : m.flush = .renameHops stem todo) :
      MachineStep m (.hopsRenamed stem) { m with
        flush := .writeHops todo
        hopsDir := Directory.rename m.hopsDir (tmpName (hopFileName stem)) (hopFileName stem) }
  | hopsRenameFailed {m stem todo} (hpc : m.flush = .renameHops stem todo) :
      MachineStep m (.hopsRenameFailed stem) { m with flush := .writeHops todo }
  | endFlush {m} (hpc : m.flush = .writeHops []) :
      MachineStep m .endFlush { m with flush := .idle }
  | crash {m g} (h : Booted m.base m.hopsDir g) :
      MachineStep m .crash { m with store := g, flush := .idle }

abbrev IsMachineRun (tr : List (MachineEvent × Machine)) : Prop := AllSteps MachineStep .new tr

abbrev finalMachine (tr : List (MachineEvent × Machine)) : Machine := lastState .new tr

/-! What a start of the process brings up. -/

theorem routesPath_ne_tmp : routesPath ≠ tmpName routesPath := by decide

private theorem foldl_loadHop_frame (l : List HopTemplate) (s : StoreInner × Nat) :
    ∃ hops, (l.foldl loadHop s).1 = { s.1 with hops := hops } := by
  induction l generalizing s with
  | nil => exact ⟨s.1.hops, rfl⟩
  | cons t l ih => exact ih (loadHop s t)

/-- Loading hops leaves the routes and the index alone. -/
theorem LoadedHops.frame {g : StoreInner} {dir : HopsDir} {r : StoreInner × Nat}
    (h : LoadedHops g dir r) : ∃ hops, r.1 = { g with hops := hops } := by
  obtain ⟨l, _, rfl⟩ := h.spec
  exact foldl_loadHop_frame l (g, 0)

private theorem loadRecord_withHops (hops : HashMap HopKey HopTemplate) (s : StoreInner × Nat)
    (rec : RouteRecord) : loadRecord ({ s.1 with hops := hops }, s.2) rec =
      ({ (loadRecord s rec).1 with hops := hops }, (loadRecord s rec).2) := by
  unfold loadRecord
  cases parseSig rec.sig with
  | none => rfl
  | some sig =>
    dsimp only
    split <;> rfl

private theorem foldl_loadRecord_withHops (hops : HashMap HopKey HopTemplate)
    (l : List RouteRecord) (s : StoreInner × Nat) :
    l.foldl loadRecord ({ s.1 with hops := hops }, s.2) =
      ({ (l.foldl loadRecord s).1 with hops := hops }, (l.foldl loadRecord s).2) := by
  induction l generalizing s with
  | nil => rfl
  | cons rec l ih =>
    rw [List.foldl_cons, loadRecord_withHops, ih]
    rfl

private theorem foldl_loadHopPair_withHops (hops : HashMap HopKey HopTemplate)
    (l : List (String × String)) (g : StoreInner) :
    l.foldl loadHopPair { g with hops := hops } = { l.foldl loadHopPair g with hops := hops } := by
  induction l generalizing g with
  | nil => rfl
  | cons p l ih =>
    rw [List.foldl_cons, List.foldl_cons, ← ih]
    congr 1
    unfold loadHopPair
    split <;> rfl

/-- The routes are loaded the same whatever hops there are. -/
theorem loadRoutesFromDisk_withHops (hops : HashMap HopKey HopTemplate) (g : StoreInner)
    (routes : List RouteRecord) (pairs : List (String × String)) :
    (loadRoutesFromDisk { g with hops := hops } routes pairs).1 =
      { (loadRoutesFromDisk g routes pairs).1 with hops := hops } := by
  have hrec := foldl_loadRecord_withHops hops routes (g, 0)
  unfold loadRoutesFromDisk
  rw [hrec]
  exact foldl_loadHopPair_withHops hops pairs _

/-- The routes and the hops come from their own files. -/
theorem Booted.spec {base : Directory RouteFile} {hopsDir : HopsDir} {g : StoreInner}
    (h : Booted base hopsDir g) : ∃ g₀ count hops, LoadedHops .new hopsDir (g₀, count) ∧
      g₀.hops = hops ∧ ∃ g₁, g = { g₁ with hops := hops } ∧
        match base.get routesPath with
        | some (some file) => Loaded file g₁
        | _ => g₁ = .new := by
  obtain ⟨g₀, count, hhops, hroutes⟩ := h
  obtain ⟨hops, rfl⟩ := hhops.frame
  refine ⟨_, count, hops, hhops, rfl, ?_⟩
  unfold LoadedRoutes at hroutes
  split at hroutes
  · obtain ⟨pairs, hp, rfl⟩ := hroutes
    exact ⟨_, loadRoutesFromDisk_withHops hops _ _ pairs, pairs, hp, rfl⟩
  · exact ⟨.new, hroutes, rfl⟩

/-- Every store has a file that a flush may write. -/
theorem exists_flushed (g : StoreInner) : ∃ file, Flushed g file := by
  obtain ⟨_, file, hf, _⟩ := exists_restarted g
  exact ⟨file, hf⟩

/-- A start always comes up. -/
theorem exists_booted (base : Directory RouteFile) (hopsDir : HopsDir) :
    ∃ g, Booted base hopsDir g := by
  obtain ⟨⟨g₀, count⟩, hl⟩ := exists_loadedHops .new hopsDir
  cases hb : base.get routesPath with
  | none => exact ⟨g₀, g₀, count, hl, by rw [LoadedRoutes, hb]⟩
  | some text =>
    cases text with
    | none => exact ⟨g₀, g₀, count, hl, by rw [LoadedRoutes, hb]⟩
    | some file =>
      obtain ⟨pairs, hp⟩ := file.hopPairs.exists_listing
      refine ⟨(loadRoutesFromDisk g₀ file.routes pairs).1, g₀, count, hl, ?_⟩
      rw [LoadedRoutes, hb]
      exact ⟨pairs, hp, rfl⟩

end SolanaArbBot.TemplateCache
