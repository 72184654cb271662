import HeteroAccel.Plugin.PluginLoader

/-!
# The order of the calls into a module

A module is initialized once. After a successful initialization it executes any number of times and
is shut down once; after a failed one nothing more is called. The loader keeps this order on runs
whose calls are permitted (`Permits`):

* `plugin_execute` is called for plugins that are initialized, if they are loaded at all;
* `plugin_load` does not reach the initialization of a module that is mapped already, through
  another path that names the same file.

## Main results

* `inOrder_of_reachable`: on permitted calls every state is in order;
* `not_inOrder_next`: the first call that is not permitted breaks the order.
-/

namespace HeteroAccel.Plugin

/-! ## The order -/

/-- How far the life of a module has come. -/
inductive Phase where
  | mapped
  | failed
  | running
  | shutDown
deriving DecidableEq

/-- The calls that lead to a phase. -/
def Phase.Follows : Phase → List ModuleCall → Prop
  | .mapped, calls => calls = []
  | .failed, calls => ∃ rc, rc ≠ 0 ∧ calls = [.pluginInitialize rc]
  | .running, calls => ∃ rcs : List Int32, calls = .pluginInitialize 0 :: rcs.map .pluginExecute
  | .shutDown, calls => ∃ rcs : List Int32,
      calls = .pluginInitialize 0 :: (rcs.map .pluginExecute ++ [.pluginShutdown])

/-- The two records say the same about the module. -/
structure SameUse (s s' : PluginInternalState) : Prop where
  loaded : s'.loaded = s.loaded
  initialized : s'.initialized = s.initialized
  moduleHandle : s'.moduleHandle = s.moduleHandle

namespace PluginLoader

/-- The calls that were made into a module, from the first on. -/
def callsInto (l : PluginLoader) (mod : ModuleHandle) : List ModuleCall :=
  l.moduleCalls.filterMap fun e => if e.1 = mod then some e.2 else none

/-- The record of a path; the one that `plugin_load` begins with when there is none. -/
def recordOf (l : PluginLoader) (path : String) : PluginInternalState :=
  (l.pluginCache.lookup path).getD {}

/-- The plugin of the path is loaded and its module is this one. -/
def Holds (l : PluginLoader) (path : String) (mod : ModuleHandle) : Prop :=
  (l.recordOf path).loaded = true ∧ (l.recordOf path).moduleHandle = some mod

/-- The order of the calls into every module, and one shutdown for every module that was initialized
and is no longer loaded. -/
structure InOrder (l : PluginLoader) : Prop where
  ordered : ∀ mod, ∃ p : Phase, p.Follows (l.callsInto mod)
  shutDown : ∀ mod, (∀ path, ¬l.Holds path mod) → .pluginInitialize 0 ∈ l.callsInto mod →
    (l.callsInto mod).count .pluginShutdown = 1

/-- The calls that keep the order. -/
def Permits (l : PluginLoader) : Call → Prop
  | .pluginLoad path library answers => (l.recordOf path).loaded = false →
      ∀ lib ∈ library, ∀ o ∈ l.linker.objects.lookup lib.file,
        (validateModule o.content answers {}).1 = false
  | .pluginExecute path _ =>
      (l.recordOf path).loaded = true → (l.recordOf path).initialized = true
  | .pluginDiscover _ _ => True
  | .pluginUnload _ => True

instance (l : PluginLoader) : ∀ call, Decidable (l.Permits call)
  | .pluginLoad _ library answers => inferInstanceAs (Decidable (_ = false →
      ∀ lib ∈ library, ∀ o ∈ l.linker.objects.lookup lib.file,
        (validateModule o.content answers {}).1 = false))
  | .pluginExecute _ _ => inferInstanceAs (Decidable (_ = true → _ = true))
  | .pluginDiscover _ _ => inferInstanceAs (Decidable True)
  | .pluginUnload _ => inferInstanceAs (Decidable True)

variable {l l' : PluginLoader} {path : String} {mod mod' : ModuleHandle} {call : ModuleCall}

/-! ## Phases -/

/-- The first call into a module is its initialization. -/
theorem follows_begin (rc : Int32) :
    (if rc = 0 then Phase.running else .failed).Follows [.pluginInitialize rc] := by
  split_ifs with hrc
  · exact ⟨[], by rw [hrc, List.map_nil]⟩
  · exact ⟨rc, hrc, rfl⟩

/-- An execution may follow while the module is running. -/
theorem follows_execute {calls : List ModuleCall} (h : Phase.running.Follows calls) (rc : Int32) :
    Phase.running.Follows (calls ++ [.pluginExecute rc]) := by
  obtain ⟨rcs, rfl⟩ := h
  exact ⟨rcs ++ [rc], by simp⟩

/-- The shutdown may follow while the module is running. -/
theorem follows_shutdown {calls : List ModuleCall} (h : Phase.running.Follows calls) :
    Phase.shutDown.Follows (calls ++ [.pluginShutdown]) := by
  obtain ⟨rcs, rfl⟩ := h
  exact ⟨rcs, by simp⟩

/-- After a failed initialization nothing may be called. -/
theorem not_follows_execute {p : Phase} {calls : List ModuleCall} (h : Phase.failed.Follows calls)
    (rc : Int32) : ¬p.Follows (calls ++ [.pluginExecute rc]) := by
  obtain ⟨rc', hrc', rfl⟩ := h
  intro hfollows
  cases p with
  | mapped => cases hfollows
  | failed =>
    obtain ⟨_, -, heq⟩ := hfollows
    cases heq
  | running =>
    obtain ⟨rcs, heq⟩ := hfollows
    exact hrc' (ModuleCall.pluginInitialize.inj (List.cons.inj heq).1)
  | shutDown =>
    obtain ⟨rcs, heq⟩ := hfollows
    exact hrc' (ModuleCall.pluginInitialize.inj (List.cons.inj heq).1)

/-- Only the first call into a module may be its initialization. -/
theorem not_follows_initialize {p : Phase} {calls : List ModuleCall} (hne : calls ≠ [])
    (rc : Int32) : ¬p.Follows (calls ++ [.pluginInitialize rc]) := by
  obtain ⟨first, rest, rfl⟩ := List.exists_cons_of_ne_nil hne
  have hlast : .pluginInitialize rc ∈ rest ++ [.pluginInitialize rc] :=
    List.mem_append_right _ List.mem_cons_self
  intro hfollows
  rw [List.cons_append] at hfollows
  cases p with
  | mapped => cases hfollows
  | failed =>
    obtain ⟨_, -, heq⟩ := hfollows
    rw [(List.cons.inj heq).2] at hlast
    cases hlast
  | running =>
    obtain ⟨rcs, heq⟩ := hfollows
    rw [(List.cons.inj heq).2] at hlast
    simp at hlast
  | shutDown =>
    obtain ⟨rcs, heq⟩ := hfollows
    rw [(List.cons.inj heq).2] at hlast
    simp at hlast

/-- A module that was initialized and does not run has been shut down once. -/
theorem count_shutdown {p : Phase} {calls : List ModuleCall} (h : p.Follows calls)
    (hp : p ≠ .running) (hinit : .pluginInitialize 0 ∈ calls) :
    calls.count .pluginShutdown = 1 := by
  cases p with
  | mapped => simp [Phase.Follows] at h; simp [h] at hinit
  | failed =>
    obtain ⟨rc, hrc, rfl⟩ := h
    simp at hinit
    exact absurd hinit.symm hrc
  | running => exact absurd rfl hp
  | shutDown =>
    obtain ⟨rcs, rfl⟩ := h
    have hnone : (rcs.map ModuleCall.pluginExecute).count .pluginShutdown = 0 := by
      simp [List.count_eq_zero]
    simp [hnone]

/-! ## What a call changes -/

/-- A call is recorded for its own module. -/
@[simp]
theorem callsInto_record : (l.record mod call).callsInto mod' =
    l.callsInto mod' ++ if mod = mod' then [call] else [] := by
  unfold callsInto record
  rw [List.filterMap_append]
  split_ifs with hmod <;> simp [hmod]

@[simp]
theorem callsInto_put (s : PluginInternalState) :
    (l.put path s).callsInto mod = l.callsInto mod := rfl

@[simp]
theorem recordOf_record (path : String) : (l.record mod call).recordOf path = l.recordOf path := rfl

/-- A plugin that is stored changes no other one. -/
theorem recordOf_put {path' : String} {s : PluginInternalState} :
    (l.put path s).recordOf path' = if path' = path then s else l.recordOf path' := by
  unfold recordOf put
  rw [KeyedMap.lookup_insert_eq_ite]
  split_ifs <;> rfl

/-- Nothing is called and no plugin is loaded or unloaded. -/
structure Silent (l l' : PluginLoader) : Prop where
  sameUse : ∀ path, SameUse (l.recordOf path) (l'.recordOf path)
  linker : l.linker.Agrees l'.linker
  moduleCalls : l'.moduleCalls = l.moduleCalls

theorem Silent.refl (l : PluginLoader) : l.Silent l :=
  ⟨fun _ => ⟨rfl, rfl, rfl⟩, .refl _, rfl⟩

theorem Silent.trans {l'' : PluginLoader} (h : l.Silent l') (h' : l'.Silent l'') :
    l.Silent l'' where
  sameUse path := ⟨(h'.sameUse path).loaded.trans (h.sameUse path).loaded,
    (h'.sameUse path).initialized.trans (h.sameUse path).initialized,
    (h'.sameUse path).moduleHandle.trans (h.sameUse path).moduleHandle⟩
  linker := h.linker.trans h'.linker
  moduleCalls := h'.moduleCalls.trans h.moduleCalls

/-- A silent step makes no call into any module. -/
theorem Silent.callsInto (h : l.Silent l') (mod : ModuleHandle) :
    l'.callsInto mod = l.callsInto mod := by
  unfold PluginLoader.callsInto
  rw [h.moduleCalls]

/-- The record is replaced by one that says the same about the module. -/
theorem silent_put {s : PluginInternalState} (h : SameUse (l.recordOf path) s) :
    l.Silent (l.put path s) where
  sameUse path' := by
    rw [recordOf_put]
    split_ifs with hpath
    · rw [hpath]
      exact h
    · exact ⟨rfl, rfl, rfl⟩
  linker := .refl _
  moduleCalls := rfl

/-- A library is mapped and released. -/
theorem silent_relink {linker : OpenTable ℕ Exports} (h : l.linker.Agrees linker) :
    l.Silent { l with linker } :=
  ⟨fun _ => ⟨rfl, rfl, rfl⟩, h, rfl⟩

/-- What the checks accept. -/
structure Accepted (exports : Exports) (answers : Answers) : Prop where
  pluginGetAbiVersion : exports.pluginGetAbiVersion = true
  abiVersion : answers.abiVersion = hostExpectedAbiVersion
  exported : ¬(exports.pluginGetIdentity = false ∨ exports.pluginInitialize = false ∨
    exports.pluginExecute = false ∨ exports.pluginShutdown = false)
  identityRc : answers.identityRc = 0

/-- A module is valid exactly when it is accepted. -/
theorem validateModule_fst_eq_true_iff (exports : Exports) (answers : Answers)
    (s : PluginInternalState) :
    (validateModule exports answers s).1 = true ↔ Accepted exports answers := by
  unfold validateModule
  dsimp only
  split_ifs with habi hversion hmissing hidentity
  · exact ⟨fun h => absurd h (by decide), fun h => by simp [h.pluginGetAbiVersion] at habi⟩
  · exact ⟨fun h => absurd h (by decide), fun h => absurd h.abiVersion hversion⟩
  · exact ⟨fun h => absurd h (by decide), fun h => absurd hmissing h.exported⟩
  · exact ⟨fun h => absurd h (by decide), fun h => absurd h.identityRc hidentity⟩
  all_goals exact ⟨fun _ => ⟨by simpa using habi, of_not_not hversion, hmissing,
    of_not_not hidentity⟩, fun _ => rfl⟩

/-- The checks touch no field about the module. -/
theorem sameUse_validateModule (exports : Exports) (answers : Answers) (s : PluginInternalState) :
    SameUse s (validateModule exports answers s).2 := by
  unfold validateModule
  dsimp only
  split_ifs <;> exact ⟨rfl, rfl, rfl⟩

/-! ### Discovery -/

/-- The discovery makes no call when it probes a file. -/
theorem silent_probe (l : PluginLoader) (fullPath filename : String) (library : Option Library)
    (answers : Answers) : l.Silent (l.probe fullPath filename library answers).2 := by
  cases library with
  | none => exact .refl l
  | some library => exact silent_relink OpenTable.agrees_release_acquire

/-- The discovery makes no call when it notes an error. -/
theorem silent_note (l : PluginLoader) (fullPath filename : String) (error : PluginError) :
    l.Silent (l.note fullPath filename error) := by
  unfold note
  cases hlookup : l.pluginCache.lookup fullPath with
  | none =>
    refine silent_put ?_
    simp only [recordOf, hlookup, Option.getD_none]
    exact ⟨rfl, rfl, rfl⟩
  | some s =>
    dsimp only
    split_ifs
    · refine silent_put ?_
      simp only [recordOf, hlookup, Option.getD_some]
      exact ⟨rfl, rfl, rfl⟩
    · exact .refl l

/-- The discovery makes no call for an entry of the directory. -/
theorem silent_discoverEntry (pluginDir : String)
    (acc : List PluginDiscoveryResult × PluginLoader) (entry : DirEntry) :
    acc.2.Silent (discoverEntry pluginDir acc entry).2 := by
  unfold discoverEntry
  split_ifs
  · exact .refl _
  · exact (silent_probe _ _ _ _ _).trans (silent_note _ _ _ _)

/-- Discovery maps and releases libraries, and calls nothing else. -/
theorem silent_pluginDiscover (l : PluginLoader) (pluginDir : String)
    (entries : Option (List DirEntry)) : l.Silent (l.pluginDiscover pluginDir entries).2 := by
  cases entries with
  | none => exact .refl l
  | some entries =>
    have hrun : ∀ (entries : List DirEntry) (acc : List PluginDiscoveryResult × PluginLoader),
        acc.2.Silent (entries.foldl (discoverEntry pluginDir) acc).2 := by
      intro entries
      induction entries with
      | nil => exact fun acc => .refl acc.2
      | cons entry entries ih =>
        exact fun acc => (silent_discoverEntry pluginDir acc entry).trans (ih _)
    exact hrun entries ([], l)

/-! ### Loading, executing and unloading -/

/-- The module of the library, as the linker maps it for the call. -/
def mapped (l : PluginLoader) (library : Library) : ModuleHandle × OpenTable ℕ Exports :=
  l.linker.acquire library.file library.exports

/-- The exports of the library: those of the mapping if there is one. -/
def exportsOf (l : PluginLoader) (library : Library) : Exports :=
  (l.linker.objects.lookup library.file).elim library.exports OpenObject.content

/-- A plugin that is loaded is not loaded again. -/
theorem pluginLoad_eq (library : Option Library) (answers : Answers) :
    (l.pluginLoad path library answers).2 =
      if (l.recordOf path).loaded = true then l
      else (l.loadInto path library answers (l.recordOf path)).2 := by
  unfold pluginLoad recordOf
  cases l.pluginCache.lookup path with
  | none => rfl
  | some s =>
    dsimp only [Option.getD_some]
    split_ifs <;> rfl

/-- A call of `plugin_load` that reaches the initialization. -/
structure Loads (l : PluginLoader) (path : String) (library : Library) (answers : Answers)
    (l' : PluginLoader) : Prop where
  accepted : Accepted (l.exportsOf library) answers
  next : ∃ s : PluginInternalState, s.loaded = true ∧
    s.initialized = decide (answers.initRc = 0) ∧
    s.moduleHandle = some (l.mapped library).1 ∧
    l' = ({ l with linker := (l.mapped library).2 }.record (l.mapped library).1
      (.pluginInitialize answers.initRc)).put path s

/-- The record of a path without a loaded plugin has no module. -/
theorem loadInto_cases (hnone : (l.recordOf path).moduleHandle = none) (library : Option Library)
    (answers : Answers) :
    (∀ lib ∈ library, ¬Accepted (l.exportsOf lib) answers) ∧
        l.Silent (l.loadInto path library answers (l.recordOf path)).2 ∨
      ∃ lib, library = some lib ∧
        l.Loads path lib answers (l.loadInto path library answers (l.recordOf path)).2 := by
  cases library with
  | none => exact .inl ⟨by simp, silent_put ⟨rfl, rfl, hnone.symm⟩⟩
  | some library =>
    cases hmapped : l.mapped library with
    | mk mod linker =>
    -- the linker maps the library, or finds it mapped
    have hcontent : (linker.content? mod).getD library.exports = l.exportsOf library := by
      have h : (l.mapped library).2.content? (l.mapped library).1 = some (l.exportsOf library) :=
        OpenTable.content?_acquire
      rw [hmapped] at h
      rw [h, Option.getD_some]
    have hagrees : l.linker.Agrees (linker.release mod) := by
      have h : l.linker.Agrees ((l.mapped library).2.release (l.mapped library).1) :=
        OpenTable.agrees_release_acquire
      rwa [hmapped] at h
    have hacquire : l.linker.acquire library.file library.exports = (mod, linker) := hmapped
    unfold loadInto
    dsimp only
    rw [hacquire]
    dsimp only
    rw [hcontent]
    have haccepted := validateModule_fst_eq_true_iff (l.exportsOf library) answers
      { l.recordOf path with path, filename := filenameOf path }
    have hsame := sameUse_validateModule (l.exportsOf library) answers
      { l.recordOf path with path, filename := filenameOf path }
    cases hvalid : validateModule (l.exportsOf library) answers
      { l.recordOf path with path, filename := filenameOf path } with
    | mk ok s =>
    rw [hvalid] at haccepted hsame
    dsimp only at haccepted hsame ⊢
    -- refused, initialized, or loaded without its initialization
    split_ifs with hok hrc
    · refine .inl ⟨?_, (silent_relink hagrees).trans (silent_put ?_)⟩
      · rintro lib ⟨⟩ h
        rw [haccepted.mpr h] at hok
        cases hok
      · exact ⟨hsame.loaded, hsame.initialized, hnone.symm⟩
    · refine .inr ⟨library, rfl, haccepted.mp (by simpa using hok), ?_⟩
      rw [hmapped]
      refine ⟨_, ?_, ?_, ?_, rfl⟩
      · rfl
      · exact (decide_eq_true hrc).symm
      · rfl
    · refine .inr ⟨library, rfl, haccepted.mp (by simpa using hok), ?_⟩
      rw [hmapped]
      refine ⟨_, ?_, ?_, ?_, rfl⟩
      · rfl
      · exact (decide_eq_false hrc).symm
      · rfl

/-- The record of a loaded plugin: its module is mapped for it alone and exports what the calls into
it need, and the calls so far are those of its phase. -/
structure Keeps (l : PluginLoader) (s : PluginInternalState) (mod : ModuleHandle) : Prop where
  moduleHandle : s.moduleHandle = some mod
  mapped : ∃ o, l.linker.objects.lookup mod.key = some o ∧ o.serial = mod.serial ∧ o.others = 0 ∧
    o.content.pluginExecute = true ∧ o.content.pluginShutdown = true
  follows : (if s.initialized = true then Phase.running else .failed).Follows (l.callsInto mod)

/-- The module of a loaded plugin has been initialized. -/
theorem Keeps.callsInto_ne_nil {s : PluginInternalState} (h : l.Keeps s mod) :
    l.callsInto mod ≠ [] := by
  have hfollows := h.follows
  split_ifs at hfollows
  · obtain ⟨rcs, hcalls⟩ := hfollows
    rw [hcalls]
    exact List.cons_ne_nil _ _
  · obtain ⟨rc, -, hcalls⟩ := hfollows
    rw [hcalls]
    exact List.cons_ne_nil _ _

/-- An entry point of the module of a loaded plugin. -/
theorem Keeps.getProc {s : PluginInternalState} (h : l.Keeps s mod) :
    l.getProc s.moduleHandle Exports.pluginExecute = some mod ∧
      l.getProc s.moduleHandle Exports.pluginShutdown = some mod := by
  obtain ⟨o, hlookup, hserial, -, hexecute, hshutdown⟩ := h.mapped
  have hcontent : l.linker.content? mod = some o.content := by
    unfold OpenTable.content?
    rw [hlookup]
    dsimp only
    rw [if_pos hserial]
  unfold PluginLoader.getProc
  rw [h.moduleHandle]
  simp [Option.filter, hcontent, hexecute, hshutdown]

/-- Without a loaded plugin an execution does nothing. -/
theorem pluginExecute_of_unloaded (h : (l.recordOf path).loaded = false) (rc : Int32) :
    (l.pluginExecute path rc).2 = l := by
  unfold recordOf at h
  unfold pluginExecute
  cases hlookup : l.pluginCache.lookup path with
  | none => rfl
  | some s =>
    rw [hlookup, Option.getD_some] at h
    dsimp only
    rw [if_pos h]

/-- An execution calls `pluginExecute` and writes an error. -/
theorem silent_pluginExecute (hloaded : (l.recordOf path).loaded = true)
    (hkeeps : l.Keeps (l.recordOf path) mod) (rc : Int32) :
    (l.record mod (.pluginExecute rc)).Silent (l.pluginExecute path rc).2 := by
  have hproc := hkeeps.getProc.1
  have hrecord : l.recordOf path = (l.pluginCache.lookup path).getD {} := rfl
  unfold pluginExecute
  cases hlookup : l.pluginCache.lookup path with
  | none =>
    rw [hrecord, hlookup] at hloaded
    cases hloaded
  | some s =>
    rw [hlookup, Option.getD_some] at hrecord
    rw [hrecord] at hloaded hproc
    dsimp only
    rw [if_neg (by simp [hloaded]), hproc]
    dsimp only
    split_ifs
    · refine silent_put ?_
      rw [recordOf_record, hrecord]
      exact ⟨rfl, rfl, rfl⟩
    · exact .refl _

/-- There is no call when a plugin is unloaded that is not loaded. -/
theorem silent_pluginUnload (hloaded : (l.recordOf path).loaded = false)
    (hnone : (l.recordOf path).moduleHandle = none) : l.Silent (l.pluginUnload path) := by
  have hrecord : l.recordOf path = (l.pluginCache.lookup path).getD {} := rfl
  unfold pluginUnload
  cases hlookup : l.pluginCache.lookup path with
  | none => exact .refl l
  | some s =>
    rw [hlookup, Option.getD_some] at hrecord
    rw [hrecord] at hloaded hnone
    dsimp only
    rw [if_pos ⟨hloaded, hnone⟩]
    refine silent_put ?_
    rw [hrecord]
    exact ⟨rfl, rfl, rfl⟩

/-- The unloading of a loaded plugin: its module is shut down if it was initialized, and is
released. -/
theorem pluginUnload_of_loaded (hloaded : (l.recordOf path).loaded = true)
    (hkeeps : l.Keeps (l.recordOf path) mod) : ∃ s : PluginInternalState,
      s.loaded = false ∧ s.initialized = false ∧ s.moduleHandle = none ∧
      l.pluginUnload path = ({ (if (l.recordOf path).initialized = true then
        l.record mod .pluginShutdown else l) with linker := l.linker.release mod }).put path s := by
  have hproc := hkeeps.getProc.2
  have hmodule := hkeeps.moduleHandle
  have hrecord : l.recordOf path = (l.pluginCache.lookup path).getD {} := rfl
  unfold pluginUnload
  cases hlookup : l.pluginCache.lookup path with
  | none =>
    rw [hrecord, hlookup] at hloaded
    cases hloaded
  | some s =>
    rw [hlookup, Option.getD_some] at hrecord
    rw [hrecord] at hloaded hproc hmodule ⊢
    dsimp only
    rw [if_neg (by simp [hloaded])]
    unfold shutDown freeModule
    rw [hproc]
    -- the module is shut down only where its initialization succeeded
    by_cases hinit : s.initialized = true
    · rw [if_pos hinit, if_pos ⟨hinit, by simp [hmodule]⟩]
      dsimp only
      rw [hmodule]
      exact ⟨_, rfl, rfl, rfl, rfl⟩
    · rw [if_neg hinit, if_neg (by simp [hinit])]
      dsimp only
      rw [hmodule]
      exact ⟨_, rfl, by simpa using hinit, rfl, rfl⟩

/-- A plugin is loaded into a module that was not mapped. -/
structure Begins (l : PluginLoader) (path : String) (mod : ModuleHandle) (exports : Exports)
    (rc : Int32) (l' : PluginLoader) : Prop where
  closed : l.linker.objects.lookup mod.key = none
  serial : mod.serial = l.linker.nextSerial
  nextSerial : l'.linker.nextSerial = l.linker.nextSerial + 1
  exported : exports.pluginExecute = true ∧ exports.pluginShutdown = true
  lookup : ∀ file, l'.linker.objects.lookup file =
    if file = mod.key then some ⟨mod.serial, exports, 0⟩ else l.linker.objects.lookup file
  calls : ∀ mod', l'.callsInto mod' =
    l.callsInto mod' ++ if mod = mod' then [.pluginInitialize rc] else []
  loaded : (l'.recordOf path).loaded = true
  initialized : (l'.recordOf path).initialized = decide (rc = 0)
  moduleHandle : (l'.recordOf path).moduleHandle = some mod
  others : ∀ path', path' ≠ path → l'.recordOf path' = l.recordOf path'

/-- The load of a file that is not mapped begins the life of a new module. -/
theorem Loads.begins {library : Library} {answers : Answers}
    (hfile : l.linker.objects.lookup library.file = none) (h : l.Loads path library answers l') :
    l.Begins path ⟨library.file, l.linker.nextSerial⟩ library.exports answers.initRc l' := by
  obtain ⟨haccepted, s, hloaded, hinit, hmodule, rfl⟩ := h
  have hmapped : l.mapped library = _ := OpenTable.acquire_of_closed hfile
  unfold exportsOf at haccepted
  rw [hfile, Option.elim_none] at haccepted
  rw [hmapped] at hmodule ⊢
  have hself : ∀ l₀ : PluginLoader, (l₀.put path s).recordOf path = s := by
    intro l₀
    rw [recordOf_put, if_pos rfl]
  refine ⟨hfile, rfl, rfl, ?_, fun file => ?_, fun mod' => ?_, ?_, ?_, ?_, fun path' hpath => ?_⟩
  · simpa using (not_or.mp (not_or.mp haccepted.exported).2).2
  · exact KeyedMap.lookup_insert_eq_ite
  · rw [callsInto_put, callsInto_record]
    rfl
  · rw [hself, hloaded]
  · rw [hself, hinit]
  · rw [hself, hmodule]
  · rw [recordOf_put, if_neg hpath]
    rfl

/-- The module is new to every plugin that is loaded. -/
theorem Begins.keeps {exports : Exports} {rc : Int32} {s : PluginInternalState}
    (hbegins : l.Begins path mod exports rc l') (hkeeps : l.Keeps s mod') :
    mod ≠ mod' ∧ l'.Keeps s mod' := by
  obtain ⟨o, hlookup, ho⟩ := hkeeps.mapped
  have hkey : mod'.key ≠ mod.key := by
    intro hkey
    rw [hkey, hbegins.closed] at hlookup
    cases hlookup
  have hne : mod ≠ mod' := fun heq => hkey (heq ▸ rfl)
  refine ⟨hne, hkeeps.moduleHandle, ⟨o, ?_, ho⟩, ?_⟩
  · rwa [hbegins.lookup, if_neg hkey]
  · rw [hbegins.calls, if_neg hne, List.append_nil]
    exact hkeeps.follows

/-- The life that begins changes nothing for the other plugins. -/
theorem Begins.holds_iff {exports : Exports} {rc : Int32} {path' : String}
    (hbegins : l.Begins path mod exports rc l') (hpath : path' ≠ path) :
    l'.Holds path' mod' ↔ l.Holds path' mod' := by
  unfold Holds
  rw [hbegins.others path' hpath]

/-- A loaded plugin is unloaded: its module is shut down if it was initialized, and unmapped. -/
structure Ends (l : PluginLoader) (path : String) (mod : ModuleHandle) (l' : PluginLoader) :
    Prop where
  nextSerial : l'.linker.nextSerial = l.linker.nextSerial
  lookup : ∀ file, l'.linker.objects.lookup file =
    if file = mod.key then none else l.linker.objects.lookup file
  calls : ∀ mod', l'.callsInto mod' = l.callsInto mod' ++
    if mod = mod' ∧ (l.recordOf path).initialized = true then [.pluginShutdown] else []
  loaded : (l'.recordOf path).loaded = false
  initialized : (l'.recordOf path).initialized = false
  moduleHandle : (l'.recordOf path).moduleHandle = none
  others : ∀ path', path' ≠ path → l'.recordOf path' = l.recordOf path'

/-- An unload ends the life of the module. -/
theorem ends_pluginUnload (hloaded : (l.recordOf path).loaded = true)
    (hkeeps : l.Keeps (l.recordOf path) mod) : l.Ends path mod (l.pluginUnload path) := by
  obtain ⟨s, hs, hinit, hmodule, hunload⟩ := pluginUnload_of_loaded hloaded hkeeps
  obtain ⟨o, hlookup, hserial, hothers, -⟩ := hkeeps.mapped
  have hrelease := OpenTable.release_of_single hlookup hserial hothers
  rw [hunload, hrelease]
  have hself : ∀ l₀ : PluginLoader, (l₀.put path s).recordOf path = s := by
    intro l₀
    rw [recordOf_put, if_pos rfl]
  refine ⟨rfl, fun file => KeyedMap.lookup_erase_eq_ite, fun mod' => ?_, ?_, ?_, ?_,
    fun path' hpath => ?_⟩
  · rw [callsInto_put]
    by_cases hrunning : (l.recordOf path).initialized = true
    · rw [if_pos hrunning]
      simp only [hrunning, and_true]
      exact callsInto_record
    · rw [if_neg hrunning, if_neg fun h => hrunning h.2, List.append_nil]
      rfl
  · rw [hself, hs]
  · rw [hself, hinit]
  · rw [hself, hmodule]
  · rw [recordOf_put, if_neg hpath]
    split_ifs <;> rfl

/-- The life that ends makes no call into another module. -/
theorem Ends.callsInto_of_ne (hends : l.Ends path mod l') (hmod : mod ≠ mod') :
    l'.callsInto mod' = l.callsInto mod' := by
  rw [hends.calls, if_neg fun h => hmod h.1, List.append_nil]

/-- The life that ends changes nothing for the other plugins. -/
theorem Ends.holds_iff {path' : String} (hends : l.Ends path mod l') (hpath : path' ≠ path) :
    l'.Holds path' mod' ↔ l.Holds path' mod' := by
  unfold Holds
  rw [hends.others path' hpath]

/-! ## The invariant -/

/-- Between two calls. -/
structure Coherent (l : PluginLoader) : Prop where
  loaded : ∀ path, (l.recordOf path).loaded = true → ∃ mod, l.Keeps (l.recordOf path) mod
  unloaded : ∀ path, (l.recordOf path).loaded = false →
    (l.recordOf path).moduleHandle = none ∧ (l.recordOf path).initialized = false
  distinct : ∀ path path' mod, l.Holds path mod → l.Holds path' mod → path = path'
  held : ∀ file o, l.linker.objects.lookup file = some o → ∃ path, l.Holds path ⟨file, o.serial⟩
  fresh : ∀ mod, l.linker.nextSerial ≤ mod.serial → l.callsInto mod = []
  released : ∀ mod, (∀ path, ¬l.Holds path mod) →
    ∃ p : Phase, p ≠ .running ∧ p.Follows (l.callsInto mod)

namespace Coherent

/-- A module that a plugin holds is kept by its record. -/
theorem keeps (h : l.Coherent) (hholds : l.Holds path mod) : l.Keeps (l.recordOf path) mod := by
  obtain ⟨mod', hkeeps⟩ := h.loaded path hholds.1
  have heq : mod' = mod := Option.some.inj (hkeeps.moduleHandle.symm.trans hholds.2)
  rwa [heq] at hkeeps

theorem empty : Coherent {} where
  loaded path hloaded := by cases hloaded
  unloaded path _ := ⟨rfl, rfl⟩
  distinct path path' mod h := by cases h.1
  held file o h := by cases h
  fresh mod _ := rfl
  released mod _ := ⟨.mapped, by decide, rfl⟩

/-- Every state that keeps the invariant is in order. -/
theorem inOrder (h : l.Coherent) : l.InOrder where
  ordered mod := by
    by_cases hheld : ∃ path, l.Holds path mod
    · obtain ⟨path, hholds⟩ := hheld
      exact ⟨_, (h.keeps hholds).follows⟩
    · obtain ⟨p, -, hfollows⟩ := h.released mod (not_exists.mp hheld)
      exact ⟨p, hfollows⟩
  shutDown mod hnone hinit := by
    obtain ⟨p, hp, hfollows⟩ := h.released mod hnone
    exact count_shutdown hfollows hp hinit

/-- Calls that do nothing to modules keep the invariant. -/
theorem silent (h : l.Coherent) (hsilent : l.Silent l') : l'.Coherent := by
  have hholds : ∀ path mod, l'.Holds path mod ↔ l.Holds path mod := by
    intro path mod
    unfold Holds
    rw [(hsilent.sameUse path).loaded, (hsilent.sameUse path).moduleHandle]
  refine ⟨fun path hloaded => ?_, fun path hloaded => ?_, fun path path' mod hp hp' => ?_,
    fun file o hlookup => ?_, fun mod hmod => ?_, fun mod hnone => ?_⟩
  · rw [(hsilent.sameUse path).loaded] at hloaded
    obtain ⟨mod, hmodule, hmapped, hfollows⟩ := h.loaded path hloaded
    refine ⟨mod, (hsilent.sameUse path).moduleHandle.trans hmodule, ?_, ?_⟩
    · rwa [hsilent.linker.lookup]
    · rwa [hsilent.callsInto, (hsilent.sameUse path).initialized]
  · rw [(hsilent.sameUse path).loaded] at hloaded
    rw [(hsilent.sameUse path).moduleHandle, (hsilent.sameUse path).initialized]
    exact h.unloaded path hloaded
  · exact h.distinct path path' mod ((hholds _ _).mp hp) ((hholds _ _).mp hp')
  · rw [hsilent.linker.lookup] at hlookup
    obtain ⟨path, hp⟩ := h.held file o hlookup
    exact ⟨path, (hholds _ _).mpr hp⟩
  · rw [hsilent.callsInto]
    exact h.fresh mod (hsilent.linker.nextSerial.trans hmod)
  · rw [hsilent.callsInto]
    exact h.released mod fun path hp => hnone path ((hholds _ _).mpr hp)

/-- A number that is in use is below the next one. -/
theorem serial_lt (h : l.Coherent) (hcalls : l.callsInto mod ≠ []) :
    mod.serial < l.linker.nextSerial :=
  Nat.lt_of_not_le fun hle => hcalls (h.fresh mod hle)

/-- A plugin executes whose module runs. -/
theorem record_pluginExecute (h : l.Coherent) (hholds : l.Holds path mod)
    (hinit : (l.recordOf path).initialized = true) (rc : Int32) :
    (l.record mod (.pluginExecute rc)).Coherent := by
  have hrunning : Phase.running.Follows (l.callsInto mod) := by
    have h := (h.keeps hholds).follows
    rwa [if_pos hinit] at h
  -- only the plugin that holds the module has a phase that the call may change
  refine { h with loaded := ?_, fresh := ?_, released := ?_ }
  · intro path' hloaded
    rw [recordOf_record] at hloaded ⊢
    obtain ⟨mod', hkeeps⟩ := h.loaded path' hloaded
    refine ⟨mod', hkeeps.moduleHandle, hkeeps.mapped, ?_⟩
    rw [callsInto_record]
    by_cases hmod : mod = mod'
    · subst hmod
      have hpath : path' = path := h.distinct _ _ _ ⟨hloaded, hkeeps.moduleHandle⟩ hholds
      rw [hpath, if_pos hinit, if_pos rfl]
      exact follows_execute hrunning rc
    · rw [if_neg hmod, List.append_nil]
      exact hkeeps.follows
  · intro mod' hmod'
    have hne : mod ≠ mod' := by
      rintro rfl
      exact absurd (h.serial_lt (h.keeps hholds).callsInto_ne_nil) (Nat.not_lt.mpr hmod')
    rw [callsInto_record, if_neg hne, List.append_nil]
    exact h.fresh mod' hmod'
  · intro mod' hnone
    have hne : mod ≠ mod' := by
      rintro rfl
      exact hnone path hholds
    rw [callsInto_record, if_neg hne, List.append_nil]
    exact h.released mod' hnone

/-- A plugin is loaded into a module of its own. -/
theorem begins {exports : Exports} {rc : Int32} (h : l.Coherent)
    (hunloaded : (l.recordOf path).loaded = false)
    (hbegins : l.Begins path mod exports rc l') : l'.Coherent := by
  have hempty : l.callsInto mod = [] := h.fresh mod hbegins.serial.ge
  have hself : ∀ path', l'.Holds path' mod → path' = path := by
    intro path' hp
    by_contra hpath
    have hp := (hbegins.holds_iff hpath).mp hp
    exact (hbegins.keeps (h.keeps hp)).1 rfl
  refine ⟨fun path' hloaded => ?_, fun path' hloaded => ?_, fun path₁ path₂ mod' hp₁ hp₂ => ?_,
    fun file o hlookup => ?_, fun mod' hmod' => ?_, fun mod' hnone => ?_⟩
  -- in each part the path that was loaded comes first, then the others
  · by_cases hpath : path' = path
    · subst hpath
      refine ⟨mod, hbegins.moduleHandle, ⟨⟨mod.serial, exports, 0⟩, ?_, rfl, rfl,
        hbegins.exported⟩, ?_⟩
      · rw [hbegins.lookup, if_pos rfl]
      · rw [hbegins.calls, if_pos rfl, hempty]
        simpa [hbegins.initialized] using follows_begin rc
    · rw [hbegins.others path' hpath] at hloaded ⊢
      obtain ⟨mod', hkeeps⟩ := h.loaded path' hloaded
      exact ⟨mod', (hbegins.keeps hkeeps).2⟩
  · by_cases hpath : path' = path
    · rw [hpath, hbegins.loaded] at hloaded
      cases hloaded
    · rw [hbegins.others path' hpath] at hloaded ⊢
      exact h.unloaded path' hloaded
  · by_cases hpath₁ : path₁ = path
    · have hmod : mod' = mod :=
        Option.some.inj (hp₁.2.symm.trans (hpath₁ ▸ hbegins.moduleHandle))
      rw [hpath₁, hself path₂ (hmod ▸ hp₂)]
    · by_cases hpath₂ : path₂ = path
      · have hmod : mod' = mod :=
          Option.some.inj (hp₂.2.symm.trans (hpath₂ ▸ hbegins.moduleHandle))
        rw [hpath₂, hself path₁ (hmod ▸ hp₁)]
      · exact h.distinct _ _ mod' ((hbegins.holds_iff hpath₁).mp hp₁)
          ((hbegins.holds_iff hpath₂).mp hp₂)
  · rw [hbegins.lookup] at hlookup
    split_ifs at hlookup with hfile
    · obtain rfl := Option.some.inj hlookup
      subst hfile
      exact ⟨path, hbegins.loaded, hbegins.moduleHandle⟩
    · obtain ⟨path', hp⟩ := h.held file o hlookup
      have hpath : path' ≠ path := by
        rintro rfl
        exact absurd hp.1 (by simp [hunloaded])
      exact ⟨path', (hbegins.holds_iff hpath).mpr hp⟩
  · have hne : mod ≠ mod' := by
      rintro rfl
      rw [hbegins.nextSerial, hbegins.serial] at hmod'
      omega
    rw [hbegins.calls, if_neg hne, List.append_nil]
    refine h.fresh mod' (le_trans ?_ hmod')
    rw [hbegins.nextSerial]
    omega
  · have hne : mod ≠ mod' := by
      rintro rfl
      exact hnone path ⟨hbegins.loaded, hbegins.moduleHandle⟩
    rw [hbegins.calls, if_neg hne, List.append_nil]
    refine h.released mod' fun path' hp => ?_
    have hpath : path' ≠ path := by
      rintro rfl
      exact absurd hp.1 (by simp [hunloaded])
    exact hnone path' ((hbegins.holds_iff hpath).mpr hp)

/-- A plugin is unloaded whose module is mapped for it alone. -/
theorem ends (h : l.Coherent) (hholds : l.Holds path mod) (hends : l.Ends path mod l') :
    l'.Coherent := by
  have hkeeps := h.keeps hholds
  have hunloaded : ∀ path' mod', l'.Holds path' mod' → path' ≠ path := by
    rintro path' mod' hp rfl
    exact absurd hp.1 (by simp [hends.loaded])
  -- the modules of the other plugins are mapped from other files
  have hkey : ∀ path' mod', path' ≠ path → l.Holds path' mod' → mod'.key ≠ mod.key := by
    intro path' mod' hpath hp hkey
    obtain ⟨o, hlookup, hserial, -⟩ := hkeeps.mapped
    obtain ⟨o', hlookup', hserial', -⟩ := (h.keeps hp).mapped
    rw [hkey, hlookup] at hlookup'
    obtain rfl := Option.some.inj hlookup'
    have hmod : mod' = mod := by
      cases mod'
      cases mod
      exact congrArg₂ OpenHandle.mk hkey (hserial'.symm.trans hserial)
    exact hpath (h.distinct _ _ _ (hmod ▸ hp) hholds)
  refine ⟨fun path' hloaded => ?_, fun path' hloaded => ?_, fun path₁ path₂ mod' hp₁ hp₂ => ?_,
    fun file o hlookup => ?_, fun mod' hmod' => ?_, fun mod' hnone => ?_⟩
  · have hpath : path' ≠ path := by
      rintro rfl
      exact absurd hloaded (by simp [hends.loaded])
    rw [hends.others path' hpath] at hloaded ⊢
    obtain ⟨mod', hkeeps'⟩ := h.loaded path' hloaded
    have hkey := hkey path' mod' hpath ⟨hloaded, hkeeps'.moduleHandle⟩
    obtain ⟨o, hlookup, ho⟩ := hkeeps'.mapped
    refine ⟨mod', hkeeps'.moduleHandle, ⟨o, ?_, ho⟩, ?_⟩
    · rwa [hends.lookup, if_neg hkey]
    · rw [hends.callsInto_of_ne fun hmod => hkey (hmod ▸ rfl)]
      exact hkeeps'.follows
  · by_cases hpath : path' = path
    · rw [hpath]
      exact ⟨hends.moduleHandle, hends.initialized⟩
    · rw [hends.others path' hpath] at hloaded ⊢
      exact h.unloaded path' hloaded
  · exact h.distinct _ _ mod' ((hends.holds_iff (hunloaded _ _ hp₁)).mp hp₁)
      ((hends.holds_iff (hunloaded _ _ hp₂)).mp hp₂)
  · rw [hends.lookup] at hlookup
    split_ifs at hlookup with hfile
    obtain ⟨path', hp⟩ := h.held file o hlookup
    have hpath : path' ≠ path := by
      rintro rfl
      have hmod : (⟨file, o.serial⟩ : ModuleHandle) = mod :=
        Option.some.inj (hp.2.symm.trans hholds.2)
      exact hfile (congrArg OpenHandle.key hmod)
    exact ⟨path', (hends.holds_iff hpath).mpr hp⟩
  · rw [hends.nextSerial] at hmod'
    have hne : mod ≠ mod' := by
      rintro rfl
      exact absurd (h.serial_lt hkeeps.callsInto_ne_nil) (Nat.not_lt.mpr hmod')
    rw [hends.callsInto_of_ne hne]
    exact h.fresh mod' hmod'
  · by_cases hmod : mod = mod'
    · subst hmod
      have hfollows := hkeeps.follows
      by_cases hinit : (l.recordOf path).initialized = true
      · rw [if_pos hinit] at hfollows
        rw [hends.calls, if_pos ⟨rfl, hinit⟩]
        exact ⟨.shutDown, by decide, follows_shutdown hfollows⟩
      · rw [if_neg hinit] at hfollows
        rw [hends.calls, if_neg fun heq => hinit heq.2, List.append_nil]
        exact ⟨.failed, by decide, hfollows⟩
    · rw [hends.callsInto_of_ne hmod]
      refine h.released mod' fun path' hp => hnone path' ((hends.holds_iff ?_).mpr hp)
      rintro rfl
      exact hmod (Option.some.inj (hholds.2.symm.trans hp.2))

end Coherent

/-! ## Runs -/

/-- A library that may be loaded is not mapped, or is refused. -/
theorem lookup_of_permits {library : Library} {answers : Answers}
    (hunloaded : (l.recordOf path).loaded = false)
    (hpermits : l.Permits (.pluginLoad path (some library) answers))
    (haccepted : Accepted (l.exportsOf library) answers) :
    l.linker.objects.lookup library.file = none := by
  cases hlookup : l.linker.objects.lookup library.file with
  | none => rfl
  | some o =>
    have hrefused := hpermits hunloaded library rfl o hlookup
    unfold exportsOf at haccepted
    rw [hlookup, Option.elim_some] at haccepted
    rw [(validateModule_fst_eq_true_iff _ _ _).mpr haccepted] at hrefused
    cases hrefused

/-- Every permitted call keeps the invariant. -/
theorem coherent_next (h : l.Coherent) {call : Call} (hpermits : l.Permits call) :
    (l.next call).Coherent := by
  -- one case for each entry point
  cases call with
  | pluginDiscover pluginDir entries => exact h.silent (silent_pluginDiscover l pluginDir entries)
  | pluginLoad path library answers =>
    change (l.pluginLoad path library answers).2.Coherent
    rw [pluginLoad_eq]
    split_ifs with hloaded
    · exact h
    · have hunloaded : (l.recordOf path).loaded = false := by simpa using hloaded
      obtain ⟨-, hsilent⟩ | ⟨lib, rfl, hloads⟩ :=
        loadInto_cases (h.unloaded path hunloaded).1 library answers
      · exact h.silent hsilent
      · have hfile := lookup_of_permits hunloaded hpermits hloads.accepted
        exact h.begins hunloaded (hloads.begins hfile)
  | pluginExecute path rc =>
    change (l.pluginExecute path rc).2.Coherent
    by_cases hloaded : (l.recordOf path).loaded = true
    · obtain ⟨mod, hkeeps⟩ := h.loaded path hloaded
      have hexecuted := h.record_pluginExecute ⟨hloaded, hkeeps.moduleHandle⟩
        (hpermits hloaded) rc
      exact hexecuted.silent (silent_pluginExecute hloaded hkeeps rc)
    · rw [pluginExecute_of_unloaded (by simpa using hloaded)]
      exact h
  | pluginUnload path =>
    change (l.pluginUnload path).Coherent
    by_cases hloaded : (l.recordOf path).loaded = true
    · obtain ⟨mod, hkeeps⟩ := h.loaded path hloaded
      exact h.ends ⟨hloaded, hkeeps.moduleHandle⟩ (ends_pluginUnload hloaded hkeeps)
    · have hunloaded : (l.recordOf path).loaded = false := by simpa using hloaded
      exact h.silent (silent_pluginUnload hunloaded (h.unloaded path hunloaded).1)

theorem coherent_of_reachable (h : calls.Reachable Permits l) : l.Coherent := by
  refine h.invariant ?_ ?_
  · rintro l rfl
    exact .empty
  · rintro l call l' hcoherent hpermits rfl
    exact coherent_next hcoherent hpermits

/-- **The order of the calls.** In every state that permitted calls reach, the calls into every
module are in order and every module that was initialized and is no longer loaded has been shut down
once. -/
theorem inOrder_of_reachable (h : calls.Reachable Permits l) : l.InOrder :=
  (coherent_of_reachable h).inOrder

/-- **The first call that is not permitted.** It breaks the order of the calls. -/
theorem not_inOrder_next (h : calls.Reachable Permits l) {call : Call}
    (hpermits : ¬l.Permits call) : ¬(l.next call).InOrder := by
  have hcoherent := coherent_of_reachable h
  intro horder
  cases call with
  | pluginDiscover pluginDir entries => exact hpermits trivial
  | pluginUnload path => exact hpermits trivial
  | pluginExecute path rc =>
    unfold Permits at hpermits
    push Not at hpermits
    obtain ⟨hloaded, hinit⟩ := hpermits
    obtain ⟨mod, hkeeps⟩ := hcoherent.loaded path hloaded
    have hfailed := hkeeps.follows
    rw [if_neg hinit] at hfailed
    obtain ⟨p, hfollows⟩ := horder.ordered mod
    have hcalls : (l.next (.pluginExecute path rc)).callsInto mod =
        l.callsInto mod ++ [.pluginExecute rc] := by
      have hsilent := (silent_pluginExecute hloaded hkeeps rc).callsInto mod
      rwa [callsInto_record, if_pos rfl] at hsilent
    rw [hcalls] at hfollows
    exact not_follows_execute hfailed rc hfollows
  | pluginLoad path library answers =>
    unfold Permits at hpermits
    push Not at hpermits
    obtain ⟨hunloaded, lib, rfl, o, hlookup, haccepted⟩ := hpermits
    have hnext : l.next (.pluginLoad path (some lib) answers) =
        (l.loadInto path (some lib) answers (l.recordOf path)).2 := by
      change (l.pluginLoad path (some lib) answers).2 = _
      rw [pluginLoad_eq, if_neg (by simp [hunloaded])]
    rw [hnext] at horder
    have hexports : l.exportsOf lib = o.content := by
      unfold exportsOf
      rw [hlookup, Option.elim_some]
    obtain ⟨hrefused, -⟩ | ⟨lib', heq, hloads⟩ :=
      loadInto_cases (hcoherent.unloaded path hunloaded).1 (some lib) answers
    · rw [Bool.ne_false_iff, validateModule_fst_eq_true_iff, ← hexports] at haccepted
      exact hrefused lib rfl haccepted
    · obtain rfl := Option.some.inj heq
      -- the file is mapped for another plugin, whose module gets the second initialization
      obtain ⟨-, s, -, -, -, hl'⟩ := hloads
      obtain ⟨path', hholds⟩ := hcoherent.held lib.file o hlookup
      have hne := (hcoherent.keeps hholds).callsInto_ne_nil
      have hmapped : l.mapped lib = _ := OpenTable.acquire_of_open hlookup
      rw [hl', hmapped] at horder
      obtain ⟨p, hfollows⟩ := horder.ordered ⟨lib.file, o.serial⟩
      rw [callsInto_put, callsInto_record, if_pos rfl] at hfollows
      exact not_follows_initialize hne _ hfollows

/-- The state after a list of calls that are permitted. -/
theorem reachable_foldl {ls : List Call} (h : TransitionSystem.Along Permits next {} ls) :
    calls.Reachable Permits (ls.foldl next {}) :=
  (TransitionSystem.Reachable.init rfl).foldl (fun _ _ hpermits => ⟨hpermits, rfl⟩) h

/-- A plugin is loaded, executed, unloaded and loaded again; the initialization of another one
fails, and it is unloaded. -/
def sampleCalls : List Call :=
  [.pluginLoad "a.so" (some { file := 1 }) {}, .pluginExecute "a.so" 0,
    .pluginLoad "b.so" (some { file := 2 }) { initRc := 5 }, .pluginExecute "a.so" 3,
    .pluginUnload "b.so", .pluginUnload "a.so", .pluginLoad "a.so" (some { file := 1 }) {}]

theorem inOrder_sampleCalls : (sampleCalls.foldl next {}).InOrder :=
  inOrder_of_reachable (reachable_foldl (by decide +kernel))

/-- The initialization fails, and the plugin executes. -/
theorem not_inOrder : ¬([.pluginLoad "a.so" (some { file := 1 }) { initRc := 5 },
    .pluginExecute "a.so" 0].foldl next {}).InOrder := by
  intro h
  obtain ⟨p, hfollows⟩ := h.ordered ⟨1, 0⟩
  have hcalls : ([.pluginLoad "a.so" (some { file := 1 }) { initRc := 5 },
      .pluginExecute "a.so" 0].foldl next {}).callsInto ⟨1, 0⟩ =
      [.pluginInitialize 5, .pluginExecute 0] := by decide +kernel
  have hfailed : Phase.failed.Follows [.pluginInitialize 5] := ⟨5, by decide, rfl⟩
  rw [hcalls] at hfollows
  exact not_follows_execute hfailed 0 hfollows

end PluginLoader
end HeteroAccel.Plugin
